import EspMiner.Main.StratumV2Effect

/-!
# Share accounting on a Stratum V2 connection

The client believes the sequence numbers and counts of the pool's answers, except that it clamps an
accepted count to the pending shares.  A pool that answers a share twice gets it reported twice:
`share_rejected_twice`.

`shares_accounted` says when the accounts hold over a whole run: each submitted sequence number is
answered at most once, and a success counts at most the shares that it covers and no answer covered
before.  Nothing is assumed of the counters.  The proof keeps two balances in every state:

* the reported shares and the shares that no answer covers are together at most those submitted:
  an answer takes from the second what it adds to the first;
* a covered share is below the resolved counter, and the pending counter is at most the distance
  from there to the sequence number.
-/

namespace EspMiner

open Library

namespace StratumV2Client

/-- The shares that got a sequence number. -/
def submittedShares : List Sv2Event → Nat
  | [] => 0
  | .submitted _ :: older => submittedShares older + 1
  | _ :: older => submittedShares older

/-- The calls of `SYSTEM_notify_accepted_share` and `SYSTEM_notify_rejected_share`. -/
def notifiedShares : List Sv2Event → Nat
  | [] => 0
  | .acceptedShare :: older => notifiedShares older + 1
  | .rejectedShare _ :: older => notifiedShares older + 1
  | _ :: older => notifiedShares older

/-- An answer that the client accepted covers this submitted share: a success all
shares up to its last sequence number, an error the one it names. -/
def coveredShare : List Sv2Event → Nat → Bool
  | [], _ => false
  | .successAnswer last :: older, share =>
      decide (share ≤ last.toNat ∧ share < submittedShares older) || coveredShare older share
  | .errorAnswer sequenceNumber :: older, share =>
      decide (share = sequenceNumber.toNat ∧ share < submittedShares older) ||
        coveredShare older share
  | _ :: older, share => coveredShare older share

/-- The number of submitted shares that no answer covers. -/
def uncoveredShares (trace : List Sv2Event) : Nat :=
  (List.range (submittedShares trace)).countP fun share => !coveredShare trace share

/-- The accounts of the connection. -/
structure SharesAccounted (c : StratumV2Client) : Prop where
  notified : notifiedShares c.trace ≤ submittedShares c.trace
  resolved : c.conn.resolvedShares ≤ c.conn.sequenceNumber
  pending : c.sharesPending.toNat ≤ uncoveredShares c.trace

/-- The shares that a success up to `last` covers and that no answer covered before. -/
def newlyCovered (trace : List Sv2Event) (last : U32) : Nat :=
  (List.range (submittedShares trace)).countP fun share =>
    decide (share ≤ last.toNat) && !coveredShare trace share

/-- A success ends at a submitted share and counts at most the shares that it is the first to cover;
an error names a submitted share that no answer covered.  The sequence number `0xffffffff`, whose
successor is zero, resolves nothing, so as a success it is only harmless while nothing is pending.
Sequence numbers do not run out. -/
def AnswersKept (c : StratumV2Client) : Input → Prop
  | .frame msgType payload _ =>
      if msgType = SV2_MSG_SUBMIT_SHARES_SUCCESS then
        match sv2ParseSubmitSharesSuccess payload with
        | none => True
        | some message => message.channelId = c.conn.channelId →
            (message.lastSequenceNumber < c.conn.sequenceNumber ∨
              (message.lastSequenceNumber + 1 = 0 ∧
                c.conn.resolvedShares = c.conn.sequenceNumber)) ∧
            (message.acceptedCount.toNat ≤ newlyCovered c.trace message.lastSequenceNumber ∨
              c.conn.resolvedShares = c.conn.sequenceNumber)
      else if msgType = SV2_MSG_SUBMIT_SHARES_ERROR then
        match sv2ParseSubmitSharesError payload with
        | none => True
        | some message => message.channelId = c.conn.channelId →
            message.seqNum < c.conn.sequenceNumber ∧
            coveredShare c.trace message.seqNum.toNat = false
      else True
  | .submit share _ _ => share.workGeneration = c.stratumWorkGeneration →
      c.conn.poolIdx = share.poolId → c.conn.sequenceNumber + 1 ≠ 0
  | _ => True

instance (c : StratumV2Client) (input : Input) : Decidable (AnswersKept c input) := by
  unfold AnswersKept
  split
  · split_ifs
    · split <;> infer_instance
    · split <;> infer_instance
    · infer_instance
  · infer_instance
  · infer_instance

/-! ## The invariant -/

/-- The counters are what the trace says, and every covered share is resolved. -/
structure SharesTracked (c : StratumV2Client) : Prop where
  submitted : c.conn.sequenceNumber.toNat = submittedShares c.trace
  notified : notifiedShares c.trace + uncoveredShares c.trace ≤ submittedShares c.trace
  covered : ∀ share, coveredShare c.trace share = true → share < c.conn.resolvedShares.toNat
  pending : c.sharesPending.toNat + c.conn.resolvedShares.toNat ≤ c.conn.sequenceNumber.toNat

theorem SharesTracked.accounted {c : StratumV2Client} (h : SharesTracked c) :
    SharesAccounted c := by
  have hpending := h.pending
  refine ⟨(Nat.le_add_right _ _).trans h.notified, BitVec.le_def.mpr (by omega), ?_⟩
  -- the shares from the resolved counter on are not covered
  have hsplit : List.range (submittedShares c.trace) =
      List.range c.conn.resolvedShares.toNat ++
        (List.range (submittedShares c.trace - c.conn.resolvedShares.toNat)).map
          (c.conn.resolvedShares.toNat + ·) := by
    rw [← List.range_add, Nat.add_sub_cancel' (by rw [← h.submitted]; omega)]
  have hrest : ((List.range (submittedShares c.trace - c.conn.resolvedShares.toNat)).map
      (c.conn.resolvedShares.toNat + ·)).countP (fun share => !coveredShare c.trace share) =
        submittedShares c.trace - c.conn.resolvedShares.toNat := by
    rw [List.countP_eq_length.mpr, List.length_map, List.length_range]
    intro share hshare
    obtain ⟨i, -, rfl⟩ := List.mem_map.mp hshare
    cases hcovered : coveredShare c.trace (c.conn.resolvedShares.toNat + i) with
    | false => rfl
    | true =>
      have := h.covered _ hcovered
      omega
  rw [uncoveredShares, hsplit, List.countP_append, hrest, ← h.submitted]
  omega

/-! ## What an answer covers -/

theorem countP_and_add_countP_not_and {α : Type*} (p q : α → Bool) (items : List α) :
    items.countP (fun x => q x && p x) + items.countP (fun x => !q x && p x) = items.countP p := by
  rw [List.countP_eq_length_filter (p := p), List.length_eq_countP_add_countP q, List.countP_filter,
    List.countP_filter]
  congr 1
  refine List.countP_congr fun x _ => ?_
  cases q x <;> simp

/-- A success covers the shares that it newly covers. -/
theorem uncoveredShares_success (trace : List Sv2Event) (last : U32) :
    newlyCovered trace last + uncoveredShares (.successAnswer last :: trace) =
      uncoveredShares trace := by
  have hrest : uncoveredShares (.successAnswer last :: trace) =
      (List.range (submittedShares trace)).countP fun share =>
        !decide (share ≤ last.toNat) && !coveredShare trace share := by
    refine List.countP_congr fun share hshare => ?_
    have hlt : share < submittedShares trace := List.mem_range.mp hshare
    simp [coveredShare, hlt]
  rw [hrest]
  exact countP_and_add_countP_not_and _ (fun share => decide (share ≤ last.toNat)) _

/-- An error covers the share that it names. -/
theorem uncoveredShares_error {trace : List Sv2Event} {sequenceNumber : U32}
    (hsubmitted : sequenceNumber.toNat < submittedShares trace)
    (huncovered : coveredShare trace sequenceNumber.toNat = false) :
    1 + uncoveredShares (.errorAnswer sequenceNumber :: trace) = uncoveredShares trace := by
  have hone : (List.range (submittedShares trace)).countP (fun share =>
      decide (share = sequenceNumber.toNat) && !coveredShare trace share) = 1 := by
    have hcount : (List.range (submittedShares trace)).count sequenceNumber.toNat = 1 := by
      rw [List.Nodup.count List.nodup_range, if_pos (List.mem_range.mpr hsubmitted)]
    rw [← hcount, List.count]
    refine List.countP_congr fun share _ => ?_
    by_cases hsame : share = sequenceNumber.toNat
    · simp [hsame, huncovered]
    · simp [hsame]
  have hrest : uncoveredShares (.errorAnswer sequenceNumber :: trace) =
      (List.range (submittedShares trace)).countP fun share =>
        !decide (share = sequenceNumber.toNat) && !coveredShare trace share := by
    refine List.countP_congr fun share hshare => ?_
    have hlt : share < submittedShares trace := List.mem_range.mp hshare
    simp [coveredShare, hlt]
  rw [hrest, ← hone]
  exact countP_and_add_countP_not_and _ (fun share => decide (share = sequenceNumber.toNat)) _

/-- Only submitted shares are covered. -/
theorem lt_submittedShares_of_covered {trace : List Sv2Event} {share : Nat}
    (h : coveredShare trace share = true) : share < submittedShares trace := by
  induction trace with
  | nil => cases h
  | cons event trace ih =>
    cases event with
    | successAnswer last =>
      rw [coveredShare, Bool.or_eq_true, decide_eq_true_eq] at h
      exact h.elim And.right ih
    | errorAnswer sequenceNumber =>
      rw [coveredShare, Bool.or_eq_true, decide_eq_true_eq] at h
      exact h.elim And.right ih
    | submitted sequenceNumber => exact (ih h).trans (Nat.lt_succ_self _)
    | _ => exact ih h

/-- A new share is not covered. -/
theorem uncoveredShares_submitted (trace : List Sv2Event) (sequenceNumber : U32) :
    uncoveredShares (.submitted sequenceNumber :: trace) = uncoveredShares trace + 1 := by
  have hnew : coveredShare trace (submittedShares trace) = false :=
    Bool.eq_false_iff.mpr fun h => (lt_submittedShares_of_covered h).false
  rw [uncoveredShares, submittedShares, List.range_succ, List.countP_append]
  simp [coveredShare, uncoveredShares, hnew]

theorem acceptedShares_append (n : Nat) (older : List Sv2Event) :
    submittedShares (List.replicate n .acceptedShare ++ older) = submittedShares older ∧
      notifiedShares (List.replicate n .acceptedShare ++ older) = notifiedShares older + n ∧
      coveredShare (List.replicate n .acceptedShare ++ older) = coveredShare older := by
  induction n with
  | zero => exact ⟨rfl, rfl, rfl⟩
  | succ n ih =>
    obtain ⟨hsubmitted, hnotified, hcovered⟩ := ih
    rw [List.replicate_succ, List.cons_append]
    refine ⟨hsubmitted, ?_, hcovered⟩
    rw [notifiedShares, hnotified]
    omega

/-- The pending counter after an update. -/
theorem updatePendingShares_le (c : StratumV2Client)
    (h : c.conn.resolvedShares ≤ c.conn.sequenceNumber) :
    c.updatePendingShares.sharesPending.toNat + c.conn.resolvedShares.toNat ≤
      c.conn.sequenceNumber.toNat := by
  have hle := BitVec.le_def.mp h
  unfold updatePendingShares
  dsimp only
  split
  · next hlt =>
    have hsub : (c.conn.sequenceNumber - c.conn.resolvedShares).toNat =
        c.conn.sequenceNumber.toNat - c.conn.resolvedShares.toNat :=
      BitVec.toNat_sub_of_le h
    split
    · next hlarge =>
      have := BitVec.lt_def.mp hlarge
      rw [hsub] at this
      simp only [BitVec.toNat_ofNat] at this ⊢
      omega
    · next hsmall =>
      have := Nat.not_lt.mp (fun hlt => hsmall (BitVec.lt_def.mpr hlt))
      rw [hsub] at this
      rw [BitVec.toNat_setWidth, hsub]
      simp only [BitVec.toNat_ofNat] at this
      omega
  · simp [hle]

/-- A step that leaves the counters and the shares of the trace alone. -/
theorem SharesTracked.same {c c' : StratumV2Client} (h : SharesTracked c)
    (hsequence : c'.conn.sequenceNumber = c.conn.sequenceNumber)
    (hresolved : c'.conn.resolvedShares = c.conn.resolvedShares)
    (hpending : c'.sharesPending = c.sharesPending)
    (hsubmitted : submittedShares c'.trace = submittedShares c.trace)
    (hnotified : notifiedShares c'.trace = notifiedShares c.trace)
    (hcovered : coveredShare c'.trace = coveredShare c.trace) : SharesTracked c' := by
  refine ⟨?_, ?_, ?_, ?_⟩
  · rw [hsequence, hsubmitted]
    exact h.submitted
  · rw [uncoveredShares, hnotified, hsubmitted, hcovered]
    exact h.notified
  · rw [hcovered, hresolved]
    exact h.covered
  · rw [hpending, hresolved, hsequence]
    exact h.pending

theorem le_resolveShares {c c' : StratumV2Client} (hconn : c'.conn = c.conn) (resolved : U32) :
    c.conn.resolvedShares ≤
      (c'.resolveShares resolved).updatePendingShares.conn.resolvedShares := by
  rw [updatePendingShares_conn, ← hconn]
  unfold resolveShares
  split
  · next hlt => exact BitVec.le_of_lt hlt
  · exact BitVec.le_refl _

/-- Resolving a submitted sequence number, or the one that resolves nothing. -/
theorem resolveShares_bounds {c : StratumV2Client} {n : U32}
    (h : c.conn.resolvedShares ≤ c.conn.sequenceNumber)
    (hn : n < c.conn.sequenceNumber ∨ n + 1 = 0) :
    (c.resolveShares (n + 1)).conn.resolvedShares ≤ c.conn.sequenceNumber ∧
      c.conn.resolvedShares ≤ (c.resolveShares (n + 1)).conn.resolvedShares ∧
      (n < c.conn.sequenceNumber → n < (c.resolveShares (n + 1)).conn.resolvedShares) := by
  rw [resolveShares_eq, setConn_conn]
  dsimp only
  generalize c.conn.sequenceNumber = sequenceNumber at *
  generalize c.conn.resolvedShares = resolved at *
  split
  · next hlt =>
    rcases hn with hn | hn
    · refine ⟨?_, ?_, fun _ => ?_⟩ <;> bv_omega
    · rw [hn] at hlt
      bv_omega
  · next hge =>
    refine ⟨h, BitVec.le_refl _, fun hlt => ?_⟩
    bv_omega

/-- The resolved counter and the pending counter after an answer. -/
theorem SharesTracked.answer {c c' : StratumV2Client} {n : U32} (h : SharesTracked c)
    (hn : n < c.conn.sequenceNumber ∨ n + 1 = 0)
    (hconn : c'.conn = c.conn)
    (hsubmitted : submittedShares c'.trace = submittedShares c.trace)
    (hnotified : notifiedShares c'.trace + uncoveredShares c'.trace ≤ submittedShares c.trace)
    (hcovered : ∀ share, coveredShare c'.trace share = true →
      coveredShare c.trace share = true ∨
        share < (c.resolveShares (n + 1)).conn.resolvedShares.toNat) :
    SharesTracked (c'.resolveShares (n + 1)).updatePendingShares := by
  have hresolved : c.conn.resolvedShares ≤ c.conn.sequenceNumber := h.accounted.resolved
  obtain ⟨hbound, hgrows, -⟩ := resolveShares_bounds hresolved hn
  have hsame : (c'.resolveShares (n + 1)).conn = (c.resolveShares (n + 1)).conn := by
    rw [resolveShares_eq, resolveShares_eq, setConn_conn, setConn_conn, hconn]
  have hsequence : (c.resolveShares (n + 1)).conn.sequenceNumber = c.conn.sequenceNumber := by
    rw [resolveShares_eq, setConn_conn]
  have htrace : (c'.resolveShares (n + 1)).trace = c'.trace := by
    rw [resolveShares_eq, setConn_trace]
  refine ⟨?_, ?_, ?_, ?_⟩
  · rw [updatePendingShares_conn, updatePendingShares_trace, hsame, hsequence, htrace, hsubmitted]
    exact h.submitted
  · rw [updatePendingShares_trace, htrace, hsubmitted]
    exact hnotified
  · intro share hshare
    rw [updatePendingShares_trace, htrace] at hshare
    rw [updatePendingShares_conn, hsame]
    rcases hcovered share hshare with hold | hnew
    · exact Nat.lt_of_lt_of_le (h.covered share hold) (BitVec.le_def.mp hgrows)
    · exact hnew
  · refine updatePendingShares_le _ ?_
    rw [hsame, hsequence]
    exact hbound

/-- A share gets the next sequence number. -/
theorem SharesTracked.submit {c : StratumV2Client} (h : SharesTracked c)
    (hmore : c.conn.sequenceNumber + 1 ≠ 0) :
    SharesTracked ((c.setConn { c.conn with
      sequenceNumber := c.conn.sequenceNumber + 1 }).record
        (.submitted c.conn.sequenceNumber)) := by
  have hnext : (c.conn.sequenceNumber + 1).toNat = c.conn.sequenceNumber.toNat + 1 := by
    generalize c.conn.sequenceNumber = sequenceNumber at hmore ⊢
    bv_omega
  have hsubmitted := h.submitted
  have hnotified := h.notified
  have hpending := h.pending
  refine ⟨?_, ?_, h.covered, ?_⟩
  · simp only [record_conn, setConn_conn, record_trace, submittedShares, setConn_trace]
    omega
  · rw [record_trace, setConn_trace, uncoveredShares_submitted]
    simp only [submittedShares, notifiedShares]
    omega
  · have hsame : ((c.setConn { c.conn with
        sequenceNumber := c.conn.sequenceNumber + 1 }).record
          (.submitted c.conn.sequenceNumber)).sharesPending = c.sharesPending := rfl
    simp only [record_conn, setConn_conn, hsame]
    omega

/-- The clamped count is at most the count, and zero while nothing is pending. -/
theorem clampedAcceptedCount_le {conn : Sv2Conn} {acceptedCount : U32} {bound : Nat}
    (h : acceptedCount.toNat ≤ bound ∨ conn.resolvedShares = conn.sequenceNumber) :
    (clampedAcceptedCount conn acceptedCount).toNat ≤ bound := by
  rw [clampedAcceptedCount]
  rcases h with hcount | hnone
  · generalize (if conn.resolvedShares < conn.sequenceNumber then _ else 0#32) = pending
    split
    · next hlt => exact (Nat.le_of_lt (BitVec.lt_def.mp hlt)).trans hcount
    · exact hcount
  · rw [hnone, if_neg (BitVec.lt_irrefl _)]
    split
    · exact Nat.zero_le _
    · next hzero =>
      have := Nat.not_lt.mp fun hlt => hzero (BitVec.lt_def.mpr hlt)
      exact this.trans (Nat.zero_le _)

section Client

variable (hashToPdiff : Vector U8 32 → U64)

theorem step_sharesTracked {c : StratumV2Client} (h : SharesTracked c) {input : Input}
    (hkept : AnswersKept c input) : SharesTracked (c.step hashToPdiff input) := by
  have hcases := step_cases hashToPdiff c input
  generalize c.step hashToPdiff input = c' at hcases ⊢
  cases hcases with
  | unchanged hmessage htip => exact h
  | rejected hrejected => exact h.same rfl rfl rfl rfl rfl rfl
  | stored hmessage hlater => exact h.same rfl rfl rfl rfl rfl rfl
  | duplicate hmessage himmediate hactive => exact h.same rfl rfl rfl rfl rfl rfl
  | immediate hmessage himmediate hntime hactive =>
    rw [withImmediate, stratumPublishJob_eq]
    exact h.same rfl rfl rfl rfl rfl rfl
  | unknownTip htip hunknown => exact h.same rfl rfl rfl rfl rfl rfl
  | activated htip hready =>
    rw [withActivated, stratumPublishJob_eq]
    exact h.same rfl rfl rfl rfl rfl rfl
  | target maxTarget pdiff => exact h.same rfl rfl rfl rfl rfl rfl
  | @success msgType payload buffers message hinput htype hparsed hchannel =>
    subst hinput
    simp only [AnswersKept, htype, if_true, hparsed] at hkept
    obtain ⟨hnumber, hcount⟩ := hkept hchannel
    obtain ⟨hsubmitted, hnotified, hcovered⟩ := acceptedShares_append
      (clampedAcceptedCount c.conn message.acceptedCount).toNat
      (.successAnswer message.lastSequenceNumber :: c.trace)
    have hn : message.lastSequenceNumber < c.conn.sequenceNumber ∨
        message.lastSequenceNumber + 1 = 0 := hnumber.imp_right And.left
    refine h.answer hn rfl hsubmitted ?_ fun share hshare => ?_
    · -- what is reported was not covered before
      have hclamped := clampedAcceptedCount_le hcount
      have hbalance := uncoveredShares_success c.trace message.lastSequenceNumber
      have hold := h.notified
      dsimp only
      rw [hnotified, uncoveredShares, hsubmitted, hcovered, ← uncoveredShares]
      simp only [notifiedShares]
      omega
    dsimp only at hshare
    rw [hcovered, coveredShare, Bool.or_eq_true, decide_eq_true_eq] at hshare
    rcases hshare with ⟨hlast, hshare⟩ | hold
    · right
      obtain ⟨-, hgrows, hpast⟩ := resolveShares_bounds h.accounted.resolved hn
      rcases hnumber with hlt | ⟨-, hnone⟩
      · exact Nat.lt_of_le_of_lt hlast (BitVec.lt_def.mp (hpast hlt))
      · -- every submitted share was resolved already
        rw [← h.submitted, ← hnone] at hshare
        exact Nat.lt_of_lt_of_le hshare (BitVec.le_def.mp hgrows)
    · exact .inl hold
  | @error msgType payload buffers message hinput htype hparsed hchannel =>
    subst hinput
    have hne : SV2_MSG_SUBMIT_SHARES_ERROR ≠ SV2_MSG_SUBMIT_SHARES_SUCCESS := by decide
    simp only [AnswersKept, htype, hne, if_true, if_false, hparsed] at hkept
    obtain ⟨hlt, huncovered⟩ := hkept hchannel
    refine h.answer (.inl hlt) rfl rfl ?_ fun share hshare => ?_
    · have hbalance := uncoveredShares_error (h.submitted ▸ BitVec.lt_def.mp hlt) huncovered
      have hold := h.notified
      have hsame : uncoveredShares
          (.rejectedShare message.errorCode :: .errorAnswer message.seqNum :: c.trace) =
            uncoveredShares (.errorAnswer message.seqNum :: c.trace) := rfl
      rw [record_trace, record_trace, hsame]
      simp only [notifiedShares]
      omega
    simp only [record_trace, coveredShare, Bool.or_eq_true, decide_eq_true_eq] at hshare
    rcases hshare with ⟨rfl, hshare⟩ | hold
    · right
      obtain ⟨-, -, hpast⟩ := resolveShares_bounds h.accounted.resolved (.inl hlt)
      exact BitVec.lt_def.mp (hpast hlt)
    · exact .inl hold
  | submitted hinput hcurrent hpool =>
    subst hinput
    exact h.submit (hkept hcurrent hpool)
  | @sent share stack sendResult frame hinput hcurrent hpool =>
    subst hinput
    have hsubmit := h.submit (hkept hcurrent hpool)
    generalize (c.setConn { c.conn with
      sequenceNumber := c.conn.sequenceNumber + 1 }).record (.submitted c.conn.sequenceNumber) =
        submitted at *
    have hresolved : (submitted.record (.sent c.conn.sequenceNumber frame)).conn.resolvedShares ≤
        (submitted.record (.sent c.conn.sequenceNumber frame)).conn.sequenceNumber :=
      hsubmit.accounted.resolved
    exact ⟨hsubmit.submitted, hsubmit.notified, hsubmit.covered, updatePendingShares_le _ hresolved⟩
  | invalidated hinput => exact h.same rfl rfl rfl rfl rfl rfl
  | took hinput hnotified => exact h.same rfl rfl rfl rfl rfl rfl

/-- No step takes back what was resolved. -/
theorem step_resolvedShares_le (c : StratumV2Client) (input : Input) :
    c.conn.resolvedShares ≤ (c.step hashToPdiff input).conn.resolvedShares := by
  have hcases := step_cases hashToPdiff c input
  generalize c.step hashToPdiff input = c' at hcases ⊢
  cases hcases with
  | immediate hmessage himmediate hntime hactive =>
    rw [withImmediate, stratumPublishJob_eq]
    exact BitVec.le_refl _
  | activated htip hready =>
    rw [withActivated, stratumPublishJob_eq]
    exact BitVec.le_refl _
  | success hinput htype hparsed hchannel => exact le_resolveShares (by rfl) _
  | error hinput htype hparsed hchannel => exact le_resolveShares (by rfl) _
  | _ => exact BitVec.le_refl _

/-! ## Runs -/

/-- **Share accounting.**  While the pool answers each submitted share at most once and counts no
share that it does not newly cover, the accounts hold at the end of every run; and what was
resolved stays resolved in every run whatsoever. -/
theorem shares_accounted {c : StratumV2Client} (hopened : c.Opened) (inputs more : List Input)
    (hkept : Guarded (step hashToPdiff) AnswersKept c inputs) :
    SharesAccounted (run (step hashToPdiff) c inputs) ∧
      (run (step hashToPdiff) c inputs).conn.resolvedShares ≤
        (run (step hashToPdiff) (run (step hashToPdiff) c inputs) more).conn.resolvedShares := by
  have hstart : SharesTracked c := by
    refine ⟨?_, ?_, fun share hshare => ?_, ?_⟩
    · rw [hopened.sequenceNumber, hopened.trace]
      rfl
    · rw [hopened.trace]
      exact Nat.le_refl _
    · rw [hopened.trace] at hshare
      cases hshare
    · rw [hopened.sharesPending, hopened.resolvedShares, hopened.sequenceNumber]
      exact Nat.le_refl _
  have htracked : SharesTracked (run (step hashToPdiff) c inputs) :=
    Guarded.invariant (P := SharesTracked) _
      (fun _ _ h hok => step_sharesTracked hashToPdiff h hok) hkept hstart
  refine ⟨htracked.accounted, ?_⟩
  generalize run (step hashToPdiff) c inputs = c'
  exact run_invariant (P := fun later => c'.conn.resolvedShares ≤ later.conn.resolvedShares) _
    (fun later input h => BitVec.le_trans h (step_resolvedShares_le hashToPdiff later input))
    (BitVec.le_refl _) more

end Client

/-! ## A share that is reported twice -/

/-- A share of generation 0 on pool 0. -/
def someShare : AsicShareSubmission where
  jobId := [48]
  extranonce2 := []
  nonce := 7
  ntime := 1700000000
  finalVersion := 0x20000000
  versionBits := 0
  protocol := .sv2Standard
  poolId := 0
  workGeneration := 0

/-- The share is sent. -/
def submitSomeShare : Input := .submit someShare (Vector.replicate 32 0) 0

/-- A SubmitSharesError on channel 1. -/
def submitSharesErrorFrame (sequenceNumber : U32) : Input :=
  .frame SV2_MSG_SUBMIT_SHARES_ERROR (writeLe32 1 ++ writeLe32 sequenceNumber ++ [1, 0x78]) .full

/-- A SubmitSharesSuccess on channel 1. -/
def submitSharesSuccessFrame (lastSequenceNumber acceptedCount : U32) : Input :=
  .frame SV2_MSG_SUBMIT_SHARES_SUCCESS (writeLe32 1 ++ writeLe32 lastSequenceNumber ++
    writeLe32 acceptedCount ++ List.replicate 8 0) .full

theorem shares_accounted_of_answers :
    SharesAccounted (run (step fun _ => 0) (openChannel .standard)
      [submitSomeShare, submitSomeShare, submitSharesSuccessFrame 0 1,
        submitSharesErrorFrame 1]) :=
  (shares_accounted (fun _ => 0) (openChannel_opened .standard)
    [submitSomeShare, submitSomeShare, submitSharesSuccessFrame 0 1, submitSharesErrorFrame 1] []
    ⟨by decide +kernel, by decide +kernel, by decide +kernel, by decide +kernel, trivial⟩).1

/-- One share, and the pool rejects it twice. -/
theorem share_rejected_twice :
    ¬ SharesAccounted (run (step fun _ => 0) (openChannel .standard)
      [submitSomeShare, submitSharesErrorFrame 0, submitSharesErrorFrame 0]) := by
  intro h
  have hnotified := h.notified
  revert hnotified
  decide +kernel

end StratumV2Client

end EspMiner
