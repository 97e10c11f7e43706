import EspMiner.Main.StratumV1Accounting

/-!
# Shares are counted as the pool answers them

Three invariants: which ids were written and answered, what the timing slots hold
for the shares that wait for their response, and how the counter of pending
shares follows both.  A share is known to its slot from the stamp on, until its
response is looked up, as long as no later id takes the slot.
-/

namespace EspMiner

open Library

/-- A parsed message that answers a request. -/
def StratumMethod.isResponse : StratumMethod → Bool
  | .stratumResult | .stratumResultSubscribe | .stratumResultConfigure => true
  | _ => false

/-- The share that the submission task has written and not counted. -/
def StampPlace.uid : StampPlace → Option Int
  | .idle => none
  | .written uid | .clocked uid _ | .stamped uid => some uid

/-- The share whose slot is not stamped yet. -/
def StampPlace.unstamped : StampPlace → Option Int
  | .written uid | .clocked uid _ => some uid
  | .idle | .stamped _ => none

/-- The response that will be looked up next. -/
def ResponsePlace.messageId : ResponsePlace → Option Int
  | .received message _ => some message.messageId
  | .idle | .timed _ | .counted _ | .draw _ | .send _ _ => none

theorem StampPlace.uid_of_unstamped {place : StampPlace} {uid : Int}
    (h : place.unstamped = some uid) : place.uid = some uid := by
  cases place with
  | idle | stamped _ => cases h
  | written _ | clocked _ _ => exact h

/-- A share is a request. -/
theorem writtenIds_of_share {trace : List AccountingEvent} {id : Int} (h : id ∈ shareIds trace) :
    id ∈ writtenIds trace := by
  obtain ⟨event, hevent, hid⟩ := List.mem_filterMap.mp h
  refine List.mem_filterMap.mpr ⟨event, hevent, ?_⟩
  cases event with
  | share uid => exact hid
  | _ => cases hid

theorem timingIndex_inj {first second : Int} (h : timingIndex first = timingIndex second)
    (hfirst : first < second + 1024) (hsecond : second < first + 1024) : first = second := by
  have hvalue := congrArg Fin.val h
  simp only [timingIndex, MAX_REQUEST_IDS] at hvalue
  omega

namespace ShareAccounting

variable {s : ShareAccounting}

/-- The ids that were drawn, written and answered. -/
structure IdsOk (s : ShareAccounting) : Prop where
  positive : 1 ≤ s.sendUid
  nodup : (writtenIds s.trace).Nodup
  below : ∀ id ∈ writtenIds s.trace, 1 ≤ id ∧ id < s.sendUid
  drawn : ∀ uid requests, s.receiver = .send uid requests →
    (1 ≤ uid ∧ uid < s.sendUid) ∧ uid ∉ writtenIds s.trace
  submitting : ∀ uid, s.submitter.uid = some uid →
    uid ∈ shareIds s.trace ∧ s.sendUid = uid + 1
  answered : ∀ id ∈ answeredIds s.trace, id ∈ writtenIds s.trace
  answeredNodup : (answeredIds s.trace).Nodup
  received : ∀ id, s.receiver.messageId = some id → id ∈ answeredIds s.trace

/-- The response to the share was not looked up yet. -/
def Waiting (s : ShareAccounting) (uid : Int) : Prop :=
  uid ∉ answeredIds s.trace ∨ s.receiver.messageId = some uid

/-- What the slots hold for the shares that wait, as long as their slots are not
taken by later ids. -/
structure TimingsOk (s : ShareAccounting) : Prop where
  tracked : ∀ uid ∈ shareIds s.trace, s.sendUid ≤ uid + 1024 →
    s.submitter.unstamped ≠ some uid → s.Waiting uid →
    (s.requestTimings (timingIndex uid)).tracking = true ∧
      (s.requestTimings (timingIndex uid)).timestampUs ≤ s.now
  clocked : ∀ uid now, s.submitter = .clocked uid now → now ≤ s.now
  stamped : ∀ message receiveTimeUs, s.receiver = .received message receiveTimeUs →
    message.messageId ∈ shareIds s.trace → s.sendUid ≤ message.messageId + 1024 →
    s.submitter.unstamped ≠ some message.messageId →
    (s.requestTimings (timingIndex message.messageId)).timestampUs ≤ receiveTimeUs
  stamping : ∀ message receiveTimeUs, s.receiver = .received message receiveTimeUs →
    s.submitter ≠ .written message.messageId ∧
      ∀ now, s.submitter = .clocked message.messageId now → now ≤ receiveTimeUs

/-- The share that the submission task will count as pending. -/
def uncounted (s : ShareAccounting) : Nat := if s.submitter = .idle then 0 else 1

/-- The response to a share that is still counted as pending. -/
def undecremented (s : ShareAccounting) : Nat :=
  match s.receiver with
  | .received message _ => if message.messageId ∈ shareIds s.trace then 1 else 0
  | .timed _ => 1
  | .idle | .counted _ | .draw _ | .send _ _ => 0

/-- The response to a share that no counter has seen yet. -/
def inHand (s : ShareAccounting) : List (Int × Bool) :=
  match s.receiver with
  | .received message _ =>
      if message.messageId ∈ shareIds s.trace then
        [(message.messageId, message.responseSuccess)] else []
  | .timed message | .counted message => [(message.messageId, message.responseSuccess)]
  | .idle | .draw _ | .send _ _ => []

theorem undecremented_of {place : ResponsePlace} (hplace : s.receiver = place) :
    s.undecremented = { s with receiver := place }.undecremented := by
  rw [← hplace]

theorem inHand_of {place : ResponsePlace} (hplace : s.receiver = place) :
    s.inHand = { s with receiver := place }.inHand := by
  rw [← hplace]

/-- The counters follow the shares and the responses. -/
structure CountsOk (s : ShareAccounting) : Prop where
  pending : s.sharesPending.toNat + (shareResponses s.trace).length + s.uncounted =
    (shareIds s.trace).length + s.undecremented
  notified : shareResponses s.trace = s.inHand ++ notifications s.trace

/-- What the claimed order of events and the pool allow: the pool answers a
request once, and a share by a plain result; the clock of a share is read before
its response is received, and its slot stamped before the response is looked up,
with less than a turn of the ring of later requests; the slot of another request
tracks no share then; and the counter of pending shares is not at its end. -/
def Allowed (s : ShareAccounting) : Input → Prop
  | .tick _ => True
  | .submit _ => s.sendUid < INT_MAX
  | .submitter =>
      match s.submitter with
      | .stamped _ => s.sharesPending < 0xffff
      | .idle | .written _ | .clocked _ _ => True
  | .message message =>
      message.method.isResponse = true →
        (message.messageId ∈ writtenIds s.trace ∧ message.messageId ∉ answeredIds s.trace) ∧
        (message.messageId ∈ shareIds s.trace → message.method = .stratumResult) ∧
        s.submitter ≠ .written message.messageId
  | .receiver _ =>
      match s.receiver with
      | .received message _ =>
          if message.messageId ∈ shareIds s.trace then
            s.submitter.unstamped ≠ some message.messageId ∧
              s.sendUid ≤ message.messageId + MAX_REQUEST_IDS
          else (s.requestTimings (timingIndex message.messageId)).tracking = false
      | .timed _ => 0 < s.sharesPending
      | .draw _ => s.sendUid < INT_MAX
      | .idle | .counted _ | .send _ _ => True

/-! ## Ids -/

/-- A step that writes and draws nothing. -/
theorem IdsOk.congr {s s' : ShareAccounting} (h : IdsOk s) (hsendUid : s'.sendUid = s.sendUid)
    (hwritten : writtenIds s'.trace = writtenIds s.trace)
    (hshares : shareIds s'.trace = shareIds s.trace)
    (hanswered : answeredIds s'.trace = answeredIds s.trace)
    (hdrawn : ∀ uid requests, s'.receiver ≠ .send uid requests)
    (hreceived : ∀ id, s'.receiver.messageId = some id → id ∈ answeredIds s.trace)
    (hsubmitter : s'.submitter.uid = s.submitter.uid) : IdsOk s' := by
  refine ⟨?_, ?_, ?_, fun uid requests hplace => absurd hplace (hdrawn uid requests),
    ?_, ?_, ?_, ?_⟩
  · rw [hsendUid]
    exact h.positive
  · rw [hwritten]
    exact h.nodup
  · rw [hwritten, hsendUid]
    exact h.below
  · rw [hsubmitter, hshares, hsendUid]
    exact h.submitting
  · rw [hanswered, hwritten]
    exact h.answered
  · rw [hanswered]
    exact h.answeredNodup
  · rw [hanswered]
    exact hreceived

theorem IdsOk.not_written (h : IdsOk s) : s.sendUid ∉ writtenIds s.trace :=
  fun hmem => Int.lt_irrefl _ (h.below _ hmem).2

theorem IdsOk.submit (h : IdsOk s) (ok : Bool) : IdsOk (s.submit ok) := by
  unfold ShareAccounting.submit
  cases hsubmitter : s.submitter with
  | idle =>
    have hbelow : ∀ id ∈ writtenIds s.trace, 1 ≤ id ∧ id < s.sendUid + 1 := fun id hid =>
      (h.below id hid).imp_right fun hlt => Int.lt_add_one_of_le (Int.le_of_lt hlt)
    cases ok with
    | false =>
      refine ⟨Int.le_add_one h.positive, h.nodup, hbelow, fun uid requests hplace => ?_, ?_,
        h.answered, h.answeredNodup, h.received⟩
      · obtain ⟨hrange, hnew⟩ := h.drawn uid requests hplace
        exact ⟨⟨hrange.1, Int.lt_add_one_of_le (Int.le_of_lt hrange.2)⟩, hnew⟩
      · intro uid huid
        cases huid
    | true =>
      refine ⟨Int.le_add_one h.positive, List.nodup_cons.mpr ⟨h.not_written, h.nodup⟩,
        fun id hid => ?_, fun uid requests hplace => ?_, ?_,
        fun id hid => List.mem_cons_of_mem _ (h.answered id hid), h.answeredNodup, h.received⟩
      · rcases List.mem_cons.mp hid with rfl | hbefore
        · exact ⟨h.positive, Int.lt_succ _⟩
        · exact hbelow id hbefore
      · obtain ⟨hrange, hnew⟩ := h.drawn uid requests hplace
        refine ⟨⟨hrange.1, Int.lt_add_one_of_le (Int.le_of_lt hrange.2)⟩, fun hmem => ?_⟩
        rcases List.mem_cons.mp hmem with rfl | hbefore
        · exact Int.lt_irrefl _ hrange.2
        · exact hnew hbefore
      · intro uid huid
        cases huid
        exact ⟨List.mem_cons_self, rfl⟩
  | written _ => exact h
  | clocked _ _ => exact h
  | stamped _ => exact h

theorem IdsOk.submitterStep (h : IdsOk s) : IdsOk s.submitterStep := by
  have hstep {s' : ShareAccounting} (hsendUid : s'.sendUid = s.sendUid)
      (htrace : s'.trace = s.trace) (hreceiver : s'.receiver = s.receiver)
      (hsubmitter : ∀ uid, s'.submitter.uid = some uid → s.submitter.uid = some uid) :
      IdsOk s' := by
    refine ⟨?_, ?_, ?_, ?_, fun uid huid => ?_, ?_, ?_, ?_⟩
    · rw [hsendUid]
      exact h.positive
    · rw [htrace]
      exact h.nodup
    · rw [htrace, hsendUid]
      exact h.below
    · rw [htrace, hsendUid, hreceiver]
      exact h.drawn
    · rw [htrace, hsendUid]
      exact h.submitting uid (hsubmitter uid huid)
    · rw [htrace]
      exact h.answered
    · rw [htrace]
      exact h.answeredNodup
    · rw [htrace, hreceiver]
      exact h.received
  unfold ShareAccounting.submitterStep
  cases hsubmitter : s.submitter with
  | idle => exact h
  | written uid => exact hstep rfl rfl rfl fun _ huid => hsubmitter ▸ huid
  | clocked uid now => exact hstep rfl rfl rfl fun _ huid => hsubmitter ▸ huid
  | stamped uid => exact hstep rfl rfl rfl nofun

theorem IdsOk.receive (h : IdsOk s) {message : StratumApiV1Message}
    (hallowed : Allowed s (.message message)) : IdsOk (s.receive message) := by
  have hanswer (hresponse : message.method.isResponse = true) {s' : ShareAccounting}
      (hsendUid : s'.sendUid = s.sendUid) (hsubmitter : s'.submitter = s.submitter)
      (htrace : s'.trace = .response message.messageId message.responseSuccess :: s.trace)
      (hdrawn : ∀ uid requests, s'.receiver ≠ .send uid requests)
      (hreceived : ∀ id, s'.receiver.messageId = some id → id = message.messageId) :
      IdsOk s' := by
    obtain ⟨⟨hwritten, hnew⟩, -⟩ := hallowed hresponse
    refine ⟨?_, ?_, ?_, fun uid requests hplace => absurd hplace (hdrawn uid requests), ?_,
      fun id hid => ?_, ?_, fun id hid => ?_⟩
    · rw [hsendUid]
      exact h.positive
    · rw [htrace]
      exact h.nodup
    · rw [htrace, hsendUid]
      exact h.below
    · rw [htrace, hsubmitter, hsendUid]
      exact h.submitting
    · rw [htrace] at hid ⊢
      rcases List.mem_cons.mp hid with rfl | hbefore
      · exact hwritten
      · exact h.answered id hbefore
    · rw [htrace]
      exact List.nodup_cons.mpr ⟨hnew, h.answeredNodup⟩
    · rw [htrace, hreceived id hid]
      exact List.mem_cons_self
  unfold ShareAccounting.receive
  cases hplace : s.receiver with
  | idle =>
    dsimp only
    split
    · next hmethod =>
      exact hanswer (by rw [hmethod]; rfl) rfl rfl rfl nofun fun _ hid => (Option.some.inj hid).symm
    · next hmethod =>
      refine hanswer (by rw [hmethod]; rfl) rfl rfl rfl (fun uid requests hsend => ?_)
        fun id hid => ?_
      · exact nomatch hplace.symm.trans hsend
      · exact nomatch (congrArg ResponsePlace.messageId hplace).symm.trans hid
    · next hmethod =>
      refine hanswer (by rw [hmethod]; rfl) rfl rfl rfl (fun uid requests hsend => ?_)
        fun id hid => ?_
      · exact nomatch hplace.symm.trans hsend
      · exact nomatch (congrArg ResponsePlace.messageId hplace).symm.trans hid
    · exact h
  | _ => exact h

theorem IdsOk.receiverStep (h : IdsOk s) (ok : Bool) : IdsOk (s.receiverStep ok) := by
  unfold ShareAccounting.receiverStep
  cases hplace : s.receiver with
  | idle => exact h
  | received message receiveTimeUs =>
    dsimp only
    split
    · exact h.congr rfl rfl rfl rfl nofun nofun rfl
    · split
      · exact h.congr rfl rfl rfl rfl nofun nofun rfl
      · exact h.congr rfl rfl rfl rfl nofun nofun rfl
  | timed message => exact h.congr rfl rfl rfl rfl nofun nofun rfl
  | counted message =>
    dsimp only
    split
    · exact h.congr rfl rfl rfl rfl nofun nofun rfl
    · exact h.congr rfl rfl rfl rfl nofun nofun rfl
  | draw requests =>
    cases requests with
    | nil => exact h.congr rfl rfl rfl rfl nofun nofun rfl
    | cons request requests =>
      dsimp only
      split
      · next hsubmitter =>
        refine ⟨Int.le_add_one h.positive, h.nodup, fun id hid => ?_, fun uid rest hsend => ?_,
          fun uid huid => ?_, h.answered, h.answeredNodup, nofun⟩
        · exact (h.below id hid).imp_right fun hlt => Int.lt_add_one_of_le (Int.le_of_lt hlt)
        · cases hsend
          exact ⟨⟨h.positive, Int.lt_succ _⟩, h.not_written⟩
        · exact nomatch (congrArg StampPlace.uid hsubmitter).symm.trans huid
      · exact h
  | send uid requests =>
    obtain ⟨hrange, hnew⟩ := h.drawn uid requests hplace
    cases ok with
    | false => exact h.congr rfl rfl rfl rfl nofun nofun rfl
    | true =>
      refine ⟨h.positive, List.nodup_cons.mpr ⟨hnew, h.nodup⟩, fun id hid => ?_, nofun,
        h.submitting, fun id hid => List.mem_cons_of_mem _ (h.answered id hid), h.answeredNodup,
        nofun⟩
      rcases List.mem_cons.mp hid with rfl | hbefore
      · exact hrange
      · exact h.below id hbefore

theorem IdsOk.tick (h : IdsOk s) (now : Int) : IdsOk { s with now := now } :=
  ⟨h.positive, h.nodup, h.below, h.drawn, h.submitting, h.answered, h.answeredNodup, h.received⟩

/-! ## Timing slots -/

/-- The slots of two ids in the window are different. -/
theorem timingIndex_ne (h : IdsOk s) {first second : Int} (hne : first ≠ second)
    (hfirst : first ∈ writtenIds s.trace) (hsecond : second ∈ writtenIds s.trace)
    (hwindow : s.sendUid ≤ first + 1024) (hwindow' : s.sendUid ≤ second + 1024) :
    timingIndex first ≠ timingIndex second := by
  have hlt := (h.below first hfirst).2
  have hlt' := (h.below second hsecond).2
  exact fun heq => hne (timingIndex_inj heq (by omega) (by omega))

/-- The receive loop goes on, and no slot of a waiting share changes. -/
theorem TimingsOk.leave {s s' : ShareAccounting} (h : TimingsOk s)
    (htimings : ∀ uid ∈ shareIds s.trace, s.sendUid ≤ uid + 1024 → uid ∉ answeredIds s.trace →
      s'.requestTimings (timingIndex uid) = s.requestTimings (timingIndex uid))
    (hshares : shareIds s'.trace = shareIds s.trace)
    (hanswered : ∀ id ∈ answeredIds s.trace, id ∈ answeredIds s'.trace)
    (hsendUid : s.sendUid ≤ s'.sendUid) (hnow : s'.now = s.now)
    (hsubmitter : s'.submitter = s.submitter)
    (hplace : s'.receiver.messageId = none) : TimingsOk s' := by
  have hwaiting {uid : Int} (hwaiting : s'.Waiting uid) : uid ∉ answeredIds s.trace := by
    rcases hwaiting with hnew | hid
    · exact fun hmem => hnew (hanswered uid hmem)
    · exact nomatch hplace.symm.trans hid
  have hleft (message : StratumApiV1Message) (time : Int) :
      s'.receiver ≠ .received message time := fun hreceiver =>
    nomatch hplace.symm.trans (congrArg ResponsePlace.messageId hreceiver)
  refine ⟨fun uid hshare hwindow hunstamped huid => ?_, ?_,
    fun message time hreceiver => absurd hreceiver (hleft message time),
    fun message time hreceiver => absurd hreceiver (hleft message time)⟩
  · rw [hshares] at hshare
    rw [hsubmitter] at hunstamped
    have hwindow' := Int.le_trans hsendUid hwindow
    rw [htimings uid hshare hwindow' (hwaiting huid), hnow]
    exact h.tracked uid hshare hwindow' hunstamped (.inl (hwaiting huid))
  · rw [hsubmitter, hnow]
    exact h.clocked

theorem TimingsOk.tick (h : TimingsOk s) (elapsedUs : Nat) :
    TimingsOk { s with now := s.now + elapsedUs } := by
  have hle : s.now ≤ s.now + elapsedUs := by omega
  exact ⟨fun uid hshare hwindow hunstamped hwaiting =>
      (h.tracked uid hshare hwindow hunstamped hwaiting).imp_right fun hbefore =>
        Int.le_trans hbefore hle,
    fun uid now hplace => Int.le_trans (h.clocked uid now hplace) hle, h.stamped, h.stamping⟩

theorem TimingsOk.submit (h : TimingsOk s) (hids : IdsOk s) (ok : Bool) :
    TimingsOk (s.submit ok) := by
  unfold ShareAccounting.submit
  cases hsubmitter : s.submitter with
  | idle =>
    have hnone (uid : Int) : s.submitter.unstamped ≠ some uid := by
      rw [hsubmitter]
      exact nofun
    have hle : s.sendUid ≤ s.sendUid + 1 := Int.le_of_lt (Int.lt_succ _)
    cases ok with
    | false =>
      exact ⟨fun uid hshare hwindow _ hwaiting =>
          h.tracked uid hshare (Int.le_trans hle hwindow) (hnone uid) hwaiting, nofun,
        fun message time hplace hshare hwindow _ =>
          h.stamped message time hplace hshare (Int.le_trans hle hwindow) (hnone _),
        fun _ _ _ => ⟨nofun, nofun⟩⟩
    | true =>
      refine ⟨fun uid hshare hwindow hunstamped hwaiting => ?_, nofun,
        fun message time hplace hshare hwindow hunstamped => ?_,
        fun message time hplace => ⟨fun hsame => ?_, nofun⟩⟩
      · rcases List.mem_cons.mp hshare with rfl | hbefore
        · exact absurd rfl hunstamped
        · exact h.tracked uid hbefore (Int.le_trans hle hwindow) (hnone uid) hwaiting
      · rcases List.mem_cons.mp hshare with hnew | hbefore
        · exact absurd (congrArg some hnew.symm) hunstamped
        · exact h.stamped message time hplace hbefore (Int.le_trans hle hwindow) (hnone _)
      · have hreceived := hids.received message.messageId
          (congrArg ResponsePlace.messageId hplace)
        have hlt := (hids.below _ (hids.answered _ hreceived)).2
        rw [← StampPlace.written.inj hsame] at hlt
        exact Int.lt_irrefl _ hlt
  | written _ => exact h
  | clocked _ _ => exact h
  | stamped _ => exact h

theorem TimingsOk.submitterStep (h : TimingsOk s) (hids : IdsOk s) : TimingsOk s.submitterStep := by
  unfold ShareAccounting.submitterStep
  cases hsubmitter : s.submitter with
  | idle => exact h
  | written uid =>
    have hunstamped : s.submitter.unstamped = some uid := by rw [hsubmitter]; rfl
    refine ⟨fun other hshare hwindow hother hwaiting =>
        h.tracked other hshare hwindow (hunstamped ▸ hother) hwaiting,
      fun other now hplace => ?_, fun message time hplace hshare hwindow hother =>
        h.stamped message time hplace hshare hwindow (hunstamped ▸ hother),
      fun message time hplace => ⟨nofun, fun now hclocked => ?_⟩⟩
    · cases hplace
      exact Int.le_refl _
    · cases hclocked
      exact absurd hsubmitter (h.stamping message time hplace).1
  | clocked uid now =>
    have hunstamped : s.submitter.unstamped = some uid := by rw [hsubmitter]; rfl
    obtain ⟨hshare, hnext⟩ := hids.submitting uid (StampPlace.uid_of_unstamped hunstamped)
    have hwritten := writtenIds_of_share hshare
    have hstamp : stampTx s.requestTimings uid now =
        Function.update s.requestTimings (timingIndex uid) ⟨now, true⟩ :=
      if_pos (hids.below uid hwritten).1
    have hself : stampTx s.requestTimings uid now (timingIndex uid) = ⟨now, true⟩ := by
      rw [hstamp, Function.update_self]
    have hother {other : Int} (hne : other ≠ uid) (hmem : other ∈ shareIds s.trace)
        (hwindow : s.sendUid ≤ other + 1024) :
        stampTx s.requestTimings uid now (timingIndex other) =
          s.requestTimings (timingIndex other) := by
      have hslot := timingIndex_ne hids hne (writtenIds_of_share hmem) hwritten hwindow (by omega)
      rw [hstamp, Function.update_of_ne hslot]
    refine ⟨fun other hmem hwindow _ hwaiting => ?_, nofun,
      fun message time hplace hmem hwindow _ => ?_, fun _ _ _ => ⟨nofun, nofun⟩⟩
    · by_cases hne : other = uid
      · subst hne
        dsimp only
        rw [hself]
        exact ⟨rfl, h.clocked other now hsubmitter⟩
      · dsimp only
        rw [hother hne hmem hwindow]
        exact h.tracked other hmem hwindow (fun hsome => hne (Option.some.inj
          (hsome.symm.trans hunstamped))) hwaiting
    · by_cases hne : message.messageId = uid
      · dsimp only
        rw [hne, hself]
        exact (h.stamping message time hplace).2 now (hne ▸ hsubmitter)
      · dsimp only
        rw [hother hne hmem hwindow]
        exact h.stamped message time hplace hmem hwindow fun hsome => hne (Option.some.inj
          (hsome.symm.trans hunstamped))
  | stamped uid =>
    have hunstamped (other : Int) : s.submitter.unstamped ≠ some other := by
      rw [hsubmitter]
      exact nofun
    exact ⟨fun other hshare hwindow _ hwaiting =>
        h.tracked other hshare hwindow (hunstamped other) hwaiting, nofun,
      fun message time hplace hshare hwindow _ =>
        h.stamped message time hplace hshare hwindow (hunstamped _),
      fun _ _ _ => ⟨nofun, nofun⟩⟩

theorem TimingsOk.receive (h : TimingsOk s) {message : StratumApiV1Message}
    (hallowed : Allowed s (.message message)) : TimingsOk (s.receive message) := by
  unfold ShareAccounting.receive
  cases hplace : s.receiver with
  | idle =>
    have hidle := congrArg ResponsePlace.messageId hplace
    dsimp only
    split
    · next hmethod =>
      obtain ⟨⟨-, hnew⟩, -, hwritten⟩ := hallowed (by rw [hmethod]; rfl)
      refine ⟨fun uid hshare hwindow hunstamped hwaiting => ?_, h.clocked,
        fun other time hreceived hshare hwindow hunstamped => ?_, fun other time hreceived => ?_⟩
      · refine h.tracked uid hshare hwindow hunstamped (.inl ?_)
        rcases hwaiting with hwaiting | hid
        · exact fun hmem => hwaiting (List.mem_cons_of_mem _ hmem)
        · cases hid
          exact hnew
      · cases hreceived
        exact (h.tracked _ hshare hwindow hunstamped (.inl hnew)).2
      · cases hreceived
        exact ⟨hwritten, fun now hclocked => h.clocked _ now hclocked⟩
    · exact h.leave (fun _ _ _ _ => rfl) rfl (fun _ hmem => List.mem_cons_of_mem _ hmem)
        (Int.le_refl _) rfl rfl hidle
    · exact h.leave (fun _ _ _ _ => rfl) rfl (fun _ hmem => List.mem_cons_of_mem _ hmem)
        (Int.le_refl _) rfl rfl hidle
    · exact h
  | _ => exact h

/-- The response of a share is looked up in time. -/
theorem TimingsOk.response (h : TimingsOk s) (hids : IdsOk s) {message : StratumApiV1Message}
    {receiveTimeUs : Int} (hplace : s.receiver = .received message receiveTimeUs)
    (hshare : message.messageId ∈ shareIds s.trace)
    (hunstamped : s.submitter.unstamped ≠ some message.messageId)
    (hwindow : s.sendUid ≤ message.messageId + 1024) :
    ∃ time, 0 ≤ time ∧
      stratumV1GetResponseTime s.requestTimings message.messageId receiveTimeUs =
        (some time, Function.update s.requestTimings (timingIndex message.messageId)
          { s.requestTimings (timingIndex message.messageId) with tracking := false }) := by
  obtain ⟨htracking, -⟩ := h.tracked _ hshare hwindow hunstamped
    (.inr (congrArg ResponsePlace.messageId hplace))
  have htime := h.stamped message receiveTimeUs hplace hshare hwindow hunstamped
  have hpositive := (hids.below _ (writtenIds_of_share hshare)).1
  refine ⟨_, Int.sub_nonneg_of_le htime, if_neg ?_⟩
  rw [htracking]
  rintro (hnegative | hfalse)
  · omega
  · cases hfalse

/-- The slot of a request that is not a share tracks nothing. -/
theorem response_of_not_tracking {timings : RequestTimings} {requestId receiveTimeUs : Int}
    (h : (timings (timingIndex requestId)).tracking = false) :
    stratumV1GetResponseTime timings requestId receiveTimeUs = (none, timings) :=
  if_pos (.inr h)

theorem TimingsOk.receiverStep (h : TimingsOk s) (hids : IdsOk s) {ok : Bool}
    (hallowed : Allowed s (.receiver ok)) : TimingsOk (s.receiverStep ok) := by
  have hleave {s' : ShareAccounting} (htimings : s'.requestTimings = s.requestTimings)
      (hshares : shareIds s'.trace = shareIds s.trace)
      (hanswered : answeredIds s'.trace = answeredIds s.trace)
      (hsendUid : s.sendUid ≤ s'.sendUid) (hnow : s'.now = s.now)
      (hsubmitter : s'.submitter = s.submitter)
      (hplace : s'.receiver.messageId = none) : TimingsOk s' :=
    h.leave (fun _ _ _ _ => by rw [htimings]) hshares (fun _ hmem => by rw [hanswered]; exact hmem)
      hsendUid hnow hsubmitter hplace
  unfold Allowed at hallowed
  unfold ShareAccounting.receiverStep
  cases hplace : s.receiver with
  | idle => exact h
  | received message receiveTimeUs =>
    rw [hplace] at hallowed
    dsimp only at hallowed ⊢
    split at hallowed
    · next hshare =>
      obtain ⟨hunstamped, hwindow⟩ := hallowed
      obtain ⟨time, hnonneg, hresponse⟩ := h.response hids hplace hshare hunstamped hwindow
      have hanswered := hids.received _ (congrArg ResponsePlace.messageId hplace)
      rw [hresponse]
      dsimp only [Option.any]
      rw [if_pos (decide_eq_true hnonneg)]
      refine h.leave (fun uid hmem hwindow' hnew => ?_) rfl (fun _ hmem => hmem) (Int.le_refl _)
        rfl rfl rfl
      refine Function.update_of_ne ?_ _ _
      refine timingIndex_ne hids (fun heq => hnew (heq ▸ hanswered)) (writtenIds_of_share hmem)
        (writtenIds_of_share hshare) hwindow' hwindow
    · rw [response_of_not_tracking hallowed]
      dsimp only
      split
      · exact hleave rfl rfl rfl (Int.le_refl _) rfl rfl rfl
      · split
        · exact hleave rfl rfl rfl (Int.le_refl _) rfl rfl rfl
        · exact hleave rfl rfl rfl (Int.le_refl _) rfl rfl rfl
  | timed message => exact hleave rfl rfl rfl (Int.le_refl _) rfl rfl rfl
  | counted message =>
    dsimp only
    split
    · exact hleave rfl rfl rfl (Int.le_refl _) rfl rfl rfl
    · exact hleave rfl rfl rfl (Int.le_refl _) rfl rfl rfl
  | draw requests =>
    cases requests with
    | nil => exact hleave rfl rfl rfl (Int.le_refl _) rfl rfl rfl
    | cons request requests =>
      dsimp only
      split
      · exact hleave rfl rfl rfl (Int.le_of_lt (Int.lt_succ _)) rfl rfl rfl
      · exact h
  | send uid requests =>
    cases ok with
    | false => exact hleave rfl rfl rfl (Int.le_refl _) rfl rfl rfl
    | true => exact hleave rfl rfl rfl (Int.le_refl _) rfl rfl rfl

/-! ## Counters -/

theorem toNat_increment {pending : U16} (h : pending < 0xffff) :
    (pending + if pending < 0xffff then 1 else 0).toNat = pending.toNat + 1 := by
  rw [if_pos h]
  bv_omega

theorem toNat_decrement {pending : U16} (h : 0 < pending) :
    (pending - if 0 < pending then 1 else 0).toNat + 1 = pending.toNat := by
  rw [if_pos h]
  bv_omega

/-- No counter is touched, and the loop has the same response in hand. -/
theorem CountsOk.congr {s s' : ShareAccounting} (h : CountsOk s)
    (hpending : s'.sharesPending = s.sharesPending)
    (hresponses : shareResponses s'.trace = shareResponses s.trace)
    (hshares : (shareIds s'.trace).length + s.uncounted =
      (shareIds s.trace).length + s'.uncounted)
    (hundecremented : s'.undecremented = s.undecremented) (hinHand : s'.inHand = s.inHand)
    (hnotifications : notifications s'.trace = notifications s.trace) : CountsOk s' := by
  have hcount := h.pending
  refine ⟨?_, ?_⟩
  · rw [hpending, hresponses, hundecremented]
    omega
  · rw [hresponses, hinHand, hnotifications]
    exact h.notified

theorem CountsOk.submit (h : CountsOk s) (hids : IdsOk s) (ok : Bool) : CountsOk (s.submit ok) := by
  unfold ShareAccounting.submit
  cases hsubmitter : s.submitter with
  | idle =>
    have hidle : s.uncounted = 0 := if_pos hsubmitter
    cases ok with
    | false => exact h.congr rfl rfl (by rw [hidle]; rfl) rfl rfl rfl
    | true =>
      have hmem {id : Int} (hid : s.receiver.messageId = some id) :
          id ∈ s.sendUid :: shareIds s.trace ↔ id ∈ shareIds s.trace := by
        have hlt := (hids.below id (hids.answered id (hids.received id hid))).2
        rw [List.mem_cons, or_iff_right (Int.ne_of_lt hlt)]
      refine h.congr rfl rfl (by rw [hidle]; rfl) ?_ ?_ rfl
      · unfold undecremented
        cases hplace : s.receiver with
        | received message time =>
          exact if_congr (hmem (congrArg ResponsePlace.messageId hplace)) rfl rfl
        | _ => rfl
      · unfold inHand
        cases hplace : s.receiver with
        | received message time =>
          exact if_congr (hmem (congrArg ResponsePlace.messageId hplace)) rfl rfl
        | _ => rfl
  | written _ => exact h
  | clocked _ _ => exact h
  | stamped _ => exact h

theorem CountsOk.submitterStep (h : CountsOk s) (hallowed : Allowed s .submitter) :
    CountsOk s.submitterStep := by
  unfold Allowed at hallowed
  unfold ShareAccounting.submitterStep
  cases hsubmitter : s.submitter with
  | idle => exact h
  | written uid =>
    have hbusy : s.uncounted = 1 := if_neg (by rw [hsubmitter]; exact nofun)
    exact h.congr rfl rfl (by rw [hbusy]; rfl) rfl rfl rfl
  | clocked uid now =>
    have hbusy : s.uncounted = 1 := if_neg (by rw [hsubmitter]; exact nofun)
    exact h.congr rfl rfl (by rw [hbusy]; rfl) rfl rfl rfl
  | stamped uid =>
    rw [hsubmitter] at hallowed
    have hbusy : s.uncounted = 1 := if_neg (by rw [hsubmitter]; exact nofun)
    have hcount := h.pending
    rw [hbusy] at hcount
    refine ⟨?_, h.notified⟩
    have hincrement := toNat_increment hallowed
    show _ + _ + 0 = _ + s.undecremented
    dsimp only
    omega

theorem shareResponses_of_share {trace : List AccountingEvent} {messageId : Int}
    (h : messageId ∈ shareIds trace) (success : Bool) :
    shareResponses (.response messageId success :: trace) =
      (messageId, success) :: shareResponses trace := if_pos h

theorem shareResponses_of_not_share {trace : List AccountingEvent} {messageId : Int}
    (h : messageId ∉ shareIds trace) (success : Bool) :
    shareResponses (.response messageId success :: trace) = shareResponses trace := if_neg h

theorem CountsOk.receive (h : CountsOk s) {message : StratumApiV1Message}
    (hallowed : Allowed s (.message message)) : CountsOk (s.receive message) := by
  have hcount := h.pending
  have hnotified := h.notified
  unfold ShareAccounting.receive
  cases hplace : s.receiver with
  | idle =>
    have hundecremented : s.undecremented = 0 := undecremented_of hplace
    have hinHand : s.inHand = [] := inHand_of hplace
    rw [hundecremented] at hcount
    rw [hinHand] at hnotified
    have hsetup (hresponse : message.method.isResponse = true)
        (hmethod : message.method ≠ .stratumResult) :
        CountsOk (s.record (.response message.messageId message.responseSuccess)) := by
      have hother : message.messageId ∉ shareIds s.trace := fun hmem =>
        hmethod ((hallowed hresponse).2.1 hmem)
      refine h.congr rfl (shareResponses_of_not_share hother _) rfl ?_ ?_ rfl
      · unfold undecremented
        dsimp only [record]
        rw [hplace]
      · unfold inHand
        dsimp only [record]
        rw [hplace]
    dsimp only
    split
    · by_cases hshare : message.messageId ∈ shareIds s.trace
      · have hresponses := shareResponses_of_share hshare message.responseSuccess
        refine ⟨?_, ?_⟩
        · have hone : undecremented ((s.record (.response message.messageId
              message.responseSuccess)).goTo (.received message s.now)) = 1 := if_pos hshare
          rw [hone]
          show _ + (shareResponses (.response _ _ :: s.trace)).length + s.uncounted = _
          rw [hresponses, List.length_cons]
          show _ = (shareIds s.trace).length + 1
          dsimp only [goTo, record]
          omega
        · have hhand : inHand ((s.record (.response message.messageId
              message.responseSuccess)).goTo (.received message s.now)) =
              [(message.messageId, message.responseSuccess)] := if_pos hshare
          rw [hhand]
          exact hresponses.trans (congrArg _ hnotified)
      · have hresponses := shareResponses_of_not_share hshare message.responseSuccess
        refine h.congr rfl hresponses rfl ?_ ?_ rfl
        · rw [hundecremented]
          exact if_neg hshare
        · rw [hinHand]
          exact if_neg hshare
    · next hmethod =>
      exact hsetup (by rw [hmethod]; rfl) (by rw [hmethod]; exact nofun)
    · next hmethod =>
      exact hsetup (by rw [hmethod]; rfl) (by rw [hmethod]; exact nofun)
    · exact h
  | _ => exact h

theorem CountsOk.receiverStep (h : CountsOk s) (hids : IdsOk s) (htimings : TimingsOk s) {ok : Bool}
    (hallowed : Allowed s (.receiver ok)) : CountsOk (s.receiverStep ok) := by
  have hcount := h.pending
  have hnotified := h.notified
  unfold Allowed at hallowed
  unfold ShareAccounting.receiverStep
  cases hplace : s.receiver with
  | idle => exact h
  | received message receiveTimeUs =>
    rw [hplace] at hallowed
    dsimp only at hallowed ⊢
    split at hallowed
    · next hshare =>
      obtain ⟨hunstamped, hwindow⟩ := hallowed
      obtain ⟨time, hnonneg, hresponse⟩ := htimings.response hids hplace hshare hunstamped hwindow
      rw [hresponse]
      dsimp only [Option.any]
      rw [if_pos (decide_eq_true hnonneg)]
      refine h.congr rfl rfl rfl ?_ ?_ rfl
      · exact ((undecremented_of hplace).trans (if_pos hshare)).symm
      · exact ((inHand_of hplace).trans (if_pos hshare)).symm
    · next hother =>
      have hundecremented : s.undecremented = 0 := (undecremented_of hplace).trans (if_neg hother)
      have hinHand : s.inHand = [] := (inHand_of hplace).trans (if_neg hother)
      rw [response_of_not_tracking hallowed]
      dsimp only [Option.any]
      rw [if_neg Bool.false_ne_true]
      split
      · exact h.congr rfl rfl rfl hundecremented.symm hinHand.symm rfl
      · exact h.congr rfl rfl rfl hundecremented.symm hinHand.symm rfl
  | timed message =>
    rw [hplace] at hallowed
    have hundecremented : s.undecremented = 1 := undecremented_of hplace
    have hinHand : s.inHand = [(message.messageId, message.responseSuccess)] := inHand_of hplace
    rw [hundecremented] at hcount
    rw [hinHand] at hnotified
    have hdecrement := toNat_decrement hallowed
    refine ⟨?_, hnotified⟩
    show _ + _ + s.uncounted = _ + 0
    dsimp only [goTo]
    omega
  | counted message =>
    have hundecremented : s.undecremented = 0 := undecremented_of hplace
    have hinHand : s.inHand = [(message.messageId, message.responseSuccess)] := inHand_of hplace
    rw [hundecremented] at hcount
    rw [hinHand] at hnotified
    dsimp only
    split
    · next hsuccess =>
      rw [hsuccess] at hnotified
      exact ⟨hcount, hnotified⟩
    · next hfailure =>
      rw [Bool.not_eq_true] at hfailure
      rw [hfailure] at hnotified
      exact ⟨hcount, hnotified⟩
  | draw requests =>
    have hundecremented : s.undecremented = 0 := undecremented_of hplace
    have hinHand : s.inHand = [] := inHand_of hplace
    cases requests with
    | nil => exact h.congr rfl rfl rfl hundecremented.symm hinHand.symm rfl
    | cons request requests =>
      dsimp only
      split
      · exact h.congr rfl rfl rfl hundecremented.symm hinHand.symm rfl
      · exact h
  | send uid requests =>
    have hundecremented : s.undecremented = 0 := undecremented_of hplace
    have hinHand : s.inHand = [] := inHand_of hplace
    cases ok with
    | false => exact h.congr rfl rfl rfl hundecremented.symm hinHand.symm rfl
    | true => exact h.congr rfl rfl rfl hundecremented.symm hinHand.symm rfl

/-! ## Runs -/

structure AccountingOk (s : ShareAccounting) : Prop where
  ids : IdsOk s
  timings : TimingsOk s
  counts : CountsOk s

theorem initial_ok (difficulty : U16) (extranonceSubscribe : Bool) :
    AccountingOk (initial difficulty extranonceSubscribe) where
  ids :=
    { positive := show (1 : Int) ≤ 4 by decide
      nodup := show [3, 2, 1].Nodup by decide
      below := show ∀ id ∈ ([3, 2, 1] : List Int), 1 ≤ id ∧ id < 4 by decide
      drawn := nofun
      submitting := nofun
      answered := nofun
      answeredNodup := .nil
      received := nofun }
  timings :=
    { tracked := fun _ hshare => absurd hshare List.not_mem_nil
      clocked := nofun
      stamped := fun _ _ _ hshare => absurd hshare List.not_mem_nil
      stamping := fun _ _ hplace => nomatch hplace }
  counts := ⟨rfl, rfl⟩

theorem AccountingOk.step (h : AccountingOk s) {input : Input} (hallowed : Allowed s input) :
    AccountingOk (s.step input) := by
  obtain ⟨hids, htimings, hcounts⟩ := h
  cases input with
  | tick elapsedUs =>
    exact ⟨hids.tick _, htimings.tick elapsedUs, ⟨hcounts.pending, hcounts.notified⟩⟩
  | submit ok => exact ⟨hids.submit ok, htimings.submit hids ok, hcounts.submit hids ok⟩
  | submitter =>
    exact ⟨hids.submitterStep, htimings.submitterStep hids, hcounts.submitterStep hallowed⟩
  | message message =>
    exact ⟨hids.receive hallowed, htimings.receive hallowed, hcounts.receive hallowed⟩
  | receiver ok =>
    exact ⟨hids.receiverStep ok, htimings.receiverStep hids hallowed,
      hcounts.receiverStep hids htimings hallowed⟩

theorem shareResponses_sublist (trace : List AccountingEvent) :
    List.Sublist ((shareResponses trace).map Prod.fst) (answeredIds trace) := by
  induction trace with
  | nil => exact .slnil
  | cons event older ih =>
    cases event with
    | response messageId success =>
      unfold shareResponses
      split
      · exact ih.cons_cons messageId
      · exact ih.cons messageId
    | share uid => exact ih
    | setup uid => exact ih
    | acceptedShare messageId => exact ih
    | rejectedShare messageId errorStr => exact ih

theorem shareIds_of_shareResponses {trace : List AccountingEvent} {response : Int × Bool}
    (h : response ∈ shareResponses trace) : response.1 ∈ shareIds trace := by
  induction trace with
  | nil => cases h
  | cons event older ih =>
    cases event with
    | response messageId success =>
      unfold shareResponses at h
      split at h
      · next hshare =>
        rcases List.mem_cons.mp h with rfl | hbefore
        · exact hshare
        · exact ih hbefore
      · exact ih h
    | share uid => exact List.mem_cons_of_mem _ (ih h)
    | setup uid => exact ih h
    | acceptedShare messageId => exact ih h
    | rejectedShare messageId errorStr => exact ih h

theorem length_inHand_le (s : ShareAccounting) : s.inHand.length ≤ 1 := by
  unfold inHand
  split
  · split <;> simp
  all_goals simp

/-- **The accounting of shares is exact.**  The notifications are the responses to
shares, in order and with their results, apart from the response in hand; no
share is answered twice and no other response is counted; and between
submissions and responses the pending shares are those without a response. -/
theorem share_accounting_exact (difficulty : U16) (extranonceSubscribe : Bool)
    (inputs : List Input)
    (hallowed : Guarded step Allowed (initial difficulty extranonceSubscribe) inputs) :
    let s := run step (initial difficulty extranonceSubscribe) inputs
    (∃ inHand, shareResponses s.trace = inHand ++ notifications s.trace ∧ inHand.length ≤ 1 ∧
      (s.receiver = .idle → inHand = [])) ∧
    ((shareResponses s.trace).map Prod.fst).Nodup ∧
    (∀ notification ∈ notifications s.trace, notification.1 ∈ shareIds s.trace) ∧
    (s.receiver = .idle → s.submitter = .idle →
      s.sharesPending.toNat + (shareResponses s.trace).length = (shareIds s.trace).length) := by
  intro s
  obtain ⟨hids, -, hcounts⟩ : AccountingOk s :=
    Guarded.invariant step (fun _ _ hs hinput => hs.step hinput) hallowed
      (initial_ok difficulty extranonceSubscribe)
  refine ⟨⟨s.inHand, hcounts.notified, length_inHand_le s, fun hplace => ?_⟩,
    hids.answeredNodup.sublist (shareResponses_sublist s.trace), fun notification hmem => ?_,
    fun hplace hsubmitter => ?_⟩
  · exact inHand_of hplace
  · refine shareIds_of_shareResponses ?_
    rw [hcounts.notified]
    exact List.mem_append_right _ hmem
  · have hcount := hcounts.pending
    have hundecremented : s.undecremented = 0 := undecremented_of hplace
    have huncounted : s.uncounted = 0 := if_pos hsubmitter
    rw [hundecremented, huncounted] at hcount
    exact hcount

/-! ## Two runs -/

instance (s : ShareAccounting) (input : Input) : Decidable (Allowed s input) := by
  unfold Allowed
  cases input with
  | tick _ => exact .isTrue trivial
  | submit _ => exact inferInstanceAs (Decidable (s.sendUid < INT_MAX))
  | submitter =>
    cases s.submitter with
    | stamped _ => exact inferInstanceAs (Decidable (s.sharesPending < 0xffff))
    | _ => exact .isTrue trivial
  | message message => exact inferInstanceAs (Decidable (_ → _))
  | receiver ok =>
    cases s.receiver with
    | received message _ => exact inferInstanceAs (Decidable (ite _ _ _))
    | timed _ => exact inferInstanceAs (Decidable (0 < s.sharesPending))
    | draw _ => exact inferInstanceAs (Decidable (s.sendUid < INT_MAX))
    | _ => exact .isTrue trivial

/-- The pool accepts the first share of the session. -/
def acceptance : Input :=
  .message { StratumApiV1Message.reset with
    method := .stratumResult, messageId := 4, responseSuccess := true }

/-- The submission is done when the response arrives. -/
theorem share_accounting_exact_of_acceptance :
    let s := run step (initial 0 false)
      ([.submit true, .submitter, .submitter, .submitter, acceptance] ++
        List.replicate 3 (.receiver true))
    notifications s.trace = [(4, true)] ∧ shareResponses s.trace = [(4, true)] ∧
      s.sharesPending.toNat + 1 = 1 := by
  intro s
  have hplace : s.receiver = .idle := rfl
  have hnotifications : notifications s.trace = [(4, true)] := by decide +kernel
  obtain ⟨⟨inHand, hresponses, -, hidle⟩, -, -, hpending⟩ :=
    share_accounting_exact 0 false ([.submit true, .submitter, .submitter, .submitter,
      acceptance] ++ List.replicate 3 (.receiver true)) (by decide +kernel)
  have hanswered : shareResponses s.trace = [(4, true)] := by
    rw [hresponses, hidle hplace, hnotifications]
    rfl
  refine ⟨hnotifications, hanswered, ?_⟩
  have hcount := hpending hplace rfl
  rw [hanswered] at hcount
  exact hcount

/-- The response is looked up before the slot is stamped: nothing counts the
accepted share, and it stays pending. -/
theorem response_before_stamp_not_counted :
    let s := run step (initial 0 false)
      [.submit true, acceptance, .receiver true, .submitter, .submitter, .submitter]
    s.receiver.messageId = none ∧ s.submitter = .idle ∧ shareIds s.trace = [4] ∧
      shareResponses s.trace = [(4, true)] ∧ notifications s.trace = [] ∧
      s.sharesPending.toNat + (shareResponses s.trace).length ≠ (shareIds s.trace).length := by
  decide +kernel

end ShareAccounting

end EspMiner
