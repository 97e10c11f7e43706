import EspMiner.Main.StratumV2Effect

/-!
# Job templates on a Stratum V2 connection

Templates live in the eight slots that the job task mines from, and a job message
is written to its slot before it is known whether the client takes it.  While no
dropped message lands on a slot in use, a dropped message changes no template and
no published job, and SetNewPrevHash publishes the last template with its id.
-/

namespace EspMiner

open Library

namespace StratumV2Client

variable {c : StratumV2Client}

/-! ## Dropped messages -/

/-- The slots from which a job was published on the connection. -/
def publishedSlots : List Sv2Event → List (Fin MINER_JOB_POOL_SIZE)
  | [] => []
  | .published _ slot :: older => slot :: publishedSlots older
  | _ :: older => publishedSlots older

/-- The slot holds a pending template, a published job or the job being mined. -/
def InUse (c : StratumV2Client) (slot : Fin MINER_JOB_POOL_SIZE) : Prop :=
  c.conn.pendingJobsValid slot = true ∨ slot ∈ publishedSlots c.trace ∨
    c.slotNotify = some slot ∨ c.currentWork = some slot

instance (c : StratumV2Client) (slot : Fin MINER_JOB_POOL_SIZE) : Decidable (c.InUse slot) :=
  inferInstanceAs (Decidable (_ ∨ _ ∨ _ ∨ _))

/-- An immediate job whose id is active already. -/
def IsDuplicate (c : StratumV2Client) (m : JobMessage) : Prop :=
  c.Immediate m ∧ m.jobId ∈ c.conn.activeJobIds

instance (c : StratumV2Client) (m : JobMessage) : Decidable (c.IsDuplicate m) :=
  inferInstanceAs (Decidable (_ ∧ _))

/-- The SetTarget in a frame, if it was parsed and is for this channel. -/
def targetMessage (c : StratumV2Client) : Input → Option Sv2SetTarget
  | .frame _ payload _ =>
      match sv2ParseSetTarget payload with
      | none => none
      | some message => if c.OnChannel message.channelId then some message else none
  | _ => none

/-- A job, tip or target message that the client does not take: it cannot be
parsed, is for another channel, or repeats an active job id. -/
def Dropped (hashToPdiff : Vector U8 32 → U64) (c : StratumV2Client) (input : Input) : Prop :=
  (∃ m, c.jobMessage hashToPdiff input = some m ∧ c.IsDuplicate m) ∨
    ∃ msgType payload buffers, input = .frame msgType payload buffers ∧
      (((msgType = SV2_MSG_NEW_MINING_JOB ∨ msgType = SV2_MSG_NEW_EXTENDED_MINING_JOB) ∧
          c.jobMessage hashToPdiff input = none) ∨
        (msgType = SV2_MSG_SET_NEW_PREV_HASH ∧ c.tipMessage input = none) ∨
        (msgType = SV2_MSG_SET_TARGET ∧ c.targetMessage input = none))

/-- The published jobs, the pending templates and the job being mined are as they
were. -/
structure WorkKept (c c' : StratumV2Client) : Prop where
  jobs : ∀ slot, c.InUse slot → c'.jobPool slot = c.jobPool slot
  pending : ∀ slot, c.InUse slot →
    c'.conn.pendingJobsValid slot = c.conn.pendingJobsValid slot
  notified : c'.slotNotify = c.slotNotify
  mined : c'.currentWork = c.currentWork

/-- The payload of a frame has the form of a NewExtendedMiningJob, so that the
parser gets as far as resetting the job. -/
def resetsJob : Input → Bool
  | .frame _ payload _ => (sv2ReadNewExtendedMiningJob payload).isSome
  | _ => false

/-- A dropped message that is written to its slot meets a slot that is not in use,
and one that only clears the pending bit a slot without a pending template. -/
def TemplatesSpared (hashToPdiff : Vector U8 32 → U64) (c : StratumV2Client) (input : Input) :
    Prop :=
  (match c.jobMessage hashToPdiff input with
    | some m => c.IsDuplicate m → ¬ c.InUse m.slot
    | none => True) ∧
  (match c.rejectedExtended input with
    | some (jobId, _) =>
        if resetsJob input then ¬ c.InUse (minerJobSlot jobId)
        else c.conn.pendingJobsValid (minerJobSlot jobId) = false
    | none => True)

instance (hashToPdiff : Vector U8 32 → U64) (c : StratumV2Client) (input : Input) :
    Decidable (TemplatesSpared hashToPdiff c input) :=
  inferInstanceAs (Decidable
    ((OnSome (c.jobMessage hashToPdiff input) fun m => c.IsDuplicate m → ¬ c.InUse m.slot) ∧
      OnSome (c.rejectedExtended input) fun rejected =>
        if resetsJob input then ¬ c.InUse (minerJobSlot rejected.1)
        else c.conn.pendingJobsValid (minerJobSlot rejected.1) = false))

/-! ## Templates in the trace -/

/-- The last template with the id. -/
def lastTemplate : List Sv2Event → U32 → Option MinerJob
  | [], _ => none
  | .template jobId job :: older, wanted =>
      if jobId = wanted then some job else lastTemplate older wanted
  | _ :: older, wanted => lastTemplate older wanted

/-- The last template that was written to the slot. -/
def lastInSlot : List Sv2Event → Fin MINER_JOB_POOL_SIZE → Option (U32 × MinerJob)
  | [], _ => none
  | .template jobId job :: older, slot =>
      if minerJobSlot jobId = slot then some (jobId, job) else lastInSlot older slot
  | _ :: older, slot => lastInSlot older slot

theorem slot_of_lastInSlot {trace : List Sv2Event} {slot : Fin MINER_JOB_POOL_SIZE}
    {jobId : U32} {job : MinerJob} (h : lastInSlot trace slot = some (jobId, job)) :
    minerJobSlot jobId = slot := by
  induction trace with
  | nil => cases h
  | cons event trace ih =>
    cases event with
    | template first job' =>
      unfold lastInSlot at h
      split at h
      · next hslot =>
        obtain ⟨rfl, -⟩ := Prod.mk.inj (Option.some.inj h)
        exact hslot
      · exact ih h
    | _ => exact ih h

theorem lastTemplate_of_lastInSlot {trace : List Sv2Event} {slot : Fin MINER_JOB_POOL_SIZE}
    {jobId : U32} {job : MinerJob} (h : lastInSlot trace slot = some (jobId, job)) :
    lastTemplate trace jobId = some job := by
  induction trace with
  | nil => cases h
  | cons event trace ih =>
    cases event with
    | template first job' =>
      unfold lastInSlot at h
      unfold lastTemplate
      split at h
      · next hslot =>
        obtain ⟨rfl, rfl⟩ := Prod.mk.inj (Option.some.inj h)
        exact if_pos rfl
      · next hslot =>
        -- the id belongs to the slot, the newer template does not
        rw [if_neg (by rintro rfl; exact hslot (slot_of_lastInSlot h))]
        exact ih h
    | _ => exact ih h

/-- What an activation and a publication leave of a template. -/
structure SameTemplate (template job : MinerJob) : Prop where
  type : job.type = template.type
  jobId : job.jobId = template.jobId
  version : job.version = template.version
  versionMask : template.type = .sv2Extended → job.versionMask = template.versionMask
  merklePath : job.merklePath = template.merklePath
  merklePathCount : job.merklePathCount = template.merklePathCount
  coinbasePrefix : job.coinbasePrefix = template.coinbasePrefix
  coinbasePrefixLen : job.coinbasePrefixLen = template.coinbasePrefixLen
  coinbaseSuffix : job.coinbaseSuffix = template.coinbaseSuffix
  coinbaseSuffixLen : job.coinbaseSuffixLen = template.coinbaseSuffixLen
  merkleRoot : job.merkleRoot = template.merkleRoot

theorem SameTemplate.refl (job : MinerJob) : SameTemplate job job :=
  ⟨rfl, rfl, rfl, fun _ => rfl, rfl, rfl, rfl, rfl, rfl, rfl, rfl⟩

/-- The job is the template, activated by a SetNewPrevHash with the settings of the
connection. -/
structure ActivatedFrom (hashToPdiff : Vector U8 32 → U64) (conn : Sv2Conn)
    (message : Sv2SetNewPrevHash) (template job : MinerJob) : Prop where
  same : SameTemplate template job
  prevHash : job.prevHash = message.prevHash
  nbits : job.nbits = message.nbits
  ntime : job.ntime = message.minNtime
  clean : job.cleanJobs = true
  pool : job.poolId = conn.poolIdx
  target : job.poolDiff = hashToPdiff conn.target
  versionMask : template.type = .sv2Standard → job.versionMask = conn.versionMask
  extranonce : template.type = .sv2Extended →
    job.extranonce1Len.toNat = min conn.extranoncePrefixLen.toNat 32 ∧
      (∀ i : Fin 32, i.val < job.extranonce1Len.toNat →
        job.extranonce1.get i = conn.extranoncePrefix.get i) ∧
      job.extranonce2Len = conn.extranonceSize

/-- Every pending slot holds what became of the last template written to it, and
every active id was published from its slot. -/
structure TemplatesTracked (c : StratumV2Client) : Prop where
  pending : ∀ slot, c.conn.pendingJobsValid slot = true → ∃ jobId template,
    lastInSlot c.trace slot = some (jobId, template) ∧
      SameTemplate template (c.jobPool slot) ∧
      template.jobId = strcpyZeroed 32 (decimalText jobId.toNat)
  active : ∀ jobId ∈ c.conn.activeJobIds, minerJobSlot jobId ∈ publishedSlots c.trace

/-! ## Job ids as texts -/

theorem toList_strcpyZeroed {size : Nat} {text : List U8} (hlength : text.length < size)
    (hzero : 0#8 ∉ text) :
    (strcpyZeroed size text).toList =
      text ++ 0#8 :: List.replicate (size - text.length - 1) 0#8 := by
  have htake : text.takeWhile (· ≠ 0#8) = text := by
    rw [List.takeWhile_eq_self_iff]
    intro byte hbyte
    simp only [ne_eq, decide_not, Bool.not_eq_eq_eq_not, Bool.not_true, decide_eq_false_iff_not]
    rintro rfl
    exact hzero hbyte
  unfold strcpyZeroed
  rw [htake]
  refine List.ext_getElem (by simp; omega) fun i hi hi' => ?_
  simp only [Vector.toList_ofFn, List.getElem_ofFn, List.getD_eq_getElem?_getD]
  rcases Nat.lt_or_ge i text.length with hin | hout
  · rw [List.getElem?_eq_getElem hin, List.getElem_append_left hin]
    rfl
  · rw [List.getElem?_eq_none hout, List.getElem_append_right hout]
    obtain ⟨j, rfl⟩ := Nat.exists_eq_add_of_le hout
    cases j with
    | zero => simp
    | succ j => simp

/-- The id that `snprintf` printed is the id that `strtoul` reads. -/
theorem strtoul_jobId (jobId : U32) :
    strtoul (strcpyZeroed 32 (decimalText jobId.toNat)).toList = jobId := by
  have hlength : (decimalText jobId.toNat).length < 32 := by
    have hbound : jobId.toNat < 10 ^ 10 := jobId.isLt.trans (by decide)
    have hshort : (decimalText jobId.toNat).length ≤ 10 :=
      length_decimalDigits_le hbound (by decide)
    omega
  have hzero : 0#8 ∉ decimalText jobId.toNat := by
    intro hmem
    exact absurd (decimalDigits_isDigit _ _ _ hmem) (by decide)
  rw [toList_strcpyZeroed hlength hzero]
  exact strtoul_decimalText jobId _

section Client

variable (hashToPdiff : Vector U8 32 → U64) {input : Input} {message : Sv2SetNewPrevHash}

theorem parse_jobId {payload : List U8} {buffers : CoinbaseBuffers} {job job' : MinerJob}
    {message : Sv2NewExtendedMiningJob}
    (h : sv2ParseNewExtendedMiningJob payload buffers job = (some message, job')) :
    job'.jobId = strcpyZeroed 32 (decimalText message.jobId.toNat) ∧
      message.jobId = readU32Le payload 4 := by
  unfold sv2ParseNewExtendedMiningJob at h
  cases hread : sv2ReadNewExtendedMiningJob payload with
  | none => simp [hread] at h
  | some fields =>
    rw [hread] at h
    dsimp only at h
    split at h
    · cases h
    · split at h
      · cases h
      · obtain ⟨hmessage, rfl⟩ := Prod.mk.inj h
        obtain rfl := Option.some.inj hmessage
        exact ⟨rfl, sv2ReadNewExtendedMiningJob_jobId hread⟩

/-- A job message leaves its own id in the job. -/
theorem jobMessage_jobId {m : JobMessage} (h : c.jobMessage hashToPdiff input = some m) :
    m.job.jobId = strcpyZeroed 32 (decimalText m.jobId.toNat) := by
  cases input with
  | frame msgType payload buffers =>
    unfold jobMessage at h
    dsimp only at h
    split at h
    · split at h
      · cases h
      · split at h
        · obtain rfl := Option.some.inj h
          rfl
        · cases h
    · split at h
      · split at h
        · cases h
        · next message job hparsed =>
          split at h
          · obtain rfl := Option.some.inj h
            obtain ⟨hjob, hid⟩ := parse_jobId hparsed
            rw [← hid]
            exact hjob
          · cases h
      · cases h
  | _ => cases h

/-! ## Activation -/

theorem ActivatedFrom.published {conn : Sv2Conn} {template job : MinerJob}
    (h : ActivatedFrom hashToPdiff conn message template job) (generation : U64) :
    ActivatedFrom hashToPdiff conn message template { job with workGeneration := generation } :=
  ⟨⟨h.same.type, h.same.jobId, h.same.version, h.same.versionMask, h.same.merklePath,
    h.same.merklePathCount, h.same.coinbasePrefix, h.same.coinbasePrefixLen,
    h.same.coinbaseSuffix, h.same.coinbaseSuffixLen, h.same.merkleRoot⟩, h.prevHash, h.nbits,
    h.ntime, h.clean, h.pool, h.target, h.versionMask, h.extranonce⟩

theorem activatedFrom_activatedJob {conn : Sv2Conn} {template job : MinerJob}
    (h : SameTemplate template job) :
    ActivatedFrom hashToPdiff conn message template
      (activatedJob hashToPdiff conn message job) := by
  have htype := h.type
  unfold activatedJob
  dsimp only
  split
  · next hstandard =>
    refine ⟨⟨h.type, h.jobId, h.version, fun hextended => ?_, h.merklePath, h.merklePathCount,
      h.coinbasePrefix, h.coinbasePrefixLen, h.coinbaseSuffix, h.coinbaseSuffixLen,
      h.merkleRoot⟩, rfl, rfl, rfl, rfl, rfl, rfl, fun _ => rfl, fun hextended => ?_⟩ <;>
    · rw [← htype, hstandard] at hextended
      cases hextended
  · next hother =>
    have hnotStandard : template.type = .sv2Standard → False := fun hstandard =>
      hother (htype.trans hstandard)
    split
    · refine ⟨⟨h.type, h.jobId, h.version, h.versionMask, h.merklePath, h.merklePathCount,
        h.coinbasePrefix, h.coinbasePrefixLen, h.coinbaseSuffix, h.coinbaseSuffixLen,
        h.merkleRoot⟩, rfl, rfl, rfl, rfl, rfl, rfl, fun hstandard =>
          (hnotStandard hstandard).elim, fun _ => ⟨?_, ?_, rfl⟩⟩
      · unfold withExtranonce
        dsimp only
        split
        · next hlong => exact (Nat.min_eq_right (Nat.le_of_lt hlong)).symm
        · next hshort => exact (Nat.min_eq_left (Nat.not_lt.mp hshort)).symm
      · intro i hi
        unfold withExtranonce at hi ⊢
        dsimp only at hi ⊢
        rw [copyBytes_get, if_pos hi]
    · next hv1 =>
      refine ⟨⟨h.type, h.jobId, h.version, h.versionMask, h.merklePath, h.merklePathCount,
        h.coinbasePrefix, h.coinbasePrefixLen, h.coinbaseSuffix, h.coinbaseSuffixLen,
        h.merkleRoot⟩, rfl, rfl, rfl, rfl, rfl, rfl, fun hstandard =>
          (hnotStandard hstandard).elim, fun hextended => ?_⟩
      exact absurd (htype.trans hextended) hv1

/-! ## Steps -/

theorem replicate_accepted (n : Nat) (trace : List Sv2Event) :
    publishedSlots (List.replicate n .acceptedShare ++ trace) = publishedSlots trace ∧
      lastInSlot (List.replicate n .acceptedShare ++ trace) = lastInSlot trace := by
  induction n with
  | zero => exact ⟨rfl, rfl⟩
  | succ n ih =>
    rw [List.replicate_succ, List.cons_append]
    exact ih

/-- A step that leaves the job slots alone. -/
theorem TemplatesTracked.same {c c' : StratumV2Client} (h : TemplatesTracked c)
    (hjobs : c'.jobPool = c.jobPool)
    (hpending : c'.conn.pendingJobsValid = c.conn.pendingJobsValid)
    (hactive : c'.conn.activeJobIds = c.conn.activeJobIds)
    (hslots : lastInSlot c'.trace = lastInSlot c.trace)
    (hpublished : publishedSlots c'.trace = publishedSlots c.trace) : TemplatesTracked c' := by
  refine ⟨?_, ?_⟩
  · rw [hjobs, hpending, hslots]
    exact h.pending
  · rw [hactive, hpublished]
    exact h.active

theorem mem_addActiveJobId {activeJobIds activeJobIds' : List U32} {jobId wanted : U32}
    (h : addActiveJobId activeJobIds jobId = some activeJobIds') (hmem : wanted ∈ activeJobIds') :
    wanted = jobId ∨ wanted ∈ activeJobIds := by
  unfold addActiveJobId at h
  split at h
  · cases h
  · split at h
    · obtain rfl := Option.some.inj h
      rcases List.mem_append.mp hmem with hmem | hmem
      · exact .inr hmem
      · exact .inl (List.mem_singleton.mp hmem)
    · obtain rfl := Option.some.inj h
      rcases List.mem_append.mp hmem with hmem | hmem
      · exact .inr (List.mem_of_mem_drop hmem)
      · exact .inl (List.mem_singleton.mp hmem)

/-- A template was written to its slot. -/
theorem TemplatesTracked.write (h : TemplatesTracked c) {m : JobMessage}
    (hid : m.job.jobId = strcpyZeroed 32 (decimalText m.jobId.toNat)) :
    TemplatesTracked ((c.withJob m).record (.template m.jobId m.job)) := by
  refine ⟨fun slot hslot => ?_, h.active⟩
  by_cases heq : m.slot = slot
  · subst heq
    refine ⟨m.jobId, m.job, if_pos rfl, ?_, hid⟩
    simp only [withJob, record_jobPool, setPending_jobPool, setSlot_jobPool, Function.update_self]
    exact .refl _
  · have hother : slot ≠ m.slot := Ne.symm heq
    simp only [withJob, record_conn, setPending_conn, setSlot_conn,
      Function.update_of_ne hother] at hslot
    obtain ⟨jobId, template, hlast, hsame, htext⟩ := h.pending slot hslot
    refine ⟨jobId, template, (if_neg heq).trans hlast, ?_, htext⟩
    simp only [withJob, record_jobPool, setPending_jobPool, setSlot_jobPool,
      Function.update_of_ne hother]
    exact hsame

/-- A job that comes from the template of its slot was published from it. -/
theorem TemplatesTracked.publish (h : TemplatesTracked c)
    {slot : Fin MINER_JOB_POOL_SIZE} {job : MinerJob} {conn : Sv2Conn}
    (hpending : conn.pendingJobsValid = c.conn.pendingJobsValid)
    (hjob : ∀ template, SameTemplate template (c.jobPool slot) → SameTemplate template job)
    (hactive : ∀ jobId ∈ conn.activeJobIds,
      minerJobSlot jobId = slot ∨ jobId ∈ c.conn.activeJobIds) :
    TemplatesTracked (((c.setConn conn).setSlot slot job).stratumPublishJob slot) := by
  rw [stratumPublishJob_eq]
  refine ⟨fun slot' hslot => ?_, fun jobId hmem => ?_⟩
  · dsimp only at hslot
    rw [setConn_conn, hpending] at hslot
    obtain ⟨jobId, template, hlast, hsame, htext⟩ := h.pending slot' hslot
    refine ⟨jobId, template, hlast, ?_, htext⟩
    dsimp only
    by_cases heq : slot' = slot
    · subst heq
      rw [Function.update_self]
      have hjob := hjob template hsame
      exact ⟨hjob.type, hjob.jobId, hjob.version, hjob.versionMask, hjob.merklePath,
        hjob.merklePathCount, hjob.coinbasePrefix, hjob.coinbasePrefixLen, hjob.coinbaseSuffix,
        hjob.coinbaseSuffixLen, hjob.merkleRoot⟩
    · rw [Function.update_of_ne heq]
      exact hsame
  · rcases hactive jobId hmem with hslot | hold
    · rw [hslot]
      exact List.mem_cons_self
    · exact List.mem_cons_of_mem _ (h.active jobId hold)

/-- A rejected message clears the bit of its slot. -/
theorem TemplatesTracked.reject (h : TemplatesTracked c) (jobId : U32) (job : MinerJob) :
    TemplatesTracked (c.withRejected jobId job) := by
  refine ⟨fun slot hslot => ?_, h.active⟩
  have hother : slot ≠ minerJobSlot jobId := by
    rintro rfl
    simp [withRejected] at hslot
  simp only [withRejected, setPending_conn, setSlot_conn, Function.update_of_ne hother] at hslot
  obtain ⟨jobId', template, hlast, hsame, htext⟩ := h.pending slot hslot
  refine ⟨jobId', template, hlast, ?_, htext⟩
  simp only [withRejected, setPending_jobPool, setSlot_jobPool, Function.update_of_ne hother]
  exact hsame

theorem step_templatesTracked (h : TemplatesTracked c)
    (hspared : TemplatesSpared hashToPdiff c input) :
    TemplatesTracked (c.step hashToPdiff input) := by
  have hcases := step_cases hashToPdiff c input
  generalize c.step hashToPdiff input = c' at hcases ⊢
  cases hcases with
  | unchanged hmessage htip => exact h
  | rejected hrejected => exact h.reject _ _
  | stored hmessage hlater => exact h.write (jobMessage_jobId hashToPdiff hmessage)
  | @duplicate m hmessage himmediate hactive =>
    -- the slot of an active id is in use
    have hfree := hspared.1
    rw [hmessage] at hfree
    exact absurd (.inr (.inl (h.active _ hactive))) (hfree ⟨himmediate, hactive⟩)
  | @immediate m minNtime activeJobIds hmessage himmediate hntime hactive =>
    refine (h.write (jobMessage_jobId hashToPdiff hmessage)).publish rfl (fun template hsame => ?_)
      fun jobId hmem => ?_
    · have hjob : ((c.withJob m).record (.template m.jobId m.job)).jobPool m.slot = m.job := by
        simp [withJob]
      rw [hjob] at hsame
      exact ⟨hsame.type, hsame.jobId, hsame.version, hsame.versionMask, hsame.merklePath,
        hsame.merklePathCount, hsame.coinbasePrefix, hsame.coinbasePrefixLen,
        hsame.coinbaseSuffix, hsame.coinbaseSuffixLen, hsame.merkleRoot⟩
    · rcases mem_addActiveJobId hactive hmem with rfl | hold
      · exact .inl rfl
      · exact .inr hold
  | unknownTip htip hunknown => exact h.same rfl rfl rfl rfl rfl
  | @activated message htip hready =>
    refine h.publish rfl (fun template hsame =>
      (activatedFrom_activatedJob hashToPdiff hsame).same) fun jobId hmem => ?_
    rw [List.mem_singleton.mp hmem]
    exact .inl rfl
  | target maxTarget pdiff => exact h.same rfl rfl rfl rfl rfl
  | @success _ _ _ message hinput htype hparsed hchannel =>
    rw [resolveShares_eq]
    obtain ⟨hpublished, hslots⟩ := replicate_accepted
      (clampedAcceptedCount c.conn message.acceptedCount).toNat
      (.successAnswer message.lastSequenceNumber :: c.trace)
    exact h.same rfl rfl rfl hslots hpublished
  | error hinput htype hparsed hchannel =>
    rw [resolveShares_eq]
    exact h.same rfl rfl rfl rfl rfl
  | submitted hinput hcurrent hpool => exact h.same rfl rfl rfl rfl rfl
  | sent hinput hcurrent hpool => exact h.same rfl rfl rfl rfl rfl
  | invalidated hinput => exact h.same rfl rfl rfl rfl rfl
  | took hinput hnotified => exact h.same rfl rfl rfl rfl rfl

/-! ## What a dropped message keeps -/

theorem jobMessage_frame {m : JobMessage} (h : c.jobMessage hashToPdiff input = some m) :
    ∃ msgType payload buffers,
      input = .frame msgType payload buffers ∧
        (msgType = SV2_MSG_NEW_MINING_JOB ∨ msgType = SV2_MSG_NEW_EXTENDED_MINING_JOB) := by
  cases input with
  | frame msgType payload buffers =>
    refine ⟨msgType, payload, buffers, rfl, ?_⟩
    unfold jobMessage at h
    dsimp only at h
    split at h
    · next htype => exact .inl htype.1
    · split at h
      · next htype => exact .inr htype.1
      · cases h
  | _ => cases h

theorem tipMessage_frame (h : c.tipMessage input = some message) : ∃ payload buffers,
      input = .frame SV2_MSG_SET_NEW_PREV_HASH payload buffers := by
  cases input with
  | frame msgType payload buffers =>
    unfold tipMessage at h
    dsimp only at h
    split at h
    · next htype => exact ⟨payload, buffers, by rw [htype]⟩
    · cases h
  | _ => cases h

theorem not_dropped_of_jobMessage {m : JobMessage} (h : c.jobMessage hashToPdiff input = some m)
    (hnew : ¬ c.IsDuplicate m) : ¬ Dropped hashToPdiff c input := by
  obtain ⟨msgType, payload, buffers, rfl, htype⟩ := jobMessage_frame hashToPdiff h
  rintro (⟨m', h', hduplicate⟩ | ⟨_, _, _, hinput, hdropped⟩)
  · rw [h] at h'
    obtain rfl := Option.some.inj h'
    exact hnew hduplicate
  · obtain ⟨rfl, rfl, rfl⟩ := Input.frame.inj hinput
    rcases hdropped with ⟨-, hnone⟩ | ⟨rfl, -⟩ | ⟨rfl, -⟩
    · rw [h] at hnone
      cases hnone
    · revert htype
      decide
    · revert htype
      decide

theorem not_dropped_of_tipMessage (h : c.tipMessage input = some message) :
    ¬ Dropped hashToPdiff c input := by
  obtain ⟨payload, buffers, rfl⟩ := tipMessage_frame h
  rintro (⟨m, h', -⟩ | ⟨_, _, _, hinput, hdropped⟩)
  · cases h'
  · obtain ⟨rfl, rfl, rfl⟩ := Input.frame.inj hinput
    rcases hdropped with ⟨htype, -⟩ | ⟨-, hnone⟩ | ⟨htype, -⟩
    · revert htype
      decide
    · rw [h] at hnone
      cases hnone
    · revert htype
      decide

/-- Without the form of a NewExtendedMiningJob the parser leaves the job alone. -/
theorem rejectedExtended_untouched {jobId : U32} {job : MinerJob}
    (h : c.rejectedExtended input = some (jobId, job)) (hresets : resetsJob input = false) :
    job = c.jobPool (minerJobSlot jobId) := by
  cases input with
  | frame msgType payload buffers =>
    have hread : sv2ReadNewExtendedMiningJob payload = none := by
      simpa [resetsJob] using hresets
    unfold rejectedExtended at h
    simp only [sv2ParseNewExtendedMiningJob, hread] at h
    split at h
    · obtain ⟨rfl, rfl⟩ := Prod.mk.inj (Option.some.inj h)
      rfl
    · cases h
  | _ => cases h

/-- A slot that is written is not in use. -/
theorem WorkKept.of_slot {c c' : StratumV2Client} {slot : Fin MINER_JOB_POOL_SIZE}
    (hfree : ¬ c.InUse slot) (hjobs : ∀ other, other ≠ slot → c'.jobPool other = c.jobPool other)
    (hpending : ∀ other, other ≠ slot →
      c'.conn.pendingJobsValid other = c.conn.pendingJobsValid other)
    (hnotified : c'.slotNotify = c.slotNotify) (hmined : c'.currentWork = c.currentWork) :
    WorkKept c c' :=
  ⟨fun other huse => hjobs other fun heq => hfree (heq ▸ huse),
    fun other huse => hpending other fun heq => hfree (heq ▸ huse), hnotified, hmined⟩

theorem dropped_workKept (hspared : TemplatesSpared hashToPdiff c input)
    (hdropped : Dropped hashToPdiff c input) : WorkKept c (c.step hashToPdiff input) := by
  have hcases := step_cases hashToPdiff c input
  generalize c.step hashToPdiff input = c' at hcases ⊢
  have hsame : ∀ c' : StratumV2Client, c'.jobPool = c.jobPool →
      c'.conn.pendingJobsValid = c.conn.pendingJobsValid → c'.slotNotify = c.slotNotify →
      c'.currentWork = c.currentWork → WorkKept c c' :=
    fun _ hjobs hpending hnotified hmined =>
      ⟨fun _ _ => by rw [hjobs], fun _ _ => by rw [hpending], hnotified, hmined⟩
  cases hcases with
  | unchanged hmessage htip => exact hsame _ rfl rfl rfl rfl
  | @rejected jobId job hrejected =>
    have hfree := hspared.2
    rw [hrejected] at hfree
    dsimp only at hfree
    cases hresets : resetsJob input with
    | true =>
      rw [hresets, if_pos rfl] at hfree
      exact .of_slot hfree (fun other hne => by simp [withRejected, Function.update_of_ne hne])
        (fun other hne => by simp [withRejected, Function.update_of_ne hne]) rfl rfl
    | false =>
      rw [hresets, if_neg (by decide)] at hfree
      have huntouched := rejectedExtended_untouched hrejected hresets
      refine hsame _ ?_ ?_ rfl rfl
      · simp [withRejected, huntouched]
      · simp [withRejected, ← hfree]
  | stored hmessage hlater =>
    exact absurd hdropped (not_dropped_of_jobMessage hashToPdiff hmessage fun h => hlater h.1)
  | @duplicate m hmessage himmediate hactive =>
    have hfree := hspared.1
    rw [hmessage] at hfree
    exact .of_slot (hfree ⟨himmediate, hactive⟩)
      (fun other hne => by simp [withJob, Function.update_of_ne hne])
      (fun other hne => by simp [withJob, Function.update_of_ne hne]) rfl rfl
  | @immediate m minNtime activeJobIds hmessage himmediate hntime hactive =>
    refine absurd hdropped (not_dropped_of_jobMessage hashToPdiff hmessage fun h => ?_)
    rw [addActiveJobId, if_pos h.2] at hactive
    cases hactive
  | unknownTip htip hunknown => exact hsame _ rfl rfl rfl rfl
  | activated htip hready => exact absurd hdropped (not_dropped_of_tipMessage hashToPdiff htip)
  | target maxTarget pdiff => exact hsame _ rfl rfl rfl rfl
  | success hinput htype hparsed hchannel =>
    rw [resolveShares_eq]
    exact hsame _ rfl rfl rfl rfl
  | error hinput htype hparsed hchannel =>
    rw [resolveShares_eq]
    exact hsame _ rfl rfl rfl rfl
  | submitted hinput hcurrent hpool => exact hsame _ rfl rfl rfl rfl
  | sent hinput hcurrent hpool => exact hsame _ rfl rfl rfl rfl
  | invalidated hinput => exact hsame _ rfl rfl rfl rfl
  | took hinput hnotified =>
    subst hinput
    rcases hdropped with ⟨m, hmessage, -⟩ | ⟨_, _, _, hinput, -⟩
    · cases hmessage
    · cases hinput

/-- What a SetNewPrevHash on the channel publishes, if it publishes a job. -/
theorem tip_activates (h : TemplatesTracked c) (htip : c.tipMessage input = some message) :
    (c.step hashToPdiff input).trace = c.trace ∨
      ∃ template job, lastTemplate c.trace message.jobId = some template ∧
        ActivatedFrom hashToPdiff c.conn message template job ∧
        (c.step hashToPdiff input).trace =
          .published job (minerJobSlot message.jobId) :: c.trace := by
  obtain ⟨payload, buffers, rfl⟩ := tipMessage_frame htip
  have hstep : c.step hashToPdiff (.frame SV2_MSG_SET_NEW_PREV_HASH payload buffers) =
      c.handleSetNewPrevHash hashToPdiff payload := rfl
  rw [hstep, handleSetNewPrevHash_eq hashToPdiff htip]
  split
  · next hready =>
    right
    obtain ⟨jobId, template, hlast, hsame, htext⟩ := h.pending _ hready.1
    have hid : jobId = message.jobId := by
      rw [← strtoul_jobId jobId, ← htext, ← hsame.jobId]
      exact hready.2
    subst hid
    rw [withActivated, stratumPublishJob_eq]
    exact ⟨template, _, lastTemplate_of_lastInSlot hlast,
      (activatedFrom_activatedJob hashToPdiff hsame).published hashToPdiff _, rfl⟩
  · exact .inl rfl

/-! ## Runs -/

/-- **Templates survive dropped messages.**  In a run in which no dropped message
lands on a slot in use, a dropped message keeps the published jobs, the pending
templates and the job being mined, and a job that SetNewPrevHash publishes is the
last template with its id, activated. -/
theorem templates_survive {c : StratumV2Client} (hopened : c.Opened) (inputs : List Input)
    (input : Input)
    (hspared : Guarded (step hashToPdiff) (TemplatesSpared hashToPdiff) c inputs)
    (hinput : TemplatesSpared hashToPdiff (run (step hashToPdiff) c inputs) input) :
    (Dropped hashToPdiff (run (step hashToPdiff) c inputs) input →
      WorkKept (run (step hashToPdiff) c inputs)
        ((run (step hashToPdiff) c inputs).step hashToPdiff input)) ∧
    ∀ message, (run (step hashToPdiff) c inputs).tipMessage input = some message →
      ((run (step hashToPdiff) c inputs).step hashToPdiff input).trace =
          (run (step hashToPdiff) c inputs).trace ∨
        ∃ template job,
          lastTemplate (run (step hashToPdiff) c inputs).trace message.jobId = some template ∧
          ActivatedFrom hashToPdiff (run (step hashToPdiff) c inputs).conn message template job ∧
          ((run (step hashToPdiff) c inputs).step hashToPdiff input).trace =
            .published job (minerJobSlot message.jobId) ::
              (run (step hashToPdiff) c inputs).trace := by
  have hstart : TemplatesTracked c := by
    refine ⟨fun slot hslot => ?_, fun jobId hmem => ?_⟩
    · rw [hopened.pendingJobsValid] at hslot
      cases hslot
    · rw [hopened.activeJobIds] at hmem
      cases hmem
  have htracked : TemplatesTracked (run (step hashToPdiff) c inputs) :=
    Guarded.invariant (P := TemplatesTracked) _
      (fun _ _ h hok => step_templatesTracked hashToPdiff h hok) hspared hstart
  exact ⟨dropped_workKept hashToPdiff hinput, fun _ htip => tip_activates hashToPdiff htracked htip⟩

end Client

/-! ## A template that is lost -/

/-- The tip that the example's SetNewPrevHash names. -/
def someTip : Sv2SetNewPrevHash where
  channelId := 1
  jobId := 1
  prevHash := Vector.replicate 32 0x11
  minNtime := 1700000000
  nbits := 0x1d00ffff

theorem templates_survive_of_activation :
    ∃ template job, lastTemplate (run (step fun _ => 0) (openChannel .extended)
        [newExtendedMiningJobFrame 1 1]).trace 1 = some template ∧
      ActivatedFrom (fun _ => 0) (run (step fun _ => 0) (openChannel .extended)
        [newExtendedMiningJobFrame 1 1]).conn someTip template job := by
  have hguard : Guarded (step fun _ => 0) (TemplatesSpared fun _ => 0) (openChannel .extended)
      [newExtendedMiningJobFrame 1 1] := ⟨by decide +kernel, trivial⟩
  have htip := (templates_survive (fun _ => 0) (openChannel_opened .extended)
    [newExtendedMiningJobFrame 1 1] (setNewPrevHashFrame 1 0x11) hguard (by decide +kernel)).2
      someTip (by decide +kernel)
  have hgrows : ((run (step fun _ => 0) (openChannel .extended)
      [newExtendedMiningJobFrame 1 1]).step (fun _ => 0)
        (setNewPrevHashFrame 1 0x11)).trace.length ≠
          (run (step fun _ => 0) (openChannel .extended)
            [newExtendedMiningJobFrame 1 1]).trace.length := by decide +kernel
  obtain ⟨template, job, hlast, hactivated, -⟩ :=
    htip.resolve_left fun heq => hgrows (congrArg List.length heq)
  exact ⟨template, job, hlast, hactivated⟩

/-- A message for channel 7 takes the place of the pending template of channel 1. -/
theorem template_lost :
    ¬ (Dropped (fun _ => 0) (run (step fun _ => 0) (openChannel .extended)
          [newExtendedMiningJobFrame 1 1]) (newExtendedMiningJobFrame 7 9) →
        WorkKept (run (step fun _ => 0) (openChannel .extended) [newExtendedMiningJobFrame 1 1])
          ((run (step fun _ => 0) (openChannel .extended) [newExtendedMiningJobFrame 1 1]).step
            (fun _ => 0) (newExtendedMiningJobFrame 7 9))) := by
  have hnone : (jobMessage (fun _ => 0) (run (step fun _ => 0) (openChannel .extended)
      [newExtendedMiningJobFrame 1 1]) (newExtendedMiningJobFrame 7 9)).isNone = true := by
    decide +kernel
  intro hkept
  have hpending := (hkept (.inr ⟨_, _, _, rfl, .inl ⟨.inr rfl,
    Option.isNone_iff_eq_none.mp hnone⟩⟩)).pending (minerJobSlot 1) (by decide +kernel)
  revert hpending
  decide +kernel

end StratumV2Client

end EspMiner
