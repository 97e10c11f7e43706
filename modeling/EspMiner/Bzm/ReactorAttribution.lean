import EspMiner.Bzm.ReactorInvariant

/-!
# Attribution of raw results

A raw result that the reactor maps names exactly one assignment since the last completed flush, and
the share carries that assignment's template, submission context, version and time.  The slots are
read off the ledger of those assignments, so a slot that answers is the newest of its identity.
-/

namespace EspMiner

open Library

/-- The assignment bears the engine and the logical sequence of a raw result. -/
def BzmAssigned.names (config : BzmReactorConfig) (raw : BzmRawResult) (record : BzmAssigned) :
    Bool :=
  decide (record.engine.physicalId = raw.engineId) &&
    decide (record.work.logicalSequence = config.rawSequence raw)

/-- The share of a raw result that belongs to an assignment. -/
def BzmAssigned.share (config : BzmReactorConfig) (raw : BzmRawResult) (asicIndex : Nat)
    (record : BzmAssigned) : AsicResult :=
  let template := record.work.source.template.job
  let finalVersion := record.work.versions.getD (config.rawMicroJob raw).toNat 0
  { jobValid := true
    job := template
    context := record.context
    workHandle := record.work.source.handle
    nonce := bswap32 (raw.nonce - config.nonceOffset)
    finalNtime := template.ntime + (config.timestampCount - raw.time).setWidth 32
    finalVersion := finalVersion
    versionBits := finalVersion ^^^ template.version
    timestampUs := raw.timestampUs
    asicIndex := asicIndex
    engineId := record.engine.topologyIndex
    sequenceId := config.rawSequence raw
    microJobId := config.rawMicroJob raw
    generation := record.epoch.val }

open BzmReactorTrace

namespace BzmReactor

variable {start : NonzeroCounter 64} {r : BzmReactor} {raw : BzmRawResult}

/-- What both questions about a raw result ask of the result alone. -/
structure WellFormed (config : BzmReactorConfig) (raw : BzmRawResult) : Prop where
  validNonce : raw.hasValidNonce = true
  asicId : ∃ index, bzmTopologyAsicIndex raw.asicId = some index
  micro : (config.rawMicroJob raw).toNat < bzmVersionCount config.enhancedMode
  time : raw.time ≤ config.timestampCount

/-- A result maps exactly when a current table entry and its stored job answer
for it. -/
theorem mapResult_eq_some_iff (hbatch : r.previousBatchComplete = false) {event : AsicResult} :
    r.mapResult raw = some event ↔
      r.flushPending = false ∧ r.resultsQuarantined = false ∧ raw.hasValidNonce = true ∧
      ∃ assignment asicIndex job context,
        bzmEngineLogicalId raw.engineId = some assignment.logicalEngineId ∧
        r.findAssignment raw.engineId (r.config.rawSequence raw) = some assignment ∧
        assignment.state = .assigned ∧ assignment.epoch = r.epoch.val ∧
        assignment.logicalSequence = r.config.rawSequence raw ∧
        (r.config.rawMicroJob raw).toNat < assignment.versionCount ∧
        raw.time ≤ assignment.timestampCount ∧
        bzmTopologyAsicIndex raw.asicId = some asicIndex ∧
        r.jobStore.snapshotWithContext assignment.handle = some (job, context) ∧
        event = {
          jobValid := true
          job := job
          context := context
          workHandle := assignment.handle
          nonce := bswap32 (raw.nonce - assignment.nonceOffset)
          finalNtime := assignment.baseNtime + (assignment.timestampCount - raw.time).setWidth 32
          finalVersion := assignment.versions.getD (r.config.rawMicroJob raw).toNat 0
          versionBits := assignment.versions.getD (r.config.rawMicroJob raw).toNat 0 ^^^
            assignment.baseVersion
          timestampUs := raw.timestampUs
          asicIndex := asicIndex
          engineId := assignment.logicalEngineId
          sequenceId := assignment.logicalSequence
          microJobId := r.config.rawMicroJob raw
          generation := assignment.epoch } := by
  constructor
  · intro h
    unfold mapResult at h
    split at h
    · cases h
    next hopen =>
    split at h
    · cases h
    next logicalEngineId hlogical =>
    split at h
    · cases h
    next hnonce =>
    simp only [hbatch, Bool.false_and, Bool.false_eq_true, if_false] at h
    cases hfind : r.findAssignment raw.engineId (r.config.rawSequence raw) with
    | none => simp [hfind] at h
    | some assignment =>
      simp only [hfind] at h
      split at h
      · cases h
      next hcurrent =>
      split at h
      · cases h
      next hrange =>
      split at h
      · cases h
      next asicIndex hasic =>
      split at h
      · cases h
      next job context hsnapshot =>
      simp only [Bool.or_eq_true, not_or, Bool.not_eq_true] at hopen
      simp only [true_and, not_or, not_not] at hcurrent
      simp only [not_or, not_not, Nat.not_le, BitVec.not_lt] at hrange
      refine ⟨hopen.1, hopen.2, by simpa using hnonce, assignment, asicIndex, job, context, ?_,
        rfl, hcurrent.2.1, hcurrent.2.2, hrange.1.symm, hrange.2.1, hrange.2.2, hasic, hsnapshot,
        (Option.some.inj h).symm⟩
      rw [hlogical, hcurrent.1]
  · rintro ⟨hpending, hquarantined, hnonce, assignment, asicIndex, job, context, hlogical, hfind,
      hstate, hepoch, hsequence, hmicro, htime, hasic, hsnapshot, rfl⟩
    have hmicro' := Nat.not_le.mpr hmicro
    have htime' := BitVec.not_lt.mpr htime
    simp [mapResult, hpending, hquarantined, hnonce, hlogical, hfind, hstate, hepoch, hsequence,
      hmicro', htime', hasic, hsnapshot]

theorem length_le_of_dispatched {entries : List BzmLedgerEntry} {invalidated : Nat}
    (hvalid : r.config.Valid) (h : r.Dispatched entries invalidated) :
    entries.length ≤ 2 ^ 16 := by
  have hn : r.config.engineCount ≤ 236 := hvalid.engineCount_le
  have hspace := r.config.sequenceSpace_le
  calc entries.length ≤ r.config.engineCount * r.config.sequenceSpace := h.length_le
    _ ≤ 236 * 255 := Nat.mul_le_mul hn hspace
    _ ≤ 2 ^ 16 := by decide

theorem names_iff_identity {config : BzmReactorConfig} {record : BzmAssigned} :
    record.names config raw = true ↔ record.engine.physicalId = raw.engineId ∧
      record.work.logicalSequence = config.rawSequence raw := by
  simp [BzmAssigned.names]

/-- The mapped share in terms of the ledger: one of the last two turns of an
engine, with no invalidation since and its job still stored. -/
theorem Tracked.mapResult_eq_some_iff (h : Tracked start r) {event : AsicResult} :
    r.mapResult raw = some event ↔
      r.flushPending = false ∧ r.resultsQuarantined = false ∧ WellFormed r.config raw ∧
      ∃ i entry asicIndex, (ledger r.trace)[i]? = some entry ∧ i < 2 * r.config.engineCount ∧
        entry.record.names r.config raw = true ∧
        entry.invalidations = invalidations r.trace ∧
        r.jobStore.contains entry.handle = true ∧
        bzmTopologyAsicIndex raw.asicId = some asicIndex ∧
        event = entry.record.share r.config raw asicIndex := by
  rw [BzmReactor.mapResult_eq_some_iff h.batch]
  constructor
  · rintro ⟨hpending, hquarantined, hnonce, assignment, asicIndex, job, context, -, hfind, -,
      hepoch, -, hmicro, htime, hasic, hsnapshot, rfl⟩
    obtain ⟨hdispatched, hholds, -, -, -⟩ := h.dispatching hpending
    obtain ⟨i, entry, hi, hrecent, hengine, hsequence, rfl⟩ :=
      (hdispatched.findAssignment_eq_some_iff h.valid).mp hfind
    have hbuilt := (hdispatched.turn i entry hi).built
    have hcurrent : entry.record.epoch =
        NonzeroCounter.next^[invalidations r.trace] NonzeroCounter.one := by
      rw [← h.epoch]
      exact NonzeroCounter.ext hepoch
    obtain ⟨hnow, rfl, rfl⟩ := hholds.owner_of_snapshot
      (length_le_of_dispatched h.valid hdispatched) (List.mem_of_getElem? hi) hcurrent hsnapshot
    have hcontains : r.jobStore.contains entry.handle = true := by
      rw [AsicJobStore.contains_eq_isSome]
      exact Option.isSome_of_eq_some hsnapshot
    have htimes : entry.record.work.timestampCount = r.config.timestampCount :=
      hbuilt.timestampCount_eq
    have hcount : entry.record.work.midstateCount = bzmVersionCount r.config.enhancedMode :=
      hbuilt.midstateCount_eq
    refine ⟨hpending, hquarantined, ⟨hnonce, ⟨asicIndex, hasic⟩, hcount ▸ hmicro, htimes ▸ htime⟩,
      i, entry, asicIndex, hi, hrecent, names_iff_identity.mpr ⟨hengine, hsequence⟩, hnow,
      hcontains, hasic, ?_⟩
    simp [BzmAssigned.share, BzmAssigned.toAssignment, htimes, hbuilt.startNtime_eq, hsequence]
  · rintro ⟨hpending, hquarantined, hraw, i, entry, asicIndex, hi, hrecent, hnames, hnow,
      hcontains, hasic, rfl⟩
    obtain ⟨hdispatched, hholds, -, -, -⟩ := h.dispatching hpending
    obtain ⟨hengine, hsequence⟩ := names_iff_identity.mp hnames
    have hturn := hdispatched.turn i entry hi
    have hbuilt := hturn.built
    have hstamped := hholds.stamped entry (List.mem_of_getElem? hi)
    have hepoch : entry.record.epoch = r.epoch := by
      rw [h.epoch, hstamped.epoch_eq, hnow]
    rw [AsicJobStore.contains_eq_isSome] at hcontains
    obtain ⟨⟨job, context⟩, hsnapshot⟩ := Option.isSome_iff_exists.mp hcontains
    obtain ⟨-, rfl, rfl⟩ := hholds.owner_of_snapshot
      (length_le_of_dispatched h.valid hdispatched) (List.mem_of_getElem? hi)
      (hepoch.trans h.epoch) hsnapshot
    have hlogical : bzmEngineLogicalId raw.engineId = some entry.record.engine.topologyIndex := by
      rw [← hengine]
      exact (activationAt_located hturn.scheduled).2.1.logicalId
    refine ⟨hpending, hquarantined, hraw.validNonce, entry.record.toAssignment r.config.nonceOffset,
      asicIndex, _, _, hlogical, (hdispatched.findAssignment_eq_some_iff h.valid).mpr ⟨i, entry, hi,
      hrecent, hengine, hsequence, rfl⟩, rfl, congrArg NonzeroCounter.val hepoch, hsequence, ?_, ?_,
      hasic, hsnapshot, ?_⟩
    · show (r.config.rawMicroJob raw).toNat < entry.record.work.midstateCount
      rw [hbuilt.midstateCount_eq]
      exact hraw.micro
    · show raw.time ≤ entry.record.work.timestampCount
      rw [hbuilt.timestampCount_eq]
      exact hraw.time
    · simp [BzmAssigned.share, BzmAssigned.toAssignment, hbuilt.timestampCount_eq,
        hbuilt.startNtime_eq, hsequence]

/-- A list with one index that passes a test filters to that element. -/
theorem filter_eq_singleton {α : Type*} {test : α → Bool} {l : List α} {i : Nat} {a : α}
    (hi : l[i]? = some a) (ha : test a = true)
    (hunique : ∀ j b, l[j]? = some b → test b = true → j = i) : l.filter test = [a] := by
  induction l generalizing i with
  | nil => simp at hi
  | cons first rest ih =>
    cases i with
    | zero =>
      obtain rfl := Option.some.inj hi
      have hrest : rest.filter test = [] := by
        rw [List.filter_eq_nil_iff]
        intro b hb htest
        obtain ⟨j, hj⟩ := List.mem_iff_getElem?.mp hb
        exact absurd (hunique (j + 1) b hj htest) (Nat.succ_ne_zero j)
      rw [List.filter_cons_of_pos ha, hrest]
    | succ i =>
      have hfirst : ¬ test first = true := fun htest =>
        absurd (hunique 0 first rfl htest) (Nat.succ_ne_zero i).symm
      rw [List.filter_cons_of_neg hfirst]
      exact ih hi fun j b hj htest => Nat.succ.inj (hunique (j + 1) b hj htest)

/-- The sequence byte at the position that a raw result names is its own. -/
theorem sequenceByte_rawMicroJob {config : BzmReactorConfig} {work : BzmWork}
    (hsequence : work.logicalSequence = config.rawSequence raw)
    (hcount : work.midstateCount = bzmVersionCount config.enhancedMode) :
    work.sequenceByte (config.rawMicroJob raw).toNat = raw.sequenceId := by
  unfold BzmWork.sequenceByte
  rw [hsequence, hcount]
  cases hmode : config.enhancedMode with
  | true =>
    simp only [BzmReactorConfig.rawSequence, BzmReactorConfig.rawMicroJob, hmode, if_true,
      BitVec.ofNat_toNat]
    rw [if_pos (by decide)]
    generalize raw.sequenceId = byte
    revert byte
    decide
  | false =>
    rw [if_neg (by decide)]
    simp [BzmReactorConfig.rawSequence, hmode]

/-- **Attribution of raw results.**  A mapped result names exactly one assignment
since the last completed flush.  No flush and no invalidation has begun since
this assignment, the FIFO position of the result held the midstate of the final
version under the result's own sequence byte, and the share carries the
assignment's template and context. -/
theorem mapped_result_attribution {config : BzmReactorConfig} {transport : BzmTransportOps}
    {jobStore : AsicJobStore} {initial : BzmReactor}
    (hinit : init config transport jobStore = some initial) (ops : List BzmReactorOp)
    {event : AsicResult} (hmap : (run step initial ops).mapResult raw = some event)
    (includeNonceRange : Bool) :
    ∃ record newer older asicIndex writes,
      (assignedRecords (since isFlushFinished (run step initial ops).trace)).filter
        (BzmAssigned.names config raw) = [record] ∧
      (run step initial ops).trace = newer ++ .assigned record :: older ∧
      .invalidated ∉ newer ∧ .flushBegun ∉ newer ∧ .flushFinished ∉ newer ∧
      .writeWork record.work true ∈ older ∧
      record.work.program includeNonceRange = some writes ∧
      (bzmFifo BZM_REG_MIDSTATE writes)[(config.rawMicroJob raw).toNat]? =
        some (bzmMidstate record.work.source.template.job event.finalVersion) ∧
      (bzmFifo BZM_REG_SEQUENCE_ID writes)[(config.rawMicroJob raw).toNat]? =
        some [raw.sequenceId] ∧
      raw.time ≤ config.timestampCount ∧
      bzmTopologyAsicIndex raw.asicId = some asicIndex ∧
      event = record.share config raw asicIndex := by
  have h := run_tracked hinit ops
  have hconfig := (run_config hinit ops).1
  generalize run step initial ops = r at h hconfig hmap ⊢
  subst hconfig
  obtain ⟨hpending, -, hraw, i, entry, asicIndex, hi, -, hnames, hnow, -, hasic, rfl⟩ :=
    h.mapResult_eq_some_iff.mp hmap
  obtain ⟨hdispatched, -, -, -, -⟩ := h.dispatching hpending
  obtain ⟨hengine, hsequence⟩ := names_iff_identity.mp hnames
  have hbuilt := (hdispatched.turn i entry hi).built
  have hmicro : (r.config.rawMicroJob raw).toNat < entry.record.work.versions.length := by
    rw [hbuilt.length_versions]
    exact hraw.micro
  obtain ⟨newer, older, hsplit, hstamp, hfinished⟩ :=
    exists_split_of_mem_ledger (List.mem_of_getElem? hi)
  -- the newer events take no further invalidation
  have hquiet : invalidations newer = 0 := by
    have hsum : invalidations r.trace = invalidations newer + invalidations older := by
      rw [hsplit]
      simp [invalidations]
    omega
  have hquiet' := List.countP_eq_zero.mp hquiet
  obtain ⟨writes, hwrites, hmidstates⟩ := hbuilt.program_midstates includeNonceRange
  refine ⟨entry.record, newer, older, asicIndex, writes, ?_, hsplit, fun hmem => hquiet' _ hmem rfl,
    fun hmem => hquiet' _ hmem rfl, hfinished, Logged.written (hsplit ▸ h.logged), hwrites, ?_, ?_,
    hraw.time, hasic, rfl⟩
  · rw [assignedRecords_since]
    refine filter_eq_singleton (by rw [List.getElem?_map, hi]; rfl) hnames ?_
    intro j other hj hother
    rw [List.getElem?_map] at hj
    obtain ⟨entry', hentry', rfl⟩ := Option.map_eq_some_iff.mp hj
    obtain ⟨hengine', hsequence'⟩ := names_iff_identity.mp hother
    exact hdispatched.identity_unique hentry' hi (hengine'.trans hengine.symm)
      (hsequence'.trans hsequence.symm)
  · rw [hmidstates, List.getElem?_map, List.getElem?_eq_getElem hmicro]
    simp [BzmAssigned.share, List.getElem?_eq_getElem hmicro]
  · have hmicro' : (r.config.rawMicroJob raw).toNat < entry.record.work.midstateCount := by
      rw [hbuilt.midstateCount_eq]
      exact hraw.micro
    rw [(BzmWork.program_fifos hwrites).2, BzmWork.wireBytes, List.getElem?_map, List.getElem?_map,
      List.getElem?_range hmicro']
    simp [sequenceByte_rawMicroJob hsequence hbuilt.midstateCount_eq]

/-! ### One engine outside the enhanced mode -/

def plainConfig : BzmReactorConfig where
  engineCount := 1
  timestampCount := 0
  leadZeros := 0
  nonceOffset := 0
  enhancedMode := false

/-- A transport with both optional callbacks. -/
def serialTransport : BzmTransportOps := ⟨true, true⟩

def allGood : BzmTransportAnswers := ⟨true, true, true⟩

/-- Two templates for the one engine. -/
def twoAssignments : List BzmReactorOp :=
  [.assign ⟨0, AsicJob.zero⟩ allGood, .assign ⟨1, AsicJob.zero⟩ allGood]

/-- A result of the second one, whose logical sequence is 1. -/
def secondResult : BzmRawResult where
  asicId := 0x0a
  engineId := 0
  status := 8
  nonce := 0
  sequenceId := 1
  time := 0
  timestampUs := 0

def plainReactor : Option BzmReactor := init plainConfig serialTransport AsicJobStore.empty

theorem plainReactor_maps : ∃ initial event, plainReactor = some initial ∧
    (run step initial twoAssignments).mapResult secondResult = some event := by
  have hmaps : ((run step (plainReactor.get rfl) twoAssignments).mapResult secondResult).isSome =
      true := by decide +kernel
  obtain ⟨event, hmap⟩ := Option.isSome_iff_exists.mp hmaps
  exact ⟨plainReactor.get rfl, event, (Option.some_get _).symm, hmap⟩

theorem mapped_result_attribution_second : ∃ initial record, plainReactor = some initial ∧
    (assignedRecords (since isFlushFinished (run step initial twoAssignments).trace)).filter
      (BzmAssigned.names plainConfig secondResult) = [record] := by
  obtain ⟨initial, event, hinit, hmap⟩ := plainReactor_maps
  obtain ⟨record, -, -, -, -, hfilter, -⟩ :=
    mapped_result_attribution hinit twoAssignments hmap true
  exact ⟨initial, record, hinit, hfilter⟩

/-- The result maps, and no assignment filled the FIFO position that the low two
bits of its sequence byte would name. -/
theorem plain_result_has_no_position : ∃ initial event, plainReactor = some initial ∧
    (run step initial twoAssignments).mapResult secondResult = some event ∧
    ∀ record ∈ assignedRecords (since isFlushFinished (run step initial twoAssignments).trace),
      ∀ includeNonceRange writes, record.work.program includeNonceRange = some writes →
        (bzmFifo BZM_REG_MIDSTATE writes)[(secondResult.sequenceId &&& 0x03#8).toNat]? = none := by
  obtain ⟨initial, event, hinit, hmap⟩ := plainReactor_maps
  refine ⟨initial, event, hinit, hmap, ?_⟩
  intro record hrecord includeNonceRange writes hwrites
  have h := run_tracked hinit twoAssignments
  have hconfig := (run_config hinit twoAssignments).1
  obtain ⟨hdispatched, -, -, -, -⟩ := h.dispatching (h.mapResult_eq_some_iff.mp hmap).1
  rw [assignedRecords_since] at hrecord
  obtain ⟨entry, hentry, rfl⟩ := List.mem_map.mp hrecord
  obtain ⟨i, hi⟩ := List.mem_iff_getElem?.mp hentry
  have hbuilt := (hdispatched.turn i entry hi).built
  obtain ⟨writes', hwrites', hmidstates⟩ := hbuilt.program_midstates includeNonceRange
  obtain rfl := Option.some.inj (hwrites.symm.trans hwrites')
  rw [hmidstates, List.getElem?_eq_none]
  rw [List.length_map, hbuilt.length_versions, hconfig]
  decide

end BzmReactor

end EspMiner
