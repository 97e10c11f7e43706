import EspMiner.Bzm.ReactorAttribution

/-!
# Wire sequences

Between two completed flushes every work write has an engine and a logical
sequence of its own, so a sequence byte goes to an engine twice only with a
completed hardware flush between the writes.  After the start of a flush no
result maps until every engine has new work.
-/

namespace EspMiner

open Library

/-- The first byte that flush and sentinel work use. -/
def BzmReactorConfig.reservedByte (config : BzmReactorConfig) : Nat :=
  if config.enhancedMode then 0xfc else 0xff

/-- A work item whose sequence the scheduler may hand out. -/
structure BzmWork.Sequenced (config : BzmReactorConfig) (work : BzmWork) : Prop where
  space : work.logicalSequence.toNat < config.sequenceSpace
  count : work.midstateCount = bzmVersionCount config.enhancedMode

/-- A wire byte determines the logical sequence and stays below the reserved ones. -/
theorem BzmWork.Sequenced.byte {config : BzmReactorConfig} {work : BzmWork}
    (h : work.Sequenced config) {byte : U8} (hbyte : byte ∈ work.wireBytes) :
    byte.toNat < config.reservedByte ∧
      work.logicalSequence.toNat = if config.enhancedMode then byte.toNat / 4 else byte.toNat := by
  obtain ⟨i, hi, rfl⟩ := List.mem_map.mp hbyte
  have hspace := h.space
  rw [List.mem_range, h.count] at hi
  unfold BzmWork.sequenceByte BzmReactorConfig.reservedByte
  rw [h.count]
  cases hmode : config.enhancedMode with
  | true =>
    simp only [BzmReactorConfig.sequenceSpace, hmode, if_true] at hspace
    have hlt : i < 4 := by simpa [hmode, bzmVersionCount, BZM_VERSION_VARIANTS] using hi
    have hvalue : ((work.logicalSequence <<< 2) ||| BitVec.ofNat 8 i).toNat =
        2 ^ 2 * work.logicalSequence.toNat + i := by
      have hshift : (work.logicalSequence.toNat <<< 2) % 2 ^ 8 =
          2 ^ 2 * work.logicalSequence.toNat := by
        rw [Nat.shiftLeft_eq]
        omega
      rw [BitVec.toNat_or, BitVec.toNat_shiftLeft, hshift, BitVec.toNat_ofNat,
        Nat.mod_eq_of_lt (show i < 2 ^ 8 by omega),
        ← Nat.two_pow_add_eq_or_of_lt (show i < 2 ^ 2 by omega)]
    have hcount : 1 < bzmVersionCount true := by decide
    rw [if_pos hcount, hvalue]
    simp only [if_true]
    omega
  | false =>
    simp only [BzmReactorConfig.sequenceSpace, hmode] at hspace
    have hcount : ¬ 1 < bzmVersionCount false := by decide
    rw [if_neg hcount]
    simpa using hspace

open BzmReactorTrace

namespace BzmReactorTrace

/-- The work items handed to the transport in a stretch of history. -/
def works (trace : BzmReactorTrace) : List BzmWork :=
  trace.filterMap fun
    | .writeWork work _ => some work
    | _ => none

/-- The last flush of the history succeeded, and no work was written after it. -/
def FlushSucceeded (trace : BzmReactorTrace) : Prop :=
  ∃ later earlier, trace = later ++ .flush true :: earlier ∧ works later = [] ∧
    .flushFinished ∉ later

/-- No work item repeats the engine and sequence of another one since the last
completed flush, and every completed flush is one that succeeded. -/
def Separated : BzmReactorTrace → Prop
  | [] => True
  | .writeWork work _ :: older =>
      (∀ earlier ∈ works (since isFlushFinished older), earlier.engineId = work.engineId →
        earlier.logicalSequence ≠ work.logicalSequence) ∧ Separated older
  | .flushFinished :: older => FlushSucceeded older ∧ Separated older
  | .stored _ :: older => Separated older
  | .dispatchCheckpoint _ :: older => Separated older
  | .assigned _ :: older => Separated older
  | .invalidated :: older => Separated older
  | .flushBegun :: older => Separated older
  | .flush _ :: older => Separated older

theorem Separated.of_append {newer older : BzmReactorTrace} (h : Separated (newer ++ older)) :
    Separated older := by
  induction newer with
  | nil => exact h
  | cons event newer ih =>
    cases event with
    | writeWork => exact ih h.2
    | flushFinished => exact ih h.2
    | stored => exact ih h
    | dispatchCheckpoint => exact ih h
    | assigned => exact ih h
    | invalidated => exact ih h
    | flushBegun => exact ih h
    | flush => exact ih h

/-- A successful flush with no work after it lies on this side of any work. -/
theorem FlushSucceeded.before {newer older : BzmReactorTrace} {work : BzmWork} {ok : Bool}
    (h : FlushSucceeded (newer ++ .writeWork work ok :: older)) :
    ∃ later earlier, newer = later ++ .flush true :: earlier := by
  obtain ⟨later, earlier, hsplit, hworks, -⟩ := h
  rcases List.append_eq_append_iff.mp hsplit with ⟨rest, rfl, hrest⟩ | ⟨rest, rfl, hrest⟩
  · cases rest with
    | nil => cases hrest
    | cons event rest =>
      obtain ⟨rfl, -⟩ := List.cons.inj hrest
      simp [works] at hworks
  · cases rest with
    | nil => cases hrest
    | cons event rest =>
      obtain ⟨rfl, -⟩ := List.cons.inj hrest
      exact ⟨later, rest, rfl⟩

/-- **A repeated identity has a completed flush before it.** -/
theorem Separated.between {newer mid older : BzmReactorTrace} {later earlier : BzmWork}
    {ok ok' : Bool}
    (h : Separated (newer ++ .writeWork later ok :: (mid ++ .writeWork earlier ok' :: older)))
    (hengine : earlier.engineId = later.engineId)
    (hsequence : earlier.logicalSequence = later.logicalSequence) :
    ∃ first second third, mid = first ++ .flushFinished :: (second ++ .flush true :: third) := by
  obtain ⟨hdistinct, hmid⟩ := h.of_append
  have hfinished : .flushFinished ∈ mid := by
    by_contra habsent
    have hmem : .writeWork earlier ok' ∈
        since isFlushFinished (mid ++ .writeWork earlier ok' :: older) := by
      refine mem_since_of_not_barrier (fun event hevent => ?_) rfl
      cases event with
      | flushFinished => exact absurd hevent habsent
      | _ => rfl
    exact hdistinct earlier (List.mem_filterMap.mpr ⟨_, hmem, rfl⟩) hengine hsequence
  obtain ⟨first, rest, rfl⟩ := List.append_of_mem hfinished
  rw [List.append_assoc] at hmid
  obtain ⟨hsucceeded, -⟩ := hmid.of_append
  obtain ⟨second, third, rfl⟩ := FlushSucceeded.before hsucceeded
  exact ⟨first, second, third, rfl⟩

end BzmReactorTrace

namespace BzmReactor

variable {start : NonzeroCounter 64} {r : BzmReactor}

/-- The sequence invariant, for a transport that can flush. -/
structure Sequenced (r : BzmReactor) : Prop where
  hasFlush : r.transport.hasFlush = true
  separated : Separated r.trace
  sequenced : ∀ work ∈ works r.trace, work.Sequenced r.config
  succeeded : r.flushPending = true → r.flushComplete = true → FlushSucceeded r.trace
  current : r.flushPending = false →
    works (since isFlushFinished r.trace) = (ledger r.trace).map fun entry => entry.record.work

theorem Sent.works_append {work : BzmWork} {ok : Bool} {sent : List BzmReactorEvent}
    (h : Sent work ok sent) (trace : BzmReactorTrace) :
    works (sent ++ trace) = work :: works trace := by
  cases h <;> rfl

/-- The next turn's work item repeats none of the ledger. -/
theorem Attempted.fresh {template : JobRef} {index : Nat} {record : BzmAssigned}
    (h : r.Attempted template index record) (htracked : Tracked start r)
    {entry : BzmLedgerEntry} (hmem : entry ∈ ledger r.trace)
    (hengine : entry.record.work.engineId = record.work.engineId) :
    entry.record.work.logicalSequence ≠ record.work.logicalSequence := by
  intro hsequence
  obtain ⟨hdispatched, -, -, -, -⟩ := htracked.dispatching h.notPending
  obtain ⟨i, hi⟩ := List.mem_iff_getElem?.mp hmem
  have hlt := (List.getElem?_eq_some_iff.mp hi).1
  have hold := hdispatched.turn i entry hi
  have hnew := h.atTurn htracked.valid hdispatched
  have hsame : entry.record.engine = record.engine := by
    rw [hold.built.engineId_eq, hnew.built.engineId_eq] at hengine
    exact (activationAt_located hold.scheduled).2.1.eq_of_physicalId
      (activationAt_located hnew.scheduled).2.1 hengine
  have hmember := activationAt_inj (hsame ▸ hold.scheduled) hnew.scheduled
  have hround : ((ledger r.trace).length - 1 - i) / r.config.engineCount =
      (ledger r.trace).length / r.config.engineCount := by
    rw [← hold.sequence, ← hnew.sequence, hsequence]
  have := RoundRobin.turn_inj hmember hround
  omega

/-- Handing the next work item to the transport keeps writes apart. -/
theorem Sequenced.sent (h : Sequenced r) (htracked : Tracked start r) {template : JobRef}
    {index : Nat} {record : BzmAssigned} {ok : Bool} {sent : List BzmReactorEvent}
    (hattempt : r.Attempted template index record) (hsent : Sent record.work ok sent) :
    Separated (sent ++ .stored r.nextHandle :: r.trace) ∧
      ∀ work ∈ works (sent ++ .stored r.nextHandle :: r.trace), work.Sequenced r.config := by
  have hdistinct : ∀ earlier ∈ works (since isFlushFinished (.stored r.nextHandle :: r.trace)),
      earlier.engineId = record.work.engineId →
        earlier.logicalSequence ≠ record.work.logicalSequence := by
    intro earlier hmem
    rw [since_cons_of_not_barrier _ rfl] at hmem
    have hmem' : earlier ∈ works (since isFlushFinished r.trace) := hmem
    rw [h.current hattempt.notPending] at hmem'
    obtain ⟨entry, hentry, rfl⟩ := List.mem_map.mp hmem'
    exact hattempt.fresh htracked hentry
  constructor
  · cases hsent with
    | written => exact ⟨hdistinct, h.separated⟩
    | checked => exact ⟨hdistinct, h.separated⟩
  · rw [hsent.works_append]
    intro work hmem
    rcases List.mem_cons.mp hmem with rfl | hold
    · refine ⟨?_, hattempt.built.midstateCount_eq⟩
      rw [hattempt.built.logicalSequence_eq]
      exact hattempt.space
    · exact h.sequenced work hold

theorem move_sequenced {s : BzmReactor} (htracked : Tracked start r) (h : Sequenced r)
    (hmove : Move r s) : Sequenced s := by
  cases hmove with
  | submission => exact ⟨h.hasFlush, h.separated, h.sequenced, h.succeeded, h.current⟩
  | lost template hpending hhandle =>
    refine ⟨h.hasFlush, h.separated, h.sequenced, ?_, ?_⟩
    · intro hnow
      exact absurd (hnow.symm.trans hpending) (by simp)
    · intro _
      show works (since isFlushFinished (.stored r.nextHandle :: r.trace)) = _
      rw [since_cons_of_not_barrier _ rfl]
      exact h.current hpending
  | @committed template index record sent hattempt hsent =>
    obtain ⟨hseparated, hsequenced⟩ := h.sent htracked hattempt hsent
    refine ⟨h.hasFlush, hseparated, hsequenced, ?_, ?_⟩
    · intro hnow
      exact absurd (hnow.symm.trans hattempt.notPending) (by simp)
    · intro _
      have hbook := hsent.bookkeeping (.stored r.nextHandle :: r.trace)
      show works (since isFlushFinished
        (.assigned record :: (sent ++ .stored r.nextHandle :: r.trace))) =
          record.work :: (ledger (sent ++ .stored r.nextHandle :: r.trace)).map _
      rw [since_cons_of_not_barrier _ rfl, hbook.1, hbook.2.2.2.2.1,
        since_cons_of_not_barrier _ rfl]
      show works (sent ++ .stored r.nextHandle :: since isFlushFinished r.trace) = _
      rw [hsent.works_append]
      exact congrArg (record.work :: ·) (h.current hattempt.notPending)
  | @aborted template index record sent hattempt hsent =>
    obtain ⟨hseparated, hsequenced⟩ := h.sent htracked hattempt hsent
    refine ⟨h.hasFlush, hseparated, hsequenced, ?_, ?_⟩
    · intro _ hnow
      cases hnow
    · intro hnow
      cases hnow
  | opened hpending =>
    refine ⟨h.hasFlush, h.separated, h.sequenced, ?_, ?_⟩
    · intro _ hnow
      cases hnow
    · intro hnow
      cases hnow
  | flushCalled answer hpending hcomplete =>
    have hcall : r.callFlush answer =
        { r with flushComplete := answer, trace := .flush answer :: r.trace } := by
      simp [callFlush, h.hasFlush]
    rw [hcall]
    refine ⟨h.hasFlush, h.separated, h.sequenced, ?_, ?_⟩
    · intro _ hnow
      have hanswer : answer = true := hnow
      exact ⟨[], r.trace, by rw [hanswer]; rfl, rfl, by simp⟩
    · intro hnow
      exact absurd (hnow.symm.trans hpending) (by simp)
  | finished hpending hcomplete =>
    refine ⟨h.hasFlush, ⟨h.succeeded hpending hcomplete, h.separated⟩, h.sequenced, ?_, ?_⟩
    · intro hnow
      cases hnow
    · intro _
      show works (since isFlushFinished (.flushFinished :: r.trace)) = []
      rw [since_cons_of_barrier _ rfl]
      rfl
  | invalidated =>
    refine ⟨h.hasFlush, h.separated, h.sequenced, ?_, ?_⟩
    · intro hpending hcomplete
      obtain ⟨later, earlier, hsplit, hworks, hfinished⟩ := h.succeeded hpending hcomplete
      refine ⟨.invalidated :: later, earlier, ?_, hworks, by simpa using hfinished⟩
      show .invalidated :: r.trace = _
      rw [hsplit]
      rfl
    · intro hpending
      show works (since isFlushFinished (.invalidated :: r.trace)) = _
      rw [since_cons_of_not_barrier _ rfl]
      exact h.current hpending

theorem run_sequenced {config : BzmReactorConfig} {transport : BzmTransportOps}
    {jobStore : AsicJobStore} (hflush : transport.hasFlush = true)
    (hinit : init config transport jobStore = some r) (ops : List BzmReactorOp) :
    Sequenced (run step r ops) := by
  refine (run_invariant step
    (P := fun s => Tracked jobStore.nextGeneration s ∧ Sequenced s) (fun s op hs => ?_)
    ⟨init_tracked hinit, ?_⟩ ops).2
  · exact step_invariant (P := fun s => Tracked jobStore.nextGeneration s ∧ Sequenced s)
      (fun _ _ ht hmove => ⟨move_tracked ht.1 hmove, move_sequenced ht.1 ht.2 hmove⟩)
      hs.1.valid hs op
  · have htransport := (init_config hinit).2
    unfold init at hinit
    split at hinit
    · cases hinit
    · obtain rfl := Option.some.inj hinit
      refine ⟨hflush, trivial, ?_, ?_, fun _ => rfl⟩
      · intro _ hmem
        cases hmem
      · intro hnow
        cases hnow

/-! ### The quarantine after a flush -/

/-- Outside the quarantine that a flush begins, every engine has an assignment
since the last completed flush. -/
theorem Tracked.engines_assigned (h : Tracked start r) (hpending : r.flushPending = false)
    (hquarantined : r.resultsQuarantined = false) (hbegun : .flushBegun ∈ r.trace) {k : Nat}
    (hk : k < r.config.engineCount) :
    ∃ record ∈ assignedRecords (since isFlushFinished r.trace),
      scheduledEngineAt k = some record.engine := by
  obtain ⟨hdispatched, -, -, hquarantine, -⟩ := h.dispatching hpending
  have hlength : r.config.engineCount ≤ (ledger r.trace).length := by
    by_contra hshort
    exact absurd ((hquarantine hbegun (Nat.not_le.mp hshort)).symm.trans hquarantined) (by simp)
  have hage := Nat.lt_of_lt_of_le (RoundRobin.age_lt hk (ledger r.trace).length) hlength
  have hentry := List.getElem?_eq_getElem hage
  rw [assignedRecords_since]
  exact ⟨_, List.mem_map_of_mem (List.mem_of_getElem? hentry),
    hdispatched.scheduled_of_age hk (Dispatched.age_mod hk) hentry⟩

/-- **Wire sequences are separated by hardware flushes.**  With a transport that
can flush: two work writes to one engine that share a wire byte have a completed
flush between them; after the start of a flush no result maps until every
configured engine has been assigned again; and no work write uses a byte that is
reserved for flush and sentinel work. -/
theorem wire_sequences_separated {config : BzmReactorConfig} {transport : BzmTransportOps}
    {jobStore : AsicJobStore} {initial : BzmReactor} (hflush : transport.hasFlush = true)
    (hinit : init config transport jobStore = some initial) (ops : List BzmReactorOp) :
    (∀ newer mid older later earlier ok ok',
      (run step initial ops).trace =
        newer ++ .writeWork later ok :: (mid ++ .writeWork earlier ok' :: older) →
      earlier.engineId = later.engineId →
      (∃ byte ∈ earlier.wireBytes, byte ∈ later.wireBytes) →
      ∃ first second third,
        mid = first ++ .flushFinished :: (second ++ .flush true :: third)) ∧
    (∀ newer older, (run step initial ops).trace = newer ++ .flushBegun :: older →
      (∃ k < config.engineCount, ∀ record ∈ assignedRecords newer,
        scheduledEngineAt k ≠ some record.engine) →
      ∀ raw, (run step initial ops).mapResult raw = none) ∧
    (∀ work ok, .writeWork work ok ∈ (run step initial ops).trace →
      ∀ byte ∈ work.wireBytes, byte.toNat < config.reservedByte) := by
  have htracked := run_tracked hinit ops
  have hsequenced := run_sequenced hflush hinit ops
  have hconfig := (run_config hinit ops).1
  generalize run step initial ops = r at htracked hsequenced hconfig ⊢
  subst hconfig
  have hwritten : ∀ work ok, .writeWork work ok ∈ r.trace → work.Sequenced r.config :=
    fun work ok hmem => hsequenced.sequenced work (List.mem_filterMap.mpr ⟨_, hmem, rfl⟩)
  refine ⟨?_, ?_, ?_⟩
  · rintro newer mid older later earlier ok ok' htrace hengine ⟨byte, hearlier, hlater⟩
    have hseparated := hsequenced.separated
    rw [htrace] at hseparated hwritten
    refine hseparated.between hengine (BitVec.eq_of_toNat_eq ?_)
    rw [((hwritten earlier ok' (by simp)).byte hearlier).2,
      ((hwritten later ok (by simp)).byte hlater).2]
  · rintro newer older htrace ⟨k, hk, hunassigned⟩ raw
    cases hmap : r.mapResult raw with
    | none => rfl
    | some event =>
      exfalso
      obtain ⟨hpending, hquarantined, -⟩ := htracked.mapResult_eq_some_iff.mp hmap
      have hbegun : .flushBegun ∈ r.trace := by
        rw [htrace]
        exact List.mem_append_right _ List.mem_cons_self
      obtain ⟨record, hrecord, hscheduled⟩ :=
        htracked.engines_assigned hpending hquarantined hbegun hk
      have hopened := (htracked.dispatching hpending).opened
      rw [htrace] at hopened hrecord
      have hstretch := since_isPrefix_of_not_mem hopened
      exact hunassigned record ((hstretch.sublist.filterMap _).subset hrecord) hscheduled
  · intro work ok hmem byte hbyte
    exact ((hwritten work ok hmem).byte hbyte).1

/-- One engine whose only sequence byte comes back after a flush. -/
def flushBetween : List BzmReactorOp :=
  [.assign ⟨0, AsicJob.zero⟩ allGood, .beginFlush true, .finishFlush,
    .assign ⟨1, AsicJob.zero⟩ allGood]

theorem wire_sequences_separated_flush : ∃ initial, plainReactor = some initial ∧
    ∀ work ok, .writeWork work ok ∈ (run step initial flushBetween).trace →
      ∀ byte ∈ work.wireBytes, byte.toNat < 0xff := by
  have hflush : serialTransport.hasFlush = true := rfl
  obtain ⟨initial, hinit⟩ : ∃ initial, plainReactor = some initial := ⟨_, rfl⟩
  exact ⟨initial, hinit, (wire_sequences_separated hflush hinit flushBetween).2.2⟩

end BzmReactor

end EspMiner
