import EspMiner.Bzm.ReactorStore

/-!
# The invariant of the reactor

Outside a flush the scheduler's tables and the job store are those of the
ledger.  During a flush only the counters are left to say something about; the
end of the flush empties the tables and starts a new ledger.
-/

namespace EspMiner

open Library

namespace BzmReactorTrace

def isFlushFinished : BzmReactorEvent → Bool
  | .flushFinished => true
  | _ => false

/-- Steps of the generation counter. -/
def generationSteps (trace : BzmReactorTrace) : Nat := stores trace + invalidations trace

/-- The steps up to the last completed flush. -/
def flushedSteps : BzmReactorTrace → Nat
  | [] => 0
  | .flushFinished :: older => generationSteps older
  | .stored _ :: older => flushedSteps older
  | .writeWork _ _ :: older => flushedSteps older
  | .dispatchCheckpoint _ :: older => flushedSteps older
  | .assigned _ :: older => flushedSteps older
  | .invalidated :: older => flushedSteps older
  | .flushBegun :: older => flushedSteps older
  | .flush _ :: older => flushedSteps older

theorem generationSteps_split (trace : BzmReactorTrace) :
    generationSteps trace =
      generationSteps (since isFlushFinished trace) + flushedSteps trace := by
  induction trace with
  | nil => rfl
  | cons event older ih =>
    cases event <;>
      simp [generationSteps, stores, invalidations, flushedSteps, isFlushFinished,
        since_cons] at ih ⊢ <;> omega

/-- The assignments of a stretch of history. -/
def assignedRecords (trace : BzmReactorTrace) : List BzmAssigned :=
  trace.filterMap fun
    | .assigned record => some record
    | _ => none

theorem assignedRecords_since (trace : BzmReactorTrace) :
    assignedRecords (since isFlushFinished trace) = (ledger trace).map BzmLedgerEntry.record := by
  induction trace with
  | nil => rfl
  | cons event older ih =>
    cases event <;> simp [assignedRecords, ledger, isFlushFinished, since_cons] at ih ⊢ <;> exact ih

/-- The position of a ledger entry in the history. -/
theorem exists_split_of_mem_ledger {trace : BzmReactorTrace} {entry : BzmLedgerEntry}
    (h : entry ∈ ledger trace) :
    ∃ newer older, trace = newer ++ .assigned entry.record :: older ∧
      entry.invalidations = invalidations older ∧ .flushFinished ∉ newer := by
  induction trace with
  | nil => cases h
  | cons event older ih =>
    have hlater : event ≠ .flushFinished → entry ∈ ledger older →
        ∃ newer older', event :: older = newer ++ .assigned entry.record :: older' ∧
          entry.invalidations = invalidations older' ∧ .flushFinished ∉ newer := by
      intro hevent hold
      obtain ⟨newer, older', hsplit, hstamp, hnewer⟩ := ih hold
      refine ⟨event :: newer, older', by rw [hsplit]; rfl, hstamp, ?_⟩
      rintro (_ | _)
      · exact hevent rfl
      · next hmem => exact hnewer hmem
    cases event with
    | assigned record =>
      rcases List.mem_cons.mp h with rfl | hold
      · exact ⟨[], older, rfl, rfl, by simp⟩
      · exact hlater (by simp) hold
    | flushFinished => cases h
    | stored => exact hlater (by simp) h
    | writeWork => exact hlater (by simp) h
    | dispatchCheckpoint => exact hlater (by simp) h
    | invalidated => exact hlater (by simp) h
    | flushBegun => exact hlater (by simp) h
    | flush => exact hlater (by simp) h

end BzmReactorTrace

open BzmReactorTrace

namespace BzmReactor

/-- Handing work to the transport is no part of the bookkeeping. -/
theorem Sent.bookkeeping {work : BzmWork} {ok : Bool} {sent : List BzmReactorEvent}
    (h : Sent work ok sent) (trace : BzmReactorTrace) :
    ledger (sent ++ trace) = ledger trace ∧ stores (sent ++ trace) = stores trace ∧
      invalidations (sent ++ trace) = invalidations trace ∧
      flushedSteps (sent ++ trace) = flushedSteps trace ∧
      since isFlushFinished (sent ++ trace) = sent ++ since isFlushFinished trace ∧
      .flushBegun ∉ sent := by
  cases h <;>
    simp [ledger, stores, invalidations, flushedSteps, isFlushFinished, since_cons]

/-- Every assignment of a history comes right after its work item went to the
transport under the handle of a fresh store. -/
def Logged : BzmReactorTrace → Prop
  | [] => True
  | .assigned record :: older =>
      (∃ sent rest, Sent record.work true sent ∧
        older = sent ++ .stored record.work.source.handle :: rest) ∧ Logged older
  | .stored _ :: older => Logged older
  | .writeWork _ _ :: older => Logged older
  | .dispatchCheckpoint _ :: older => Logged older
  | .invalidated :: older => Logged older
  | .flushBegun :: older => Logged older
  | .flush _ :: older => Logged older
  | .flushFinished :: older => Logged older

theorem Logged.written {newer older : BzmReactorTrace} {record : BzmAssigned}
    (h : Logged (newer ++ .assigned record :: older)) : .writeWork record.work true ∈ older := by
  induction newer with
  | nil =>
    obtain ⟨⟨sent, rest, hsent, rfl⟩, -⟩ := h
    cases hsent <;> simp
  | cons event newer ih =>
    cases event with
    | assigned => exact ih h.2
    | stored => exact ih h
    | writeWork => exact ih h
    | dispatchCheckpoint => exact ih h
    | invalidated => exact ih h
    | flushBegun => exact ih h
    | flush => exact ih h
    | flushFinished => exact ih h

/-- What holds in every state. -/
structure Counted (start : NonzeroCounter 64) (r : BzmReactor) : Prop where
  valid : r.config.Valid
  epoch : r.epoch = NonzeroCounter.next^[invalidations r.trace] NonzeroCounter.one
  generation : r.jobStore.nextGeneration = NonzeroCounter.next^[generationSteps r.trace] start
  batch : r.previousBatchComplete = false
  logged : Logged r.trace

/-- What holds outside a flush, for a ledger and the counts of its history. -/
structure Dispatching (start : NonzeroCounter 64) (r : BzmReactor)
    (entries : List BzmLedgerEntry) (stores invalidated flushed : Nat) : Prop where
  dispatched : r.Dispatched entries invalidated
  holds : Holds start r.jobStore entries stores invalidated flushed
  kept : stores + invalidated < flushed + 2 ^ 56 →
    Kept r.config.engineCount r.jobStore entries invalidated
  quarantined : .flushBegun ∈ r.trace → entries.length < r.config.engineCount →
    r.resultsQuarantined = true
  opened : .flushBegun ∉ since isFlushFinished r.trace

/-- **The reactor invariant.** -/
structure Tracked (start : NonzeroCounter 64) (r : BzmReactor) : Prop extends Counted start r where
  dispatching : r.flushPending = false → Dispatching start r (ledger r.trace) (stores r.trace)
    (invalidations r.trace) (flushedSteps r.trace)

variable {start : NonzeroCounter 64} {r : BzmReactor}

theorem Attempted.atTurn {template : JobRef} {index : Nat} {record : BzmAssigned}
    {entries : List BzmLedgerEntry} {invalidated : Nat} (h : r.Attempted template index record)
    (hvalid : r.config.Valid) (hdispatched : r.Dispatched entries invalidated) :
    AtTurn r.config entries.length record := by
  have hcursor := hdispatched.cursor
  have hlt := Nat.mod_lt entries.length hvalid.engineCount_pos
  have hbuilt := h.built
  have hsequence := hdispatched.sequence r.nextEngine (hcursor ▸ hlt)
  rw [hcursor, RoundRobin.count_turn, ← hcursor, ← hbuilt.logicalSequence_eq] at hsequence
  refine ⟨hcursor ▸ h.scheduled, hsequence, ?_⟩
  rw [hbuilt.source_eq, hbuilt.logicalSequence_eq]
  exact hbuilt

/-- A commit reads the store only to release what the second table held. -/
theorem commitAssignment_jobStore (scheduleIndex index : Nat) (record : BzmAssigned) :
    (r.commitAssignment scheduleIndex index record).jobStore =
      if (r.previousAssignments index).active then
        (r.jobStore.release (r.previousAssignments index).handle).2
      else r.jobStore := rfl

theorem init_tracked {config : BzmReactorConfig} {transport : BzmTransportOps}
    {jobStore : AsicJobStore} (h : init config transport jobStore = some r) :
    Tracked jobStore.nextGeneration r := by
  unfold init at h
  split at h
  · cases h
  · next hvalid =>
    obtain rfl := Option.some.inj h
    simp only [not_or, Nat.not_lt, BitVec.not_lt] at hvalid
    refine ⟨⟨⟨Nat.pos_of_ne_zero hvalid.1, hvalid.2.1, hvalid.2.2⟩, rfl, rfl, rfl, trivial⟩, ?_⟩
    intro _
    refine ⟨Dispatched.fresh rfl rfl rfl rfl rfl _, Holds.fresh _ _ (Nat.zero_le _), ?_, ?_, ?_⟩
    · intro _ i entry hi
      simp [ledger] at hi
    · intro hmem
      simp at hmem
    · intro hmem
      simp at hmem

theorem Counted.afterStore (h : Counted start r) (template : JobRef) :
    Counted start (r.afterStore template) where
  valid := h.valid
  epoch := by simpa [BzmReactor.afterStore, invalidations] using h.epoch
  generation := by
    have hsteps : generationSteps (r.afterStore template).trace = generationSteps r.trace + 1 := by
      simp [BzmReactor.afterStore, generationSteps, stores, invalidations]
      omega
    rw [hsteps, Function.iterate_succ_apply', ← h.generation]
    rfl
  batch := h.batch
  logged := h.logged

/-- The start of a flush is one more invalidation, whatever the tables hold. -/
theorem Counted.openFlush (h : Counted start r) : Tracked start r.openFlush where
  valid := h.valid
  epoch := by
    have hcount : invalidations r.openFlush.trace = invalidations r.trace + 1 := by
      simp [BzmReactor.openFlush, invalidations]
    rw [hcount, Function.iterate_succ_apply', ← h.epoch]
    rfl
  generation := by
    have hsteps : generationSteps r.openFlush.trace = generationSteps r.trace + 1 := by
      simp [BzmReactor.openFlush, generationSteps, stores, invalidations]
      omega
    rw [hsteps, Function.iterate_succ_apply', ← h.generation]
    rfl
  batch := h.batch
  logged := h.logged
  dispatching hpending := by cases hpending

theorem Counted.flushFinished (h : Counted start r) : Tracked start r.flushFinished where
  valid := h.valid
  epoch := by simpa [BzmReactor.flushFinished, invalidations] using h.epoch
  generation := by
    simpa [BzmReactor.flushFinished, generationSteps, stores, invalidations] using h.generation
  batch := rfl
  logged := h.logged
  dispatching _ := by
    refine ⟨Dispatched.fresh rfl rfl rfl rfl rfl _, Holds.fresh _ _ ?_, ?_, fun _ _ => rfl, ?_⟩
    · simp [BzmReactor.flushFinished, flushedSteps, generationSteps, stores, invalidations]
    · intro _ i entry hi
      simp [BzmReactor.flushFinished, ledger] at hi
    · intro hmem
      simp [BzmReactor.flushFinished, since_cons, isFlushFinished] at hmem

theorem Counted.noted (h : Counted start r) {work : BzmWork} {ok : Bool}
    {sent : List BzmReactorEvent} (hsent : Sent work ok sent) : Counted start (r.noted sent) where
  valid := h.valid
  epoch := by
    rw [BzmReactor.noted, (hsent.bookkeeping r.trace).2.2.1]
    exact h.epoch
  generation := by
    rw [BzmReactor.noted, generationSteps, (hsent.bookkeeping r.trace).2.1,
      (hsent.bookkeeping r.trace).2.2.1]
    exact h.generation
  batch := h.batch
  logged := by cases hsent <;> exact h.logged

theorem Counted.releaseHandle (h : Counted start r) (handle : AsicWorkHandle) :
    Counted start (r.releaseHandle handle) where
  valid := h.valid
  epoch := h.epoch
  generation := (r.jobStore.release_nextGeneration handle).trans h.generation
  batch := h.batch
  logged := h.logged

theorem Counted.commitAssignment (h : Counted start r) (scheduleIndex index : Nat)
    {record : BzmAssigned} (hlogged : Logged (.assigned record :: r.trace)) :
    Counted start (r.commitAssignment scheduleIndex index record) where
  valid := h.valid
  epoch := by simpa [BzmReactor.commitAssignment, invalidations] using h.epoch
  generation := by
    have hsteps : generationSteps (r.commitAssignment scheduleIndex index record).trace =
        generationSteps r.trace := by
      simp [BzmReactor.commitAssignment, generationSteps, stores, invalidations]
    rw [hsteps, commitAssignment_jobStore, ← h.generation]
    split
    · exact r.jobStore.release_nextGeneration _
    · rfl
  batch := h.batch
  logged := hlogged

theorem Counted.callFlush (h : Counted start r) (answer : Bool) :
    Counted start (r.callFlush answer) := by
  unfold BzmReactor.callFlush
  split
  · refine ⟨h.valid, ?_, ?_, h.batch, h.logged⟩
    · simpa [invalidations] using h.epoch
    · simpa [generationSteps, stores, invalidations] using h.generation
  · exact ⟨h.valid, h.epoch, h.generation, h.batch, h.logged⟩

theorem callFlush_flushPending (answer : Bool) :
    (r.callFlush answer).flushPending = r.flushPending := by
  unfold BzmReactor.callFlush
  split <;> rfl

section Assign

variable {template : JobRef} {index : Nat} {record : BzmAssigned}
  {sent : List BzmReactorEvent}

/-- The store and the ledger after a committed assignment. -/
theorem Tracked.committed (h : Tracked start r) (hattempt : r.Attempted template index record)
    (hsent : Sent record.work true sent) :
    Tracked start
      (((r.afterStore template).noted sent).commitAssignment r.nextEngine index record) := by
  obtain ⟨hdispatched, hholds, hkept, hquarantined, hopened⟩ :=
    h.dispatching hattempt.notPending
  have hnoted := (h.toCounted.afterStore template).noted hsent
  have hcounted := hnoted.commitAssignment r.nextEngine index
    ⟨⟨sent, r.trace, hsent, by rw [hattempt.built.source_eq]; rfl⟩, hnoted.logged⟩
  refine ⟨hcounted, ?_⟩
  intro _
  have hn := h.valid.engineCount_pos
  have hindex : index = r.nextEngine := by
    have := hattempt.index_eq.symm.trans
      (hdispatched.assignmentIndexFor_eq h.valid hattempt.scheduled)
    exact Option.some.inj this
  subst hindex
  -- the history after the call
  obtain ⟨hledger, hstores, hinvalidations, hflushed, hsince, hbegun⟩ :=
    hsent.bookkeeping (.stored r.nextHandle :: r.trace)
  have hstores' : stores (sent ++ .stored r.nextHandle :: r.trace) = stores r.trace + 1 := by
    rw [hstores]
    simp [stores]
  have hinvalidations' : invalidations (sent ++ .stored r.nextHandle :: r.trace) =
      invalidations r.trace := by
    rw [hinvalidations]
    simp [invalidations]
  have hledger' : ledger (((r.afterStore template).noted sent).commitAssignment r.nextEngine
      r.nextEngine record).trace =
      ⟨record, stores r.trace + 1, invalidations r.trace⟩ :: ledger r.trace := by
    show (⟨record, stores (sent ++ .stored r.nextHandle :: r.trace),
      invalidations (sent ++ .stored r.nextHandle :: r.trace)⟩ : BzmLedgerEntry) ::
        ledger (sent ++ .stored r.nextHandle :: r.trace) = _
    rw [hstores', hinvalidations', hledger]
    rfl
  have hcount : stores (((r.afterStore template).noted sent).commitAssignment r.nextEngine
      r.nextEngine record).trace = stores r.trace + 1 := by
    rw [← hstores']
    simp [BzmReactor.commitAssignment, BzmReactor.noted, BzmReactor.afterStore, stores]
  have hcount' : invalidations (((r.afterStore template).noted sent).commitAssignment r.nextEngine
      r.nextEngine record).trace = invalidations r.trace := by
    rw [← hinvalidations']
    simp [BzmReactor.commitAssignment, BzmReactor.noted, BzmReactor.afterStore, invalidations]
  have hsteps : flushedSteps (((r.afterStore template).noted sent).commitAssignment r.nextEngine
      r.nextEngine record).trace = flushedSteps r.trace := hflushed
  rw [hledger', hcount, hcount', hsteps]
  have hturn := hattempt.atTurn h.valid hdispatched
  have hspace : record.work.logicalSequence.toNat < r.config.sequenceSpace := by
    rw [hattempt.built.logicalSequence_eq]
    exact hattempt.space
  have hsource := hattempt.built.source_eq
  have hhandle : record.work.source.handle = r.nextHandle := by rw [hsource]
  have hassigned := hholds.storeGenerated_assigned template h.generation hsource
    (hhandle ▸ hattempt.handle_ne) hattempt.context_eq (hattempt.epoch_eq.trans h.epoch)
  have hprevious := hdispatched.previous r.nextEngine
    (hdispatched.cursor ▸ Nat.mod_lt _ hn)
  rw [hdispatched.cursor, RoundRobin.age_turn hn, ← hdispatched.cursor] at hprevious
  refine ⟨?_, ?_, ?_, ?_, ?_⟩
  · have hstored : ((r.afterStore template).noted sent).Dispatched (ledger r.trace)
        (invalidations r.trace) := hdispatched.withStore _ _
    have hvalid : ((r.afterStore template).noted sent).config.Valid := h.valid
    exact hstored.commitAssignment hvalid hturn hspace _
  · show Holds start (if (r.previousAssignments r.nextEngine).active then
      ((r.jobStore.storeGenerated template).2.release
        (r.previousAssignments r.nextEngine).handle).2
      else (r.jobStore.storeGenerated template).2) _ _ _ _
    split
    · exact hassigned.release _
    · exact hassigned
  · intro hbound
    have hkept' := hholds.kept_assigned h.valid.engineCount_le (hkept (by omega)) template
      (stores r.trace + 1) hhandle
    show Kept r.config.engineCount (if (r.previousAssignments r.nextEngine).active then
      ((r.jobStore.storeGenerated template).2.release
        (r.previousAssignments r.nextEngine).handle).2
      else (r.jobStore.storeGenerated template).2) _ _
    split
    · next hactive =>
      -- the job released is two rounds old, and its handle is not reused within the bound
      refine hkept'.release fun i entry hi hrecent => ?_
      rw [hprevious, tableEntry_active] at hactive
      obtain ⟨older, holder⟩ := Option.isSome_iff_exists.mp hactive
      rw [hprevious, holder]
      have hposition : (⟨record, stores r.trace + 1, invalidations r.trace⟩ ::
          ledger r.trace)[r.config.engineCount - 1 + r.config.engineCount + 1]? = some older := by
        rw [List.getElem?_cons_succ]
        exact holder
      exact hassigned.handle_ne hbound hi hposition (by omega)
    · exact hkept'
  · intro hmem hlength
    have hold : .flushBegun ∈ r.trace := by
      rcases List.mem_cons.mp hmem with hevent | hmem
      · cases hevent
      · rcases List.mem_append.mp hmem with hmem | hmem
        · exact absurd hmem hbegun
        · rcases List.mem_cons.mp hmem with hevent | hmem
          · cases hevent
          · exact hmem
    have hlt : (ledger r.trace).length + 1 < r.config.engineCount := hlength
    have hquarantine := hquarantined hold (by omega)
    show (if (r.nextEngine + 1) % r.config.engineCount = 0 then false
      else r.resultsQuarantined) = true
    rw [hdispatched.cursor, Nat.mod_add_mod, Nat.mod_eq_of_lt hlt, if_neg (Nat.succ_ne_zero _)]
    exact hquarantine
  · show .flushBegun ∉ since isFlushFinished
      (.assigned record :: (sent ++ .stored r.nextHandle :: r.trace))
    rw [since_cons_of_not_barrier _ rfl, hsince, since_cons_of_not_barrier _ rfl]
    simp [hbegun, hopened]

theorem Tracked.lost (h : Tracked start r) (hpending : r.flushPending = false)
    (hhandle : r.nextHandle = ASIC_WORK_HANDLE_INVALID) :
    Tracked start (r.afterStore template) := by
  obtain ⟨hdispatched, hholds, hkept, hquarantined, hopened⟩ := h.dispatching hpending
  refine ⟨h.toCounted.afterStore template, ?_⟩
  intro _
  have hledger : ledger (r.afterStore template).trace = ledger r.trace := rfl
  have hstores : stores (r.afterStore template).trace = stores r.trace + 1 := by
    simp [BzmReactor.afterStore, stores]
  have hinvalidations : invalidations (r.afterStore template).trace = invalidations r.trace := by
    simp [BzmReactor.afterStore, invalidations]
  have hflushed : flushedSteps (r.afterStore template).trace = flushedSteps r.trace := rfl
  rw [hledger, hstores, hinvalidations, hflushed]
  refine ⟨hdispatched.withStore _ _, hholds.storeGenerated_lost template hhandle, ?_, ?_, ?_⟩
  · intro hbound
    exact hholds.kept_storeGenerated h.valid.engineCount_le (hkept (by omega)) template
  · intro hmem hlength
    refine hquarantined ?_ hlength
    rcases List.mem_cons.mp hmem with hevent | hmem
    · cases hevent
    · exact hmem
  · show .flushBegun ∉ since isFlushFinished (.stored r.nextHandle :: r.trace)
    rw [since_cons_of_not_barrier _ rfl]
    simpa using hopened

end Assign

theorem Tracked.invalidated (h : Tracked start r) : Tracked start r.invalidateWork := by
  have hinvalidations : invalidations r.invalidateWork.trace = invalidations r.trace + 1 := by
    simp [BzmReactor.invalidateWork, invalidations]
  have hstores : stores r.invalidateWork.trace = stores r.trace := by
    simp [BzmReactor.invalidateWork, stores]
  refine ⟨⟨h.valid, ?_, ?_, h.batch, h.logged⟩, ?_⟩
  · rw [hinvalidations, Function.iterate_succ_apply', ← h.epoch]
    rfl
  · rw [generationSteps, hinvalidations, hstores, ← Nat.add_assoc, Function.iterate_succ_apply',
      ← generationSteps, ← h.generation]
    rfl
  · intro hpending
    obtain ⟨hdispatched, hholds, -, hquarantined, hopened⟩ := h.dispatching hpending
    have hledger : ledger r.invalidateWork.trace = ledger r.trace := rfl
    have hflushed : flushedSteps r.invalidateWork.trace = flushedSteps r.trace := rfl
    rw [hledger, hstores, hinvalidations, hflushed]
    refine ⟨hdispatched.invalidateWork h.valid, hholds.invalidateAll, ?_, ?_, ?_⟩
    · intro _ i entry hi _ hnow
      have := (hholds.recent entry (List.mem_of_getElem? hi)).1
      omega
    · intro hmem hlength
      refine hquarantined ?_ hlength
      rcases List.mem_cons.mp hmem with hevent | hmem
      · cases hevent
      · exact hmem
    · show .flushBegun ∉ since isFlushFinished (.invalidated :: r.trace)
      rw [since_cons_of_not_barrier _ rfl]
      simpa using hopened

theorem move_tracked {s : BzmReactor} (h : Tracked start r) (hmove : Move r s) :
    Tracked start s := by
  cases hmove with
  | submission job context =>
    refine ⟨⟨h.valid, h.epoch, h.generation, h.batch, h.logged⟩, ?_⟩
    intro hpending
    obtain ⟨hdispatched, hholds, hkept, hquarantined, hopened⟩ := h.dispatching hpending
    exact ⟨hdispatched.withStore _ _, hholds.congr rfl rfl, hkept, hquarantined, hopened⟩
  | lost template hpending hhandle => exact h.lost hpending hhandle
  | committed hattempt hsent => exact h.committed hattempt hsent
  | aborted hattempt hsent =>
    exact (((h.toCounted.afterStore _).noted hsent).releaseHandle _).openFlush
  | opened => exact h.toCounted.openFlush
  | flushCalled answer hpending hcomplete =>
    refine ⟨h.toCounted.callFlush answer, ?_⟩
    intro hnot
    rw [callFlush_flushPending, hpending] at hnot
    cases hnot
  | finished => exact h.toCounted.flushFinished
  | invalidated => exact h.invalidated

theorem step_tracked (h : Tracked start r) (op : BzmReactorOp) : Tracked start (r.step op) :=
  step_invariant (P := Tracked start) (fun _ _ => move_tracked) h.valid h op

theorem run_tracked {config : BzmReactorConfig} {transport : BzmTransportOps}
    {jobStore : AsicJobStore} (h : init config transport jobStore = some r)
    (ops : List BzmReactorOp) : Tracked jobStore.nextGeneration (run step r ops) :=
  run_invariant step (P := Tracked jobStore.nextGeneration) (fun _ op h => step_tracked h op)
    (init_tracked h) ops

theorem init_config {config : BzmReactorConfig} {transport : BzmTransportOps}
    {jobStore : AsicJobStore} (h : init config transport jobStore = some r) :
    r.config = config ∧ r.transport = transport := by
  unfold init at h
  split at h
  · cases h
  · obtain rfl := Option.some.inj h
    exact ⟨rfl, rfl⟩

/-- A run keeps the configuration and the transport it was initialised with. -/
theorem run_config {config : BzmReactorConfig} {transport : BzmTransportOps}
    {jobStore : AsicJobStore} (h : init config transport jobStore = some r)
    (ops : List BzmReactorOp) :
    (run step r ops).config = config ∧ (run step r ops).transport = transport := by
  refine (run_invariant step (P := fun s => s.config.Valid ∧
    s.config = config ∧ s.transport = transport) (fun s op hs => ?_)
    ⟨(init_tracked h).valid, init_config h⟩ ops).2
  obtain ⟨hconfig, htransport⟩ := s.step_config hs.1 op
  rw [hconfig, htransport]
  exact hs

/-! ### Progress -/

/-- Outside a flush the cursor's engine exists and has a place in the tables. -/
theorem Tracked.scheduled (h : Tracked start r) (hpending : r.flushPending = false) :
    ∃ engine, scheduledEngineAt r.nextEngine = some engine ∧
      r.assignmentIndexFor engine.physicalId = some r.nextEngine := by
  obtain ⟨hdispatched, -, -, -, -⟩ := h.dispatching hpending
  have hlt : r.nextEngine < r.config.engineCount :=
    hdispatched.cursor ▸ Nat.mod_lt _ h.valid.engineCount_pos
  obtain ⟨engine, hengine⟩ :=
    activationAt_isSome (Nat.lt_of_lt_of_le hlt h.valid.engineCount_le)
  exact ⟨engine, hengine, hdispatched.assignmentIndexFor_eq h.valid hengine⟩

/-- Outside a flush, with a sequence left and a handle that is not the all-ones one,
it is up to the transport whether an assignment succeeds. -/
theorem Tracked.assign_attempted (h : Tracked start r) (hpending : r.flushPending = false)
    (hspace : (r.nextEngineSequence r.nextEngine).toNat < r.config.sequenceSpace)
    (hhandle : r.nextHandle ≠ ASIC_WORK_HANDLE_INVALID) (template : JobRef)
    (answers : BzmTransportAnswers) :
    ∃ record sent, r.Attempted template r.nextEngine record ∧
      Sent record.work (answers.delivered r.transport) sent ∧
      r.assign template answers =
        if answers.delivered r.transport then
          (.ok, ((r.afterStore template).noted sent).commitAssignment r.nextEngine r.nextEngine
            record)
        else (.transportError, ((r.afterStore template).noted sent).abortAssign r.nextHandle
          answers.flush) := by
  obtain ⟨engine, hengine, hindex⟩ := h.scheduled hpending
  have hplace : ∀ {index record}, r.Attempted template index record → index = r.nextEngine := by
    intro index record hattempt
    have hsame : record.engine = engine := by
      have := hattempt.scheduled
      rw [hengine] at this
      exact (Option.some.inj this).symm
    have hindex' := hattempt.index_eq
    rw [hsame, hindex] at hindex'
    exact (Option.some.inj hindex').symm
  have heffect := r.assign_effect template answers
  generalize r.assign template answers = outcome at heffect ⊢
  cases heffect with
  | flushRequired hrefused =>
    rcases hrefused with hnow | hfull
    · exact absurd (hnow.symm.trans hpending) (by simp)
    · omega
  | refused _ hnone => exact absurd (hindex.symm.trans (hnone engine hengine)) (by simp)
  | @unbuilt engine' _ hengine' hnone =>
    have hsource : (AsicWork.mk r.nextHandle template).handle ≠ ASIC_WORK_HANDLE_INVALID := hhandle
    obtain ⟨work, hwork⟩ := bzmWorkBuild_isSome hsource
      (activationAt_located hengine').2.1.physicalId_lt h.valid.timestampCount_le
    exact absurd (hnone.symm.trans hwork) (by simp)
  | @aborted index record sent hfailed hattempt hsent =>
    obtain rfl := hplace hattempt
    exact ⟨record, sent, hattempt, by rwa [hfailed], by rw [hfailed]; rfl⟩
  | @committed index record sent hdelivered hattempt hsent =>
    obtain rfl := hplace hattempt
    exact ⟨record, sent, hattempt, by rwa [hdelivered], by rw [hdelivered]; rfl⟩

/-- **Assignments succeed.**  A transport that delivers is all it takes. -/
theorem Tracked.assign_ok (h : Tracked start r) (hpending : r.flushPending = false)
    (hspace : (r.nextEngineSequence r.nextEngine).toNat < r.config.sequenceSpace)
    (hhandle : r.nextHandle ≠ ASIC_WORK_HANDLE_INVALID) (template : JobRef)
    (answers : BzmTransportAnswers) (hanswers : answers.delivered r.transport = true) :
    ∃ record sent, r.Attempted template r.nextEngine record ∧ Sent record.work true sent ∧
      r.assign template answers =
        (.ok, ((r.afterStore template).noted sent).commitAssignment r.nextEngine r.nextEngine
          record) := by
  obtain ⟨record, sent, hattempt, hsent, hassign⟩ :=
    h.assign_attempted hpending hspace hhandle template answers
  rw [hanswers] at hsent hassign
  exact ⟨record, sent, hattempt, hsent, hassign⟩

end BzmReactor

end EspMiner
