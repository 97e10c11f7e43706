import EspMiner.Bzm.Driver

/-!
# Replacement rotations of the driver

While the countdown of a rotation runs, the engines still to come and the
assignments since the rotation started, or since the engines were last cleared,
are together as many as there are engines.  The assignments are consecutive turns
of the round robin, so the last of the countdown leaves no engine out.  A clearing
that does not restart the countdown breaks this.
-/

namespace EspMiner

open Library

namespace BzmDriverTrace

/-- A rotation starts anew at its start and after every clearing. -/
def isRestart (event : BzmDriverEvent) : Bool := isClearing event || isReplacementStarted event

/-- The assignments that count towards the rotation. -/
def rotation (trace : List BzmDriverEvent) : List BzmAssigned :=
  assignedRecords (since isRestart trace)

theorem rotation_of_restart {event : BzmDriverEvent} (trace : List BzmDriverEvent)
    (h : isRestart event = true) : rotation (event :: trace) = [] := by
  rw [rotation, since_cons_of_barrier _ h]
  rfl

/-- Only assignments among the other events count. -/
theorem rotation_cons {event : BzmDriverEvent} (trace : List BzmDriverEvent)
    (h : isRestart event = false) :
    rotation (event :: trace) = assignedRecords [event] ++ rotation trace := by
  rw [rotation, since_cons_of_not_barrier _ h, rotation, assignedRecords, assignedRecords,
    assignedRecords, ← List.filterMap_append]
  rfl

/-- The rotation since the last start is what was assigned since and not cleared. -/
theorem rotation_of_started {between rest : List BzmDriverEvent} {generation : U32}
    (h : ∀ event ∈ between, isReplacementStarted event = false) :
    rotation (between ++ .replacementStarted generation :: rest) =
      assignedRecords (since isClearing between) := by
  suffices hsince : since isRestart (between ++ .replacementStarted generation :: rest) =
      since isClearing between by rw [rotation, hsince]
  induction between with
  | nil => exact since_cons_of_barrier _ rfl
  | cons event between ih =>
    have hsame : isRestart event = isClearing event := by
      rw [isRestart, h event List.mem_cons_self, Bool.or_false]
    rw [List.cons_append, since_cons, since_cons, hsame,
      ih fun other hother => h other (List.mem_cons_of_mem _ hother)]

/-- The assignments of a rotation are the latest ones of the reactor's ledger, and
stay so with every event of the reactor. -/
theorem rotation_isPrefix {trace : List BzmDriverEvent} {older : List BzmReactorEvent}
    (h : rotation trace <+: (BzmReactorTrace.ledger older).map BzmLedgerEntry.record)
    (events : List BzmReactorEvent) :
    rotation (events.map .reactor ++ trace) <+:
      (BzmReactorTrace.ledger (events ++ older)).map BzmLedgerEntry.record := by
  induction events with
  | nil => exact h
  | cons event events ih =>
    rw [List.map_cons, List.cons_append, List.cons_append]
    cases event with
    | assigned record =>
      rw [rotation_cons _ rfl]
      exact (List.prefix_cons_inj _).mpr ih
    | flushBegun | flush | flushFinished =>
      rw [rotation_of_restart _ rfl]
      exact List.nil_prefix
    | stored | writeWork | dispatchCheckpoint | invalidated =>
      rw [rotation_cons _ rfl]
      exact ih

/-- A committed assignment adds one to the rotation. -/
theorem rotation_committed {record : BzmAssigned} {ok : Bool} {sent : List BzmReactorEvent}
    (hsent : BzmReactor.Sent record.work ok sent) (handle : AsicWorkHandle)
    (trace : List BzmDriverEvent) :
    rotation ((.assigned record :: (sent ++ [.stored handle])).map .reactor ++ trace) =
      record :: rotation trace := by
  rw [List.map_cons, List.cons_append, rotation_cons _ rfl]
  cases hsent <;> rfl

theorem CompletionsCover.cons {trace : List BzmDriverEvent} {event : BzmDriverEvent}
    (h : CompletionsCover trace)
    (hevent : ∀ generation, event = .replacementCompleted generation → Covers generation trace) :
    CompletionsCover (event :: trace) := by
  intro newer generation older hsplit
  cases newer with
  | nil =>
    obtain ⟨hcompleted, rfl⟩ := List.cons.inj hsplit
    exact hevent generation hcompleted
  | cons first newer => exact h newer generation older (List.cons.inj hsplit).2

theorem CompletionsCover.reactor {trace : List BzmDriverEvent} (h : CompletionsCover trace)
    (events : List BzmReactorEvent) : CompletionsCover (events.map .reactor ++ trace) := by
  induction events with
  | nil => exact h
  | cons event events ih => exact ih.cons fun _ hevent => by cases hevent

/-- `generation` is the last one started. -/
def LastStarted (generation : U32) (trace : List BzmDriverEvent) : Prop :=
  ∃ between rest, trace = between ++ .replacementStarted generation :: rest ∧
    ∀ event ∈ between, isReplacementStarted event = false

theorem LastStarted.cons {trace : List BzmDriverEvent} {generation : U32}
    (h : LastStarted generation trace) {event : BzmDriverEvent}
    (hevent : isReplacementStarted event = false) : LastStarted generation (event :: trace) := by
  obtain ⟨between, rest, rfl, hbetween⟩ := h
  exact ⟨event :: between, rest, rfl, List.forall_mem_cons.mpr ⟨hevent, hbetween⟩⟩

theorem LastStarted.reactor {trace : List BzmDriverEvent} {generation : U32}
    (h : LastStarted generation trace) (events : List BzmReactorEvent) :
    LastStarted generation (events.map .reactor ++ trace) := by
  induction events with
  | nil => exact h
  | cons event events ih => exact ih.cons rfl

end BzmDriverTrace

open BzmDriverTrace

/-- Every engine is among as many latest turns as there are engines. -/
theorem BzmReactor.Dispatched.covered {r : BzmReactor} {entries : List BzmLedgerEntry}
    {invalidated : Nat} (h : r.Dispatched entries invalidated)
    (hcount : r.config.engineCount = BZM_ENGINES_PER_ASIC) {records : List BzmAssigned}
    (hlatest : records <+: entries.map BzmLedgerEntry.record)
    (hlength : BZM_ENGINES_PER_ASIC ≤ records.length) {logicalEngineId : Nat}
    (hengine : logicalEngineId < BZM_ENGINES_PER_ASIC) :
    ∃ record ∈ records, record.engine.topologyIndex = logicalEngineId := by
  obtain ⟨k, hk, engine, hscheduled, rfl⟩ := activationAt_surjective hengine
  have hk' : k < r.config.engineCount := hcount ▸ hk
  have hage : RoundRobin.age r.config.engineCount entries.length k < records.length :=
    Nat.lt_of_lt_of_le (RoundRobin.age_lt hk' _) (hcount ▸ hlength)
  have hget := List.getElem?_eq_getElem hage
  have hentry := List.prefix_iff_getElem?.mp hlatest _ hage
  rw [List.getElem?_map] at hentry
  obtain ⟨entry, hentry, hrecord⟩ := Option.map_eq_some_iff.mp hentry
  have hsame := h.scheduled_of_age hk' (Dispatched.age_mod hk') hentry
  refine ⟨_, List.getElem_mem hage, ?_⟩
  rw [← hrecord]
  exact congrArg BzmEngineLocation.topologyIndex
    (Option.some.inj (hsame.symm.trans hscheduled))

namespace BzmReactor

theorem beginFlush_flushPending (r : BzmReactor) (flushAnswer : Bool) :
    (r.beginFlush flushAnswer).2.flushPending = true := by
  unfold beginFlush
  split
  · next hpending =>
    split
    · exact hpending
    · exact (callFlush_flushPending flushAnswer).trans hpending
  · exact callFlush_flushPending flushAnswer

/-- A failed assignment opens a flush and calls it. -/
theorem abortAssign_eq {r : BzmReactor} (hpending : r.flushPending = false)
    (hflush : r.transport.hasFlush = true) (handle : AsicWorkHandle) (flushAnswer : Bool) :
    r.abortAssign handle flushAnswer =
      let called := { (r.releaseHandle handle).openFlush with
        flushComplete := flushAnswer
        trace := .flush flushAnswer :: (r.releaseHandle handle).openFlush.trace }
      if flushAnswer then called.finishFlush else called := by
  have hnot : ¬ (r.releaseHandle handle).flushPending = true := by simp [releaseHandle, hpending]
  have hhas : (r.releaseHandle handle).openFlush.transport.hasFlush = true := hflush
  have habort : r.abortAssign handle flushAnswer =
      if ((r.releaseHandle handle).beginFlush flushAnswer).1 then
        ((r.releaseHandle handle).beginFlush flushAnswer).2.finishFlush
      else ((r.releaseHandle handle).beginFlush flushAnswer).2 := rfl
  rw [habort, beginFlush, if_neg hnot, callFlush, if_pos hhas]

/-- If the flush fails as well, the barrier stays up. -/
theorem abortAssign_flushPending {r : BzmReactor} (hpending : r.flushPending = false)
    (hflush : r.transport.hasFlush = true) (handle : AsicWorkHandle) :
    (r.abortAssign handle false).flushPending = true := by
  rw [abortAssign_eq hpending hflush]
  rfl

theorem abortAssign_flushed {r : BzmReactor} (hpending : r.flushPending = false)
    (hflush : r.transport.hasFlush = true) (handle : AsicWorkHandle) :
    r.abortAssign handle true = { (r.releaseHandle handle).openFlush with
      flushComplete := true
      trace := .flush true :: (r.releaseHandle handle).openFlush.trace }.flushFinished := by
  rw [abortAssign_eq hpending hflush]
  rfl

end BzmReactor

namespace BzmDriver

variable {d : BzmDriver}

/-- What holds of the driver whatever its countdown does. -/
structure Consistent (d : BzmDriver) : Prop where
  tracked : d.initialized = true → ∃ start, BzmReactor.Tracked start d.reactor
  engineCount : d.initialized = true → d.reactor.config.engineCount = BZM_ENGINES_PER_ASIC
  verified : d.runningVerified = true → d.initialized = true
  remaining_le : d.fastDispatchRemaining ≤ BZM_ENGINES_PER_ASIC
  started : d.fastDispatchRemaining ≠ 0 → LastStarted d.workReplacementGeneration d.trace
  latest : d.initialized = true →
    rotation d.trace <+: (BzmReactorTrace.ledger d.reactor.trace).map BzmLedgerEntry.record
  covered : CompletionsCover d.trace

/-- The countdown leaves no engine out. -/
def Rotating (d : BzmDriver) : Prop :=
  d.initialized = true → d.reactor.flushPending = false → d.fastDispatchRemaining ≠ 0 →
    BZM_ENGINES_PER_ASIC ≤ d.fastDispatchRemaining + (rotation d.trace).length

theorem setReactor_trace {reactor : BzmReactor} (events : List BzmReactorEvent)
    (h : reactor.trace = events ++ d.reactor.trace) :
    (d.setReactor reactor).trace = events.map .reactor ++ d.trace := by
  have hlength : reactor.trace.length - d.reactor.trace.length = events.length := by
    rw [h, List.length_append]
    omega
  rw [setReactor, hlength, h, List.take_left]

/-- A call on an initialised reactor. -/
theorem Consistent.reactorStep (h : Consistent d) (hinit : d.initialized = true)
    (op : BzmReactorOp) : Consistent (d.setReactor (d.reactor.step op)) := by
  obtain ⟨start, htracked⟩ := h.tracked hinit
  obtain ⟨events, hevents⟩ := d.reactor.step_trace_suffix htracked.valid op
  have htrace := setReactor_trace events hevents.symm
  refine ⟨fun _ => ⟨start, BzmReactor.step_tracked htracked op⟩, ?_, h.verified, h.remaining_le, ?_,
    ?_, ?_⟩
  · intro _
    show (d.reactor.step op).config.engineCount = _
    rw [(d.reactor.step_config htracked.valid op).1]
    exact h.engineCount hinit
  · intro hrunning
    rw [htrace]
    exact (h.started hrunning).reactor events
  · intro _
    rw [htrace]
    show _ <+: (BzmReactorTrace.ledger (d.reactor.step op).trace).map _
    rw [← hevents]
    exact rotation_isPrefix (h.latest hinit) events
  · rw [htrace]
    exact h.covered.reactor events

theorem Consistent.reactorAssign (h : Consistent d) (hinit : d.initialized = true)
    (template : JobRef) (answers : BzmTransportAnswers) :
    Consistent (d.setReactor (d.reactor.assign template answers).2) :=
  h.reactorStep hinit (.assign template answers)

theorem Consistent.beginFlush (h : Consistent d) (hinit : d.initialized = true)
    (flushAnswer : Bool) : Consistent (d.setReactor (d.reactor.beginFlush flushAnswer).2) :=
  h.reactorStep hinit (.beginFlush flushAnswer)

theorem Consistent.finishFlush (h : Consistent d) (hinit : d.initialized = true) :
    Consistent (d.setReactor d.reactor.finishFlush) :=
  h.reactorStep hinit .finishFlush

theorem Consistent.invalidateWork (h : Consistent d) (hinit : d.initialized = true) :
    Consistent (d.setReactor d.reactor.invalidateWork) :=
  h.reactorStep hinit .invalidateWork

@[simp] theorem startFastDispatch_remaining (remaining : Nat) :
    (d.startFastDispatch remaining).fastDispatchRemaining = remaining := by
  unfold BzmDriver.startFastDispatch
  split <;> rfl

@[simp] theorem startFastDispatch_initialized (remaining : Nat) :
    (d.startFastDispatch remaining).initialized = d.initialized := by
  unfold BzmDriver.startFastDispatch
  split <;> rfl

@[simp] theorem startFastDispatch_reactor (remaining : Nat) :
    (d.startFastDispatch remaining).reactor = d.reactor := by
  unfold BzmDriver.startFastDispatch
  split <;> rfl

theorem Consistent.startFastDispatch (h : Consistent d) :
    Consistent (d.startFastDispatch BZM_ENGINES_PER_ASIC) ∧
      Rotating (d.startFastDispatch BZM_ENGINES_PER_ASIC) := by
  have hstart : d.startFastDispatch BZM_ENGINES_PER_ASIC = { d with
      fastDispatchRemaining := BZM_ENGINES_PER_ASIC
      workReplacementGeneration := d.workReplacementGeneration + 1
      trace := .replacementStarted (d.workReplacementGeneration + 1) :: d.trace } := rfl
  rw [hstart]
  refine ⟨⟨h.tracked, h.engineCount, h.verified, Nat.le_refl _, ?_, ?_, ?_⟩,
    fun _ _ _ => Nat.le_add_right _ _⟩
  · intro _
    exact ⟨[], d.trace, rfl, fun _ hmem => by cases hmem⟩
  · intro _
    rw [rotation_of_restart _ rfl]
    exact List.nil_prefix
  · exact h.covered.cons fun _ hevent => by cases hevent

@[simp] theorem setReactor_self (d : BzmDriver) : d.setReactor d.reactor = d := by
  simp [setReactor]

/-- Invalidated work stays on its engines. -/
theorem Rotating.invalidateWork (h : Rotating d) :
    Rotating (d.setReactor d.reactor.invalidateWork) := by
  intro hinit hpending hrunning
  have htrace : (d.setReactor d.reactor.invalidateWork).trace = .reactor .invalidated :: d.trace :=
    setReactor_trace [.invalidated] rfl
  rw [htrace]
  exact h hinit hpending hrunning

theorem Consistent.startFastDispatchIfIdle (h : Consistent d) (hr : Rotating d)
    (hinit : d.initialized = true) :
    Consistent d.startFastDispatchIfIdle ∧ Rotating d.startFastDispatchIfIdle := by
  unfold BzmDriver.startFastDispatchIfIdle
  split
  · rw [h.engineCount hinit]
    exact h.startFastDispatch
  · exact ⟨h, hr⟩

/-! ### One assignment -/

/-- The last assignment of a rotation completes it, the others count. -/
theorem Consistent.countDispatch (h : Consistent d) (hinit : d.initialized = true)
    (hpending : d.reactor.flushPending = false)
    (hcount : d.fastDispatchRemaining ≠ 0 →
      BZM_ENGINES_PER_ASIC < d.fastDispatchRemaining + (rotation d.trace).length) :
    Consistent (d.countDispatch .ok) ∧ Rotating (d.countDispatch .ok) := by
  have hle := h.remaining_le
  unfold BzmDriver.countDispatch
  by_cases hlast : d.fastDispatchRemaining = 1
  · rw [if_pos ⟨rfl, hlast⟩]
    have hrunning : d.fastDispatchRemaining ≠ 0 := by omega
    have hlength : BZM_ENGINES_PER_ASIC ≤ (rotation d.trace).length := by
      have := hcount hrunning
      omega
    refine ⟨⟨h.tracked, h.engineCount, h.verified, Nat.le_trans (Nat.sub_le _ _) hle,
      fun _ => (h.started hrunning).cons rfl, ?_, ?_⟩, ?_⟩
    · intro _
      rw [rotation_cons _ rfl]
      exact h.latest hinit
    · refine h.covered.cons fun generation hevent => ?_
      cases hevent
      obtain ⟨between, rest, htrace, hbetween⟩ := h.started hrunning
      refine ⟨between, rest, htrace, hbetween, ?_⟩
      intro logicalEngineId hengine
      obtain ⟨start, htracked⟩ := h.tracked hinit
      have hrecords : rotation d.trace = assignedRecords (since isClearing between) := by
        rw [htrace]
        exact rotation_of_started hbetween
      rw [← hrecords]
      exact (htracked.dispatching hpending).dispatched.covered (h.engineCount hinit)
        (h.latest hinit) hlength hengine
    · intro _ _ hnow
      have hzero : d.fastDispatchRemaining - 1 ≠ 0 := hnow
      omega
  · rw [if_neg fun hnow => hlast hnow.2]
    by_cases hidle : d.fastDispatchRemaining = 0
    · rw [if_neg fun hnow => hnow.2 hidle]
      exact ⟨h, fun _ _ hrunning => absurd hidle hrunning⟩
    · rw [if_pos ⟨rfl, hidle⟩]
      refine ⟨⟨h.tracked, h.engineCount, h.verified, Nat.le_trans (Nat.sub_le _ _) hle,
        fun _ => h.started hidle, h.latest, h.covered⟩, ?_⟩
      intro _ _ _
      have := hcount hidle
      show BZM_ENGINES_PER_ASIC ≤ d.fastDispatchRemaining - 1 + (rotation d.trace).length
      omega

theorem countDispatch_of_ne {status : BzmAssignStatus} (h : status ≠ .ok) :
    d.countDispatch status = d := by
  rw [BzmDriver.countDispatch, if_neg fun hnow => h hnow.1, if_neg fun hnow => h hnow.1]

/-- A rotation that has begun and is not complete. -/
def RotationUnderway (d : BzmDriver) : Prop :=
  0 < d.fastDispatchRemaining ∧ d.fastDispatchRemaining < BZM_ENGINES_PER_ASIC

/-- Should `bzm_reactor_assign` reach the transport, no callback fails, or the flush
that this opens fails as well. -/
def KeepsEngines (d : BzmDriver) (answers : BzmTransportAnswers) : Prop :=
  d.reactor.flushPending = false →
    (d.reactor.nextEngineSequence d.reactor.nextEngine).toNat < d.reactor.config.sequenceSpace →
    answers.delivered d.reactor.transport = true ∨
      (d.reactor.transport.hasFlush = true ∧ answers.flush = false)

/-- **One assignment keeps the rotation.** -/
theorem Consistent.assign (h : Consistent d) (hr : Rotating d) (hinit : d.initialized = true)
    (template : JobRef) (answers : BzmTransportAnswers)
    (hkeeps : d.RotationUnderway → d.KeepsEngines answers) :
    Consistent (d.assignAndCount template answers).2 ∧
      Rotating (d.assignAndCount template answers).2 := by
  have hstep := h.reactorAssign hinit template answers
  have heffect := d.reactor.assign_effect template answers
  have hsame : (d.assignAndCount template answers).2 =
      (d.setReactor (d.reactor.assign template answers).2).countDispatch
        (d.reactor.assign template answers).1 := rfl
  rw [hsame]
  generalize d.reactor.assign template answers = outcome at heffect hstep ⊢
  cases heffect with
  | flushRequired =>
    rw [setReactor_self, countDispatch_of_ne (by simp)]
    exact ⟨h, hr⟩
  | refused hstatus =>
    rw [setReactor_self, countDispatch_of_ne (by rcases hstatus with rfl | rfl <;> simp)]
    exact ⟨h, hr⟩
  | unbuilt hpending =>
    rw [countDispatch_of_ne (by simp)]
    refine ⟨hstep, ?_⟩
    intro _ _ hrunning
    rw [setReactor_trace [.stored d.reactor.nextHandle] rfl]
    exact hr hinit hpending hrunning
  | @aborted index record sent hfailed hattempt hsent =>
    rw [countDispatch_of_ne (by simp)]
    refine ⟨hstep, ?_⟩
    intro _ hpending hrunning
    by_cases hwhole : d.fastDispatchRemaining = BZM_ENGINES_PER_ASIC
    · exact hwhole ▸ Nat.le_add_right _ _
    · -- only a failed flush is left, and that keeps the barrier up
      have hle := h.remaining_le
      have hrunning' : d.fastDispatchRemaining ≠ 0 := hrunning
      rcases hkeeps ⟨by omega, by omega⟩ hattempt.notPending hattempt.space with
        hdelivered | ⟨hflush, hanswer⟩
      · exact absurd (hdelivered.symm.trans hfailed) (by simp)
      · rw [hanswer] at hpending
        have hbarrier := BzmReactor.abortAssign_flushPending
          (r := (d.reactor.afterStore template).noted sent) hattempt.notPending hflush
          d.reactor.nextHandle
        exact absurd (hbarrier.symm.trans hpending) (by simp)
  | @committed index record sent hdelivered hattempt hsent =>
    refine hstep.countDispatch hinit hattempt.notPending fun hrunning => ?_
    have hold := hr hinit hattempt.notPending hrunning
    have hrotation : rotation (d.setReactor (((d.reactor.afterStore template).noted
        sent).commitAssignment d.reactor.nextEngine index record)).trace =
          record :: rotation d.trace := by
      rw [setReactor_trace _ (d.reactor.committed_trace template sent d.reactor.nextEngine index
        record), rotation_committed hsent]
    show BZM_ENGINES_PER_ASIC < d.fastDispatchRemaining + (rotation (d.setReactor _).trace).length
    rw [hrotation, List.length_cons]
    omega

/-! ### The calls -/

/-- The flush barrier restarts the rotation. -/
theorem Consistent.flushAndAssign (h : Consistent d) (hinit : d.initialized = true)
    (template : JobRef) (answers : BzmSendAnswers) :
    Consistent (d.flushAndAssign template answers).2 ∧
      Rotating (d.flushAndAssign template answers).2 := by
  have hbegun := h.beginFlush hinit answers.flush
  have hbarrier := d.reactor.beginFlush_flushPending answers.flush
  unfold BzmDriver.flushAndAssign
  generalize d.reactor.beginFlush answers.flush = outcome at hbegun hbarrier ⊢
  obtain ⟨flushed, reactor⟩ := outcome
  dsimp only at hbegun hbarrier
  cases flushed with
  | false => exact ⟨hbegun, fun _ hpending => absurd (hbarrier.symm.trans hpending) (by simp)⟩
  | true =>
    have hfinished := hbegun.finishFlush hinit
    obtain ⟨hc, hr⟩ := hfinished.startFastDispatch
    have hcount := hfinished.engineCount hinit
    refine Consistent.assign ?_ ?_ ?_ template answers.reassign fun hunderway => ?_
    · exact hcount ▸ hc
    · exact hcount ▸ hr
    · exact (startFastDispatch_initialized _).trans hinit
    · -- the countdown has just been set to all engines
      have hlt := hunderway.2
      rw [startFastDispatch_remaining, hcount] at hlt
      exact absurd hlt (Nat.lt_irrefl _)

/-- `BZM_send_work` gets past its first two tests. -/
def SendsWork (d : BzmDriver) (authorized : Bool) : Prop :=
  d.initialized = true ∧
    (d.stagedTransportReady = true → d.stagedRunningAuthorized authorized = true)

/-- Clean jobs restart a rotation that is complete, not one under way. -/
theorem Consistent.dropCleanWork (h : Consistent d) (hr : Rotating d)
    (hinit : d.initialized = true) (template : JobRef) :
    Consistent (d.dropCleanWork template) ∧ Rotating (d.dropCleanWork template) ∧
      (d.dropCleanWork template).initialized = true ∧
      ((d.dropCleanWork template).RotationUnderway → d.RotationUnderway) ∧
      ∀ answers, d.KeepsEngines answers → (d.dropCleanWork template).KeepsEngines answers := by
  unfold BzmDriver.dropCleanWork
  split
  · have hstep := h.invalidateWork hinit
    obtain ⟨hc, hr'⟩ := hstep.startFastDispatchIfIdle hr.invalidateWork hinit
    refine ⟨hc, hr', ?_⟩
    unfold BzmDriver.startFastDispatchIfIdle
    split
    · refine ⟨(startFastDispatch_initialized _).trans hinit, ?_, ?_⟩
      · intro hunderway
        have hlt := hunderway.2
        rw [startFastDispatch_remaining, hstep.engineCount hinit] at hlt
        exact absurd hlt (Nat.lt_irrefl _)
      · unfold KeepsEngines
        rw [startFastDispatch_reactor]
        exact fun answers hkeeps => hkeeps
    · exact ⟨hinit, id, fun answers hkeeps => hkeeps⟩
  · exact ⟨h, hr, hinit, id, fun _ => id⟩

theorem Consistent.sendWork (h : Consistent d) (hr : Rotating d) (template : JobRef)
    (answers : BzmSendAnswers)
    (hkeeps : d.SendsWork answers.authorized → d.RotationUnderway → d.KeepsEngines answers.assign) :
    Consistent (d.sendWork template answers).2 ∧ Rotating (d.sendWork template answers).2 := by
  unfold BzmDriver.sendWork
  split
  · exact ⟨h, hr⟩
  next hinit =>
  split
  · exact ⟨h, hr⟩
  next hauthorized =>
  have hinit : d.initialized = true := by simpa using hinit
  have hsends : d.SendsWork answers.authorized := ⟨hinit, by simpa using hauthorized⟩
  obtain ⟨hc, hr, hinit, hunderway, hreactor⟩ := h.dropCleanWork hr hinit template
  have hkeeps' : (d.dropCleanWork template).RotationUnderway →
      (d.dropCleanWork template).KeepsEngines answers.assign :=
    fun hnow => hreactor _ (hkeeps hsends (hunderway hnow))
  generalize d.dropCleanWork template = clean at hc hr hinit hkeeps'
  have hassign := hc.assign hr hinit template answers.assign hkeeps'
  have hstep := hc.reactorAssign hinit template answers.assign
  unfold BzmDriver.assignAndCount at hassign
  dsimp only at hassign ⊢
  generalize clean.reactor.assign template answers.assign = outcome at hassign hstep ⊢
  obtain ⟨status, reactor⟩ := outcome
  cases status with
  | flushRequired => exact hstep.flushAndAssign hinit template answers
  | _ => exact hassign

theorem Consistent.clearWork (h : Consistent d) (hr : Rotating d) :
    Consistent d.clearWork.2 ∧ Rotating d.clearWork.2 := by
  unfold BzmDriver.clearWork
  split
  · exact ⟨h, hr⟩
  · next hinit =>
    have hinit : d.initialized = true := by simpa using hinit
    exact (h.invalidateWork hinit).startFastDispatchIfIdle hr.invalidateWork hinit

theorem Consistent.stagedFailClosed (h : Consistent d) :
    Consistent d.stagedFailClosed ∧ Rotating d.stagedFailClosed := by
  refine ⟨⟨?_, ?_, ?_, h.remaining_le, h.started, ?_, h.covered⟩, ?_⟩
  · intro hinit
    cases hinit
  · intro hinit
    cases hinit
  · intro hverified
    cases hverified
  · intro hinit
    cases hinit
  · intro hinit
    cases hinit

theorem Consistent.stagedFrequencyDomainsStepLive (h : Consistent d) (hr : Rotating d)
    (answers : BzmLiveAnswers) :
    Consistent (d.stagedFrequencyDomainsStepLive answers).2 ∧
      Rotating (d.stagedFrequencyDomainsStepLive answers).2 := by
  unfold BzmDriver.stagedFrequencyDomainsStepLive
  split
  · exact ⟨h, hr⟩
  next hready =>
  split
  · have hverified : d.runningVerified = true := by
      simp only [stagedRunningAuthorized, Bool.or_eq_true, not_or, Bool.not_eq_true',
        Bool.not_eq_false, Bool.and_eq_true] at hready
      exact hready.2.1
    have hinit := h.verified hverified
    have hstep := h.invalidateWork hinit
    have hstart := hstep.startFastDispatch
    rw [← hstep.engineCount hinit] at hstart
    exact hstart
  · exact ⟨h, hr⟩

/-- A new reactor has nothing assigned, so a rotation under way would be short. -/
theorem Consistent.reactorInitialized (h : Consistent d) {reactor : BzmReactor}
    {transport : BzmTransportOps} {jobStore : AsicJobStore}
    (hreactor : BzmReactor.init bzmMiningConfig transport jobStore = some reactor) :
    Consistent (d.reactorInitialized reactor) ∧
      (¬ d.RotationUnderway → Rotating (d.reactorInitialized reactor)) := by
  have hconfig := (BzmReactor.init_config hreactor).1
  refine ⟨⟨fun _ => ⟨_, BzmReactor.init_tracked hreactor⟩, ?_, fun _ => rfl, h.remaining_le,
    fun hrunning => (h.started hrunning).cons rfl, ?_, ?_⟩, ?_⟩
  · intro _
    show reactor.config.engineCount = _
    rw [hconfig]
    rfl
  · intro _
    show rotation (.reactorInitialized :: d.trace) <+: _
    rw [rotation_of_restart _ rfl]
    exact List.nil_prefix
  · exact h.covered.cons fun _ hevent => by cases hevent
  · intro hwhole _ _ hrunning
    have hle := h.remaining_le
    have hrunning' : d.fastDispatchRemaining ≠ 0 := hrunning
    have hall : d.fastDispatchRemaining = BZM_ENGINES_PER_ASIC := by
      unfold RotationUnderway at hwhole
      omega
    show BZM_ENGINES_PER_ASIC ≤ d.fastDispatchRemaining + _
    rw [hall]
    exact Nat.le_add_right _ _

theorem Consistent.stagedRunning (h : Consistent d) (hr : Rotating d) (answers : BzmRunningAnswers)
    (hkeeps : d.stagedTransportReady = true → answers.checkRunning = .good →
      answers.settled = true → ¬ d.RotationUnderway) :
    Consistent (d.stagedRunning answers).2 ∧ Rotating (d.stagedRunning answers).2 := by
  unfold BzmDriver.stagedRunning
  split
  · exact ⟨h, hr⟩
  next hready =>
  split
  · exact h.stagedFailClosed
  next hgood =>
  split
  · exact h.stagedFailClosed
  next reactor hreactor =>
  obtain ⟨hc, hrotating⟩ := h.reactorInitialized hreactor
  have hc' : Consistent { d.reactorInitialized reactor with runningVerified := true } :=
    ⟨hc.tracked, hc.engineCount, fun _ => rfl, hc.remaining_le, hc.started, hc.latest, hc.covered⟩
  dsimp only
  split
  · next hsettled =>
    exact ⟨hc', hrotating (hkeeps (by simpa using hready) (by simpa using hgood) hsettled)⟩
  · exact hc'.stagedFailClosed

/-- Opening or closing a submission scope changes only what the job store binds. -/
theorem Consistent.setJobStore (h : Consistent d) (hr : Rotating d) {op : BzmReactorOp}
    (htrace : (d.reactor.step op).trace = d.reactor.trace)
    (hpending : (d.reactor.step op).flushPending = d.reactor.flushPending) :
    Consistent (d.setReactor (d.reactor.step op)) ∧
      Rotating (d.setReactor (d.reactor.step op)) := by
  have hsame : (d.setReactor (d.reactor.step op)).trace = d.trace := setReactor_trace [] htrace
  constructor
  · by_cases hinit : d.initialized = true
    · exact h.reactorStep hinit op
    · refine ⟨fun hnow => absurd hnow hinit, fun hnow => absurd hnow hinit, h.verified,
        h.remaining_le, ?_, fun hnow => absurd hnow hinit, ?_⟩
      · rw [hsame]
        exact h.started
      · rw [hsame]
        exact h.covered
  · intro hinit hnow hrunning
    rw [hsame]
    exact hr hinit (hpending.symm.trans hnow) hrunning

/-! ### One call -/

/-- The condition on a call: with a rotation under way, no callback fails during an
assignment whose flush succeeds, and `BZM_staged_running` does not complete. -/
def KeepsRotation (d : BzmDriver) : BzmDriverOp → Prop
  | .sendWork _ answers =>
      d.SendsWork answers.authorized → d.RotationUnderway → d.KeepsEngines answers.assign
  | .stagedRunning answers =>
      d.stagedTransportReady = true → answers.checkRunning = .good → answers.settled = true →
        ¬ d.RotationUnderway
  | _ => True

theorem step_rotating {op : BzmDriverOp} (h : Consistent d ∧ Rotating d)
    (hkeeps : d.KeepsRotation op) : Consistent (d.step op) ∧ Rotating (d.step op) := by
  obtain ⟨hc, hr⟩ := h
  cases op with
  | sendWork template answers => exact hc.sendWork hr template answers hkeeps
  | clearWork => exact hc.clearWork hr
  | stagedFrequencyDomainsStepLive answers => exact hc.stagedFrequencyDomainsStepLive hr answers
  | stagedHoldReset => exact hc.stagedFailClosed
  | stagedInitialize ready =>
    obtain ⟨hclosed, hrotating⟩ := hc.stagedFailClosed
    cases ready with
    | false => exact ⟨hclosed, hrotating⟩
    | true =>
      exact ⟨⟨hclosed.tracked, hclosed.engineCount, hclosed.verified, hclosed.remaining_le,
        hclosed.started, hclosed.latest, hclosed.covered⟩, hrotating⟩
  | stagedRunning answers => exact hc.stagedRunning hr answers hkeeps
  | stagedSetDispatchAuthorizer authorizer =>
    exact ⟨⟨hc.tracked, hc.engineCount, hc.verified, hc.remaining_le, hc.started, hc.latest,
      hc.covered⟩, hr⟩
  | beginSubmission job context => exact hc.setJobStore hr rfl rfl
  | endSubmission => exact hc.setJobStore hr rfl rfl

theorem stateInit_consistent (reactor : BzmReactor) : Consistent (stateInit reactor) where
  tracked hinit := by cases hinit
  engineCount hinit := by cases hinit
  verified hverified := by cases hverified
  remaining_le := Nat.zero_le _
  started hrunning := absurd rfl hrunning
  latest hinit := by cases hinit
  covered newer generation older hsplit := by cases newer <;> cases hsplit

theorem init_rotating (reactor : BzmReactor) (ready : Bool) :
    Consistent ((stateInit reactor).init ready) ∧ Rotating ((stateInit reactor).init ready) := by
  have hfresh := stateInit_consistent reactor
  unfold BzmDriver.init
  cases ready with
  | false => exact ⟨hfresh, fun hinit => by cases hinit⟩
  | true =>
    dsimp only
    split
    · next hnot => cases hnot
    split
    · exact ⟨hfresh, fun hinit => by cases hinit⟩
    · next initial hinitial =>
      exact (hfresh.reactorInitialized hinitial).1.startFastDispatch

end BzmDriver

end EspMiner
