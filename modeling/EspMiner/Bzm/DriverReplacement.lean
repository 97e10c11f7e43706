import EspMiner.Bzm.DriverRotation

/-!
# Replacement completion

Completion means full coverage in every run in which nothing takes the work from the engines of a
rotation under way without restarting it.  The board that mines with a transport that delivers
completes its rotations; one whose engines are cleared while the countdown goes on is completed by
fewer assignments than there are engines.
-/

namespace EspMiner

open Library BzmDriverTrace

/-- Full coverage takes an assignment for every engine. -/
theorem BzmDriverTrace.Covers.length_le {generation : U32} {trace : List BzmDriverEvent}
    (h : Covers generation trace) : BZM_ENGINES_PER_ASIC ≤ (rotation trace).length := by
  obtain ⟨between, rest, rfl, hbetween, hengines⟩ := h
  rw [rotation_of_started hbetween]
  have hsubset : List.range BZM_ENGINES_PER_ASIC ⊆
      (assignedRecords (since isClearing between)).map
        fun record => record.engine.topologyIndex := by
    intro logicalEngineId hmem
    obtain ⟨record, hrecord, hengine⟩ := hengines logicalEngineId (List.mem_range.mp hmem)
    exact List.mem_map.mpr ⟨record, hrecord, hengine⟩
  simpa using (List.nodup_range.subperm hsubset).length_le

namespace BzmDriver

variable {d : BzmDriver}

/-! ### Mining -/

open BzmReactor (allGood)

/-- A send whose callbacks all return true. -/
def goodSend : BzmDriverOp := .sendWork ⟨0, AsicJob.zero⟩ ⟨true, allGood, true, allGood⟩

/-- The calls that take the board from a held reset to mining. -/
def startMining : List BzmDriverOp :=
  [.stagedInitialize true, .stagedSetDispatchAuthorizer true, .stagedRunning ⟨.good, true⟩]

/-- The board mines outside a flush, with `turns` assignments since the last one and
the next job to be stored in slot `slot`. -/
structure Mining (turns slot : Nat) (d : BzmDriver) : Prop where
  initialized : d.initialized = true
  authorized : d.stagedRunningAuthorized true = true
  tracked : ∃ start, BzmReactor.Tracked start d.reactor
  config : d.reactor.config = bzmMiningConfig
  transport : d.reactor.transport = STAGED_MINING_OPS
  pending : d.reactor.flushPending = false
  turns_eq : (BzmReactorTrace.ledger d.reactor.trace).length = turns
  slot_eq : d.reactor.jobStore.nextSlot = BitVec.ofNat 16 slot
  notClean : (d.reactor.jobStore.contextFor ⟨0, AsicJob.zero⟩).cleanJobs = false

variable {turns slot : Nat}

theorem Mining.handle_ne (h : Mining turns slot d) (hslot : slot < 255) :
    d.reactor.nextHandle ≠ ASIC_WORK_HANDLE_INVALID := by
  intro hinvalid
  have hfull := slot_of_invalid hinvalid
  rw [AsicJobStore.toNat_generatedSlot, h.slot_eq, BitVec.toNat_ofNat] at hfull
  omega

theorem Mining.space (h : Mining turns slot d) (hturns : turns < BZM_ENGINES_PER_ASIC) :
    (d.reactor.nextEngineSequence d.reactor.nextEngine).toNat < d.reactor.config.sequenceSpace := by
  obtain ⟨start, htracked⟩ := h.tracked
  have hdispatched := (htracked.dispatching h.pending).dispatched
  have hcount : d.reactor.config.engineCount = BZM_ENGINES_PER_ASIC := by rw [h.config]; rfl
  have hcursor := hdispatched.cursor
  rw [hdispatched.sequence _ (hcursor ▸ Nat.mod_lt _ htracked.valid.engineCount_pos), hcursor,
    RoundRobin.count_turn, h.turns_eq, hcount, Nat.div_eq_of_lt hturns, h.config]
  decide

/-- A good send assigns the next turn and counts it. -/
theorem Mining.send (h : Mining turns slot d) (hturns : turns < BZM_ENGINES_PER_ASIC)
    (hslot : slot < 255) :
    ∃ sent : BzmDriver, d.step goodSend = sent.countDispatch .ok ∧
      Mining (turns + 1) (slot + 1) sent ∧
      sent.fastDispatchRemaining = d.fastDispatchRemaining ∧
      ∃ record, rotation sent.trace = record :: rotation d.trace := by
  obtain ⟨start, htracked⟩ := h.tracked
  obtain ⟨record, sent, hattempt, hsent, hassign⟩ := htracked.assign_ok h.pending
    (h.space hturns) (h.handle_ne hslot) ⟨0, AsicJob.zero⟩ allGood (by rw [h.transport]; rfl)
  have hnext := BzmReactor.step_tracked htracked (.assign ⟨0, AsicJob.zero⟩ allGood)
  obtain ⟨reactor, hreactor⟩ : ∃ reactor, reactor =
      ((d.reactor.afterStore ⟨0, AsicJob.zero⟩).noted sent).commitAssignment d.reactor.nextEngine
        d.reactor.nextEngine record := ⟨_, rfl⟩
  have hstep : d.reactor.step (.assign ⟨0, AsicJob.zero⟩ allGood) = reactor := by
    rw [hreactor]
    exact congrArg Prod.snd hassign
  have hevents : reactor.trace =
      (.assigned record :: (sent ++ [.stored d.reactor.nextHandle])) ++ d.reactor.trace := by
    rw [hreactor]
    exact d.reactor.committed_trace _ sent d.reactor.nextEngine d.reactor.nextEngine record
  rw [hstep] at hnext
  rw [← hreactor] at hassign
  refine ⟨d.setReactor reactor, ?_, ⟨h.initialized, h.authorized, ⟨start, hnext⟩, ?_, ?_, ?_, ?_,
    ?_, ?_⟩, rfl, record, ?_⟩
  · have hdrop : d.dropCleanWork ⟨0, AsicJob.zero⟩ = d := by
      rw [BzmDriver.dropCleanWork, AsicJobStore.submissionContextOf, h.notClean]
      rfl
    have hsend : (d.sendWork ⟨0, AsicJob.zero⟩ ⟨true, allGood, true, allGood⟩).2 =
        (d.setReactor reactor).countDispatch .ok := by
      rw [BzmDriver.sendWork, h.initialized, h.authorized]
      dsimp only
      rw [hdrop, hassign]
      simp
    exact hsend
  · rw [hreactor]
    exact h.config
  · rw [hreactor]
    exact h.transport
  · rw [hreactor]
    exact h.pending
  · show (BzmReactorTrace.ledger reactor.trace).length = turns + 1
    rw [hevents]
    cases hsent <;> simp [BzmReactorTrace.ledger, h.turns_eq]
  · show reactor.jobStore.nextSlot = _
    have hslots : reactor.jobStore.nextSlot = d.reactor.jobStore.nextSlot + 1 := by
      rw [hreactor, BzmReactor.commitAssignment_jobStore]
      split
      · exact AsicJobStore.release_nextSlot _ _
      · rfl
    rw [hslots, h.slot_eq, BitVec.ofNat_add]
    rfl
  · have hcontext : reactor.jobStore.contextFor ⟨0, AsicJob.zero⟩ =
        d.reactor.jobStore.contextFor ⟨0, AsicJob.zero⟩ := by
      rw [hreactor, BzmReactor.commitAssignment_jobStore]
      split
      · exact AsicJobStore.release_contextFor _ _ _
      · rfl
    exact hcontext ▸ h.notClean
  · rw [setReactor_trace _ hevents, rotation_committed hsent]

theorem Mining.countDispatch (h : Mining turns slot d) : Mining turns slot (d.countDispatch .ok) ∧
    (d.countDispatch .ok).fastDispatchRemaining = d.fastDispatchRemaining - 1 ∧
    rotation (d.countDispatch .ok).trace = rotation d.trace := by
  unfold BzmDriver.countDispatch
  split
  · exact ⟨⟨h.initialized, h.authorized, h.tracked, h.config, h.transport, h.pending, h.turns_eq,
      h.slot_eq, h.notClean⟩, rfl, rotation_cons _ rfl⟩
  next hlast =>
  split
  · exact ⟨⟨h.initialized, h.authorized, h.tracked, h.config, h.transport, h.pending, h.turns_eq,
      h.slot_eq, h.notClean⟩, rfl, rfl⟩
  next hidle => exact ⟨h, by simp at hidle; omega, rfl⟩

theorem Mining.sends (n : Nat) (h : Mining turns slot d)
    (hturns : turns + n ≤ BZM_ENGINES_PER_ASIC) (hslot : slot + n ≤ 255) :
    Mining (turns + n) (slot + n) (run step d (List.replicate n goodSend)) ∧
      (run step d (List.replicate n goodSend)).fastDispatchRemaining =
        d.fastDispatchRemaining - n ∧
      (rotation (run step d (List.replicate n goodSend)).trace).length =
        (rotation d.trace).length + n := by
  induction n generalizing turns slot d with
  | zero => exact ⟨h, rfl, rfl⟩
  | succ n ih =>
    obtain ⟨sent, hstep, hsent, hremaining, record, hrotation⟩ := h.send (by omega) (by omega)
    obtain ⟨hnext, hcount, hsame⟩ := hsent.countDispatch
    rw [List.replicate_succ, run_cons, hstep]
    obtain ⟨hmining, hlast, hlength⟩ := ih hnext (by omega) (by omega)
    rw [hlast, hcount, hremaining, hlength, hsame, hrotation, List.length_cons]
    refine ⟨?_, by omega, by omega⟩
    rwa [Nat.add_right_comm, Nat.add_assoc, Nat.add_right_comm slot, Nat.add_assoc slot] at hmining

/-- **Good sends complete the rotation under way**, with the assignments that it had
and theirs. -/
theorem Mining.completes (h : Mining turns slot d) {n : Nat}
    (hremaining : d.fastDispatchRemaining = n + 1) (hturns : turns + n < BZM_ENGINES_PER_ASIC)
    (hslot : slot + n < 255) :
    ∃ generation older, (run step d (List.replicate (n + 1) goodSend)).trace =
        .replacementCompleted generation :: older ∧
      (rotation older).length = (rotation d.trace).length + (n + 1) := by
  obtain ⟨hmining, hcount, hlength⟩ := h.sends n (by omega) (by omega)
  obtain ⟨sent, hstep, -, hsame, record, hrotation⟩ := hmining.send (by omega) (by omega)
  have hone : sent.fastDispatchRemaining = 1 := by omega
  refine ⟨sent.workReplacementGeneration, sent.trace, ?_, ?_⟩
  · rw [List.replicate_succ', run_append, run_cons, run_nil, hstep, BzmDriver.countDispatch,
      if_pos ⟨rfl, hone⟩]
  · rw [hrotation, List.length_cons, hlength]
    omega

/-- **A rotation whose engines were cleared is completed without full coverage.** -/
theorem Mining.uncovered (h : Mining turns slot d) {n : Nat}
    (hremaining : d.fastDispatchRemaining = n + 1) (hunderway : d.RotationUnderway)
    (hcleared : rotation d.trace = []) (hturns : turns + n < BZM_ENGINES_PER_ASIC)
    (hslot : slot + n < 255) :
    ¬ CompletionsCover (run step d (List.replicate (n + 1) goodSend)).trace := by
  obtain ⟨generation, older, htrace, hlength⟩ := h.completes hremaining hturns hslot
  intro hcover
  have hall := (hcover [] generation older htrace).length_le
  have hlt := hunderway.2
  rw [hcleared, List.length_nil] at hlength
  omega

/-- Mining starts with a new reactor, and the countdown is what it was. -/
theorem mining_startMining (hslot : d.reactor.jobStore.nextSlot = BitVec.ofNat 16 slot)
    (hnotClean : (d.reactor.jobStore.contextFor ⟨0, AsicJob.zero⟩).cleanJobs = false) :
    Mining 0 slot (run step d startMining) ∧
      (run step d startMining).fastDispatchRemaining = d.fastDispatchRemaining ∧
      rotation (run step d startMining).trace = [] := by
  obtain ⟨reactor, hreactor⟩ : ∃ reactor, BzmReactor.init bzmMiningConfig STAGED_MINING_OPS
      d.reactor.jobStore = some reactor := ⟨_, rfl⟩
  have hstart : run step d startMining = { ({ d.stagedFailClosed with
      stagedTransportReady := true
      stagedDispatchGate := true }).reactorInitialized reactor with runningVerified := true } := by
    have hrunning : ∀ ready : BzmDriver, ready.stagedTransportReady = true →
        ready.reactor.jobStore = d.reactor.jobStore →
        (ready.stagedRunning ⟨.good, true⟩).2 =
          { ready.reactorInitialized reactor with runningVerified := true } := by
      intro ready hready hstore
      rw [BzmDriver.stagedRunning, hready, hstore, hreactor]
      rfl
    exact hrunning _ rfl rfl
  have hjobStore : reactor.jobStore = d.reactor.jobStore ∧ reactor.flushPending = false ∧
      reactor.trace = [] := by
    cases hreactor
    exact ⟨rfl, rfl, rfl⟩
  obtain ⟨hstore, hpending, htrace⟩ := hjobStore
  obtain ⟨hconfig, htransport⟩ := BzmReactor.init_config hreactor
  rw [hstart]
  refine ⟨⟨rfl, rfl, ⟨_, BzmReactor.init_tracked hreactor⟩, hconfig, htransport, hpending, ?_, ?_,
    ?_⟩, rfl, rotation_of_restart _ rfl⟩
  · show (BzmReactorTrace.ledger reactor.trace).length = 0
    rw [htrace]
    rfl
  · show reactor.jobStore.nextSlot = _
    rw [hstore, hslot]
  · show (reactor.jobStore.contextFor _).cleanJobs = false
    rw [hstore, hnotClean]

/-- A send whose first write fails, with a flush that succeeds. -/
def failedSend : BzmDriverOp :=
  .sendWork ⟨0, AsicJob.zero⟩ ⟨true, ⟨false, false, true⟩, true, allGood⟩

/-- The flush after a failed write clears the engines, and the countdown is what it was. -/
theorem Mining.fails (h : Mining turns slot d) (hturns : turns < BZM_ENGINES_PER_ASIC)
    (hslot : slot < 255) :
    Mining 0 0 (d.step failedSend) ∧
      (d.step failedSend).fastDispatchRemaining = d.fastDispatchRemaining ∧
      rotation (d.step failedSend).trace = [] := by
  obtain ⟨start, htracked⟩ := h.tracked
  obtain ⟨record, sent, hattempt, hsent, hassign⟩ := htracked.assign_attempted h.pending
    (h.space hturns) (h.handle_ne hslot) ⟨0, AsicJob.zero⟩ ⟨false, false, true⟩
  have hnext := BzmReactor.step_tracked htracked (.assign ⟨0, AsicJob.zero⟩ ⟨false, false, true⟩)
  have hanswers : (⟨false, false, true⟩ : BzmTransportAnswers).delivered d.reactor.transport =
      false := rfl
  obtain ⟨reactor, hreactor⟩ : ∃ reactor, reactor =
      ((d.reactor.afterStore ⟨0, AsicJob.zero⟩).noted sent).abortAssign d.reactor.nextHandle true :=
    ⟨_, rfl⟩
  have hassign' : d.reactor.assign ⟨0, AsicJob.zero⟩ ⟨false, false, true⟩ =
      (.transportError, reactor) := by
    rw [hassign, hanswers, hreactor]
    rfl
  have hstep : d.reactor.step (.assign ⟨0, AsicJob.zero⟩ ⟨false, false, true⟩) = reactor :=
    congrArg Prod.snd hassign'
  rw [hstep] at hnext
  have hflush : d.reactor.transport.hasFlush = true := by rw [h.transport]; rfl
  rw [BzmReactor.abortAssign_flushed (r := (d.reactor.afterStore _).noted sent) h.pending hflush]
    at hreactor
  have hevents : reactor.trace = ([.flushFinished, .flush true, .flushBegun] ++
      (sent ++ [.stored d.reactor.nextHandle])) ++ d.reactor.trace := by
    rw [hreactor]
    simp [BzmReactor.flushFinished, BzmReactor.openFlush, BzmReactor.releaseHandle,
      BzmReactor.noted, BzmReactor.afterStore]
  have hsend : d.step failedSend = d.setReactor reactor := by
    have hdrop : d.dropCleanWork ⟨0, AsicJob.zero⟩ = d := by
      rw [BzmDriver.dropCleanWork, AsicJobStore.submissionContextOf, h.notClean]
      rfl
    show (d.sendWork ⟨0, AsicJob.zero⟩ ⟨true, ⟨false, false, true⟩, true, allGood⟩).2 = _
    rw [BzmDriver.sendWork, h.initialized, h.authorized]
    dsimp only
    rw [hdrop, hassign']
    simp [countDispatch_of_ne]
  rw [hsend]
  refine ⟨⟨h.initialized, h.authorized, ⟨start, hnext⟩, ?_, ?_, ?_, ?_, ?_, ?_⟩, rfl, ?_⟩
  · rw [hreactor]
    exact h.config
  · rw [hreactor]
    exact h.transport
  · rw [hreactor]
    rfl
  · show (BzmReactorTrace.ledger reactor.trace).length = 0
    rw [hevents]
    rfl
  · rw [hreactor]
    rfl
  · have hcontext : reactor.jobStore.contextFor ⟨0, AsicJob.zero⟩ =
        d.reactor.jobStore.contextFor ⟨0, AsicJob.zero⟩ := by
      rw [hreactor]
      exact AsicJobStore.release_contextFor _ _ _
    exact hcontext ▸ h.notClean
  · rw [setReactor_trace _ hevents]
    exact rotation_of_restart _ rfl

/-- With no rotation under way, `BZM_clear_work` starts one. -/
theorem Mining.clearWork (h : Mining turns slot d) (hidle : d.fastDispatchRemaining = 0) :
    Mining turns 0 (d.step .clearWork) ∧
      (d.step .clearWork).fastDispatchRemaining = BZM_ENGINES_PER_ASIC := by
  obtain ⟨start, htracked⟩ := h.tracked
  have hnext := BzmReactor.step_tracked htracked .invalidateWork
  have hcount : d.reactor.config.engineCount = BZM_ENGINES_PER_ASIC := by rw [h.config]; rfl
  have hclear : d.step .clearWork =
      (d.setReactor d.reactor.invalidateWork).startFastDispatch BZM_ENGINES_PER_ASIC := by
    show d.clearWork.2 = _
    rw [BzmDriver.clearWork, h.initialized, ← hcount]
    exact if_pos hidle
  rw [hclear]
  exact ⟨⟨h.initialized, h.authorized, ⟨start, hnext⟩, h.config, h.transport, h.pending, h.turns_eq,
    rfl, h.notClean⟩, rfl⟩

/-! ### Completion -/

/-- **Replacement completion means full coverage** in every run in which nothing
takes the work from the engines of a rotation under way without restarting it. -/
theorem replacement_completion_covers (reactor : BzmReactor) (ready : Bool)
    (ops : List BzmDriverOp)
    (hkeeps : Guarded step KeepsRotation ((stateInit reactor).init ready) ops) :
    CompletionsCover (run step ((stateInit reactor).init ready) ops).trace :=
  (Guarded.invariant step (P := fun d => Consistent d ∧ Rotating d)
    (fun _ _ h hok => step_rotating h hok) hkeeps (init_rotating reactor ready)).1.covered

/-- Mining begins, and the first rotation is `n` good sends long. -/
def firstRotation (n : Nat) : List BzmDriverOp :=
  startMining ++ .clearWork :: List.replicate n goodSend

/-- The driver before its first mining, its job store empty. -/
def powerOn : BzmDriver := (stateInit (BzmReactor.plainReactor.get rfl)).init false

theorem mining_powerOn : Mining 0 0 (run step powerOn startMining) ∧
    (run step powerOn startMining).fastDispatchRemaining = 0 ∧
    rotation (run step powerOn startMining).trace = [] :=
  mining_startMining rfl rfl

theorem mining_firstRotation {n : Nat} (hn : n ≤ BZM_ENGINES_PER_ASIC) :
    Mining n n (run step powerOn (firstRotation n)) ∧
      (run step powerOn (firstRotation n)).fastDispatchRemaining = BZM_ENGINES_PER_ASIC - n := by
  obtain ⟨hstart, hidle, -⟩ := mining_powerOn
  obtain ⟨hclear, hremaining⟩ := hstart.clearWork hidle
  obtain ⟨hmining, hcount, -⟩ := hclear.sends n (by simpa using hn)
    (by simpa using Nat.le_trans hn (by decide))
  rw [firstRotation, run_append, run_cons]
  rw [hremaining] at hcount
  simpa using And.intro hmining hcount

theorem firstRotation_keeps (n : Nat) : Guarded step KeepsRotation powerOn (firstRotation n) := by
  refine Guarded.append step ⟨trivial, trivial, ?_, trivial⟩
    ⟨trivial, Guarded.of_forall step (fun op hop d => ?_) _⟩
  · intro _ _ _ hunderway
    exact absurd hunderway.1 (Nat.lt_irrefl 0)
  · obtain rfl := List.eq_of_mem_replicate hop
    exact fun _ _ _ _ => .inl (by simp [BzmTransportAnswers.delivered, allGood])

/-- A complete rotation, every call of which meets the condition. -/
theorem replacement_completion_covers_rotation :
    (∃ generation, .replacementCompleted generation ∈
      (run step powerOn (firstRotation BZM_ENGINES_PER_ASIC)).trace) ∧
    CompletionsCover (run step powerOn (firstRotation BZM_ENGINES_PER_ASIC)).trace := by
  refine ⟨?_, replacement_completion_covers (BzmReactor.plainReactor.get rfl) false _
    (firstRotation_keeps _)⟩
  obtain ⟨hstart, hidle, -⟩ := mining_powerOn
  obtain ⟨hclear, hremaining⟩ := hstart.clearWork hidle
  obtain ⟨generation, older, htrace, -⟩ := hclear.completes hremaining (by decide) (by decide)
  rw [firstRotation, run_append, run_cons]
  exact ⟨generation, htrace ▸ List.mem_cons_self⟩

/-- A pause takes the work from the engines and leaves the countdown. -/
theorem Mining.paused (h : Mining turns slot d) {n : Nat}
    (hremaining : d.fastDispatchRemaining = n + 1) (hunderway : d.RotationUnderway)
    (hslot : slot + n < 255) :
    ¬ CompletionsCover (run step d (.stagedHoldReset :: (startMining ++
      List.replicate (n + 1) goodSend))).trace := by
  obtain ⟨hresumed, hcount, hcleared⟩ := mining_startMining (d := d.step .stagedHoldReset)
    h.slot_eq h.notClean
  have hsame : (d.step .stagedHoldReset).fastDispatchRemaining = d.fastDispatchRemaining := rfl
  rw [run_cons, run_append]
  refine hresumed.uncovered (hcount.trans (hsame.trans hremaining)) ?_ hcleared ?_ hslot
  · rw [RotationUnderway, hcount]
    exact hunderway
  · have := hunderway.2
    omega

/-- So does a transport failure, by the flush that follows it. -/
theorem Mining.interrupted (h : Mining turns slot d) {n : Nat}
    (hremaining : d.fastDispatchRemaining = n + 1) (hunderway : d.RotationUnderway)
    (hturns : turns < BZM_ENGINES_PER_ASIC) (hslot : slot < 255) :
    ¬ CompletionsCover (run step d (failedSend :: List.replicate (n + 1) goodSend)).trace := by
  obtain ⟨hflushed, hcount, hcleared⟩ := h.fails hturns hslot
  have hlt := hunderway.2
  rw [run_cons]
  refine hflushed.uncovered (hcount.trans hremaining) ?_ hcleared (by omega) ?_
  · rw [RotationUnderway, hcount]
    exact hunderway
  · have : BZM_ENGINES_PER_ASIC = 236 := rfl
    omega

/-- Mining pauses before the last engine of the rotation, and resumes. -/
def pausedRotation : List BzmDriverOp :=
  firstRotation 235 ++ .stagedHoldReset :: (startMining ++ [goodSend])

/-- A write fails before the last engine of the rotation. -/
def interruptedRotation : List BzmDriverOp := firstRotation 235 ++ [failedSend, goodSend]

/-- Each of the two rotations is completed by one assignment after its clearing. -/
theorem replacement_completion_uncovered :
    ¬ CompletionsCover (run step powerOn pausedRotation).trace ∧
      ¬ CompletionsCover (run step powerOn interruptedRotation).trace := by
  obtain ⟨hmining, hremaining⟩ := mining_firstRotation (n := 235) (by decide)
  have hunderway : (run step powerOn (firstRotation 235)).RotationUnderway := by
    rw [RotationUnderway, hremaining]
    decide
  constructor
  · rw [pausedRotation, run_append]
    exact hmining.paused (n := 0) hremaining hunderway (by decide)
  · rw [interruptedRotation, run_append]
    exact hmining.interrupted (n := 0) hremaining hunderway (by decide) (by decide)

end BzmDriver

end EspMiner
