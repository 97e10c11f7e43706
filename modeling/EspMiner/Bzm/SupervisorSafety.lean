import EspMiner.Bzm.SupervisorEffect
import EspMiner.Library.Run

/-!
# Safe-off, dispatch authority and energised hardware

Three properties of every run of supervisor operations with arbitrary callback
outcomes: what a report that says OFF rests on, what allowed dispatch rests on,
and who answers for hardware that a powered stage may have energised.
-/

namespace EspMiner

open Library

namespace BzmSupervisor

variable {s : BzmSupervisor}

/-! ## The configuration never changes -/

section Config

variable (s : BzmSupervisor)

@[simp] theorem stopInternal_config (reason : Option String) (preempt : Bool)
    (safeOff : BzmStageResult) :
    (s.stopInternal reason preempt safeOff).2.config = s.config := by
  rcases s.stopInternal_cases reason preempt safeOff with
    ⟨heq, -⟩ | ⟨s', heq, -, -, -, hconfig, -⟩ | ⟨s', heq, -, hconfig⟩
  · rw [heq]
  · rw [heq]; exact hconfig
  · rw [heq]; exact hconfig

@[simp] theorem stop_config (reason : Option String) (safeOff : BzmStageResult) :
    (s.stop reason safeOff).2.config = s.config := s.stopInternal_config reason false safeOff

@[simp] theorem recordRun_config (target : BzmValidationStage) (leaseMs : U32) (nowMs : U64)
    (completed : Bool) (report : BzmValidationReport) (events : List BzmValidationEvent) :
    (s.recordRun target leaseMs nowMs completed report events).2.config = s.config := by
  simp only [recordRun, setState]
  split_ifs <;> simp

@[simp] theorem requestValidation_config (target : BzmStageValue) (localArm hold : Bool)
    (leaseMs : U32) (nowMs : U64) (answers : BzmSupervisorAnswers) :
    (s.requestValidation target localArm hold leaseMs nowMs answers).2.config = s.config := by
  cases target with
  | none => rfl
  | some stage =>
    simp only [requestValidation, runValidation]
    split_ifs <;> simp [blockReport]

@[simp] theorem clearFault_config : s.clearFault.2.config = s.config := by
  unfold clearFault
  split <;> rfl

theorem step_config (op : BzmSupervisorOp) : (s.step op).config = s.config := by
  cases op with
  | requestValidation => simp [step]
  | stop => simp [step]
  | tick => simp only [step, tick]; split <;> simp
  | heartbeat => simp only [step, heartbeat]; split <;> rfl
  | latchFault => simp only [step, latchFault, setState]; split_ifs <;> simp [setFaultDetail]
  | clearFault => simp [step]
  | acquireMaintenance =>
    simp only [step, acquireMaintenance]
    split_ifs <;> simp
  | acquireBridgeRecovery => simp only [step, acquireBridgeRecovery]; split <;> rfl
  | releaseMaintenance => simp only [step, releaseMaintenance]; split_ifs <;> simp
  | prepareRestart =>
    simp only [step, prepareRestart]
    split
    · rfl
    · split <;> simp

end Config

/-! ## A report that says OFF -/

/-- The callbacks of a trace, newest first. -/
def callbacks (trace : List BzmValidationEvent) : List BzmValidationEvent :=
  trace.filter fun
    | .runStage _ _ => true
    | .forceSafeOff _ => true
    | _ => false

/-- The newest callback is a `force_safe_off` that returned GOOD. -/
def LastCallbackSafeOff (s : BzmSupervisor) : Prop :=
  ∃ result older, callbacks s.trace = .forceSafeOff result :: older ∧ result.status = .good

/-- The report says that the unit is off. -/
def ReportsOff (s : BzmSupervisor) : Prop :=
  s.report.energized = false ∧ (s.report.state = .offSafe ∨ s.report.state = .faultLatched)

/-- A call that asks for a stage while a maintenance owner sits on an unverified
shutdown: `block_report` then overwrites the report. -/
def OverwritesUnverified (s : BzmSupervisor) (op : BzmSupervisorOp) : Prop :=
  op.requestedStage.isSome = true ∧ s.owner.isMaintenance = true ∧
    s.report.state = .shutdownUnverified

/-- What the induction carries: an OFF report rests on a safe-off, and so does
the ownership of a maintenance owner unless the shutdown is on record as unverified. -/
structure OffGrounded (s : BzmSupervisor) : Prop where
  report : s.ReportsOff → s.LastCallbackSafeOff
  maintenance : s.owner.isMaintenance = true →
    s.report.state = .shutdownUnverified ∨ s.LastCallbackSafeOff

theorem SafeOffProven.lastCallbackSafeOff (h : SafeOffProven s) : s.LastCallbackSafeOff := by
  obtain ⟨result, older, htrace, hgood⟩ := h.callback
  exact ⟨result, callbacks older, by simp [callbacks, htrace], hgood⟩

theorem safeOffVerified_reportsOff (h : s.safeOffVerified = true) : s.ReportsOff := by
  simp only [safeOffVerified, Bool.and_eq_true, Bool.not_eq_true', Bool.or_eq_true,
    decide_eq_true_eq] at h
  exact ⟨h.1.1.1, h.2⟩

theorem step_offGrounded {op : BzmSupervisorOp} (h : OffGrounded s)
    (hop : ¬ OverwritesUnverified s op) : OffGrounded (s.step op) := by
  obtain ⟨hreport, hmaintenance⟩ := h
  have heffect := s.step_effect op
  generalize s.step op = s' at heffect ⊢
  cases heffect with
  | unchanged => exact ⟨hreport, hmaintenance⟩
  | blocked target detail request owner =>
    have hlast : s.LastCallbackSafeOff :=
      (hmaintenance owner).resolve_left fun hstate => hop ⟨by simp [request], owner, hstate⟩
    exact ⟨fun _ => hlast, fun _ => .inr hlast⟩
  | safeOff proven =>
    exact ⟨fun _ => proven.lastCallbackSafeOff, fun _ => .inr proven.lastCallbackSafeOff⟩
  | safeOffFailed failed =>
    exact ⟨fun hoff => by simp [ReportsOff, failed.energized] at hoff, fun _ => .inl failed.state⟩
  | held target nowMs leaseMs held recorded =>
    refine ⟨fun hoff => by simp [ReportsOff, held.energized] at hoff, ?_⟩
    intro howner
    rw [held.owner] at howner
    split at howner <;> cases howner
  | renewed nowMs leaseMs leased state lease recorded =>
    refine ⟨fun hoff => by simp [ReportsOff, state] at hoff, ?_⟩
    intro howner
    rcases leased with h | h <;> simp [h, BzmSupervisorOwner.isMaintenance] at howner
  | faultCleared latched verified =>
    have hlast := hreport (safeOffVerified_reportsOff verified)
    exact ⟨fun _ => hlast, fun _ => .inr hlast⟩
  | bridgeRecovery owner latched state =>
    exact ⟨fun hoff => by simp [ReportsOff, state] at hoff, fun _ => .inl state⟩

/-! ## Owners and latched faults -/

/-- A latched fault leaves no leased owner. -/
def FaultUnleased (s : BzmSupervisor) : Prop := s.faultLatched = true → ¬ s.leased

theorem step_faultUnleased (h : FaultUnleased s) (op : BzmSupervisorOp) :
    FaultUnleased (s.step op) := by
  have heffect := s.step_effect op
  generalize s.step op = s' at heffect ⊢
  cases heffect with
  | unchanged => exact h
  | blocked target detail request owner =>
    rintro - (hleased | hleased) <;>
      simp [blockReport] at hleased <;> simp [hleased, BzmSupervisorOwner.isMaintenance] at owner
  | safeOff proven => exact fun _ => proven.unleased
  | safeOffFailed failed => exact fun _ => by simp [leased, failed.owner]
  | held target nowMs leaseMs held recorded =>
    intro hlatched
    rw [held.faultLatched] at hlatched
    cases hlatched
  | renewed nowMs leaseMs leased state lease recorded => exact h
  | faultCleared latched verified => intro hlatched; cases hlatched
  | bridgeRecovery owner latched state => exact fun _ => by simp [leased]

/-- An unverified shutdown is always a latched fault. -/
def UnverifiedLatched (s : BzmSupervisor) : Prop :=
  s.report.state = .shutdownUnverified → s.faultLatched = true

theorem step_unverifiedLatched (h : UnverifiedLatched s) (op : BzmSupervisorOp) :
    UnverifiedLatched (s.step op) := by
  have heffect := s.step_effect op
  generalize s.step op = s' at heffect ⊢
  cases heffect with
  | unchanged => exact h
  | blocked target detail request owner => intro hstate; cases hstate
  | safeOff proven =>
    intro hstate
    rcases proven.state with hoff | hlatched <;> simp_all
  | safeOffFailed failed => exact fun _ => failed.faultLatched
  | held target nowMs leaseMs held recorded => intro hstate; rw [held.state] at hstate; cases hstate
  | renewed nowMs leaseMs leased state lease recorded => exact h
  | faultCleared latched verified => intro hstate; cases hstate
  | bridgeRecovery owner latched state => exact fun _ => latched

/-! ## Dispatch authority -/

/-- A mining owner rests on a complete GOOD run under an accepted policy, kept
alive by nothing but leases. -/
structure MiningAuthority (s : BzmSupervisor) : Prop where
  faultLatched : s.faultLatched = false
  trace : ∃ policy run leases older nowMs leaseMs,
    s.trace = .leaseGranted nowMs leaseMs :: leases ++
      (stageEvents run BzmValidationStage.all ++ .execute policy :: older) ∧
    (∀ event ∈ leases, ∃ nowMs leaseMs, event = .leaseGranted nowMs leaseMs) ∧
    (validatePolicy policy).status = .good ∧
    policy.requestedStage = some .running ∧
    (∀ stage, (run stage).status = .good) ∧
    s.leaseDeadlineMs = nowMs + leaseMs.setWidth 64 ∧
    leaseMs ≤ s.config.maximumLeaseMs

theorem mem_all (stage : BzmValidationStage) : stage ∈ BzmValidationStage.all := by
  cases stage <;> decide

theorem step_miningAuthority (hfault : FaultUnleased s) (h : s.owner = .mining → MiningAuthority s)
    (op : BzmSupervisorOp) (hmining : (s.step op).owner = .mining) :
    MiningAuthority (s.step op) := by
  revert hmining
  have heffect := s.step_effect op
  generalize s.step op = s' at heffect ⊢
  cases heffect with
  | unchanged => exact h
  | blocked target detail request owner =>
    intro hmining
    simp only [blockReport] at hmining
    simp [hmining, BzmSupervisorOwner.isMaintenance] at owner
  | safeOff proven => exact fun hmining => absurd (.inr hmining) proven.unleased
  | safeOffFailed failed => intro hmining; simp [failed.owner] at hmining
  | held target nowMs leaseMs held recorded =>
    intro hmining
    obtain ⟨policy, run, older, htrace, haccepted, hrequested, hgood⟩ := held.trace
    have htarget : target = .running := by
      by_contra hne
      rw [held.owner, if_neg hne] at hmining
      cases hmining
    subst htarget
    exact ⟨held.faultLatched, policy, run, [], older, nowMs, leaseMs, htrace, by simp, haccepted,
      hrequested, fun stage => hgood stage (mem_all stage), held.deadline, held.lease⟩
  | renewed nowMs leaseMs leased state lease recorded =>
    intro hmining
    obtain ⟨hlatched, policy, run, leases, older, nowMs', leaseMs', htrace, hleases, haccepted,
      hrequested, hgood, -, -⟩ := h hmining
    refine ⟨hlatched, policy, run, .leaseGranted nowMs' leaseMs' :: leases, older, nowMs, leaseMs,
      by simp [htrace], ?_, haccepted, hrequested, hgood, rfl, lease⟩
    rintro event (_ | ⟨_, hevent⟩)
    · exact ⟨nowMs', leaseMs', rfl⟩
    · exact hleases event hevent
  | faultCleared latched verified => exact fun hmining => absurd (.inr hmining) (hfault latched)
  | bridgeRecovery owner latched state => intro hmining; cases hmining

/-! ## Energised hardware -/

/-- A `force_safe_off` that returned GOOD. -/
def isGoodSafeOff : BzmValidationEvent → Bool
  | .forceSafeOff result => decide (result.status = .good)
  | _ => false

/-- Some stage from POWER_RAIL on has run since the last GOOD safe-off. -/
def MaybeEnergized (s : BzmSupervisor) : Prop :=
  ∃ stage result, .runStage stage result ∈ since isGoodSafeOff s.trace ∧ .powerRail ≤ stage

/-- Somebody answers for the hardware: a lease-bounded owner holding it, or the
record of a failed shutdown. -/
def Accounted (s : BzmSupervisor) : Prop :=
  (s.leased ∧ s.report.state = .holding ∧ s.leaseDeadlineMs ≠ 0) ∨
  (s.faultLatched = true ∧ s.report.state = .shutdownUnverified ∧ s.report.energized = true)

theorem step_accounted {op : BzmSupervisorOp} (hfault : FaultUnleased s)
    (h : MaybeEnergized s → Accounted s) (hop : ¬ OverwritesUnverified s op)
    (hdeadline : ¬ (s.Takes op ∧ op.deadline = some 0)) (henergized : MaybeEnergized (s.step op)) :
    Accounted (s.step op) := by
  revert henergized
  have heffect := s.step_effect op
  generalize s.step op = s' at heffect ⊢
  cases heffect with
  | unchanged => exact h
  | blocked target detail request owner =>
    intro henergized
    rcases h henergized with ⟨hleased | hleased, -⟩ | ⟨-, hstate, -⟩
    · simp [hleased, BzmSupervisorOwner.isMaintenance] at owner
    · simp [hleased, BzmSupervisorOwner.isMaintenance] at owner
    · exact absurd ⟨by simp [request], owner, hstate⟩ hop
  | safeOff proven =>
    rintro ⟨stage, result, hmem, -⟩
    obtain ⟨off, older, htrace, hgood⟩ := proven.callback
    rw [htrace, since_cons_of_barrier _ (by simp [isGoodSafeOff, hgood])] at hmem
    cases hmem
  | safeOffFailed failed =>
    exact fun _ => .inr ⟨failed.faultLatched, failed.state, failed.energized⟩
  | held target nowMs leaseMs held recorded taken =>
    refine fun _ => .inl ⟨?_, held.state, fun hzero => hdeadline ⟨taken, by rw [recorded, hzero]⟩⟩
    unfold leased
    rw [held.owner]
    split <;> simp
  | renewed nowMs leaseMs leased state lease recorded taken =>
    refine fun _ => .inl ⟨leased, state, fun hzero => hdeadline ⟨taken, ?_⟩⟩
    rw [recorded]
    exact congrArg _ hzero
  | faultCleared latched verified =>
    intro henergized
    rcases h henergized with ⟨hleased, -⟩ | ⟨-, -, hon⟩
    · exact absurd hleased (hfault latched)
    · rw [(safeOffVerified_reportsOff verified).1] at hon
      cases hon
  | bridgeRecovery owner latched state =>
    intro henergized
    rcases h henergized with ⟨hleased, -⟩ | hfailed
    · simp [leased, owner] at hleased
    · exact .inr hfailed

/-! ## Runs -/

/-- A production image with every stage compiled and leases of up to one second. -/
def productionConfig : BzmSupervisorConfig where
  buildMaxStage := some .running
  implementedMaxStage := some .running
  poweredStagesCompiled := true
  productionMode := true
  independentKillAvailable := true
  allowEspOnlyKillInLab := false
  boardManagedSafety := false
  maximumLeaseMs := 1000

/-- The supervisor that `productionConfig` starts with. -/
def productionStart : BzmSupervisor :=
  ⟨productionConfig, BzmValidationReport.zero, .none, 1, 0, false, 0, "", []⟩

def goodResult : BzmStageResult := ⟨.good, .stageOk, ""⟩

def badResult : BzmStageResult := ⟨.bad, .stageFailed, ""⟩

def goodAnswers : BzmSupervisorAnswers := ⟨fun _ => goodResult, goodResult, goodResult⟩

/-- The rail stage fails and so does every safe-off. -/
def deadBridgeAnswers : BzmSupervisorAnswers :=
  ⟨fun stage => if stage = .powerRail then badResult else goodResult, badResult, badResult⟩

/-- A start that fails with an unverified shutdown, the recovery owner, and a
request while it holds the hardware. -/
def requestDuringRecovery : List BzmSupervisorOp :=
  [.requestValidation (some .powerRail) true true 1000 0 deadBridgeAnswers,
    .acquireBridgeRecovery,
    .requestValidation (some .offSafe) false false 0 0 goodAnswers]

/-- A complete start and one heartbeat. -/
def startMining : List BzmSupervisorOp :=
  [.requestValidation (some .running) true true 1000 0 goodAnswers, .heartbeat 500 10]

/-- The state that `bzm_supervisor_init` leaves. -/
theorem init_eq_some {config : BzmSupervisorConfig} {start : BzmSupervisor}
    (h : init config = some start) :
    start = ⟨config, BzmValidationReport.zero, .none, 1, 0, false, 0, "", []⟩ := by
  unfold init at h
  split at h
  · split at h
    · cases h
    · exact (Option.some.inj h).symm
  · cases h

section Runs

variable {config : BzmSupervisorConfig} {start : BzmSupervisor}

theorem run_config (ops : List BzmSupervisorOp) : (run step start ops).config = start.config :=
  run_invariant (P := fun s => s.config = start.config) step
    (fun s op h => (s.step_config op).trans h) rfl ops

theorem run_faultUnleased (hinit : init config = some start) (ops : List BzmSupervisorOp) :
    FaultUnleased (run step start ops) := by
  refine run_invariant (P := FaultUnleased) step (fun s op h => step_faultUnleased h op) ?_ ops
  rw [init_eq_some hinit]
  intro hlatched
  cases hlatched

theorem run_unverifiedLatched (hinit : init config = some start) (ops : List BzmSupervisorOp) :
    UnverifiedLatched (run step start ops) := by
  refine run_invariant (P := UnverifiedLatched) step (fun s op h => step_unverifiedLatched h op)
    ?_ ops
  rw [init_eq_some hinit]
  intro hstate
  cases hstate

theorem run_miningAuthority (hinit : init config = some start) (ops : List BzmSupervisorOp) :
    (run step start ops).owner = .mining → MiningAuthority (run step start ops) := by
  have h := run_invariant
    (P := fun s => FaultUnleased s ∧ (s.owner = .mining → MiningAuthority s)) step
    (s := start) (fun s op h => ⟨step_faultUnleased h.1 op, step_miningAuthority h.1 h.2 op⟩)
  refine (h ⟨?_, ?_⟩ ops).2
  · exact run_faultUnleased hinit []
  · rw [init_eq_some hinit]
    intro hmining
    cases hmining

theorem run_offGrounded (hinit : init config = some start) {ops : List BzmSupervisorOp}
    (hops : Guarded step (fun s op => ¬ OverwritesUnverified s op) start ops) :
    OffGrounded (run step start ops) := by
  refine Guarded.invariant (P := OffGrounded) step
    (fun s op h hop => step_offGrounded h hop) hops ?_
  rw [init_eq_some hinit]
  exact ⟨fun hoff => by simp [ReportsOff, BzmValidationReport.zero] at hoff,
    fun howner => by cases howner⟩

/-- **Verified safe-off.**  While no request for a stage meets a maintenance
owner that sits on an unverified shutdown, a report that says OFF rests on a
newest callback that was a GOOD safe-off, and no request turns an unverified
shutdown into OFF_SAFE. -/
theorem off_report_rests_on_safe_off (hinit : init config = some start)
    {ops : List BzmSupervisorOp}
    (hops : Guarded step (fun s op => ¬ OverwritesUnverified s op) start ops) :
    (ReportsOff (run step start ops) → LastCallbackSafeOff (run step start ops)) ∧
    ∀ targetStage localArm hold leaseMs nowMs answers,
      ¬ OverwritesUnverified (run step start ops)
        (.requestValidation targetStage localArm hold leaseMs nowMs answers) →
      (run step start ops).report.state = .shutdownUnverified →
      ((run step start ops).requestValidation targetStage localArm hold leaseMs nowMs
        answers).2.report.state ≠ .offSafe := by
  refine ⟨(run_offGrounded hinit hops).report, ?_⟩
  intro targetStage localArm hold leaseMs nowMs answers hop hstate
  have hlatched := run_unverifiedLatched hinit ops hstate
  rcases (run step start ops).requestValidation_cases targetStage localArm hold leaseMs nowMs
    answers with ⟨heq, -⟩ | ⟨stage, detail, -, rfl, howner⟩ | ⟨stage, -, -, hheld, -⟩ |
      ⟨-, -, hfault⟩ | ⟨-, hfailed⟩
  · rw [heq, hstate]; decide
  · exact absurd ⟨rfl, howner, hstate⟩ hop
  · rw [hheld.state]; decide
  · rw [hfault hlatched]; decide
  · rw [hfailed.state]; decide

theorem off_report_rests_on_safe_off_stopped :
    LastCallbackSafeOff (run step productionStart (startMining ++ [.stop none goodResult])) := by
  have hinit : init productionConfig = some productionStart := rfl
  refine (off_report_rests_on_safe_off hinit ?_).1 ⟨rfl, .inl rfl⟩
  refine ⟨?_, ?_, ?_, trivial⟩ <;> rintro ⟨-, -, hstate⟩ <;> cases hstate

/-- The blocked request of `requestDuringRecovery` reports OFF_SAFE over a
safe-off that failed. -/
theorem request_during_recovery_reports_off :
    init productionConfig = some productionStart ∧
      ReportsOff (run step productionStart requestDuringRecovery) ∧
      ¬ LastCallbackSafeOff (run step productionStart requestDuringRecovery) := by
  refine ⟨rfl, ⟨rfl, .inl rfl⟩, ?_⟩
  rintro ⟨result, older, hcallbacks, hgood⟩
  have hlast : (callbacks (run step productionStart requestDuringRecovery).trace).head? =
      some (.forceSafeOff badResult) := rfl
  rw [hcallbacks] at hlast
  cases hlast
  cases hgood

/-- **Dispatch authority.**  Allowed dispatch rests on an unlatched supervisor, a
newest validation run with every stage GOOD in increasing order under an
accepted policy, nothing but leases since, and the newest lease's deadline. -/
theorem dispatch_allowed_authority (hinit : init config = some start)
    (ops : List BzmSupervisorOp) {nowMs : U64}
    (hallowed : (run step start ops).dispatchAllowed nowMs = true) :
    (run step start ops).faultLatched = false ∧
    ∃ policy runStage leases older grantedMs leaseMs,
      (run step start ops).trace = .leaseGranted grantedMs leaseMs :: leases ++
        (stageEvents runStage BzmValidationStage.all ++ .execute policy :: older) ∧
      (∀ event ∈ leases, ∃ nowMs leaseMs, event = .leaseGranted nowMs leaseMs) ∧
      (validatePolicy policy).status = .good ∧
      (∀ stage, (runStage stage).status = .good) ∧
      nowMs < (run step start ops).leaseDeadlineMs ∧
      (run step start ops).leaseDeadlineMs = grantedMs + leaseMs.setWidth 64 ∧
      (run step start ops).leaseDeadlineMs.toNat ≤
        grantedMs.toNat + config.maximumLeaseMs.toNat := by
  have howner : (run step start ops).owner = .mining := by
    simp only [dispatchAllowed, Bool.and_eq_true, decide_eq_true_eq] at hallowed
    exact hallowed.1.1.1.1.2
  have hnow : nowMs < (run step start ops).leaseDeadlineMs := by
    simp only [dispatchAllowed, Bool.and_eq_true, decide_eq_true_eq] at hallowed
    exact hallowed.2
  obtain ⟨hlatched, policy, runStage, leases, older, grantedMs, leaseMs, htrace, hleases, haccepted,
    -, hgood, hdeadline, hlease⟩ := run_miningAuthority hinit ops howner
  refine ⟨hlatched, policy, runStage, leases, older, grantedMs, leaseMs, htrace, hleases, haccepted,
    hgood, hnow, hdeadline, ?_⟩
  rw [run_config, init_eq_some hinit] at hlease
  have hle : leaseMs.toNat ≤ config.maximumLeaseMs.toNat := hlease
  have hwide : (leaseMs.setWidth 64).toNat = leaseMs.toNat := by
    rw [BitVec.toNat_setWidth]
    have := leaseMs.isLt
    omega
  rw [hdeadline, BitVec.toNat_add, hwide]
  exact (Nat.mod_le _ _).trans (by omega)

theorem dispatch_allowed_authority_renewed :
    (run step productionStart startMining).dispatchAllowed 400 = true ∧
      (run step productionStart startMining).faultLatched = false := by
  have hinit : init productionConfig = some productionStart := rfl
  have hallowed : (run step productionStart startMining).dispatchAllowed 400 = true := by decide
  exact ⟨hallowed, (dispatch_allowed_authority hinit startMining hallowed).1⟩

/-- **Energised hardware.**  While no request for a stage meets a maintenance
owner that sits on an unverified shutdown and no call is taken whose lease ends at `2 ^ 64`,
hardware that may be energised has a lease-bounded owner or a recorded failed
shutdown; a latched fault never has a leased owner. -/
theorem energized_hardware_accounted (hinit : init config = some start)
    {ops : List BzmSupervisorOp}
    (hops : Guarded step
      (fun s op => ¬ OverwritesUnverified s op ∧ ¬ (s.Takes op ∧ op.deadline = some 0))
      start ops) :
    (MaybeEnergized (run step start ops) → Accounted (run step start ops)) ∧
    ((run step start ops).faultLatched = true → ¬ (run step start ops).leased) := by
  have h := Guarded.invariant
    (P := fun s => FaultUnleased s ∧ (MaybeEnergized s → Accounted s)) step
    (fun s op h hop => ⟨step_faultUnleased h.1 op, step_accounted h.1 h.2 hop.1 hop.2⟩) hops
    ⟨run_faultUnleased hinit [], ?_⟩
  · exact ⟨h.2, run_faultUnleased hinit ops⟩
  · rw [init_eq_some hinit]
    rintro ⟨stage, result, hmem, -⟩
    cases hmem

theorem energized_hardware_accounted_mining :
    MaybeEnergized (run step productionStart startMining) ∧
      Accounted (run step productionStart startMining) := by
  have henergized : MaybeEnergized (run step productionStart startMining) :=
    ⟨.running, goodResult, .tail _ (.tail _ (.head _)), by decide⟩
  have hinit : init productionConfig = some productionStart := rfl
  refine ⟨henergized, (energized_hardware_accounted hinit ?_).1 henergized⟩
  refine ⟨⟨?_, fun h => absurd h.2 (by decide)⟩, ⟨?_, fun h => absurd h.2 (by decide)⟩,
    trivial⟩ <;> rintro ⟨-, -, hstate⟩ <;> cases hstate

/-- After `requestDuringRecovery` the rail stage has run with no GOOD safe-off
since, and the report no longer says so. -/
theorem request_during_recovery_unaccounted :
    init productionConfig = some productionStart ∧
      MaybeEnergized (run step productionStart requestDuringRecovery) ∧
      ¬ Accounted (run step productionStart requestDuringRecovery) := by
  refine ⟨rfl, ⟨.powerRail, badResult, .tail _ (.head _), by decide⟩, ?_⟩
  rintro (⟨-, hstate, -⟩ | ⟨-, hstate, -⟩) <;> cases hstate

end Runs

end BzmSupervisor

end EspMiner
