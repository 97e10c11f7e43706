import EspMiner.Bzm.Validation

/-!
# The Bonanza supervisor

`components/asic/bzm_supervisor.c`: one owner of the hardware at a time, leases
that bound how long it stays energised, latched faults and the exclusive
maintenance owners.  A value of `BzmSupervisor` is an initialised supervisor;
its `trace` records what the callbacks saw and has no counterpart in the source.
-/

namespace EspMiner

/-- `bzm_supervisor_owner_t` -/
inductive BzmSupervisorOwner where
  | none
  | validation
  | mining
  | bridgeUpdate
  | factoryTest
  | espOta
  | espRestart
deriving DecidableEq, Repr

/-- `maintenance_owner` -/
def BzmSupervisorOwner.isMaintenance : BzmSupervisorOwner → Bool
  | bridgeUpdate | factoryTest | espOta | espRestart => true
  | none | validation | mining => false

def BZM_SUPERVISOR_FAULT_DETAIL_LENGTH : Nat := 160

/-- `bzm_supervisor_config_t` -/
structure BzmSupervisorConfig where
  buildMaxStage : BzmStageValue
  implementedMaxStage : BzmStageValue
  poweredStagesCompiled : Bool
  productionMode : Bool
  independentKillAvailable : Bool
  allowEspOnlyKillInLab : Bool
  boardManagedSafety : Bool
  maximumLeaseMs : U32
deriving DecidableEq

/-- `bzm_supervisor_t` -/
structure BzmSupervisor where
  config : BzmSupervisorConfig
  report : BzmValidationReport
  owner : BzmSupervisorOwner
  nextRunId : U32
  leaseDeadlineMs : U64
  faultLatched : Bool
  faultCode : U32
  faultDetail : String
  trace : List BzmValidationEvent

/-- What the callbacks answer during one operation: the stages of a validation
run, the safe-off of a stop and the safe-off that ends the validation run. -/
structure BzmSupervisorAnswers where
  runStage : BzmValidationStage → BzmStageResult
  stopSafeOff : BzmStageResult
  runSafeOff : BzmStageResult

namespace BzmSupervisor

/-- `bzm_supervisor_init` -/
def init (config : BzmSupervisorConfig) : Option BzmSupervisor :=
  match config.buildMaxStage, config.implementedMaxStage with
  | some buildMax, some implementedMax =>
      if implementedMax < buildMax ∨ config.maximumLeaseMs = 0 then none
      else some {
        config := config
        report := BzmValidationReport.zero
        owner := .none
        nextRunId := 1
        leaseDeadlineMs := 0
        faultLatched := false
        faultCode := 0
        faultDetail := ""
        trace := [] }
  | _, _ => none

/-- `set_fault_detail` -/
def setFaultDetail (s : BzmSupervisor) (detail : Option String) : BzmSupervisor :=
  { s with
    faultDetail := copyDetail BZM_SUPERVISOR_FAULT_DETAIL_LENGTH
      (detail.getD "unspecified Bonanza fault") }

/-- `supervisor->report.state = state` -/
def setState (s : BzmSupervisor) (state : BzmValidationState) : BzmSupervisor :=
  { s with report := { s.report with state := state } }

/-- `block_report` -/
def blockReport (s : BzmSupervisor) (targetStage : BzmValidationStage) (detail : String) :
    BzmSupervisor :=
  { s with
    nextRunId := s.nextRunId + 1
    report := { BzmValidationReport.zero with
      schemaVersion := BZM_VALIDATION_SCHEMA_VERSION
      runId := s.nextRunId
      requestedStage := some targetStage
      buildMaxStage := s.config.buildMaxStage
      implementedMaxStage := s.config.implementedMaxStage
      overall := .blocked
      state := .offSafe
      stages := Function.update BzmValidationReport.zero.stages targetStage
        (bzmValidationResult .blocked .prerequisiteFailed detail)
      finalSafeOff := bzmValidationResult .notRun .none
        "request was blocked before hardware execution" } }

/-- The fault bookkeeping that a failed stop and a failed validation share: the
first cause is kept. -/
def latchFirst (s : BzmSupervisor) (code : BzmValidationCode) (detail : Option String) :
    BzmSupervisor :=
  let s := { s with faultLatched := true }
  if s.faultCode = 0 then ({ s with faultCode := code.value }).setFaultDetail detail else s

/-- `stop_internal` -/
def stopInternal (s : BzmSupervisor) (reason : Option String) (preemptMaintenance : Bool)
    (safeOff : BzmStageResult) : Bool × BzmSupervisor :=
  if !preemptMaintenance && s.owner.isMaintenance then (false, s)
  else
    let s := { s with
      trace := .forceSafeOff safeOff :: s.trace
      leaseDeadlineMs := 0
      owner := .none
      report := { s.report with
        finalSafeOff := safeOff
        energized := decide (safeOff.status ≠ BzmCheckStatus.good) } }
    if safeOff.status ≠ .good then
      let s := s.latchFirst .safeOffFailed
        (if safeOff.detail ≠ "" then some safeOff.detail else reason)
      (false, { s with report := { s.report with overall := .bad, state := .shutdownUnverified } })
    else
      (true, s.setState (if s.faultLatched then .faultLatched else .offSafe))

/-- `bzm_supervisor_stop` -/
def stop (s : BzmSupervisor) (reason : Option String) (safeOff : BzmStageResult) :
    Bool × BzmSupervisor :=
  s.stopInternal reason false safeOff

/-- The policy that `bzm_supervisor_request_validation` builds. -/
def policyFor (s : BzmSupervisor) (targetStage : BzmValidationStage)
    (localArmPresent holdAfterSuccess : Bool) (leaseMs : U32) : BzmValidationPolicy where
  runId := s.nextRunId
  requestedStage := some targetStage
  buildMaxStage := s.config.buildMaxStage
  implementedMaxStage := s.config.implementedMaxStage
  poweredStagesCompiled := s.config.poweredStagesCompiled
  localArmPresent := localArmPresent
  productionMode := s.config.productionMode
  independentKillAvailable := s.config.independentKillAvailable
  allowEspOnlyKillInLab := s.config.allowEspOnlyKillInLab
  boardManagedSafety := s.config.boardManagedSafety
  holdAfterSuccess := holdAfterSuccess
  leaseMs := leaseMs

/-- The end of `bzm_supervisor_request_validation`: what a validation run leaves
in the supervisor. -/
def recordRun (s : BzmSupervisor) (targetStage : BzmValidationStage) (leaseMs : U32) (nowMs : U64)
    (completed : Bool) (report : BzmValidationReport) (events : List BzmValidationEvent) :
    Bool × BzmSupervisor :=
  let s := { s with
    nextRunId := s.nextRunId + 1
    report := report
    trace := events ++ s.trace }
  if completed = false then
    let s := { s with owner := .none, leaseDeadlineMs := 0 }
    let s := if s.report.overall = .bad then
        s.latchFirst .stageFailed (some "startup step failed")
      else s
    (false,
      if s.faultLatched = true ∧ s.report.state ≠ .shutdownUnverified then
        s.setState .faultLatched
      else s)
  else
    let s := if s.report.state = .holding then
        { s with
          owner := if targetStage = .running then .mining else .validation
          leaseDeadlineMs := nowMs + leaseMs.setWidth 64
          trace := .leaseGranted nowMs leaseMs :: s.trace }
      else { s with owner := .none, leaseDeadlineMs := 0 }
    (true, if s.faultLatched then s.setState .faultLatched else s)

/-- The validation run of `bzm_supervisor_request_validation`, after its rejections. -/
def runValidation (s : BzmSupervisor) (targetStage : BzmValidationStage)
    (localArmPresent holdAfterSuccess : Bool) (leaseMs : U32) (nowMs : U64)
    (answers : BzmSupervisorAnswers) : Bool × BzmSupervisor :=
  let policy := s.policyFor targetStage localArmPresent holdAfterSuccess leaseMs
  let (completed, report, events) :=
    bzmValidationExecute policy ⟨some answers.runStage, some answers.runSafeOff⟩
  s.recordRun targetStage leaseMs nowMs completed report events

/-- `bzm_supervisor_request_validation` -/
def requestValidation (s : BzmSupervisor) (targetStage : BzmStageValue)
    (localArmPresent holdAfterSuccess : Bool) (leaseMs : U32) (nowMs : U64)
    (answers : BzmSupervisorAnswers) : Bool × BzmSupervisor :=
  match targetStage with
  | none => (false, s)
  | some targetStage =>
      if s.owner.isMaintenance then
        (false, s.blockReport targetStage "exclusive maintenance lease is active")
      else if s.faultLatched = true ∧ targetStage ≠ .offSafe then
        let s := s.blockReport targetStage "latched fault requires a new OFF_SAFE proof and clear"
        (false, (s.stop (some "fault-latched start rejected") answers.stopSafeOff).2)
      else if s.config.maximumLeaseMs < leaseMs then
        let s := s.blockReport targetStage "requested lease exceeds the compiled maximum"
        (false, (s.stop (some "invalid validation lease") answers.stopSafeOff).2)
      else
        let (ready, s) := if s.owner ≠ .none then
            s.stop (some "replacing active validation") answers.stopSafeOff
          else (true, s)
        if ready = false then (false, s)
        else s.runValidation targetStage localArmPresent holdAfterSuccess leaseMs nowMs answers

/-- The two owners that a lease bounds. -/
def leased (s : BzmSupervisor) : Prop := s.owner = .validation ∨ s.owner = .mining

instance (s : BzmSupervisor) : Decidable s.leased :=
  inferInstanceAs (Decidable (s.owner = .validation ∨ s.owner = .mining))

/-- `bzm_supervisor_tick` -/
def tick (s : BzmSupervisor) (nowMs : U64) (safeOff : BzmStageResult) : Bool × BzmSupervisor :=
  if s.leased ∧ s.leaseDeadlineMs ≠ 0 ∧ s.leaseDeadlineMs ≤ nowMs then
    s.stop (some "validation lease expired") safeOff
  else (true, s)

/-- `bzm_supervisor_heartbeat` -/
def heartbeat (s : BzmSupervisor) (leaseMs : U32) (nowMs : U64) : Bool × BzmSupervisor :=
  if ¬ s.leased ∨ s.report.state ≠ .holding ∨ leaseMs = 0 ∨ s.config.maximumLeaseMs < leaseMs ∨
      s.leaseDeadlineMs ≤ nowMs then
    (false, s)
  else
    (true, { s with
      leaseDeadlineMs := nowMs + leaseMs.setWidth 64
      report := { s.report with leaseMs := leaseMs }
      trace := .leaseGranted nowMs leaseMs :: s.trace })

/-- `bzm_supervisor_latch_fault` -/
def latchFault (s : BzmSupervisor) (faultCode : U32) (detail : Option String)
    (safeOff : BzmStageResult) : Bool × BzmSupervisor :=
  if faultCode = 0 then (false, s)
  else
    let s := if s.faultLatched then s
      else ({ s with faultCode := faultCode }).setFaultDetail detail
    let (off, s) := ({ s with faultLatched := true }).stopInternal detail true safeOff
    let s := { s with report := { s.report with overall := .bad } }
    (off, if off then s.setState .faultLatched else s)

/-- `bzm_supervisor_safe_off_verified` -/
def safeOffVerified (s : BzmSupervisor) : Bool :=
  !s.report.energized && decide ((s.report.stages .offSafe).status = .good) &&
    decide (s.report.finalSafeOff.status = .good) &&
    (decide (s.report.state = .offSafe) || decide (s.report.state = .faultLatched))

/-- `bzm_supervisor_clear_fault` -/
def clearFault (s : BzmSupervisor) : Bool × BzmSupervisor :=
  if s.faultLatched = false ∨ s.report.requestedStage ≠ some .offSafe ∨
      s.safeOffVerified = false then
    (false, s)
  else
    (true, ({ s with
      faultLatched := false
      faultCode := 0
      faultDetail := "" }).setState .offSafe)

/-- `bzm_supervisor_acquire_maintenance` -/
def acquireMaintenance (s : BzmSupervisor) (owner : BzmSupervisorOwner) (nowMs : U64)
    (answers : BzmSupervisorAnswers) : Bool × BzmSupervisor :=
  if owner.isMaintenance = false ∨ s.owner.isMaintenance = true then (false, s)
  else
    let (safe, s) := if s.owner = .none then
        s.requestValidation (some .offSafe) false false 0 nowMs answers
      else s.stop (some "maintenance requested") answers.stopSafeOff
    if safe = false ∨ s.safeOffVerified = false then (false, s)
    else
      let (cleared, s) := if s.faultLatched then s.clearFault else (true, s)
      if cleared = false then (false, s) else (true, { s with owner := owner })

/-- `bzm_supervisor_acquire_bridge_recovery` -/
def acquireBridgeRecovery (s : BzmSupervisor) : Bool × BzmSupervisor :=
  if s.owner ≠ .none ∨ s.faultLatched = false ∨ s.report.state ≠ .shutdownUnverified then
    (false, s)
  else (true, { s with owner := .bridgeUpdate, leaseDeadlineMs := 0 })

/-- `bzm_supervisor_release_maintenance` -/
def releaseMaintenance (s : BzmSupervisor) (owner : BzmSupervisorOwner)
    (safeOff : BzmStageResult) : Bool × BzmSupervisor :=
  if owner.isMaintenance = false ∨ s.owner ≠ owner then (false, s)
  else
    let bridgeRecovery := decide (owner = .bridgeUpdate) && s.faultLatched &&
      decide (s.report.state = .shutdownUnverified)
    let (off, s) := s.stopInternal (some "maintenance released") true safeOff
    let s := if bridgeRecovery && off then
        { s with report := { s.report.setStage .offSafe s.report.finalSafeOff with
          requestedStage := some .offSafe
          reachedStage := .offSafe } }
      else s
    (off, { s with owner := .none })

/-- `bzm_supervisor_prepare_restart` -/
def prepareRestart (s : BzmSupervisor) (safeOff : BzmStageResult) : Bool × BzmSupervisor :=
  if s.owner.isMaintenance then (false, s)
  else
    let (off, s) := s.stop (some "ESP restart requested") safeOff
    if off = false ∨ s.safeOffVerified = false then (false, s)
    else (true, { s with owner := .espRestart })

/-- `bzm_supervisor_dispatch_allowed` -/
def dispatchAllowed (s : BzmSupervisor) (nowMs : U64) : Bool :=
  !s.faultLatched && decide (s.owner = .mining) && decide (s.report.state = .holding) &&
    decide (s.report.overall = .good) && decide (s.report.reachedStage = .running) &&
    decide (nowMs < s.leaseDeadlineMs)

end BzmSupervisor

/-- A call of one supervisor operation, with what its callbacks will answer. -/
inductive BzmSupervisorOp where
  | requestValidation (targetStage : BzmStageValue) (localArmPresent holdAfterSuccess : Bool)
      (leaseMs : U32) (nowMs : U64) (answers : BzmSupervisorAnswers)
  | stop (reason : Option String) (safeOff : BzmStageResult)
  | tick (nowMs : U64) (safeOff : BzmStageResult)
  | heartbeat (leaseMs : U32) (nowMs : U64)
  | latchFault (faultCode : U32) (detail : Option String) (safeOff : BzmStageResult)
  | clearFault
  | acquireMaintenance (owner : BzmSupervisorOwner) (nowMs : U64) (answers : BzmSupervisorAnswers)
  | acquireBridgeRecovery
  | releaseMaintenance (owner : BzmSupervisorOwner) (safeOff : BzmStageResult)
  | prepareRestart (safeOff : BzmStageResult)

/-- The supervisor after one operation. -/
def BzmSupervisor.step (s : BzmSupervisor) : BzmSupervisorOp → BzmSupervisor
  | .requestValidation targetStage localArmPresent holdAfterSuccess leaseMs nowMs answers =>
      (s.requestValidation targetStage localArmPresent holdAfterSuccess leaseMs nowMs answers).2
  | .stop reason safeOff => (s.stop reason safeOff).2
  | .tick nowMs safeOff => (s.tick nowMs safeOff).2
  | .heartbeat leaseMs nowMs => (s.heartbeat leaseMs nowMs).2
  | .latchFault faultCode detail safeOff => (s.latchFault faultCode detail safeOff).2
  | .clearFault => s.clearFault.2
  | .acquireMaintenance owner nowMs answers => (s.acquireMaintenance owner nowMs answers).2
  | .acquireBridgeRecovery => s.acquireBridgeRecovery.2
  | .releaseMaintenance owner safeOff => (s.releaseMaintenance owner safeOff).2
  | .prepareRestart safeOff => (s.prepareRestart safeOff).2

end EspMiner
