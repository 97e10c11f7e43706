import EspMiner.Asic.Job
import Mathlib.Logic.Function.Basic

/-!
# Staged start-up validation

`components/asic/bzm_validation.c`: a policy is checked, the start-up stages are
run in order through the board's callbacks, and every run that does not end
holding the hardware ends with a forced safe-off.  What the callbacks answered
is recorded newest first.
-/

namespace EspMiner

/-- `bzm_validation_stage_t` -/
inductive BzmValidationStage where
  | offSafe
  | controls
  | powerRail
  | chain4
  | sensors
  | clocks
  | balancedRamp
  | running
deriving DecidableEq, Repr

namespace BzmValidationStage

/-- The stages in the order of the enumeration. -/
def all : List BzmValidationStage :=
  [offSafe, controls, powerRail, chain4, sensors, clocks, balancedRamp, running]

/-- The enumeration's number for a stage. -/
def index : BzmValidationStage → Nat
  | offSafe => 0
  | controls => 1
  | powerRail => 2
  | chain4 => 3
  | sensors => 4
  | clocks => 5
  | balancedRamp => 6
  | running => 7

instance : LE BzmValidationStage := ⟨fun a b => a.index ≤ b.index⟩

instance : DecidableRel (α := BzmValidationStage) (· ≤ ·) :=
  fun a b => inferInstanceAs (Decidable (a.index ≤ b.index))

instance : LT BzmValidationStage := ⟨fun a b => a.index < b.index⟩

instance : DecidableRel (α := BzmValidationStage) (· < ·) :=
  fun a b => inferInstanceAs (Decidable (a.index < b.index))

/-- The stages that the loop `for (stage = BZM_STAGE_OFF_SAFE; stage <= requested; ++stage)`
visits. -/
def upTo (requested : BzmValidationStage) : List BzmValidationStage :=
  all.filter fun stage => decide (stage ≤ requested)

end BzmValidationStage

/-- A C value of type `bzm_validation_stage_t`; `none` is any number outside the
enumeration, so that `valid_stage` is `Option.isSome`. -/
abbrev BzmStageValue := Option BzmValidationStage

/-- `bzm_check_status_t` -/
inductive BzmCheckStatus where
  | notRun
  | running
  | good
  | bad
  | blocked
  | skipped
deriving DecidableEq, Repr

/-- `bzm_validation_code_t` -/
inductive BzmValidationCode where
  | none
  | stageOk
  | stageFailed
  | invalidConfiguration
  | buildCeiling
  | notImplemented
  | powerNotCompiled
  | localArmRequired
  | independentKillRequired
  | powerLeaseRequired
  | prerequisiteFailed
  | safeOffFailed
deriving DecidableEq, Repr

/-- The enumeration's number for a code. -/
def BzmValidationCode.value : BzmValidationCode → U32
  | .none => 0
  | .stageOk => 1
  | .stageFailed => 2
  | .invalidConfiguration => 3
  | .buildCeiling => 4
  | .notImplemented => 5
  | .powerNotCompiled => 6
  | .localArmRequired => 7
  | .independentKillRequired => 8
  | .powerLeaseRequired => 9
  | .prerequisiteFailed => 10
  | .safeOffFailed => 11

/-- `bzm_validation_state_t` -/
inductive BzmValidationState where
  | idle
  | executing
  | offSafe
  | holding
  | faultLatched
  | shutdownUnverified
deriving DecidableEq, Repr

def BZM_VALIDATION_DETAIL_LENGTH : Nat := 160

/-- `snprintf(destination, length, "%s", detail)` on an ASCII text. -/
def copyDetail (length : Nat) (detail : String) : String :=
  String.ofList (detail.toList.take (length - 1))

/-- `bzm_stage_result_t` -/
structure BzmStageResult where
  status : BzmCheckStatus
  code : BzmValidationCode
  detail : String
deriving DecidableEq, Repr

/-- `bzm_validation_result` -/
def bzmValidationResult (status : BzmCheckStatus) (code : BzmValidationCode) (detail : String) :
    BzmStageResult :=
  ⟨status, code, copyDetail BZM_VALIDATION_DETAIL_LENGTH detail⟩

/-- `blocked` -/
def blocked (code : BzmValidationCode) (detail : String) : BzmStageResult :=
  bzmValidationResult .blocked code detail

/-- `bzm_validation_policy_t` -/
structure BzmValidationPolicy where
  runId : U32
  requestedStage : BzmStageValue
  buildMaxStage : BzmStageValue
  implementedMaxStage : BzmStageValue
  poweredStagesCompiled : Bool
  localArmPresent : Bool
  productionMode : Bool
  independentKillAvailable : Bool
  allowEspOnlyKillInLab : Bool
  boardManagedSafety : Bool
  holdAfterSuccess : Bool
  leaseMs : U32
deriving DecidableEq

/-- `bzm_validation_report_t` -/
structure BzmValidationReport where
  schemaVersion : U8
  runId : U32
  requestedStage : BzmStageValue
  buildMaxStage : BzmStageValue
  implementedMaxStage : BzmStageValue
  reachedStage : BzmValidationStage
  overall : BzmCheckStatus
  state : BzmValidationState
  energized : Bool
  leaseMs : U32
  stages : BzmValidationStage → BzmStageResult
  finalSafeOff : BzmStageResult

/-- The all-zero report that `memset` leaves. -/
def BzmValidationReport.zero : BzmValidationReport where
  schemaVersion := 0
  runId := 0
  requestedStage := some .offSafe
  buildMaxStage := some .offSafe
  implementedMaxStage := some .offSafe
  reachedStage := .offSafe
  overall := .notRun
  state := .idle
  energized := false
  leaseMs := 0
  stages := fun _ => ⟨.notRun, .none, ""⟩
  finalSafeOff := ⟨.notRun, .none, ""⟩

/-- `report->stages[stage] = result` -/
def BzmValidationReport.setStage (report : BzmValidationReport) (stage : BzmValidationStage)
    (result : BzmStageResult) : BzmValidationReport :=
  { report with stages := Function.update report.stages stage result }

def BZM_VALIDATION_SCHEMA_VERSION : U8 := 1

/-- `bzm_validation_ops_t` together with what its callbacks answer during one
run: `run_stage` is called at most once for each stage, `force_safe_off` at most
once.  `none` is a missing callback. -/
structure BzmValidationOps where
  runStage : Option (BzmValidationStage → BzmStageResult)
  forceSafeOff : Option BzmStageResult

/-- What a validation run did, as its callbacks saw it, and the leases that the
supervisor granted. -/
inductive BzmValidationEvent where
  | execute (policy : BzmValidationPolicy)
  | runStage (stage : BzmValidationStage) (result : BzmStageResult)
  | forceSafeOff (result : BzmStageResult)
  | leaseGranted (nowMs : U64) (leaseMs : U32)

/-- `initialize_report` -/
def initializeReport (policy : BzmValidationPolicy) : BzmValidationReport :=
  { BzmValidationReport.zero with
    schemaVersion := BZM_VALIDATION_SCHEMA_VERSION
    runId := policy.runId
    requestedStage := policy.requestedStage
    buildMaxStage := policy.buildMaxStage
    implementedMaxStage := policy.implementedMaxStage
    reachedStage := .offSafe
    overall := .notRun
    state := .idle
    leaseMs := policy.leaseMs
    stages := fun _ => bzmValidationResult .notRun .none "not requested"
    finalSafeOff := bzmValidationResult .notRun .none "final safe-off has not run" }

/-- `normalize_stage_result` -/
def normalizeStageResult (result : BzmStageResult) : BzmStageResult :=
  match result.status with
  | .good => if result.code = .none then { result with code := .stageOk } else result
  | .bad | .blocked => if result.code = .none then { result with code := .stageFailed } else result
  | .notRun | .running | .skipped =>
      bzmValidationResult .bad .stageFailed "stage runner returned an invalid terminal status"

@[simp] theorem normalizeStageResult_status_eq_good {result : BzmStageResult} :
    (normalizeStageResult result).status = .good ↔ result.status = .good := by
  unfold normalizeStageResult
  cases h : result.status <;> simp only
  all_goals first | (split <;> simp [h]) | simp [bzmValidationResult]

/-- `force_safe_off` -/
def forceSafeOff (answer : Option BzmStageResult) (report : BzmValidationReport) :
    Bool × BzmValidationReport :=
  let result := match answer with
    | some result => normalizeStageResult result
    | none => bzmValidationResult .bad .safeOffFailed "safe-off operation is unavailable"
  if result.status ≠ .good then
    let result := { result with
      status := .bad
      code := .safeOffFailed
      detail :=
        if result.detail = "" then
          copyDetail BZM_VALIDATION_DETAIL_LENGTH "safe-off could not be verified"
        else result.detail }
    (false, { report with
      finalSafeOff := result
      overall := .bad
      state := .shutdownUnverified
      energized := true })
  else
    (true, { report with
      finalSafeOff := result
      state := if report.overall = .bad then .faultLatched else .offSafe
      energized := false })

/-- `skip_after` -/
def skipAfter (report : BzmValidationReport) (requested failed : BzmValidationStage) :
    BzmValidationReport :=
  { report with
    stages := fun stage =>
      if failed < stage ∧ stage ≤ requested then
        bzmValidationResult .skipped .prerequisiteFailed
          "an earlier startup step did not complete GOOD"
      else report.stages stage }

/-- `validate_policy` -/
def validatePolicy (policy : BzmValidationPolicy) : BzmStageResult :=
  match policy.requestedStage, policy.buildMaxStage, policy.implementedMaxStage with
  | some requested, some buildMax, some implementedMax =>
      let attendedLabAuthority := !policy.productionMode && policy.allowEspOnlyKillInLab
      if implementedMax < buildMax then
        blocked .notImplemented "build ceiling exceeds the implemented stage ceiling"
      else if buildMax < requested then
        blocked .buildCeiling "requested stage exceeds this image's build ceiling"
      else if .powerRail ≤ requested ∧ policy.poweredStagesCompiled = false then
        blocked .powerNotCompiled "this image cannot energize the ASIC rail"
      else if .powerRail ≤ requested ∧ policy.localArmPresent = false then
        blocked .localArmRequired "powered startup requires local controller authority"
      else if .powerRail ≤ requested ∧ policy.independentKillAvailable = false ∧
          policy.boardManagedSafety = false ∧ attendedLabAuthority = false then
        blocked .independentKillRequired
          "neither independent kill nor accepted board-managed fixed-voltage safety is configured"
      else if .powerRail ≤ requested ∧ policy.leaseMs = 0 then
        blocked .powerLeaseRequired "powered startup requires a bounded watchdog"
      else bzmValidationResult .good .stageOk "validation policy accepted"
  | _, _, _ => blocked .invalidConfiguration "stage values are outside the validation schema"

/-- The stage loop of `bzm_validation_execute`: the report it leaves, whether
every stage was GOOD, and the calls it made, newest first. -/
def runStages (requested : BzmValidationStage) (run : BzmValidationStage → BzmStageResult) :
    List BzmValidationStage → BzmValidationReport → List BzmValidationEvent →
      Bool × BzmValidationReport × List BzmValidationEvent
  | [], report, events => (true, report, events)
  | stage :: later, report, events =>
      let report := report.setStage stage
        (bzmValidationResult .running .none "stage is executing")
      let result := normalizeStageResult (run stage)
      let events := .runStage stage (run stage) :: events
      let report := report.setStage stage result
      if result.status ≠ .good then
        (false, skipAfter { report with overall := result.status } requested stage, events)
      else
        runStages requested run later
          { report with
            reachedStage := stage
            energized := report.energized || decide (.powerRail ≤ stage) } events

/-- The call of `force_safe_off`, if there is one to make. -/
def BzmValidationOps.safeOffEvents (ops : BzmValidationOps) : List BzmValidationEvent :=
  (ops.forceSafeOff.map BzmValidationEvent.forceSafeOff).toList

/-- `bzm_validation_execute`: its answer, the report and the calls it made,
newest first. -/
def bzmValidationExecute (policy : BzmValidationPolicy) (ops : BzmValidationOps) :
    Bool × BzmValidationReport × List BzmValidationEvent :=
  let report := initializeReport policy
  let finish (report : BzmValidationReport) (events : List BzmValidationEvent) :=
    let (off, report) := forceSafeOff ops.forceSafeOff report
    (off, report, ops.safeOffEvents ++ events)
  match ops.runStage with
  | none =>
      let report := { report with overall := .blocked }
      let (_, report, events) := finish
        (report.setStage .offSafe
          (blocked .invalidConfiguration "startup step runner is unavailable"))
        [.execute policy]
      (false, report, events)
  | some run =>
      let policyResult := validatePolicy policy
      match policy.requestedStage, decide (policyResult.status = .good) with
      | some requested, true =>
          let report := { report with state := .executing, overall := .good }
          let (completed, report, events) :=
            runStages requested run requested.upTo report [.execute policy]
          if completed = false then
            let (_, report, events) := finish report events
            (false, report, events)
          else if .powerRail ≤ requested ∧ policy.holdAfterSuccess = true then
            (true, { report with state := .holding, energized := true }, events)
          else finish report events
      | requested, _ =>
          let report := { report with overall := .blocked }
          let (_, report, events) := finish
            (report.setStage (requested.getD .offSafe) policyResult) [.execute policy]
          (false, report, events)

/-! ### What a run can end in -/

theorem forceSafeOff_of_good {result : BzmStageResult} (h : result.status = .good)
    (report : BzmValidationReport) :
    (forceSafeOff (some result) report).1 = true ∧
      (forceSafeOff (some result) report).2.energized = false ∧
      ((forceSafeOff (some result) report).2.state = .offSafe ∨
        (forceSafeOff (some result) report).2.state = .faultLatched) := by
  have hgood : (normalizeStageResult result).status = .good := by simpa using h
  refine ⟨by simp [forceSafeOff, hgood], by simp [forceSafeOff, hgood], ?_⟩
  by_cases hbad : report.overall = .bad
  · exact .inr (by simp [forceSafeOff, hgood, hbad])
  · exact .inl (by simp [forceSafeOff, hgood, hbad])

theorem forceSafeOff_of_not_good {result : BzmStageResult} (h : result.status ≠ .good)
    (report : BzmValidationReport) :
    (forceSafeOff (some result) report).1 = false ∧
      (forceSafeOff (some result) report).2.energized = true ∧
      (forceSafeOff (some result) report).2.state = .shutdownUnverified ∧
      (forceSafeOff (some result) report).2.overall = .bad := by
  have hbad : (normalizeStageResult result).status ≠ .good := by simpa using h
  simp [forceSafeOff, hbad]

/-- The calls of a stage loop that ran all of `stages`, newest first. -/
def stageEvents (run : BzmValidationStage → BzmStageResult) (stages : List BzmValidationStage) :
    List BzmValidationEvent :=
  (stages.map fun stage => .runStage stage (run stage)).reverse

theorem runStages_completed {requested : BzmValidationStage}
    {run : BzmValidationStage → BzmStageResult} {stages : List BzmValidationStage}
    {report : BzmValidationReport} {events : List BzmValidationEvent}
    (h : (runStages requested run stages report events).1 = true) :
    (∀ stage ∈ stages, (run stage).status = .good) ∧
      (runStages requested run stages report events).2.1.overall = report.overall ∧
      (runStages requested run stages report events).2.1.reachedStage =
        stages.getLastD report.reachedStage ∧
      (runStages requested run stages report events).2.2 = stageEvents run stages ++ events := by
  induction stages generalizing report events with
  | nil => simp [runStages, stageEvents]
  | cons stage later ih =>
    by_cases hgood : (run stage).status = .good
    · have hresult : (normalizeStageResult (run stage)).status = .good := by simpa using hgood
      simp only [runStages, hresult, ne_eq, not_true_eq_false, if_false] at h ⊢
      obtain ⟨hrest, hoverall, hreached, hevents⟩ := ih h
      refine ⟨?_, hoverall, ?_, ?_⟩
      · simpa [hgood] using hrest
      · rw [hreached, List.getLastD_cons]
      · rw [hevents]
        simp [stageEvents]
    · have hresult : (normalizeStageResult (run stage)).status ≠ .good := by simpa using hgood
      simp [runStages, hresult] at h

/-- A run that ended holding the hardware: an accepted policy, every stage up to
the requested one GOOD, and no safe-off. -/
structure BzmHeldRun (policy : BzmValidationPolicy) (run : BzmValidationStage → BzmStageResult)
    (requested : BzmValidationStage) (report : BzmValidationReport)
    (events : List BzmValidationEvent) : Prop where
  accepted : (validatePolicy policy).status = .good
  requestedStage : policy.requestedStage = some requested
  powered : .powerRail ≤ requested
  hold : policy.holdAfterSuccess = true
  stagesGood : ∀ stage ∈ requested.upTo, (run stage).status = .good
  state : report.state = .holding
  energized : report.energized = true
  overall : report.overall = .good
  reachedStage : report.reachedStage = requested
  events : events = stageEvents run requested.upTo ++ [.execute policy]

theorem getLastD_upTo (requested initial : BzmValidationStage) :
    requested.upTo.getLastD initial = requested := by
  cases requested <;> rfl

/-- **Outcomes of a validation run.**  With both callbacks present a run either
ends holding the hardware or ends with its safe-off. -/
theorem bzmValidationExecute_cases (policy : BzmValidationPolicy)
    (run : BzmValidationStage → BzmStageResult) (off : BzmStageResult) :
    (∃ requested report events,
      bzmValidationExecute policy ⟨some run, some off⟩ = (true, report, events) ∧
        BzmHeldRun policy run requested report events) ∨
    (∃ completed before events,
      bzmValidationExecute policy ⟨some run, some off⟩ =
        (completed, (forceSafeOff (some off) before).2, .forceSafeOff off :: events) ∧
      (completed = true → off.status = .good)) := by
  have hoff : ∀ before, (forceSafeOff (some off) before).1 = true → off.status = .good := by
    intro before h
    by_contra hbad
    rw [(forceSafeOff_of_not_good hbad before).1] at h
    cases h
  unfold bzmValidationExecute
  simp only [BzmValidationOps.safeOffEvents, Option.map_some, Option.toList_some,
    List.cons_append, List.nil_append]
  split
  · next requested hrequested haccepted =>
    split
    · exact .inr ⟨false, _, _, rfl, by simp⟩
    · next hcompleted =>
      split
      · next hhold =>
        obtain ⟨hgood, hoverall, hreached, hevents⟩ :=
          runStages_completed (by simpa using hcompleted)
        refine .inl ⟨requested, _, _, rfl, ?_⟩
        exact {
          accepted := of_decide_eq_true haccepted
          requestedStage := hrequested
          powered := hhold.1
          hold := hhold.2
          stagesGood := hgood
          state := rfl
          energized := rfl
          overall := hoverall
          reachedStage := hreached.trans (getLastD_upTo _ _)
          events := hevents }
      · exact .inr ⟨_, _, _, rfl, hoff _⟩
  · exact .inr ⟨false, _, _, rfl, by simp⟩

end EspMiner
