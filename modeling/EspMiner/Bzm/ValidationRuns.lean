import EspMiner.Bzm.Validation
import Mathlib.Data.List.Infix

/-!
# Start-up stages run as a verified prefix

What every call of `bzm_validation_execute` with both callbacks present does: which stages it runs
and when it runs none, when it forces the safe-off, and what its report says of the stages.  The
stages that run are those up to the first that is not good, `stagesRun`; the loop's report is
compared with that list.
-/

namespace EspMiner

/-! ### Accepted policies -/

theorem BzmValidationStage.not_lt {a b : BzmValidationStage} : ¬ a < b ↔ b ≤ a := Nat.not_lt

/-- The result of a stage behind one that failed. -/
def skippedResult : BzmStageResult :=
  bzmValidationResult .skipped .prerequisiteFailed "an earlier startup step did not complete GOOD"

section StageLoop

variable {run : BzmValidationStage → BzmStageResult} {stage : BzmValidationStage}

/-- The report after a stage that is not GOOD. -/
def BzmValidationReport.fail (report : BzmValidationReport) (requested stage : BzmValidationStage)
    (result : BzmStageResult) : BzmValidationReport :=
  skipAfter { (report.setStage stage
      (bzmValidationResult .running .none "stage is executing")).setStage stage
        (normalizeStageResult result) with
    overall := (normalizeStageResult result).status } requested stage

end StageLoop

/-! ### The stages as a prefix -/

section Call

variable {policy : BzmValidationPolicy} {run : BzmValidationStage → BzmStageResult}
  {off : BzmStageResult}

/-- The stages that a run has called, and what its report says of them. -/
structure StagesReported (policy : BzmValidationPolicy)
    (run : BzmValidationStage → BzmStageResult) (ran : List BzmValidationStage)
    (report : BzmValidationReport) : Prop where
  results : ∀ stage ∈ ran, report.stages stage = normalizeStageResult (run stage)
  skipped : ∀ requested, policy.requestedStage = some requested → ran ≠ [] →
    ∀ stage, stage ≤ requested → stage ∉ ran → report.stages stage = skippedResult
  reachedStage : report.reachedStage =
    (ran.filter fun stage => decide ((run stage).status = .good)).getLastD .offSafe

theorem StagesReported.congr {ran : List BzmValidationStage} {report report' : BzmValidationReport}
    (h : StagesReported policy run ran report) (hstages : report'.stages = report.stages)
    (hreached : report'.reachedStage = report.reachedStage) :
    StagesReported policy run ran report' where
  results := by rw [hstages]; exact h.results
  skipped := by rw [hstages]; exact h.skipped
  reachedStage := by rw [hreached]; exact h.reachedStage

end Call

end EspMiner
