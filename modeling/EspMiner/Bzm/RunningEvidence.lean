import EspMiner.Bzm.Validation
import EspMiner.Library.Run

/-!
# Evidence that the board is mining

`components/asic/bzm_running_evidence.c`: the counters since a baseline are
evaluated against a configuration, and a lifecycle decides how long a verdict
that was GOOD once is kept while the evidence is pending.
-/

namespace EspMiner

open Library

def BZM_RUNNING_EVIDENCE_DETAIL_LENGTH : Nat := 160

/-- `bzm_running_stats_t` -/
structure BzmRunningStats where
  dispatchBatches : U64
  dispatchedLogicalEngines : U64
  dispatchedChipEngines : U64
  dispatchFailures : U64
  mappedResults : U64
  mappingRejections : U64
  mappingRejectionStreak : U32
  mappingRecoveryPending : Bool
  locallyValidResults : U64
  locallyRejectedResults : U64
  duplicateResults : U64
  localRejectionStreak : U32
  localRecoveryPending : Bool
deriving DecidableEq

/-- The all-zero record. -/
def BzmRunningStats.zero : BzmRunningStats := ⟨0, 0, 0, 0, 0, 0, 0, false, 0, 0, 0, 0, false⟩

/-- `bzm_running_evidence_config_t` -/
structure BzmRunningEvidenceConfig where
  requiredChipEngineWrites : U32
  minimumValidResults : U32
  allowMappingRecovery : Bool
  maximumMappingRejections : U32
  maximumLocalRejections : U32
  proofTimeoutMs : U32
  recoveryTimeoutMs : U32
deriving DecidableEq

/-- `bzm_running_evidence_status_t` -/
inductive BzmRunningEvidenceStatus where
  | pending
  | good
  | bad
deriving DecidableEq, Repr

/-- `bzm_running_evidence_fault_t` -/
inductive BzmRunningEvidenceFault where
  | none
  | counterRollback
  | dispatch
  | mapping
  | localValidation
  | timeout
  | invalidConfiguration
deriving DecidableEq, Repr

/-- `bzm_running_evidence_result_t` -/
structure BzmRunningEvidenceResult where
  status : BzmRunningEvidenceStatus
  fault : BzmRunningEvidenceFault
  observed : BzmRunningStats
  elapsedMs : U64
  detail : String
deriving DecidableEq

/-- `bzm_running_evidence_lifecycle_t` -/
structure BzmRunningEvidenceLifecycle where
  completedOnce : Bool
  recoveryActive : Bool
  recoveryStartedAtMs : U64
  lastLocallyValidResults : U64
deriving DecidableEq

/-- `bzm_running_evidence_lifecycle_init` -/
def BzmRunningEvidenceLifecycle.init : BzmRunningEvidenceLifecycle := ⟨false, false, 0, 0⟩

/-- `counter_rolled_back` -/
def counterRolledBack (baseline current : BzmRunningStats) : Bool :=
  decide (current.dispatchBatches < baseline.dispatchBatches) ||
    decide (current.dispatchedLogicalEngines < baseline.dispatchedLogicalEngines) ||
    decide (current.dispatchedChipEngines < baseline.dispatchedChipEngines) ||
    decide (current.dispatchFailures < baseline.dispatchFailures) ||
    decide (current.mappedResults < baseline.mappedResults) ||
    decide (current.mappingRejections < baseline.mappingRejections) ||
    decide (current.locallyValidResults < baseline.locallyValidResults) ||
    decide (current.locallyRejectedResults < baseline.locallyRejectedResults)

/-- `subtract_stats` -/
def subtractStats (current baseline : BzmRunningStats) : BzmRunningStats where
  dispatchBatches := current.dispatchBatches - baseline.dispatchBatches
  dispatchedLogicalEngines := current.dispatchedLogicalEngines - baseline.dispatchedLogicalEngines
  dispatchedChipEngines := current.dispatchedChipEngines - baseline.dispatchedChipEngines
  dispatchFailures := current.dispatchFailures - baseline.dispatchFailures
  mappedResults := current.mappedResults - baseline.mappedResults
  mappingRejections := current.mappingRejections - baseline.mappingRejections
  mappingRejectionStreak := current.mappingRejectionStreak
  mappingRecoveryPending := current.mappingRecoveryPending
  locallyValidResults := current.locallyValidResults - baseline.locallyValidResults
  locallyRejectedResults := current.locallyRejectedResults - baseline.locallyRejectedResults
  duplicateResults := 0
  localRejectionStreak := current.localRejectionStreak
  localRecoveryPending := current.localRecoveryPending

/-- `proof_requirements_met` -/
def proofRequirementsMet (observed : BzmRunningStats) (config : BzmRunningEvidenceConfig) : Bool :=
  decide (observed.dispatchBatches ≠ 0) &&
    decide (config.requiredChipEngineWrites.setWidth 64 ≤ observed.dispatchedChipEngines) &&
    decide (config.minimumValidResults.setWidth 64 ≤ observed.mappedResults) &&
    decide (config.minimumValidResults.setWidth 64 ≤ observed.locallyValidResults)

/-- `result_with`; `none` is a NULL pointer. -/
def resultWith (status : BzmRunningEvidenceStatus) (fault : BzmRunningEvidenceFault)
    (observed : Option BzmRunningStats) (elapsedMs : U64) (detail : String) :
    BzmRunningEvidenceResult where
  status := status
  fault := fault
  observed := observed.getD .zero
  elapsedMs := elapsedMs
  detail := copyDetail BZM_RUNNING_EVIDENCE_DETAIL_LENGTH detail

/-! ### The texts -/

/-- `%llu` and `%u` -/
def decimal {w : Nat} (value : BitVec w) : String := toString value.toNat

def dispatchDetail (observed : BzmRunningStats) : String :=
  let batches := decimal observed.dispatchBatches
  s!"mining dispatch failed after {batches} complete batches"

def mappingDisabledDetail (observed : BzmRunningStats) : String :=
  let rejections := decimal observed.mappingRejections
  s!"{rejections} ASIC result frame(s) could not be attributed to current work; recovery is disabled"

def mappingPendingDetail (observed : BzmRunningStats) (config : BzmRunningEvidenceConfig) :
    String :=
  let total := decimal observed.mappingRejections
  let streak := decimal observed.mappingRejectionStreak
  let maximum := decimal config.maximumMappingRejections
  let valid := decimal observed.locallyValidResults
  let minimum := decimal config.minimumValidResults
  s!"waiting for valid proof after unattributed frames: total={total} " ++
    s!"streak={streak}/{maximum} valid={valid}/{minimum}"

def localPendingDetail (observed : BzmRunningStats) (config : BzmRunningEvidenceConfig) :
    String :=
  let total := decimal observed.locallyRejectedResults
  let streak := decimal observed.localRejectionStreak
  let maximum := decimal config.maximumLocalRejections
  let valid := decimal observed.locallyValidResults
  let minimum := decimal config.minimumValidResults
  s!"waiting for valid proof after local rejection: total={total} " ++
    s!"streak={streak}/{maximum} valid={valid}/{minimum}"

def fullDispatchDetail (observed : BzmRunningStats) (config : BzmRunningEvidenceConfig) :
    String :=
  let batches := decimal observed.dispatchBatches
  let engines := decimal observed.dispatchedChipEngines
  let mapped := decimal observed.mappedResults
  let unmapped := decimal observed.mappingRejections
  let mappingStreak := decimal observed.mappingRejectionStreak
  let mappingMaximum := decimal config.maximumMappingRejections
  let valid := decimal observed.locallyValidResults
  let rejected := decimal observed.locallyRejectedResults
  let localStreak := decimal observed.localRejectionStreak
  let localMaximum := decimal config.maximumLocalRejections
  s!"full dispatch: batches={batches} chipEngines={engines} mapped={mapped} " ++
    s!"mappingRejected={unmapped} maxStreak={mappingStreak}/{mappingMaximum} valid={valid} " ++
    s!"localRejected={rejected} maxStreak={localStreak}/{localMaximum}"

def waitingDetail (observed : BzmRunningStats) (config : BzmRunningEvidenceConfig) : String :=
  let batches := decimal observed.dispatchBatches
  let engines := decimal observed.dispatchedChipEngines
  let required := decimal config.requiredChipEngineWrites
  let mapped := decimal observed.mappedResults
  let unmapped := decimal observed.mappingRejections
  let mappingStreak := decimal observed.mappingRejectionStreak
  let mappingMaximum := decimal config.maximumMappingRejections
  let valid := decimal observed.locallyValidResults
  let minimum := decimal config.minimumValidResults
  let rejected := decimal observed.locallyRejectedResults
  let localStreak := decimal observed.localRejectionStreak
  let localMaximum := decimal config.maximumLocalRejections
  s!"waiting: batches={batches} chipEngines={engines}/{required} mapped={mapped} " ++
    s!"mappingRejected={unmapped} streak={mappingStreak}/{mappingMaximum} " ++
    s!"valid={valid}/{minimum} localRejected={rejected} streak={localStreak}/{localMaximum}"

/-- `%.*s` -/
def firstChars (count : Nat) (text : String) : String := String.ofList (text.toList.take count)

def establishedDetail (config : BzmRunningEvidenceConfig) (pending : String) : String :=
  let timeout := decimal config.proofTimeoutMs
  let text := firstChars 91 pending
  s!"proof established; bounded recovery 0/{timeout} ms: {text}"

def retainedDetail (config : BzmRunningEvidenceConfig) (recoveryElapsedMs : U64)
    (pending : String) : String :=
  let elapsed := decimal recoveryElapsedMs
  let timeout := decimal config.recoveryTimeoutMs
  let text := firstChars 90 pending
  s!"proof retained; bounded recovery {elapsed}/{timeout} ms: {text}"

/-! ### Evaluation -/

/-- The configuration is refused. -/
def BzmRunningEvidenceConfig.isInvalid (config : BzmRunningEvidenceConfig) : Bool :=
  decide (config.requiredChipEngineWrites = 0) || decide (config.minimumValidResults = 0) ||
    decide (config.proofTimeoutMs = 0) || decide (config.recoveryTimeoutMs = 0) ||
    decide (config.maximumLocalRejections = 0) ||
    config.allowMappingRecovery && decide (config.maximumMappingRejections = 0)

/-- The last two statements of each waiting branch of
`bzm_running_evidence_evaluate`. -/
def pendingUntilTimeout (config : BzmRunningEvidenceConfig) (fault : BzmRunningEvidenceFault)
    (observed : BzmRunningStats) (elapsedMs : U64) (detail : String) :
    BzmRunningEvidenceResult :=
  if config.proofTimeoutMs.setWidth 64 ≤ elapsedMs then
    resultWith .bad fault (some observed) elapsedMs detail
  else resultWith .pending .none (some observed) elapsedMs detail

/-- `bzm_running_evidence_evaluate` -/
def bzmRunningEvidenceEvaluate (baseline current : BzmRunningStats)
    (config : BzmRunningEvidenceConfig) (elapsedMs : U64) : BzmRunningEvidenceResult :=
  if config.isInvalid then
    resultWith .bad .invalidConfiguration none elapsedMs "mining evidence configuration is invalid"
  else if counterRolledBack baseline current then
    resultWith .bad .counterRollback none elapsedMs "mining evidence counters moved backwards"
  else
    let observed := subtractStats current baseline
    if observed.dispatchFailures ≠ 0 then
      resultWith .bad .dispatch (some observed) elapsedMs
        (copyDetail BZM_RUNNING_EVIDENCE_DETAIL_LENGTH (dispatchDetail observed))
    else if observed.mappingRejections ≠ 0 ∧ config.allowMappingRecovery = false then
      resultWith .bad .mapping (some observed) elapsedMs
        (copyDetail BZM_RUNNING_EVIDENCE_DETAIL_LENGTH (mappingDisabledDetail observed))
    else if observed.mappingRejections ≠ 0 ∧ observed.mappingRecoveryPending = true then
      pendingUntilTimeout config .mapping observed elapsedMs
        (copyDetail BZM_RUNNING_EVIDENCE_DETAIL_LENGTH (mappingPendingDetail observed config))
    else if observed.locallyRejectedResults ≠ 0 ∧ observed.localRecoveryPending = true ∧
        config.maximumLocalRejections ≤ observed.localRejectionStreak then
      pendingUntilTimeout config .localValidation observed elapsedMs
        (copyDetail BZM_RUNNING_EVIDENCE_DETAIL_LENGTH (localPendingDetail observed config))
    else if proofRequirementsMet observed config then
      resultWith .good .none (some observed) elapsedMs
        (copyDetail BZM_RUNNING_EVIDENCE_DETAIL_LENGTH (fullDispatchDetail observed config))
    else
      pendingUntilTimeout config .timeout observed elapsedMs
        (copyDetail BZM_RUNNING_EVIDENCE_DETAIL_LENGTH (waitingDetail observed config))

/-! ### The lifecycle -/

/-- A difference of times, or `UINT64_MAX` if the clock has gone back. -/
def elapsedSince (startedAtMs nowMs : U64) : U64 :=
  if startedAtMs ≤ nowMs then nowMs - startedAtMs else BitVec.allOnes 64

/-- `bzm_running_evidence_track` before the first GOOD, when the counters are not
BAD at once: `result` is their evaluation. -/
def trackFirstProof (lifecycle : BzmRunningEvidenceLifecycle) (baseline current : BzmRunningStats)
    (config : BzmRunningEvidenceConfig) (nowMs overallElapsedMs : U64)
    (result : BzmRunningEvidenceResult) :
    BzmRunningEvidenceResult × BzmRunningEvidenceLifecycle :=
  if config.proofTimeoutMs.setWidth 64 ≤ overallElapsedMs then
    (resultWith .bad .timeout (some result.observed) overallElapsedMs
      "initial dispatch and local nonce proof missed its deadline", lifecycle)
  else if result.status = .good then
    (result, { lifecycle with
      completedOnce := true
      recoveryActive := false
      recoveryStartedAtMs := 0
      lastLocallyValidResults := result.observed.locallyValidResults })
  else if proofRequirementsMet result.observed config then
    ({ result with
        status := .good
        fault := .none
        detail := copyDetail BZM_RUNNING_EVIDENCE_DETAIL_LENGTH
          (establishedDetail config result.detail) },
      { lifecycle with
        completedOnce := true
        recoveryActive := true
        recoveryStartedAtMs := nowMs
        lastLocallyValidResults := result.observed.locallyValidResults })
  else (bzmRunningEvidenceEvaluate baseline current config overallElapsedMs, lifecycle)

/-- The recovery clock of a pending evaluation. -/
def trackRecoveryClock (lifecycle : BzmRunningEvidenceLifecycle) (observed : BzmRunningStats)
    (nowMs : U64) : BzmRunningEvidenceLifecycle :=
  let lifecycle :=
    if lifecycle.recoveryActive = false ∨
        lifecycle.lastLocallyValidResults < observed.locallyValidResults then
      { lifecycle with recoveryActive := true, recoveryStartedAtMs := nowMs }
    else lifecycle
  { lifecycle with lastLocallyValidResults := observed.locallyValidResults }

/-- `bzm_running_evidence_track` after the first GOOD, on a pending evaluation:
a pending answer becomes the GOOD one that is retained. -/
def trackRecovery (lifecycle : BzmRunningEvidenceLifecycle) (baseline current : BzmRunningStats)
    (config : BzmRunningEvidenceConfig) (nowMs overallElapsedMs : U64) :
    BzmRunningEvidenceResult :=
  let recoveryElapsedMs := elapsedSince lifecycle.recoveryStartedAtMs nowMs
  let recoveryConfig := { config with proofTimeoutMs := config.recoveryTimeoutMs }
  let result : BzmRunningEvidenceResult :=
    { bzmRunningEvidenceEvaluate baseline current recoveryConfig recoveryElapsedMs with
      elapsedMs := overallElapsedMs }
  if result.status = .pending then
    { result with
      status := .good
      fault := .none
      detail := copyDetail BZM_RUNNING_EVIDENCE_DETAIL_LENGTH
        (retainedDetail config recoveryElapsedMs result.detail) }
  else result

/-- `bzm_running_evidence_track` -/
def bzmRunningEvidenceTrack (lifecycle : BzmRunningEvidenceLifecycle)
    (baseline current : BzmRunningStats) (config : BzmRunningEvidenceConfig)
    (startedAtMs nowMs : U64) : BzmRunningEvidenceResult × BzmRunningEvidenceLifecycle :=
  let overallElapsedMs := elapsedSince startedAtMs nowMs
  let result : BzmRunningEvidenceResult :=
    { bzmRunningEvidenceEvaluate baseline current config 0 with elapsedMs := overallElapsedMs }
  if result.status = .bad then (result, lifecycle)
  else if lifecycle.completedOnce = false then
    trackFirstProof lifecycle baseline current config nowMs overallElapsedMs result
  else if result.status = .good then
    (result, { lifecycle with
      recoveryActive := false
      recoveryStartedAtMs := 0
      lastLocallyValidResults := result.observed.locallyValidResults })
  else
    let lifecycle := trackRecoveryClock lifecycle result.observed nowMs
    (trackRecovery lifecycle baseline current config nowMs overallElapsedMs, lifecycle)

end EspMiner
