import EspMiner.Bzm.Bridge
import EspMiner.Library.LittleEndian

/-!
# The safety status of the bridge

`bzm_bridge_decode_safety_status` of `components/asic/bzm_bridge.c`: 17 bytes with
the bridge's state, its outputs and its own verdicts on them, believed only when
they agree with one another.
-/

namespace EspMiner

open Library

def BZM_BRIDGE_SAFETY_STATUS_SCHEMA_VERSION : U8 := 1

def BZM_BRIDGE_SAFETY_STATUS_LENGTH : Nat := 17

/-- `bzm_bridge_safety_stage_t` -/
inductive BzmBridgeSafetyStage where
  | bootSafe
  | lease
  | tripLatch
deriving DecidableEq, Repr

/-- `bzm_bridge_safety_state_t` -/
inductive BzmBridgeSafetyState where
  | safeOff
  | controlled
  | faultLatched
deriving DecidableEq, Repr

/-- `bzm_bridge_safety_fault_t` -/
inductive BzmBridgeSafetyFault where
  | none
  | leaseExpired
  | asicTrip
  | statusInvalid
deriving DecidableEq, Repr

/-- `bzm_bridge_safety_runtime_verdict_t` -/
inductive BzmBridgeSafetyRuntimeVerdict where
  | goodSafeOff
  | goodControlled
  | badFault
  | badLease
  | badTripInput
  | badUnsafeOutputs
deriving DecidableEq, Repr

/-- `bzm_bridge_safety_production_verdict_t` -/
inductive BzmBridgeSafetyProductionVerdict where
  | good
  | badStageDisabled
  | badCapabilityGap
  | badRuntime
deriving DecidableEq, Repr

def BzmBridgeSafetyStage.value : BzmBridgeSafetyStage → U8
  | .bootSafe => 0
  | .lease => 1
  | .tripLatch => 2

def BzmBridgeSafetyState.value : BzmBridgeSafetyState → U8
  | .safeOff => 0
  | .controlled => 1
  | .faultLatched => 2

def BzmBridgeSafetyFault.value : BzmBridgeSafetyFault → U8
  | .none => 0
  | .leaseExpired => 1
  | .asicTrip => 2
  | .statusInvalid => 0xff

def BzmBridgeSafetyRuntimeVerdict.value : BzmBridgeSafetyRuntimeVerdict → U8
  | .goodSafeOff => 0
  | .goodControlled => 1
  | .badFault => 0x80
  | .badLease => 0x81
  | .badTripInput => 0x82
  | .badUnsafeOutputs => 0x83

def BzmBridgeSafetyProductionVerdict.value : BzmBridgeSafetyProductionVerdict → U8
  | .good => 0
  | .badStageDisabled => 0x80
  | .badCapabilityGap => 0x81
  | .badRuntime => 0x82

/-- The member of an enumeration that a byte stands for, among those allowed. -/
def enumOfByte {α : Type} (allowed : List α) (value : α → U8) (byte : U8) : Option α :=
  allowed.find? fun member => decide (value member = byte)

/-- `valid_safety_stage` and the cast -/
def validSafetyStage : U8 → Option BzmBridgeSafetyStage :=
  enumOfByte [.bootSafe, .lease, .tripLatch] BzmBridgeSafetyStage.value

/-- `valid_safety_state` and the cast -/
def validSafetyState : U8 → Option BzmBridgeSafetyState :=
  enumOfByte [.safeOff, .controlled, .faultLatched] BzmBridgeSafetyState.value

/-- `valid_safety_fault` and the cast: the bridge never reports STATUS_INVALID. -/
def validSafetyFault : U8 → Option BzmBridgeSafetyFault :=
  enumOfByte [.none, .leaseExpired, .asicTrip] BzmBridgeSafetyFault.value

/-- `valid_runtime_verdict` and the cast -/
def validRuntimeVerdict : U8 → Option BzmBridgeSafetyRuntimeVerdict :=
  enumOfByte [.goodSafeOff, .goodControlled, .badFault, .badLease, .badTripInput,
    .badUnsafeOutputs] BzmBridgeSafetyRuntimeVerdict.value

/-- `valid_production_verdict` and the cast -/
def validProductionVerdict : U8 → Option BzmBridgeSafetyProductionVerdict :=
  enumOfByte [.good, .badStageDisabled, .badCapabilityGap, .badRuntime]
    BzmBridgeSafetyProductionVerdict.value

/-! ### Masks -/

def BZM_BRIDGE_SAFETY_CAP_5V_CONTROL : U16 := 1 <<< 0
def BZM_BRIDGE_SAFETY_CAP_ASIC_RESET_CONTROL : U16 := 1 <<< 1
def BZM_BRIDGE_SAFETY_CAP_FAN_FORCE_FULL : U16 := 1 <<< 2
def BZM_BRIDGE_SAFETY_CAP_TRIP_INPUT_SAMPLED : U16 := 1 <<< 3
def BZM_BRIDGE_SAFETY_CAP_CORE_POWER_CUTOFF : U16 := 1 <<< 4
def BZM_BRIDGE_SAFETY_CAP_FAN_TACH_INTERLOCK : U16 := 1 <<< 5
def BZM_BRIDGE_SAFETY_CAP_INDEPENDENT_TRIP_MONITOR : U16 := 1 <<< 6
def BZM_BRIDGE_SAFETY_CAP_FAN_CONTROLLED_SPEED : U16 := 1 <<< 7

def BZM_BRIDGE_SAFETY_EVIDENCE_OUTPUTS_SAFE : U16 := 1 <<< 0
def BZM_BRIDGE_SAFETY_EVIDENCE_LEASE_VALID : U16 := 1 <<< 1
def BZM_BRIDGE_SAFETY_EVIDENCE_TRIP_CLEAR : U16 := 1 <<< 2
def BZM_BRIDGE_SAFETY_EVIDENCE_FAULT_CLEAR : U16 := 1 <<< 3
def BZM_BRIDGE_SAFETY_EVIDENCE_CORE_CUTOFF_AVAILABLE : U16 := 1 <<< 4
def BZM_BRIDGE_SAFETY_EVIDENCE_FAN_TACH_INTERLOCK_AVAILABLE : U16 := 1 <<< 5
def BZM_BRIDGE_SAFETY_EVIDENCE_INDEPENDENT_TRIP_MONITOR_AVAILABLE : U16 := 1 <<< 6

/-- `known_capabilities` -/
def knownCapabilities : U16 :=
  BZM_BRIDGE_SAFETY_CAP_5V_CONTROL ||| BZM_BRIDGE_SAFETY_CAP_ASIC_RESET_CONTROL |||
    BZM_BRIDGE_SAFETY_CAP_FAN_FORCE_FULL ||| BZM_BRIDGE_SAFETY_CAP_TRIP_INPUT_SAMPLED |||
    BZM_BRIDGE_SAFETY_CAP_CORE_POWER_CUTOFF ||| BZM_BRIDGE_SAFETY_CAP_FAN_TACH_INTERLOCK |||
    BZM_BRIDGE_SAFETY_CAP_INDEPENDENT_TRIP_MONITOR ||| BZM_BRIDGE_SAFETY_CAP_FAN_CONTROLLED_SPEED

/-- `known_evidence` -/
def knownEvidence : U16 :=
  BZM_BRIDGE_SAFETY_EVIDENCE_OUTPUTS_SAFE ||| BZM_BRIDGE_SAFETY_EVIDENCE_LEASE_VALID |||
    BZM_BRIDGE_SAFETY_EVIDENCE_TRIP_CLEAR ||| BZM_BRIDGE_SAFETY_EVIDENCE_FAULT_CLEAR |||
    BZM_BRIDGE_SAFETY_EVIDENCE_CORE_CUTOFF_AVAILABLE |||
    BZM_BRIDGE_SAFETY_EVIDENCE_FAN_TACH_INTERLOCK_AVAILABLE |||
    BZM_BRIDGE_SAFETY_EVIDENCE_INDEPENDENT_TRIP_MONITOR_AVAILABLE

/-- `production_capabilities` -/
def productionCapabilities : U16 :=
  BZM_BRIDGE_SAFETY_CAP_CORE_POWER_CUTOFF ||| BZM_BRIDGE_SAFETY_CAP_FAN_TACH_INTERLOCK |||
    BZM_BRIDGE_SAFETY_CAP_INDEPENDENT_TRIP_MONITOR

/-- `read_le16` -/
def readLe16 (value : List U8) : U16 :=
  (value.getD 0 0).setWidth 16 ||| (value.getD 1 0).setWidth 16 <<< 8

/-- `read_le32` -/
def readLe32 (value : List U8) : U32 :=
  (value.getD 0 0).setWidth 32 ||| (value.getD 1 0).setWidth 32 <<< 8 |||
    (value.getD 2 0).setWidth 32 <<< 16 ||| (value.getD 3 0).setWidth 32 <<< 24

/-! ### A status -/

/-- The part of a status that the bridge reads from its own state. -/
structure BzmBridgeSafetyReading where
  stage : BzmBridgeSafetyStage
  state : BzmBridgeSafetyState
  fault : BzmBridgeSafetyFault
  capabilities : U16
  leaseRemainingMs : U32
  fiveVoltEnabled : Bool
  asicResetAsserted : Bool
  fanFull : Bool
  fanPercent : U8
  tripInputAsserted : Bool
deriving DecidableEq, Repr

/-- `bzm_bridge_safety_status_t`: the reading with what the bridge concludes
from it. -/
structure BzmBridgeSafetyStatus extends BzmBridgeSafetyReading where
  valid : Bool
  schemaVersion : U8
  evidence : U16
  runtimeVerdict : BzmBridgeSafetyRuntimeVerdict
  productionVerdict : BzmBridgeSafetyProductionVerdict
deriving DecidableEq, Repr

/-- `invalidate_safety_status` -/
def invalidateSafetyStatus : BzmBridgeSafetyStatus where
  stage := .bootSafe
  state := .faultLatched
  fault := .statusInvalid
  capabilities := 0
  leaseRemainingMs := 0
  fiveVoltEnabled := false
  asicResetAsserted := false
  fanFull := false
  fanPercent := 0
  tripInputAsserted := false
  valid := false
  schemaVersion := 0
  evidence := 0
  runtimeVerdict := .badFault
  productionVerdict := .badRuntime

namespace BzmBridgeSafetyReading

/-- `outputs_safe` -/
def outputsSafe (reading : BzmBridgeSafetyReading) : Bool :=
  !reading.fiveVoltEnabled && reading.asicResetAsserted && decide (reading.fanPercent = 100)

/-- `lease_valid` -/
def leaseValid (reading : BzmBridgeSafetyReading) : Bool :=
  decide (reading.stage = .bootSafe) ||
    (decide (reading.state = .controlled) && decide (0 < reading.leaseRemainingMs))

/-- `fault_clear` -/
def faultClear (reading : BzmBridgeSafetyReading) : Bool := decide (reading.fault = .none)

/-- `fault_latched` -/
def faultLatched (reading : BzmBridgeSafetyReading) : Bool :=
  decide (reading.state = .faultLatched)

/-- The evidence, or the fan's flag, does not go with the reading. -/
def evidenceContradicts (reading : BzmBridgeSafetyReading) (evidence : U16) : Bool :=
  (reading.fanFull != decide (reading.fanPercent = 100)) ||
    (decide (evidence &&& BZM_BRIDGE_SAFETY_EVIDENCE_OUTPUTS_SAFE ≠ 0) != reading.outputsSafe) ||
    (decide (evidence &&& BZM_BRIDGE_SAFETY_EVIDENCE_LEASE_VALID ≠ 0) != reading.leaseValid) ||
    (decide (evidence &&& BZM_BRIDGE_SAFETY_EVIDENCE_TRIP_CLEAR ≠ 0) ==
      reading.tripInputAsserted) ||
    (decide (evidence &&& BZM_BRIDGE_SAFETY_EVIDENCE_FAULT_CLEAR ≠ 0) != reading.faultClear) ||
    decide (evidence &&& productionCapabilities ≠ reading.capabilities &&& productionCapabilities)

/-- The state does not go with the rest of the reading. -/
def stateContradicts (reading : BzmBridgeSafetyReading) : Bool :=
  (reading.faultLatched != !reading.faultClear) ||
    (decide (reading.state = .safeOff) && !reading.outputsSafe) ||
    (reading.faultLatched && (!reading.outputsSafe || decide (reading.leaseRemainingMs ≠ 0))) ||
    (decide (reading.stage = .bootSafe) &&
      (decide (reading.leaseRemainingMs ≠ 0) || reading.faultLatched)) ||
    (decide (reading.stage ≠ .bootSafe) && decide (reading.state ≠ .controlled) &&
      decide (reading.leaseRemainingMs ≠ 0)) ||
    (decide (reading.stage = .lease) && decide (reading.fault = .asicTrip)) ||
    (decide (reading.stage = .tripLatch) && reading.tripInputAsserted && !reading.faultLatched)

/-- `expected_runtime` -/
def expectedRuntime (reading : BzmBridgeSafetyReading) : BzmBridgeSafetyRuntimeVerdict :=
  if reading.faultClear = false then .badFault
  else if reading.tripInputAsserted then .badTripInput
  else if reading.state = .safeOff then .goodSafeOff
  else if reading.stage ≠ .bootSafe ∧ reading.leaseValid = false then .badLease
  else .goodControlled

/-- `expected_production`, for a runtime verdict -/
def expectedProduction (reading : BzmBridgeSafetyReading)
    (runtimeVerdict : BzmBridgeSafetyRuntimeVerdict) : BzmBridgeSafetyProductionVerdict :=
  let runtimeGood :=
    decide (runtimeVerdict = .goodSafeOff) || decide (runtimeVerdict = .goodControlled)
  if reading.stage ≠ .tripLatch then .badStageDisabled
  else if runtimeGood = false then .badRuntime
  else if reading.capabilities ≠ knownCapabilities then .badCapabilityGap
  else .good

end BzmBridgeSafetyReading

/-- The fields of a payload; `none` when one of them is not known. -/
def safetyStatusFields (payload : List U8) : Option BzmBridgeSafetyStatus := do
  let stage ← validSafetyStage (payload.getD 1 0)
  let state ← validSafetyState (payload.getD 2 0)
  let fault ← validSafetyFault (payload.getD 3 0)
  let runtimeVerdict ← validRuntimeVerdict (payload.getD 4 0)
  let productionVerdict ← validProductionVerdict (payload.getD 5 0)
  let capabilities := readLe16 (payload.drop 6)
  let evidence := readLe16 (payload.drop 8)
  let leaseRemainingMs := readLe32 (payload.drop 10)
  let outputFlags := payload.getD 14 0
  let fanPercent := payload.getD 15 0
  let tripValue := payload.getD 16 0
  if payload.getD 0 0 ≠ BZM_BRIDGE_SAFETY_STATUS_SCHEMA_VERSION ∨
      capabilities &&& ~~~knownCapabilities ≠ 0 ∨ evidence &&& ~~~knownEvidence ≠ 0 ∨
      outputFlags &&& ~~~0x07 ≠ 0 ∨ 100 < fanPercent ∨ 1 < tripValue then none
  else some {
    valid := true
    schemaVersion := payload.getD 0 0
    stage, state, fault, runtimeVerdict, productionVerdict, capabilities, evidence,
    leaseRemainingMs
    fiveVoltEnabled := decide (outputFlags &&& 0x01 ≠ 0)
    asicResetAsserted := decide (outputFlags &&& 0x02 ≠ 0)
    fanFull := decide (outputFlags &&& 0x04 ≠ 0)
    fanPercent
    tripInputAsserted := decide (tripValue ≠ 0) }

/-- `bzm_bridge_decode_safety_status` with the status that it leaves; `none` is a
payload of NULL. -/
def bzmBridgeDecodeSafetyStatus (payload : Option (List U8)) :
    Except EspErr Unit × BzmBridgeSafetyStatus :=
  match payload with
  | none => (.error .invalidArg, invalidateSafetyStatus)
  | some payload =>
      if payload.length ≠ BZM_BRIDGE_SAFETY_STATUS_LENGTH then
        (.error .invalidResponse, invalidateSafetyStatus)
      else
        match safetyStatusFields payload with
        | none => (.error .invalidResponse, invalidateSafetyStatus)
        | some status =>
            if status.evidenceContradicts status.evidence ∨ status.stateContradicts ∨
                status.runtimeVerdict ≠ status.expectedRuntime ∨
                status.productionVerdict ≠ status.expectedProduction status.runtimeVerdict then
              (.error .invalidResponse, invalidateSafetyStatus)
            else (.ok (), status)

/-! ### The payload of a status -/

/-- The flag byte of the outputs. -/
def outputFlags (fiveVoltEnabled asicResetAsserted fanFull : Bool) : U8 :=
  (if fiveVoltEnabled then 0x01 else 0) ||| (if asicResetAsserted then 0x02 else 0) |||
    (if fanFull then 0x04 else 0)

/-- The payload with a reading and any evidence and verdict bytes. -/
def safetyPayload (reading : BzmBridgeSafetyReading) (schemaVersion : U8) (evidence : U16)
    (runtimeVerdict productionVerdict : U8) : List U8 :=
  [schemaVersion, reading.stage.value, reading.state.value, reading.fault.value, runtimeVerdict,
    productionVerdict] ++ leBytes 2 reading.capabilities.toNat ++ leBytes 2 evidence.toNat ++
  leBytes 4 reading.leaseRemainingMs.toNat ++
  [outputFlags reading.fiveVoltEnabled reading.asicResetAsserted reading.fanFull,
    reading.fanPercent, if reading.tripInputAsserted then 1 else 0]

/-- The payload with the fields of a status. -/
def encodeSafetyStatus (status : BzmBridgeSafetyStatus) : List U8 :=
  safetyPayload status.toBzmBridgeSafetyReading status.schemaVersion status.evidence
    status.runtimeVerdict.value status.productionVerdict.value

end EspMiner
