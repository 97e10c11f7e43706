import EspMiner.Bzm.BalancedRamp
import EspMiner.Bzm.Driver
import EspMiner.Bzm.Frequency
import EspMiner.Bzm.TelemetryConfirmation
import EspMiner.Bzm.Transport

/-!
# Bringing the chain up

`components/asic/bzm_bringup.c`: the stages that take four unpowered ASICs to mining, each behind
the one before it, and the transactions that change the hash clocks while the board mines.  The
callbacks are functions of all that happened before, and a stage that gives up does so with its
report.
-/

namespace EspMiner

open Library

def BZM_BROADCAST_ASIC : U8 := 0xfa
def BZM_FIRST_ASIC_ID : U8 := 0x0a
def BZM_LAST_ASIC_ID : U8 := 0x28
def BZM_BRINGUP_PLL_COUNT : Nat := 2

def BZM_LOCAL_REG_RESULT_STATUS_CONTROL : U8 := 0x00
def BZM_LOCAL_REG_UART_TDM_CONTROL : U8 := 0x07
def BZM_LOCAL_REG_SLOW_CLOCK_DIVIDER : U8 := 0x08
def BZM_LOCAL_REG_TDM_DELAY : U8 := 0x09
def BZM_LOCAL_REG_UART_TX : U8 := 0x0a
def BZM_LOCAL_REG_ASIC_ID : U8 := 0x0b
def BZM_LOCAL_REG_PLL0_POSTDIV : U8 := 0x10
def BZM_LOCAL_REG_PLL0_FBDIV : U8 := 0x11
def BZM_LOCAL_REG_PLL0_ENABLE : U8 := 0x12
def BZM_LOCAL_REG_SENSOR_TDM_GAP_COUNT : U8 := 0x2d
def BZM_LOCAL_REG_DTS_RESET_POWERDOWN : U8 := 0x2e
def BZM_LOCAL_REG_DTS_CONFIG : U8 := 0x2f
def BZM_LOCAL_REG_TEMPERATURE_TUNE_CODE : U8 := 0x30
def BZM_LOCAL_REG_SENSOR_THRESHOLD_COUNT : U8 := 0x3c
def BZM_LOCAL_REG_SENSOR_CLOCK_DIVIDER : U8 := 0x3d
def BZM_LOCAL_REG_VSENSOR_RESET_POWERDOWN : U8 := 0x3e
def BZM_LOCAL_REG_VSENSOR_CONFIG : U8 := 0x3f
def BZM_LOCAL_REG_VSENSOR_CONTROL : U8 := 0x40
def BZM_LOCAL_REG_BANDGAP : U8 := 0x45
def BZM_LOCAL_REG_IO_PEPS_DRIVE_STRENGTH : U8 := 0x51
def BZM_LOCAL_REG_DLL0_CONTROL_5 : U8 := 0x59
def BZM_LOCAL_REG_DLL1_CONTROL_5 : U8 := 0x61

def BZM_TEMPERATURE_CODE_MASK : U16 := 0x0fff
def BZM_VOLTAGE_CODE_MASK : U16 := 0x3fff

def BZM_REFERENCE_SLOW_CLOCK_DIVIDER : U8 := 2
def BZM_REFERENCE_TDM_SLOT_BIT_COUNT : U8 := 0x7f
def BZM_REFERENCE_TDM_SLOT_COUNT : U8 := 100
def BZM_REFERENCE_TDM_DELAY : U8 := 1
def BZM_REFERENCE_SENSOR_DIVIDER : U8 := 8
def BZM_REFERENCE_THRESHOLD_COUNT : U8 := 10
def BZM_REFERENCE_THERMAL_TRIP_CODE_115C : U16 := 2650
def BZM_REFERENCE_VOLTAGE_SHUTDOWN_CODE_500MV : U16 := 7561
def BZM_REFERENCE_SENSOR_SETTLE_MS : U16 := 10
def BZM_REFERENCE_BIRDS_IO_PEPS_DRIVE_STRENGTH : U32 := 0x44464444
def BZM_RESULT_REPORT_ENABLED : U32 := 0
def BZM_RESULT_REPORT_DISABLED : U32 := 1
def BZM_TDM_TELEMETRY_FRAME_BIT_PERIODS : U8 := 100
def BZM_CHAIN_NOOP_ATTEMPTS : Nat := 5
def BZM_CHAIN_NOOP_RETRY_DELAY_MS : Nat := 200
def BZM_TELEMETRY_ACQUIRE_ATTEMPTS : Nat := 5
def BZM_TELEMETRY_RETRY_DELAY_MS : Nat := 5
def BZM_PLL_LOCK_MASK : U32 := 0x05
def BZM_PLL_ENABLE_VALUE : U32 := 0x01

/-! ### Reports and state -/

/-- `bzm_bringup_reason_t` -/
inductive BzmBringupReason where
  | none
  | invalidArgument
  | prerequisite
  | capabilityUnavailable
  | io
  | chainMissing
  | chainIdMismatch
  | chainExtraAsic
  | registerReadback
  | telemetryMissing
  | telemetryPreconfig
  | telemetryStale
  | telemetryUnsafe
  | pllUnlocked
  | topology
  | balancedPairUnavailable
  | balancedPairCommit
  | activationBarrier
  | balancedBatch
deriving DecidableEq, Repr

/-- `bzm_bringup_probe_result_t` -/
inductive BzmBringupProbeResult where
  | response
  | noResponse
  | ioError
deriving DecidableEq, Repr

/-- The number that stands for a probe result in a report -/
def BzmBringupProbeResult.code : BzmBringupProbeResult → U32
  | .response => 0
  | .noResponse => 1
  | .ioError => 2

/-- `bzm_bringup_report_t` -/
structure BzmBringupReport where
  outcome : BzmBringupOutcome
  reason : BzmBringupReason
  asicId : U8
  pllIndex : U8
  registerOffset : U8
  expected : U32
  actual : U32
  completedItems : U16
deriving DecidableEq, Repr

/-- The index of a hash clock: an ASIC and one of its two PLLs -/
abbrev ClockDomain := Fin BZM_MAX_ASIC_COUNT × Fin BZM_BRINGUP_PLL_COUNT

/-- The domains in the order of the nested loops -/
def clockDomains : List ClockDomain :=
  (List.finRange BZM_MAX_ASIC_COUNT).flatMap fun asic =>
    (List.finRange BZM_BRINGUP_PLL_COUNT).map fun pll => (asic, pll)

theorem asicCount_pos : 0 < BZM_MAX_ASIC_COUNT := by decide

def firstDomain : ClockDomain := (⟨0, asicCount_pos⟩, (0 : Fin 2))

/-- `bzm_bringup_state_t` -/
structure BzmBringupState where
  chainVerified : Bool
  sensorsVerified : Bool
  clocksVerified : Bool
  balancedRampVerified : Bool
  runningVerified : Bool
  sensorsConfiguredUs : U64
  clocksConfiguredUs : U64
  clockMhz : ℚ
  domainClockMhz : ClockDomain → ℚ

/-- `bzm_bringup_init` -/
def bzmBringupInit : BzmBringupState :=
  ⟨false, false, false, false, false, 0, 0, 0, fun _ => 0⟩

namespace BzmBringupState

/-- `clear_after_clocks` -/
def clearAfterClocks (state : BzmBringupState) : BzmBringupState :=
  { state with
    clocksVerified := false, balancedRampVerified := false, runningVerified := false
    clocksConfiguredUs := 0 }

/-- `clear_after_sensors` -/
def clearAfterSensors (state : BzmBringupState) : BzmBringupState :=
  { state.clearAfterClocks with sensorsVerified := false, sensorsConfiguredUs := 0 }

/-- `clear_after_chain` -/
def clearAfterChain (state : BzmBringupState) : BzmBringupState :=
  { state.clearAfterSensors with chainVerified := false }

/-- `set_all_domain_clocks` -/
def setAllDomainClocks (state : BzmBringupState) (mhz : ℚ) : BzmBringupState :=
  { state with domainClockMhz := fun _ => mhz, clockMhz := mhz }

/-- `average_domain_clocks` -/
def averageDomainClocks (state : BzmBringupState) : ℚ :=
  (clockDomains.map state.domainClockMhz).sum /
    ((BZM_MAX_ASIC_COUNT * BZM_BRINGUP_PLL_COUNT : Nat) : ℚ)

end BzmBringupState

/-! ### Profiles -/

/-- `bzm_bringup_sensor_profile_t` -/
structure BzmBringupSensorProfile where
  slowClockDivider : U8
  tdmSlotBitCount : U8
  tdmSlotCount : U8
  tdmDelay : U8
  sensorClockDivider : U8
  tdmGapCount : U8
  thermalThresholdCount : U8
  voltageThresholdCount : U8
  thermalTripCode : U16
  voltageCh0ShutdownCode : U16
  voltageCh1ShutdownCode : U16
  settleDelayMs : U16

/-- `bzm_bringup_reference_sensor_profile` with `CONFIG_BZM_1002_SENSOR_TDM_GAP_COUNT` -/
def bzmBringupReferenceSensorProfile (configTdmGapCount : U8) : BzmBringupSensorProfile where
  slowClockDivider := BZM_REFERENCE_SLOW_CLOCK_DIVIDER
  tdmSlotBitCount := BZM_REFERENCE_TDM_SLOT_BIT_COUNT
  tdmSlotCount := BZM_REFERENCE_TDM_SLOT_COUNT
  tdmDelay := BZM_REFERENCE_TDM_DELAY
  sensorClockDivider := BZM_REFERENCE_SENSOR_DIVIDER
  tdmGapCount := configTdmGapCount
  thermalThresholdCount := BZM_REFERENCE_THRESHOLD_COUNT
  voltageThresholdCount := BZM_REFERENCE_THRESHOLD_COUNT
  thermalTripCode := BZM_REFERENCE_THERMAL_TRIP_CODE_115C
  voltageCh0ShutdownCode := BZM_REFERENCE_VOLTAGE_SHUTDOWN_CODE_500MV
  voltageCh1ShutdownCode := BZM_REFERENCE_VOLTAGE_SHUTDOWN_CODE_500MV
  settleDelayMs := BZM_REFERENCE_SENSOR_SETTLE_MS

/-- `sensor_profile_is_valid` -/
def BzmBringupSensorProfile.isValid (profile : BzmBringupSensorProfile) : Bool :=
  (decide (profile.slowClockDivider = 2) || decide (profile.slowClockDivider = 4) ||
    decide (profile.slowClockDivider = 8) || decide (profile.slowClockDivider = 16)) &&
  decide (BZM_TDM_TELEMETRY_FRAME_BIT_PERIODS ≤ profile.tdmSlotBitCount) &&
  decide (BZM_LAST_ASIC_ID < profile.tdmSlotCount) && decide (profile.tdmDelay ≤ 3) &&
  decide (2 ≤ profile.sensorClockDivider) && decide (profile.sensorClockDivider ≤ 16) &&
  decide (profile.tdmGapCount ≤ 63) &&
  decide (profile.thermalTripCode ≤ BZM_TEMPERATURE_CODE_MASK) &&
  decide (profile.voltageCh0ShutdownCode ≤ BZM_VOLTAGE_CODE_MASK) &&
  decide (profile.voltageCh1ShutdownCode ≤ BZM_VOLTAGE_CODE_MASK)

/-- `bzm_bringup_pll_profile_t` -/
structure BzmBringupPllProfile where
  targetMhz : U16
  referenceMhz : U8
  referenceDivider : U8
  post1Divider : U8
  post2Divider : U8
  feedbackDivider : U16
  postdivRegister : U32
  lockAttempts : U8
  lockPollDelayMs : U16

/-- `bzm_bringup_pll_800_profile` -/
def bzmBringupPll800Profile : BzmBringupPllProfile where
  targetMhz := 800
  referenceMhz := 50
  referenceDivider := 2
  post1Divider := 1
  post2Divider := 1
  feedbackDivider := 128
  postdivRegister := 0x1242
  lockAttempts := 30
  lockPollDelayMs := 100

/-- `pll_profile_is_exact_800` -/
def BzmBringupPllProfile.isExact800 (profile : BzmBringupPllProfile) : Bool :=
  decide (profile.targetMhz = 800) && decide (profile.referenceMhz = 50) &&
  decide (profile.referenceDivider = 2) && decide (profile.post1Divider = 1) &&
  decide (profile.post2Divider = 1) && decide (profile.feedbackDivider = 128) &&
  decide (profile.postdivRegister = 0x1242) && decide (profile.lockAttempts ≠ 0)

/-- `bzm_bringup_telemetry_policy_t` -/
structure BzmBringupTelemetryPolicy where
  bounds : BzmTelemetryBounds
  maxAgeUs : U64
  ch2ConfirmSamples : U8

/-- `telemetry_policy_is_valid`; what it asks of the bounds is `bounds_are_valid`. -/
def BzmBringupTelemetryPolicy.isValid (policy : BzmBringupTelemetryPolicy) : Bool :=
  decide (policy.maxAgeUs ≠ 0) && decide (policy.ch2ConfirmSamples ≠ 0) &&
    decide (policy.ch2ConfirmSamples ≤ BZM_CH2_CONFIRM_MAX_SAMPLES) && policy.bounds.areValid

/-- What a policy passes to the confirmation of anomalies -/
def BzmBringupTelemetryPolicy.confirmation (policy : BzmBringupTelemetryPolicy) :
    ConfirmationPolicy :=
  ⟨policy.maxAgeUs, policy.bounds, policy.ch2ConfirmSamples⟩

/-- The control word of the telemetry slots, which are on where the last bit is set -/
def tdmControl (slotBitCount slotCount : U8) : U32 :=
  (slotBitCount.setWidth 32 <<< 9) ||| (slotCount.setWidth 32 <<< 1) ||| 1

/-- `bzm_bringup_reference_tdm_control` -/
def bzmBringupReferenceTdmControl : U32 :=
  tdmControl BZM_REFERENCE_TDM_SLOT_BIT_COUNT BZM_REFERENCE_TDM_SLOT_COUNT

/-! ### Callbacks -/

/-- `bzm_register_value_t` -/
structure BzmRegisterValue where
  offset : U8
  value : U32
deriving DecidableEq, Repr

/-- A callback with its answer; registers are those of the control engine. -/
inductive BringupEvent where
  | probe (asicId : U8) (result : BzmBringupProbeResult)
  | write (asicId offset : U8) (value : U32) (result : Bool)
  | read (asicId offset : U8) (answer : Option U32)
  | delay (ms : Nat)
  | now (us : U64)
  | snapshot (answer : Option BzmTelemetryStore)
  | batchBegin (pairIndex : Nat) (result : Bool)
  | pairCommit (asicId : U8) (pair : BzmEnginePair) (result : Bool)
  | batchEnd (pairIndex : Nat) (result : Bool)
  | activationBarrier (asicCount pairsPerAsic : Nat) (result : Bool)

/-- `bzm_bringup_ops_t`; a null pointer is `none`, and of `delay_ms` only its presence counts. -/
structure BzmBringupOps where
  probeNoop : Option (List BringupEvent → U8 → BzmBringupProbeResult)
  writeU32 : Option (List BringupEvent → U8 → Nat → U8 → U32 → Bool)
  readU32 : Option (List BringupEvent → U8 → Nat → U8 → Option U32)
  delayMs : Bool
  nowUs : Option (List BringupEvent → U64)
  telemetrySnapshot : Option (List BringupEvent → Option BzmTelemetryStore)
  balancedBatchBegin : Option (List BringupEvent → Nat → Bool)
  balancedPairCommit : Option (List BringupEvent → U8 → BzmEnginePair → Bool)
  balancedBatchEnd : Option (List BringupEvent → Nat → Bool)
  activationBarrier : Option (List BringupEvent → Nat → Nat → Bool)

/-- `basic_ops_are_valid` -/
def BzmBringupOps.basicAreValid (ops : BzmBringupOps) : Bool :=
  ops.writeU32.isSome && ops.readU32.isSome

/-- `ops->now_us != NULL && ops->telemetry_snapshot != NULL` -/
def BzmBringupOps.observes (ops : BzmBringupOps) : Bool :=
  ops.nowUs.isSome && ops.telemetrySnapshot.isSome

/-- The state and what happened so far, newest first -/
structure BringupMachine where
  state : BzmBringupState
  trace : List BringupEvent

namespace BringupMachine

def record (m : BringupMachine) (event : BringupEvent) : BringupMachine :=
  { m with trace := event :: m.trace }

def update (m : BringupMachine) (change : BzmBringupState → BzmBringupState) : BringupMachine :=
  { m with state := change m.state }

@[simp] theorem record_state (m : BringupMachine) (event : BringupEvent) :
    (m.record event).state = m.state := rfl

@[simp] theorem record_trace (m : BringupMachine) (event : BringupEvent) :
    (m.record event).trace = event :: m.trace := rfl

@[simp] theorem update_state (m : BringupMachine) (change : BzmBringupState → BzmBringupState) :
    (m.update change).state = change m.state := rfl

@[simp] theorem update_trace (m : BringupMachine) (change : BzmBringupState → BzmBringupState) :
    (m.update change).trace = m.trace := rfl

end BringupMachine

/-- A part of a stage; it gives up with the report of the stage. -/
abbrev BringupScript (α : Type) := EStateM BzmBringupReport BringupMachine α

namespace BringupScript

/-- `set_report` with an outcome other than good, and the return -/
def fail {α : Type} (outcome : BzmBringupOutcome) (reason : BzmBringupReason)
    (asicId pll offset : U8) (expected actual : U32) (completed : Nat) : BringupScript α :=
  throw ⟨outcome, reason, asicId, pll, offset, expected, actual, BitVec.ofNat 16 completed⟩

/-- `if (condition) return set_report(..);` -/
def failIf (condition : Prop) [Decidable condition] (outcome : BzmBringupOutcome)
    (reason : BzmBringupReason) (asicId pll offset : U8) (expected actual : U32)
    (completed : Nat) : BringupScript PUnit :=
  if condition then fail outcome reason asicId pll offset expected actual completed else pure ()

/-- A stage that has a report already gives up with it. -/
def giveUpWith (report : Option BzmBringupReport) : BringupScript PUnit :=
  match report with
  | none => pure ()
  | some report => throw report

/-- `set_report` at the end of a stage that is good -/
def good (asicId pll : U8) (offset : U8) (expected actual : U32) (completed : Nat) :
    BringupScript BzmBringupReport :=
  pure ⟨.good, .none, asicId, pll, offset, expected, actual, BitVec.ofNat 16 completed⟩

def update (change : BzmBringupState → BzmBringupState) : BringupScript PUnit :=
  modify fun m => m.update change

variable (ops : BzmBringupOps)

/-! A stage looks for a callback before it uses it, so what a missing one would answer does not
matter. -/

def probeNoop (asicId : U8) : BringupScript BzmBringupProbeResult :=
  call (fun m => (ops.probeNoop.map fun probe => probe m.trace asicId).getD .ioError)
    fun result m => m.record (.probe asicId result)

def writeU32 (asicId offset : U8) (value : U32) : BringupScript Bool :=
  call (fun m => (ops.writeU32.map fun write =>
      write m.trace asicId BZM_CONTROL_ENGINE_ID offset value).getD false)
    fun result m => m.record (.write asicId offset value result)

def readU32 (asicId offset : U8) : BringupScript (Option U32) :=
  call (fun m => ops.readU32.bind fun read => read m.trace asicId BZM_CONTROL_ENGINE_ID offset)
    fun answer m => m.record (.read asicId offset answer)

def nowUs : BringupScript U64 :=
  call (fun m => (ops.nowUs.map fun now => now m.trace).getD 0) fun us m => m.record (.now us)

def telemetrySnapshot : BringupScript (Option BzmTelemetryStore) :=
  call (fun m => ops.telemetrySnapshot.bind fun snapshot => snapshot m.trace)
    fun answer m => m.record (.snapshot answer)

/-- `if (ops->delay_ms != NULL) ops->delay_ms(ops_context, ms);` -/
def delayMs (ms : Nat) : BringupScript PUnit :=
  if ops.delayMs then modify fun m => m.record (.delay ms) else pure ()

/-- The delay between two attempts; there is none after the last. -/
def delayBefore (left ms : Nat) : BringupScript PUnit :=
  if left = 0 then pure () else delayMs ops ms

/-! ### Registers -/

/-- A register is read and compared with what it must hold. -/
def verifyRegister (asicId pll : U8) (register : BzmRegisterValue) (completed : Nat) :
    BringupScript PUnit := do
  match ← readU32 ops asicId register.offset with
  | none => fail .bad .io asicId pll register.offset register.value 0 completed
  | some actual =>
      failIf (actual ≠ register.value) .bad .registerReadback asicId pll register.offset
        register.value actual completed

/-- A register is written; where that fails, `expected` at `reportOffset` is reported. -/
def writeRegister (asicId : U8) (register : BzmRegisterValue) (reportAsicId pll reportOffset : U8)
    (expected : U32) (completed : Nat) : BringupScript PUnit := do
  let result ← writeU32 ops asicId register.offset register.value
  failIf (result = false) .bad .io reportAsicId pll reportOffset expected 0 completed

/-- `write_and_verify_registers` -/
def writeAndVerifyRegisters (asicId : U8) (registers : List BzmRegisterValue) (completed : Nat) :
    BringupScript PUnit := do
  registers.forM fun register =>
    writeRegister ops asicId register asicId 0 register.offset register.value completed
  registers.forM fun register => verifyRegister ops asicId 0 register completed

/-! ### Telemetry -/

/-- `bzm_telemetry_store_get` -/
def bzmTelemetryStoreGet (store : BzmTelemetryStore) (asicId : U8) : Option BzmTelemetrySample :=
  ((List.finRange BZM_MAX_ASIC_COUNT).find? fun index => wireId index = asicId).map store.samples

/-- What `verify_telemetry_snapshot` finds wrong with the sample of an ASIC -/
def sampleFault (nowUs configuredAfterUs : U64) (policy : BzmBringupTelemetryPolicy)
    (requireClockLocks : Bool) (index : Fin BZM_MAX_ASIC_COUNT) (sample : BzmTelemetrySample) :
    Option BzmBringupReport :=
  let report (reason : BzmBringupReason) (expected actual : U32) : Option BzmBringupReport :=
    some ⟨.bad, reason, wireId index, 0, 0, expected, actual, BitVec.ofNat 16 index⟩
  if sample.received = false then report .telemetryMissing 1 0
  else if sample.timestampUs < configuredAfterUs then
    report .telemetryPreconfig (configuredAfterUs.setWidth 32) (sample.timestampUs.setWidth 32)
  else if sample.isFresh nowUs policy.maxAgeUs = false then
    let ageUs : U64 :=
      if sample.timestampUs ≤ nowUs then nowUs - sample.timestampUs else BitVec.allOnes 64
    report .telemetryStale (policy.maxAgeUs.setWidth 32) (ageUs.setWidth 32)
  else if sample.isSafeExceptCh2 nowUs policy.maxAgeUs policy.bounds requireClockLocks = false then
    report .telemetryUnsafe 1 0
  else none

/-- `verify_telemetry_snapshot`; `none` is `BZM_BRINGUP_GOOD`. -/
def verifyTelemetrySnapshot (store : BzmTelemetryStore) (nowUs configuredAfterUs : U64)
    (policy : BzmBringupTelemetryPolicy) (requireClockLocks : Bool) : Option BzmBringupReport :=
  (List.finRange BZM_MAX_ASIC_COUNT).findSome? fun index =>
    sampleFault nowUs configuredAfterUs policy requireClockLocks index (store.samples index)

/-- The first loop of `verify_telemetry` is content with a snapshot. -/
def allPostConfiguration (store : BzmTelemetryStore) (configuredAfterUs : U64) : Bool :=
  (List.finRange BZM_MAX_ASIC_COUNT).all fun index =>
    (store.samples index).received &&
      !decide ((store.samples index).timestampUs < configuredAfterUs)

/-- The first loop of `verify_telemetry`, with the attempts that are left -/
def acquireTelemetry (configuredAfterUs : U64) :
    Nat → BzmTelemetryStore → BringupScript BzmTelemetryStore
  | 0, store => pure store
  | left + 1, _ => do
      match ← telemetrySnapshot ops with
      | none => fail .bad .io 0 0 0 0 0 0
      | some store =>
          if allPostConfiguration store configuredAfterUs then pure store
          else
            delayBefore ops left BZM_TELEMETRY_RETRY_DELAY_MS
            acquireTelemetry configuredAfterUs left store

/-- A fault that more samples may clear: nothing is wrong with the sample but that a clock is
not locked. -/
def confirmable (store : BzmTelemetryStore) (nowUs : U64) (policy : BzmBringupTelemetryPolicy)
    (requireClockLocks : Bool) (fault : BzmBringupReport) : Bool :=
  decide (fault.outcome = .bad) && decide (fault.reason = .telemetryUnsafe) && requireClockLocks &&
    match bzmTelemetryStoreGet store fault.asicId with
    | none => false
    | some sample =>
        !sample.pllLocked && !sample.hasImmediateTrip &&
          sample.isSafeExceptCh2 nowUs policy.maxAgeUs policy.bounds false

/-- The fault of a snapshot that more samples may not clear -/
def snapshotFault (store : BzmTelemetryStore) (nowUs configuredAfterUs : U64)
    (policy : BzmBringupTelemetryPolicy) (requireClockLocks : Bool) : Option BzmBringupReport :=
  (verifyTelemetrySnapshot store nowUs configuredAfterUs policy requireClockLocks).filter
    fun fault => !confirmable store nowUs policy requireClockLocks fault

/-- `set_report` with what a confirmation has counted, and the return -/
def failConfirmation {α : Type} (policy : BzmBringupTelemetryPolicy) (answer : ConfirmationAnswer)
    (outcome : BzmBringupOutcome) (reason : BzmBringupReason) : BringupScript α :=
  fail outcome reason answer.culpritAsicId 0 0 (policy.ch2ConfirmSamples.setWidth 32)
    (answer.observedConsecutiveSamples.setWidth 32) 0

/-- The first half of the second loop of `verify_telemetry`: `none` where the telemetry is good,
else what is confirmed so far. -/
def observeTelemetry (policy : BzmBringupTelemetryPolicy) (configuredAfterUs : U64)
    (requireClockLocks : Bool) (store : BzmTelemetryStore)
    (confirmation : BzmTelemetryConfirmation) :
    BringupScript (Option (ConfirmationAnswer × BzmTelemetryConfirmation)) := do
  let snapshotNowUs ← nowUs ops
  giveUpWith (snapshotFault store snapshotNowUs configuredAfterUs policy requireClockLocks)
  let observed := bzmTelemetryConfirmationObserve policy.confirmation confirmation
    ⟨store, snapshotNowUs, requireClockLocks⟩
  match observed.1.result with
  | .good => pure none
  | .continuous | .invalid => failConfirmation policy observed.1 .bad .telemetryUnsafe
  | .pending | .noNewSample =>
      if ops.delayMs then pure (some observed)
      else failConfirmation policy observed.1 .blocked .capabilityUnavailable

/-- The second loop of `verify_telemetry`, with the attempts that are left after this one -/
def confirmTelemetry (policy : BzmBringupTelemetryPolicy) (configuredAfterUs : U64)
    (requireClockLocks : Bool) :
    Nat → BzmTelemetryStore → BzmTelemetryConfirmation → BringupScript PUnit
  | 0, store, confirmation => do
      match ← observeTelemetry ops policy configuredAfterUs requireClockLocks store
          confirmation with
      | none => pure ()
      | some (answer, _) => failConfirmation policy answer .bad .telemetryUnsafe
  | left + 1, store, confirmation => do
      match ← observeTelemetry ops policy configuredAfterUs requireClockLocks store
          confirmation with
      | none => pure ()
      | some (answer, confirmation) =>
          delayMs ops BZM_TELEMETRY_RETRY_DELAY_MS
          match ← telemetrySnapshot ops with
          | none => failConfirmation policy answer .bad .io
          | some store =>
              confirmTelemetry policy configuredAfterUs requireClockLocks left store confirmation

/-- `verify_telemetry` -/
def verifyTelemetry (policy : BzmBringupTelemetryPolicy) (configuredAfterUs : U64)
    (requireClockLocks : Bool) : BringupScript PUnit := do
  failIf (ops.observes = false) .blocked .capabilityUnavailable 0 0 0 0 0 0
  let store ← acquireTelemetry ops configuredAfterUs BZM_TELEMETRY_ACQUIRE_ATTEMPTS
    ⟨fun _ => .zero⟩
  confirmTelemetry ops policy configuredAfterUs requireClockLocks
    (policy.ch2ConfirmSamples.toNat * BZM_BRINGUP_ASIC_COUNT) store .init

/-! ### The chain -/

/-- The retries of the first request after power-up, with the attempts that are left -/
def probeBroadcast : Nat → BringupScript BzmBringupProbeResult
  | 0 => pure .noResponse
  | left + 1 => do
      let probe ← probeNoop ops BZM_BROADCAST_ASIC
      if probe ≠ .noResponse then pure probe
      else
        delayBefore ops left BZM_CHAIN_NOOP_RETRY_DELAY_MS
        probeBroadcast left

/-- What the register of an assigned ASIC reads -/
def assignedId (index : Fin BZM_MAX_ASIC_COUNT) : U32 :=
  (wireId index).setWidth 32 ||| ((1 : U32) <<< 8)

/-- What is written to the register of the ASIC that is assigned -/
def programmedId (index : Fin BZM_MAX_ASIC_COUNT) : U32 :=
  if index.val = 0 then (wireId index).setWidth 32
  else (wireId index).setWidth 32 ||| ((1 : U32) <<< 8)

/-- One pass of `bzm_bringup_stage_chain4`: the next ASIC that has no address gets one. -/
def assignAsic (index : Fin BZM_MAX_ASIC_COUNT) : BringupScript PUnit := do
  let asicId := wireId index
  let probe ← probeBroadcast ops BZM_CHAIN_NOOP_ATTEMPTS
  failIf (probe ≠ .response) .bad (if probe = .noResponse then .chainMissing else .io) asicId 0
    BZM_LOCAL_REG_ASIC_ID BzmBringupProbeResult.response.code probe.code index
  writeRegister ops BZM_BROADCAST_ASIC ⟨BZM_LOCAL_REG_ASIC_ID, programmedId index⟩ asicId 0
    BZM_LOCAL_REG_ASIC_ID (programmedId index) index
  delayMs ops 200
  match ← readU32 ops asicId BZM_LOCAL_REG_ASIC_ID with
  | none => fail .bad .io asicId 0 BZM_LOCAL_REG_ASIC_ID (assignedId index) 0 index
  | some readback =>
      failIf (readback ≠ assignedId index) .bad .chainIdMismatch asicId 0 BZM_LOCAL_REG_ASIC_ID
        (assignedId index) readback index

/-- `bzm_bringup_stage_chain4` -/
def stageChain4 : BringupScript BzmBringupReport := do
  failIf (ops.basicAreValid = false ∨ ops.probeNoop.isNone) .bad .invalidArgument 0 0 0 0 0 0
  update BzmBringupState.clearAfterChain
  (List.finRange BZM_MAX_ASIC_COUNT).forM fun index => assignAsic ops index
  let extraProbe ← probeNoop ops BZM_BROADCAST_ASIC
  failIf (extraProbe = .response) .bad .chainExtraAsic BZM_BROADCAST_ASIC 0 BZM_LOCAL_REG_ASIC_ID
    BzmBringupProbeResult.noResponse.code extraProbe.code BZM_BRINGUP_ASIC_COUNT
  failIf (extraProbe = .ioError) .bad .io BZM_BROADCAST_ASIC 0 BZM_LOCAL_REG_ASIC_ID
    BzmBringupProbeResult.noResponse.code extraProbe.code BZM_BRINGUP_ASIC_COUNT
  update fun state => { state with chainVerified := true }
  good BZM_LAST_ASIC_ID 0 BZM_LOCAL_REG_ASIC_ID 4 4 BZM_BRINGUP_ASIC_COUNT

/-! ### The sensors -/

/-- The registers that `bzm_bringup_stage_sensors` programs on each ASIC.  Telemetry is off
until they are all read back. -/
def sensorRegisters (profile : BzmBringupSensorProfile) (bandgap : U32) : List BzmRegisterValue :=
  let tdm := tdmControl profile.tdmSlotBitCount profile.tdmSlotCount
  let divider : U32 := profile.sensorClockDivider.setWidth 32
  [⟨BZM_LOCAL_REG_UART_TDM_CONTROL, tdm &&& ~~~1⟩,
   ⟨BZM_LOCAL_REG_UART_TX, 0x0f⟩,
   ⟨BZM_LOCAL_REG_SLOW_CLOCK_DIVIDER, profile.slowClockDivider.setWidth 32⟩,
   ⟨BZM_LOCAL_REG_TDM_DELAY, profile.tdmDelay.setWidth 32⟩,
   ⟨BZM_LOCAL_REG_SENSOR_CLOCK_DIVIDER, (divider <<< 5) ||| divider⟩,
   ⟨BZM_LOCAL_REG_DTS_RESET_POWERDOWN, 1 <<< 8⟩,
   ⟨BZM_LOCAL_REG_SENSOR_TDM_GAP_COUNT, profile.tdmGapCount.setWidth 32⟩,
   ⟨BZM_LOCAL_REG_DTS_CONFIG, 0⟩,
   ⟨BZM_LOCAL_REG_SENSOR_THRESHOLD_COUNT,
    (profile.thermalThresholdCount.setWidth 32 <<< 16) |||
      profile.voltageThresholdCount.setWidth 32⟩,
   ⟨BZM_LOCAL_REG_TEMPERATURE_TUNE_CODE,
    0x8001 ||| (profile.thermalTripCode.setWidth 32 <<< 1)⟩,
   ⟨BZM_LOCAL_REG_BANDGAP, (bandgap &&& ~~~0x0f) ||| 0x03⟩,
   ⟨BZM_LOCAL_REG_VSENSOR_RESET_POWERDOWN, 1 <<< 8⟩,
   ⟨BZM_LOCAL_REG_VSENSOR_CONFIG, (8 <<< 28) ||| (1 <<< 24)⟩,
   ⟨BZM_LOCAL_REG_VSENSOR_CONTROL,
    (profile.voltageCh1ShutdownCode.setWidth 32 <<< 16) |||
      (profile.voltageCh0ShutdownCode.setWidth 32 <<< 1) ||| 1⟩]

/-- One pass of the loop of `bzm_bringup_stage_sensors` -/
def configureSensors (profile : BzmBringupSensorProfile) (index : Fin BZM_MAX_ASIC_COUNT) :
    BringupScript PUnit := do
  match ← readU32 ops (wireId index) BZM_LOCAL_REG_BANDGAP with
  | none => fail .bad .io (wireId index) 0 BZM_LOCAL_REG_BANDGAP 0 0 index
  | some bandgap =>
      writeAndVerifyRegisters ops (wireId index) (sensorRegisters profile bandgap) index

/-- `drive_strength` -/
def driveStrength : List BzmRegisterValue :=
  [⟨BZM_LOCAL_REG_IO_PEPS_DRIVE_STRENGTH, BZM_REFERENCE_BIRDS_IO_PEPS_DRIVE_STRENGTH⟩]

/-- The control word of the telemetry slots goes to every ASIC at once. -/
def writeTdmControl (control : U32) : BringupScript PUnit :=
  writeRegister ops BZM_ALL_ASICS ⟨BZM_LOCAL_REG_UART_TDM_CONTROL, control⟩ BZM_ALL_ASICS 0
    BZM_LOCAL_REG_UART_TDM_CONTROL control 0

/-- `bzm_bringup_stage_sensors` -/
def stageSensors (profile : BzmBringupSensorProfile) (policy : BzmBringupTelemetryPolicy) :
    BringupScript BzmBringupReport := do
  failIf (ops.basicAreValid = false ∨ profile.isValid = false ∨ policy.isValid = false)
    .bad .invalidArgument 0 0 0 0 0 0
  let state := (← get).state
  failIf (state.chainVerified = false) .blocked .prerequisite 0 0 0 1 0 0
  failIf (ops.observes = false) .blocked .capabilityUnavailable 0 0 0 0 0 0
  update BzmBringupState.clearAfterSensors
  (List.finRange BZM_MAX_ASIC_COUNT).forM fun index => configureSensors ops profile index
  writeAndVerifyRegisters ops BZM_FIRST_ASIC_ID driveStrength 0
  writeTdmControl ops (tdmControl profile.tdmSlotBitCount profile.tdmSlotCount)
  let configuredUs ← nowUs ops
  update fun state => { state with sensorsConfiguredUs := configuredUs }
  delayMs ops profile.settleDelayMs.toNat
  verifyTelemetry ops policy configuredUs false
  update fun state => { state with sensorsVerified := true }
  good BZM_LAST_ASIC_ID 0 0 4 4 BZM_BRINGUP_ASIC_COUNT

/-! ### The clocks -/

/-- `pll_register` -/
def pllRegister (pll : Fin BZM_BRINGUP_PLL_COUNT) (pll0Register : U8) : U8 :=
  if pll.val = 0 then pll0Register else pll0Register + 0x0a

/-- The index of a PLL in a report -/
def pllIndex (pll : Fin BZM_BRINGUP_PLL_COUNT) : U8 := BitVec.ofNat 8 pll

/-- The dividers of a PLL -/
def dividerRegisters (pll : Fin BZM_BRINGUP_PLL_COUNT) (feedbackDivider : U16)
    (postdivRegister : U32) : List BzmRegisterValue :=
  [⟨pllRegister pll BZM_LOCAL_REG_PLL0_FBDIV, feedbackDivider.setWidth 32⟩,
   ⟨pllRegister pll BZM_LOCAL_REG_PLL0_POSTDIV, postdivRegister⟩]

/-- Both dividers go to an ASIC; a failure is reported for the first of them. -/
def writeDividers (asicId : U8) (pll : Fin BZM_BRINGUP_PLL_COUNT) (feedbackDivider : U16)
    (postdivRegister : U32) (reportAsicId : U8) (completed : Nat) : BringupScript PUnit :=
  (dividerRegisters pll feedbackDivider postdivRegister).forM fun register =>
    writeRegister ops asicId register reportAsicId (pllIndex pll)
      (pllRegister pll BZM_LOCAL_REG_PLL0_FBDIV) (feedbackDivider.setWidth 32) completed

def verifyDividers (asicId : U8) (pll : Fin BZM_BRINGUP_PLL_COUNT) (feedbackDivider : U16)
    (postdivRegister : U32) (completed : Nat) : BringupScript PUnit :=
  (dividerRegisters pll feedbackDivider postdivRegister).forM fun register =>
    verifyRegister ops asicId (pllIndex pll) register completed

/-- A PLL is switched on or off. -/
def writePllEnable (asicId : U8) (pll : Fin BZM_BRINGUP_PLL_COUNT) (value : U32) (completed : Nat) :
    BringupScript PUnit :=
  writeRegister ops asicId ⟨pllRegister pll BZM_LOCAL_REG_PLL0_ENABLE, value⟩ asicId (pllIndex pll)
    (pllRegister pll BZM_LOCAL_REG_PLL0_ENABLE) value completed

def readPllEnable (asicId : U8) (pll : Fin BZM_BRINGUP_PLL_COUNT) (completed : Nat) :
    BringupScript U32 := do
  match ← readU32 ops asicId (pllRegister pll BZM_LOCAL_REG_PLL0_ENABLE) with
  | none =>
      fail .bad .io asicId (pllIndex pll) (pllRegister pll BZM_LOCAL_REG_PLL0_ENABLE)
        BZM_PLL_LOCK_MASK 0 completed
  | some value => pure value

/-- The bits of a lock are set. -/
def pllLocked (enableValue : U32) : Bool :=
  decide (enableValue &&& BZM_PLL_LOCK_MASK = BZM_PLL_LOCK_MASK)

def requireLock (asicId : U8) (pll : Fin BZM_BRINGUP_PLL_COUNT) (enableValue : U32)
    (completed : Nat) : BringupScript PUnit :=
  failIf (pllLocked enableValue = false) .bad .pllUnlocked asicId (pllIndex pll)
    (pllRegister pll BZM_LOCAL_REG_PLL0_ENABLE) BZM_PLL_LOCK_MASK
    (enableValue &&& BZM_PLL_LOCK_MASK) completed

def delayUnlessLocked (locked : Bool) (ms : Nat) : BringupScript PUnit :=
  if locked then pure () else delayMs ops ms

/-- The loop of `bzm_bringup_stage_clocks` that waits for both locks, with the attempts that are
left and what was read last -/
def pollLocks (asicId : U8) (pollDelayMs : Nat) (completed : Nat) :
    Nat → U32 × U32 → BringupScript (U32 × U32)
  | 0, values => pure values
  | left + 1, values => do
      if pllLocked values.1 && pllLocked values.2 then pure values
      else
        let first ← readPllEnable ops asicId (0 : Fin 2) completed
        let second ← readPllEnable ops asicId (1 : Fin 2) completed
        delayUnlessLocked ops (pllLocked first && pllLocked second) pollDelayMs
        pollLocks asicId pollDelayMs completed left (first, second)

/-- `dll_disabled` -/
def dllDisabled : List BzmRegisterValue :=
  [⟨BZM_LOCAL_REG_DLL0_CONTROL_5, 0⟩, ⟨BZM_LOCAL_REG_DLL1_CONTROL_5, 0⟩]

/-- `sensor_controls`, of which `configTdmGapCount` is set by the build -/
def sensorControls (configTdmGapCount : U8) : List BzmRegisterValue :=
  let divider : U32 := BZM_REFERENCE_SENSOR_DIVIDER.setWidth 32
  [⟨BZM_LOCAL_REG_UART_TDM_CONTROL, bzmBringupReferenceTdmControl &&& ~~~1⟩,
   ⟨BZM_LOCAL_REG_SLOW_CLOCK_DIVIDER, BZM_REFERENCE_SLOW_CLOCK_DIVIDER.setWidth 32⟩,
   ⟨BZM_LOCAL_REG_TDM_DELAY, BZM_REFERENCE_TDM_DELAY.setWidth 32⟩,
   ⟨BZM_LOCAL_REG_UART_TX, 0x0f⟩,
   ⟨BZM_LOCAL_REG_SENSOR_TDM_GAP_COUNT, configTdmGapCount.setWidth 32⟩,
   ⟨BZM_LOCAL_REG_SENSOR_CLOCK_DIVIDER, (divider <<< 5) ||| divider⟩]

/-- One pass of the second loop of `bzm_bringup_stage_clocks` -/
def configureClocks (profile : BzmBringupPllProfile) (configTdmGapCount : U8)
    (index : Fin BZM_MAX_ASIC_COUNT) : BringupScript PUnit := do
  let asicId := wireId index
  let plls := List.finRange BZM_BRINGUP_PLL_COUNT
  plls.forM fun pll => writePllEnable ops asicId pll 0 index
  plls.forM fun pll =>
    writeDividers ops asicId pll profile.feedbackDivider profile.postdivRegister asicId index
  delayMs ops 1
  plls.forM fun pll => writePllEnable ops asicId pll BZM_PLL_ENABLE_VALUE index
  plls.forM fun pll =>
    verifyDividers ops asicId pll profile.feedbackDivider profile.postdivRegister index
  let values ← pollLocks ops asicId profile.lockPollDelayMs.toNat index
    profile.lockAttempts.toNat (0, 0)
  requireLock asicId (0 : Fin 2) values.1 index
  requireLock asicId (1 : Fin 2) values.2 index
  writeAndVerifyRegisters ops asicId dllDisabled index
  (sensorControls configTdmGapCount).forM fun register =>
    verifyRegister ops asicId 0 register index

/-- `bzm_bringup_stage_clocks` -/
def stageClocks (profile : BzmBringupPllProfile) (configTdmGapCount : U8)
    (policy : BzmBringupTelemetryPolicy) : BringupScript BzmBringupReport := do
  failIf (ops.basicAreValid = false ∨ profile.isExact800 = false ∨ policy.isValid = false)
    .bad .invalidArgument 0 0 0 800 (profile.targetMhz.setWidth 32) 0
  let state := (← get).state
  failIf (state.sensorsVerified = false) .blocked .prerequisite 0 0 0 1 0 0
  failIf (ops.observes = false) .blocked .capabilityUnavailable 0 0 0 0 0 0
  update BzmBringupState.clearAfterClocks
  writeTdmControl ops (bzmBringupReferenceTdmControl &&& ~~~1)
  (List.finRange BZM_MAX_ASIC_COUNT).forM fun index =>
    verifyRegister ops (wireId index) 0
      ⟨BZM_LOCAL_REG_UART_TDM_CONTROL, bzmBringupReferenceTdmControl &&& ~~~1⟩ index
  (List.finRange BZM_MAX_ASIC_COUNT).forM fun index =>
    configureClocks ops profile configTdmGapCount index
  writeTdmControl ops bzmBringupReferenceTdmControl
  let configuredUs ← nowUs ops
  update fun state => { state with clocksConfiguredUs := configuredUs }
  verifyTelemetry ops policy configuredUs true
  update fun state =>
    { state with clocksVerified := true }.setAllDomainClocks BZM_FREQUENCY_POWER_ON_MHZ
  good BZM_LAST_ASIC_ID 1 0 800 800 BZM_BRINGUP_ASIC_COUNT

/-! ### Live frequencies -/

/-- `(uint32_t)lroundf(mhz)`, with a half rounded away from zero -/
def lroundMhz (mhz : ℚ) : U32 :=
  BitVec.ofInt 32 (if 0 ≤ mhz then ⌊mhz + 1 / 2⌋ else ⌈mhz - 1 / 2⌉)

/-- The poll of `verify_live_frequency_domain`, with the attempts that are left and what was
read last -/
def pollDomainLock (domain : ClockDomain) (completed : Nat) : Nat → U32 → BringupScript PUnit
  | 0, value => requireLock (wireId domain.1) domain.2 value completed
  | left + 1, _ => do
      let value ← readPllEnable ops (wireId domain.1) domain.2 completed
      if pllLocked value then pure ()
      else
        delayMs ops 100
        pollDomainLock domain completed left value

/-- `verify_live_frequency_domain` -/
def verifyLiveFrequencyDomain (domain : ClockDomain) (target : BzmFrequencyTarget)
    (completed : Nat) : BringupScript PUnit := do
  verifyDividers ops (wireId domain.1) domain.2 target.feedbackDivider target.postdivRegister
    completed
  pollDomainLock ops domain completed 30 0

/-- `program_live_frequency_domain` -/
def programLiveFrequencyDomain (domain : ClockDomain) (target : BzmFrequencyTarget)
    (completed : Nat) : BringupScript PUnit := do
  writeDividers ops (wireId domain.1) domain.2 target.feedbackDivider target.postdivRegister
    (wireId domain.1) completed
  delayMs ops 1
  verifyLiveFrequencyDomain ops domain target completed

/-- The place of a domain in the order of the loops, which is what `completed` counts -/
def domainPlace (domain : ClockDomain) : Nat := BZM_BRINGUP_PLL_COUNT * domain.1 + domain.2

/-- `program_live_broadcast_shortcut` -/
def programLiveBroadcastShortcut (target : BzmFrequencyTarget) : BringupScript PUnit := do
  (List.finRange BZM_BRINGUP_PLL_COUNT).forM fun pll => do
    writeDividers ops BZM_ALL_ASICS pll target.feedbackDivider target.postdivRegister
      BZM_ALL_ASICS pll
    delayMs ops 1
  clockDomains.forM fun domain =>
    verifyLiveFrequencyDomain ops domain target (domainPlace domain)

/-- A domain is to be programmed. -/
def domainChanges (current target : ℚ) : Bool :=
  decide (BZM_FREQUENCY_EPSILON_MHZ ≤ |(bzmFrequencyResolveTarget target).actualMhz - current|)

/-- What the first loops of `live_frequency_domains_step_once` refuse about a domain -/
def domainRefused (domainClockMhz targetMhz : ClockDomain → ℚ) (allowInitialJump : Bool)
    (domain : ClockDomain) : Option BzmBringupReport :=
  let current := domainClockMhz domain
  let target := bzmFrequencyResolveTarget (targetMhz domain)
  let shortcut := (bzmFrequencyResolveTarget (targetMhz firstDomain)).actualMhz
  let refuse (expected : ℚ) : Option BzmBringupReport :=
    some ⟨.blocked, .invalidArgument, wireId domain.1, pllIndex domain.2, 0, lroundMhz expected,
      lroundMhz (targetMhz domain), 0⟩
  if bzmFrequencyRequestIsValid current = false ∨
      BZM_FREQUENCY_EPSILON_MHZ ≤ |target.actualMhz - targetMhz domain| then refuse current
  else if allowInitialJump then
    if BZM_FREQUENCY_EPSILON_MHZ ≤ |current - BZM_FREQUENCY_POWER_ON_MHZ| ∨
        target.actualMhz < BZM_FREQUENCY_POWER_ON_MHZ ∨
        BZM_FREQUENCY_INITIAL_MAX_MHZ < target.actualMhz then refuse BZM_FREQUENCY_POWER_ON_MHZ
    else if domain ≠ firstDomain ∧ BZM_FREQUENCY_EPSILON_MHZ ≤ |shortcut - target.actualMhz| then
      refuse shortcut
    else none
  else if domainChanges current (targetMhz domain) ∧
      BZM_FREQUENCY_RAMP_STEP_MHZ + BZM_FREQUENCY_EPSILON_MHZ < |target.actualMhz - current| then
    refuse current
  else none

/-- A domain that changes is programmed, and what it reached is recorded. -/
def programDomain (clocks targetMhz : ClockDomain → ℚ) (domain : ClockDomain) :
    BringupScript PUnit :=
  let target := bzmFrequencyResolveTarget (targetMhz domain)
  if domainChanges (clocks domain) (targetMhz domain) then do
    programLiveFrequencyDomain ops domain target (domainPlace domain)
    update fun state => { state with
      domainClockMhz := Function.update state.domainClockMhz domain target.actualMhz }
  else pure ()

/-- The second loops of `live_frequency_domains_step_once`, over the domains that are left -/
def programDomains (clocks targetMhz : ClockDomain → ℚ) : List ClockDomain → BringupScript PUnit
  | [] => pure ()
  | domain :: later => do
      programDomain ops clocks targetMhz domain
      programDomains clocks targetMhz later

/-- `state->clock_mhz = average_domain_clocks(state);` -/
def recordAverage : BringupScript PUnit :=
  update fun state => { state with clockMhz := state.averageDomainClocks }

/-- `ops->now_us == NULL ? 0 : ops->now_us(ops_context)` -/
def configuredNow : BringupScript U64 :=
  if ops.nowUs.isSome then nowUs ops else pure 0

/-- The end of `live_frequency_domains_step_once` -/
def finishLiveStep : BringupScript BzmBringupReport := do
  let configuredUs ← configuredNow ops
  update fun state => { state with clocksConfiguredUs := configuredUs }
  let clockMhz := (← get).state.clockMhz
  good BZM_LAST_ASIC_ID 1 0 (lroundMhz clockMhz) (lroundMhz clockMhz)
    (BZM_BRINGUP_ASIC_COUNT * BZM_BRINGUP_PLL_COUNT)

/-- Every domain goes to one frequency at once. -/
def jumpToShortcut (shortcut : BzmFrequencyTarget) : BringupScript BzmBringupReport := do
  programLiveBroadcastShortcut ops shortcut
  update fun state => state.setAllDomainClocks shortcut.actualMhz
  finishLiveStep ops

/-- Each domain that changes goes to its own frequency. -/
def stepDomains (clocks targetMhz : ClockDomain → ℚ) : BringupScript BzmBringupReport := do
  tryCatch (programDomains ops clocks targetMhz clockDomains) fun report => do
    recordAverage
    throw report
  recordAverage
  finishLiveStep ops

/-- `live_frequency_domains_step_once` -/
def liveFrequencyDomainsStepOnce (targetMhz : ClockDomain → ℚ) (allowInitialJump : Bool) :
    BringupScript BzmBringupReport := do
  let state := (← get).state
  failIf (ops.basicAreValid = false ∨ state.clocksVerified = false ∨ state.runningVerified = false)
    .blocked .invalidArgument BZM_ALL_ASICS 0 0 0 0 0
  giveUpWith
    (clockDomains.findSome? (domainRefused state.domainClockMhz targetMhz allowInitialJump))
  let shortcut := bzmFrequencyResolveTarget (targetMhz firstDomain)
  if allowInitialJump ∧ BZM_FREQUENCY_POWER_ON_MHZ < shortcut.actualMhz then
    jumpToShortcut ops shortcut
  else stepDomains ops state.domainClockMhz targetMhz

/-- A failure that `bzm_bringup_live_frequency_domains_step` tries again -/
def transientFailure (report : BzmBringupReport) : Bool :=
  decide (report.outcome = .bad) &&
    (decide (report.reason = .io) || decide (report.reason = .registerReadback))

/-- The attempts of `bzm_bringup_live_frequency_domains_step` after the first -/
def liveFrequencyAttempts (targetMhz : ClockDomain → ℚ) (allowInitialJump : Bool) :
    Nat → BringupScript BzmBringupReport
  | 0 => liveFrequencyDomainsStepOnce ops targetMhz allowInitialJump
  | left + 1 =>
      tryCatch (liveFrequencyDomainsStepOnce ops targetMhz allowInitialJump) fun report => do
        if transientFailure report then
          delayMs ops 10
          liveFrequencyAttempts targetMhz allowInitialJump left
        else throw report

/-- `bzm_bringup_live_frequency_domains_step`, in three attempts -/
def liveFrequencyDomainsStep (targetMhz : ClockDomain → ℚ) (allowInitialJump : Bool) :
    BringupScript BzmBringupReport :=
  liveFrequencyAttempts ops targetMhz allowInitialJump 2

/-! ### The balanced ramp, and running -/

/-- The first loop of `topology_is_exact`, over the engines that are left: those that were seen -/
def scanEngines : List Nat → List BzmEngineLocation → Option (List BzmEngineLocation)
  | [], seen => some seen
  | index :: later, seen =>
      match bzmTopologyEngineAt index with
      | none => none
      | some engine =>
          if engine.topologyIndex ≠ index ∨ BZM_TOPOLOGY_COLUMNS * 64 ≤ engine.physicalId ∨
              seen.any (fun other => other.physicalId = engine.physicalId) ∨
              bzmTopologyCoordinateIsValid engine.row engine.column = false then none
          else scanEngines later (engine :: seen)

/-- What `topology_is_exact` asks of a pair -/
def pairIsExact (index : Nat) : Bool :=
  match bzmTopologyBalancedPairAt index with
  | none => false
  | some pair =>
      decide (pair.pairIndex = index) && decide (pair.bottom.stack = .bottom) &&
        decide (pair.top.stack = .top) && decide (pair.bottom.stackIndex = index) &&
        decide (pair.top.stackIndex = index) &&
        decide (pair.bottom.physicalId ≠ pair.top.physicalId)

/-- `topology_is_exact` -/
def topologyIsExact : Bool :=
  match scanEngines (List.range BZM_TOPOLOGY_ENGINE_COUNT) [] with
  | none => false
  | some engines =>
      decide (engines.countP (fun engine => engine.stack = .bottom)
        = BZM_TOPOLOGY_STACK_ENGINE_COUNT) &&
      decide (engines.countP (fun engine => engine.stack = .top)
        = BZM_TOPOLOGY_STACK_ENGINE_COUNT) &&
      (List.range BZM_TOPOLOGY_PAIR_COUNT).all pairIsExact

def balancedBatchBegin (pairIndex : Nat) : BringupScript Bool :=
  call (fun m => (ops.balancedBatchBegin.map fun batch => batch m.trace pairIndex).getD false)
    fun result m => m.record (.batchBegin pairIndex result)

def balancedPairCommit (asicId : U8) (pair : BzmEnginePair) : BringupScript Bool :=
  call (fun m => (ops.balancedPairCommit.map fun commit => commit m.trace asicId pair).getD false)
    fun result m => m.record (.pairCommit asicId pair result)

def balancedBatchEnd (pairIndex : Nat) : BringupScript Bool :=
  call (fun m => (ops.balancedBatchEnd.map fun batch => batch m.trace pairIndex).getD false)
    fun result m => m.record (.batchEnd pairIndex result)

def activationBarrier (asicCount pairsPerAsic : Nat) : BringupScript Bool :=
  call (fun m => (ops.activationBarrier.map fun barrier =>
      barrier m.trace asicCount pairsPerAsic).getD false)
    fun result m => m.record (.activationBarrier asicCount pairsPerAsic result)

/-- The result reports of an ASIC are switched. -/
def resultReporting (value : U32) : List BzmRegisterValue :=
  [⟨BZM_LOCAL_REG_RESULT_STATUS_CONTROL, value⟩]

/-- The commit of a pair on one ASIC, with `completed` commits before the first ASIC -/
def commitOn (pair : BzmEnginePair) (pairIndex completed : Nat) (asic : Fin BZM_MAX_ASIC_COUNT) :
    BringupScript PUnit := do
  let result ← balancedPairCommit ops (wireId asic) pair
  failIf (result = false) .bad .balancedPairCommit (wireId asic) 0 0 (BitVec.ofNat 32 pairIndex) 0
    (completed + asic)

/-- The pair of an index goes to every ASIC, and the telemetry after it must be good.  `completed`
commits came before; a failure of the telemetry is reported with those of this pair. -/
def rampPair (policy : BzmBringupTelemetryPolicy) (pairIndex : Nat) : BringupScript PUnit := do
  let completed := BZM_BRINGUP_ASIC_COUNT * pairIndex
  match bzmTopologyBalancedPairAt pairIndex with
  | none => fail .bad .topology 0 0 0 (BitVec.ofNat 32 pairIndex) 0 completed
  | some pair =>
      let began ← balancedBatchBegin ops pairIndex
      failIf (began = false) .bad .balancedBatch 0 0 0 1 0 completed
      (List.finRange BZM_MAX_ASIC_COUNT).forM fun asic => commitOn ops pair pairIndex completed asic
      let completed := completed + BZM_BRINGUP_ASIC_COUNT
      let ended ← balancedBatchEnd ops pairIndex
      failIf (ended = false) .bad .balancedBatch 0 0 0 1 0 completed
      let committedAfterUs ← nowUs ops
      tryCatch (verifyTelemetry ops policy committedAfterUs true) fun report =>
        throw { report with completedItems := BitVec.ofNat 16 completed }

/-- `bzm_bringup_stage_balanced_ramp` -/
def stageBalancedRamp (policy : BzmBringupTelemetryPolicy) : BringupScript BzmBringupReport := do
  update fun state => { state with balancedRampVerified := false, runningVerified := false }
  let state := (← get).state
  failIf (state.clocksVerified = false) .blocked .prerequisite 0 0 0 1 0 0
  failIf (topologyIsExact = false) .bad .topology 0 0 0
    (BitVec.ofNat 32 BZM_TOPOLOGY_ENGINE_COUNT) 0 0
  failIf (ops.balancedBatchBegin.isNone ∨ ops.balancedPairCommit.isNone ∨
    ops.balancedBatchEnd.isNone ∨ ops.activationBarrier.isNone)
    .blocked .balancedPairUnavailable 0 0 0 1 0 0
  failIf (policy.isValid = false) .bad .invalidArgument 0 0 0 0 0 0
  failIf (ops.basicAreValid = false ∨ ops.observes = false) .blocked .capabilityUnavailable
    0 0 0 0 0 0
  (List.finRange BZM_MAX_ASIC_COUNT).forM fun index =>
    writeAndVerifyRegisters ops (wireId index) (resultReporting BZM_RESULT_REPORT_DISABLED) 0
  (List.range BZM_TOPOLOGY_PAIR_COUNT).forM fun pairIndex => rampPair ops policy pairIndex
  let completed := BZM_BRINGUP_ASIC_COUNT * BZM_TOPOLOGY_PAIR_COUNT
  let opened ← activationBarrier ops BZM_BRINGUP_ASIC_COUNT BZM_TOPOLOGY_PAIR_COUNT
  failIf (opened = false) .bad .activationBarrier 0 0 0 (BitVec.ofNat 32 completed)
    (BitVec.ofNat 32 completed) completed
  update fun state => { state with balancedRampVerified := true }
  good BZM_LAST_ASIC_ID 0 0 (BitVec.ofNat 32 completed) (BitVec.ofNat 32 completed) completed

/-- `bzm_bringup_check_running` -/
def checkRunning (policy : BzmBringupTelemetryPolicy) : BringupScript BzmBringupReport := do
  failIf (policy.isValid = false) .bad .invalidArgument 0 0 0 0 0 0
  update fun state => { state with runningVerified := false }
  let state := (← get).state
  failIf (state.balancedRampVerified = false) .blocked .prerequisite 0 0 0 1 0 0
  failIf (topologyIsExact = false) .bad .topology 0 0 0
    (BitVec.ofNat 32 BZM_TOPOLOGY_ENGINE_COUNT) 0 0
  failIf (ops.basicAreValid = false ∨ ops.observes = false) .blocked .capabilityUnavailable
    0 0 0 0 0 0
  (List.finRange BZM_MAX_ASIC_COUNT).forM fun index =>
    writeAndVerifyRegisters ops (wireId index) (resultReporting BZM_RESULT_REPORT_ENABLED) index
  let enabledUs ← nowUs ops
  verifyTelemetry ops policy enabledUs true
  update fun state => { state with runningVerified := true }
  good BZM_LAST_ASIC_ID 0 0 1 1 BZM_BRINGUP_ASIC_COUNT

end BringupScript

end EspMiner
