import EspMiner.Bzm.BringupLiveSteps

/-!
# Live tuning

The share of `main/power/bzm_board_power.c` that moves the rail and the hash clocks of a chain that
mines to the target of the user, one step a call, with exact rationals for the `float` values; and
the callers in `power_policy.c` and `BZM_board_start` as far as they set what it works on.
-/

namespace EspMiner

open Library BringupScript

def BZM_TPS546_FIXED_VOUT_V : ℚ := 28 / 10
def BZM_TPS546_MIN_VOUT_V : ℚ := 21 / 10
def BZM_TPS546_MAX_VOUT_V : ℚ := 32 / 10
def BZM_TPS546_VOUT_READBACK_TOLERANCE_V : ℚ := 2 / 1000
def BZM_FREQUENCY_TRANSITION_PROOF_TIMEOUT_MS : U64 := 30000#64

/-- `0.001f`, to which targets and clocks are compared -/
def TUNING_TOLERANCE : ℚ := 1 / 1000

/-- `bzm_power_runtime_voltage_is_allowed` -/
def bzmPowerRuntimeVoltageIsAllowed (volts : ℚ) : Bool :=
  decide (BZM_TPS546_MIN_VOUT_V ≤ volts) && decide (volts ≤ BZM_TPS546_MAX_VOUT_V)

/-- `bzm_power_resolve_user_voltage` -/
def bzmPowerResolveUserVoltage (millivolts : U16) : Option ℚ :=
  let requestedV : ℚ := millivolts.toNat / 1000
  if bzmPowerRuntimeVoltageIsAllowed requestedV then some requestedV else none

/-- `power_target_t` with an exact frequency -/
structure TuningTarget where
  voltageMv : U16
  frequencyMhz : ℚ

/-- The clock and the rail that a target stands for; `configured_tuning_target` and
`tuning_snapshot` resolve theirs so. -/
def TuningTarget.resolve (target : TuningTarget) : Option (ℚ × ℚ) :=
  if bzmFrequencyRequestIsValid target.frequencyMhz then
    (bzmPowerResolveUserVoltage target.voltageMv).map fun volts =>
      ((bzmFrequencyResolveTarget target.frequencyMhz).actualMhz, volts)
  else none

/-! ### State -/

/-- What live tuning does to the board -/
inductive TuningEvent where
  | railCommand (volts : ℚ) (applied : Bool)
  | transaction (clocks targetMhz : ClockDomain → ℚ) (allowInitialJump : Bool)
  | fault (code : U32)

/-- The share of `RUNTIME`, with `STAGED_BRINGUP` and `running` of the power policy.  `inForce` and
`events` are histories: the targets since the last start and what was done, newest first. -/
structure LiveTuning where
  frequencyTargetMhz : ℚ
  voltageTargetV : ℚ
  frequencyTargetGeneration : U32
  frequencyRampActive : Bool
  railCommandV : ℚ
  replacementPending : Bool
  replacementGeneration : U32
  replacementStartedMs : U64
  bringup : BringupMachine
  running : Bool
  inForce : List (ℚ × ℚ)
  events : List TuningEvent

/-- Before the first start -/
def LiveTuning.init : LiveTuning where
  frequencyTargetMhz := BZM_FREQUENCY_POWER_ON_MHZ
  voltageTargetV := BZM_TPS546_FIXED_VOUT_V
  frequencyTargetGeneration := 1
  frequencyRampActive := false
  railCommandV := BZM_TPS546_FIXED_VOUT_V
  replacementPending := false
  replacementGeneration := 0
  replacementStartedMs := 0
  bringup := ⟨bzmBringupInit, []⟩
  running := false
  inForce := []
  events := []

/-- What a call reads of the supervisor and its tasks while it holds the lock -/
structure TuningReads where
  initialized : Bool
  globalState : Bool
  stopRequested : Bool
  pauseRequested : Bool
  ownerMining : Bool
  holding : Bool
  faultLatched : Bool
  dispatchAllowed : Bool
  evidenceGood : Bool
  evidenceMonitoring : Bool

/-- What the environment answers during one `BZM_board_apply`.  `work` is the replacement snapshot:
its generation, what is completed and whether it is pending. -/
structure ApplyInputs where
  snapshotReads : TuningReads
  work : U32 × U32 × Bool
  nowMs : U64
  applyReads : TuningReads
  railApplied : Bool
  railPaused : Bool
  liveReady : Bool
  liveOps : BzmBringupOps
  baselineValid : Bool
  workAfter : U32 × U32 × Bool
  startedMs : U64
  stopRequested : Bool

/-! ### One step -/

namespace LiveTuning

variable (s : LiveTuning)

/-- What latching a fault does: the staged driver fails closed. -/
def latchFault (code : U32) : LiveTuning :=
  { s with
    bringup := s.bringup.update fun _ => bzmBringupInit
    events := .fault code :: s.events }

/-- `target_changed` of `tuning_snapshot`, and what it leaves -/
def retarget (resolved : ℚ × ℚ) : LiveTuning :=
  if TUNING_TOLERANCE ≤ |s.frequencyTargetMhz - resolved.1| ∨
      TUNING_TOLERANCE ≤ |s.voltageTargetV - resolved.2| then
    { s with
      frequencyTargetMhz := resolved.1
      voltageTargetV := resolved.2
      frequencyTargetGeneration := s.frequencyTargetGeneration + 1
      frequencyRampActive := true
      inForce := resolved :: s.inForce }
  else s

/-- `tuning_snapshot` -/
def tuningSnapshot (target : TuningTarget) (reads : TuningReads) : Bool × LiveTuning :=
  match target.resolve with
  | none => (false, { s with frequencyRampActive := false })
  | some resolved =>
      (reads.initialized && reads.globalState && !reads.pauseRequested && reads.ownerMining &&
        reads.holding && !reads.faultLatched && reads.evidenceGood && reads.dispatchAllowed,
       s.retarget resolved)

/-- `tuning_set_active` -/
def tuningSetActive (active : Bool) (generation : U32) : LiveTuning :=
  if s.frequencyTargetGeneration = generation then { s with frequencyRampActive := active } else s

/-- What both regions that change the hardware ask for -/
def authorized (generation : U32) (reads : TuningReads) : Bool :=
  reads.initialized && reads.globalState && !reads.stopRequested && !reads.pauseRequested &&
    reads.ownerMining && reads.holding && !reads.faultLatched &&
    decide (s.frequencyTargetGeneration = generation) && reads.dispatchAllowed

/-- `frequency_apply_voltage` -/
def frequencyApplyVoltage (targetV : ℚ) (generation : U32) (i : ApplyInputs) : Bool × LiveTuning :=
  if s.authorized generation i.applyReads = false then (false, s)
  else if |s.railCommandV - targetV| ≤ BZM_TPS546_VOUT_READBACK_TOLERANCE_V then (true, s)
  else
    let commanded :=
      { s with railCommandV := targetV, events := .railCommand targetV i.railApplied :: s.events }
    if i.railPaused then (false, commanded)
    else if i.railApplied = false then (false, commanded.latchFault 0x1009)
    else (true, commanded)

/-- `frequency_domains_all_at` -/
def frequencyDomainsAllAt (state : BzmBringupState) (targetMhz : ℚ) : Bool :=
  clockDomains.all fun domain =>
    decide (|state.domainClockMhz domain - targetMhz| < TUNING_TOLERANCE)

/-- `frequency_transition_authorized_locked` -/
def frequencyTransitionAuthorizedLocked (generation : U32) (reads : TuningReads) : Bool :=
  s.authorized generation reads && reads.evidenceMonitoring && s.frequencyRampActive

/-- `BZM_staged_frequency_domains_step_live` on the bring-up state: whether it is good, and what it
leaves -/
def stepLive (targetMhz : ClockDomain → ℚ) (allowInitialJump : Bool) (i : ApplyInputs) :
    Bool × BringupMachine :=
  if i.liveReady && s.bringup.state.runningVerified then
    match liveFrequencyDomainsStep i.liveOps targetMhz allowInitialJump s.bringup with
    | .ok _ bringup => (true, bringup)
    | .error _ bringup => (false, bringup)
  else (false, s.bringup)

/-- `frequency_apply_domains` -/
def frequencyApplyDomains (targetMhz : ClockDomain → ℚ) (allowInitialJump : Bool)
    (generation : U32) (i : ApplyInputs) : Bool × LiveTuning :=
  let outcome := s.stepLive targetMhz allowInitialJump i
  let stepped :=
    { s with
      bringup := outcome.2
      events := .transaction s.bringup.state.domainClockMhz targetMhz allowInitialJump :: s.events }
  if stepped.frequencyTransitionAuthorizedLocked generation i.applyReads = false then
    (false, stepped)
  else if outcome.1 = false then (false, stepped.latchFault 0x100a)
  else if i.baselineValid = false then (false, stepped.latchFault 0x100a)
  else (true, stepped)

/-- The rail goes to the voltage of the target; a failure that a stop explains is none. -/
def commandRail (i : ApplyInputs) : Bool × LiveTuning :=
  let generation := s.frequencyTargetGeneration
  let outcome :=
    (s.tuningSetActive true generation).frequencyApplyVoltage s.voltageTargetV generation i
  if outcome.1 then (true, outcome.2)
  else (i.stopRequested, outcome.2.tuningSetActive false generation)

/-- A transaction of the clocks, after which the work is replaced -/
def transact (targetMhz : ClockDomain → ℚ) (allowInitialJump : Bool) (i : ApplyInputs) :
    Bool × LiveTuning :=
  let generation := s.frequencyTargetGeneration
  let outcome := s.frequencyApplyDomains targetMhz allowInitialJump generation i
  if outcome.1 then
    (true,
      { outcome.2 with
        replacementGeneration := i.workAfter.1
        replacementPending := i.workAfter.2.2
        replacementStartedMs := i.startedMs })
  else (i.stopRequested, outcome.2.tuningSetActive false generation)

/-- `next[asic][pll]` -/
def nextDomainMhz (targetMhz currentMhz : ℚ) : ℚ :=
  if targetMhz + TUNING_TOLERANCE < currentMhz then
    max targetMhz (currentMhz - BZM_FREQUENCY_RAMP_STEP_MHZ)
  else if currentMhz < targetMhz - TUNING_TOLERANCE then
    min targetMhz (currentMhz + BZM_FREQUENCY_RAMP_STEP_MHZ)
  else currentMhz

/-- `changing` -/
def domainsChange (targetMhz : ℚ) : Bool :=
  clockDomains.any fun domain =>
    decide (TUNING_TOLERANCE < |s.bringup.state.domainClockMhz domain - targetMhz|)

/-- The clocks take one step to the target, or jump to where the ramp begins. -/
def stepClocks (i : ApplyInputs) : Bool × LiveTuning :=
  let targetMhz := s.frequencyTargetMhz
  let initialMhz := bzmFrequencyInitialMhz targetMhz
  if BZM_FREQUENCY_POWER_ON_MHZ + TUNING_TOLERANCE < targetMhz ∧
      frequencyDomainsAllAt s.bringup.state BZM_FREQUENCY_POWER_ON_MHZ = true ∧
      BZM_FREQUENCY_POWER_ON_MHZ + TUNING_TOLERANCE < initialMhz then
    s.transact (fun _ => initialMhz) true i
  else if s.domainsChange targetMhz = false then
    (true, s.tuningSetActive false s.frequencyTargetGeneration)
  else
    s.transact (fun domain => nextDomainMhz targetMhz (s.bringup.state.domainClockMhz domain))
      false i

/-- `BZM_board_apply` behind the replacement of the work -/
def tune (i : ApplyInputs) : Bool × LiveTuning :=
  if s.bringup.state.runningVerified = false then (true, s)
  else if s.railCommandV + BZM_TPS546_VOUT_READBACK_TOLERANCE_V < s.voltageTargetV then
    s.commandRail i
  else if frequencyDomainsAllAt s.bringup.state s.frequencyTargetMhz then
    -- the rail is lowered only after the lower clock is reached
    if s.voltageTargetV < s.railCommandV - BZM_TPS546_VOUT_READBACK_TOLERANCE_V then s.commandRail i
    else (true, s.tuningSetActive false s.frequencyTargetGeneration)
  else (s.tuningSetActive true s.frequencyTargetGeneration).stepClocks i

/-- The work of the last transaction is not replaced yet. -/
def awaitsReplacement (work : U32 × U32 × Bool) : Bool :=
  s.replacementPending && work.2.2 && (work.2.1 - s.replacementGeneration).msb

/-- `BZM_board_apply` -/
def boardApply (target : TuningTarget) (i : ApplyInputs) : Bool × LiveTuning :=
  let snapshot := s.tuningSnapshot target i.snapshotReads
  if snapshot.1 = false then (true, snapshot.2)
  else if snapshot.2.awaitsReplacement i.work then
    (decide (i.nowMs - snapshot.2.replacementStartedMs < BZM_FREQUENCY_TRANSITION_PROOF_TIMEOUT_MS),
      snapshot.2)
  else { snapshot.2 with replacementPending := false }.tune i

/-! ### Starts and stops -/

/-- `BZM_board_stop` of a board that is initialised and not in maintenance; `safe` is whether it was
found off. -/
def boardStop (safe : Bool) : LiveTuning :=
  { s with
    frequencyTargetGeneration := s.frequencyTargetGeneration + 1
    frequencyRampActive := false
    bringup := s.bringup.update fun _ => bzmBringupInit
    railCommandV := if safe then BZM_TPS546_FIXED_VOUT_V else s.railCommandV
    running := false }

end LiveTuning

/-- What the stages of a start are called with -/
structure StartInputs where
  target : TuningTarget
  chainOps : BzmBringupOps
  sensorOps : BzmBringupOps
  clockOps : BzmBringupOps
  rampOps : BzmBringupOps
  runningOps : BzmBringupOps
  configTdmGapCount : U8
  policy : BzmBringupTelemetryPolicy

/-- The stages of `start_production_mining_locked` on the bring-up state, each behind the one before
it -/
def startScript (i : StartInputs) : BringupScript BzmBringupReport := do
  update fun _ => bzmBringupInit
  let _ ← stageChain4 i.chainOps
  let _ ← stageSensors i.sensorOps (bzmBringupReferenceSensorProfile i.configTdmGapCount) i.policy
  let _ ← stageClocks i.clockOps bzmBringupPll800Profile i.configTdmGapCount i.policy
  let _ ← stageBalancedRamp i.rampOps i.policy
  checkRunning i.runningOps i.policy

namespace LiveTuning

variable (s : LiveTuning)

/-- What `board_start` sets before the stages -/
def startTargets (resolved : ℚ × ℚ) : LiveTuning :=
  { s with
    frequencyTargetMhz := resolved.1
    voltageTargetV := resolved.2
    frequencyTargetGeneration := s.frequencyTargetGeneration + 1
    frequencyRampActive :=
      decide (TUNING_TOLERANCE ≤ |resolved.1 - BZM_FREQUENCY_POWER_ON_MHZ|) ||
        decide (TUNING_TOLERANCE ≤ |resolved.2 - BZM_TPS546_FIXED_VOUT_V|)
    railCommandV := BZM_TPS546_FIXED_VOUT_V
    replacementPending := false
    inForce := [resolved, (BZM_FREQUENCY_POWER_ON_MHZ, BZM_TPS546_FIXED_VOUT_V)] }

/-- `board_start` of a board that is off -/
def boardStart (i : StartInputs) : Bool × LiveTuning :=
  match i.target.resolve with
  | none => (false, s)
  | some resolved =>
      let started := s.startTargets resolved
      match startScript i started.bringup with
      | .ok _ bringup => (true, { started with bringup })
      | .error _ bringup => (false, { started with bringup, frequencyRampActive := false })

end LiveTuning

/-- A step of the power policy with the board, or of the safety monitor.  `cancelled` is whether a
stop was asked for when the call returned. -/
inductive TuningStep where
  | start (i : StartInputs) (cancelled safe : Bool)
  | apply (target : TuningTarget) (i : ApplyInputs) (cancelled safe : Bool)
  | stop (safe : Bool)
  | monitorFault (code : U32)

/-- A call of the board whose failure, or a stop asked for meanwhile, ends in `stop` -/
def orStop (outcome : Bool × LiveTuning) (cancelled safe : Bool) : LiveTuning :=
  if outcome.1 && !cancelled then { outcome.2 with running := true } else outcome.2.boardStop safe

/-- A board that runs is not started, and one that does not is not tuned.  A stop that a call has
seen stays asked for. -/
def TuningStep.perform (s : LiveTuning) : TuningStep → LiveTuning
  | .start i cancelled safe => if s.running then s else orStop (s.boardStart i) cancelled safe
  | .apply target i cancelled safe =>
      if s.running then orStop (s.boardApply target i) (i.stopRequested || cancelled) safe else s
  | .stop safe => s.boardStop safe
  | .monitorFault code => s.latchFault code

def tuningRun (steps : List TuningStep) : LiveTuning := steps.foldl TuningStep.perform .init

end EspMiner
