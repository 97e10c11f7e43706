import EspMiner.Asic.Job
import EspMiner.Library.Binary32
import EspMiner.Library.Run

/-!
# The power policy

`components/power_management/power_policy.c`: when the board is started,
stopped, cooled down and handed to a maintenance owner.

The callbacks of the board are functions of the calls made so far, which grow
with every call: any sequence of answers is one such board.  The trace records
each call with the policy as it was when the call was made, and where a step or
a resume begins; it has no counterpart in the source.
-/

namespace EspMiner

open Library

/-- `power_target_t` -/
structure PowerTarget where
  voltageMv : U16
  frequencyMhz : Binary32
deriving DecidableEq

/-- `power_health_t` -/
inductive PowerHealth where
  | ok
  | overheat
  | fault
deriving DecidableEq, Repr

/-- `power_start_result_t` -/
inductive PowerStartResult where
  | ok
  | failed
  | overheat
deriving DecidableEq, Repr

/-- `power_owner_t` -/
inductive PowerOwner where
  | none
  | ota
  | bridge
  | restart
deriving DecidableEq, Repr

/-- `power_sample_t`, without the text that explains a fault. -/
structure PowerSample where
  health : PowerHealth
  vregValid : Bool
  vregC : Binary32
  offAsicSensorRequired : Bool
  asicValid : Bool
  asicC : Binary32
deriving DecidableEq

/-- `power_policy_t`, without the callbacks. -/
structure PowerPolicy where
  ready : Bool
  running : Bool
  stopped : Bool
  paused : Bool
  fault : Bool
  cooling : Bool
  reducedTargetSaved : Bool
  poolUnavailable : Bool
  target : PowerTarget
  owner : PowerOwner
  coolingSinceMs : U64
  coolingTarget : PowerTarget
deriving DecidableEq

/-- The arguments of `power_policy_step`. -/
structure PowerStepInput where
  nowMs : U64
  target : PowerTarget
  sample : PowerSample
  poolsUnavailable : Bool
  hardwareFault : Bool
  persistedOverheat : Bool
deriving DecidableEq

/-- A callback with its answer, or the beginning of a step or a resume. -/
inductive PowerEvent where
  | stepBegins (input : PowerStepInput)
  | resumeBegins
  | start (result : PowerStartResult)
  | stop (result : Bool)
  | apply (target : PowerTarget) (result : Bool)
  | maintenance (owner : PowerOwner) (acquire result : Bool)
  | overheat (enabled : Bool)
  | saveTarget (target : PowerTarget) (result : Bool)
  | cancelled (result : Bool)
deriving DecidableEq

/-- An event, and the policy when it happened. -/
structure PowerCall where
  policy : PowerPolicy
  event : PowerEvent
deriving DecidableEq

/-- `power_operations_t`; the answers may depend on all earlier calls. -/
structure PowerOperations where
  start : List PowerCall → PowerStartResult
  stop : List PowerCall → Bool
  apply : List PowerCall → PowerTarget → Bool
  maintenance : List PowerCall → PowerOwner → Bool → Bool
  saveTarget : List PowerCall → PowerTarget → Bool
  cancelled : Option (List PowerCall → Bool)
  minimumVoltageMv : U16
  minimumFrequencyMhz : Binary32

/-- `(power_target_t){0}` -/
def PowerTarget.zero : PowerTarget := ⟨0, Binary32.ofNat 0⟩

/-- The policy that `power_policy_init` leaves. -/
def PowerPolicy.initial : PowerPolicy where
  ready := false
  running := false
  stopped := false
  paused := false
  fault := false
  cooling := false
  reducedTargetSaved := false
  poolUnavailable := false
  target := .zero
  owner := .none
  coolingSinceMs := 0
  coolingTarget := .zero

/-- `power_policy_init`, for operations whose callbacks are all present. -/
def powerPolicyInit (operations : PowerOperations) : Option PowerPolicy :=
  if operations.minimumVoltageMv = 0 ∨ operations.minimumFrequencyMhz.isFinite = false ∨
      operations.minimumFrequencyMhz.le (.ofNat 0) = true then none
  else some .initial

/-- The policy and what happened so far, newest first. -/
structure PowerMachine where
  policy : PowerPolicy
  trace : List PowerCall

namespace PowerMachine

/-- Append an event to the trace. -/
def record (m : PowerMachine) (event : PowerEvent) : PowerMachine :=
  { m with trace := ⟨m.policy, event⟩ :: m.trace }

/-- Change the policy. -/
def update (m : PowerMachine) (change : PowerPolicy → PowerPolicy) : PowerMachine :=
  { m with policy := change m.policy }

@[simp] theorem record_policy (m : PowerMachine) (event : PowerEvent) :
    (m.record event).policy = m.policy := rfl

@[simp] theorem record_trace (m : PowerMachine) (event : PowerEvent) :
    (m.record event).trace = ⟨m.policy, event⟩ :: m.trace := rfl

@[simp] theorem update_policy (m : PowerMachine) (change : PowerPolicy → PowerPolicy) :
    (m.update change).policy = change m.policy := rfl

@[simp] theorem update_trace (m : PowerMachine) (change : PowerPolicy → PowerPolicy) :
    (m.update change).trace = m.trace := rfl

end PowerMachine

/-- `UINT64_MAX`: the cooldown clock is not set yet. -/
def COOLING_CLOCK_UNSET : U64 := 0xffffffffffffffff#64

/-- How an attempt to start the board ended. -/
inductive PowerStartOutcome where
  | running
  | overheated
  | failed
deriving DecidableEq

section Operations

variable (operations : PowerOperations)

/-- `stop`; its answer is `policy->stopped`. -/
def powerStop (m : PowerMachine) : PowerMachine :=
  let m := m.update fun p => { p with running := false }
  let stopped := operations.stop m.trace
  (m.record (.stop stopped)).update fun p => { p with
    stopped := stopped
    fault := p.fault || !stopped }

/-- `cancelled` -/
def powerCancelled (m : PowerMachine) : Bool × PowerMachine :=
  match operations.cancelled with
  | none => (false, m)
  | some cancelled => (cancelled m.trace, m.record (.cancelled (cancelled m.trace)))

/-- `begin_cooling` -/
def beginCooling (m : PowerMachine) (nowMs : U64) (target : PowerTarget) : PowerMachine :=
  let m := m.update fun p => { p with
    cooling := true
    coolingSinceMs := nowMs
    coolingTarget := target
    reducedTargetSaved := false }
  powerStop operations (m.record (.overheat true))

/-- The start that a resume and a recovery share.  An overheated start leaves
`begin_cooling` to its caller. -/
def powerStart (m : PowerMachine) : PowerStartOutcome × PowerMachine :=
  let started := operations.start m.trace
  let m := m.record (.start started)
  -- `started == POWER_START_OVERHEAT && !cancelled(policy)`
  let first := if started = .overheat then powerCancelled operations m else (true, m)
  if first.1 = false then (.overheated, first.2)
  else
    -- `started != POWER_START_OK || cancelled(policy)`
    let second :=
      if started ≠ .ok then (true, first.2) else powerCancelled operations first.2
    if second.1 = true then
      let third := powerCancelled operations second.2
      (.failed, powerStop operations (third.2.update fun p => { p with fault := !third.1 }))
    else
      (.running, second.2.update fun p => { p with running := true, stopped := false })

/-- `power_policy_pause` -/
def powerPolicyPause (m : PowerMachine) : Bool × PowerMachine :=
  let m := m.update fun p => { p with paused := true }
  if m.policy.owner ≠ .none then (false, m)
  else
    let m := powerStop operations m
    (m.policy.stopped, m)

/-- `power_policy_resume` -/
def powerPolicyResume (m : PowerMachine) : Bool × PowerMachine :=
  let m := m.record .resumeBegins
  if m.policy.ready = false ∨ m.policy.fault = true ∨ m.policy.owner ≠ .none then (false, m)
  else
    let m := m.update fun p => { p with paused := false }
    if m.policy.cooling = true ∨ m.policy.poolUnavailable = true then (true, m)
    else if m.policy.running = true then (true, m)
    else
      let attempt := powerStart operations m
      match attempt.1 with
      | .overheated =>
          (false, beginCooling operations attempt.2 COOLING_CLOCK_UNSET attempt.2.policy.target)
      | .failed => (false, attempt.2)
      | .running => (true, attempt.2)

/-- `power_policy_maintenance` -/
def powerPolicyMaintenance (m : PowerMachine) (owner : PowerOwner) (acquire : Bool) :
    Bool × PowerMachine :=
  if owner = .none then (false, m)
  else if acquire = true then
    if m.policy.owner ≠ .none then (false, m)
    else
      let m := m.update fun p => { p with paused := true, running := false }
      let acquired := operations.maintenance m.trace owner true
      let m := m.record (.maintenance owner true acquired)
      if acquired = false then
        (false, m.update fun p => { p with fault := true, stopped := false })
      else (true, m.update fun p => { p with owner := owner, stopped := true })
  else if m.policy.owner ≠ owner then (false, m)
  else
    let released := operations.maintenance m.trace owner false
    let m := (m.record (.maintenance owner false released)).update fun p =>
      { p with owner := .none }
    if released = false then
      (false, m.update fun p => { p with fault := true, stopped := false })
    else (true, m)

/-- The target that a recovery saves: 100 mV and 100 MHz less, within the
configured minimums. -/
def reducedTarget (target : PowerTarget) : PowerTarget where
  voltageMv :=
    if operations.minimumVoltageMv.toNat + 100 < target.voltageMv.toNat then target.voltageMv - 100
    else operations.minimumVoltageMv
  frequencyMhz := operations.minimumFrequencyMhz.fmaxf (target.frequencyMhz.sub (.ofNat 100))

/-- The part of the recovery that saves the reduced target, once an episode;
without it the recovery does not go on. -/
def saveReducedTarget (m : PowerMachine) : Bool × PowerMachine :=
  if m.policy.reducedTargetSaved = true then (true, m)
  else
    let target := m.policy.coolingTarget
    if target.frequencyMhz.isFinite = false ∨
        target.frequencyMhz.lt operations.minimumFrequencyMhz = true ∨
        target.voltageMv.toNat < operations.minimumVoltageMv.toNat then
      (false, m.update fun p => { p with fault := true })
    else
      let reduced := reducedTarget operations target
      let saved := operations.saveTarget m.trace reduced
      let m := m.record (.saveTarget reduced saved)
      if saved = false then (false, m.update fun p => { p with fault := true })
      else (true, m.update fun p => { p with reducedTargetSaved := true })

/-- The samples allow no recovery yet; a hot ASIC restarts the cooldown. -/
def coolingGate (m : PowerMachine) (input : PowerStepInput) : Bool × PowerMachine :=
  let m := if m.policy.coolingSinceMs = COOLING_CLOCK_UNSET then
      m.update fun p => { p with coolingSinceMs := input.nowMs }
    else m
  let sample := input.sample
  if m.policy.stopped = false ∨ sample.vregValid = false ∨ sample.vregC.isFinite = false then
    (false, m)
  else if sample.offAsicSensorRequired = true ∧
      (sample.asicValid = false ∨ sample.asicC.isFinite = false) then (false, m)
  else if sample.offAsicSensorRequired = true ∧ (Binary32.ofNat 45).lt sample.asicC = true then
    (false, m.update fun p => { p with coolingSinceMs := input.nowMs })
  else if input.nowMs < m.policy.coolingSinceMs ∨
      (input.nowMs - m.policy.coolingSinceMs).toNat < 30000 ∨
      (Binary32.ofNat 95).lt sample.vregC = true then (false, m)
  else (true, m)

/-- The branch of `power_policy_step` while the policy is cooling. -/
def recoverStep (m : PowerMachine) (input : PowerStepInput) : PowerMachine :=
  let gate := coolingGate m input
  if gate.1 = false then gate.2
  else
    let saved := saveReducedTarget operations gate.2
    if saved.1 = false then saved.2
    else if saved.2.policy.ready = false ∨ saved.2.policy.paused = true ∨
        input.poolsUnavailable = true then saved.2
    else
      let attempt := powerStart operations saved.2
      match attempt.1 with
      | .overheated => beginCooling operations attempt.2 input.nowMs input.target
      | .failed => attempt.2
      | .running => (attempt.2.update fun p => { p with cooling := false }).record (.overheat false)

/-- The branch of `power_policy_step` outside of a cooling episode. -/
def operateStep (m : PowerMachine) (input : PowerStepInput) : PowerMachine :=
  if m.policy.paused = true ∨ input.poolsUnavailable = true ∨ m.policy.ready = false then
    if m.policy.stopped = false then powerStop operations m else m
  else
    let resumed := if m.policy.running = false then powerPolicyResume operations m else (true, m)
    if resumed.1 = false then resumed.2
    else
      let m := resumed.2
      let applied := operations.apply m.trace input.target
      let m := m.record (.apply input.target applied)
      -- `!apply(...) || cancelled(policy)`
      let failed := if applied = false then (true, m) else powerCancelled operations m
      if failed.1 = true then
        let second := powerCancelled operations failed.2
        powerStop operations (second.2.update fun p => { p with fault := !second.1 })
      else failed.2

/-- The board or its sample reports a fault. -/
def ReportsFault (input : PowerStepInput) : Prop :=
  input.hardwareFault = true ∨ input.sample.health = .fault

instance (input : PowerStepInput) : Decidable (ReportsFault input) :=
  inferInstanceAs (Decidable (_ ∨ _))

/-- A sample or the persisted flag begins a cooling episode. -/
def BeginsCooling (p : PowerPolicy) (input : PowerStepInput) : Prop :=
  p.cooling = false ∧ (input.sample.health = .overheat ∨ input.persistedOverheat = true)

instance (p : PowerPolicy) (input : PowerStepInput) : Decidable (BeginsCooling p input) :=
  inferInstanceAs (Decidable (_ ∧ _))

/-- The first lines of `power_policy_step`. -/
def PowerMachine.beginStep (m : PowerMachine) (input : PowerStepInput) : PowerMachine :=
  (m.record (.stepBegins input)).update fun p => { p with
    target := input.target
    poolUnavailable := input.poolsUnavailable }

/-- `power_policy_step` -/
def powerPolicyStep (m : PowerMachine) (input : PowerStepInput) : PowerMachine :=
  let m := m.beginStep input
  if m.policy.owner ≠ .none then m
  else
    let m := if ReportsFault input then m.update fun p => { p with fault := true } else m
    if m.policy.fault = true then
      if m.policy.stopped = false then powerStop operations m else m
    else
      let begun := if BeginsCooling m.policy input then
          beginCooling operations m input.nowMs input.target
        else m
      if BeginsCooling m.policy input ∧ begun.policy.stopped = false then begun
      else if begun.policy.cooling = true then recoverStep operations begun input
      else operateStep operations begun input

/-! ## Runs -/

/-- One call of the policy by its owner task. -/
inductive PowerInput where
  | setReady (ready : Bool)
  | pause
  | resume
  | maintenance (owner : PowerOwner) (acquire : Bool)
  | step (input : PowerStepInput)

/-- One call of the policy, its answer dropped. -/
def PowerMachine.step (m : PowerMachine) : PowerInput → PowerMachine
  | .setReady ready => m.update fun p => { p with ready := ready }
  | .pause => (powerPolicyPause operations m).2
  | .resume => (powerPolicyResume operations m).2
  | .maintenance owner acquire => (powerPolicyMaintenance operations m owner acquire).2
  | .step input => powerPolicyStep operations m input

end Operations

end EspMiner
