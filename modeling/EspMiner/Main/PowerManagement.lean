import EspMiner.Power.PowerPolicyIdle
import Mathlib.Logic.Function.Basic

/-!
# The power owner task and its callers

`main/tasks/power_management_task.c`: any number of callers hand pause, resume,
acquire and release requests to the one task that owns the power policy.  Every
access to a shared variable or to a request is a step, and the steps of all
callers and of the task interleave in any order.

A request is the object that a call allocates; it is kept after it was freed,
with the place of its caller and the history of what happened to it.  The policy
belongs to the task alone, so a call of the policy is one step.  Each such step
brings its own board: what the board answers, and what its cancellation check
answers while the epochs move, may be anything.
-/

namespace EspMiner

open Library

/-- `power_request_kind_t` -/
inductive PowerRequestKind where
  | pause
  | resume
  | acquire
  | release
deriving DecidableEq, Repr

/-- `request_state_t` -/
inductive PowerRequestState where
  | waiting
  | complete
  | cancelled
deriving DecidableEq, Repr

/-- Where a caller is in `POWER_MANAGEMENT_request`. -/
inductive PowerCallPlace where
  | absent
  | called
  | allocating
  | stamping
  | enqueueing
  | dropping
  | dropped
  | waiting
  | timedOut
  | revoking
  | reading (completed : Bool)
  | releasing (success : Bool)
  | returned (success : Bool)
deriving DecidableEq, Repr

/-- What happened to a request.  `executed` says how the operation ended and who
owned the policy before it, `processed` who owns it at the end. -/
inductive PowerRequestEvent where
  | created
  | accessed
  | freed
  | enqueued
  | received
  | executed (result : Bool) (ownerBefore : PowerOwner)
  | processed (owner : PowerOwner)
deriving DecidableEq, Repr

/-- `power_request_t`, with its caller and its history, newest event first. -/
structure PowerRequest where
  kind : PowerRequestKind
  owner : PowerOwner
  epoch : U32
  completion : Bool
  references : Nat
  state : PowerRequestState
  success : Bool
  caller : PowerCallPlace
  history : List PowerRequestEvent

namespace PowerRequest

/-- No call has allocated the request yet. -/
def unused : PowerRequest where
  kind := .pause
  owner := .none
  epoch := 0
  completion := false
  references := 0
  state := .waiting
  success := false
  caller := .absent
  history := []

def log (r : PowerRequest) (event : PowerRequestEvent) : PowerRequest :=
  { r with history := event :: r.history }

def goTo (r : PowerRequest) (place : PowerCallPlace) : PowerRequest := { r with caller := place }

/-- `release_request` -/
def drop (r : PowerRequest) : PowerRequest :=
  let dropped := { r with references := r.references - 1 }.log .accessed
  if r.references = 1 then dropped.log .freed else dropped

end PowerRequest

/-- Where the task is in its loop and in `process_request`. -/
inductive PowerTaskPlace where
  | top
  | receive
  | loadState (request : Nat)
  | compareEpoch (request : Nat)
  | acceptEpoch (request : Nat)
  | markMaintenance (request : Nat)
  | execute (request : Nat)
  | clearMaintenance (request : Nat)
  | publish (request : Nat) (success : Bool)
  | complete (request : Nat) (success : Bool)
  | undo (request : Nat) (success : Bool)
  | pauseCancelled (request : Nat)
  | storeMaintenance (request : Nat)
  | give (request : Nat)
  | drop (request : Nat)
  | check
  | checkAccepted (epoch : U32)
  | selfTest
  | stepPolicy
  | waiting
deriving DecidableEq, Repr

/-- What happened to the epochs and to the ownership of the policy. -/
inductive PowerManagementEvent where
  | stopIntent
  | stamped (request : Nat)
  | accepted (request : Nat)
  | stopCheck
  | acquired (request : Nat)
  | vacated
deriving DecidableEq, Repr

/-- What the task meets in a step: the board as it answers in this step, the
flags and settings that it reads, and the arguments of a policy step. -/
structure PowerTaskInput where
  operations : PowerOperations
  ready : Bool
  target : PowerTarget
  poolsUnavailable : Bool
  selfTestFinished : Bool
  step : PowerStepInput

/-- The shared variables, the queue, the requests, and the task. -/
structure PowerManagement where
  stopEpoch : U32
  acceptedEpoch : U32
  maintenance : Bool
  queue : List Nat
  requests : Nat → PowerRequest
  power : PowerMachine
  target : PowerTarget
  place : PowerTaskPlace
  trace : List PowerManagementEvent

def POWER_REQUEST_QUEUE_LENGTH : Nat := 4

namespace PowerManagement

def record (s : PowerManagement) (event : PowerManagementEvent) : PowerManagement :=
  { s with trace := event :: s.trace }

def setRequest (s : PowerManagement) (id : Nat) (r : PowerRequest) : PowerManagement :=
  { s with requests := Function.update s.requests id r }

@[simp] theorem setRequest_self (s : PowerManagement) (id : Nat) (r : PowerRequest) :
    (s.setRequest id r).requests id = r := Function.update_self _ _ _

theorem setRequest_of_ne (s : PowerManagement) {id other : Nat} (h : other ≠ id)
    (r : PowerRequest) : (s.setRequest id r).requests other = s.requests other :=
  Function.update_of_ne h _ _

def goTo (s : PowerManagement) (place : PowerTaskPlace) : PowerManagement :=
  { s with place := place }

/-- The task uses a request. -/
def access (s : PowerManagement) (id : Nat) : PowerManagement :=
  s.setRequest id ((s.requests id).log .accessed)

/-- `revoke_work` -/
def revokeWork (s : PowerManagement) : PowerManagement :=
  { s.record .stopIntent with stopEpoch := s.stopEpoch + 1 }

/-! ## The callers -/

/-- A call of `POWER_MANAGEMENT_request` begins. -/
def call (s : PowerManagement) (id : Nat) (kind : PowerRequestKind) (owner : PowerOwner) :
    PowerManagement :=
  if (s.requests id).caller = .absent then
    s.setRequest id { PowerRequest.unused with kind := kind, owner := owner, caller := .called }
  else s

/-- The next step of a call.  `answer` says whether there is memory, and whether
the semaphore is tried again or the wait times out. -/
def callerStep (s : PowerManagement) (id : Nat) (answer : Bool) : PowerManagement :=
  let r := s.requests id
  match r.caller with
  | .absent | .returned _ => s
  | .called =>
      let s := if r.kind = .pause ∨ r.kind = .acquire then s.revokeWork else s
      s.setRequest id (r.goTo .allocating)
  | .allocating => s.setRequest id (r.goTo (if answer then .stamping else .returned false))
  | .stamping =>
      (s.record (.stamped id)).setRequest id
        (({ r with epoch := s.stopEpoch, references := 2, state := .waiting }.log .created).goTo
          .enqueueing)
  | .enqueueing =>
      if s.queue.length < POWER_REQUEST_QUEUE_LENGTH then
        { s.setRequest id ((r.log .enqueued).goTo .waiting) with queue := s.queue ++ [id] }
      else s.setRequest id (r.goTo .dropping)
  | .dropping => s.setRequest id (r.drop.goTo .dropped)
  | .dropped => s.setRequest id (r.drop.goTo (.returned false))
  | .waiting =>
      if answer = false then s.setRequest id (r.goTo .timedOut)
      else if r.completion then
        s.setRequest id (({ r with completion := false }.log .accessed).goTo (.reading true))
      else s
  | .timedOut =>
      if r.state = .waiting then
        s.setRequest id (({ r with state := .cancelled }.log .accessed).goTo .revoking)
      else s.setRequest id ((r.log .accessed).goTo (.reading (decide (r.state = .complete))))
  | .revoking => s.revokeWork.setRequest id (r.goTo (.reading false))
  | .reading completed =>
      s.setRequest id ((r.log .accessed).goTo (.releasing (completed && r.success)))
  | .releasing success => s.setRequest id (r.drop.goTo (.returned success))

/-! ## The task -/

/-- The policy call that a request stands for. -/
def executeRequest (operations : PowerOperations) (kind : PowerRequestKind) (owner : PowerOwner)
    (m : PowerMachine) : Bool × PowerMachine :=
  match kind with
  | .pause => powerPolicyPause operations m
  | .resume => powerPolicyResume operations m
  | .acquire => powerPolicyMaintenance operations m owner true
  | .release => powerPolicyMaintenance operations m owner false

/-- Whether the policy was acquired for a request, or vacated. -/
def ownerEvents (id : Nat) (before after : PowerOwner) : List PowerManagementEvent :=
  if before = .none ∧ after ≠ .none then [.acquired id]
  else if before ≠ .none ∧ after = .none then [.vacated]
  else []

/-- Run a call of the policy for a request. -/
def setPower (s : PowerManagement) (id : Nat) (power : PowerMachine) : PowerManagement :=
  { s with
    power := power
    trace := ownerEvents id s.power.policy.owner power.policy.owner ++ s.trace }

/-- Where `process_request` goes when it has loaded the state of its request. -/
def afterLoad (r : PowerRequest) (id : Nat) : PowerTaskPlace :=
  match r.kind with
  | .pause => .execute id
  | .release => .execute id  -- also after its caller timed out
  | .resume => if r.state = .cancelled then .publish id false else .compareEpoch id
  | .acquire => if r.state = .cancelled then .publish id false else .markMaintenance id

/-- The next step of the task. -/
def taskStep (s : PowerManagement) (input : PowerTaskInput) : PowerManagement :=
  match s.place with
  | .top =>
      { s with
        target := input.target
        power := s.power.update fun p => { p with
          ready := input.ready
          target := input.target
          poolUnavailable := input.poolsUnavailable } }.goTo .receive
  | .receive =>
      match s.queue with
      | [] => s.goTo .check
      | id :: queue =>
          { s.setRequest id ((s.requests id).log .received) with queue := queue }.goTo
            (.loadState id)
  | .loadState id => (s.access id).goTo (afterLoad (s.requests id) id)
  | .compareEpoch id =>
      (s.access id).goTo
        (if (s.requests id).epoch = s.stopEpoch then .acceptEpoch id else .publish id false)
  | .acceptEpoch id =>
      { (s.access id).record (.accepted id) with acceptedEpoch := (s.requests id).epoch }.goTo
        (.execute id)
  | .markMaintenance id => { s with maintenance := true }.goTo (.execute id)
  | .execute id =>
      let r := s.requests id
      let executed := executeRequest input.operations r.kind r.owner s.power
      ((s.setPower id executed.2).setRequest id
        ((r.log .accessed).log (.executed executed.1 s.power.policy.owner))).goTo
          (if r.kind = .release ∧ executed.1 = true then .clearMaintenance id
          else .publish id executed.1)
  | .clearMaintenance id => { s with maintenance := false }.goTo (.publish id true)
  | .publish id success =>
      (s.setRequest id ({ s.requests id with success := success }.log .accessed)).goTo
        (.complete id success)
  | .complete id success =>
      if (s.requests id).state = .waiting then
        (s.setRequest id ({ s.requests id with state := .complete }.log .accessed)).goTo
          (.storeMaintenance id)
      else (s.access id).goTo (.undo id success)
  | .undo id success =>
      let r := s.requests id
      let s := if success = true ∧ r.kind = .acquire then
          s.setPower id (powerPolicyMaintenance input.operations s.power r.owner false).2
        else s
      (s.access id).goTo (.pauseCancelled id)
  | .pauseCancelled id =>
      let s := if s.power.policy.owner = .none then
          { s with power := (powerPolicyPause input.operations s.power).2 }
        else s
      s.goTo (.storeMaintenance id)
  | .storeMaintenance id =>
      { s with maintenance := decide (s.power.policy.owner ≠ PowerOwner.none) }.goTo (.give id)
  | .give id =>
      (s.setRequest id ({ s.requests id with completion := true }.log .accessed)).goTo (.drop id)
  | .drop id =>
      (s.setRequest id ((s.requests id).drop.log (.processed s.power.policy.owner))).goTo .receive
  | .check => (s.record .stopCheck).goTo (.checkAccepted s.stopEpoch)
  | .checkAccepted epoch =>
      let s := if epoch ≠ s.acceptedEpoch ∧ s.power.policy.paused = false ∧
            s.power.policy.owner = .none then
          { s with power := (powerPolicyPause input.operations s.power).2 }
        else s
      s.goTo .selfTest
  | .selfTest =>
      let s := if input.selfTestFinished then
          { s with power := s.power.update fun p => { p with paused := true } }
        else s
      s.goTo .stepPolicy
  | .stepPolicy =>
      let stepInput := { input.step with target := s.target }
      { s with power := powerPolicyStep input.operations s.power stepInput }.goTo .waiting
  | .waiting => s.goTo .top

/-! ## Runs -/

/-- One step of somebody.  `revoke` is `POWER_MANAGEMENT_wait_started` giving up. -/
inductive Input where
  | call (id : Nat) (kind : PowerRequestKind) (owner : PowerOwner)
  | caller (id : Nat) (answer : Bool)
  | revoke
  | task (input : PowerTaskInput)

def step (s : PowerManagement) : Input → PowerManagement
  | .call id kind owner => s.call id kind owner
  | .caller id answer => s.callerStep id answer
  | .revoke => s.revokeWork
  | .task input => s.taskStep input

/-- The task when it has set `initialized`; the board may have failed to come up. -/
def initialized (boardFailed : Bool) : PowerManagement where
  stopEpoch := 0
  acceptedEpoch := 0
  maintenance := false
  queue := []
  requests := fun _ => .unused
  power := ⟨{ PowerPolicy.initial with fault := boardFailed }, []⟩
  target := .zero
  place := .top
  trace := []

end PowerManagement

end EspMiner
