import EspMiner.Bzm.ReactorSequences

/-!
# The Bonanza driver

The share of `components/asic/bzm_driver.c` that dispatches work: `BZM_send_work`
and `BZM_clear_work`, the live frequency step, and the staged calls that tear the
reactor down and build it again.  The reactor counts its engines by a cursor, the
driver counts the assignments of a replacement rotation down from the number of
engines.  What the transport, the dispatch authorizer and a bring-up stage return
during a call is an input of the call.

`trace` is a history for the proofs, as that of the reactor.
-/

namespace EspMiner

open Library

/-- `bzm_bringup_outcome_t` -/
inductive BzmBringupOutcome where
  | good
  | bad
  | blocked
deriving DecidableEq, Repr

/-- The reactor configuration of `BZM_init` and `BZM_staged_running`. -/
def bzmMiningConfig : BzmReactorConfig where
  engineCount := BZM_ENGINES_PER_ASIC
  timestampCount := 60
  leadZeros := 36
  nonceOffset := 0x4c
  enhancedMode := true

def BZM_SERIAL_TRANSPORT_OPS : BzmTransportOps where
  hasDispatchCheckpoint := false
  hasFlush := true

def STAGED_MINING_OPS : BzmTransportOps where
  hasDispatchCheckpoint := true
  hasFlush := true

inductive BzmDriverEvent where
  | reactorInitialized
  | reactor (event : BzmReactorEvent)
  | replacementStarted (generation : U32)
  | replacementCompleted (generation : U32)
deriving DecidableEq

/-- `bzm_driver_state_t`.  Of the dispatch gate only whether an authorizer is set
is state; `runningVerified` is that of `STAGED_BRINGUP`. -/
structure BzmDriver where
  reactor : BzmReactor
  initialized : Bool
  stagedTransportReady : Bool
  runningVerified : Bool
  stagedDispatchGate : Bool
  workReplacementGeneration : U32
  workReplacementCompleted : U32
  fastDispatchRemaining : Nat
  trace : List BzmDriverEvent

/-- What the callbacks of one `BZM_send_work` return, should it make use of them:
the authorizer, the transport for the first assignment, the flush it may require,
and the transport for the assignment after the flush. -/
structure BzmSendAnswers where
  authorized : Bool
  assign : BzmTransportAnswers
  flush : Bool
  reassign : BzmTransportAnswers
deriving DecidableEq, Repr

/-- What `BZM_staged_frequency_domains_step_live` finds: the lease, the authorizer's
answer and the outcome of the PLL transition. -/
structure BzmLiveAnswers where
  stagedLeaseIoOk : Bool
  authorized : Bool
  outcome : BzmBringupOutcome
deriving DecidableEq, Repr

/-- What `BZM_staged_running` finds: the outcome of `bzm_bringup_check_running` and
whether the parser settles. -/
structure BzmRunningAnswers where
  checkRunning : BzmBringupOutcome
  settled : Bool
deriving DecidableEq, Repr

namespace BzmDriver

/-- `BZM_driver_state_init`.  Nothing reads the reactor's memory before its first
initialisation, only the job store that it will point to. -/
def stateInit (reactor : BzmReactor) : BzmDriver where
  reactor := reactor
  initialized := false
  stagedTransportReady := false
  runningVerified := false
  stagedDispatchGate := false
  workReplacementGeneration := 0
  workReplacementCompleted := 0
  fastDispatchRemaining := 0
  trace := []

variable (d : BzmDriver)

/-- The driver after a call left its reactor in state `reactor`; what the call added
to the reactor's history is added to the driver's. -/
def setReactor (reactor : BzmReactor) : BzmDriver :=
  { d with
    reactor := reactor
    trace := (reactor.trace.take (reactor.trace.length - d.reactor.trace.length)).map .reactor ++
      d.trace }

/-- A successful `bzm_reactor_init` of `REACTOR`. -/
def reactorInitialized (reactor : BzmReactor) : BzmDriver :=
  { d with reactor := reactor, initialized := true, trace := .reactorInitialized :: d.trace }

/-- `start_fast_dispatch_locked` -/
def startFastDispatch (remaining : Nat) : BzmDriver :=
  if remaining = 0 then { d with fastDispatchRemaining := remaining }
  else { d with
    fastDispatchRemaining := remaining
    workReplacementGeneration := d.workReplacementGeneration + 1
    trace := .replacementStarted (d.workReplacementGeneration + 1) :: d.trace }

/-- Clean jobs start a rotation, unless one is under way. -/
def startFastDispatchIfIdle : BzmDriver :=
  if d.fastDispatchRemaining = 0 then d.startFastDispatch d.reactor.config.engineCount else d

/-- `BZM_init`; `ready` when the serial link comes up and the chain answers. -/
def init (ready : Bool) : BzmDriver :=
  let d := { d with
    initialized := false
    stagedTransportReady := false
    runningVerified := false
    stagedDispatchGate := false
    workReplacementGeneration := 0
    workReplacementCompleted := 0 }
  if !ready then d
  else
    match BzmReactor.init bzmMiningConfig BZM_SERIAL_TRANSPORT_OPS d.reactor.jobStore with
    | none => d.startFastDispatch 0
    | some reactor => (d.reactorInitialized reactor).startFastDispatch BZM_ENGINES_PER_ASIC

/-! ### Dispatching work -/

/-- `STAGED_BRINGUP.running_verified` and `bzm_dispatch_gate_is_authorized` -/
def stagedRunningAuthorized (authorized : Bool) : Bool :=
  d.runningVerified && (d.stagedDispatchGate && authorized)

/-- The clean-jobs branch of `BZM_send_work`. -/
def dropCleanWork (template : JobRef) : BzmDriver :=
  if (d.reactor.jobStore.submissionContextOf template).2.cleanJobs then
    (d.setReactor d.reactor.invalidateWork).startFastDispatchIfIdle
  else d

/-- The share of `BZM_send_work` after its last assignment: the completion of the
rotation and the countdown. -/
def countDispatch (status : BzmAssignStatus) : BzmDriver :=
  if status = .ok ∧ d.fastDispatchRemaining = 1 then { d with
    workReplacementCompleted := d.workReplacementGeneration
    fastDispatchRemaining := d.fastDispatchRemaining - 1
    trace := .replacementCompleted d.workReplacementGeneration :: d.trace }
  else if status = .ok ∧ d.fastDispatchRemaining ≠ 0 then
    { d with fastDispatchRemaining := d.fastDispatchRemaining - 1 }
  else d

/-- One `bzm_reactor_assign` of `BZM_send_work` and what follows it. -/
def assignAndCount (template : JobRef) (answers : BzmTransportAnswers) : Bool × BzmDriver :=
  let (status, reactor) := d.reactor.assign template answers
  (decide (status = .ok), (d.setReactor reactor).countDispatch status)

/-- The flush branch of `BZM_send_work`. -/
def flushAndAssign (template : JobRef) (answers : BzmSendAnswers) : Bool × BzmDriver :=
  let (flushed, reactor) := d.reactor.beginFlush answers.flush
  let d := d.setReactor reactor
  if !flushed then (false, d)
  else
    let d := d.setReactor d.reactor.finishFlush
    (d.startFastDispatch d.reactor.config.engineCount).assignAndCount template answers.reassign

/-- `BZM_send_work` -/
def sendWork (template : JobRef) (answers : BzmSendAnswers) : Bool × BzmDriver :=
  if !d.initialized then (false, d)
  else if d.stagedTransportReady && !d.stagedRunningAuthorized answers.authorized then (false, d)
  else
    let d := d.dropCleanWork template
    match d.reactor.assign template answers.assign with
    | (.flushRequired, reactor) => (d.setReactor reactor).flushAndAssign template answers
    | (status, reactor) =>
        (decide (status = .ok), (d.setReactor reactor).countDispatch status)

/-- `BZM_clear_work` -/
def clearWork : Bool × BzmDriver :=
  if !d.initialized then (true, d)
  else (true, (d.setReactor d.reactor.invalidateWork).startFastDispatchIfIdle)

/-! ### The staged calls -/

/-- `staged_fail_closed_locked` -/
def stagedFailClosed : BzmDriver :=
  { d with
    initialized := false
    stagedTransportReady := false
    runningVerified := false
    stagedDispatchGate := false }

/-- `BZM_staged_hold_reset` -/
def stagedHoldReset : BzmDriver := d.stagedFailClosed

/-- `BZM_staged_initialize`; `ready` when lease, reset, serial link and transport are. -/
def stagedInitialize (ready : Bool) : BzmBringupOutcome × BzmDriver :=
  if ready then (.good, { d.stagedFailClosed with stagedTransportReady := true })
  else (.bad, d.stagedFailClosed)

/-- `BZM_staged_frequency_domains_step_live` -/
def stagedFrequencyDomainsStepLive (answers : BzmLiveAnswers) : BzmBringupOutcome × BzmDriver :=
  if !d.stagedTransportReady || !answers.stagedLeaseIoOk ||
      !d.stagedRunningAuthorized answers.authorized then (.blocked, d)
  else if answers.outcome = .good then
    let d := d.setReactor d.reactor.invalidateWork
    (.good, d.startFastDispatch d.reactor.config.engineCount)
  else (answers.outcome, d)

/-- `BZM_staged_running` -/
def stagedRunning (answers : BzmRunningAnswers) : BzmBringupOutcome × BzmDriver :=
  if !d.stagedTransportReady then (.blocked, d)
  else if answers.checkRunning ≠ .good then (answers.checkRunning, d.stagedFailClosed)
  else
    match BzmReactor.init bzmMiningConfig STAGED_MINING_OPS d.reactor.jobStore with
    | none => (.bad, d.stagedFailClosed)
    | some reactor =>
        let d := { d.reactorInitialized reactor with runningVerified := true }
        if answers.settled then (.good, d) else (.bad, d.stagedFailClosed)

/-- `BZM_staged_set_dispatch_authorizer`, with or without an authorizer. -/
def stagedSetDispatchAuthorizer (authorizer : Bool) : BzmDriver :=
  { d with stagedDispatchGate := authorizer }

end BzmDriver

/-! ### Runs -/

/-- A call on the driver, or one that opens or closes the submission scope of the
job store. -/
inductive BzmDriverOp where
  | sendWork (template : JobRef) (answers : BzmSendAnswers)
  | clearWork
  | stagedFrequencyDomainsStepLive (answers : BzmLiveAnswers)
  | stagedHoldReset
  | stagedInitialize (ready : Bool)
  | stagedRunning (answers : BzmRunningAnswers)
  | stagedSetDispatchAuthorizer (authorizer : Bool)
  | beginSubmission (job : JobRef) (context : AsicJobContext)
  | endSubmission

namespace BzmDriver

def step (d : BzmDriver) : BzmDriverOp → BzmDriver
  | .sendWork template answers => (d.sendWork template answers).2
  | .clearWork => d.clearWork.2
  | .stagedFrequencyDomainsStepLive answers => (d.stagedFrequencyDomainsStepLive answers).2
  | .stagedHoldReset => d.stagedHoldReset
  | .stagedInitialize ready => (d.stagedInitialize ready).2
  | .stagedRunning answers => (d.stagedRunning answers).2
  | .stagedSetDispatchAuthorizer authorizer => d.stagedSetDispatchAuthorizer authorizer
  | .beginSubmission job context =>
      d.setReactor (d.reactor.step (.beginSubmission job context))
  | .endSubmission => d.setReactor (d.reactor.step .endSubmission)

end BzmDriver

/-! ### Coverage -/

namespace BzmDriverTrace

/-- A flush or an initialisation of the reactor takes the work from every engine. -/
def isClearing : BzmDriverEvent → Bool
  | .reactorInitialized => true
  | .reactor .flushBegun => true
  | .reactor (.flush _) => true
  | .reactor .flushFinished => true
  | _ => false

def isReplacementStarted : BzmDriverEvent → Bool
  | .replacementStarted _ => true
  | _ => false

/-- The assignments of a stretch of history. -/
def assignedRecords (trace : List BzmDriverEvent) : List BzmAssigned :=
  trace.filterMap fun
    | .reactor (.assigned record) => some record
    | _ => none

/-- `generation` is the last one started, and every logical engine has had work
assigned to it since, with nothing after it that cleared the engine. -/
def Covers (generation : U32) (trace : List BzmDriverEvent) : Prop :=
  ∃ between rest, trace = between ++ .replacementStarted generation :: rest ∧
    (∀ event ∈ between, isReplacementStarted event = false) ∧
    ∀ logicalEngineId < BZM_ENGINES_PER_ASIC,
      ∃ record ∈ assignedRecords (since isClearing between),
        record.engine.topologyIndex = logicalEngineId

/-- Replacement completion means full coverage. -/
def CompletionsCover (trace : List BzmDriverEvent) : Prop :=
  ∀ newer generation older, trace = newer ++ .replacementCompleted generation :: older →
    Covers generation older

end BzmDriverTrace

end EspMiner
