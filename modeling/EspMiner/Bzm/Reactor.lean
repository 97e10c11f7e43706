import EspMiner.Bzm.Work

/-!
# The Bonanza reactor

`components/asic/bzm_reactor.c`, as production drives it: the per-engine
round-robin scheduler, the hardware flush barrier, pool invalidation and the two
questions asked about a raw result.  A call takes what the transport's callbacks
return during it as an input.  The batch dispatcher `bzm_reactor_dispatch`, its
cursor and `bzm_reactor_clear_work` have no production caller and are left out.

`trace` is a history for the proofs; no operation reads it.
-/

namespace EspMiner

open Library

def BZM_ENGINES_PER_ASIC : Nat := BZM_TOPOLOGY_ENGINE_COUNT
def BZM_MAX_ACTIVE_WORK : Nat := 256

/-- `bzm_engine_state_t` -/
inductive BzmEngineState where
  | idle
  | assigned
  | flushing
  | resultPending
  | unhealthy
deriving DecidableEq, Repr

/-- `bzm_assign_status_t` -/
inductive BzmAssignStatus where
  | ok
  | busy
  | flushRequired
  | storeError
  | transportError
  | invalid
deriving DecidableEq, Repr

/-- Which of the optional callbacks of `bzm_transport_ops_t` are set. -/
structure BzmTransportOps where
  hasDispatchCheckpoint : Bool
  hasFlush : Bool
deriving DecidableEq, Repr

/-- What the callbacks return, should the call make use of them. -/
structure BzmTransportAnswers where
  writeWork : Bool
  dispatchCheckpoint : Bool
  flush : Bool
deriving DecidableEq, Repr

/-- `bzm_reactor_config_t` -/
structure BzmReactorConfig where
  engineCount : Nat
  timestampCount : U8
  leadZeros : U8
  nonceOffset : U32
  enhancedMode : Bool
deriving DecidableEq, Repr

/-- `bzm_assignment_t` -/
structure BzmAssignment where
  active : Bool
  logicalEngineId : Nat
  engineId : Nat
  state : BzmEngineState
  logicalSequence : U8
  epoch : U32
  handle : AsicWorkHandle
  timestampCount : U8
  baseNtime : U32
  baseVersion : U32
  nonceOffset : U32
  enhancedMode : Bool
  versionCount : Nat
  versions : List U32
deriving DecidableEq

/-- `(bzm_assignment_t){0}` -/
def BzmAssignment.zero : BzmAssignment where
  active := false
  logicalEngineId := 0
  engineId := 0
  state := .idle
  logicalSequence := 0
  epoch := 0
  handle := 0
  timestampCount := 0
  baseNtime := 0
  baseVersion := 0
  nonceOffset := 0
  enhancedMode := false
  versionCount := 0
  versions := []

/-- A successful assignment: the engine, the work item written to it, the
submission context it was stored under and the epoch it belongs to. -/
structure BzmAssigned where
  engine : BzmEngineLocation
  work : BzmWork
  context : AsicJobContext
  epoch : NonzeroCounter 32
deriving DecidableEq

/-- The table entry of a successful assignment. -/
def BzmAssigned.toAssignment (record : BzmAssigned) (nonceOffset : U32) : BzmAssignment where
  active := true
  logicalEngineId := record.engine.topologyIndex
  engineId := record.engine.physicalId
  state := .assigned
  logicalSequence := record.work.logicalSequence
  epoch := record.epoch.val
  handle := record.work.source.handle
  timestampCount := record.work.timestampCount
  baseNtime := record.work.startNtime
  baseVersion := record.work.source.template.job.version
  nonceOffset := nonceOffset
  enhancedMode := decide (1 < record.work.midstateCount)
  versionCount := record.work.midstateCount
  versions := record.work.versions

inductive BzmReactorEvent where
  | stored (handle : AsicWorkHandle)
  | writeWork (work : BzmWork) (ok : Bool)
  | dispatchCheckpoint (ok : Bool)
  | assigned (record : BzmAssigned)
  | invalidated
  | flushBegun
  | flush (ok : Bool)
  | flushFinished
deriving DecidableEq

/-- `bzm_reactor_t`.  A row of `retired_sequences` is one bit per sequence. -/
structure BzmReactor where
  jobStore : AsicJobStore
  transport : BzmTransportOps
  config : BzmReactorConfig
  assignments : Nat → BzmAssignment
  previousAssignments : Nat → BzmAssignment
  nextEngineSequence : Nat → U8
  retiredSequences : Nat → BitVec 256
  previousBatch : BzmAssignment
  previousBatchComplete : Bool
  nextEngine : Nat
  epoch : NonzeroCounter 32
  flushPending : Bool
  flushComplete : Bool
  resultsQuarantined : Bool
  trace : List BzmReactorEvent

/-- The share of an `asic_event_t` that `bzm_reactor_map_result` fills. -/
structure AsicResult where
  jobValid : Bool
  job : AsicJob
  context : AsicJobContext
  workHandle : AsicWorkHandle
  nonce : U32
  finalNtime : U32
  finalVersion : U32
  versionBits : U32
  timestampUs : U64
  asicIndex : Nat
  engineId : Nat
  sequenceId : U8
  microJobId : U8
  generation : U32
deriving DecidableEq

/-- `sequence_space`; the highest sequence belongs to flush and sentinel work. -/
def BzmReactorConfig.sequenceSpace (config : BzmReactorConfig) : Nat :=
  if config.enhancedMode then 63 else 255

/-- The logical sequence of a raw result. -/
def BzmReactorConfig.rawSequence (config : BzmReactorConfig) (raw : BzmRawResult) : U8 :=
  if config.enhancedMode then raw.sequenceId >>> 2 else raw.sequenceId

/-- The FIFO position of a raw result. -/
def BzmReactorConfig.rawMicroJob (config : BzmReactorConfig) (raw : BzmRawResult) : U8 :=
  if config.enhancedMode then raw.sequenceId &&& 0x03#8 else 0#8

/-- `scheduled_engine_at` -/
def scheduledEngineAt (scheduleIndex : Nat) : Option BzmEngineLocation :=
  bzmTopologyActivationAt scheduleIndex .bottom

/-- The test of the loops of `find_assignment`. -/
def BzmAssignment.names (assignment : BzmAssignment) (engineId : Nat) (logicalSequence : U8) :
    Bool :=
  assignment.active && decide (assignment.engineId = engineId) &&
    decide (assignment.logicalSequence = logicalSequence)

/-- The first of the `BZM_MAX_ACTIVE_WORK` indices that passes a test. -/
def firstIndex (test : Nat → Bool) : Option Nat := (List.range BZM_MAX_ACTIVE_WORK).find? test

/-- `retire_assignment` -/
def retireAssignment (retired : Nat → BitVec 256) (assignment : BzmAssignment) :
    Nat → BitVec 256 :=
  if assignment.active then
    Function.update retired assignment.logicalEngineId
      (retired assignment.logicalEngineId |||
        BitVec.twoPow 256 assignment.logicalSequence.toNat)
  else retired

namespace BzmReactor

/-- `bzm_reactor_init`, with a transport that can write work. -/
def init (config : BzmReactorConfig) (transport : BzmTransportOps) (jobStore : AsicJobStore) :
    Option BzmReactor :=
  if config.engineCount = 0 ∨ BZM_ENGINES_PER_ASIC < config.engineCount ∨
      0x7f#8 < config.timestampCount then none
  else some {
    jobStore := jobStore
    transport := transport
    config := config
    assignments := fun _ => BzmAssignment.zero
    previousAssignments := fun _ => BzmAssignment.zero
    nextEngineSequence := fun _ => 0
    retiredSequences := fun _ => 0
    previousBatch := BzmAssignment.zero
    previousBatchComplete := false
    nextEngine := 0
    epoch := NonzeroCounter.one
    flushPending := false
    flushComplete := false
    resultsQuarantined := false
    trace := [] }

variable (r : BzmReactor)

/-- `find_assignment` -/
def findAssignment (engineId : Nat) (logicalSequence : U8) : Option BzmAssignment :=
  match firstIndex fun i => (r.assignments i).names engineId logicalSequence with
  | some i => some (r.assignments i)
  | none =>
      (firstIndex fun i => (r.previousAssignments i).names engineId logicalSequence).map
        r.previousAssignments

/-- `find_engine_assignment`, as an index. -/
def findEngineAssignment (engineId : Nat) : Option Nat :=
  firstIndex fun i => (r.assignments i).active && decide ((r.assignments i).engineId = engineId)

/-- `free_assignment`, as an index. -/
def freeAssignment : Option Nat :=
  firstIndex fun i => !(r.assignments i).active || decide ((r.assignments i).state = .idle)

/-- `existing ? existing : free_assignment(reactor)` -/
def assignmentIndexFor (engineId : Nat) : Option Nat :=
  match r.findEngineAssignment engineId with
  | some i => some i
  | none => r.freeAssignment

/-! ### The flush barrier -/

/-- `flush_complete = transport.flush == NULL || transport.flush(context)` -/
def callFlush (answer : Bool) : BzmReactor :=
  if r.transport.hasFlush then
    { r with flushComplete := answer, trace := .flush answer :: r.trace }
  else { r with flushComplete := true }

/-- What `bzm_reactor_begin_flush` does before its first flush. -/
def openFlush : BzmReactor :=
  let flushing (assignment : BzmAssignment) : BzmAssignment :=
    if assignment.active then { assignment with state := .flushing } else assignment
  { r with
    flushPending := true
    flushComplete := false
    epoch := r.epoch.next
    jobStore := r.jobStore.invalidateAll
    assignments := fun i => flushing (r.assignments i)
    previousAssignments := fun i => flushing (r.previousAssignments i)
    previousBatch :=
      if r.previousBatchComplete then { r.previousBatch with state := .flushing }
      else r.previousBatch
    trace := .flushBegun :: r.trace }

/-- `bzm_reactor_begin_flush` -/
def beginFlush (flushAnswer : Bool) : Bool × BzmReactor :=
  if r.flushPending then
    if r.flushComplete then (true, r)
    else ((r.callFlush flushAnswer).flushComplete, r.callFlush flushAnswer)
  else ((r.openFlush.callFlush flushAnswer).flushComplete, r.openFlush.callFlush flushAnswer)

/-- `bzm_reactor_finish_flush` -/
def finishFlush : BzmReactor :=
  if !r.flushPending || !r.flushComplete then r
  else { r with
    assignments := fun _ => BzmAssignment.zero
    previousAssignments := fun _ => BzmAssignment.zero
    nextEngineSequence := fun _ => 0
    retiredSequences := fun _ => 0
    previousBatch := BzmAssignment.zero
    previousBatchComplete := false
    nextEngine := 0
    flushPending := false
    flushComplete := false
    resultsQuarantined := true
    trace := .flushFinished :: r.trace }

/-- The loop of `bzm_reactor_invalidate_work`. -/
def retireAll : Nat → BitVec 256 :=
  (List.range BZM_MAX_ACTIVE_WORK).foldl (fun retired i =>
    retireAssignment (retireAssignment retired (r.assignments i)) (r.previousAssignments i))
    r.retiredSequences

/-- `bzm_reactor_invalidate_work` -/
def invalidateWork : BzmReactor :=
  { r with
    jobStore := r.jobStore.invalidateAll
    retiredSequences := r.retireAll
    epoch := r.epoch.next
    trace := .invalidated :: r.trace }

/-! ### Assigning work -/

/-- What `bzm_reactor_assign` does when a transport callback fails. -/
def abortAssign (handle : AsicWorkHandle) (flushAnswer : Bool) : BzmReactor :=
  let (flushed, r) :=
    { r with jobStore := (r.jobStore.release handle).2 }.beginFlush flushAnswer
  if flushed then r.finishFlush else r

/-- The bookkeeping of a successful `bzm_reactor_assign`. -/
def commitAssignment (scheduleIndex index : Nat) (record : BzmAssigned) : BzmReactor :=
  let previous := r.previousAssignments index
  let current := r.assignments index
  let nextEngine := (scheduleIndex + 1) % r.config.engineCount
  { r with
    retiredSequences :=
      if previous.active then retireAssignment r.retiredSequences previous
      else r.retiredSequences
    jobStore :=
      if previous.active then (r.jobStore.release previous.handle).2 else r.jobStore
    previousAssignments := Function.update r.previousAssignments index
      (if current.active then current else BzmAssignment.zero)
    assignments := Function.update r.assignments index (record.toAssignment r.config.nonceOffset)
    nextEngine := nextEngine
    resultsQuarantined := if nextEngine = 0 then false else r.resultsQuarantined
    nextEngineSequence :=
      Function.update r.nextEngineSequence scheduleIndex (record.work.logicalSequence + 1#8)
    trace := .assigned record :: r.trace }

/-- `bzm_reactor_assign` from `write_work` on. -/
def writeAndCommit (scheduleIndex index : Nat) (record : BzmAssigned)
    (answers : BzmTransportAnswers) : BzmAssignStatus × BzmReactor :=
  let handle := record.work.source.handle
  let r := { r with trace := .writeWork record.work answers.writeWork :: r.trace }
  if !answers.writeWork then (.transportError, r.abortAssign handle answers.flush)
  else if r.transport.hasDispatchCheckpoint then
    let r := { r with trace := .dispatchCheckpoint answers.dispatchCheckpoint :: r.trace }
    if !answers.dispatchCheckpoint then (.transportError, r.abortAssign handle answers.flush)
    else (.ok, r.commitAssignment scheduleIndex index record)
  else (.ok, r.commitAssignment scheduleIndex index record)

/-- `bzm_reactor_assign` -/
def assign (template : JobRef) (answers : BzmTransportAnswers) : BzmAssignStatus × BzmReactor :=
  if r.flushPending then (.flushRequired, r)
  else
    let scheduleIndex := r.nextEngine
    let logicalSequence := r.nextEngineSequence scheduleIndex
    if r.config.sequenceSpace ≤ logicalSequence.toNat then (.flushRequired, r)
    else
      match scheduledEngineAt scheduleIndex with
      | none => (.invalid, r)
      | some engine =>
          match r.assignmentIndexFor engine.physicalId with
          | none => (.busy, r)
          | some index =>
              let context := r.jobStore.contextFor template
              let (handle, jobStore) := r.jobStore.storeGenerated template
              let r := { r with jobStore := jobStore, trace := .stored handle :: r.trace }
              match bzmWorkBuild ⟨handle, template⟩ engine.physicalId logicalSequence
                  r.config.timestampCount r.config.leadZeros r.config.enhancedMode with
              | none => (.invalid, { r with jobStore := (r.jobStore.release handle).2 })
              | some built =>
                  -- every engine searches the whole nonce domain
                  let work := { built with startingNonce := 0, endNonce := 0xffffffff#32 }
                  r.writeAndCommit scheduleIndex index ⟨engine, work, context, r.epoch⟩ answers

/-! ### Raw results -/

/-- `bzm_reactor_map_result` -/
def mapResult (raw : BzmRawResult) : Option AsicResult :=
  if r.flushPending || r.resultsQuarantined then none
  else
    match bzmEngineLogicalId raw.engineId with
    | none => none
    | some logicalEngineId =>
        if !raw.hasValidNonce then none
        else
          let logicalSequence := r.config.rawSequence raw
          let microJob := r.config.rawMicroJob raw
          let found : Option (BzmAssignment × Bool) :=
            match r.findAssignment raw.engineId logicalSequence with
            | some assignment => some (assignment, false)
            | none =>
                if r.previousBatchComplete &&
                    decide (r.previousBatch.logicalSequence = logicalSequence) then
                  some (r.previousBatch, true)
                else none
          match found with
          | none => none
          | some (assignment, previousBatch) =>
              if (previousBatch = false ∧ assignment.logicalEngineId ≠ logicalEngineId) ∨
                  assignment.state ≠ .assigned ∨ assignment.epoch ≠ r.epoch.val then none
              else if logicalSequence ≠ assignment.logicalSequence ∨
                  assignment.versionCount ≤ microJob.toNat ∨
                  assignment.timestampCount < raw.time then none
              else
                let finalVersion := assignment.versions.getD microJob.toNat 0
                let ntimeOffset := (assignment.timestampCount - raw.time).setWidth 32
                match bzmTopologyAsicIndex raw.asicId with
                | none => none
                | some asicIndex =>
                    match r.jobStore.snapshotWithContext assignment.handle with
                    | none => none
                    | some (job, context) =>
                        some {
                          jobValid := true
                          job := job
                          context := context
                          workHandle := assignment.handle
                          nonce := bswap32 (raw.nonce - assignment.nonceOffset)
                          finalNtime := assignment.baseNtime + ntimeOffset
                          finalVersion := finalVersion
                          versionBits := finalVersion ^^^ assignment.baseVersion
                          timestampUs := raw.timestampUs
                          asicIndex := asicIndex
                          engineId := assignment.logicalEngineId
                          sequenceId := assignment.logicalSequence
                          microJobId := microJob
                          generation := assignment.epoch }

/-- `bzm_reactor_result_is_stale` -/
def resultIsStale (raw : BzmRawResult) : Bool :=
  match bzmEngineLogicalId raw.engineId with
  | none => false
  | some engine =>
      if (bzmTopologyAsicIndex raw.asicId).isNone || !raw.hasValidNonce then false
      else
        let sequence := r.config.rawSequence raw
        let retired := (r.retiredSequences engine).getLsbD sequence.toNat
        match r.findAssignment raw.engineId sequence with
        | some assignment =>
            if assignment.epoch ≠ r.epoch.val ∨ r.jobStore.contains assignment.handle = false then
              true
            else retired
        | none => retired

/-! ### Runs -/

end BzmReactor

/-- A production call on the reactor, or one that opens or closes the submission
scope of its job store. -/
inductive BzmReactorOp where
  | assign (template : JobRef) (answers : BzmTransportAnswers)
  | invalidateWork
  | beginFlush (flushAnswer : Bool)
  | finishFlush
  | beginSubmission (job : JobRef) (context : AsicJobContext)
  | endSubmission

namespace BzmReactor

def step (r : BzmReactor) : BzmReactorOp → BzmReactor
  | .assign template answers => (r.assign template answers).2
  | .invalidateWork => r.invalidateWork
  | .beginFlush flushAnswer => (r.beginFlush flushAnswer).2
  | .finishFlush => r.finishFlush
  | .beginSubmission job context => { r with jobStore := r.jobStore.beginSubmission job context }
  | .endSubmission => { r with jobStore := r.jobStore.endSubmission }

end BzmReactor

end EspMiner
