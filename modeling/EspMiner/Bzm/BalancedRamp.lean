import EspMiner.Bzm.Telemetry
import EspMiner.Bzm.Work
import EspMiner.Library.Run
import EspMiner.Library.Script

/-!
# The balanced ramp

`components/asic/bzm_balanced_ramp.c` activates the engines of each ASIC pair by
pair.  The callbacks are functions of all that happened before, so any sequence of
answers is one such adapter.
-/

namespace EspMiner

open Library

def BZM_BRINGUP_ASIC_COUNT : Nat := BZM_MAX_ASIC_COUNT
def BZM_TOPOLOGY_PAIR_COUNT : Nat := BZM_TOPOLOGY_STACK_ENGINE_COUNT
def BZM_CONTROL_ENGINE_ID : Nat := 0xfff

def BZM_LOCAL_REG_ENGINE_SOFT_RESET : U8 := 0x16
def BZM_ENGINE_REG_STATUS : U8 := 0x00
def BZM_ENGINE_REG_CONFIG : U8 := 0x01

def BZM_BALANCED_RAMP_RESET_DELAY_MS : Nat := 1
def BZM_BALANCED_RAMP_BUSY_POLL_ATTEMPTS : Nat := 3
def BZM_BALANCED_RAMP_BUSY_POLL_DELAY_MS : Nat := 1
def BZM_BALANCED_RAMP_ENGINE_CONFIG : U8 := 0x04
def BZM_BALANCED_RAMP_ENGINE_BUSY_MASK : U8 := 0x01
def BZM_BALANCED_RAMP_ENGINE_CONFIG_WRITABLE_MASK : U8 := 0x67
def BZM_BALANCED_RAMP_ENGINE_CONFIG_ACTIVE_MASK : U8 := 0x10
def BZM_BALANCED_RAMP_ENGINE_CONFIG_ALLOWED_MASK : U8 :=
  BZM_BALANCED_RAMP_ENGINE_CONFIG_WRITABLE_MASK ||| BZM_BALANCED_RAMP_ENGINE_CONFIG_ACTIVE_MASK

/-- `bzm_engine_pair_t` -/
structure BzmEnginePair where
  pairIndex : Nat
  bottom : BzmEngineLocation
  top : BzmEngineLocation
deriving DecidableEq, Repr

/-- `bzm_topology_balanced_pair_at` -/
def bzmTopologyBalancedPairAt (pairIndex : Nat) : Option BzmEnginePair :=
  if BZM_TOPOLOGY_PAIR_COUNT ≤ pairIndex then none
  else
    match bzmTopologyStackEngineAt .bottom pairIndex, bzmTopologyStackEngineAt .top pairIndex with
    | some bottom, some top => some { pairIndex := pairIndex, bottom := bottom, top := top }
    | _, _ => none

/-- The counters of `bzm_serial_parser_stats_t` that the ramp watches. -/
structure BzmSerialParserStats where
  discardedBytes : U32
  unexpectedRegisterHeaders : U32
  droppedResults : U32
  rejectedResultFrames : U32
  unmatchedRegisterFrames : U32
  telemetryDecodeFailures : U32
  queuedResults : Nat
deriving DecidableEq, Repr

def BzmSerialParserStats.zero : BzmSerialParserStats := ⟨0, 0, 0, 0, 0, 0, 0⟩

/-- `parser_is_clean_relative_to` -/
def parserIsCleanRelativeTo (baseline current : BzmSerialParserStats) : Prop :=
  current = { baseline with queuedResults := 0 }

instance (baseline current : BzmSerialParserStats) :
    Decidable (parserIsCleanRelativeTo baseline current) :=
  inferInstanceAs (Decidable (current = { baseline with queuedResults := 0 }))

/-! ### The sentinel work -/

/-- The work item of `bzm_transport_program_stage6_sentinel`: SHA-256
initialization words, varied by version. -/
def stage6Sentinel (engineId : Nat) : BzmWork where
  source := { handle := 0, template := ⟨0, .zero⟩ }
  engineId := engineId
  timestampCount := 0xff
  startingNonce := 0
  endNonce := 0xffffffff
  midstateCount := BZM_VERSION_VARIANTS
  midstates := (List.range BZM_VERSION_VARIANTS).map fun variant =>
    [0x6a09e667#32, 0xbb67ae85#32, 0x3c6ef372#32, 0xa54ff53a#32, 0x510e527f#32, 0x9b05688c#32,
      0x1f83d9ab#32, 0x5be0cd19#32].flatMap fun word =>
        writeLe32 (word ^^^ (BitVec.ofNat 32 variant * 0x01010101#32))
  versions := List.replicate BZM_VERSION_VARIANTS 0
  merkleResidue := 0x1002b0a0
  startNtime := 0x65010002
  target := 0x1d00ffff
  logicalSequence := 0x3f
  leadZeros := 64

/-- The writes of `program_flush_job`. -/
def programFlushJob (engine : Nat) (enhancedMode : Bool) (jobControl : U8) :
    List BzmRegisterWrite :=
  let sequence : U8 := if enhancedMode then 0xfc else 0xff
  let sequenceCount := if enhancedMode then BZM_VERSION_VARIANTS else 1
  [⟨engine, BZM_REG_TIMESTAMP_COUNT, [0xff]⟩] ++
    (List.range sequenceCount).map (fun i =>
      ⟨engine, BZM_REG_SEQUENCE_ID, [sequence + BitVec.ofNat 8 i]⟩) ++
    [⟨engine, BZM_REG_JOB_CONTROL, [jobControl]⟩]

/-- The writes of `bzm_transport_program_stage6_sentinel`; `none` is an engine id
out of range. -/
def bzmTransportProgramStage6Sentinel (engineId : Nat) : Option (List BzmRegisterWrite) :=
  if BZM_MAX_ENGINE_COUNT ≤ engineId then none
  else ((stage6Sentinel engineId).program true).map (· ++ programFlushJob engineId true 1)

/-! ### The ramp -/

/-- `bzm_balanced_ramp_failure_t` -/
inductive RampFailureKind where
  | argument
  | parserBaseline
  | telemetry
  | lease
  | engineReset
  | configWrite
  | sentinelWrite
  | statusRead
  | notBusy
  | configReadback
  | incomplete
  | finalBarrier
  | parserFinal
deriving DecidableEq, Repr

/-- What `fail` stores. -/
structure RampFailure where
  failure : RampFailureKind
  asicId : U8
  engineId : Nat
  registerOffset : U8
  expected : Nat
  actual : Nat
deriving DecidableEq, Repr

/-- `bzm_balanced_ramp_t`.  Its arrays are functions of the ASIC's index, and
`failed` is `failure.isSome`. -/
structure BzmBalancedRamp where
  nextPair : Nat → Nat
  preparedAsic : Nat → Bool
  completedPairs : Nat
  completedEngines : Nat
  baselineCaptured : Bool
  failure : Option RampFailure
  parserBaseline : BzmSerialParserStats

/-- `bzm_balanced_ramp_init` -/
def bzmBalancedRampInit : BzmBalancedRamp where
  nextPair := fun _ => 0
  preparedAsic := fun _ => false
  completedPairs := 0
  completedEngines := 0
  baselineCaptured := false
  failure := none
  parserBaseline := .zero

/-- A callback with its answer, an engine that is proved active, a baseline that
is accepted, or the return of a call. -/
inductive RampEvent where
  | beginEngine (asicId : U8) (engineId : Nat) (result : Bool)
  | write (asicId : U8) (write : BzmRegisterWrite) (result : Bool)
  | read (asicId : U8) (engineId : Nat) (offset : U8) (result : Bool) (status config : U8)
  | delay (ms : Nat)
  | telemetrySample (asicId : U8) (result : Bool) (sample : BzmTelemetrySample)
  | parserStats (result : Bool) (stats : BzmSerialParserStats)
  | finalBarrier (result : Bool)
  | activated (asicId : U8) (engine : BzmEngineLocation)
  | baseline (stats : BzmSerialParserStats)
  | committed (asicId : U8) (result : Bool)
  | barrier (result : Bool)
deriving DecidableEq

/-- `bzm_balanced_ramp_ops_t`.  A read returns the status byte and the
configuration byte, the first two of its four bytes. -/
structure RampOps where
  beginEngine : List RampEvent → U8 → Nat → Bool
  writeRegister : List RampEvent → U8 → BzmRegisterWrite → Bool
  readRegister : List RampEvent → U8 → Nat → U8 → Bool × U8 × U8
  telemetrySample : List RampEvent → U8 → Bool × BzmTelemetrySample
  parserStats : List RampEvent → Bool × BzmSerialParserStats
  finalBarrier : List RampEvent → Bool

/-- The ramp and what happened so far, newest first. -/
structure RampMachine where
  ramp : BzmBalancedRamp
  trace : List RampEvent

namespace RampMachine

def record (m : RampMachine) (event : RampEvent) : RampMachine :=
  { m with trace := event :: m.trace }

def update (m : RampMachine) (change : BzmBalancedRamp → BzmBalancedRamp) : RampMachine :=
  { m with ramp := change m.ramp }

@[simp] theorem record_ramp (m : RampMachine) (event : RampEvent) :
    (m.record event).ramp = m.ramp := rfl

@[simp] theorem record_trace (m : RampMachine) (event : RampEvent) :
    (m.record event).trace = event :: m.trace := rfl

@[simp] theorem update_ramp (m : RampMachine) (change : BzmBalancedRamp → BzmBalancedRamp) :
    (m.update change).ramp = change m.ramp := rfl

@[simp] theorem update_trace (m : RampMachine) (change : BzmBalancedRamp → BzmBalancedRamp) :
    (m.update change).trace = m.trace := rfl

end RampMachine

/-- A part of a call; it gives up where the source returns false. -/
abbrev RampScript (α : Type) := EStateM Unit RampMachine α

namespace RampScript

/-- `fail` -/
def fail {α : Type} (failure : RampFailureKind) (asicId : U8) (engineId : Nat)
    (registerOffset : U8) (expected actual : Nat) : RampScript α := do
  modify fun m => m.update fun ramp => { ramp with
    failure := some ⟨failure, asicId, engineId, registerOffset, expected, actual⟩ }
  throw ()

def note (event : RampEvent) : RampScript PUnit := modify fun m => m.record event

def update (change : BzmBalancedRamp → BzmBalancedRamp) : RampScript PUnit :=
  modify fun m => m.update change

def delayMs (ms : Nat) : RampScript PUnit := note (.delay ms)

variable (ops : RampOps)

def beginEngine (asicId : U8) (engineId : Nat) : RampScript Bool :=
  call (fun m => ops.beginEngine m.trace asicId engineId) fun result m =>
    m.record (.beginEngine asicId engineId result)

def writeRegister (asicId : U8) (write : BzmRegisterWrite) : RampScript Bool :=
  call (fun m => ops.writeRegister m.trace asicId write) fun result m =>
    m.record (.write asicId write result)

def readRegister (asicId : U8) (engineId : Nat) (offset : U8) : RampScript (Bool × U8 × U8) :=
  call (fun m => ops.readRegister m.trace asicId engineId offset) fun answer m =>
    m.record (.read asicId engineId offset answer.1 answer.2.1 answer.2.2)

def telemetrySample (asicId : U8) : RampScript (Bool × BzmTelemetrySample) :=
  call (fun m => ops.telemetrySample m.trace asicId) fun answer m =>
    m.record (.telemetrySample asicId answer.1 answer.2)

def parserStats : RampScript (Bool × BzmSerialParserStats) :=
  call (fun m => ops.parserStats m.trace) fun answer m => m.record (.parserStats answer.1 answer.2)

def finalBarrier : RampScript Bool :=
  call (fun m => ops.finalBarrier m.trace) fun result m => m.record (.finalBarrier result)

/-- The writes go out one by one until one fails. -/
def writeAll (asicId : U8) : List BzmRegisterWrite → RampScript Bool
  | [] => pure true
  | write :: writes => do
      if ← writeRegister ops asicId write then writeAll asicId writes else pure false

/-- The loop of `activate_engine` that polls for busy, with the attempts that are
left and what the last read stored. -/
def pollBusy (asicId : U8) (engineId : Nat) : Nat → U8 × U8 → RampScript (U8 × U8)
  | 0, statusAndConfig =>
      fail .notBusy asicId engineId BZM_ENGINE_REG_STATUS
        BZM_BALANCED_RAMP_ENGINE_BUSY_MASK.toNat statusAndConfig.1.toNat
  | left + 1, _ => do
      if left + 1 ≠ BZM_BALANCED_RAMP_BUSY_POLL_ATTEMPTS then
        delayMs BZM_BALANCED_RAMP_BUSY_POLL_DELAY_MS
      let (result, statusAndConfig) ← readRegister ops asicId engineId BZM_ENGINE_REG_STATUS
      if result = false then
        if left = 0 then fail .statusRead asicId engineId BZM_ENGINE_REG_STATUS 1 0
        else pollBusy asicId engineId left statusAndConfig
      else if statusAndConfig.1 &&& BZM_BALANCED_RAMP_ENGINE_BUSY_MASK ≠ 0 then
        pure statusAndConfig
      else pollBusy asicId engineId left statusAndConfig

/-- The configuration that `activate_engine` accepts. -/
def configAccepted (config : U8) : Prop :=
  config &&& BZM_BALANCED_RAMP_ENGINE_CONFIG_WRITABLE_MASK = BZM_BALANCED_RAMP_ENGINE_CONFIG ∧
    config &&& ~~~BZM_BALANCED_RAMP_ENGINE_CONFIG_ALLOWED_MASK = 0

instance (config : U8) : Decidable (configAccepted config) :=
  inferInstanceAs (Decidable (_ ∧ _))

/-- The write of the configuration register of an engine. -/
def configWrite (engineId : Nat) : BzmRegisterWrite :=
  ⟨engineId, BZM_ENGINE_REG_CONFIG, [BZM_BALANCED_RAMP_ENGINE_CONFIG]⟩

/-- `activate_engine` -/
def activateEngine (asicId : U8) (engine : BzmEngineLocation) : RampScript PUnit := do
  let engineId := engine.physicalId
  unless ← beginEngine ops asicId engineId do
    fail .lease asicId engineId 0 1 0
  unless ← writeRegister ops asicId (configWrite engineId) do
    fail .configWrite asicId engineId BZM_ENGINE_REG_CONFIG
      BZM_BALANCED_RAMP_ENGINE_CONFIG.toNat 0
  let programmed ← match bzmTransportProgramStage6Sentinel engineId with
    | none => pure false
    | some writes => writeAll ops asicId writes
  unless programmed do
    fail .sentinelWrite asicId engineId 0 1 0
  let (_, config) ← pollBusy ops asicId engineId BZM_BALANCED_RAMP_BUSY_POLL_ATTEMPTS (0, 0)
  unless configAccepted config do
    fail .configReadback asicId engineId BZM_ENGINE_REG_CONFIG
      BZM_BALANCED_RAMP_ENGINE_CONFIG.toNat config.toNat
  update fun ramp => { ramp with completedEngines := ramp.completedEngines + 1 }
  note (.activated asicId engine)

/-- The write of the soft reset register of an ASIC. -/
def resetWrite (reset : U32) : BzmRegisterWrite :=
  ⟨BZM_CONTROL_ENGINE_ID, BZM_LOCAL_REG_ENGINE_SOFT_RESET, writeLe32 reset⟩

/-- `prepare_asic` -/
def prepareAsic (asicId : U8) (index : Nat) : RampScript PUnit := do
  if (← get).ramp.preparedAsic index = false then
    unless ← beginEngine ops asicId BZM_CONTROL_ENGINE_ID do
      fail .lease asicId BZM_CONTROL_ENGINE_ID BZM_LOCAL_REG_ENGINE_SOFT_RESET 1 0
    unless ← writeRegister ops asicId (resetWrite 0) do
      fail .engineReset asicId BZM_CONTROL_ENGINE_ID BZM_LOCAL_REG_ENGINE_SOFT_RESET 0 1
    delayMs BZM_BALANCED_RAMP_RESET_DELAY_MS
    unless ← writeRegister ops asicId (resetWrite 1) do
      fail .engineReset asicId BZM_CONTROL_ENGINE_ID BZM_LOCAL_REG_ENGINE_SOFT_RESET 1 0
    delayMs BZM_BALANCED_RAMP_RESET_DELAY_MS
    update fun ramp => { ramp with
      preparedAsic := fun other => if other = index then true else ramp.preparedAsic other }

/-- The first call captures the baseline of the parser. -/
def captureBaseline (asicId : U8) : RampScript PUnit := do
  if (← get).ramp.baselineCaptured = false then
    let (result, stats) ← parserStats ops
    update fun ramp => { ramp with parserBaseline := stats }
    if result = false ∨ stats.queuedResults ≠ 0 then
      fail .parserBaseline asicId 0 0 0 stats.queuedResults
    update fun ramp => { ramp with baselineCaptured := true }
    note (.baseline stats)

/-- `bzm_balanced_ramp_commit_pair` after the checks of its arguments. -/
def commitPair (asicId : U8) (index : Nat) (pair : BzmEnginePair) : RampScript PUnit := do
  captureBaseline ops asicId
  prepareAsic ops asicId index
  let (result, sample) ← telemetrySample ops asicId
  if result = false ∨ sample.received = false ∨ sample.valid = false ∨
      sample.ch0Mv.isFinite = false ∨ sample.ch1Mv.isFinite = false then
    fail .telemetry asicId 0 0 1 (if sample.valid then 1 else 0)
  let (first, second) :=
    if sample.ch1Mv.le sample.ch0Mv then (pair.bottom, pair.top) else (pair.top, pair.bottom)
  activateEngine ops asicId first
  activateEngine ops asicId second
  update fun ramp => { ramp with
    nextPair := fun other =>
      if other = index then ramp.nextPair other + 1 else ramp.nextPair other
    completedPairs := ramp.completedPairs + 1 }

/-- The checks of the arguments of a commit. -/
def pairAccepted (ramp : BzmBalancedRamp) (index : Nat) (pair : BzmEnginePair) : Prop :=
  pair.pairIndex < BZM_TOPOLOGY_PAIR_COUNT ∧ pair.bottom.stack = .bottom ∧
    pair.top.stack = .top ∧ pair.bottom.stackIndex = pair.pairIndex ∧
    pair.top.stackIndex = pair.pairIndex ∧ ramp.nextPair index = pair.pairIndex

instance (ramp : BzmBalancedRamp) (index : Nat) (pair : BzmEnginePair) :
    Decidable (pairAccepted ramp index pair) :=
  inferInstanceAs (Decidable (_ ∧ _))

/-- `bzm_balanced_ramp_commit_pair`; `complete` is `ops_are_complete`, and no pair
is a null pointer. -/
def bzmBalancedRampCommitPair (complete : Bool) (asicId : U8) (pair : Option BzmEnginePair) :
    RampScript PUnit := do
  let ramp := (← get).ramp
  if ramp.failure.isSome then throw ()
  match pair, bzmTopologyAsicIndex asicId with
  | some pair, some index =>
      if complete = false ∨ ¬ pairAccepted ramp index pair then
        fail .argument asicId pair.bottom.physicalId 0 1 0
      else commitPair ops asicId index pair
  | some pair, none => fail .argument asicId pair.bottom.physicalId 0 1 0
  | none, _ => fail .argument asicId 0 0 1 0

/-- `bzm_balanced_ramp_barrier` -/
def bzmBalancedRampBarrier (complete : Bool) (asicCount pairsPerAsic : Nat) :
    RampScript PUnit := do
  let ramp := (← get).ramp
  if complete = false ∨ ramp.failure.isSome ∨ ramp.baselineCaptured = false ∨
      asicCount ≠ BZM_BRINGUP_ASIC_COUNT ∨ pairsPerAsic ≠ BZM_TOPOLOGY_PAIR_COUNT ∨
      ramp.completedPairs ≠ BZM_BRINGUP_ASIC_COUNT * BZM_TOPOLOGY_PAIR_COUNT ∨
      ramp.completedEngines ≠ BZM_BRINGUP_ASIC_COUNT * BZM_TOPOLOGY_ENGINE_COUNT then
    fail .incomplete 0 0 0 (BZM_BRINGUP_ASIC_COUNT * BZM_TOPOLOGY_PAIR_COUNT) ramp.completedPairs
  match (List.range BZM_BRINGUP_ASIC_COUNT).find? fun index =>
      ramp.nextPair index ≠ BZM_TOPOLOGY_PAIR_COUNT with
  | some index =>
      fail .incomplete (bzmAsicWireIds.getD index 0) 0 0 BZM_TOPOLOGY_PAIR_COUNT
        (ramp.nextPair index)
  | none =>
      unless ← finalBarrier ops do
        fail .finalBarrier 0 0 0 1 0
      let (result, current) ← parserStats ops
      unless result ∧ parserIsCleanRelativeTo ramp.parserBaseline current do
        fail .parserFinal 0 0 0 0 (if current.queuedResults ≠ 0 then current.queuedResults else 1)

end RampScript

namespace RampMachine

open RampScript

/-- A call ends; `returned` records its result. -/
def finish (m : RampMachine) (script : RampScript PUnit) (returned : Bool → RampEvent) :
    RampMachine :=
  match script m with
  | .ok _ m => m.record (returned true)
  | .error _ m => m.record (returned false)

/-- `bzm_balanced_ramp_accept_transition_discards` -/
def bzmBalancedRampAcceptTransitionDiscards (m : RampMachine) (current : BzmSerialParserStats) :
    RampMachine :=
  let baseline := m.ramp.parserBaseline
  if m.ramp.baselineCaptured = false ∨ current.discardedBytes < baseline.discardedBytes ∨
      ¬ parserIsCleanRelativeTo { baseline with discardedBytes := current.discardedBytes } current
  then m
  else
    let accepted := { baseline with discardedBytes := current.discardedBytes }
    (m.update fun ramp => { ramp with parserBaseline := accepted }).record (.baseline accepted)

inductive Input where
  | commitPair (complete : Bool) (asicId : U8) (pair : Option BzmEnginePair)
  | acceptTransitionDiscards (current : BzmSerialParserStats)
  | barrier (complete : Bool) (asicCount pairsPerAsic : Nat)

variable (ops : RampOps)

def step (m : RampMachine) : Input → RampMachine
  | .commitPair complete asicId pair =>
      m.finish (bzmBalancedRampCommitPair ops complete asicId pair) (.committed asicId)
  | .acceptTransitionDiscards current => m.bzmBalancedRampAcceptTransitionDiscards current
  | .barrier complete asicCount pairsPerAsic =>
      m.finish (bzmBalancedRampBarrier ops complete asicCount pairsPerAsic) .barrier

def initial : RampMachine := ⟨bzmBalancedRampInit, []⟩

end RampMachine

end EspMiner
