import EspMiner.Asic.Job
import EspMiner.Library.Run

/-!
# Parser realignment while mining

`bzm_parser_realign_observe` of `components/asic/bzm_runtime_health.c`: while the
board is RUNNING the frame parser may lose bytes and find the next frame again.
An episode begins with the first lost byte and ends when enough windows in a row
were quiet; three limits bound it.
-/

namespace EspMiner

open Library

/-- The counters of `bzm_serial_parser_stats_t` that must not change at all. -/
structure ParserErrors where
  droppedResults : U32
  rejectedResultFrames : U32
  unmatchedRegisterFrames : U32
  unsolicitedNoopFrames : U32
  invalidNoopFrames : U32
  telemetryDecodeFailures : U32
deriving DecidableEq

/-- `bzm_serial_parser_stats_t`, without the bytes that were discarded. -/
structure ParserSnapshot where
  emittedFrames : U32
  discardedBytes : U32
  emittedFramesAtLastDiscard : U32
  unexpectedRegisterHeaders : U32
  errors : ParserErrors
  bufferedBytes : Nat
  queuedResults : Nat
deriving DecidableEq

def ParserSnapshot.zero : ParserSnapshot := ⟨0, 0, 0, 0, ⟨0, 0, 0, 0, 0, 0⟩, 0, 0⟩

/-- `bzm_parser_realign_result_t` -/
inductive BzmParserRealignResult where
  | bad
  | clean
  | pending
  | recovered
deriving DecidableEq, Repr

/-- The arguments that limit an episode. -/
structure RealignLimits where
  maximumDiscardedBytes : U32
  requiredCleanWindows : U8
  maximumWindows : U8
  maximumEvents : U8
deriving DecidableEq

/-- `bzm_parser_realign_t` -/
structure BzmParserRealign where
  accepted : ParserSnapshot
  last : ParserSnapshot
  burstDiscardBaseline : U32
  burstUnexpectedRegisterBaseline : U32
  cleanWindows : U8
  observedWindows : U8
  episodeBursts : U8
  initialized : Bool
  recovering : Bool
deriving DecidableEq

/-- The all-zero record. -/
def BzmParserRealign.zero : BzmParserRealign :=
  ⟨.zero, .zero, 0, 0, 0, 0, 0, false, false⟩

/-- `bzm_parser_realign_init` -/
def bzmParserRealignInit (baseline : ParserSnapshot) : BzmParserRealign :=
  if baseline.queuedResults = 0 ∧ baseline.bufferedBytes = 0 then
    { BzmParserRealign.zero with accepted := baseline, last := baseline, initialized := true }
  else .zero

/-- `parser_realign_transition_is_valid` -/
def parserRealignTransitionIsValid (baseline current : ParserSnapshot) : Bool :=
  if current.discardedBytes < baseline.discardedBytes ∨
      current.unexpectedRegisterHeaders < baseline.unexpectedRegisterHeaders then false
  else
    let discardedDelta := current.discardedBytes - baseline.discardedBytes
    let unexpectedRegisterDelta :=
      current.unexpectedRegisterHeaders - baseline.unexpectedRegisterHeaders
    decide (baseline.emittedFrames ≤ current.emittedFrames) &&
      decide (unexpectedRegisterDelta ≤ discardedDelta) && decide (current.errors = baseline.errors)

/-- A counter of windows stays at `UINT8_MAX`. -/
def countWindow (windows : U8) : U8 := if windows < 0xff#8 then windows + 1 else windows

/-- Bytes were lost between two snapshots. -/
def parserGrew (previous current : ParserSnapshot) : Bool :=
  decide (current.discardedBytes ≠ previous.discardedBytes) ||
    decide (current.unexpectedRegisterHeaders ≠ previous.unexpectedRegisterHeaders)

/-- The window ends between two frames, and a frame has followed the last lost
byte. -/
def parserAligned (current : ParserSnapshot) : Bool :=
  decide (current.bufferedBytes = 0) &&
    decide (current.emittedFramesAtLastDiscard < current.emittedFrames)

/-- The first window of an episode. -/
def beginEpisode (realign : BzmParserRealign) (current : ParserSnapshot) : BzmParserRealign :=
  { realign with
    recovering := true
    burstDiscardBaseline := realign.accepted.discardedBytes
    burstUnexpectedRegisterBaseline := realign.accepted.unexpectedRegisterHeaders
    episodeBursts := 1
    cleanWindows := 0
    observedWindows := 1
    last := current }

/-- A later window of an episode; `false` if it is one burst too many. -/
def continueEpisode (maximumEvents : U8) (realign : BzmParserRealign) (current : ParserSnapshot) :
    Bool × BzmParserRealign :=
  let realign := { realign with observedWindows := countWindow realign.observedWindows }
  if parserGrew realign.last current then
    if maximumEvents ≤ realign.episodeBursts then (false, realign)
    else (true, { realign with
      episodeBursts := realign.episodeBursts + 1
      cleanWindows := 0
      last := current })
  else if parserAligned current then
    (true, { realign with cleanWindows := countWindow realign.cleanWindows, last := current })
  else (true, { realign with cleanWindows := 0, last := current })

/-- The limits, checked after each window of an episode. -/
def checkEpisode (limits : RealignLimits) (realign : BzmParserRealign) (current : ParserSnapshot) :
    BzmParserRealignResult × BzmParserRealign :=
  if limits.maximumDiscardedBytes < current.discardedBytes - realign.burstDiscardBaseline ∨
      limits.maximumWindows < realign.observedWindows then (.bad, realign)
  else if limits.requiredCleanWindows ≤ realign.cleanWindows then
    (.recovered, { realign with
      accepted := current
      last := current
      recovering := false
      episodeBursts := 0 })
  else (.pending, realign)

/-- `bzm_parser_realign_observe` -/
def bzmParserRealignObserve (limits : RealignLimits) (realign : BzmParserRealign)
    (current : ParserSnapshot) : BzmParserRealignResult × BzmParserRealign :=
  if realign.initialized = false ∨ limits.maximumDiscardedBytes = 0 ∨
      limits.requiredCleanWindows = 0 ∨ limits.maximumWindows < limits.requiredCleanWindows ∨
      limits.maximumEvents = 0 ∨ parserRealignTransitionIsValid realign.accepted current = false ∨
      parserRealignTransitionIsValid realign.last current = false then (.bad, realign)
  else if realign.recovering = false ∧ parserGrew realign.accepted current = false then
    (.clean, { realign with accepted := current, last := current, episodeBursts := 0 })
  else if realign.recovering = false then
    checkEpisode limits (beginEpisode realign current) current
  else
    match continueEpisode limits.maximumEvents realign current with
    | (false, realign) => (.bad, realign)
    | (true, realign) => checkEpisode limits realign current

/-! ### Sequences of observations -/

structure RealignObservation where
  snapshot : ParserSnapshot
  result : BzmParserRealignResult
deriving DecidableEq

/-- A tracker with the snapshot that it was initialised with and the calls so
far, newest first. -/
structure RealignRun where
  baseline : ParserSnapshot
  realign : BzmParserRealign
  trace : List RealignObservation

namespace RealignRun

def init (baseline : ParserSnapshot) : RealignRun := ⟨baseline, bzmParserRealignInit baseline, []⟩

def observe (limits : RealignLimits) (s : RealignRun) (current : ParserSnapshot) : RealignRun :=
  let (result, realign) := bzmParserRealignObserve limits s.realign current
  { s with realign := realign, trace := ⟨current, result⟩ :: s.trace }

end RealignRun

/-! ### What the observations mean

Read off the sequence of snapshots and answers alone. -/

/-- The answers that accept a snapshot. -/
def acceptsSnapshot (o : RealignObservation) : Bool :=
  decide (o.result = .clean) || decide (o.result = .recovered)

/-- The snapshot before the newest call. -/
def previousSnapshot (baseline : ParserSnapshot) : List RealignObservation → ParserSnapshot
  | [] => baseline
  | o :: _ => o.snapshot

/-- The last accepted snapshot. -/
def acceptedSnapshot (baseline : ParserSnapshot) : List RealignObservation → ParserSnapshot
  | [] => baseline
  | o :: older => if acceptsSnapshot o then o.snapshot else acceptedSnapshot baseline older

/-- The windows of the unresolved episode: a call that is answered BAD is not one
of them. -/
def pendingWindows (trace : List RealignObservation) : Nat :=
  (since acceptsSnapshot trace).countP fun o => decide (o.result = .pending)

/-- The windows of the unresolved episode that saw a new loss. -/
def episodeBursts (baseline : ParserSnapshot) : List RealignObservation → Nat
  | [] => 0
  | o :: older =>
      if acceptsSnapshot o then 0
      else (if o.result = .pending ∧ parserGrew (previousSnapshot baseline older) o.snapshot = true
          then 1 else 0) + episodeBursts baseline older

/-- The number of calls, back from the newest, that saw no new loss and ended
aligned. -/
def quietWindows (baseline : ParserSnapshot) : List RealignObservation → Nat
  | [] => 0
  | o :: older =>
      if parserGrew (previousSnapshot baseline older) o.snapshot = false ∧
          parserAligned o.snapshot = true then quietWindows baseline older + 1
      else 0

/-- A sound RECOVERED answer to `current` after the calls `older`. -/
structure RecoverySound (limits : RealignLimits) (baseline : ParserSnapshot)
    (o : RealignObservation) (older : List RealignObservation) : Prop where
  quiet : limits.requiredCleanWindows.toNat ≤ quietWindows baseline (o :: older)
  discarded : o.snapshot.discardedBytes.toNat ≤
    (acceptedSnapshot baseline older).discardedBytes.toNat + limits.maximumDiscardedBytes.toNat
  windows : pendingWindows older + 1 ≤ limits.maximumWindows.toNat
  bursts : episodeBursts baseline older ≤ limits.maximumEvents.toNat

/-- Every RECOVERED answer is sound, and no episode stays unresolved for more
than the allowed windows. -/
def RealignBounded (limits : RealignLimits) (s : RealignRun) : Prop :=
  Throughout (fun o older =>
    (o.result = .recovered → RecoverySound limits s.baseline o older) ∧
      pendingWindows (o :: older) ≤ limits.maximumWindows.toNat) s.trace

/-- The counters of a parser only grow. -/
structure ParserSnapshot.CountersLe (previous current : ParserSnapshot) : Prop where
  emittedFrames : previous.emittedFrames ≤ current.emittedFrames
  discardedBytes : previous.discardedBytes ≤ current.discardedBytes
  unexpectedRegisterHeaders :
    previous.unexpectedRegisterHeaders ≤ current.unexpectedRegisterHeaders
  droppedResults : previous.errors.droppedResults ≤ current.errors.droppedResults
  rejectedResultFrames :
    previous.errors.rejectedResultFrames ≤ current.errors.rejectedResultFrames
  unmatchedRegisterFrames :
    previous.errors.unmatchedRegisterFrames ≤ current.errors.unmatchedRegisterFrames
  unsolicitedNoopFrames :
    previous.errors.unsolicitedNoopFrames ≤ current.errors.unsolicitedNoopFrames
  invalidNoopFrames : previous.errors.invalidNoopFrames ≤ current.errors.invalidNoopFrames
  telemetryDecodeFailures :
    previous.errors.telemetryDecodeFailures ≤ current.errors.telemetryDecodeFailures

/-- Limits that the tracker works with. -/
structure RealignLimits.Valid (limits : RealignLimits) : Prop where
  discarded : 1 ≤ limits.maximumDiscardedBytes
  clean : 1 ≤ limits.requiredCleanWindows
  windows : limits.requiredCleanWindows ≤ limits.maximumWindows
  events : 1 ≤ limits.maximumEvents

end EspMiner
