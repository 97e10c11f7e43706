import EspMiner.Bzm.Telemetry
import EspMiner.Library.Run
import Mathlib.Data.List.FinRange

/-!
# Confirming a telemetry anomaly

`bzm_telemetry_confirmation_observe` of `components/asic/bzm_telemetry.c`: each
call takes the samples that are newer than the last ones taken, ASIC by ASIC, and
counts the unsafe ones in a row.  A call that meets a sample it cannot take ends
there, after it has taken those of the ASICs before.
-/

namespace EspMiner

open Library

/-- `bzm_ch2_confirmation_result_t` -/
inductive BzmCh2ConfirmationResult where
  | good
  | pending
  | continuous
  | noNewSample
  | invalid
deriving DecidableEq, Repr

/-- `bzm_telemetry_store_t` -/
structure BzmTelemetryStore where
  samples : Fin BZM_MAX_ASIC_COUNT → BzmTelemetrySample

/-- `bzm_telemetry_confirmation_t` -/
structure BzmTelemetryConfirmation where
  consecutiveAnomalies : Fin BZM_MAX_ASIC_COUNT → U8
  lastTimestampUs : Fin BZM_MAX_ASIC_COUNT → U64

/-- `bzm_telemetry_confirmation_init` -/
def BzmTelemetryConfirmation.init : BzmTelemetryConfirmation := ⟨fun _ => 0, fun _ => 0⟩

/-- The arguments that stay the same from call to call. -/
structure ConfirmationPolicy where
  maxAgeUs : U64
  bounds : BzmTelemetryBounds
  requiredConsecutiveSamples : U8

/-- The other arguments of a call. -/
structure ConfirmationCall where
  store : BzmTelemetryStore
  nowUs : U64
  requireClockLocks : Bool

/-- What a call returns, with its two output parameters. -/
structure ConfirmationAnswer where
  result : BzmCh2ConfirmationResult
  culpritAsicId : U8
  observedConsecutiveSamples : U8
deriving DecidableEq

/-- The wire id of an ASIC. -/
def wireId (index : Fin BZM_MAX_ASIC_COUNT) : U8 := bzmAsicWireIds.getD index 0

/-- The arguments are refused. -/
def confirmationArgumentsInvalid (policy : ConfirmationPolicy) (call : ConfirmationCall) : Bool :=
  decide (call.nowUs = 0) || decide (policy.maxAgeUs = 0) || !policy.bounds.areValid ||
    decide (policy.requiredConsecutiveSamples = 0) ||
    decide (BZM_CH2_CONFIRM_MAX_SAMPLES < policy.requiredConsecutiveSamples)

/-- A sample that ends the call. -/
def sampleUnusable (index : Fin BZM_MAX_ASIC_COUNT) (lastTimestampUs : U64)
    (sample : BzmTelemetrySample) : Bool :=
  !sample.received || decide (sample.asicId ≠ wireId index) || decide (sample.timestampUs = 0) ||
    decide (sample.timestampUs < lastTimestampUs)

/-- The anomaly count after a new sample. -/
def countAnomaly (policy : ConfirmationPolicy) (call : ConfirmationCall)
    (sample : BzmTelemetrySample) (count : U8) : U8 :=
  if sample.hasImmediateTrip then policy.requiredConsecutiveSamples
  else if sample.isSafe call.nowUs policy.maxAgeUs policy.bounds call.requireClockLocks then 0
  else if count < 0xff#8 then count + 1
  else count

/-- What the first loop leaves: `complete` unless it returned. -/
structure SamplesTaken where
  complete : Bool
  anyNewSample : Bool
  confirmation : BzmTelemetryConfirmation

/-- The first loop of `bzm_telemetry_confirmation_observe`, over the ASICs that
are left. -/
def takeSamples (policy : ConfirmationPolicy) (call : ConfirmationCall) :
    List (Fin BZM_MAX_ASIC_COUNT) → Bool → BzmTelemetryConfirmation → SamplesTaken
  | [], anyNewSample, confirmation => ⟨true, anyNewSample, confirmation⟩
  | index :: later, anyNewSample, confirmation =>
      let sample := call.store.samples index
      if sampleUnusable index (confirmation.lastTimestampUs index) sample then
        ⟨false, anyNewSample, confirmation⟩
      else if sample.timestampUs = confirmation.lastTimestampUs index then
        takeSamples policy call later anyNewSample confirmation
      else
        takeSamples policy call later true {
          lastTimestampUs :=
            Function.update confirmation.lastTimestampUs index sample.timestampUs
          consecutiveAnomalies := Function.update confirmation.consecutiveAnomalies index
            (countAnomaly policy call sample (confirmation.consecutiveAnomalies index)) }

/-- The variables of the second loop. -/
structure HighestCount where
  count : U8
  index : Fin BZM_MAX_ASIC_COUNT
  continuous : Bool

/-- The second loop: the highest count, its ASIC, and whether a count is high
enough. -/
def highestCount (requiredConsecutiveSamples : U8) (confirmation : BzmTelemetryConfirmation) :
    HighestCount :=
  (List.finRange BZM_MAX_ASIC_COUNT).foldl (fun highest index =>
    let count := confirmation.consecutiveAnomalies index
    { count := if highest.count < count then count else highest.count
      index := if highest.count < count then index else highest.index
      continuous := highest.continuous || decide (requiredConsecutiveSamples ≤ count) })
    ⟨0, (0 : Fin 4), false⟩

/-- `bzm_telemetry_confirmation_observe` -/
def bzmTelemetryConfirmationObserve (policy : ConfirmationPolicy)
    (confirmation : BzmTelemetryConfirmation) (call : ConfirmationCall) :
    ConfirmationAnswer × BzmTelemetryConfirmation :=
  if confirmationArgumentsInvalid policy call then (⟨.invalid, 0, 0⟩, confirmation)
  else
    let taken := takeSamples policy call (List.finRange BZM_MAX_ASIC_COUNT) false confirmation
    if taken.complete = false then (⟨.invalid, 0, 0⟩, taken.confirmation)
    else
      let highest := highestCount policy.requiredConsecutiveSamples taken.confirmation
      let result :=
        if highest.continuous then .continuous
        else if taken.anyNewSample = false then .noNewSample
        else if highest.count = 0 then .good
        else .pending
      (⟨result, if highest.count ≠ 0 then wireId highest.index else 0, highest.count⟩,
        taken.confirmation)

/-! ### What an ASIC's samples were

The samples of each ASIC that the calls took, newest first, told from the calls
alone. -/

/-- A sample that was taken, with what it was when it was first seen. -/
structure TakenSample where
  timestampUs : U64
  safe : Bool
  trip : Bool
  trip_not_safe : trip = true → safe = false

/-- The timestamp of the newest sample taken. -/
def lastTaken (taken : List TakenSample) : U64 := (taken.head?.map TakenSample.timestampUs).getD 0

/-- The unsafe samples since the last safe one. -/
def anomalyRun (taken : List TakenSample) : List TakenSample := taken.takeWhile fun s => !s.safe

/-- A sample as it is seen by a call. -/
def seeSample (policy : ConfirmationPolicy) (call : ConfirmationCall)
    (sample : BzmTelemetrySample) : TakenSample where
  timestampUs := sample.timestampUs
  safe := sample.isSafe call.nowUs policy.maxAgeUs policy.bounds call.requireClockLocks
  trip := sample.hasImmediateTrip
  trip_not_safe := by
    intro htrip
    simp only [BzmTelemetrySample.hasImmediateTrip, Bool.and_eq_true] at htrip
    simp [BzmTelemetrySample.isSafe, htrip.2]

/-- A strictly newer sample is taken, another is not. -/
def takeSample (policy : ConfirmationPolicy) (call : ConfirmationCall)
    (sample : BzmTelemetrySample) (taken : List TakenSample) : List TakenSample :=
  if lastTaken taken < sample.timestampUs then seeSample policy call sample :: taken else taken

/-- A call has all of its samples up to an ASIC. -/
def usableUpTo (call : ConfirmationCall) (taken : Fin BZM_MAX_ASIC_COUNT → List TakenSample)
    (index : Fin BZM_MAX_ASIC_COUNT) : Bool :=
  (List.finRange BZM_MAX_ASIC_COUNT).all fun earlier =>
    decide (index < earlier) ||
      !sampleUnusable earlier (lastTaken (taken earlier)) (call.store.samples earlier)

/-- The samples taken after one more call. -/
def takenAfter (policy : ConfirmationPolicy) (call : ConfirmationCall)
    (taken : Fin BZM_MAX_ASIC_COUNT → List TakenSample) (index : Fin BZM_MAX_ASIC_COUNT) :
    List TakenSample :=
  if confirmationArgumentsInvalid policy call = false ∧ usableUpTo call taken index = true then
    takeSample policy call (call.store.samples index) (taken index)
  else taken index

/-- The samples taken by a sequence of calls. -/
def takenBy (policy : ConfirmationPolicy) (calls : List ConfirmationCall) :
    Fin BZM_MAX_ASIC_COUNT → List TakenSample :=
  run (fun taken call => takenAfter policy call taken) (fun _ => []) calls

/-- The object after a sequence of calls. -/
def confirmationAfter (policy : ConfirmationPolicy) (calls : List ConfirmationCall) :
    BzmTelemetryConfirmation :=
  run (fun confirmation call => (bzmTelemetryConfirmationObserve policy confirmation call).2) .init
    calls

end EspMiner
