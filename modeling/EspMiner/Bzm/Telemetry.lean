import EspMiner.Bzm.Topology
import EspMiner.Library.Binary32

/-!
# Telemetry samples

`components/asic/bzm_telemetry.c`: when the sample of an ASIC is fresh and safe,
and how an anomaly is confirmed over several samples.
-/

namespace EspMiner

open Library

def BZM_CH2_CONFIRM_MAX_SAMPLES : U8 := 10

/-- `bzm_telemetry_bounds_t` -/
structure BzmTelemetryBounds where
  temperatureMinC : Binary32
  temperatureMaxC : Binary32
  ch0MinMv : Binary32
  ch0MaxMv : Binary32
  ch1MinMv : Binary32
  ch1MaxMv : Binary32
  ch2AbsMaxMv : Binary32
  maxStackSpreadMv : Binary32
deriving DecidableEq

/-- `bzm_telemetry_sample_t`, without the codes that were decoded. -/
structure BzmTelemetrySample where
  asicId : U8
  timestampUs : U64
  received : Bool
  temperatureC : Binary32
  thermalValid : Bool
  ch0Mv : Binary32
  ch1Mv : Binary32
  ch2Mv : Binary32
  voltageEnabled : Bool
  voltageFault : Bool
  voltageValid : Bool
  pllLocked : Bool
  valid : Bool
  trip : Bool
deriving DecidableEq

/-- The all-zero record. -/
def BzmTelemetrySample.zero : BzmTelemetrySample where
  asicId := 0
  timestampUs := 0
  received := false
  temperatureC := .ofNat 0
  thermalValid := false
  ch0Mv := .ofNat 0
  ch1Mv := .ofNat 0
  ch2Mv := .ofNat 0
  voltageEnabled := false
  voltageFault := false
  voltageValid := false
  pllLocked := false
  valid := false
  trip := false

/-- `bzm_telemetry_value_in_bounds` -/
def bzmTelemetryValueInBounds (value minimum maximum : Binary32) : Bool :=
  value.isFinite && minimum.isFinite && maximum.isFinite && minimum.le maximum &&
    minimum.le value && value.le maximum

/-- `bounds_are_valid` -/
def BzmTelemetryBounds.areValid (bounds : BzmTelemetryBounds) : Bool :=
  bounds.temperatureMinC.isFinite && bounds.temperatureMaxC.isFinite &&
    bounds.temperatureMinC.le bounds.temperatureMaxC &&
    bounds.ch0MinMv.isFinite && bounds.ch0MaxMv.isFinite && bounds.ch0MinMv.le bounds.ch0MaxMv &&
    bounds.ch1MinMv.isFinite && bounds.ch1MaxMv.isFinite && bounds.ch1MinMv.le bounds.ch1MaxMv &&
    bounds.ch2AbsMaxMv.isFinite && (Binary32.ofNat 0).le bounds.ch2AbsMaxMv &&
    bounds.maxStackSpreadMv.isFinite && (Binary32.ofNat 0).le bounds.maxStackSpreadMv

namespace BzmTelemetrySample

/-- `bzm_telemetry_sample_is_fresh` -/
def isFresh (sample : BzmTelemetrySample) (nowUs maxAgeUs : U64) : Bool :=
  sample.received && decide (sample.timestampUs ≤ nowUs) &&
    decide (nowUs - sample.timestampUs ≤ maxAgeUs)

/-- `bzm_telemetry_sample_has_immediate_trip` -/
def hasImmediateTrip (sample : BzmTelemetrySample) : Bool := sample.received && sample.trip

/-- `sample_is_within_non_ch2_bounds` -/
def isWithinNonCh2Bounds (sample : BzmTelemetrySample) (bounds : BzmTelemetryBounds) : Bool :=
  bounds.areValid && sample.ch2Mv.isFinite &&
    bzmTelemetryValueInBounds sample.temperatureC bounds.temperatureMinC bounds.temperatureMaxC &&
    bzmTelemetryValueInBounds sample.ch0Mv bounds.ch0MinMv bounds.ch0MaxMv &&
    bzmTelemetryValueInBounds sample.ch1Mv bounds.ch1MinMv bounds.ch1MaxMv &&
    (sample.ch0Mv.sub sample.ch1Mv).abs.le bounds.maxStackSpreadMv

/-- `bzm_telemetry_sample_is_safe_except_ch2` -/
def isSafeExceptCh2 (sample : BzmTelemetrySample) (nowUs maxAgeUs : U64)
    (bounds : BzmTelemetryBounds) (requireClockLocks : Bool) : Bool :=
  !sample.trip && sample.thermalValid && sample.voltageEnabled &&
    sample.isFresh nowUs maxAgeUs && sample.isWithinNonCh2Bounds bounds &&
    (!requireClockLocks || sample.pllLocked) &&
    (sample.voltageValid ||
      sample.voltageFault && sample.ch2Mv.isFinite && bounds.ch2AbsMaxMv.lt sample.ch2Mv.abs)

/-- `bzm_telemetry_sample_is_within_bounds` -/
def isWithinBounds (sample : BzmTelemetrySample) (bounds : BzmTelemetryBounds) : Bool :=
  sample.isWithinNonCh2Bounds bounds && sample.ch2Mv.abs.le bounds.ch2AbsMaxMv

/-- `bzm_telemetry_sample_is_safe` -/
def isSafe (sample : BzmTelemetrySample) (nowUs maxAgeUs : U64) (bounds : BzmTelemetryBounds)
    (requireClockLocks : Bool) : Bool :=
  sample.valid && !sample.trip && sample.isFresh nowUs maxAgeUs &&
    sample.isWithinBounds bounds && (!requireClockLocks || sample.pllLocked)

end BzmTelemetrySample

end EspMiner
