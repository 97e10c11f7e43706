import EspMiner.Bzm.FrameParserStreams
import EspMiner.Bzm.TelemetryConfirmation
import EspMiner.Bzm.Work

/-!
# The receive side of the transport

`components/asic/bzm_transport.c`: the parser hands every frame to
`transport_frame_handler`, which queues results, keeps the telemetry samples and
matches register replies and NOOPs with the request that waits for them.
-/

namespace EspMiner

open BzmFrameParser

def BZM_PENDING_RESULT_COUNT : Nat := 256

/-! ### Decoding the payloads -/

/-- `bzm_result_decode` -/
def bzmResultDecode (frame : List U8) (timestampUs : U64) : Option BzmRawResult :=
  let byte (index : Nat) : U8 := frame.getD index 0
  let engineStatus : U16 := ((byte 0).setWidth 16 <<< 8) ||| (byte 1).setWidth 16
  let engineId := (engineStatus &&& 0x0fff#16).toNat
  if engineId < BZM_MAX_ENGINE_COUNT then
    some {
      asicId := 0
      engineId := engineId
      status := (engineStatus >>> 12).setWidth 8
      nonce := (byte 2).setWidth 32 ||| ((byte 3).setWidth 32 <<< 8) |||
        ((byte 4).setWidth 32 <<< 16) ||| ((byte 5).setWidth 32 <<< 24)
      sequenceId := byte 6
      time := byte 7
      timestampUs := timestampUs }
  else none

/-- `bzm_telemetry_temperature_from_code` and `bzm_telemetry_voltage_from_code_mv`. -/
structure BzmTelemetryReadings where
  temperatureFromCode : U16 → Library.Binary32
  voltageFromCodeMv : U16 → Library.Binary32

/-- `bzm_telemetry_decode` -/
def bzmTelemetryDecode (readings : BzmTelemetryReadings) (asicId : U8) (payload : List U8)
    (timestampUs : U64) : Option BzmTelemetrySample :=
  if bzmTopologyAsicIndex asicId = none ∨ payload.length ≠ BZM_TDM_TELEMETRY_PAYLOAD_SIZE then none
  else
    let byte (index : Nat) : U8 := payload.getD index 0
    let wide (value : U8) : U16 := value.setWidth 16
    let thermal := byte 0
    let voltage := byte 2
    let clocks := byte 7
    let bit (value mask : U8) : Bool := decide (value &&& mask ≠ 0#8)
    let thermalValid := bit thermal 0x80#8 && bit thermal 0x40#8 && !bit thermal 0x20#8
    let voltageEnabled := bit voltage 0x80#8
    let voltageFault := bit clocks 0x10#8
    some {
      asicId := asicId
      timestampUs := timestampUs
      received := true
      temperatureC := readings.temperatureFromCode
        ((wide (thermal &&& 0x0f#8) <<< 8) ||| wide (byte 1))
      thermalValid := thermalValid
      ch0Mv := readings.voltageFromCodeMv ((wide (voltage &&& 0x3f#8) <<< 8) ||| wide (byte 3))
      ch1Mv := readings.voltageFromCodeMv ((wide (byte 4) <<< 6) ||| wide (byte 5 &&& 0x3f#8))
      ch2Mv := readings.voltageFromCodeMv ((wide (clocks &&& 0x0f#8) <<< 10) |||
        (wide (byte 6) <<< 2) ||| wide (byte 5 >>> 6))
      voltageEnabled := voltageEnabled
      voltageFault := voltageFault
      voltageValid := voltageEnabled && !voltageFault
      pllLocked := bit clocks 0x80#8
      valid := thermalValid && (voltageEnabled && !voltageFault)
      trip := bit thermal 0x10#8 || bit voltage 0x40#8 }

/-- `bzm_telemetry_store_init` -/
def BzmTelemetryStore.init : BzmTelemetryStore :=
  ⟨fun index => { BzmTelemetrySample.zero with asicId := wireId index }⟩

/-- `bzm_telemetry_store_apply_frame` -/
def BzmTelemetryStore.applyFrame (readings : BzmTelemetryReadings) (store : BzmTelemetryStore)
    (frame : BzmFrame) : Bool × BzmTelemetryStore :=
  if frame.type ≠ .telemetry then (false, store)
  else
    match bzmTopologyAsicIndex frame.asicId with
    | none => (false, store)
    | some index =>
        match bzmTelemetryDecode readings frame.asicId frame.payload frame.timestampUs with
        | none => (false, store)
        | some sample =>
            (true, ⟨fun other => if other.val = index then sample else store.samples other⟩)

/-! ### The state -/

/-- `bzm_serial_io_state_t`, once it is initialized; `registerData` and
`pendingResults` are the arrays. -/
structure BzmSerialIo where
  parser : BzmFrameParser
  telemetry : BzmTelemetryStore
  pendingResults : Nat → BzmRawResult
  pendingResultHead : Nat
  pendingResultLength : Nat
  droppedResults : U32
  rejectedResultFrames : U32
  registerPending : Bool
  registerReady : Bool
  registerAsicId : U8
  registerLength : U8
  registerData : List U8
  unmatchedRegisterFrames : U32
  noopPending : Bool
  noopReady : Bool
  noopAsicId : U8
  unsolicitedNoopFrames : U32
  invalidNoopFrames : U32
  telemetryDecodeFailures : U32

/-- `addressed_asic` -/
def addressedAsic (asicId : U8) : Bool := (bzmTopologyAsicIndex asicId).isSome

/-- The payload of every NOOP, `"2ZB"`. -/
def NOOP_PAYLOAD : List U8 := [0x32#8, 0x5a#8, 0x42#8]

namespace BzmSerialIo

/-- `bzm_serial_transport_init` -/
def init : BzmSerialIo where
  parser := BzmFrameParser.init
  telemetry := BzmTelemetryStore.init
  pendingResults := fun _ => ⟨0, 0, 0, 0, 0, 0, 0⟩
  pendingResultHead := 0
  pendingResultLength := 0
  droppedResults := 0
  rejectedResultFrames := 0
  registerPending := false
  registerReady := false
  registerAsicId := 0
  registerLength := 0
  registerData := List.replicate BZM_TDM_MAX_REGISTER_PAYLOAD_SIZE 0
  unmatchedRegisterFrames := 0
  noopPending := false
  noopReady := false
  noopAsicId := 0
  unsolicitedNoopFrames := 0
  invalidNoopFrames := 0
  telemetryDecodeFailures := 0

/-- `queue_result_locked`: a full queue loses its oldest result. -/
def queueResult (io : BzmSerialIo) (result : BzmRawResult) : BzmSerialIo :=
  let io :=
    if io.pendingResultLength = BZM_PENDING_RESULT_COUNT then
      { io with
        pendingResultHead := (io.pendingResultHead + 1) % BZM_PENDING_RESULT_COUNT
        pendingResultLength := io.pendingResultLength - 1
        droppedResults := io.droppedResults + 1 }
    else io
  let tail := (io.pendingResultHead + io.pendingResultLength) % BZM_PENDING_RESULT_COUNT
  { io with
    pendingResults := Function.update io.pendingResults tail result
    pendingResultLength := io.pendingResultLength + 1 }

/-- The `BZM_FRAME_RESULT` case of `transport_frame_handler`. -/
def handleResult (io : BzmSerialIo) (frame : BzmFrame) : BzmSerialIo :=
  let rejected := { io with rejectedResultFrames := io.rejectedResultFrames + 1 }
  if addressedAsic frame.asicId = false then rejected
  else
    match bzmResultDecode frame.payload frame.timestampUs with
    | none => rejected
    | some result => io.queueResult { result with asicId := frame.asicId }

/-- The `BZM_FRAME_REGISTER` case. -/
def handleRegister (io : BzmSerialIo) (frame : BzmFrame) : BzmSerialIo :=
  if io.registerPending = false ∨ frame.asicId ≠ io.registerAsicId ∨
      frame.payload.length ≠ io.registerLength.toNat then
    { io with unmatchedRegisterFrames := io.unmatchedRegisterFrames + 1 }
  else
    { io with
      registerData := frame.payload ++ io.registerData.drop frame.payload.length
      registerReady := true }

/-- The `BZM_FRAME_TELEMETRY` case. -/
def handleTelemetry (readings : BzmTelemetryReadings) (io : BzmSerialIo) (frame : BzmFrame) :
    BzmSerialIo :=
  let applied := io.telemetry.applyFrame readings frame
  if applied.1 then { io with telemetry := applied.2 }
  else { io with telemetryDecodeFailures := io.telemetryDecodeFailures + 1 }

/-- The `BZM_FRAME_NOOP` case. -/
def handleNoop (io : BzmSerialIo) (frame : BzmFrame) : BzmSerialIo :=
  if frame.payload ≠ NOOP_PAYLOAD then
    { io with invalidNoopFrames := io.invalidNoopFrames + 1 }
  else if io.noopPending = false ∨
      (io.noopAsicId ≠ BZM_TDM_BROADCAST_ASIC_ID ∧ io.noopAsicId ≠ frame.asicId) then
    { io with unsolicitedNoopFrames := io.unsolicitedNoopFrames + 1 }
  else { io with noopReady := true }

/-- `transport_frame_handler` -/
def transportFrameHandler (readings : BzmTelemetryReadings) (io : BzmSerialIo) (frame : BzmFrame) :
    BzmSerialIo :=
  match frame.type with
  | .result => io.handleResult frame
  | .register => io.handleRegister frame
  | .telemetry => io.handleTelemetry readings frame
  | .noop => io.handleNoop frame

end BzmSerialIo

/-- The frames that a parser has emitted on its way to a later state, oldest
first. -/
def emittedSince (older newer : BzmFrameParser) : List BzmFrame :=
  framesOf (newer.trace.take (newer.trace.length - older.trace.length))

namespace BzmSerialIo

/-- `bzm_serial_transport_ingest_bytes`.  The handler does not touch the parser,
so it is run on the frames of the feed in their order. -/
def ingestBytes (readings : BzmTelemetryReadings) (io : BzmSerialIo) (data : List U8)
    (timestampUs : U64) : Nat × BzmSerialIo :=
  let parser := io.parser.feed data timestampUs
  let frames := emittedSince io.parser parser
  (frames.length, frames.foldl (transportFrameHandler readings) { io with parser := parser })

/-- `reset_io_state` -/
def resetIoState (io : BzmSerialIo) (resetTelemetry resetCounters : Bool) : BzmSerialIo :=
  let io := { io with
    pendingResultHead := 0
    pendingResultLength := 0
    registerPending := false
    registerReady := false
    noopPending := false
    noopReady := false
    parser := { io.parser with buffer := [], expectedRegisterLength := fun _ => 0 } }
  let io := if resetTelemetry then { io with telemetry := BzmTelemetryStore.init } else io
  if resetCounters then
    { io with
      parser := { io.parser with
        emittedFrames := 0
        discardedBytes := 0
        emittedFramesAtLastDiscard := 0
        unexpectedRegisterHeaders := 0
        discardTraceNext := 0
        discardTraceLength := 0 }
      droppedResults := 0
      rejectedResultFrames := 0
      unmatchedRegisterFrames := 0
      unsolicitedNoopFrames := 0
      invalidNoopFrames := 0
      telemetryDecodeFailures := 0 }
  else io

/-- `clear_partial_frame` -/
def clearPartialFrame (io : BzmSerialIo) : BzmSerialIo :=
  { io with parser := { io.parser with buffer := [] } }

/-- `bzm_serial_expect_register_reply` -/
def expectRegisterReply (io : BzmSerialIo) (asicId : U8) (payloadLength : Nat) :
    Bool × BzmSerialIo :=
  if addressedAsic asicId = false ∨ payloadLength = 0 ∨
      BZM_TDM_MAX_REGISTER_PAYLOAD_SIZE < payloadLength then
    (false, io)
  else if io.registerPending then (false, io)
  else
    match io.parser.expectRegister asicId payloadLength with
    | (false, parser) => (false, { io with parser := parser })
    | (true, parser) =>
        (true, { io with
          parser := parser
          registerPending := true
          registerReady := false
          registerAsicId := asicId
          registerLength := BitVec.ofNat 8 payloadLength })

/-- `bzm_serial_take_register_reply` -/
def takeRegisterReply (io : BzmSerialIo) (asicId : U8) (dataLength : Nat) :
    Option (List U8) × BzmSerialIo :=
  if io.registerPending && io.registerReady && decide (io.registerAsicId = asicId) &&
      decide (io.registerLength.toNat = dataLength) then
    (some (io.registerData.take dataLength),
      { io with registerPending := false, registerReady := false, registerLength := 0 })
  else (none, io)

/-- `bzm_serial_cancel_register_reply` -/
def cancelRegisterReply (io : BzmSerialIo) (asicId : U8) : Bool × BzmSerialIo :=
  if io.registerPending && decide (io.registerAsicId = asicId) then
    (true, { io with
      parser := (io.parser.cancelRegister asicId).2
      registerPending := false
      registerReady := false
      registerLength := 0 })
  else (false, io)

/-- `dequeue_result` -/
def dequeueResult (io : BzmSerialIo) : Option BzmRawResult × BzmSerialIo :=
  if io.pendingResultLength ≠ 0 then
    (some (io.pendingResults io.pendingResultHead),
      { io with
        pendingResultHead := (io.pendingResultHead + 1) % BZM_PENDING_RESULT_COUNT
        pendingResultLength := io.pendingResultLength - 1 })
  else (none, io)

/-- `bzm_serial_discard_pending_results` -/
def discardPendingResults (io : BzmSerialIo) : BzmSerialIo :=
  { io with pendingResultHead := 0, pendingResultLength := 0 }

/-- The first locked part of `bzm_serial_probe_noop`. -/
def startNoop (io : BzmSerialIo) (asicId : U8) : Bool × BzmSerialIo :=
  if io.noopPending then (false, io)
  else (true, { io with noopPending := true, noopReady := false, noopAsicId := asicId })

/-- The locked part of its loop. -/
def takeNoop (io : BzmSerialIo) : Bool × BzmSerialIo :=
  if io.noopReady then (true, { io with noopPending := false, noopReady := false })
  else (false, io)

/-- The locked part of its two ways to give up; both are followed by
`clear_partial_frame`. -/
def endNoop (io : BzmSerialIo) : BzmSerialIo :=
  { io with noopPending := false, noopReady := false }

end BzmSerialIo

/-- The locked sections of the transport. -/
inductive BzmSerialOp where
  | expectRegisterReply (asicId : U8) (payloadLength : Nat)
  | takeRegisterReply (asicId : U8) (dataLength : Nat)
  | cancelRegisterReply (asicId : U8)
  | ingestBytes (data : List U8) (timestampUs : U64)
  | clearPartialFrame
  | resetIoState (resetTelemetry resetCounters : Bool)
  | dequeueResult
  | discardPendingResults
  | startNoop (asicId : U8)
  | takeNoop
  | endNoop
deriving DecidableEq

/-- The state after one locked section. -/
def BzmSerialIo.step (readings : BzmTelemetryReadings) (io : BzmSerialIo) :
    BzmSerialOp → BzmSerialIo
  | .expectRegisterReply asicId payloadLength => (io.expectRegisterReply asicId payloadLength).2
  | .takeRegisterReply asicId dataLength => (io.takeRegisterReply asicId dataLength).2
  | .cancelRegisterReply asicId => (io.cancelRegisterReply asicId).2
  | .ingestBytes data timestampUs => (io.ingestBytes readings data timestampUs).2
  | .clearPartialFrame => io.clearPartialFrame
  | .resetIoState resetTelemetry resetCounters => io.resetIoState resetTelemetry resetCounters
  | .dequeueResult => io.dequeueResult.2
  | .discardPendingResults => io.discardPendingResults
  | .startNoop asicId => (io.startNoop asicId).2
  | .takeNoop => io.takeNoop.2
  | .endNoop => io.endNoop

end EspMiner
