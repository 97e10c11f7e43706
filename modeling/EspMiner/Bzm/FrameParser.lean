import EspMiner.Bzm.Topology
import EspMiner.Library.Run

/-!
# The Bonanza frame parser

`components/asic/bzm_frame_parser.c`: bytes are buffered one at a time; every
header that cannot start a frame costs its first byte, every complete frame is
handed to the handler.  The trace records both, newest first, together with the
register replies the parser was told to expect.
-/

namespace EspMiner

open Library

def BZM_TDM_HEADER_SIZE : Nat := 2
def BZM_TDM_BROADCAST_ASIC_ID : U8 := 0xfa#8
def BZM_RESULT_FRAME_SIZE : Nat := 8
def BZM_TDM_TELEMETRY_PAYLOAD_SIZE : Nat := 8
def BZM_TDM_NOOP_PAYLOAD_SIZE : Nat := 3
def BZM_TDM_MAX_REGISTER_PAYLOAD_SIZE : Nat := 32
def BZM_TDM_MAX_FRAME_SIZE : Nat := BZM_TDM_HEADER_SIZE + BZM_TDM_MAX_REGISTER_PAYLOAD_SIZE
def BZM_FRAME_PARSER_DISCARD_TRACE_SIZE : Nat := 16

/-- `bzm_frame_type_t` -/
inductive BzmFrameType where
  | result
  | register
  | telemetry
  | noop
deriving DecidableEq, Repr

/-- The type byte on the wire. -/
def BzmFrameType.toByte : BzmFrameType → U8
  | .result => 0x01#8
  | .register => 0x03#8
  | .telemetry => 0x0d#8
  | .noop => 0x0f#8

/-- The `switch` on the second byte of a header. -/
def BzmFrameType.ofByte (byte : U8) : Option BzmFrameType :=
  if byte = 0x01#8 then some .result
  else if byte = 0x03#8 then some .register
  else if byte = 0x0d#8 then some .telemetry
  else if byte = 0x0f#8 then some .noop
  else none

theorem BzmFrameType.toByte_of_ofByte {byte : U8} {type : BzmFrameType}
    (h : ofByte byte = some type) : type.toByte = byte := by
  unfold ofByte at h
  split_ifs at h with h1 h2 h3 h4 <;> cases h <;> simp [toByte, *]

/-- `bzm_frame_t`; the payload is the used part of its array. -/
structure BzmFrame where
  type : BzmFrameType
  asicId : U8
  payload : List U8
  timestampUs : U64
deriving DecidableEq

/-- The bytes of a frame on the wire. -/
def BzmFrame.wire (frame : BzmFrame) : List U8 :=
  frame.asicId :: frame.type.toByte :: frame.payload

/-- What the parser did. -/
inductive BzmParserEvent where
  | expected (asicId : U8) (payloadLength : Nat)
  | cancelled (asicId : U8)
  | discarded (byte : U8)
  | frame (frame : BzmFrame)
deriving DecidableEq

/-- `bzm_frame_parser_t`.  `buffer` is the used part of its array, and the
expectations are indexed by logical ASIC. -/
structure BzmFrameParser where
  buffer : List U8
  expectedRegisterLength : Nat → U8
  emittedFrames : U32
  discardedBytes : U32
  emittedFramesAtLastDiscard : U32
  unexpectedRegisterHeaders : U32
  discardTrace : Nat → U8
  discardTraceNext : Nat
  discardTraceLength : Nat
  trace : List BzmParserEvent

/-- `valid_wire_asic_id` -/
def validWireAsicId (asicId : U8) : Bool :=
  (bzmTopologyAsicIndex asicId).isSome || decide (asicId = BZM_TDM_BROADCAST_ASIC_ID)

namespace BzmFrameParser

/-- `bzm_frame_parser_init` -/
def init : BzmFrameParser where
  buffer := []
  expectedRegisterLength := fun _ => 0
  emittedFrames := 0
  discardedBytes := 0
  emittedFramesAtLastDiscard := 0
  unexpectedRegisterHeaders := 0
  discardTrace := fun _ => 0
  discardTraceNext := 0
  discardTraceLength := 0
  trace := []

/-- `parser->expected_register_length[index] = length` -/
def setExpected (p : BzmFrameParser) (index : Nat) (length : U8) : BzmFrameParser :=
  { p with expectedRegisterLength := Function.update p.expectedRegisterLength index length }

/-- `bzm_frame_parser_expect_register` -/
def expectRegister (p : BzmFrameParser) (asicId : U8) (payloadLength : Nat) :
    Bool × BzmFrameParser :=
  match bzmTopologyAsicIndex asicId with
  | none => (false, p)
  | some index =>
      if payloadLength = 0 ∨ BZM_TDM_MAX_REGISTER_PAYLOAD_SIZE < payloadLength ∨
          p.expectedRegisterLength index ≠ 0 then
        (false, p)
      else
        (true, { p.setExpected index (BitVec.ofNat 8 payloadLength) with
          trace := .expected asicId payloadLength :: p.trace })

/-- `bzm_frame_parser_cancel_register` -/
def cancelRegister (p : BzmFrameParser) (asicId : U8) : Bool × BzmFrameParser :=
  match bzmTopologyAsicIndex asicId with
  | none => (false, p)
  | some index =>
      if p.expectedRegisterLength index = 0 then (false, p)
      else (true, { p.setExpected index 0 with trace := .cancelled asicId :: p.trace })

/-- `record_discard` -/
def recordDiscard (p : BzmFrameParser) (value : U8) : BzmFrameParser :=
  { p with
    emittedFramesAtLastDiscard := p.emittedFrames
    discardTrace := Function.update p.discardTrace p.discardTraceNext value
    discardTraceNext := (p.discardTraceNext + 1) % BZM_FRAME_PARSER_DISCARD_TRACE_SIZE
    discardTraceLength :=
      if p.discardTraceLength < BZM_FRAME_PARSER_DISCARD_TRACE_SIZE then p.discardTraceLength + 1
      else p.discardTraceLength }

/-- The three statements that drop the first buffered byte. -/
def discardFirst (p : BzmFrameParser) : BzmFrameParser :=
  match p.buffer with
  | [] => p
  | byte :: rest =>
      let p := p.recordDiscard byte
      { p with
        buffer := rest
        discardedBytes := p.discardedBytes + 1
        trace := .discarded byte :: p.trace }

/-- `expected_frame_length`: the type and length of the frame that the buffered
header starts, if it can start one. -/
def expectedFrameLength (p : BzmFrameParser) : Option (BzmFrameType × Nat) × BzmFrameParser :=
  match p.buffer with
  | asicId :: type :: _ =>
      if validWireAsicId asicId = false then (none, p)
      else
        match BzmFrameType.ofByte type with
        | some .result => (some (.result, BZM_TDM_HEADER_SIZE + BZM_RESULT_FRAME_SIZE), p)
        | some .register =>
            let unexpected := { p with
              unexpectedRegisterHeaders := p.unexpectedRegisterHeaders + 1 }
            match bzmTopologyAsicIndex asicId with
            | none => (none, unexpected)
            | some index =>
                if p.expectedRegisterLength index = 0 then (none, unexpected)
                else (some (.register,
                  BZM_TDM_HEADER_SIZE + (p.expectedRegisterLength index).toNat), p)
        | some .telemetry =>
            (some (.telemetry, BZM_TDM_HEADER_SIZE + BZM_TDM_TELEMETRY_PAYLOAD_SIZE), p)
        | some .noop => (some (.noop, BZM_TDM_HEADER_SIZE + BZM_TDM_NOOP_PAYLOAD_SIZE), p)
        | none => (none, p)
  | _ => (none, p)

/-- The part of the loop of `parse_buffer` that emits a complete frame. -/
def emitFrame (p : BzmFrameParser) (type : BzmFrameType) (frameLength : Nat) (timestampUs : U64) :
    BzmFrameParser :=
  let frame : BzmFrame := {
    type := type
    asicId := p.buffer.headD 0
    payload := (p.buffer.take frameLength).drop BZM_TDM_HEADER_SIZE
    timestampUs := timestampUs }
  let p := { p with buffer := p.buffer.drop frameLength }
  let emitted (p : BzmFrameParser) := { p with
    emittedFrames := p.emittedFrames + 1
    trace := .frame frame :: p.trace }
  if type = .register then
    match bzmTopologyAsicIndex frame.asicId with
    | none => p
    | some index => emitted (p.setExpected index 0)
  else emitted p

/-- One iteration of the loop of `parse_buffer`; `none` is its exit. -/
def parseStep (p : BzmFrameParser) (timestampUs : U64) : Option BzmFrameParser :=
  if p.buffer.length < BZM_TDM_HEADER_SIZE then none
  else
    match p.expectedFrameLength with
    | (none, p) => some p.discardFirst
    | (some (type, frameLength), p) =>
        if p.buffer.length < frameLength then none
        else some (p.emitFrame type frameLength timestampUs)

@[simp] theorem discardFirst_buffer (p : BzmFrameParser) :
    p.discardFirst.buffer = p.buffer.tail := by
  unfold discardFirst
  cases h : p.buffer <;> simp [h]

@[simp] theorem expectedFrameLength_buffer (p : BzmFrameParser) :
    p.expectedFrameLength.2.buffer = p.buffer := by
  unfold expectedFrameLength
  split
  · split
    · rfl
    · split
      · rfl
      · simp only
        split
        · rfl
        · split <;> rfl
      · rfl
      · rfl
      · rfl
  · rfl

@[simp] theorem emitFrame_buffer (p : BzmFrameParser) (type : BzmFrameType) (frameLength : Nat)
    (timestampUs : U64) :
    (p.emitFrame type frameLength timestampUs).buffer = p.buffer.drop frameLength := by
  unfold emitFrame
  simp only
  split
  · split <;> rfl
  · rfl

/-- A header that starts a frame leaves the parser as it was. -/
theorem expectedFrameLength_eq_some {p q : BzmFrameParser} {type : BzmFrameType} {length : Nat}
    (h : p.expectedFrameLength = (some (type, length), q)) :
    q = p ∧ ∃ asicId typeByte rest, p.buffer = asicId :: typeByte :: rest ∧
      validWireAsicId asicId = true ∧ BzmFrameType.ofByte typeByte = some type ∧
      match (motive := BzmFrameType → Prop) type with
      | .result => length = BZM_TDM_HEADER_SIZE + BZM_RESULT_FRAME_SIZE
      | .register => ∃ index, bzmTopologyAsicIndex asicId = some index ∧
          p.expectedRegisterLength index ≠ 0 ∧
          length = BZM_TDM_HEADER_SIZE + (p.expectedRegisterLength index).toNat
      | .telemetry => length = BZM_TDM_HEADER_SIZE + BZM_TDM_TELEMETRY_PAYLOAD_SIZE
      | .noop => length = BZM_TDM_HEADER_SIZE + BZM_TDM_NOOP_PAYLOAD_SIZE := by
  unfold expectedFrameLength at h
  split at h
  · next asicId typeByte rest hbuffer =>
    split at h
    · cases h
    · next hvalid =>
      have hvalid' : validWireAsicId asicId = true := by simpa using hvalid
      split at h
      · next htype => cases h; exact ⟨rfl, _, _, _, hbuffer, hvalid', htype, rfl⟩
      · next htype =>
        simp only at h
        split at h
        · cases h
        · next index hindex =>
          split at h
          · cases h
          · next hexpected =>
            cases h
            exact ⟨rfl, _, _, _, hbuffer, hvalid', htype, index, hindex, hexpected, rfl⟩
      · next htype => cases h; exact ⟨rfl, _, _, _, hbuffer, hvalid', htype, rfl⟩
      · next htype => cases h; exact ⟨rfl, _, _, _, hbuffer, hvalid', htype, rfl⟩
      · cases h
  · cases h

theorem header_le_expectedFrameLength {p q : BzmFrameParser} {type : BzmFrameType} {length : Nat}
    (h : p.expectedFrameLength = (some (type, length), q)) : BZM_TDM_HEADER_SIZE ≤ length := by
  obtain ⟨-, _, _, _, -, -, -, hlength⟩ := expectedFrameLength_eq_some h
  cases type with
  | register =>
    obtain ⟨index, -, -, rfl⟩ := hlength
    omega
  | result => simp only at hlength; omega
  | telemetry => simp only at hlength; omega
  | noop => simp only at hlength; omega

/-- Every iteration of the loop uses up buffered bytes. -/
theorem parseStep_length {p q : BzmFrameParser} {timestampUs : U64}
    (h : p.parseStep timestampUs = some q) : q.buffer.length < p.buffer.length := by
  unfold parseStep at h
  split at h
  · cases h
  next hheader =>
  split at h
  · next p' heq =>
    have hbuffer : p'.buffer = p.buffer := by simpa [heq] using p.expectedFrameLength_buffer
    cases h
    simp only [discardFirst_buffer, hbuffer, List.length_tail]
    simp only [BZM_TDM_HEADER_SIZE] at hheader
    omega
  · next type frameLength p' heq =>
    have hlength := header_le_expectedFrameLength heq
    have hbuffer : p'.buffer = p.buffer := by simpa [heq] using p.expectedFrameLength_buffer
    split at h
    · cases h
    · cases h
      simp only [emitFrame_buffer, hbuffer, List.length_drop]
      simp only [BZM_TDM_HEADER_SIZE] at hheader hlength
      omega

/-- `parse_buffer` -/
def parseBuffer (p : BzmFrameParser) (timestampUs : U64) : BzmFrameParser :=
  match _h : p.parseStep timestampUs with
  | none => p
  | some q => q.parseBuffer timestampUs
termination_by p.buffer.length
decreasing_by exact parseStep_length _h

theorem parseBuffer_of_exit {p : BzmFrameParser} {timestampUs : U64}
    (h : p.parseStep timestampUs = none) : p.parseBuffer timestampUs = p := by
  rw [parseBuffer]
  split
  · rfl
  · next hstep => rw [h] at hstep; cases hstep

theorem parseBuffer_of_step {p q : BzmFrameParser} {timestampUs : U64}
    (h : p.parseStep timestampUs = some q) :
    p.parseBuffer timestampUs = q.parseBuffer timestampUs := by
  rw [parseBuffer]
  split
  · next hexit => rw [h] at hexit; cases hexit
  · next hstep =>
    rw [h] at hstep
    cases hstep
    rfl

/-- The body of the loop of `bzm_frame_parser_feed`. -/
def feedByte (timestampUs : U64) (p : BzmFrameParser) (byte : U8) : BzmFrameParser :=
  let p := if p.buffer.length = BZM_TDM_MAX_FRAME_SIZE then p.discardFirst else p
  ({ p with buffer := p.buffer ++ [byte] }).parseBuffer timestampUs

/-- `bzm_frame_parser_feed`; the number of frames that it returns is the number
of frames that it adds to the trace. -/
def feed (p : BzmFrameParser) (data : List U8) (timestampUs : U64) : BzmFrameParser :=
  data.foldl (feedByte timestampUs) p

end BzmFrameParser

/-- The three operations on a parser. -/
inductive BzmParserOp where
  | feed (data : List U8) (timestampUs : U64)
  | expectRegister (asicId : U8) (payloadLength : Nat)
  | cancelRegister (asicId : U8)

/-- The parser after one operation. -/
def BzmFrameParser.step (p : BzmFrameParser) : BzmParserOp → BzmFrameParser
  | .feed data timestampUs => p.feed data timestampUs
  | .expectRegister asicId payloadLength => (p.expectRegister asicId payloadLength).2
  | .cancelRegister asicId => (p.cancelRegister asicId).2

end EspMiner
