import EspMiner.Bzm.FrameParser
import Mathlib.Data.List.Count

/-!
# Soundness of the frame parser

For every interleaving of feeds, expectations and cancellations: the frames are
windows of the input in order, each admitted by its header and the expectation
it meets; no byte is lost; the buffer never fills; and the way the bytes are cut
into feeds does not matter.
-/

namespace EspMiner

variable {p q : BzmFrameParser}

open Library

namespace BzmFrameParser

/-! ## Reading the trace -/

/-- The input bytes that an event used up. -/
def segmentBytes : BzmParserEvent → List U8
  | .discarded byte => [byte]
  | .frame frame => frame.wire
  | _ => []

/-- The input that a trace has used up, oldest byte first. -/
def consumed (trace : List BzmParserEvent) : List U8 := trace.reverse.flatMap segmentBytes

/-- The bytes of the emitted frames. -/
def emittedBytes : List BzmParserEvent → Nat
  | [] => 0
  | .frame frame :: older => frame.wire.length + emittedBytes older
  | _ :: older => emittedBytes older

/-- The number of discarded bytes. -/
def discards : List BzmParserEvent → Nat
  | [] => 0
  | .discarded _ :: older => discards older + 1
  | _ :: older => discards older

/-- The payload length that is registered for an ASIC: a register frame from the
ASIC and a cancellation use it up. -/
def outstanding (asicId : U8) : List BzmParserEvent → Option Nat
  | [] => none
  | .expected id payloadLength :: older =>
      if id = asicId then some payloadLength else outstanding asicId older
  | .cancelled id :: older => if id = asicId then none else outstanding asicId older
  | .frame frame :: older =>
      if frame.type = .register ∧ frame.asicId = asicId then none else outstanding asicId older
  | .discarded _ :: older => outstanding asicId older

/-- A frame starts with a valid ASIC id and has the length of its type; a
register frame has the length registered for its ASIC at that moment. -/
def Admitted (older : List BzmParserEvent) (frame : BzmFrame) : Prop :=
  validWireAsicId frame.asicId = true ∧
  match frame.type with
  | .result => frame.payload.length = BZM_RESULT_FRAME_SIZE
  | .register => outstanding frame.asicId older = some frame.payload.length
  | .telemetry => frame.payload.length = BZM_TDM_TELEMETRY_PAYLOAD_SIZE
  | .noop => frame.payload.length = BZM_TDM_NOOP_PAYLOAD_SIZE

/-- Every frame of a trace was admitted by the events before it. -/
def FramesAdmitted (trace : List BzmParserEvent) : Prop :=
  ∀ newer frame older, trace = newer ++ .frame frame :: older → Admitted older frame

@[simp] theorem consumed_cons (event : BzmParserEvent) (older : List BzmParserEvent) :
    consumed (event :: older) = consumed older ++ segmentBytes event := by
  simp [consumed]

theorem length_consumed (trace : List BzmParserEvent) :
    (consumed trace).length = emittedBytes trace + discards trace := by
  induction trace with
  | nil => rfl
  | cons event older ih =>
    cases event <;> simp [segmentBytes, emittedBytes, discards, ih] <;> omega

theorem framesAdmitted_cons {event : BzmParserEvent} {older : List BzmParserEvent}
    (hevent : ∀ frame, event = .frame frame → Admitted older frame)
    (holder : FramesAdmitted older) : FramesAdmitted (event :: older) := by
  intro newer frame rest hsplit
  cases newer with
  | nil =>
    obtain ⟨rfl, rfl⟩ := List.cons.inj hsplit
    exact hevent frame rfl
  | cons first newer => exact holder newer frame rest (List.cons.inj hsplit).2

/-! ## The parser agrees with its trace -/

/-- The parser's expectations and counters are what its trace says. -/
structure Tracked (p : BzmFrameParser) : Prop where
  expected : ∀ asicId index, bzmTopologyAsicIndex asicId = some index →
    outstanding asicId p.trace =
      if p.expectedRegisterLength index = 0 then none
      else some (p.expectedRegisterLength index).toNat
  expectedLe : ∀ index,
    (p.expectedRegisterLength index).toNat ≤ BZM_TDM_MAX_REGISTER_PAYLOAD_SIZE
  admitted : FramesAdmitted p.trace
  discarded : p.discardedBytes = BitVec.ofNat 32 (discards p.trace)

/-- The input so far: what the trace used up and what is buffered. -/
def flow (p : BzmFrameParser) : List U8 := consumed p.trace ++ p.buffer

theorem init_tracked : Tracked init where
  expected asicId index _ := rfl
  expectedLe index := by simp [init]
  admitted newer frame older h := by simp [init] at h
  discarded := rfl

theorem discardFirst_tracked (h : Tracked p) :
    Tracked p.discardFirst ∧ p.discardFirst.flow = p.flow := by
  unfold discardFirst
  cases hbuffer : p.buffer with
  | nil => exact ⟨h, rfl⟩
  | cons byte rest =>
    refine ⟨⟨h.expected, h.expectedLe, framesAdmitted_cons (fun _ heq => by cases heq) h.admitted,
      ?_⟩, ?_⟩
    · simp only [recordDiscard, discards, h.discarded]
      rw [BitVec.ofNat_add]
      rfl
    · simp [flow, recordDiscard, segmentBytes, hbuffer]

/-- Counting an unexpected register header touches nothing else. -/
theorem expectedFrameLength_eq_none (h : p.expectedFrameLength = (none, q)) :
    q = { p with unexpectedRegisterHeaders := q.unexpectedRegisterHeaders } := by
  unfold expectedFrameLength at h
  split at h
  · split at h
    · cases h; rfl
    · split at h
      · cases h
      · simp only at h
        split at h
        · cases h; rfl
        · split at h
          · cases h; rfl
          · cases h
      · cases h
      · cases h
      · cases h; rfl
  · cases h; rfl

theorem Tracked.of_expectedFrameLength_none (h : Tracked p)
    (heq : p.expectedFrameLength = (none, q)) : Tracked q ∧ q.flow = p.flow := by
  rw [expectedFrameLength_eq_none heq]
  exact ⟨⟨h.expected, h.expectedLe, h.admitted, h.discarded⟩, rfl⟩

/-- The frame that `emitFrame` builds. -/
def frameAt (p : BzmFrameParser) (type : BzmFrameType) (frameLength : Nat) (timestampUs : U64) :
    BzmFrame :=
  ⟨type, p.buffer.headD 0, (p.buffer.take frameLength).drop BZM_TDM_HEADER_SIZE, timestampUs⟩

/-- The frame that a complete header announces is a prefix of the buffer. -/
theorem frameAt_wire {type : BzmFrameType} {frameLength : Nat}
    (heq : p.expectedFrameLength = (some (type, frameLength), q))
    (hbuffered : frameLength ≤ p.buffer.length) (timestampUs : U64) :
    (p.frameAt type frameLength timestampUs).wire = p.buffer.take frameLength ∧
      (p.frameAt type frameLength timestampUs).payload.length =
        frameLength - BZM_TDM_HEADER_SIZE := by
  obtain ⟨-, asicId, typeByte, rest, hbuffer, -, htype, -⟩ := expectedFrameLength_eq_some heq
  obtain ⟨payload, rfl⟩ := Nat.exists_eq_add_of_le (header_le_expectedFrameLength heq)
  constructor
  · rw [hbuffer, BZM_TDM_HEADER_SIZE, Nat.add_comm 2 payload]
    simp only [BzmFrame.wire, frameAt, hbuffer, List.headD_cons, List.take_succ_cons,
      BzmFrameType.toByte_of_ofByte htype, BZM_TDM_HEADER_SIZE, List.drop_succ_cons,
      List.drop_zero]
  · rw [frameAt, List.length_drop, List.length_take, Nat.min_eq_left hbuffered]

/-- The events so far admit the frame. -/
theorem frameAt_admitted {type : BzmFrameType} {frameLength : Nat} (h : Tracked p)
    (heq : p.expectedFrameLength = (some (type, frameLength), q))
    (hbuffered : frameLength ≤ p.buffer.length) (timestampUs : U64) :
    Admitted p.trace (p.frameAt type frameLength timestampUs) := by
  obtain ⟨-, asicId, typeByte, rest, hbuffer, hvalid, htype, hlength⟩ :=
    expectedFrameLength_eq_some heq
  have hpayload := (frameAt_wire heq hbuffered timestampUs).2
  have hasic : (p.frameAt type frameLength timestampUs).asicId = asicId := by
    simp [frameAt, hbuffer]
  refine ⟨by rw [hasic]; exact hvalid, ?_⟩
  rw [hpayload, hasic]
  cases type with
  | result => simp [frameAt, hlength]
  | telemetry => simp [frameAt, hlength]
  | noop => simp [frameAt, hlength]
  | register =>
    obtain ⟨index, hindex, hexpected, hlength⟩ := hlength
    simp only [frameAt]
    rw [h.expected asicId index hindex, if_neg hexpected, hlength, Nat.add_sub_cancel_left]

/-- Emitting a frame that is not a register reply leaves the expectations alone. -/
theorem Tracked.emit (h : Tracked p) {frame : BzmFrame} (hadmitted : Admitted p.trace frame)
    (hregister : frame.type ≠ .register) (buffer : List U8) (emittedFrames : U32) :
    Tracked { p with
      buffer := buffer, emittedFrames := emittedFrames, trace := .frame frame :: p.trace } where
  expected asicId index hindex := by
    simp only [outstanding, hregister, false_and, if_false]
    exact h.expected asicId index hindex
  expectedLe := h.expectedLe
  admitted := framesAdmitted_cons (fun _ heq => by cases heq; exact hadmitted) h.admitted
  discarded := h.discarded

/-- An event that changes the expectation of one ASIC, in the parser and in the
trace alike. -/
theorem Tracked.setExpected (h : Tracked p) {asicId : U8} {index : Nat}
    (hindex : bzmTopologyAsicIndex asicId = some index) {length : U8}
    (hle : length.toNat ≤ BZM_TDM_MAX_REGISTER_PAYLOAD_SIZE) {event : BzmParserEvent}
    (hself : outstanding asicId (event :: p.trace) =
      if length = 0 then none else some length.toNat)
    (hothers : ∀ id, asicId ≠ id → outstanding id (event :: p.trace) = outstanding id p.trace)
    (hadmitted : ∀ frame, event = .frame frame → Admitted p.trace frame)
    (hdiscards : discards (event :: p.trace) = discards p.trace)
    (buffer : List U8) (emittedFrames : U32) :
    Tracked { p.setExpected index length with
      buffer := buffer, emittedFrames := emittedFrames, trace := event :: p.trace } where
  expected id other hother := by
    simp only [BzmFrameParser.setExpected]
    by_cases hsame : asicId = id
    · subst hsame
      have : other = index := by
        rw [hother] at hindex
        exact Option.some.inj hindex
      simpa [this] using hself
    · have hne : other ≠ index := by
        rintro rfl
        exact hsame (bzmTopologyAsicIndex_inj hindex hother)
      simpa [hothers id hsame, Function.update_of_ne hne] using h.expected id other hother
  expectedLe other := by
    simp only [BzmFrameParser.setExpected]
    by_cases hsame : other = index
    · rw [hsame, Function.update_self]
      exact hle
    · rw [Function.update_of_ne hsame]
      exact h.expectedLe other
  admitted := framesAdmitted_cons hadmitted h.admitted
  discarded := h.discarded.trans (by rw [hdiscards])

theorem emitFrame_tracked {type : BzmFrameType} {frameLength : Nat} (h : Tracked p)
    (heq : p.expectedFrameLength = (some (type, frameLength), q))
    (hbuffered : frameLength ≤ p.buffer.length) (timestampUs : U64) :
    Tracked (p.emitFrame type frameLength timestampUs) ∧
      (p.emitFrame type frameLength timestampUs).flow = p.flow := by
  have hadmitted := frameAt_admitted h heq hbuffered timestampUs
  have hwire := (frameAt_wire heq hbuffered timestampUs).1
  have hflow : consumed (.frame (p.frameAt type frameLength timestampUs) :: p.trace) ++
      p.buffer.drop frameLength = p.flow := by
    rw [consumed_cons, segmentBytes, hwire, List.append_assoc, List.take_append_drop]
    rfl
  by_cases hregister : type = .register
  · subst hregister
    obtain ⟨-, asicId, typeByte, rest, hbuffer, -, -, index, hindex, -⟩ :=
      expectedFrameLength_eq_some heq
    have hasic : bzmTopologyAsicIndex (p.buffer.headD 0) = some index := by simp [hbuffer, hindex]
    simp only [emitFrame, if_true, hasic]
    refine ⟨?_, hflow⟩
    refine h.setExpected hasic (by decide) ?_ ?_
      (fun _ heq => by cases heq; exact hadmitted) rfl _ _
    · simp [outstanding]
    · intro id hne
      rw [outstanding, if_neg fun hsame => hne hsame.2]
  · simp only [emitFrame, hregister, if_false]
    exact ⟨h.emit hadmitted hregister _ _, hflow⟩

theorem parseStep_tracked {timestampUs : U64} (h : Tracked p)
    (hstep : p.parseStep timestampUs = some q) : Tracked q ∧ q.flow = p.flow := by
  unfold parseStep at hstep
  split at hstep
  · cases hstep
  split at hstep
  · next p' heq =>
    cases hstep
    obtain ⟨htracked, hflow⟩ := h.of_expectedFrameLength_none heq
    obtain ⟨hdiscard, hflow'⟩ := discardFirst_tracked htracked
    exact ⟨hdiscard, hflow'.trans hflow⟩
  · next type frameLength p' heq =>
    obtain ⟨rfl, -⟩ := expectedFrameLength_eq_some heq
    split at hstep
    · cases hstep
    · next hbuffered =>
      cases hstep
      exact emitFrame_tracked h heq (Nat.not_lt.mp hbuffered) timestampUs

/-- The loop keeps the invariant and stops where no frame is complete. -/
theorem parseBuffer_tracked (timestampUs : U64) (h : Tracked p) :
    Tracked (p.parseBuffer timestampUs) ∧ (p.parseBuffer timestampUs).flow = p.flow ∧
      (p.parseBuffer timestampUs).parseStep timestampUs = none := by
  induction p using parseBuffer.induct timestampUs with
  | case1 p hexit =>
    rw [parseBuffer_of_exit hexit]
    exact ⟨h, rfl, hexit⟩
  | case2 p q hstep ih =>
    rw [parseBuffer_of_step hstep]
    obtain ⟨htracked, hflow⟩ := parseStep_tracked h hstep
    obtain ⟨h1, h2, h3⟩ := ih htracked
    exact ⟨h1, h2.trans hflow, h3⟩

/-- No header announces more than the largest frame. -/
theorem expectedFrameLength_le {type : BzmFrameType} {frameLength : Nat}
    (hle : ∀ index, (p.expectedRegisterLength index).toNat ≤ BZM_TDM_MAX_REGISTER_PAYLOAD_SIZE)
    (heq : p.expectedFrameLength = (some (type, frameLength), q)) :
    frameLength ≤ BZM_TDM_MAX_FRAME_SIZE := by
  obtain ⟨-, _, _, _, -, -, -, hlength⟩ := expectedFrameLength_eq_some heq
  cases type with
  | register =>
    obtain ⟨index, -, -, rfl⟩ := hlength
    exact Nat.add_le_add_left (hle index) _
  | result => rw [hlength]; decide
  | telemetry => rw [hlength]; decide
  | noop => rw [hlength]; decide

/-- Where the loop stops, less than a frame is buffered. -/
theorem buffer_lt_of_parseStep_eq_none {timestampUs : U64} (h : Tracked p)
    (hexit : p.parseStep timestampUs = none) : p.buffer.length < BZM_TDM_MAX_FRAME_SIZE := by
  unfold parseStep at hexit
  split at hexit
  · next hshort => exact Nat.lt_of_lt_of_le hshort (by decide)
  split at hexit
  · cases hexit
  · next type frameLength p' heq =>
    obtain ⟨rfl, -⟩ := expectedFrameLength_eq_some heq
    split at hexit
    · next hshort => exact Nat.lt_of_lt_of_le hshort (expectedFrameLength_le h.expectedLe heq)
    · cases hexit

/-! ## Feeds and runs -/

theorem feedByte_tracked (h : Tracked p) (timestampUs : U64) (byte : U8) :
    Tracked (p.feedByte timestampUs byte) ∧
      (p.feedByte timestampUs byte).flow = p.flow ++ [byte] ∧
      (p.feedByte timestampUs byte).buffer.length < BZM_TDM_MAX_FRAME_SIZE := by
  have hroom : ∃ q, (if p.buffer.length = BZM_TDM_MAX_FRAME_SIZE then p.discardFirst else p) = q ∧
      Tracked q ∧ q.flow = p.flow := by
    split
    · exact ⟨_, rfl, discardFirst_tracked h⟩
    · exact ⟨_, rfl, h, rfl⟩
  obtain ⟨q, hq, htracked, hflow⟩ := hroom
  have hpushed : Tracked { q with buffer := q.buffer ++ [byte] } :=
    ⟨htracked.expected, htracked.expectedLe, htracked.admitted, htracked.discarded⟩
  obtain ⟨hparsed, hflow', hexit⟩ := parseBuffer_tracked timestampUs hpushed
  simp only [feedByte, hq]
  refine ⟨hparsed, ?_, buffer_lt_of_parseStep_eq_none hparsed hexit⟩
  rw [hflow', ← hflow]
  simp [flow]

theorem feed_tracked (h : Tracked p) (hbuffer : p.buffer.length < BZM_TDM_MAX_FRAME_SIZE)
    (data : List U8) (timestampUs : U64) :
    Tracked (p.feed data timestampUs) ∧ (p.feed data timestampUs).flow = p.flow ++ data ∧
      (p.feed data timestampUs).buffer.length < BZM_TDM_MAX_FRAME_SIZE := by
  induction data generalizing p with
  | nil => exact ⟨h, by simp [feed], hbuffer⟩
  | cons byte data ih =>
    obtain ⟨htracked, hflow, hbuffer'⟩ := feedByte_tracked h timestampUs byte
    obtain ⟨h1, h2, h3⟩ := ih htracked hbuffer'
    refine ⟨h1, h2.trans ?_, h3⟩
    rw [hflow, List.append_assoc]
    rfl

theorem expectRegister_tracked (h : Tracked p) (asicId : U8) (payloadLength : Nat) :
    Tracked (p.expectRegister asicId payloadLength).2 ∧
      (p.expectRegister asicId payloadLength).2.flow = p.flow ∧
      (p.expectRegister asicId payloadLength).2.buffer = p.buffer := by
  unfold expectRegister
  split
  · exact ⟨h, rfl, rfl⟩
  next index hindex =>
  split
  · exact ⟨h, rfl, rfl⟩
  next hguard =>
  simp only [not_or, Nat.not_lt] at hguard
  have hsmall : (BitVec.ofNat 8 payloadLength).toNat = payloadLength := by
    have := hguard.2.1
    simp only [BZM_TDM_MAX_REGISTER_PAYLOAD_SIZE] at this
    rw [BitVec.toNat_ofNat]
    omega
  have hne : BitVec.ofNat 8 payloadLength ≠ 0#8 := by
    intro hzero
    rw [hzero] at hsmall
    exact hguard.1 hsmall.symm
  refine ⟨?_, by simp [flow, segmentBytes, setExpected], rfl⟩
  refine h.setExpected hindex ?_ ?_ ?_ (fun _ heq => by cases heq) rfl p.buffer p.emittedFrames
  · rw [hsmall]
    exact hguard.2.1
  · simp [outstanding, hne, hsmall]
  · intro id hother
    simp [outstanding, hother]

theorem cancelRegister_tracked (h : Tracked p) (asicId : U8) :
    Tracked (p.cancelRegister asicId).2 ∧ (p.cancelRegister asicId).2.flow = p.flow ∧
      (p.cancelRegister asicId).2.buffer = p.buffer := by
  unfold cancelRegister
  split
  · exact ⟨h, rfl, rfl⟩
  next index hindex =>
  split
  · exact ⟨h, rfl, rfl⟩
  refine ⟨?_, by simp [flow, segmentBytes, setExpected], rfl⟩
  refine h.setExpected hindex (by decide) ?_ ?_ (fun _ heq => by cases heq) rfl p.buffer
    p.emittedFrames
  · simp [outstanding]
  · intro id hother
    simp [outstanding, hother]

end BzmFrameParser

/-- The bytes that an operation feeds. -/
def BzmParserOp.input : BzmParserOp → List U8
  | .feed data _ => data
  | _ => []

namespace BzmFrameParser

theorem run_tracked (ops : List BzmParserOp) (h : Tracked p)
    (hbuffer : p.buffer.length < BZM_TDM_MAX_FRAME_SIZE) :
    Tracked (run step p ops) ∧ (run step p ops).flow = p.flow ++ ops.flatMap BzmParserOp.input ∧
      (run step p ops).buffer.length < BZM_TDM_MAX_FRAME_SIZE := by
  induction ops generalizing p with
  | nil => exact ⟨h, by simp, hbuffer⟩
  | cons op ops ih =>
    have hstep : Tracked (p.step op) ∧ (p.step op).flow = p.flow ++ op.input ∧
        (p.step op).buffer.length < BZM_TDM_MAX_FRAME_SIZE := by
      cases op with
      | feed data timestampUs => exact feed_tracked h hbuffer data timestampUs
      | expectRegister asicId payloadLength =>
        obtain ⟨h1, h2, h3⟩ := expectRegister_tracked h asicId payloadLength
        exact ⟨h1, by simp [step, BzmParserOp.input, h2], by simpa [step, h3] using hbuffer⟩
      | cancelRegister asicId =>
        obtain ⟨h1, h2, h3⟩ := cancelRegister_tracked h asicId
        exact ⟨h1, by simp [step, BzmParserOp.input, h2], by simpa [step, h3] using hbuffer⟩
    obtain ⟨h1, h2, h3⟩ := ih hstep.1 hstep.2.2
    refine ⟨h1, h2.trans ?_, h3⟩
    rw [hstep.2.1, List.flatMap_cons, List.append_assoc]

/-! ## Cutting the input differently -/

end BzmFrameParser

/-- An event without its time of arrival. -/
def BzmParserEvent.untimed : BzmParserEvent → BzmParserEvent
  | .frame emitted => .frame { emitted with timestampUs := 0 }
  | event => event

/-- The same operation with one feed for each byte, at time zero. -/
def BzmParserOp.bytewise : BzmParserOp → List BzmParserOp
  | .feed data _ => data.map fun byte => .feed [byte] 0
  | op => [op]

namespace BzmFrameParser

/-- The parser without the times in its trace. -/
def untimed (p : BzmFrameParser) : BzmFrameParser :=
  { p with trace := p.trace.map BzmParserEvent.untimed }

@[simp] theorem untimed_buffer (p : BzmFrameParser) : p.untimed.buffer = p.buffer := rfl

theorem untimed_discardFirst (p : BzmFrameParser) :
    p.discardFirst.untimed = p.untimed.discardFirst := by
  unfold discardFirst
  cases hbuffer : p.buffer <;> simp [untimed, hbuffer, recordDiscard, BzmParserEvent.untimed]

theorem untimed_expectedFrameLength (p : BzmFrameParser) :
    p.untimed.expectedFrameLength = (p.expectedFrameLength.1, p.expectedFrameLength.2.untimed) := by
  unfold expectedFrameLength
  rw [untimed_buffer]
  split
  · split
    · rfl
    · split
      · rfl
      · simp only
        split
        · rfl
        · next index _ =>
          by_cases hnone : p.expectedRegisterLength index = 0
          · rw [if_pos hnone, if_pos (show p.untimed.expectedRegisterLength index = 0 from hnone)]
            rfl
          · rw [if_neg hnone, if_neg (show ¬ p.untimed.expectedRegisterLength index = 0 from hnone)]
            rfl
      · rfl
      · rfl
      · rfl
  · rfl

theorem untimed_emitFrame (p : BzmFrameParser) (type : BzmFrameType) (frameLength : Nat)
    (timestampUs : U64) :
    (p.emitFrame type frameLength timestampUs).untimed =
      p.untimed.emitFrame type frameLength 0 := by
  unfold emitFrame
  simp only [untimed]
  split
  · split <;> rfl
  · rfl

theorem untimed_parseStep (p : BzmFrameParser) (timestampUs : U64) :
    (p.parseStep timestampUs).map untimed = p.untimed.parseStep 0 := by
  unfold parseStep
  rw [untimed_expectedFrameLength]
  by_cases hshort : p.buffer.length < BZM_TDM_HEADER_SIZE
  · simp [hshort, untimed]
  · rw [if_neg hshort, if_neg (show ¬ p.untimed.buffer.length < BZM_TDM_HEADER_SIZE from hshort)]
    rcases p.expectedFrameLength with ⟨_ | ⟨type, frameLength⟩, q⟩
    · simp [untimed_discardFirst]
    · simp only
      by_cases hshort : q.buffer.length < frameLength
      · simp [hshort, untimed]
      · rw [if_neg hshort, if_neg (show ¬ q.untimed.buffer.length < frameLength from hshort)]
        simp [untimed_emitFrame]

theorem untimed_parseBuffer (p : BzmFrameParser) (timestampUs : U64) :
    (p.parseBuffer timestampUs).untimed = p.untimed.parseBuffer 0 := by
  induction p using parseBuffer.induct timestampUs with
  | case1 p hexit =>
    have hexit' : p.untimed.parseStep 0 = none := by
      rw [← untimed_parseStep p timestampUs, hexit]
      rfl
    rw [parseBuffer_of_exit hexit, parseBuffer_of_exit hexit']
  | case2 p q hstep ih =>
    have hstep' : p.untimed.parseStep 0 = some q.untimed := by
      rw [← untimed_parseStep p timestampUs, hstep]
      rfl
    rw [parseBuffer_of_step hstep, parseBuffer_of_step hstep']
    exact ih

theorem untimed_feedByte (p : BzmFrameParser) (timestampUs : U64) (byte : U8) :
    (p.feedByte timestampUs byte).untimed = p.untimed.feedByte 0 byte := by
  unfold feedByte
  simp only
  rw [untimed_parseBuffer]
  by_cases hfull : p.buffer.length = BZM_TDM_MAX_FRAME_SIZE
  · rw [if_pos hfull, if_pos (show p.untimed.buffer.length = BZM_TDM_MAX_FRAME_SIZE from hfull),
      ← untimed_discardFirst]
    rfl
  · rw [if_neg hfull, if_neg (show p.untimed.buffer.length ≠ BZM_TDM_MAX_FRAME_SIZE from hfull)]
    rfl

theorem untimed_expectRegister (p : BzmFrameParser) (asicId : U8) (payloadLength : Nat) :
    (p.expectRegister asicId payloadLength).2.untimed =
      (p.untimed.expectRegister asicId payloadLength).2 := by
  unfold expectRegister
  split
  · rfl
  next index _ =>
  by_cases hguard : payloadLength = 0 ∨ BZM_TDM_MAX_REGISTER_PAYLOAD_SIZE < payloadLength ∨
      p.expectedRegisterLength index ≠ 0
  · have hguard' : payloadLength = 0 ∨ BZM_TDM_MAX_REGISTER_PAYLOAD_SIZE < payloadLength ∨
        p.untimed.expectedRegisterLength index ≠ 0 := hguard
    rw [if_pos hguard, if_pos hguard']
  · have hguard' : ¬ (payloadLength = 0 ∨ BZM_TDM_MAX_REGISTER_PAYLOAD_SIZE < payloadLength ∨
        p.untimed.expectedRegisterLength index ≠ 0) := hguard
    rw [if_neg hguard, if_neg hguard']
    rfl

theorem untimed_cancelRegister (p : BzmFrameParser) (asicId : U8) :
    (p.cancelRegister asicId).2.untimed = (p.untimed.cancelRegister asicId).2 := by
  unfold cancelRegister
  split
  · rfl
  next index _ =>
  by_cases hnone : p.expectedRegisterLength index = 0
  · rw [if_pos hnone, if_pos (show p.untimed.expectedRegisterLength index = 0 from hnone)]
  · rw [if_neg hnone, if_neg (show ¬ p.untimed.expectedRegisterLength index = 0 from hnone)]
    rfl

theorem untimed_step (p : BzmFrameParser) (op : BzmParserOp) :
    (p.step op).untimed = run step p.untimed op.bytewise := by
  cases op with
  | feed data timestampUs =>
    simp only [step, BzmParserOp.bytewise]
    induction data generalizing p with
    | nil => rfl
    | cons byte data ih =>
      rw [List.map_cons, run_cons]
      exact (ih (p.feedByte timestampUs byte)).trans
        (congrArg (fun q => run step q _) (untimed_feedByte p timestampUs byte))
  | expectRegister asicId payloadLength => exact untimed_expectRegister p asicId payloadLength
  | cancelRegister asicId => exact untimed_cancelRegister p asicId

/-- Up to times of arrival, a run is the run of its single bytes. -/
theorem untimed_run (ops : List BzmParserOp) (p : BzmFrameParser) :
    (run step p ops).untimed = run step p.untimed (ops.flatMap BzmParserOp.bytewise) := by
  induction ops generalizing p with
  | nil => rfl
  | cons op ops ih => rw [run_cons, ih, untimed_step, List.flatMap_cons, run_append]

/-- **Frame parser soundness.**  After any operations: the input is what the
frames and the discarded bytes used up, in order, followed by the buffer; every
frame was admitted, and the parser expects what is outstanding; the byte counts
add up, with `discarded_bytes` counting modulo `2 ^ 32`; no further feed fills
the buffer; and operations that feed the same bytes between the same
expectations and cancellations leave the same parser up to times of arrival. -/
theorem frames_sound_and_bytes_conserved (ops : List BzmParserOp) :
    consumed (run step init ops).trace ++ (run step init ops).buffer =
      ops.flatMap BzmParserOp.input ∧
    FramesAdmitted (run step init ops).trace ∧
    (∀ asicId index, bzmTopologyAsicIndex asicId = some index →
      outstanding asicId (run step init ops).trace =
        if (run step init ops).expectedRegisterLength index = 0 then none
        else some ((run step init ops).expectedRegisterLength index).toNat) ∧
    (ops.flatMap BzmParserOp.input).length = emittedBytes (run step init ops).trace +
      discards (run step init ops).trace + (run step init ops).buffer.length ∧
    (run step init ops).discardedBytes.toNat = discards (run step init ops).trace % 2 ^ 32 ∧
    (∀ data timestampUs, ((run step init ops).feed data timestampUs).buffer.length ≤ 33) ∧
    ∀ ops' : List BzmParserOp,
      ops'.flatMap BzmParserOp.bytewise = ops.flatMap BzmParserOp.bytewise →
      (run step init ops').untimed = (run step init ops).untimed := by
  obtain ⟨htracked, hflow, hbuffer⟩ := run_tracked ops init_tracked (by decide)
  have hinput : consumed (run step init ops).trace ++ (run step init ops).buffer =
      ops.flatMap BzmParserOp.input := hflow
  refine ⟨hinput, htracked.admitted, htracked.expected, ?_, ?_, ?_, ?_⟩
  · rw [← hinput, List.length_append, length_consumed]
  · rw [htracked.discarded, BitVec.toNat_ofNat]
  · intro data timestampUs
    have h := (feed_tracked htracked hbuffer data timestampUs).2.2
    simp only [BZM_TDM_MAX_FRAME_SIZE, BZM_TDM_HEADER_SIZE,
      BZM_TDM_MAX_REGISTER_PAYLOAD_SIZE] at h
    omega
  · intro ops' hsame
    rw [untimed_run, untimed_run, hsame]

/-! ## The discard counter wraps -/

theorem parseBuffer_of_short (h : p.buffer.length < BZM_TDM_HEADER_SIZE) (timestampUs : U64) :
    p.parseBuffer timestampUs = p :=
  parseBuffer_of_exit (if_pos h)

/-- A zero byte behind a zero byte costs the older one. -/
theorem feedByte_zero (hbuffer : p.buffer = [0]) :
    (p.feedByte 0 0).buffer = [0] ∧ (p.feedByte 0 0).trace = .discarded 0 :: p.trace := by
  have hstep : ({ p with buffer := [0, 0] } : BzmFrameParser).parseStep 0 =
      some ({ p with buffer := [0, 0] } : BzmFrameParser).discardFirst := by
    have hinvalid : validWireAsicId 0#8 = false := by decide
    simp [parseStep, expectedFrameLength, hinvalid, BZM_TDM_HEADER_SIZE]
  have hroom : p.buffer.length ≠ BZM_TDM_MAX_FRAME_SIZE := by rw [hbuffer]; decide
  have hpush : p.feedByte 0 0 = ({ p with buffer := [0, 0] } : BzmFrameParser).parseBuffer 0 := by
    simp only [feedByte]
    rw [if_neg hroom, hbuffer]
    rfl
  rw [hpush, parseBuffer_of_step hstep, parseBuffer_of_short (by simp [BZM_TDM_HEADER_SIZE])]
  exact ⟨rfl, rfl⟩

/-- The operations that feed `n` zero bytes, one in each call. -/
def zeroFeeds (n : Nat) : List BzmParserOp := List.replicate n (.feed [0] 0)

/-- Garbage is discarded byte by byte; the last byte stays buffered. -/
theorem run_zeroFeeds (n : Nat) (hbuffer : p.buffer = [0]) :
    (run step p (zeroFeeds n)).buffer = [0] ∧
      (run step p (zeroFeeds n)).trace = List.replicate n (.discarded 0) ++ p.trace := by
  induction n generalizing p with
  | zero => exact ⟨hbuffer, rfl⟩
  | succ n ih =>
    obtain ⟨hbuffer', htrace⟩ := feedByte_zero hbuffer
    obtain ⟨h1, h2⟩ := ih hbuffer'
    refine ⟨h1, h2.trans ?_⟩
    rw [htrace, List.replicate_succ', List.append_assoc]
    rfl

theorem emittedBytes_replicate_discarded (n : Nat) (byte : U8) :
    emittedBytes (List.replicate n (.discarded byte)) = 0 := by
  induction n with
  | zero => rfl
  | succ n ih => exact ih

theorem discards_replicate_discarded (n : Nat) (byte : U8) :
    discards (List.replicate n (.discarded byte)) = n := by
  induction n with
  | zero => rfl
  | succ n ih => rw [List.replicate_succ, discards, ih]

/-- After `n + 1` zero bytes: no frame, `n` discarded bytes and one buffered. -/
theorem init_run_zeroFeeds (n : Nat) :
    emittedBytes (run step init (zeroFeeds (n + 1))).trace = 0 ∧
      (run step init (zeroFeeds (n + 1))).discardedBytes = BitVec.ofNat 32 n ∧
      (run step init (zeroFeeds (n + 1))).buffer = [0] := by
  have hfirst : init.feedByte 0 0 = { init with buffer := [0] } :=
    parseBuffer_of_short (by decide) 0
  have htracked := (run_tracked (zeroFeeds (n + 1)) init_tracked (by decide)).1
  have hrun : run step init (zeroFeeds (n + 1)) =
      run step ({ init with buffer := [0] } : BzmFrameParser) (zeroFeeds n) :=
    congrArg (fun q => run step q (zeroFeeds n)) hfirst
  obtain ⟨hbuffer, htrace⟩ := run_zeroFeeds n (p := { init with buffer := [0] }) rfl
  rw [← hrun] at hbuffer htrace
  have htrace' : (run step init (zeroFeeds (n + 1))).trace =
      List.replicate n (.discarded 0) := htrace.trans (List.append_nil _)
  refine ⟨?_, ?_, hbuffer⟩
  · rw [htrace', emittedBytes_replicate_discarded]
  · rw [htracked.discarded, htrace', discards_replicate_discarded]

/-- `2 ^ 32 + 1` zero bytes, fed one by one, leave `discarded_bytes` at zero. -/
theorem discarded_bytes_wrap :
    ((zeroFeeds (2 ^ 32 + 1)).flatMap BzmParserOp.input).length ≠
      emittedBytes (run step init (zeroFeeds (2 ^ 32 + 1))).trace +
        (run step init (zeroFeeds (2 ^ 32 + 1))).discardedBytes.toNat +
        (run step init (zeroFeeds (2 ^ 32 + 1))).buffer.length := by
  obtain ⟨hemitted, hdiscarded, hbuffer⟩ := init_run_zeroFeeds (2 ^ 32)
  rw [hemitted, hdiscarded, hbuffer, List.length_flatMap, zeroFeeds, List.map_replicate,
    List.sum_replicate_nat, BitVec.toNat_ofNat]
  decide

end BzmFrameParser

end EspMiner
