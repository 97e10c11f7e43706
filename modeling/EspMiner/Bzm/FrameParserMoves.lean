import EspMiner.Bzm.FrameParserStreams

/-!
# What the parser does with one byte

Whatever the bytes, a feed is made of three moves: a byte is buffered, the first
byte of a refused header is dropped, a complete frame is emitted.  What the moves
keep, a feed keeps.
-/

namespace EspMiner

namespace BzmFrameParser

variable {p q : BzmFrameParser}

/-! ### The moves -/

/-- The first byte of a header that cannot start a frame is dropped. -/
structure Discards (p q : BzmFrameParser) : Prop where
  refused : p.expectedFrameLength.1 = none
  buffer : q.buffer = p.buffer.tail
  expected : q.expectedRegisterLength = p.expectedRegisterLength
  trace : ∃ byte, q.trace = .discarded byte :: p.trace

/-- A complete frame is emitted; a register reply uses its expectation up. -/
structure Emits (p : BzmFrameParser) (frame : BzmFrame) (q : BzmFrameParser) : Prop where
  announced : p.expectedFrameLength = (some (frame.type, frame.wire.length), p)
  buffer : p.buffer = frame.wire ++ q.buffer
  kept : frame.type ≠ .register → q.expectedRegisterLength = p.expectedRegisterLength
  answered : frame.type = .register → ∃ index, bzmTopologyAsicIndex frame.asicId = some index ∧
    p.expectedRegisterLength index ≠ 0 ∧
    frame.payload.length = (p.expectedRegisterLength index).toNat ∧
    q.expectedRegisterLength = Function.update p.expectedRegisterLength index 0
  trace : q.trace = .frame frame :: p.trace

/-- Nothing is left to do: not even a header is buffered, or not all of the frame
that it announces. -/
def Settled (p : BzmFrameParser) : Prop :=
  p.buffer.length < BZM_TDM_HEADER_SIZE ∨
    ∃ type frameLength, p.expectedFrameLength = (some (type, frameLength), p) ∧
      p.buffer.length < frameLength

theorem settled_of_parseStep_eq_none {timestampUs : U64} (h : p.parseStep timestampUs = none) :
    p.Settled := by
  unfold parseStep at h
  split at h
  · next hshort => exact .inl hshort
  split at h
  · cases h
  · next type frameLength p' heq =>
    obtain ⟨rfl, -⟩ := expectedFrameLength_eq_some heq
    split at h
    · next hshort => exact .inr ⟨type, frameLength, heq, hshort⟩
    · cases h

theorem discardFirst_discards {p' : BzmFrameParser}
    (hheader : BZM_TDM_HEADER_SIZE ≤ p.buffer.length) (heq : p.expectedFrameLength = (none, p')) :
    Discards p p'.discardFirst := by
  rw [expectedFrameLength_eq_none heq]
  unfold discardFirst
  cases hbuffer : p.buffer with
  | nil => simp [hbuffer, BZM_TDM_HEADER_SIZE] at hheader
  | cons byte rest =>
    exact {
      refused := by rw [heq]
      buffer := by simp only [hbuffer, List.tail_cons]
      expected := rfl
      trace := ⟨byte, rfl⟩ }

theorem emitFrame_emits {type : BzmFrameType} {frameLength : Nat}
    (heq : p.expectedFrameLength = (some (type, frameLength), p))
    (hbuffered : frameLength ≤ p.buffer.length) (timestampUs : U64) :
    Emits p (p.frameAt type frameLength timestampUs)
      (p.emitFrame type frameLength timestampUs) := by
  obtain ⟨hwire, hpayload⟩ := frameAt_wire heq hbuffered timestampUs
  have hannounced : p.expectedFrameLength =
      (some (type, (p.frameAt type frameLength timestampUs).wire.length), p) := by
    rw [hwire, List.length_take, Nat.min_eq_left hbuffered]
    exact heq
  have hbuffer : p.buffer = (p.frameAt type frameLength timestampUs).wire ++
      (p.emitFrame type frameLength timestampUs).buffer := by
    rw [hwire, emitFrame_buffer, List.take_append_drop]
  by_cases hregister : type = .register
  · subst hregister
    obtain ⟨-, asicId, typeByte, rest, hcons, -, -, index, hindex, hexpected, hlength⟩ :=
      expectedFrameLength_eq_some heq
    have hasic : bzmTopologyAsicIndex (p.buffer.headD 0) = some index := by simp [hcons, hindex]
    refine ⟨hannounced, hbuffer, fun hne => absurd rfl hne,
      fun _ => ⟨index, hasic, hexpected, ?_, ?_⟩, ?_⟩
    · rw [hpayload, hlength, Nat.add_sub_cancel_left]
    · simp only [emitFrame, if_true, hasic, setExpected]
    · simp only [emitFrame, if_true, hasic, setExpected]
      rfl
  · refine ⟨hannounced, hbuffer, fun _ => ?_, fun heq => absurd heq hregister, ?_⟩
    · simp only [emitFrame, hregister, if_false]
    · simp only [emitFrame, hregister, if_false]
      rfl

/-- An iteration of the loop is one of the two moves. -/
theorem parseStep_cases {timestampUs : U64} (h : p.parseStep timestampUs = some q) :
    Discards p q ∨ ∃ frame, Emits p frame q := by
  unfold parseStep at h
  split at h
  · cases h
  next hheader =>
  split at h
  · next p' heq =>
    cases h
    exact .inl (discardFirst_discards (Nat.not_lt.mp hheader) heq)
  · next type frameLength p' heq =>
    obtain ⟨rfl, -⟩ := expectedFrameLength_eq_some heq
    split at h
    · cases h
    · next hbuffered =>
      cases h
      exact .inr ⟨_, emitFrame_emits heq (Nat.not_lt.mp hbuffered) timestampUs⟩

/-- Where nothing is left to do, the buffer has room for a byte. -/
theorem Settled.room (h : p.Settled)
    (hle : ∀ index, (p.expectedRegisterLength index).toNat ≤ BZM_TDM_MAX_REGISTER_PAYLOAD_SIZE) :
    p.buffer.length < BZM_TDM_MAX_FRAME_SIZE := by
  rcases h with hshort | ⟨type, frameLength, heq, hshort⟩
  · exact Nat.lt_of_lt_of_le hshort (by decide)
  · exact Nat.lt_of_lt_of_le hshort (expectedFrameLength_le hle heq)

/-! ### The rule for feeds -/

@[simp] theorem framesOf_append (newer older : List BzmParserEvent) :
    framesOf (newer ++ older) = framesOf older ++ framesOf newer := by
  simp [framesOf]

/-- The three moves keep `motive`, a statement about the parser, the frames that it
has emitted and the bytes that it was fed. -/
structure FeedRule (motive : BzmFrameParser → List BzmFrame → List U8 → Prop) : Prop where
  expectedLe : ∀ {p frames bytes}, motive p frames bytes →
    ∀ index, (p.expectedRegisterLength index).toNat ≤ BZM_TDM_MAX_REGISTER_PAYLOAD_SIZE
  discard : ∀ {p q frames bytes}, motive p frames bytes → Discards p q → motive q frames bytes
  emit : ∀ {p q frame frames bytes}, motive p frames bytes → Emits p frame q →
    motive q (frames ++ [frame]) bytes
  push : ∀ {p frames bytes} (byte : U8), motive p frames bytes →
    motive { p with buffer := p.buffer ++ [byte] } frames (bytes ++ [byte])

variable {motive : BzmFrameParser → List BzmFrame → List U8 → Prop} {frames : List BzmFrame}
  {bytes : List U8}

theorem FeedRule.parseBuffer (hrule : FeedRule motive) (timestampUs : U64)
    (h : motive p frames bytes) :
    ∃ events, (p.parseBuffer timestampUs).trace = events ++ p.trace ∧
      motive (p.parseBuffer timestampUs) (frames ++ framesOf events) bytes ∧
      (p.parseBuffer timestampUs).Settled := by
  induction p using parseBuffer.induct timestampUs generalizing frames with
  | case1 p hexit =>
    rw [parseBuffer_of_exit hexit]
    refine ⟨[], rfl, ?_, settled_of_parseStep_eq_none hexit⟩
    simpa [framesOf] using h
  | case2 p q hstep ih =>
    rw [parseBuffer_of_step hstep]
    rcases parseStep_cases hstep with hdiscards | ⟨frame, hemits⟩
    · obtain ⟨events, htrace, hmotive, hsettled⟩ := ih (hrule.discard h hdiscards)
      obtain ⟨byte, hbyte⟩ := hdiscards.trace
      refine ⟨events ++ [.discarded byte], by simp [htrace, hbyte], ?_, hsettled⟩
      simpa [framesOf] using hmotive
    · obtain ⟨events, htrace, hmotive, hsettled⟩ := ih (hrule.emit h hemits)
      refine ⟨events ++ [.frame frame], by simp [htrace, hemits.trace], ?_, hsettled⟩
      simpa [framesOf] using hmotive

/-- **A feed keeps what the moves keep.** -/
theorem FeedRule.feed (hrule : FeedRule motive) (h : motive p frames bytes)
    (hroom : p.buffer.length < BZM_TDM_MAX_FRAME_SIZE) (data : List U8) (timestampUs : U64) :
    ∃ events, (p.feed data timestampUs).trace = events ++ p.trace ∧
      motive (p.feed data timestampUs) (frames ++ framesOf events) (bytes ++ data) ∧
      (p.feed data timestampUs).buffer.length < BZM_TDM_MAX_FRAME_SIZE ∧
      (data ≠ [] → (p.feed data timestampUs).Settled) := by
  induction data generalizing p frames bytes with
  | nil => exact ⟨[], rfl, by simpa [framesOf, BzmFrameParser.feed] using h, hroom, absurd rfl⟩
  | cons byte data ih =>
    -- the buffer is never full, so the byte is buffered and the loop runs
    have hbyte : p.feedByte timestampUs byte =
        ({ p with buffer := p.buffer ++ [byte] }).parseBuffer timestampUs := by
      rw [feedByte, if_neg (Nat.ne_of_lt hroom)]
    obtain ⟨events, htrace, hmotive, hsettled⟩ :=
      hrule.parseBuffer timestampUs (hrule.push byte h)
    rw [← hbyte] at htrace hmotive hsettled
    have hroom' := hsettled.room (hrule.expectedLe hmotive)
    obtain ⟨later, htrace', hmotive', hroom'', hsettled'⟩ := ih hmotive hroom'
    refine ⟨later ++ events, ?_, ?_, hroom'', fun _ => ?_⟩
    · rw [BzmFrameParser.feed, List.foldl_cons, List.append_assoc, ← htrace]
      exact htrace'
    · simpa [BzmFrameParser.feed] using hmotive'
    · cases data with
      | nil => exact hsettled
      | cons next data => exact hsettled' (by simp)

end BzmFrameParser

end EspMiner
