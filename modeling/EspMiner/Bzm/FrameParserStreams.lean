import EspMiner.Bzm.FrameParserSoundness

/-!
# Well-formed streams

A stream of frames whose register replies are all announced in time is decoded frame by frame,
with nothing discarded, however it is cut into calls.  At every byte the parser holds the started
part of the frame that the sender is in (`Inside`): a byte either makes that part longer or
completes the frame, and the announced lengths settle where a register reply ends.
-/

namespace EspMiner

open Library

/-- A frame as an ASIC sends it. -/
structure BzmFrame.Sendable (frame : BzmFrame) : Prop where
  addressed : validWireAsicId frame.asicId = true
  sized : match frame.type with
    | .result => frame.payload.length = BZM_RESULT_FRAME_SIZE
    | .register => (bzmTopologyAsicIndex frame.asicId).isSome = true ∧ frame.payload ≠ [] ∧
        frame.payload.length ≤ BZM_TDM_MAX_REGISTER_PAYLOAD_SIZE
    | .telemetry => frame.payload.length = BZM_TDM_TELEMETRY_PAYLOAD_SIZE
    | .noop => frame.payload.length = BZM_TDM_NOOP_PAYLOAD_SIZE

/-- The frame without the time at which it was read. -/
def BzmFrame.untimed (frame : BzmFrame) : BzmFrame := { frame with timestampUs := 0 }

/-- The payload lengths of the register replies from one ASIC. -/
def registerLengths (asicId : U8) (frames : List BzmFrame) : List Nat :=
  frames.filterMap fun frame =>
    if frame.type = .register ∧ frame.asicId = asicId then some frame.payload.length else none

/-- The payload lengths that were announced for one ASIC. -/
def announcedLengths (asicId : U8) (ops : List BzmParserOp) : List Nat :=
  ops.filterMap fun
    | .expectRegister id length => if id = asicId then some length else none
    | _ => none

/-- The bytes of the frames, one after the other. -/
def wireBytes (frames : List BzmFrame) : List U8 := frames.flatMap BzmFrame.wire

/-- The bytes that the operations feed. -/
def fedBytes (ops : List BzmParserOp) : List U8 := ops.flatMap BzmParserOp.input

/-- An operation that a sender's stream is made of. -/
def BzmParserOp.OfStream : BzmParserOp → Prop
  | .feed _ _ => True
  | .expectRegister asicId length => (bzmTopologyAsicIndex asicId).isSome = true ∧
      0 < length ∧ length ≤ BZM_TDM_MAX_REGISTER_PAYLOAD_SIZE
  | .cancelRegister _ => False

/-- The operations feed the bytes of the frames, in any pieces, and announce each
register reply with its length: before its first byte is fed, and not before the
previous reply from the same ASIC is complete. -/
structure StreamsFrames (ops : List BzmParserOp) (frames : List BzmFrame) : Prop where
  sendable : ∀ frame ∈ frames, frame.Sendable
  kinds : ∀ op ∈ ops, op.OfStream
  bytes : fedBytes ops = wireBytes frames
  announced : ∀ before after done frame rest, ops = before ++ after →
    frames = done ++ frame :: rest → (wireBytes done).length < (fedBytes before).length →
    registerLengths frame.asicId (done ++ [frame]) <+: announcedLengths frame.asicId before
  outstanding : ∀ before after done rest, ops = before ++ after → frames = done ++ rest →
    (∀ frame more, rest = frame :: more →
      (fedBytes before).length < (wireBytes (done ++ [frame])).length) →
    ∀ asicId, (announcedLengths asicId before).length ≤ (registerLengths asicId done).length + 1

namespace BzmFrameParser

/-- The frames that were emitted, in their order. -/
def framesOf (trace : List BzmParserEvent) : List BzmFrame :=
  trace.reverse.filterMap fun
    | .frame frame => some frame
    | _ => none

/-- The parser in a stream: `done` is emitted, and of the frames to come the bytes of
`sent` are buffered. -/
structure Inside (announced : U8 → List Nat) (done : List BzmFrame) (sent : List U8)
    (p : BzmFrameParser) : Prop where
  emitted : (framesOf p.trace).map BzmFrame.untimed = done.map BzmFrame.untimed
  clean : discards p.trace = 0
  counted : p.discardedBytes = 0
  prior : ∀ asicId, registerLengths asicId done <+: announced asicId
  buffer : p.buffer = sent
  expected : ∀ asicId index, bzmTopologyAsicIndex asicId = some index →
    p.expectedRegisterLength index =
      BitVec.ofNat 8 ((announced asicId)[(registerLengths asicId done).length]?.getD 0)

@[simp] theorem framesOf_cons_frame (frame : BzmFrame) (trace : List BzmParserEvent) :
    framesOf (.frame frame :: trace) = framesOf trace ++ [frame] := by
  simp [framesOf]

@[simp] theorem framesOf_cons_expected (asicId : U8) (length : Nat)
    (trace : List BzmParserEvent) :
    framesOf (.expected asicId length :: trace) = framesOf trace := by
  simp [framesOf]

@[simp] theorem registerLengths_append (asicId : U8) (frames more : List BzmFrame) :
    registerLengths asicId (frames ++ more) =
      registerLengths asicId frames ++ registerLengths asicId more :=
  List.filterMap_append

@[simp] theorem wireBytes_append (frames more : List BzmFrame) :
    wireBytes (frames ++ more) = wireBytes frames ++ wireBytes more := List.flatMap_append

@[simp] theorem wireBytes_singleton (frame : BzmFrame) : wireBytes [frame] = frame.wire := by
  simp [wireBytes]

variable {announced : U8 → List Nat} {done : List BzmFrame} {sent : List U8}
  {p : BzmFrameParser} {frame : BzmFrame}

theorem init_inside : Inside (fun _ => []) [] [] init :=
  ⟨rfl, rfl, rfl, fun _ => List.nil_prefix, rfl, fun _ _ _ => rfl⟩

/-- An announcement is taken while none is outstanding. -/
theorem Inside.expectRegister (h : Inside announced done sent p) {asicId : U8} {length : Nat}
    (haddressed : (bzmTopologyAsicIndex asicId).isSome = true) (hpos : 0 < length)
    (hle : length ≤ BZM_TDM_MAX_REGISTER_PAYLOAD_SIZE)
    (hnone : (announced asicId).length = (registerLengths asicId done).length) :
    Inside (Function.update announced asicId (announced asicId ++ [length])) done sent
      (p.expectRegister asicId length).2 := by
  obtain ⟨index, hindex⟩ := Option.isSome_iff_exists.mp haddressed
  have hfree : p.expectedRegisterLength index = 0 := by
    rw [h.expected asicId index hindex, ← hnone, List.getElem?_eq_none le_rfl]
    rfl
  have haccepts : ¬ (length = 0 ∨ BZM_TDM_MAX_REGISTER_PAYLOAD_SIZE < length ∨
      p.expectedRegisterLength index ≠ 0) := by
    rintro (hzero | hlong | hbusy)
    · exact absurd hzero (Nat.pos_iff_ne_zero.mp hpos)
    · exact absurd hlong (Nat.not_lt.mpr hle)
    · exact hbusy hfree
  unfold BzmFrameParser.expectRegister
  rw [hindex]
  dsimp only
  rw [if_neg haccepts]
  refine ⟨?_, h.clean, h.counted, fun id => ?_, h.buffer, fun id other hother => ?_⟩
  · rw [framesOf_cons_expected]
    exact h.emitted
  · by_cases hid : id = asicId
    · subst hid
      rw [Function.update_self]
      exact (h.prior id).trans (List.prefix_append _ _)
    · rw [Function.update_of_ne hid]
      exact h.prior id
  · by_cases hid : id = asicId
    · subst hid
      obtain rfl : other = index := Option.some.inj (hother.symm.trans hindex)
      rw [Function.update_self, ← hnone, List.getElem?_concat_length]
      exact Function.update_self ..
    · have hne : other ≠ index := fun hsame =>
        hid (bzmTopologyAsicIndex_inj hother (hsame ▸ hindex))
      rw [Function.update_of_ne hid]
      refine (Function.update_of_ne hne _ _).trans ?_
      exact h.expected id other hother

theorem ofByte_toByte (type : BzmFrameType) : BzmFrameType.ofByte type.toByte = some type := by
  cases type <;> rfl

theorem length_wire (frame : BzmFrame) :
    frame.wire.length = BZM_TDM_HEADER_SIZE + frame.payload.length := by
  rw [BzmFrame.wire, BZM_TDM_HEADER_SIZE, List.length_cons, List.length_cons]
  omega

theorem length_payload_le (hframe : frame.Sendable) :
    frame.payload.length ≤ BZM_TDM_MAX_REGISTER_PAYLOAD_SIZE := by
  have hsized := hframe.sized
  cases htype : frame.type with
  | register =>
    rw [htype] at hsized
    exact hsized.2.2
  | result =>
    rw [htype] at hsized
    rw [hsized]
    decide
  | telemetry =>
    rw [htype] at hsized
    rw [hsized]
    decide
  | noop =>
    rw [htype] at hsized
    rw [hsized]
    decide

/-- The header of a frame tells its length, for a register reply from the announcement. -/
theorem expectedFrameLength_of_frame (hframe : frame.Sendable) {rest : List U8}
    (hbuffer : p.buffer = frame.asicId :: frame.type.toByte :: rest)
    (hexpected : frame.type = .register → ∀ index, bzmTopologyAsicIndex frame.asicId = some index →
      p.expectedRegisterLength index = BitVec.ofNat 8 frame.payload.length) :
    p.expectedFrameLength = (some (frame.type, frame.wire.length), p) := by
  have hsized := hframe.sized
  have haddressed : ¬ validWireAsicId frame.asicId = false := by rw [hframe.addressed]; decide
  rw [length_wire]
  unfold expectedFrameLength
  rw [hbuffer]
  dsimp only
  rw [if_neg haddressed, ofByte_toByte]
  cases htype : frame.type with
  | register =>
    rw [htype] at hsized
    obtain ⟨hindexed, hne, hle⟩ := hsized
    obtain ⟨index, hindex⟩ := Option.isSome_iff_exists.mp hindexed
    have hlength := hexpected htype index hindex
    have hpos := List.length_pos_iff.mpr hne
    have hnat : (BitVec.ofNat 8 frame.payload.length).toNat = frame.payload.length := by
      rw [BitVec.toNat_ofNat]
      refine Nat.mod_eq_of_lt ?_
      rw [BZM_TDM_MAX_REGISTER_PAYLOAD_SIZE] at hle
      omega
    have hbusy : p.expectedRegisterLength index ≠ 0 := by
      rw [hlength]
      intro hzero
      rw [hzero] at hnat
      simp at hnat
      omega
    dsimp only
    rw [hindex]
    dsimp only
    rw [if_neg hbusy, hlength, hnat]
  | result =>
    rw [htype] at hsized
    rw [hsized]
  | telemetry =>
    rw [htype] at hsized
    rw [hsized]
  | noop =>
    rw [htype] at hsized
    rw [hsized]

/-- The part of a frame that is being sent never fills the buffer. -/
theorem feedByte_of_room (hframe : frame.Sendable) {byte : U8} {more : List U8}
    (hwire : frame.wire = p.buffer ++ byte :: more) (timestampUs : U64) :
    p.feedByte timestampUs byte =
      { p with buffer := p.buffer ++ [byte] }.parseBuffer timestampUs := by
  have hlength := congrArg List.length hwire
  have hle := length_payload_le hframe
  rw [length_wire, List.length_append, List.length_cons] at hlength
  have hroom : p.buffer.length ≠ BZM_TDM_MAX_FRAME_SIZE := by
    rw [BZM_TDM_MAX_FRAME_SIZE]
    omega
  unfold feedByte
  dsimp only
  rw [if_neg hroom]

/-- The announcement that a register reply was sent for. -/
theorem Inside.expected_of_announced (h : Inside announced done sent p)
    (hannounced : registerLengths frame.asicId (done ++ [frame]) <+: announced frame.asicId)
    (htype : frame.type = .register) {index : Nat}
    (hindex : bzmTopologyAsicIndex frame.asicId = some index) :
    p.expectedRegisterLength index = BitVec.ofNat 8 frame.payload.length := by
  obtain ⟨more, hmore⟩ := hannounced
  have hlast : registerLengths frame.asicId [frame] = [frame.payload.length] := by
    simp [registerLengths, htype]
  rw [h.expected frame.asicId index hindex, ← hmore, registerLengths_append, hlast,
    List.append_assoc, List.getElem?_append_right le_rfl, Nat.sub_self]
  rfl

/-- A byte before the last of a frame. -/
theorem Inside.feedByte_more (h : Inside announced done sent p) (hframe : frame.Sendable)
    {byte next : U8} {more : List U8} (hwire : frame.wire = sent ++ byte :: next :: more)
    (hannounced : frame.type = .register →
      registerLengths frame.asicId (done ++ [frame]) <+: announced frame.asicId)
    (timestampUs : U64) :
    Inside announced done (sent ++ [byte]) (p.feedByte timestampUs byte) := by
  have hlength := congrArg List.length hwire
  rw [List.length_append, List.length_cons, List.length_cons] at hlength
  have hinside : Inside announced done (sent ++ [byte])
      { p with buffer := p.buffer ++ [byte] } :=
    ⟨h.emitted, h.clean, h.counted, h.prior, by rw [h.buffer], h.expected⟩
  rw [feedByte_of_room hframe (by rw [h.buffer]; exact hwire)]
  -- the loop waits for the rest of the frame
  suffices hexit : { p with buffer := p.buffer ++ [byte] }.parseStep timestampUs = none by
    rw [parseBuffer_of_exit hexit]
    exact hinside
  unfold parseStep
  split
  · rfl
  · next hheader =>
    dsimp only at hheader ⊢
    obtain ⟨rest, hbuffer⟩ : ∃ rest,
        p.buffer ++ [byte] = frame.asicId :: frame.type.toByte :: rest := by
      rw [h.buffer] at hheader ⊢
      cases sent with
      | nil => simp [BZM_TDM_HEADER_SIZE] at hheader
      | cons first sent =>
        rw [BzmFrame.wire] at hwire
        cases sent with
        | nil =>
          simp only [List.cons_append, List.nil_append, List.cons.injEq] at hwire
          obtain ⟨rfl, rfl, -⟩ := hwire
          exact ⟨[], rfl⟩
        | cons second sent =>
          simp only [List.cons_append, List.cons.injEq] at hwire
          obtain ⟨rfl, rfl, -⟩ := hwire
          exact ⟨sent ++ [byte], rfl⟩
    have hheaderLength :=
      expectedFrameLength_of_frame (p := { p with buffer := p.buffer ++ [byte] })
      hframe hbuffer fun htype index hindex =>
        h.expected_of_announced (hannounced htype) htype hindex
    rw [hheaderLength]
    dsimp only
    rw [if_pos]
    rw [List.length_append, h.buffer, List.length_singleton]
    omega

@[simp] theorem discards_cons_frame (frame : BzmFrame) (trace : List BzmParserEvent) :
    discards (.frame frame :: trace) = discards trace := rfl

theorem registerLengths_append_of_ne {asicId : U8}
    (hother : ¬ (frame.type = .register ∧ frame.asicId = asicId)) :
    registerLengths asicId (done ++ [frame]) = registerLengths asicId done := by
  simp [registerLengths, hother]

/-- What emitting the frame at the start of the buffer leaves. -/
theorem Inside.emit (h : Inside announced done sent p) (hframe : frame.Sendable)
    (hbuffer : p.buffer = frame.wire)
    (hannounced : frame.type = .register →
      registerLengths frame.asicId (done ++ [frame]) <+: announced frame.asicId)
    (houtstanding : (announced frame.asicId).length ≤
      (registerLengths frame.asicId done).length + 1) (timestampUs : U64) :
    Inside announced (done ++ [frame]) []
      (p.emitFrame frame.type frame.wire.length timestampUs) := by
  have hread : p.buffer.headD 0 = frame.asicId := by rw [hbuffer]; rfl
  have hpayload : (p.buffer.take frame.wire.length).drop BZM_TDM_HEADER_SIZE = frame.payload := by
    rw [hbuffer, List.take_length]
    rfl
  have hrest : p.buffer.drop frame.wire.length = [] := by rw [hbuffer, List.drop_length]
  have hemitted : (framesOf p.trace ++ [{ frame with timestampUs := timestampUs }]).map
      BzmFrame.untimed = (done ++ [frame]).map BzmFrame.untimed := by
    rw [List.map_append, List.map_append, h.emitted]
    rfl
  have hprior (id : U8) : registerLengths id (done ++ [frame]) <+: announced id := by
    by_cases hself : frame.type = .register ∧ frame.asicId = id
    · obtain ⟨hregister, rfl⟩ := hself
      exact hannounced hregister
    · rw [registerLengths_append_of_ne hself]
      exact h.prior id
  unfold emitFrame
  dsimp only
  rw [hread, hpayload, hrest]
  by_cases hregister : frame.type = .register
  · have hsized := hframe.sized
    rw [hregister] at hsized
    obtain ⟨index, hindex⟩ := Option.isSome_iff_exists.mp hsized.1
    rw [if_pos hregister, hindex]
    refine ⟨?_, h.clean, h.counted, hprior, rfl, fun id other hother => ?_⟩
    · rw [framesOf_cons_frame]
      exact hemitted
    · by_cases hid : id = frame.asicId
      · -- the announcement is used up
        subst hid
        obtain rfl : other = index := Option.some.inj (hother.symm.trans hindex)
        have hlast : registerLengths frame.asicId [frame] = [frame.payload.length] := by
          simp [registerLengths, hregister]
        rw [registerLengths_append, hlast, List.length_append, List.length_singleton,
          List.getElem?_eq_none houtstanding]
        exact Function.update_self ..
      · have hne : other ≠ index := fun hsame =>
          hid (bzmTopologyAsicIndex_inj hother (hsame ▸ hindex))
        rw [registerLengths_append_of_ne fun hsame => hid hsame.2.symm]
        refine (Function.update_of_ne hne _ _).trans ?_
        exact h.expected id other hother
  · rw [if_neg hregister]
    refine ⟨?_, h.clean, h.counted, hprior, rfl, fun id other hother => ?_⟩
    · rw [framesOf_cons_frame]
      exact hemitted
    · rw [registerLengths_append_of_ne fun hsame => hregister hsame.1]
      exact h.expected id other hother

/-- The last byte of a frame. -/
theorem Inside.feedByte_last (h : Inside announced done sent p) (hframe : frame.Sendable)
    {byte : U8} (hwire : frame.wire = sent ++ [byte])
    (hannounced : frame.type = .register →
      registerLengths frame.asicId (done ++ [frame]) <+: announced frame.asicId)
    (houtstanding : (announced frame.asicId).length ≤
      (registerLengths frame.asicId done).length + 1) (timestampUs : U64) :
    Inside announced (done ++ [frame]) [] (p.feedByte timestampUs byte) := by
  have hbuffer : p.buffer ++ [byte] = frame.wire := by rw [h.buffer, hwire]
  have hinside : Inside announced done (sent ++ [byte]) { p with buffer := p.buffer ++ [byte] } :=
    ⟨h.emitted, h.clean, h.counted, h.prior, by rw [h.buffer], h.expected⟩
  have hheader := expectedFrameLength_of_frame (p := { p with buffer := p.buffer ++ [byte] })
    hframe hbuffer fun htype index hindex =>
      h.expected_of_announced (hannounced htype) htype hindex
  rw [feedByte_of_room hframe (by rw [h.buffer]; exact hwire)]
  generalize { p with buffer := p.buffer ++ [byte] } = q at hinside hheader ⊢
  have hfull : q.buffer = frame.wire := hinside.buffer.trans hwire.symm
  have hstep : q.parseStep timestampUs =
      some (q.emitFrame frame.type frame.wire.length timestampUs) := by
    unfold parseStep
    rw [if_neg, hheader]
    · dsimp only
      rw [if_neg]
      rw [hfull]
      exact Nat.lt_irrefl _
    · rw [hfull, length_wire]
      omega
  have hemit := hinside.emit hframe hfull hannounced houtstanding timestampUs
  rw [parseBuffer_of_step hstep, parseBuffer_of_exit]
  · exact hemit
  · unfold parseStep
    rw [hemit.buffer]
    rfl

/-! ## Whole streams -/

/-- `sent` is a part of the first frame to come, and not all of it. -/
def Started (sent : List U8) (rest : List BzmFrame) : Prop :=
  (rest = [] ∧ sent = []) ∨
    ∃ frame more byte tail, rest = frame :: more ∧ frame.wire = sent ++ byte :: tail

theorem started_nil (rest : List BzmFrame) : Started [] rest := by
  cases rest with
  | nil => exact .inl ⟨rfl, rfl⟩
  | cons frame rest => exact .inr ⟨frame, rest, frame.asicId, _, rfl, rfl⟩

theorem discards_ne_zero_of_mem {byte : U8} {trace : List BzmParserEvent}
    (h : .discarded byte ∈ trace) : discards trace ≠ 0 := by
  induction trace with
  | nil => cases h
  | cons event trace ih =>
    cases event with
    | discarded other => exact Nat.succ_ne_zero _
    | _ => exact ih (by simpa using h)

/-- One piece of the stream. -/
theorem Inside.feed {data later : List U8} {rest : List BzmFrame}
    (h : Inside announced done sent p) (hstarted : Started sent rest)
    (hstream : sent ++ (data ++ later) = wireBytes rest)
    (hsendable : ∀ frame ∈ rest, frame.Sendable)
    (hannounced : ∀ between frame more, rest = between ++ frame :: more →
      (wireBytes between).length < (sent ++ data).length →
      registerLengths frame.asicId (done ++ between ++ [frame]) <+: announced frame.asicId)
    (houtstanding : ∀ between frame more, rest = between ++ frame :: more →
      (announced frame.asicId).length ≤
        (registerLengths frame.asicId (done ++ between)).length + 1) (timestampUs : U64) :
    ∃ between sent' rest', rest = between ++ rest' ∧ Started sent' rest' ∧
      sent ++ data = wireBytes between ++ sent' ∧
      Inside announced (done ++ between) sent' (p.feed data timestampUs) := by
  induction data generalizing done sent rest p with
  | nil =>
    refine ⟨[], sent, rest, rfl, hstarted, by simp [wireBytes], ?_⟩
    rw [List.append_nil]
    exact h
  | cons byte data ih =>
    rcases hstarted with ⟨rfl, rfl⟩ | ⟨frame, rest, first, tail, rfl, hwire⟩
    · simp [wireBytes] at hstream
    · have hhead := hannounced [] frame rest rfl (by
        rw [List.length_append, List.length_cons]
        exact Nat.lt_add_left _ (Nat.succ_pos _))
      have hfree := houtstanding [] frame rest rfl
      rw [List.append_nil] at hhead hfree
      have hwhole : sent ++ (byte :: (data ++ later)) =
          sent ++ (first :: (tail ++ wireBytes rest)) := by
        have hsplit : wireBytes (frame :: rest) = frame.wire ++ wireBytes rest :=
          List.flatMap_cons
        rw [← List.cons_append, hstream, hsplit, hwire, List.append_assoc, List.cons_append]
      obtain ⟨rfl, hrest⟩ := List.cons.inj (List.append_cancel_left hwhole)
      have hframe := hsendable frame List.mem_cons_self
      cases tail with
      | nil =>
        -- the byte completes the frame
        have hnext := h.feedByte_last hframe hwire (fun _ => hhead) hfree timestampUs
        obtain ⟨between, sent', rest', rfl, hstarted', hbytes, hinside⟩ :=
          ih hnext (started_nil rest) hrest
            (fun other hother => hsendable other (List.mem_cons_of_mem _ hother))
            (fun between other more hsplit hlength => by
              have := hannounced (frame :: between) other more (by rw [hsplit]; rfl) (by
                have hcons : wireBytes (frame :: between) = frame.wire ++ wireBytes between :=
                  List.flatMap_cons
                rw [hcons, hwire]
                simp only [List.length_append, List.length_cons, List.length_nil] at hlength ⊢
                omega)
              rwa [List.append_cons done frame between] at this)
            (fun between other more hsplit => by
              have := houtstanding (frame :: between) other more (by rw [hsplit]; rfl)
              rwa [List.append_cons done frame between] at this)
        refine ⟨frame :: between, sent', rest', rfl, hstarted', ?_, ?_⟩
        · have hcons : wireBytes (frame :: between) = frame.wire ++ wireBytes between :=
            List.flatMap_cons
          rw [List.nil_append] at hbytes
          rw [hcons, hwire, hbytes]
          simp
        · rw [List.append_cons done frame between]
          exact hinside
      | cons second tail =>
        have hnext := h.feedByte_more hframe hwire (fun _ => hhead) timestampUs
        have hwire' : frame.wire = (sent ++ [byte]) ++ second :: tail := by
          rw [hwire, List.append_assoc, List.singleton_append]
        obtain ⟨between, sent', rest', hsplit, hstarted', hbytes, hinside⟩ :=
          ih hnext (.inr ⟨frame, rest, second, tail, rfl, hwire'⟩)
            (by rw [List.append_assoc, List.singleton_append]; exact hstream) hsendable
            (fun between other more hsplit hlength => hannounced between other more hsplit (by
              rwa [List.append_assoc, List.singleton_append] at hlength)) houtstanding
        rw [List.append_assoc, List.singleton_append] at hbytes
        exact ⟨between, sent', rest', hsplit, hstarted', hbytes, hinside⟩

theorem fedBytes_append (before after : List BzmParserOp) :
    fedBytes (before ++ after) = fedBytes before ++ fedBytes after := List.flatMap_append

theorem announcedLengths_snoc_feed (before : List BzmParserOp) (data : List U8)
    (timestampUs : U64) :
    (fun asicId => announcedLengths asicId (before ++ [.feed data timestampUs])) =
      fun asicId => announcedLengths asicId before := by
  funext asicId
  simp [announcedLengths]

theorem announcedLengths_snoc_expect (before : List BzmParserOp) (asicId : U8) (length : Nat) :
    (fun id => announcedLengths id (before ++ [.expectRegister asicId length])) =
      Function.update (fun id => announcedLengths id before) asicId
        (announcedLengths asicId before ++ [length]) := by
  funext id
  by_cases hid : id = asicId
  · subst hid
    simp [announcedLengths]
  · rw [Function.update_of_ne hid]
    simp [announcedLengths, Ne.symm hid]

/-- After any part of the stream. -/
structure Streamed (frames : List BzmFrame) (before : List BzmParserOp) (p : BzmFrameParser)
    (done : List BzmFrame) (sent : List U8) (rest : List BzmFrame) : Prop where
  split : frames = done ++ rest
  started : Started sent rest
  bytes : fedBytes before = wireBytes done ++ sent
  inside : Inside (fun asicId => announcedLengths asicId before) done sent p

theorem length_fedBytes_lt {before : List BzmParserOp} {rest : List BzmFrame}
    (hbytes : fedBytes before = wireBytes done ++ sent) (hstarted : Started sent rest)
    {between more : List BzmFrame} (hrest : rest = between ++ frame :: more) :
    (fedBytes before).length < (wireBytes (done ++ between ++ [frame])).length := by
  rcases hstarted with ⟨rfl, -⟩ | ⟨head, tail, byte, later, rfl, hwire⟩
  · simp at hrest
  · have hsent : sent.length < head.wire.length := by simp [hwire]
    rw [hbytes, wireBytes_append, wireBytes_append]
    cases between with
    | nil =>
      obtain ⟨rfl, -⟩ := List.cons.inj hrest
      simpa [wireBytes] using hsent
    | cons other between =>
      obtain ⟨rfl, -⟩ := List.cons.inj hrest
      have hcons : wireBytes (head :: between) = head.wire ++ wireBytes between :=
        List.flatMap_cons
      rw [hcons]
      simp only [List.length_append]
      omega

/-- The announcement of a stream comes while none is outstanding. -/
theorem Streamed.announced_eq {ops : List BzmParserOp} {frames : List BzmFrame}
    (hs : StreamsFrames ops frames) {before after : List BzmParserOp} {asicId : U8}
    {length : Nat} (hops : ops = before ++ .expectRegister asicId length :: after)
    {rest : List BzmFrame} (h : Streamed frames before p done sent rest) :
    (announcedLengths asicId before).length = (registerLengths asicId done).length := by
  have hsnoc : announcedLengths asicId (before ++ [.expectRegister asicId length]) =
      announcedLengths asicId before ++ [length] := by simp [announcedLengths]
  have hfed : fedBytes (before ++ [.expectRegister asicId length]) = fedBytes before := by
    simp [fedBytes, BzmParserOp.input]
  have hle := hs.outstanding (before ++ [.expectRegister asicId length]) after done rest
    (by rw [hops, List.append_assoc, List.singleton_append]) h.split
    (fun frame more hrest => by
      have hlt := length_fedBytes_lt h.bytes h.started (hrest.trans (List.nil_append _).symm)
      rwa [List.append_nil, ← hfed] at hlt) asicId
  rw [hsnoc, List.length_append, List.length_singleton] at hle
  exact le_antisymm (Nat.le_of_succ_le_succ hle) (h.inside.prior asicId).length_le

/-- One operation of a stream. -/
theorem Streamed.step {ops : List BzmParserOp} {frames : List BzmFrame}
    (hs : StreamsFrames ops frames) {before after : List BzmParserOp} {op : BzmParserOp}
    (hops : ops = before ++ op :: after) {rest : List BzmFrame}
    (h : Streamed frames before p done sent rest) :
    ∃ done' sent' rest', Streamed frames (before ++ [op]) (p.step op) done' sent' rest' := by
  have hkind := hs.kinds op (by rw [hops]; simp)
  cases op with
  | cancelRegister asicId => exact hkind.elim
  | expectRegister asicId length =>
    obtain ⟨haddressed, hpos, hle⟩ := hkind
    refine ⟨done, sent, rest, h.split, h.started, ?_, ?_⟩
    · rw [fedBytes_append, h.bytes]
      simp [fedBytes, BzmParserOp.input]
    · rw [announcedLengths_snoc_expect]
      exact h.inside.expectRegister haddressed hpos hle (h.announced_eq hs hops)
  | feed data timestampUs =>
    have hfed : fedBytes (before ++ [.feed data timestampUs])
        = wireBytes done ++ (sent ++ data) := by
      rw [fedBytes_append, h.bytes]
      simp [fedBytes, BzmParserOp.input]
    have hstream : sent ++ (data ++ fedBytes after) = wireBytes rest := by
      have hall := hs.bytes
      rw [hops, List.append_cons, fedBytes_append, hfed, h.split, wireBytes_append,
        List.append_assoc, List.append_assoc] at hall
      exact List.append_cancel_left hall
    have hsame := announcedLengths_snoc_feed before data timestampUs
    obtain ⟨between, sent', rest', rfl, hstarted, hbytes, hinside⟩ :=
      h.inside.feed h.started hstream
        (fun frame hframe => hs.sendable frame (by
          rw [h.split]
          exact List.mem_append_right done hframe))
        (fun between frame more hrest hlength => by
          have hannounced := hs.announced (before ++ [.feed data timestampUs]) after
            (done ++ between) frame more (by rw [hops, List.append_assoc, List.singleton_append])
            (by rw [h.split, hrest, List.append_assoc])
            (by
              rw [hfed, wireBytes_append, List.length_append, List.length_append]
              omega)
          rwa [congrFun hsame frame.asicId] at hannounced)
        (fun between frame more hrest => by
          refine hs.outstanding before (.feed data timestampUs :: after) (done ++ between)
            (frame :: more) hops (by rw [h.split, hrest, List.append_assoc]) ?_ frame.asicId
          intro other later hsplit
          obtain ⟨rfl, rfl⟩ := List.cons.inj hsplit
          exact length_fedBytes_lt h.bytes h.started hrest) timestampUs
    refine ⟨done ++ between, sent', rest', ?_, hstarted, ?_, ?_⟩
    · rw [h.split, List.append_assoc]
    · rw [hfed, hbytes, wireBytes_append, List.append_assoc]
    · rw [hsame]
      exact hinside

theorem Streamed.run {ops : List BzmParserOp} {frames : List BzmFrame}
    (hs : StreamsFrames ops frames) (after : List BzmParserOp) :
    ∀ {before : List BzmParserOp} {p : BzmFrameParser} {done : List BzmFrame} {sent : List U8}
      {rest : List BzmFrame}, ops = before ++ after →
      Streamed frames before p done sent rest →
      ∃ done' sent' rest', Streamed frames ops (Library.run BzmFrameParser.step p after)
        done' sent' rest' := by
  induction after with
  | nil =>
    intro before p done sent rest hops h
    rw [List.append_nil] at hops
    subst hops
    exact ⟨done, sent, rest, h⟩
  | cons op after ih =>
    intro before p done sent rest hops h
    obtain ⟨done', sent', rest', hnext⟩ := h.step hs hops
    exact ih (by rw [hops, List.append_assoc, List.singleton_append]) hnext

/-- **A well-formed stream is decoded exactly**: the frames come out with their
payloads, no byte is discarded and none is left over. -/
theorem stream_decoded {ops : List BzmParserOp} {frames : List BzmFrame}
    (hs : StreamsFrames ops frames) :
    let p := Library.run BzmFrameParser.step init ops
    (framesOf p.trace).map BzmFrame.untimed = frames.map BzmFrame.untimed ∧
      (∀ byte, .discarded byte ∉ p.trace) ∧ p.discardedBytes = 0 ∧ p.buffer = [] := by
  have hstart : Streamed frames [] init [] [] frames :=
    ⟨rfl, started_nil frames, rfl, init_inside⟩
  obtain ⟨done, sent, rest, h⟩ := Streamed.run hs ops rfl hstart
  -- the bytes are used up, so no frame is left
  obtain ⟨rfl, rfl⟩ : rest = [] ∧ sent = [] := by
    rcases h.started with hnone | ⟨frame, more, byte, tail, rfl, hwire⟩
    · exact hnone
    · have hall := hs.bytes
      rw [h.bytes, h.split, wireBytes_append] at hall
      have hsent := List.append_cancel_left hall
      have hcons : wireBytes (frame :: more) = frame.wire ++ wireBytes more := List.flatMap_cons
      have hlength := congrArg List.length hsent
      rw [hcons, hwire] at hlength
      simp at hlength
  refine ⟨?_, fun byte hmem => ?_, h.inside.counted, h.inside.buffer⟩
  · rw [h.inside.emitted, h.split, List.append_nil]
  · exact absurd h.inside.clean (discards_ne_zero_of_mem hmem)

/-- A register reply whose payload looks like a header. -/
def lookalikeReply : BzmFrame := ⟨.register, 0x0a#8, [0x0a#8, 0x0f#8], 0⟩

theorem lookalikeReply_streams : StreamsFrames
    [.expectRegister 0x0a#8 2, .feed [0x0a#8, 0x03#8, 0x0a#8] 0, .feed [0x0f#8] 1]
    [lookalikeReply] := by
  constructor
  · intro frame hframe
    obtain rfl := List.mem_singleton.mp hframe
    exact ⟨by decide, by decide, by decide, by decide⟩
  · intro op hop
    simp only [List.mem_cons, List.not_mem_nil, or_false] at hop
    rcases hop with rfl | rfl | rfl
    · exact ⟨by decide, by decide, by decide⟩
    · trivial
    · trivial
  · rfl
  · intro before after done frame rest hops hframes hlength
    have hdone : done = [] ∧ frame = lookalikeReply := by
      cases done with
      | nil => exact ⟨rfl, (List.cons.inj hframes).1.symm⟩
      | cons first done => simp at hframes
    obtain ⟨rfl, rfl⟩ := hdone
    cases before with
    | nil => simp [fedBytes] at hlength
    | cons op before =>
      obtain ⟨rfl, -⟩ := List.cons.inj hops
      exact ⟨announcedLengths 0x0a#8 before, rfl⟩
  · intro before after done rest hops _ _ asicId
    have hpre : announcedLengths asicId before <+: announcedLengths asicId
        [.expectRegister 0x0a#8 2, .feed [0x0a#8, 0x03#8, 0x0a#8] 0, .feed [0x0f#8] 1] := by
      rw [hops]
      unfold announcedLengths
      rw [List.filterMap_append]
      exact List.prefix_append _ _
    refine hpre.length_le.trans ?_
    unfold announcedLengths
    simp only [List.filterMap_cons, List.filterMap_nil]
    split
    · exact Nat.zero_le _
    · exact Nat.le_add_left _ _

theorem stream_decoded_of_reply :
    let p := Library.run BzmFrameParser.step init
      [.expectRegister 0x0a#8 2, .feed [0x0a#8, 0x03#8, 0x0a#8] 0, .feed [0x0f#8] 1]
    (framesOf p.trace).map BzmFrame.untimed = [lookalikeReply] ∧
      (∀ byte, .discarded byte ∉ p.trace) ∧ p.discardedBytes = 0 ∧ p.buffer = [] :=
  stream_decoded lookalikeReply_streams

end BzmFrameParser

end EspMiner
