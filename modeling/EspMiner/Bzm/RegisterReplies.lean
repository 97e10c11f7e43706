import EspMiner.Bzm.FrameParserMoves
import EspMiner.Bzm.TransportIo

/-!
# Register replies and their requests

The transport remembers the register request that is outstanding, and so does the
parser, which accepts no register reply that nobody expects.  The two stay in
lockstep, and the first reply of the ASIC answers the request.
-/

namespace EspMiner

open Library BzmFrameParser

/-! ### The register side of the transport -/

/-- The fields of the transport that a register request uses. -/
structure RegisterRequest where
  pending : Bool
  ready : Bool
  asicId : U8
  length : U8
  data : List U8
  unmatched : U32

def BzmSerialIo.request (io : BzmSerialIo) : RegisterRequest :=
  ⟨io.registerPending, io.registerReady, io.registerAsicId, io.registerLength, io.registerData,
    io.unmatchedRegisterFrames⟩

/-- What a frame does to the request. -/
def RegisterRequest.receive (r : RegisterRequest) (frame : BzmFrame) : RegisterRequest :=
  if frame.type ≠ .register then r
  else if r.pending = false ∨ frame.asicId ≠ r.asicId ∨ frame.payload.length ≠ r.length.toNat then
    { r with unmatched := r.unmatched + 1 }
  else { r with data := frame.payload ++ r.data.drop frame.payload.length, ready := true }

namespace BzmSerialIo

variable (readings : BzmTelemetryReadings)

@[simp] theorem queueResult_request (io : BzmSerialIo) (result : BzmRawResult) :
    (io.queueResult result).request = io.request ∧
      (io.queueResult result).parser = io.parser := by
  unfold queueResult
  split <;> exact ⟨rfl, rfl⟩

theorem transportFrameHandler_request (io : BzmSerialIo) (frame : BzmFrame) :
    (io.transportFrameHandler readings frame).request = io.request.receive frame ∧
      (io.transportFrameHandler readings frame).parser = io.parser := by
  unfold transportFrameHandler RegisterRequest.receive
  cases htype : frame.type with
  | result =>
    simp only [handleResult, ne_eq, reduceCtorEq, not_false_eq_true, if_true]
    split
    · exact ⟨rfl, rfl⟩
    · split
      · exact ⟨rfl, rfl⟩
      · exact queueResult_request io _
  | register =>
    simp only [handleRegister, request, ne_eq, not_true_eq_false, if_false]
    by_cases hmismatch : io.registerPending = false ∨ ¬frame.asicId = io.registerAsicId ∨
        ¬frame.payload.length = io.registerLength.toNat
    · simp only [if_pos hmismatch]
      exact ⟨(if_pos hmismatch).symm, trivial⟩
    · simp only [if_neg hmismatch]
      exact ⟨(if_neg hmismatch).symm, trivial⟩
  | telemetry =>
    simp only [handleTelemetry, ne_eq, reduceCtorEq, not_false_eq_true, if_true]
    split <;> exact ⟨rfl, rfl⟩
  | noop =>
    simp only [handleNoop, ne_eq, reduceCtorEq, not_false_eq_true, if_true]
    split
    · exact ⟨rfl, rfl⟩
    · split <;> exact ⟨rfl, rfl⟩

theorem foldl_transportFrameHandler (io : BzmSerialIo) (frames : List BzmFrame) :
    (frames.foldl (transportFrameHandler readings) io).request =
        frames.foldl RegisterRequest.receive io.request ∧
      (frames.foldl (transportFrameHandler readings) io).parser = io.parser := by
  induction frames generalizing io with
  | nil => exact ⟨rfl, rfl⟩
  | cons frame frames ih =>
    obtain ⟨hrequest, hparser⟩ := transportFrameHandler_request readings io frame
    obtain ⟨ih1, ih2⟩ := ih (io.transportFrameHandler readings frame)
    exact ⟨by rw [List.foldl_cons, List.foldl_cons, ih1, hrequest], ih2.trans hparser⟩

end BzmSerialIo

/-! ### Lockstep -/

/-- The parser expects what the outstanding request waits for and nothing else,
and no reply has ever been unmatched. -/
structure Lockstep (p : BzmFrameParser) (r : RegisterRequest) : Prop where
  expected : ∀ index, p.expectedRegisterLength index =
    if r.pending = true ∧ r.ready = false ∧ bzmTopologyAsicIndex r.asicId = some index then r.length
    else 0
  addressed : r.pending = true → ∃ index, bzmTopologyAsicIndex r.asicId = some index
  length : r.pending = true → r.length ≠ 0 ∧ r.length.toNat ≤ BZM_TDM_MAX_REGISTER_PAYLOAD_SIZE
  matched : r.unmatched = 0

namespace Lockstep

variable {p q : BzmFrameParser} {r : RegisterRequest} {frame : BzmFrame}

/-- Lockstep reads the expectations of the parser and nothing else of it. -/
theorem congr (h : Lockstep p r) (heq : q.expectedRegisterLength = p.expectedRegisterLength) :
    Lockstep q r :=
  ⟨fun index => by rw [heq]; exact h.expected index, h.addressed, h.length, h.matched⟩

theorem expectedLe (h : Lockstep p r) (index : Nat) :
    (p.expectedRegisterLength index).toNat ≤ BZM_TDM_MAX_REGISTER_PAYLOAD_SIZE := by
  rw [h.expected index]
  split
  · next hwaits => exact (h.length hwaits.1).2
  · exact Nat.zero_le _

/-- What the parser expects, exactly. -/
theorem expected_iff (h : Lockstep p r) (index : Nat) :
    p.expectedRegisterLength index ≠ 0 ↔
      r.pending = true ∧ r.ready = false ∧ bzmTopologyAsicIndex r.asicId = some index := by
  rw [h.expected index]
  constructor
  · intro hne
    by_contra hwaits
    exact hne (if_neg hwaits)
  · intro hwaits
    rw [if_pos hwaits]
    exact (h.length hwaits.1).1

/-- An emitted register reply is the one that the request waits for. -/
theorem receive_register (h : Lockstep p r) (hemits : Emits p frame q)
    (hregister : frame.type = .register) :
    r.pending = true ∧ r.ready = false ∧ frame.asicId = r.asicId ∧
      frame.payload.length = r.length.toNat ∧
      r.receive frame =
        { r with data := frame.payload ++ r.data.drop frame.payload.length, ready := true } ∧
      q.expectedRegisterLength = fun _ => 0 := by
  obtain ⟨index, hindex, hexpected, hlength, hafter⟩ := hemits.answered hregister
  have hwaits := (h.expected_iff index).mp hexpected
  have hasic : frame.asicId = r.asicId := bzmTopologyAsicIndex_inj hindex hwaits.2.2
  have hlength' : frame.payload.length = r.length.toNat := by
    rw [hlength, h.expected index, if_pos hwaits]
  refine ⟨hwaits.1, hwaits.2.1, hasic, hlength', ?_, ?_⟩
  · simp [RegisterRequest.receive, hregister, hwaits.1, hasic, hlength']
  · funext other
    rw [hafter]
    by_cases hsame : other = index
    · rw [hsame, Function.update_self]
    · rw [Function.update_of_ne hsame, h.expected other, if_neg]
      rintro ⟨-, -, hother⟩
      exact hsame (Option.some.inj (hother.symm.trans hwaits.2.2))

/-- Emitting a frame and handing it over keep the lockstep. -/
theorem emit (h : Lockstep p r) (hemits : Emits p frame q) : Lockstep q (r.receive frame) := by
  by_cases hregister : frame.type = .register
  · obtain ⟨-, -, -, -, hreceive, hafter⟩ := h.receive_register hemits hregister
    rw [hreceive]
    refine ⟨fun index => ?_, h.addressed, h.length, h.matched⟩
    rw [hafter, if_neg]
    rintro ⟨-, hready, -⟩
    cases hready
  · have hreceive : r.receive frame = r := if_pos hregister
    rw [hreceive]
    exact h.congr (hemits.kept hregister)

end Lockstep

/-! ### What is left in the buffer -/

/-- The length of a frame whose type fixes it. -/
def fixedFrameLength (typeByte : U8) : Option Nat :=
  match BzmFrameType.ofByte typeByte with
  | some .result => some (BZM_TDM_HEADER_SIZE + BZM_RESULT_FRAME_SIZE)
  | some .telemetry => some (BZM_TDM_HEADER_SIZE + BZM_TDM_TELEMETRY_PAYLOAD_SIZE)
  | some .noop => some (BZM_TDM_HEADER_SIZE + BZM_TDM_NOOP_PAYLOAD_SIZE)
  | some .register => none
  | none => none

/-- The bytes begin with the header of a frame that is not a register reply. -/
def StartsFixed (buffer : List U8) (frameLength : Nat) : Prop :=
  ∃ asicId typeByte rest, buffer = asicId :: typeByte :: rest ∧ validWireAsicId asicId = true ∧
    fixedFrameLength typeByte = some frameLength

/-- The bytes begin with the header of a register reply. -/
def StartsRegister (buffer : List U8) : Prop :=
  ∃ asicId rest, buffer = asicId :: BzmFrameType.register.toByte :: rest

/-- The bytes from the second on cannot be mistaken for a reply: at most one byte,
or a part of another frame. -/
def Inert (buffer : List U8) : Prop :=
  buffer.length ≤ 1 ∨ ∃ frameLength, StartsFixed buffer frameLength ∧ buffer.length < frameLength

theorem StartsFixed.append {buffer : List U8} {frameLength : Nat}
    (h : StartsFixed buffer frameLength) (more : List U8) :
    StartsFixed (buffer ++ more) frameLength := by
  obtain ⟨asicId, typeByte, rest, rfl, hvalid, hfixed⟩ := h
  exact ⟨asicId, typeByte, rest ++ more, rfl, hvalid, hfixed⟩

/-- The parser announces such a frame. -/
theorem StartsFixed.announced {p : BzmFrameParser} {frameLength : Nat}
    (h : StartsFixed p.buffer frameLength) :
    ∃ type, type ≠ .register ∧ p.expectedFrameLength = (some (type, frameLength), p) := by
  obtain ⟨asicId, typeByte, rest, hbuffer, hvalid, hfixed⟩ := h
  unfold fixedFrameLength at hfixed
  simp only [expectedFrameLength, hbuffer, hvalid, Bool.true_eq_false, if_false]
  split at hfixed
  · next htype => cases hfixed; exact ⟨.result, by simp, by rw [htype]⟩
  · next htype => cases hfixed; exact ⟨.telemetry, by simp, by rw [htype]⟩
  · next htype => cases hfixed; exact ⟨.noop, by simp, by rw [htype]⟩
  · cases hfixed
  · cases hfixed

/-- What is buffered where nothing is left to do. -/
theorem inert_or_startsRegister {p : BzmFrameParser} (h : p.Settled) :
    Inert p.buffer ∨ StartsRegister p.buffer ∧
      ∃ index, p.expectedRegisterLength index ≠ 0 := by
  rcases h with hshort | ⟨type, frameLength, heq, hshort⟩
  · exact .inl (.inl (Nat.lt_succ_iff.mp hshort))
  obtain ⟨-, asicId, typeByte, rest, hbuffer, hvalid, htype, hlength⟩ :=
    expectedFrameLength_eq_some heq
  cases type with
  | register =>
    obtain ⟨index, -, hexpected, -⟩ := hlength
    refine .inr ⟨⟨asicId, rest, ?_⟩, index, hexpected⟩
    rw [hbuffer, BzmFrameType.toByte_of_ofByte htype]
  | result =>
    refine .inl (.inr ⟨frameLength, ⟨asicId, typeByte, rest, hbuffer, hvalid, ?_⟩, hshort⟩)
    simp only [fixedFrameLength, htype, hlength]
  | telemetry =>
    refine .inl (.inr ⟨frameLength, ⟨asicId, typeByte, rest, hbuffer, hvalid, ?_⟩, hshort⟩)
    simp only [fixedFrameLength, htype, hlength]
  | noop =>
    refine .inl (.inr ⟨frameLength, ⟨asicId, typeByte, rest, hbuffer, hvalid, ?_⟩, hshort⟩)
    simp only [fixedFrameLength, htype, hlength]

/-- Of the buffered bytes all but some inert ones at the front are the last of
`bytes`. -/
def Young (buffer bytes : List U8) : Prop :=
  ∃ old, old ≤ buffer.length ∧ buffer.drop old <:+ bytes ∧
    (old ≤ 1 ∨ ∃ frameLength, StartsFixed buffer frameLength ∧ old < frameLength)

theorem young_of_inert {buffer : List U8} (h : Inert buffer) : Young buffer [] :=
  ⟨buffer.length, Nat.le_refl _, by rw [List.drop_length], h⟩

theorem young_nil (bytes : List U8) : Young [] bytes :=
  ⟨0, Nat.le_refl _, List.nil_suffix, .inl (Nat.zero_le _)⟩

namespace Young

variable {p q : BzmFrameParser} {frame : BzmFrame} {bytes : List U8}

theorem discard (h : Young p.buffer bytes) (hdiscards : Discards p q) : Young q.buffer bytes := by
  obtain ⟨old, hle, hsuffix, hold⟩ := h
  have hold' : old ≤ 1 := by
    rcases hold with hold | ⟨frameLength, hstarts, -⟩
    · exact hold
    · -- the header of another frame is not refused
      obtain ⟨type, -, heq⟩ := hstarts.announced
      have := hdiscards.refused
      rw [heq] at this
      cases this
  rw [hdiscards.buffer]
  refine ⟨0, Nat.zero_le _, ?_, .inl (Nat.zero_le _)⟩
  rw [List.drop_zero, ← List.drop_one]
  exact (List.drop_suffix_drop_left _ hold').trans hsuffix

/-- An emitted frame has used the inert bytes up, and they are no part of the
payload of a register reply. -/
theorem emit (h : Young p.buffer bytes) (hemits : Emits p frame q) :
    Young q.buffer bytes ∧ (frame.type = .register → frame.payload <:+: bytes) := by
  obtain ⟨old, hle, hsuffix, hold⟩ := h
  have hold' : old ≤ frame.wire.length ∧ (frame.type = .register → old ≤ 1) := by
    rcases hold with hold | ⟨frameLength, hstarts, hlt⟩
    · exact ⟨hold.trans (by simp [BzmFrame.wire]), fun _ => hold⟩
    · obtain ⟨type, hne, heq⟩ := hstarts.announced
      rw [hemits.announced] at heq
      simp only [Prod.mk.injEq, Option.some.injEq, and_true] at heq
      obtain ⟨rfl, rfl⟩ := heq
      exact ⟨hlt.le, fun hregister => absurd hregister hne⟩
  have hdrop : q.buffer = p.buffer.drop frame.wire.length := by
    rw [hemits.buffer, List.drop_left]
  constructor
  · refine ⟨0, Nat.zero_le _, ?_, .inl (Nat.zero_le _)⟩
    rw [List.drop_zero, hdrop]
    exact (List.drop_suffix_drop_left _ hold'.1).trans hsuffix
  · intro hregister
    have hpayload : frame.payload <:+: p.buffer.drop 2 := by
      rw [hemits.buffer]
      exact (List.prefix_append frame.payload q.buffer).isInfix
    have hfresh : p.buffer.drop 2 <:+ bytes :=
      (List.drop_suffix_drop_left _ ((hold'.2 hregister).trans (by decide))).trans hsuffix
    exact hpayload.trans hfresh.isInfix

theorem push {buffer : List U8} (h : Young buffer bytes) (byte : U8) :
    Young (buffer ++ [byte]) (bytes ++ [byte]) := by
  obtain ⟨old, hle, ⟨front, hfront⟩, hold⟩ := h
  refine ⟨old, hle.trans (by simp), ⟨front, ?_⟩, hold.imp_right ?_⟩
  · rw [List.drop_append_of_le_length hle, ← List.append_assoc, hfront]
  · rintro ⟨frameLength, hstarts, hlt⟩
    exact ⟨frameLength, hstarts.append [byte], hlt⟩

end Young

end EspMiner
