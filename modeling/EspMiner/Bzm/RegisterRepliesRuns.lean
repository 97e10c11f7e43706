import EspMiner.Bzm.RegisterReplies

/-!
# Register replies over whole runs

Whatever the order of requests, bytes, clearings and resets: the parser expects the outstanding
request and nothing else, and a request is answered with the first register frame of its ASIC
behind its own expect.  The invariant is the state of the request against the operations since
that expect, kept by each operation.
-/

namespace EspMiner

open Library BzmFrameParser

/-! ### What a run is asked for -/

/-- The bytes that an operation feeds. -/
def BzmSerialOp.input : BzmSerialOp → List U8
  | .ingestBytes data _ => data
  | _ => []

/-- The operation leaves the buffer of the parser alone. -/
def BzmSerialOp.KeepsBuffer : BzmSerialOp → Prop
  | .ingestBytes data _ => data = []
  | .clearPartialFrame => False
  | .resetIoState _ _ => False
  | _ => True

/-- The bytes that the operations feed. -/
def ingestedBytes (ops : List BzmSerialOp) : List U8 := ops.flatMap BzmSerialOp.input

/-- A register reply of the ASIC. -/
def BzmFrame.isReplyOf (asicId : U8) (frame : BzmFrame) : Bool :=
  decide (frame.type = .register) && decide (frame.asicId = asicId)

section

variable (readings : BzmTelemetryReadings)

/-- The transport behind a run. -/
def serialRun (ops : List BzmSerialOp) : BzmSerialIo :=
  run (BzmSerialIo.step readings) BzmSerialIo.init ops

/-- The expect of the request that is outstanding behind `ops`: it was accepted
between `before` and `later`, and the request has been pending ever since. -/
structure OwnExpect (ops before later : List BzmSerialOp) (asicId : U8) (payloadLength : Nat) :
    Prop where
  split : ops = before ++ .expectRegisterReply asicId payloadLength :: later
  accepted : ((serialRun readings before).expectRegisterReply asicId payloadLength).1 = true
  stillPending : ∀ first rest, later = first ++ rest →
    (serialRun readings
      (before ++ .expectRegisterReply asicId payloadLength :: first)).registerPending = true

/-- The buffer holds the start of a register reply whose request was cancelled, and
nothing has been fed, cleared or reset since. -/
structure LeftOver (ops : List BzmSerialOp) : Prop where
  begun : StartsRegister (serialRun readings ops).parser.buffer
  cancelled : ∃ before asicId later, ops = before ++ .cancelRegisterReply asicId :: later ∧
    (serialRun readings before).registerPending = true ∧
    (serialRun readings before).registerReady = false ∧
    (serialRun readings before).registerAsicId = asicId ∧
    ∀ op ∈ later, op.KeepsBuffer

/-- The transport and the parser agree behind `ops`, and a reply that can be taken
answers the request that waits for it. -/
structure RepliesMatched (ops : List BzmSerialOp) : Prop where
  expected : ∀ index, (serialRun readings ops).parser.expectedRegisterLength index ≠ 0 ↔
    (serialRun readings ops).registerPending = true ∧
    (serialRun readings ops).registerReady = false ∧
    bzmTopologyAsicIndex (serialRun readings ops).registerAsicId = some index
  length : ∀ index, (serialRun readings ops).parser.expectedRegisterLength index ≠ 0 →
    (serialRun readings ops).parser.expectedRegisterLength index =
      (serialRun readings ops).registerLength
  matched : (serialRun readings ops).unmatchedRegisterFrames = 0
  single : (serialRun readings ops).registerPending = true → ∀ asicId payloadLength,
    (serialRun readings ops).expectRegisterReply asicId payloadLength =
      (false, serialRun readings ops)
  delivered : ∀ asicId dataLength data,
    ((serialRun readings ops).takeRegisterReply asicId dataLength).1 = some data →
    ∃ before later frame, OwnExpect readings ops before later asicId dataLength ∧
      (emittedSince (serialRun readings before).parser (serialRun readings ops).parser).find?
        (BzmFrame.isReplyOf asicId) = some frame ∧
      data = frame.payload ∧
      (data <:+: ingestedBytes later ∨ LeftOver readings before)

end

/-! ### A request that waits -/

namespace RegisterRequest

variable (r : RegisterRequest) (frame : BzmFrame)

@[simp] theorem receive_pending : (r.receive frame).pending = r.pending := by
  unfold receive
  split
  · rfl
  · split <;> rfl

@[simp] theorem receive_asicId : (r.receive frame).asicId = r.asicId := by
  unfold receive
  split
  · rfl
  · split <;> rfl

@[simp] theorem receive_length : (r.receive frame).length = r.length := by
  unfold receive
  split
  · rfl
  · split <;> rfl

theorem foldl_receive (frames : List BzmFrame) :
    (frames.foldl receive r).pending = r.pending ∧ (frames.foldl receive r).asicId = r.asicId ∧
      (frames.foldl receive r).length = r.length := by
  induction frames generalizing r with
  | nil => exact ⟨rfl, rfl, rfl⟩
  | cons frame frames ih => simpa using ih (r.receive frame)

end RegisterRequest

/-- The frames and bytes since the expect of the pending request: the first reply
among the frames is its answer, and, if the buffer was `inert` then, the answer is
made of these bytes. -/
structure Awaits (inert : Prop) (p : BzmFrameParser) (r : RegisterRequest) (frames : List BzmFrame)
    (bytes : List U8) : Prop where
  unready : r.ready = false → frames.find? (BzmFrame.isReplyOf r.asicId) = none
  ready : r.ready = true → ∃ frame, frames.find? (BzmFrame.isReplyOf r.asicId) = some frame ∧
    r.data.take r.length.toNat = frame.payload ∧ (inert → frame.payload <:+: bytes)
  young : inert → Young p.buffer bytes

namespace Awaits

variable {inert : Prop} {p q : BzmFrameParser} {r : RegisterRequest} {frame : BzmFrame}
  {frames : List BzmFrame} {bytes : List U8}

theorem emit (h : Awaits inert p r frames bytes) (hlockstep : Lockstep p r)
    (hemits : Emits p frame q) : Awaits inert q (r.receive frame) (frames ++ [frame]) bytes := by
  have hyoung : inert → Young q.buffer bytes := fun hinert => ((h.young hinert).emit hemits).1
  by_cases hregister : frame.type = .register
  · obtain ⟨-, hready, hasic, hlength, hreceive, -⟩ := hlockstep.receive_register hemits hregister
    have hreply : frame.isReplyOf r.asicId = true := by
      simp [BzmFrame.isReplyOf, hregister, hasic]
    rw [hreceive]
    refine ⟨fun hunready => (by cases hunready), fun _ => ⟨frame, ?_, ?_, ?_⟩, hyoung⟩
    · rw [List.find?_append, h.unready hready]
      simp [hreply]
    · exact List.take_left' hlength
    · exact fun hinert => ((h.young hinert).emit hemits).2 hregister
  · have hreply : frame.isReplyOf r.asicId = false := by
      simp [BzmFrame.isReplyOf, hregister]
    have hfind : (frames ++ [frame]).find? (BzmFrame.isReplyOf r.asicId) =
        frames.find? (BzmFrame.isReplyOf r.asicId) := by
      rw [List.find?_append]
      simp [hreply]
    have hreceive : r.receive frame = r := if_pos hregister
    rw [hreceive]
    refine ⟨?_, ?_, hyoung⟩
    · rw [hfind]
      exact h.unready
    · rw [hfind]
      exact h.ready

theorem push (h : Awaits inert p r frames bytes) (byte : U8) :
    Awaits inert { p with buffer := p.buffer ++ [byte] } r frames (bytes ++ [byte]) where
  unready := h.unready
  ready hready := by
    obtain ⟨frame, hfind, hdata, hbytes⟩ := h.ready hready
    exact ⟨frame, hfind, hdata, fun hinert =>
      (hbytes hinert).trans (List.prefix_append bytes [byte]).isInfix⟩
  young hinert := (h.young hinert).push byte

end Awaits

/-- The transport in the middle of a feed that has emitted `frames` and taken `fed`,
when it started with the request `r`. -/
def FeedStory (inert : Prop) (r : RegisterRequest) (before : List BzmFrame) (bytes : List U8)
    (p : BzmFrameParser) (frames : List BzmFrame) (fed : List U8) : Prop :=
  Lockstep p (frames.foldl RegisterRequest.receive r) ∧
    (r.pending = true → Awaits inert p (frames.foldl RegisterRequest.receive r)
      (before ++ frames) (bytes ++ fed))

/-- The three moves of the parser keep the lockstep and the story of the request. -/
theorem feedRule_story (inert : Prop) (r : RegisterRequest) (before : List BzmFrame)
    (bytes : List U8) : FeedRule (FeedStory inert r before bytes) where
  expectedLe h := h.1.expectedLe
  discard h hdiscards := ⟨h.1.congr hdiscards.expected, fun hpending =>
    { h.2 hpending with young := fun hinert => ((h.2 hpending).young hinert).discard hdiscards }⟩
  emit h hemits := by
    rw [FeedStory, List.foldl_append, ← List.append_assoc]
    exact ⟨h.1.emit hemits, fun hpending => (h.2 hpending).emit h.1 hemits⟩
  push byte h := by
    rw [FeedStory, ← List.append_assoc]
    exact ⟨h.1.congr rfl, fun hpending => (h.2 hpending).push byte⟩

/-! ### What every run keeps -/

theorem serialRun_snoc (readings : BzmTelemetryReadings) (ops : List BzmSerialOp)
    (op : BzmSerialOp) :
    serialRun readings (ops ++ [op]) = (serialRun readings ops).step readings op := by
  simp [serialRun, run_append]

theorem ingestedBytes_snoc (ops : List BzmSerialOp) (op : BzmSerialOp) :
    ingestedBytes (ops ++ [op]) = ingestedBytes ops ++ op.input := by
  simp [ingestedBytes]

/-- A buffer that begins a register reply is not inert. -/
theorem Inert.not_startsRegister {buffer : List U8} (h : Inert buffer) :
    ¬StartsRegister buffer := by
  rintro ⟨asicId, rest, rfl⟩
  rcases h with hshort | ⟨frameLength, ⟨_, _, _, hcons, -, hfixed⟩, -⟩
  · simp at hshort
  · simp only [List.cons.injEq] at hcons
    obtain ⟨-, rfl, -⟩ := hcons
    simp [fixedFrameLength, BzmFrameType.ofByte, BzmFrameType.toByte] at hfixed

theorem not_startsRegister_nil : ¬StartsRegister [] := by
  rintro ⟨asicId, rest, h⟩
  cases h

/-- The state of the transport behind `ops`, for the induction on `ops`. -/
structure SerialInv (readings : BzmTelemetryReadings) (ops : List BzmSerialOp) (io : BzmSerialIo) :
    Prop where
  lockstep : Lockstep io.parser io.request
  room : io.parser.buffer.length < BZM_TDM_MAX_FRAME_SIZE
  settled : Inert io.parser.buffer ∨ StartsRegister io.parser.buffer
  leftOver : StartsRegister io.parser.buffer →
    io.registerPending = true ∧ io.registerReady = false ∨ LeftOver readings ops
  awaits : io.registerPending = true → ∃ before later events,
    OwnExpect readings ops before later io.registerAsicId io.registerLength.toNat ∧
    io.parser.trace = events ++ (serialRun readings before).parser.trace ∧
    Awaits (Inert (serialRun readings before).parser.buffer) io.parser io.request
      (framesOf events) (ingestedBytes later)

section

variable {readings : BzmTelemetryReadings} {ops : List BzmSerialOp} {op : BzmSerialOp}
  {io : BzmSerialIo}

theorem OwnExpect.snoc {before later : List BzmSerialOp} {asicId : U8} {payloadLength : Nat}
    (h : OwnExpect readings ops before later asicId payloadLength)
    (hpending : (serialRun readings (ops ++ [op])).registerPending = true) :
    OwnExpect readings (ops ++ [op]) before (later ++ [op]) asicId payloadLength where
  split := by rw [h.split]; simp
  accepted := h.accepted
  stillPending first rest hsplit := by
    rcases List.eq_nil_or_concat rest with rfl | ⟨rest, last, rfl⟩
    · have hfirst : first = later ++ [op] := by simpa using hsplit.symm
      rw [hfirst, ← List.cons_append, ← List.append_assoc, ← h.split]
      exact hpending
    · rw [List.concat_eq_append, ← List.append_assoc] at hsplit
      exact h.stillPending first rest (List.append_inj_left' hsplit rfl)

theorem LeftOver.snoc (h : LeftOver readings ops) (hop : op.KeepsBuffer)
    (hbuffer : ((serialRun readings ops).step readings op).parser.buffer =
      (serialRun readings ops).parser.buffer) : LeftOver readings (ops ++ [op]) where
  begun := by
    rw [serialRun_snoc, hbuffer]
    exact h.begun
  cancelled := by
    obtain ⟨before, asicId, later, rfl, hpending, hready, hasic, hlater⟩ := h.cancelled
    refine ⟨before, asicId, later ++ [op], by simp, hpending, hready, hasic, ?_⟩
    intro other hmem
    rcases List.mem_append.mp hmem with hmem | hmem
    · exact hlater other hmem
    · rw [List.mem_singleton.mp hmem]
      exact hop

/-- An operation that touches neither the parser nor the request. -/
theorem SerialInv.quiet (h : SerialInv readings ops (serialRun readings ops))
    (hop : op.KeepsBuffer) (hinput : op.input = [])
    (hparser : ((serialRun readings ops).step readings op).parser =
      (serialRun readings ops).parser)
    (hrequest : ((serialRun readings ops).step readings op).request =
      (serialRun readings ops).request) :
    SerialInv readings (ops ++ [op]) ((serialRun readings ops).step readings op) := by
  have hpending := congrArg RegisterRequest.pending hrequest
  have hready := congrArg RegisterRequest.ready hrequest
  have hasic := congrArg RegisterRequest.asicId hrequest
  have hlength := congrArg RegisterRequest.length hrequest
  simp only [BzmSerialIo.request] at hpending hready hasic hlength
  constructor
  · rw [hparser, hrequest]
    exact h.lockstep
  · rw [hparser]
    exact h.room
  · rw [hparser]
    exact h.settled
  · rw [hparser, hpending, hready]
    intro hstarts
    rcases h.leftOver hstarts with hwaits | hleft
    · exact .inl hwaits
    · exact .inr (hleft.snoc hop (by rw [hparser]))
  · intro hstill
    obtain ⟨before, later, events, hown, htrace, hawaits⟩ := h.awaits (hpending ▸ hstill)
    refine ⟨before, later ++ [op], events, ?_, ?_, ?_⟩
    · rw [hasic, hlength]
      exact hown.snoc (by rw [serialRun_snoc]; exact hstill)
    · rw [hparser]
      exact htrace
    · rw [hparser, hrequest, ingestedBytes_snoc, hinput, List.append_nil]
      exact hawaits

/-! ### Step by step -/

/-- An expect is refused and changes nothing, or it registers the request in the
transport and in the parser. -/
theorem expectRegisterReply_cases (io : BzmSerialIo) (asicId : U8) (payloadLength : Nat) :
    io.expectRegisterReply asicId payloadLength = (false, io) ∨
      (io.registerPending = false ∧ 0 < payloadLength ∧
        payloadLength ≤ BZM_TDM_MAX_REGISTER_PAYLOAD_SIZE ∧
        ∃ index, bzmTopologyAsicIndex asicId = some index ∧
          io.expectRegisterReply asicId payloadLength = (true, { io with
            parser := { io.parser.setExpected index (BitVec.ofNat 8 payloadLength) with
              trace := .expected asicId payloadLength :: io.parser.trace }
            registerPending := true
            registerReady := false
            registerAsicId := asicId
            registerLength := BitVec.ofNat 8 payloadLength })) := by
  unfold BzmSerialIo.expectRegisterReply
  split
  · exact .inl rfl
  next hguard =>
  simp only [not_or, Nat.not_lt] at hguard
  split
  · exact .inl rfl
  next hpending =>
  unfold expectRegister
  cases hindex : bzmTopologyAsicIndex asicId with
  | none => exact .inl rfl
  | some index =>
    by_cases hrefused : payloadLength = 0 ∨ BZM_TDM_MAX_REGISTER_PAYLOAD_SIZE < payloadLength ∨
        io.parser.expectedRegisterLength index ≠ 0
    · simp only [if_pos hrefused]
      exact .inl trivial
    · simp only [if_neg hrefused]
      exact .inr ⟨by simpa using hpending, Nat.pos_of_ne_zero hguard.2.1, hguard.2.2, index,
        rfl, rfl⟩

theorem SerialInv.expect (h : SerialInv readings ops (serialRun readings ops)) (asicId : U8)
    (payloadLength : Nat) :
    SerialInv readings (ops ++ [.expectRegisterReply asicId payloadLength])
      ((serialRun readings ops).step readings (.expectRegisterReply asicId payloadLength)) := by
  rcases expectRegisterReply_cases (serialRun readings ops) asicId payloadLength with
    hrefused | ⟨hpending, hpos, hle, index, hindex, haccepted⟩
  · have hstep : (serialRun readings ops).step readings
        (.expectRegisterReply asicId payloadLength) = serialRun readings ops := by
      rw [BzmSerialIo.step, hrefused]
    exact h.quiet trivial rfl (by rw [hstep]) (by rw [hstep])
  have hsmall : (BitVec.ofNat 8 payloadLength).toNat = payloadLength := by
    simp only [BZM_TDM_MAX_REGISTER_PAYLOAD_SIZE] at hle
    rw [BitVec.toNat_ofNat]
    omega
  have hnonzero : BitVec.ofNat 8 payloadLength ≠ 0#8 := by
    intro hzero
    rw [hzero] at hsmall
    exact hpos.ne hsmall
  have hrun := serialRun_snoc readings ops (.expectRegisterReply asicId payloadLength)
  rw [BzmSerialIo.step, haccepted] at hrun ⊢
  constructor
  · refine ⟨fun other => ?_, fun _ => ⟨index, hindex⟩, fun _ => ⟨hnonzero, ?_⟩, h.lockstep.matched⟩
    · -- nothing was expected before
      have hbefore : (serialRun readings ops).parser.expectedRegisterLength other = 0 := by
        rw [h.lockstep.expected other, if_neg]
        rintro ⟨hwaits, -⟩
        rw [BzmSerialIo.request, hpending] at hwaits
        cases hwaits
      simp only [BzmSerialIo.request, setExpected, hindex, Option.some.injEq, true_and]
      by_cases hsame : index = other
      · rw [if_pos hsame, hsame, Function.update_self]
      · rw [if_neg hsame, Function.update_of_ne (Ne.symm hsame), hbefore]
    · simp only [BzmSerialIo.request, hsmall]
      exact hle
  · exact h.room
  · exact h.settled
  · exact fun _ => .inl ⟨rfl, rfl⟩
  · intro _
    refine ⟨ops, [], [.expected asicId payloadLength], ?_, rfl, ?_⟩
    · simp only [hsmall]
      refine ⟨rfl, by rw [haccepted], fun first rest hsplit => ?_⟩
      obtain ⟨rfl, -⟩ := List.append_eq_nil_iff.mp hsplit.symm
      rw [hrun]
    · exact {
        unready := fun _ => rfl
        ready := fun hready => (by cases hready)
        young := fun hinert => young_of_inert hinert }

/-- A take is refused and changes nothing, or it ends a request that was answered. -/
theorem takeRegisterReply_cases (io : BzmSerialIo) (asicId : U8) (dataLength : Nat) :
    io.takeRegisterReply asicId dataLength = (none, io) ∨
      (io.registerPending = true ∧ io.registerReady = true ∧ io.registerAsicId = asicId ∧
        io.registerLength.toNat = dataLength ∧
        io.takeRegisterReply asicId dataLength = (some (io.registerData.take dataLength),
          { io with registerPending := false, registerReady := false, registerLength := 0 })) := by
  unfold BzmSerialIo.takeRegisterReply
  split
  · next hready =>
    simp only [Bool.and_eq_true, decide_eq_true_eq] at hready
    exact .inr ⟨hready.1.1.1, hready.1.1.2, hready.1.2, hready.2, rfl⟩
  · exact .inl rfl

theorem SerialInv.take (h : SerialInv readings ops (serialRun readings ops)) (asicId : U8)
    (dataLength : Nat) :
    SerialInv readings (ops ++ [.takeRegisterReply asicId dataLength])
      ((serialRun readings ops).step readings (.takeRegisterReply asicId dataLength)) := by
  rcases takeRegisterReply_cases (serialRun readings ops) asicId dataLength with
    hrefused | ⟨hpending, hready, -, -, htaken⟩
  · have hstep : (serialRun readings ops).step readings
        (.takeRegisterReply asicId dataLength) = serialRun readings ops := by
      rw [BzmSerialIo.step, hrefused]
    exact h.quiet trivial rfl (by rw [hstep]) (by rw [hstep])
  have hleft : StartsRegister (serialRun readings ops).parser.buffer → LeftOver readings ops := by
    intro hstarts
    refine (h.leftOver hstarts).resolve_left fun hwaits => ?_
    rw [hready] at hwaits
    cases hwaits.2
  have hstep : (serialRun readings ops).step readings (.takeRegisterReply asicId dataLength) =
      { serialRun readings ops with
        registerPending := false, registerReady := false, registerLength := 0 } := by
    rw [BzmSerialIo.step, htaken]
  rw [hstep]
  constructor
  · refine ⟨fun index => ?_, fun hfalse => (by cases hfalse), fun hfalse => (by cases hfalse),
      h.lockstep.matched⟩
    rw [if_neg (by rintro ⟨hfalse, -⟩; cases hfalse), h.lockstep.expected index, if_neg]
    rintro ⟨-, hunready, -⟩
    rw [BzmSerialIo.request, hready] at hunready
    cases hunready
  · exact h.room
  · exact h.settled
  · exact fun hstarts => .inr ((hleft hstarts).snoc trivial (by rw [hstep]))
  · exact fun hfalse => (by cases hfalse)

/-- Cancelling the outstanding request leaves the parser without an expectation. -/
theorem Lockstep.cancelRegister {p : BzmFrameParser} {r : RegisterRequest} (h : Lockstep p r)
    (hpending : r.pending = true) (index : Nat) :
    (p.cancelRegister r.asicId).2.expectedRegisterLength index = 0 := by
  obtain ⟨own, hown⟩ := h.addressed hpending
  have hothers : index ≠ own → p.expectedRegisterLength index = 0 := by
    intro hne
    rw [h.expected index, if_neg]
    rintro ⟨-, -, hindex⟩
    exact hne (Option.some.inj (hindex.symm.trans hown))
  unfold BzmFrameParser.cancelRegister
  simp only [hown]
  split
  · next hzero =>
    by_cases hsame : index = own
    · rw [hsame]
      exact hzero
    · exact hothers hsame
  · simp only [setExpected]
    by_cases hsame : index = own
    · rw [hsame, Function.update_self]
    · rw [Function.update_of_ne hsame]
      exact hothers hsame

theorem cancelRegister_buffer (p : BzmFrameParser) (asicId : U8) :
    (p.cancelRegister asicId).2.buffer = p.buffer := by
  unfold BzmFrameParser.cancelRegister
  split
  · rfl
  · split <;> rfl

theorem SerialInv.cancel (h : SerialInv readings ops (serialRun readings ops)) (asicId : U8) :
    SerialInv readings (ops ++ [.cancelRegisterReply asicId])
      ((serialRun readings ops).step readings (.cancelRegisterReply asicId)) := by
  by_cases hown : (serialRun readings ops).registerPending = true ∧
      (serialRun readings ops).registerAsicId = asicId
  · obtain ⟨hpending, rfl⟩ := hown
    have hstep : (serialRun readings ops).step readings
        (.cancelRegisterReply (serialRun readings ops).registerAsicId) =
        { serialRun readings ops with
          parser := ((serialRun readings ops).parser.cancelRegister
            (serialRun readings ops).registerAsicId).2
          registerPending := false, registerReady := false, registerLength := 0 } := by
      simp [BzmSerialIo.step, BzmSerialIo.cancelRegisterReply, hpending]
    have hbuffer : ((serialRun readings ops).step readings
        (.cancelRegisterReply (serialRun readings ops).registerAsicId)).parser.buffer =
        (serialRun readings ops).parser.buffer := by
      rw [hstep]
      exact cancelRegister_buffer _ _
    constructor
    · rw [hstep]
      refine ⟨fun index => ?_, fun hfalse => (by cases hfalse), fun hfalse => (by cases hfalse),
        h.lockstep.matched⟩
      rw [if_neg (by rintro ⟨hfalse, -⟩; cases hfalse)]
      exact h.lockstep.cancelRegister hpending index
    · rw [hbuffer]
      exact h.room
    · rw [hbuffer]
      exact h.settled
    · intro hstarts
      have hstarts' := hstarts
      rw [hbuffer] at hstarts'
      rcases h.leftOver hstarts' with ⟨-, hunready⟩ | hleft
      · -- the reply that has begun is the one of the cancelled request
        refine .inr ⟨by rw [serialRun_snoc]; exact hstarts, ops, _, [], rfl, hpending, hunready,
          rfl, ?_⟩
        intro op hmem
        cases hmem
      · exact .inr (hleft.snoc trivial hbuffer)
    · rw [hstep]
      exact fun hfalse => (by cases hfalse)
  · have hstep : (serialRun readings ops).step readings (.cancelRegisterReply asicId) =
        serialRun readings ops := by
      rw [BzmSerialIo.step, BzmSerialIo.cancelRegisterReply, if_neg]
      simpa using hown
    exact h.quiet trivial rfl (by rw [hstep]) (by rw [hstep])

theorem SerialInv.clear (h : SerialInv readings ops (serialRun readings ops)) :
    SerialInv readings (ops ++ [.clearPartialFrame])
      ((serialRun readings ops).step readings .clearPartialFrame) where
  lockstep := h.lockstep.congr rfl
  room := Nat.zero_lt_succ _
  settled := .inl (.inl (Nat.zero_le _))
  leftOver hstarts := absurd hstarts not_startsRegister_nil
  awaits hpending := by
    obtain ⟨before, later, events, hown, htrace, hawaits⟩ := h.awaits hpending
    refine ⟨before, later ++ [.clearPartialFrame], events, ?_, htrace, ?_⟩
    · exact hown.snoc (by rw [serialRun_snoc]; exact hpending)
    · have hinput : BzmSerialOp.clearPartialFrame.input = [] := rfl
      rw [ingestedBytes_snoc, hinput, List.append_nil]
      exact ⟨hawaits.unready, hawaits.ready, fun _ => young_nil _⟩

theorem SerialInv.reset (h : SerialInv readings ops (serialRun readings ops))
    (resetTelemetry resetCounters : Bool) :
    SerialInv readings (ops ++ [.resetIoState resetTelemetry resetCounters])
      ((serialRun readings ops).step readings (.resetIoState resetTelemetry resetCounters)) := by
  have hreset : ∃ matched, ((serialRun readings ops).resetIoState resetTelemetry
      resetCounters).request = ⟨false, false, (serialRun readings ops).registerAsicId,
        (serialRun readings ops).registerLength, (serialRun readings ops).registerData, matched⟩ ∧
      matched = 0 := by
    cases resetCounters with
    | false => cases resetTelemetry <;> exact ⟨_, rfl, h.lockstep.matched⟩
    | true => cases resetTelemetry <;> exact ⟨_, rfl, rfl⟩
  have hparser : ((serialRun readings ops).resetIoState resetTelemetry resetCounters).parser.buffer
        = [] ∧ ((serialRun readings ops).resetIoState resetTelemetry
          resetCounters).parser.expectedRegisterLength = fun _ => 0 := by
    cases resetCounters <;> cases resetTelemetry <;> exact ⟨rfl, rfl⟩
  obtain ⟨matched, hrequest, hmatched⟩ := hreset
  have hpending := congrArg RegisterRequest.pending hrequest
  simp only [BzmSerialIo.step]
  constructor
  · rw [hrequest]
    refine ⟨fun index => ?_, fun hfalse => (by cases hfalse), fun hfalse => (by cases hfalse),
      hmatched⟩
    rw [hparser.2, if_neg]
    rintro ⟨hfalse, -⟩
    cases hfalse
  · rw [hparser.1]
    exact Nat.zero_lt_succ _
  · rw [hparser.1]
    exact .inl (.inl (Nat.zero_le _))
  · rw [hparser.1]
    exact fun hstarts => absurd hstarts not_startsRegister_nil
  · intro hstill
    cases hpending.symm.trans hstill

theorem emittedSince_of_trace {older newer : BzmFrameParser} {events : List BzmParserEvent}
    (h : newer.trace = events ++ older.trace) : emittedSince older newer = framesOf events := by
  simp [emittedSince, h]

/-- What a feed leaves of the transport. -/
theorem ingestBytes_request (readings : BzmTelemetryReadings) (io : BzmSerialIo)
    (events : List BzmParserEvent) (data : List U8) (timestampUs : U64)
    (h : (io.parser.feed data timestampUs).trace = events ++ io.parser.trace) :
    (io.ingestBytes readings data timestampUs).2.request =
        (framesOf events).foldl RegisterRequest.receive io.request ∧
      (io.ingestBytes readings data timestampUs).2.parser = io.parser.feed data timestampUs := by
  simp only [BzmSerialIo.ingestBytes, emittedSince_of_trace h]
  exact BzmSerialIo.foldl_transportFrameHandler _ _ _

theorem SerialInv.ingest (h : SerialInv readings ops (serialRun readings ops)) (data : List U8)
    (timestampUs : U64) :
    SerialInv readings (ops ++ [.ingestBytes data timestampUs])
      ((serialRun readings ops).step readings (.ingestBytes data timestampUs)) := by
  by_cases hdata : data = []
  · subst hdata
    obtain ⟨hrequest, hparser⟩ :=
      ingestBytes_request readings (serialRun readings ops) [] [] timestampUs rfl
    exact h.quiet rfl rfl hparser hrequest
  -- the story so far, when a request is pending
  obtain ⟨before, later, events, hstory⟩ : ∃ before later events,
      (serialRun readings ops).registerPending = true →
        OwnExpect readings ops before later (serialRun readings ops).registerAsicId
          (serialRun readings ops).registerLength.toNat ∧
        (serialRun readings ops).parser.trace = events ++ (serialRun readings before).parser.trace ∧
        Awaits (Inert (serialRun readings before).parser.buffer) (serialRun readings ops).parser
          (serialRun readings ops).request (framesOf events) (ingestedBytes later) := by
    by_cases hpending : (serialRun readings ops).registerPending = true
    · obtain ⟨before, later, events, hstory⟩ := h.awaits hpending
      exact ⟨before, later, events, fun _ => hstory⟩
    · exact ⟨[], [], [], fun hfalse => absurd hfalse hpending⟩
  have hstart : FeedStory (Inert (serialRun readings before).parser.buffer)
      (serialRun readings ops).request (framesOf events) (ingestedBytes later)
      (serialRun readings ops).parser [] [] :=
    ⟨h.lockstep, fun hpending => by simpa using (hstory hpending).2.2⟩
  obtain ⟨new, htrace, ⟨hlockstep, hawaits⟩, hroom, hsettled⟩ :=
    (feedRule_story _ _ _ _).feed hstart h.room data timestampUs
  obtain ⟨hrequest, hparser⟩ :=
    ingestBytes_request readings (serialRun readings ops) new data timestampUs htrace
  obtain ⟨hpending, hasic, hlength⟩ :=
    RegisterRequest.foldl_receive (serialRun readings ops).request (framesOf new)
  rw [List.nil_append, ← hrequest] at hlockstep hawaits
  rw [← hrequest] at hpending hasic hlength
  rw [← hparser] at hlockstep hawaits hroom hsettled htrace
  have hleft := inert_or_startsRegister (hsettled hdata)
  simp only [BzmSerialIo.step]
  constructor
  · exact hlockstep
  · exact hroom
  · exact hleft.imp_right fun hstarts => hstarts.1
  · intro hstarts
    rcases hleft with hinert | ⟨-, index, hexpected⟩
    · exact absurd hstarts hinert.not_startsRegister
    · have hwaits := (hlockstep.expected_iff index).mp hexpected
      exact .inl ⟨hwaits.1, hwaits.2.1⟩
  · intro hstill
    obtain ⟨hown, hbefore, -⟩ := hstory (hpending.symm.trans hstill)
    refine ⟨before, later ++ [.ingestBytes data timestampUs], new ++ events, ?_, ?_, ?_⟩
    · change OwnExpect readings _ _ _
        ((serialRun readings ops).ingestBytes readings data timestampUs).2.request.asicId
        ((serialRun readings ops).ingestBytes readings data timestampUs).2.request.length.toNat
      rw [hasic, hlength]
      exact hown.snoc (by rw [serialRun_snoc]; exact hstill)
    · rw [htrace, hbefore, List.append_assoc]
    · rw [framesOf_append, ingestedBytes_snoc]
      exact hawaits (hpending.symm.trans hstill)

theorem SerialInv.step (h : SerialInv readings ops (serialRun readings ops)) (op : BzmSerialOp) :
    SerialInv readings (ops ++ [op]) (serialRun readings (ops ++ [op])) := by
  rw [serialRun_snoc]
  cases op with
  | expectRegisterReply asicId payloadLength => exact h.expect asicId payloadLength
  | takeRegisterReply asicId dataLength => exact h.take asicId dataLength
  | cancelRegisterReply asicId => exact h.cancel asicId
  | ingestBytes data timestampUs => exact h.ingest data timestampUs
  | clearPartialFrame => exact h.clear
  | resetIoState resetTelemetry resetCounters => exact h.reset resetTelemetry resetCounters
  | dequeueResult =>
    refine h.quiet trivial rfl ?_ ?_ <;>
    · simp only [BzmSerialIo.step, BzmSerialIo.dequeueResult]
      split <;> rfl
  | discardPendingResults => exact h.quiet trivial rfl rfl rfl
  | startNoop asicId =>
    refine h.quiet trivial rfl ?_ ?_ <;>
    · simp only [BzmSerialIo.step, BzmSerialIo.startNoop]
      split <;> rfl
  | takeNoop =>
    refine h.quiet trivial rfl ?_ ?_ <;>
    · simp only [BzmSerialIo.step, BzmSerialIo.takeNoop]
      split <;> rfl
  | endNoop => exact h.quiet trivial rfl rfl rfl

end

theorem init_serialInv (readings : BzmTelemetryReadings) :
    SerialInv readings [] (serialRun readings []) where
  lockstep := {
    expected := fun _ => rfl
    addressed := fun hpending => (by cases hpending)
    length := fun hpending => (by cases hpending)
    matched := rfl }
  room := Nat.zero_lt_succ _
  settled := .inl (.inl (Nat.zero_le _))
  leftOver hstarts := absurd hstarts not_startsRegister_nil
  awaits hpending := by cases hpending

theorem serialRun_inv (readings : BzmTelemetryReadings) (ops : List BzmSerialOp) :
    SerialInv readings ops (serialRun readings ops) := by
  induction ops using List.reverseRecOn with
  | nil => exact init_serialInv readings
  | append_singleton ops op ih => exact ih.step op

/-- **Register replies are delivered to their request only**, in every interleaving
of the transport's operations. -/
theorem bzmSerial_replies_matched (readings : BzmTelemetryReadings) (ops : List BzmSerialOp) :
    RepliesMatched readings ops := by
  have h := serialRun_inv readings ops
  constructor
  · exact h.lockstep.expected_iff
  · intro index hexpected
    have hwaits := (h.lockstep.expected_iff index).mp hexpected
    rw [h.lockstep.expected index, if_pos hwaits]
    rfl
  · exact h.lockstep.matched
  · intro hpending asicId payloadLength
    rcases expectRegisterReply_cases (serialRun readings ops) asicId payloadLength with
      hrefused | ⟨hfree, -⟩
    · exact hrefused
    · cases hpending.symm.trans hfree
  · intro asicId dataLength data htake
    rcases takeRegisterReply_cases (serialRun readings ops) asicId dataLength with
      hrefused | ⟨hpending, hready, rfl, rfl, htaken⟩
    · rw [hrefused] at htake
      cases htake
    rw [htaken] at htake
    obtain ⟨before, later, events, hown, htrace, hawaits⟩ := h.awaits hpending
    obtain ⟨frame, hfind, hdata, hbytes⟩ := hawaits.ready hready
    have hpayload : data = frame.payload := (Option.some.inj htake).symm.trans hdata
    refine ⟨before, later, frame, hown, ?_, hpayload, ?_⟩
    · rw [emittedSince_of_trace htrace]
      exact hfind
    · have hbefore := serialRun_inv readings before
      rcases hbefore.settled with hinert | hstarts
      · exact .inl (hpayload ▸ hbytes hinert)
      · refine .inr ((hbefore.leftOver hstarts).resolve_left fun hwaits => ?_)
        -- the expect of a pending request would have been refused
        have haccepted := hown.accepted
        rcases expectRegisterReply_cases (serialRun readings before) _ _ with
          hrefused | ⟨hfree, -⟩
        · rw [hrefused] at haccepted
          cases haccepted
        · cases hwaits.1.symm.trans hfree

/-- A cancelled request, whose reply has begun, and a shorter one behind it. -/
def cancelledReply : List BzmSerialOp :=
  [.expectRegisterReply 0x0a#8 4, .ingestBytes [0x0a#8, 0x03#8, 0x11#8] 0,
    .cancelRegisterReply 0x0a#8, .expectRegisterReply 0x0a#8 1, .ingestBytes [0x99#8] 0]

/-- The byte of the cancelled reply is delivered to the request behind it. -/
theorem cancelledReply_delivered :
    ¬∀ (readings : BzmTelemetryReadings) (ops : List BzmSerialOp) (asicId : U8) (dataLength : Nat)
      (data : List U8),
      ((serialRun readings ops).takeRegisterReply asicId dataLength).1 = some data →
      ∃ before later, OwnExpect readings ops before later asicId dataLength ∧
        data <:+: ingestedBytes later := by
  intro hclaim
  have htake : ((serialRun ⟨fun _ => .ofNat 0, fun _ => .ofNat 0⟩ cancelledReply).takeRegisterReply
      0x0a#8 1).1 = some [0x11#8] := by decide +kernel
  obtain ⟨before, later, hown, hbytes⟩ := hclaim _ _ _ _ _ htake
  -- the request of one byte has one expect in the run
  have hget : cancelledReply[before.length]? = some (.expectRegisterReply 0x0a#8 1) := by
    rw [hown.split]
    simp
  have hdrop : cancelledReply.drop (before.length + 1) = later := by
    rw [hown.split]
    simp
  have hlength : before.length < 5 := by
    have := congrArg List.length hown.split
    simp [cancelledReply] at this
    omega
  have hindex : ∀ index, index < 5 →
      cancelledReply[index]? = some (.expectRegisterReply 0x0a#8 1) → index = 3 := by decide
  rw [hindex _ hlength hget] at hdrop
  subst hdrop
  revert hbytes
  decide

end EspMiner
