import EspMiner.Bzm.Bridge
import Mathlib.Data.List.GetD

/-!
# Which reply a call gets

What a call reads is the stream of the bridge from the call's flush on.  If the flush found whole
replies only, the call reads a whole reply, and the command id tells whether it is its own.  Hence
over any run where no reply is under way at a flush, a returned payload answers the call's own
request; a reply cut in two by a flush is taken for another one.
-/

namespace EspMiner

open Library

/-! ## Frames -/

theorem BridgeReply.length_frame (reply : BridgeReply) :
    reply.frame.length = reply.payload.length + 3 := by
  simp [BridgeReply.frame]

/-- A header of three bytes decides the declared length. -/
theorem declaredLength_append {frame : List U8} (h : 3 ≤ frame.length) (rest : List U8) :
    declaredLength (frame ++ rest) = declaredLength frame := by
  unfold declaredLength
  rw [List.getD_append _ _ _ _ (by omega), List.getD_append _ _ _ _ (by omega)]

theorem BridgeReply.declaredLength_frame {reply : BridgeReply}
    (h : reply.payload.length + 3 < 2 ^ 16) :
    declaredLength reply.frame = reply.frame.length := by
  have hlow : (reply.payload.length + 3) % 256 < 2 ^ 8 := Nat.mod_lt _ (by decide)
  have hhigh : (reply.payload.length + 3) / 256 % 256 = (reply.payload.length + 3) / 256 :=
    Nat.mod_eq_of_lt (by omega)
  rw [reply.length_frame]
  simp only [declaredLength, BridgeReply.frame, List.cons_append, List.getD_cons_zero,
    List.getD_cons_succ, BitVec.toNat_ofNat]
  rw [Nat.or_comm, ← Nat.shiftLeft_add_eq_or_of_lt hlow, Nat.shiftLeft_eq]
  omega

/-- The id of a request frame is the command id. -/
theorem bzmBridgeEncodeRequest_id {id page command : U8} {payload frame : List U8}
    {encodedCapacity : Nat}
    (h : bzmBridgeEncodeRequest id page command payload encodedCapacity = some frame) :
    frame.getD 2 0 = id := by
  unfold bzmBridgeEncodeRequest at h
  dsimp only at h
  split at h
  · cases h
  · cases h
    rfl

/-- What is decoded from a reply. -/
theorem bzmBridgeDecodeResponse_frame {reply : BridgeReply} {expectedId : U8} {payload : List U8}
    (h : bzmBridgeDecodeResponse expectedId reply.frame = .ok payload) :
    reply.request.frame.getD 2 0 = expectedId ∧ payload = reply.payload := by
  unfold bzmBridgeDecodeResponse at h
  split at h
  · cases h
  · split at h
    · cases h
    · next hheader =>
      obtain ⟨-, hid⟩ := not_or.mp hheader
      refine ⟨not_not.mp hid, ?_⟩
      dsimp only at h
      split at h
      · cases h
      · split at h
        · cases h
        · split at h <;> cases h
          rfl

namespace BridgeLink

variable {s : BridgeLink}

theorem replyAt_append {replies : List BridgeReply} {position : Nat}
    (h : position < (replies.flatMap BridgeReply.frame).length) (more : List BridgeReply) :
    replyAt (replies ++ more) position = replyAt replies position := by
  induction replies generalizing position with
  | nil => cases h
  | cons reply replies ih =>
    rw [List.cons_append, replyAt, replyAt]
    split
    · rfl
    · rw [List.flatMap_cons, List.length_append] at h
      exact ih (by omega)

/-- At the boundary of a reply, the next byte is the first one of the next. -/
theorem replyAt_boundary {before after : List BridgeReply} {reply : BridgeReply} :
    replyAt (before ++ reply :: after) (before.flatMap BridgeReply.frame).length = some reply := by
  induction before with
  | nil =>
    have hpos : 0 < reply.frame.length := by rw [reply.length_frame]; omega
    rw [List.nil_append, replyAt]
    exact if_pos hpos
  | cons first before ih =>
    rw [List.cons_append, replyAt, List.flatMap_cons, List.length_append, if_neg (by omega),
      Nat.add_sub_cancel_left]
    exact ih

/-- What the call in progress has read and will read. -/
structure CallOk (s : BridgeLink) (c : BridgeCall) : Prop where
  call : c.call + 1 = s.calls
  commandId : c.commandId = BitVec.ofNat 8 c.call
  position : c.flushedAt + c.response.length + s.fifo.length = s.arrived
  response : c.response ++ s.fifo =
    slice s.stream c.flushedAt (c.response.length + s.fifo.length)
  aligned : .flushed c.call false ∈ s.trace →
    ∃ n ≤ s.replies.length, ((s.replies.take n).flatMap BridgeReply.frame).length = c.flushedAt
  recent : ∀ position, c.flushedAt ≤ position → position < s.arrived →
    ∀ reply ∈ replyAt s.replies position, s.calls ≤ reply.request.call + 256

/-- What holds between any two steps. -/
structure LinkOk (s : BridgeLink) : Prop where
  nextCommandId : s.nextCommandId = BitVec.ofNat 8 s.calls
  order : (s.replies.map BridgeReply.request ++ s.pending).Pairwise fun first second =>
    first.call < second.call
  requests : ∀ request ∈ s.replies.map BridgeReply.request ++ s.pending,
    request.call < s.calls ∧ request.frame.getD 2 0 = BitVec.ofNat 8 request.call
  lengths : ∀ reply ∈ s.replies, reply.payload.length + 3 < 2 ^ 16
  arrived : s.arrived ≤ s.stream.length
  current : ∀ c, s.current = some c →
    CallOk s c ∧ (3 ≤ c.response.length → c.response.length < declaredLength c.response)
  flushes : ∀ call cut, .flushed call cut ∈ s.trace → call < s.calls
  returns : ∀ call payload, .returned call (.ok payload) ∈ s.trace → .flushed call false ∈ s.trace →
    ∃ reply ∈ s.replies, reply.request.call = call ∧ reply.payload = payload
  returned : ∀ call result, .returned call result ∈ s.trace → call < s.calls

/-- **A whole response is the reply to its request**, if the flush of the call did
not cut a reply. -/
theorem CallOk.reply (hlink : LinkOk s) {c : BridgeCall} (h : CallOk s c)
    (hheader : 3 ≤ c.response.length) (hlength : c.response.length = declaredLength c.response)
    (hflushed : .flushed c.call false ∈ s.trace) {payload : List U8}
    (hdecoded : bzmBridgeDecodeResponse c.commandId c.response = .ok payload) :
    ∃ reply ∈ s.replies, reply.request.call = c.call ∧ reply.payload = payload := by
  obtain ⟨n, hn, hboundary⟩ := h.aligned hflushed
  have harrived := hlink.arrived
  have hposition := h.position
  have hsplit : s.replies = s.replies.take n ++ s.replies.drop n := (List.take_append_drop n _).symm
  cases hafter : s.replies.drop n with
  | nil =>
    -- nothing was sent after the flush
    rw [hafter, List.append_nil] at hsplit
    rw [← hsplit] at hboundary
    have : s.stream.length = c.flushedAt := hboundary
    omega
  | cons reply after =>
    rw [hafter] at hsplit
    have hstream : s.stream.drop c.flushedAt =
        reply.frame ++ after.flatMap BridgeReply.frame := by
      unfold stream
      conv_lhs => rw [hsplit]
      rw [List.flatMap_append, List.flatMap_cons, ← hboundary, List.drop_left]
    have hmem : reply ∈ s.replies := by
      rw [hsplit]
      exact List.mem_append_right _ List.mem_cons_self
    have hread : c.response = (reply.frame ++ after.flatMap BridgeReply.frame).take
        c.response.length := by
      have hresponse := congrArg (List.take c.response.length) h.response
      rw [List.take_left, slice, List.take_take, Nat.min_eq_left (by omega), hstream] at hresponse
      exact hresponse
    have hframe : 3 ≤ reply.frame.length := by rw [reply.length_frame]; omega
    have hdeclared : c.response.length = reply.frame.length := by
      rw [← BridgeReply.declaredLength_frame (hlink.lengths reply hmem),
        ← declaredLength_append hframe (after.flatMap BridgeReply.frame), hlength]
      conv_rhs => rw [← List.take_append_drop c.response.length (reply.frame ++ _), ← hread]
      rw [declaredLength_append hheader]
    have hwhole : c.response = reply.frame := by
      rw [hread, hdeclared, List.take_left]
    rw [hwhole] at hdecoded
    obtain ⟨hid, hpayload⟩ := bzmBridgeDecodeResponse_frame hdecoded
    refine ⟨reply, hmem, ?_, hpayload.symm⟩
    -- the ids agree, and the calls are less than a turn of the ids apart
    have hat : replyAt s.replies c.flushedAt = some reply := by
      rw [hsplit, ← hboundary]
      exact replyAt_boundary
    have hrecent := h.recent c.flushedAt (Nat.le_refl _) (by omega) reply hat
    obtain ⟨hbefore, hrequestId⟩ := hlink.requests reply.request
      (List.mem_append_left _ (List.mem_map_of_mem hmem))
    have hcall := h.call
    rw [hrequestId, h.commandId] at hid
    have hsame := congrArg BitVec.toNat hid
    rw [BitVec.toNat_ofNat, BitVec.toNat_ofNat] at hsame
    omega

/-! ## Steps of a call -/

/-- A call returns. -/
theorem LinkOk.finish (h : LinkOk s) {call : Nat}
    {result : Except EspErr (List U8)} (hcall : call < s.calls)
    (hresult : ∀ payload, result = .ok payload → .flushed call false ∈ s.trace →
      ∃ reply ∈ s.replies, reply.request.call = call ∧ reply.payload = payload) :
    LinkOk (s.finish call result) := by
  have hflushed {other : Nat} {cut : Bool}
      (hmem : .flushed other cut ∈ (s.finish call result).trace) : .flushed other cut ∈ s.trace :=
    (List.mem_cons.mp hmem).resolve_left BridgeEvent.noConfusion
  refine ⟨h.nextCommandId, h.order, h.requests, h.lengths, h.arrived, nofun,
    fun other cut hmem => h.flushes other cut (hflushed hmem), fun other payload hmem hcut => ?_,
    fun other outcome hmem => ?_⟩
  · rcases List.mem_cons.mp hmem with hnew | hbefore
    · obtain ⟨rfl, rfl⟩ := BridgeEvent.returned.inj hnew
      exact hresult payload rfl (hflushed hcut)
    · exact h.returns other payload hbefore (hflushed hcut)
  · rcases List.mem_cons.mp hmem with hnew | hbefore
    · obtain ⟨rfl, -⟩ := BridgeEvent.returned.inj hnew
      exact hcall
    · exact h.returned other outcome hbefore

theorem LinkOk.fail (h : LinkOk s) {call : Nat} (hcall : call < s.calls) (err : EspErr) :
    LinkOk (s.finish call (.error err)) :=
  h.finish hcall nofun

/-- A call draws a command id. -/
theorem LinkOk.draw (h : LinkOk s) (hidle : s.current = none) :
    LinkOk { s with nextCommandId := s.nextCommandId + 1, calls := s.calls + 1 } := by
  refine ⟨?_, h.order, fun request hmem => ?_, h.lengths, h.arrived,
    fun c hcurrent => (nomatch hidle.symm.trans hcurrent),
    fun call cut hmem => Nat.lt_succ_of_lt (h.flushes call cut hmem), h.returns,
    fun call result hmem => Nat.lt_succ_of_lt (h.returned call result hmem)⟩
  · show s.nextCommandId + 1 = BitVec.ofNat 8 (s.calls + 1)
    rw [h.nextCommandId, BitVec.ofNat_add]
    rfl
  · obtain ⟨hlt, hid⟩ := h.requests request hmem
    exact ⟨Nat.lt_succ_of_lt hlt, hid⟩

/-- A call flushes the input. -/
theorem LinkOk.flush (h : LinkOk s) (hidle : s.current = none) {call : Nat} (hcall : call < s.calls)
    (hnew : ∀ result, .returned call result ∉ s.trace) (cut : Bool) :
    LinkOk { s.record (.flushed call cut) with fifo := [] } := by
  refine ⟨h.nextCommandId, h.order, h.requests, h.lengths, h.arrived,
    fun c hcurrent => (nomatch hidle.symm.trans hcurrent), fun other otherCut hmem => ?_,
    fun other payload hmem hflushed => ?_, fun other result hmem => ?_⟩
  · rcases List.mem_cons.mp hmem with heq | hbefore
    · obtain ⟨rfl, -⟩ := BridgeEvent.flushed.inj heq
      exact hcall
    · exact h.flushes other otherCut hbefore
  · have hbefore := (List.mem_cons.mp hmem).resolve_left BridgeEvent.noConfusion
    rcases List.mem_cons.mp hflushed with heq | hold
    · obtain ⟨rfl, -⟩ := BridgeEvent.flushed.inj heq
      exact absurd hbefore (hnew _)
    · exact h.returns other payload hbefore hold
  · exact h.returned other result ((List.mem_cons.mp hmem).resolve_left BridgeEvent.noConfusion)

/-- The bridge gets a request. -/
theorem LinkOk.enqueue (h : LinkOk s) (hidle : s.current = none) {request : BridgeRequest}
    (hlast : ∀ other ∈ s.replies.map BridgeReply.request ++ s.pending, other.call < request.call)
    (hcall : request.call < s.calls) (hid : request.frame.getD 2 0 = BitVec.ofNat 8 request.call) :
    LinkOk { s with pending := s.pending ++ [request] } := by
  refine ⟨h.nextCommandId, ?_, ?_, h.lengths, h.arrived,
    fun c hcurrent => (nomatch hidle.symm.trans hcurrent), h.flushes, h.returns, h.returned⟩
  · show (s.replies.map BridgeReply.request ++ (s.pending ++ [request])).Pairwise _
    rw [← List.append_assoc]
    refine List.pairwise_append.mpr ⟨h.order, List.pairwise_singleton _ _, ?_⟩
    intro other hother last hmem
    cases List.mem_singleton.mp hmem
    exact hlast other hother
  · show ∀ other ∈ s.replies.map BridgeReply.request ++ (s.pending ++ [request]), _
    rw [← List.append_assoc]
    intro other hother
    rcases List.mem_append.mp hother with hbefore | hnew
    · exact h.requests other hbefore
    · cases List.mem_singleton.mp hnew
      exact ⟨hcall, hid⟩

theorem LinkOk.begin (h : LinkOk s) (ready : Bool) (page command : U8) (requestPayload : List U8)
    (responseCapacity : Nat) (responsePayload : Bool) (send : BridgeSend) :
    LinkOk (s.begin ready page command requestPayload responseCapacity responsePayload send) := by
  unfold BridgeLink.begin
  split
  · exact h
  · next hidle =>
    split
    · refine ⟨h.nextCommandId, h.order, h.requests, h.lengths, h.arrived,
        fun c hcurrent => (nomatch hidle.symm.trans hcurrent), fun call cut hmem => ?_,
        fun call payload hmem hcut => ?_, fun call result hmem => ?_⟩
      · exact h.flushes call cut ((List.mem_cons.mp hmem).resolve_left BridgeEvent.noConfusion)
      · exact h.returns call payload
          ((List.mem_cons.mp hmem).resolve_left BridgeEvent.noConfusion)
          ((List.mem_cons.mp hcut).resolve_left BridgeEvent.noConfusion)
      · exact h.returned call result ((List.mem_cons.mp hmem).resolve_left BridgeEvent.noConfusion)
    · have hdrawn := h.draw hidle
      dsimp only
      split
      · exact hdrawn.fail (Nat.lt_succ_self _) _
      · next request hrequest =>
        have hflushed := hdrawn.flush hidle (Nat.lt_succ_self s.calls)
          (fun result hmem => Nat.lt_irrefl _ (h.returned _ result hmem))
          (decide (¬ AtBoundary
            { s with nextCommandId := s.nextCommandId + 1, calls := s.calls + 1 }))
        have hid : request.getD 2 0 = BitVec.ofNat 8 s.calls :=
          (bzmBridgeEncodeRequest_id hrequest).trans h.nextCommandId
        let sent : BridgeRequest := { call := s.calls, frame := request }
        have hlast (other : BridgeRequest)
            (hother : other ∈ s.replies.map BridgeReply.request ++ s.pending) :
            other.call < sent.call := (h.requests other hother).1
        have hsent := hflushed.enqueue hidle hlast (Nat.lt_succ_self _) hid
        split
        · exact hflushed.fail (Nat.lt_succ_self _) _
        · exact hsent.fail (Nat.lt_succ_self _) _
        · refine ⟨hsent.nextCommandId, hsent.order, hsent.requests, hsent.lengths, hsent.arrived,
            fun c hcurrent => ?_, hsent.flushes, hsent.returns, hsent.returned⟩
          cases hcurrent
          refine ⟨⟨rfl, h.nextCommandId, rfl, rfl, fun hmem => ?_, fun position hge hlt =>
            absurd hlt (Nat.not_lt.mpr hge)⟩, fun hheader => nomatch hheader⟩
          rcases List.mem_cons.mp hmem with hcut | hbefore
          · obtain ⟨-, hfalse⟩ := BridgeEvent.flushed.inj hcut
            exact not_not.mp (of_decide_eq_false hfalse.symm)
          · exact absurd (h.flushes _ _ hbefore) (Nat.lt_irrefl _)

/-- The call waits for more. -/
theorem LinkOk.wait {c : BridgeCall} (h : LinkOk { s with current := none })
    (hcall : CallOk s c)
    (hmore : 3 ≤ c.response.length → c.response.length < declaredLength c.response) :
    LinkOk { s with current := some c } := by
  refine ⟨h.nextCommandId, h.order, h.requests, h.lengths, h.arrived, fun other hcurrent => ?_,
    h.flushes, h.returns, h.returned⟩
  cases hcurrent
  exact ⟨⟨hcall.call, hcall.commandId, hcall.position, hcall.response, hcall.aligned,
    hcall.recent⟩, hmore⟩

/-- The call goes on with what it has read. -/
theorem LinkOk.advance {c : BridgeCall} (h : LinkOk { s with current := none })
    (hcall : CallOk s c)
    (hread : 3 < c.response.length → c.response.length ≤ declaredLength c.response) :
    LinkOk (s.advance c) := by
  have hlt : c.call < s.calls := by
    have := hcall.call
    omega
  unfold BridgeLink.advance
  split
  · next hshort => exact h.wait hcall fun hheader => absurd hheader (Nat.not_le.mpr hshort)
  · next hheader =>
    dsimp only
    split
    · exact h.fail hlt .invalidResponse
    · next hrange =>
      split
      · next hmore => exact h.wait hcall fun _ => hmore
      · refine h.finish hlt fun payload hresult hflushed => ?_
        have hlength : c.response.length = declaredLength c.response := by omega
        have hcall' : CallOk { s with current := none } c :=
          ⟨hcall.call, hcall.commandId, hcall.position, hcall.response, hcall.aligned, hcall.recent⟩
        refine hcall'.reply h (by omega) hlength hflushed ?_
        unfold responseResult at hresult
        split at hresult
        · cases hresult
        · next decoded hdecoded =>
          split at hresult
          · cases hresult
          · rw [← Except.ok.inj hresult]
            exact hdecoded

theorem LinkOk.readBytes (h : LinkOk s) (available : Nat) : LinkOk (s.readBytes available) := by
  unfold BridgeLink.readBytes
  split
  · exact h
  · next c hcurrent =>
    dsimp only
    generalize hreceived : min (wanted c) (min available s.fifo.length) = received
    obtain ⟨hcall, hmore⟩ := h.current c hcurrent
    have hposition := hcall.position
    have hlength : (c.response ++ s.fifo.take received).length = c.response.length + received := by
      rw [List.length_append, List.length_take, Nat.min_eq_left (by omega)]
    have htotal : (c.response ++ s.fifo.take received).length + (s.fifo.drop received).length =
        c.response.length + s.fifo.length := by
      rw [hlength, List.length_drop]
      omega
    refine LinkOk.advance ?_ ⟨hcall.call, hcall.commandId, ?_, ?_, hcall.aligned, hcall.recent⟩ ?_
    · exact ⟨h.nextCommandId, h.order, h.requests, h.lengths, h.arrived, nofun, h.flushes,
        h.returns, h.returned⟩
    · show c.flushedAt + (c.response ++ s.fifo.take received).length +
        (s.fifo.drop received).length = s.arrived
      omega
    · show (c.response ++ s.fifo.take received) ++ s.fifo.drop received =
        slice s.stream c.flushedAt
          ((c.response ++ s.fifo.take received).length + (s.fifo.drop received).length)
      rw [htotal, List.append_assoc, List.take_append_drop]
      exact hcall.response
    · show 3 < (c.response ++ s.fifo.take received).length →
        (c.response ++ s.fifo.take received).length ≤
          declaredLength (c.response ++ s.fifo.take received)
      -- no more is read than the header, and then than the declared length
      intro hheader
      unfold wanted at hreceived
      split at hreceived
      · omega
      · next hread =>
        have hbound := hmore (by omega)
        rw [declaredLength_append (by omega)]
        omega

theorem LinkOk.giveUp (h : LinkOk s) (failed : Bool) : LinkOk (s.giveUp failed) := by
  unfold BridgeLink.giveUp
  split
  · exact h
  · next c hcurrent =>
    have hcall := (h.current c hcurrent).1.call
    exact h.fail (by omega) _

/-- A reply more leaves what has been sent where it is. -/
theorem CallOk.answer {c : BridgeCall} (h : CallOk s c) (hlink : LinkOk s) (reply : BridgeReply)
    (pending : List BridgeRequest) :
    CallOk { s with pending := pending, replies := s.replies ++ [reply] } c := by
  have hposition := h.position
  have harrived := hlink.arrived
  refine ⟨h.call, h.commandId, h.position, ?_, fun hflushed => ?_, fun position hge hlt => ?_⟩
  · show _ = slice ((s.replies ++ [reply]).flatMap BridgeReply.frame) _ _
    rw [List.flatMap_append, slice_append]
    · exact h.response
    · show c.flushedAt + (c.response.length + s.fifo.length) ≤ s.stream.length
      omega
  · obtain ⟨n, hn, hboundary⟩ := h.aligned hflushed
    refine ⟨n, ?_, ?_⟩
    · show n ≤ (s.replies ++ [reply]).length
      rw [List.length_append]
      omega
    · show (((s.replies ++ [reply]).take n).flatMap BridgeReply.frame).length = c.flushedAt
      rw [List.take_append_of_le_length hn]
      exact hboundary
  · show ∀ other ∈ replyAt (s.replies ++ [reply]) position, _
    rw [replyAt_append (Nat.lt_of_lt_of_le hlt harrived)]
    exact h.recent position hge hlt

theorem LinkOk.answer (h : LinkOk s) {payload : List U8} (hpayload : payload.length + 3 < 2 ^ 16) :
    LinkOk (s.answer payload) := by
  unfold BridgeLink.answer
  split
  · exact h
  · next request pending hpending =>
    let reply : BridgeReply := { request := request, payload := payload }
    have hqueue : (s.replies ++ [reply]).map BridgeReply.request ++ pending =
        s.replies.map BridgeReply.request ++ s.pending := by
      rw [hpending, List.map_append, List.append_assoc]
      rfl
    refine ⟨h.nextCommandId, ?_, ?_, fun other hother => ?_, ?_, fun c hcurrent => ?_, h.flushes,
      fun call result hreturned hflushed => ?_, h.returned⟩
    · show ((s.replies ++ [reply]).map BridgeReply.request ++ pending).Pairwise _
      rw [hqueue]
      exact h.order
    · show ∀ other ∈ (s.replies ++ [reply]).map BridgeReply.request ++ pending, _
      rw [hqueue]
      exact h.requests
    · rcases List.mem_append.mp hother with hbefore | hnew
      · exact h.lengths other hbefore
      · cases List.mem_singleton.mp hnew
        exact hpayload
    · show s.arrived ≤ ((s.replies ++ [reply]).flatMap BridgeReply.frame).length
      rw [List.flatMap_append, List.length_append]
      exact Nat.le_add_right_of_le h.arrived
    · obtain ⟨hcall, hmore⟩ := h.current c hcurrent
      exact ⟨hcall.answer h reply pending, hmore⟩
    · obtain ⟨other, hother, hreply⟩ := h.returns call result hreturned hflushed
      exact ⟨other, List.mem_append_left _ hother, hreply⟩

theorem LinkOk.arrive (h : LinkOk s)
    (hrecent : ∀ reply ∈ replyAt s.replies s.arrived, s.calls ≤ reply.request.call + 256) :
    LinkOk s.arrive := by
  unfold BridgeLink.arrive
  split
  · exact h
  · next byte hbyte =>
    obtain ⟨hlt, hget⟩ := List.getElem?_eq_some_iff.mp hbyte
    refine ⟨h.nextCommandId, h.order, h.requests, h.lengths, hlt, fun c hcurrent => ?_, h.flushes,
      h.returns, h.returned⟩
    obtain ⟨hcall, hmore⟩ := h.current c hcurrent
    have hposition := hcall.position
    refine ⟨⟨hcall.call, hcall.commandId, ?_, ?_, hcall.aligned, fun position hge hbefore => ?_⟩,
      hmore⟩
    · show c.flushedAt + c.response.length + (s.fifo ++ [byte]).length = s.arrived + 1
      rw [List.length_append, ← hposition]
      rfl
    · show c.response ++ (s.fifo ++ [byte]) =
        slice s.stream c.flushedAt (c.response.length + (s.fifo ++ [byte]).length)
      have hend : c.flushedAt + (c.response.length + s.fifo.length) = s.arrived := by omega
      rw [List.length_append, List.length_singleton, ← Nat.add_assoc, slice_succ (by omega),
        ← hcall.response, List.append_assoc]
      simp only [hend, hget]
    · show ∀ reply ∈ replyAt s.replies position, s.calls ≤ reply.request.call + 256
      rcases Nat.lt_succ_iff_lt_or_eq.mp hbefore with hold | rfl
      · exact hcall.recent position hge hold
      · exact hrecent

theorem LinkOk.step (input : Input) (h : LinkOk s) (hok : LinkAllowed s input) :
    LinkOk (s.step input) := by
  cases input with
  | begin ready page command requestPayload responseCapacity responsePayload send =>
    exact h.begin ready page command requestPayload responseCapacity responsePayload send
  | read available => exact h.readBytes available
  | giveUp failed => exact h.giveUp failed
  | answer payload => exact h.answer hok
  | arrive => exact h.arrive hok

theorem LinkOk.initial : LinkOk initial :=
  ⟨rfl, .nil, fun _ h => (nomatch h), fun _ h => (nomatch h), Nat.le_refl _, nofun,
    fun _ _ h => (nomatch h), fun _ _ h => (nomatch h), fun _ _ h => (nomatch h)⟩

/-- **A reply belongs to its request**: a call that returns `ESP_OK` delivers the
payload of the bridge's reply to it, if its `uart_flush_input` did not cut a
reply. -/
theorem returned_reply_is_own {inputs : List Input} (hok : Guarded step LinkAllowed initial inputs)
    {call : Nat} {payload : List U8}
    (hreturned : .returned call (.ok payload) ∈ (run step initial inputs).trace)
    (hflushed : .flushed call false ∈ (run step initial inputs).trace) :
    ∃ reply ∈ (run step initial inputs).replies,
      reply.request.call = call ∧ reply.payload = payload :=
  (hok.invariant step (fun _ input h hinput => h.step input hinput) LinkOk.initial).returns
    call payload hreturned hflushed

/-- A request without payload for a response of one byte. -/
def request : Input := .begin true 0 0 [] 1 true .sent

/-- The first call gives up after four of the eight bytes of its reply.  The rest
has the form of a reply to the second call. -/
def cutReplyInputs : List Input :=
  [request, .answer [0, 4, 0, 1, 42], .arrive, .arrive, .arrive, .arrive, .read 4, .giveUp false,
    request, .arrive, .arrive, .arrive, .arrive, .answer [0], .read 3, .read 1]

/-- **The rest of a late reply passes for the reply to the next call**, which
returns a byte that the bridge has not sent to it. -/
theorem cut_reply_returned_to_next_call :
    Guarded step LinkAllowed initial cutReplyInputs ∧
      .returned 1 (.ok [42]) ∈ (run step initial cutReplyInputs).trace ∧
      (run step initial cutReplyInputs).replies.filter (fun reply => reply.request.call = 1) =
        [{ request := { call := 1, frame := [6, 0, 1, 0, 0, 0] }, payload := [0] }] :=
  ⟨by decide +kernel, List.mem_cons_self, by decide +kernel⟩

/-- The first call gives up, and its reply has arrived whole when the second one
flushes it. -/
theorem returned_reply_is_own_of_late_reply :
    ∃ reply ∈ (run step initial [request, .answer [7], .giveUp false, .arrive, .arrive, .arrive,
        .arrive, request, .answer [9], .arrive, .arrive, .arrive, .arrive, .read 3,
        .read 1]).replies,
      reply.request.call = 1 ∧ reply.payload = [9] :=
  returned_reply_is_own (by decide +kernel) List.mem_cons_self
    (List.mem_cons_of_mem _ List.mem_cons_self)

end BridgeLink

end EspMiner
