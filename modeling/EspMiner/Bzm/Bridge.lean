import EspMiner.Library.Ring
import EspMiner.Library.Run
import EspMiner.Stratum.Work

/-!
# The control link of the bridge

`transact` of `components/asic/bzm_bridge.c` with the bridge at the other end of
the UART.  Calls are serialised by `BRIDGE_LOCK`.  The bridge answers the complete
requests that it has got in their order, its bytes arrive one by one after any
delay, and a call reads what has arrived since its flush until it times out.

A call is known by its number among the calls that drew a command id.
-/

namespace EspMiner

open Library

def BZM_BRIDGE_MAX_REQUEST_SIZE : Nat := 64

def BZM_BRIDGE_MAX_RESPONSE_SIZE : Nat := 260

/-- The failures among `esp_err_t` that occur here. -/
inductive EspErr where
  | fail
  | noMem
  | invalidArg
  | invalidState
  | invalidSize
  | invalidResponse
  | timeout
  | notSupported
deriving DecidableEq, Repr

/-- `bzm_bridge_encode_request`; `none` is a length of zero. -/
def bzmBridgeEncodeRequest (id page command : U8) (payload : List U8) (encodedCapacity : Nat) :
    Option (List U8) :=
  let frameLength := payload.length + 6
  if 0xffff < frameLength ∨ encodedCapacity < frameLength then none
  else
    some ([BitVec.ofNat 8 frameLength, BitVec.ofNat 8 (frameLength / 256), id, 0, page, command] ++
      payload)

/-- The length that the first two bytes of a frame declare. -/
def declaredLength (frame : List U8) : Nat :=
  (frame.getD 0 0).toNat ||| (frame.getD 1 0).toNat <<< 8

/-- `bzm_bridge_decode_response` -/
def bzmBridgeDecodeResponse (expectedId : U8) (frame : List U8) : Except EspErr (List U8) :=
  if frame.length < 3 then .error .invalidArg
  else if declaredLength frame ≠ frame.length ∨ frame.getD 2 0 ≠ expectedId then
    .error .invalidResponse
  else
    let payload := frame.drop 3
    if payload = [0x10] then .error .timeout
    else if payload = [0x11] then .error .notSupported
    else if payload = [0x12] ∨ payload = [0x13] then .error .invalidState
    else .ok payload

/-- A request that the bridge has got. -/
structure BridgeRequest where
  call : Nat
  frame : List U8
deriving DecidableEq, Repr

structure BridgeReply where
  request : BridgeRequest
  payload : List U8
deriving DecidableEq, Repr

/-- The frame of a reply carries the id of its request. -/
def BridgeReply.frame (reply : BridgeReply) : List U8 :=
  let frameLength := reply.payload.length + 3
  [BitVec.ofNat 8 frameLength, BitVec.ofNat 8 (frameLength / 256),
    reply.request.frame.getD 2 0] ++ reply.payload

/-- What happened.  A flush cuts a reply if some of its bytes have arrived and
some have not. -/
inductive BridgeEvent where
  | refused
  | flushed (call : Nat) (cut : Bool)
  | returned (call : Nat) (result : Except EspErr (List U8))

/-- A call that has sent its request, with what it has read of the response.
`flushedAt` is the number of bytes that had arrived before its flush. -/
structure BridgeCall where
  call : Nat
  commandId : U8
  responseCapacity : Nat
  responsePayload : Bool
  flushedAt : Nat
  response : List U8
deriving DecidableEq, Repr

/-- How far a request gets: `uart_write_bytes` fails, `uart_wait_tx_done` fails
though the request goes out, or neither. -/
inductive BridgeSend where
  | failed
  | notDone
  | sent
deriving DecidableEq, Repr

/-- Both ends of the link.  `replies` are all replies that the bridge has sent,
and `arrived` counts the bytes of them that have arrived; `fifo` are those that
nobody has read. -/
structure BridgeLink where
  nextCommandId : U8
  calls : Nat
  pending : List BridgeRequest
  replies : List BridgeReply
  arrived : Nat
  fifo : List U8
  current : Option BridgeCall
  trace : List BridgeEvent

namespace BridgeLink

/-- The bytes that the bridge has sent. -/
def stream (s : BridgeLink) : List U8 := s.replies.flatMap BridgeReply.frame

def record (s : BridgeLink) (event : BridgeEvent) : BridgeLink :=
  { s with trace := event :: s.trace }

/-- The replies before some point are those that have arrived. -/
def AtBoundary (s : BridgeLink) : Prop :=
  ∃ n ≤ s.replies.length, ((s.replies.take n).flatMap BridgeReply.frame).length = s.arrived

instance (s : BridgeLink) : Decidable s.AtBoundary :=
  decidable_of_iff (∃ n < s.replies.length + 1,
      ((s.replies.take n).flatMap BridgeReply.frame).length = s.arrived)
    ⟨fun ⟨n, hn, heq⟩ => ⟨n, Nat.le_of_lt_succ hn, heq⟩,
      fun ⟨n, hn, heq⟩ => ⟨n, Nat.lt_succ_of_le hn, heq⟩⟩

/-- The call is over. -/
def finish (s : BridgeLink) (call : Nat) (result : Except EspErr (List U8)) : BridgeLink :=
  { s.record (.returned call result) with current := none }

/-- `transact` up to the reads.  `ready` is `INITIALIZED && !MAINTENANCE`. -/
def begin (s : BridgeLink) (ready : Bool) (page command : U8) (requestPayload : List U8)
    (responseCapacity : Nat) (responsePayload : Bool) (send : BridgeSend) : BridgeLink :=
  match s.current with
  | some _ => s
  | none =>
      if ready = false then s.record .refused
      else
        let call := s.calls
        let commandId := s.nextCommandId
        let s := { s with nextCommandId := commandId + 1, calls := call + 1 }
        match bzmBridgeEncodeRequest commandId page command requestPayload
            BZM_BRIDGE_MAX_REQUEST_SIZE with
        | none => s.finish call (.error .invalidSize)
        | some request =>
            let s := { s.record (.flushed call (decide (¬ s.AtBoundary))) with fifo := [] }
            let sent : BridgeRequest := { call := call, frame := request }
            match send with
            | .failed => s.finish call (.error .fail)
            | .notDone =>
                { s with pending := s.pending ++ [sent] }.finish call (.error .timeout)
            | .sent =>
                { s with
                  pending := s.pending ++ [sent]
                  current := some
                    { call := call
                      commandId := commandId
                      responseCapacity := responseCapacity
                      responsePayload := responsePayload
                      flushedAt := s.arrived
                      response := [] } }

/-- The result of a whole response. -/
def responseResult (c : BridgeCall) : Except EspErr (List U8) :=
  match bzmBridgeDecodeResponse c.commandId c.response with
  | .error err => .error err
  | .ok payload =>
      if c.responseCapacity < payload.length ∨ (payload ≠ [] ∧ c.responsePayload = false) then
        .error .invalidSize
      else .ok payload

/-- The number of bytes that the call still wants to read. -/
def wanted (c : BridgeCall) : Nat :=
  if c.response.length < 3 then 3 - c.response.length
  else declaredLength c.response - c.response.length

/-- What the call does with what it has read: the header is checked as soon as it
is there. -/
def advance (s : BridgeLink) (c : BridgeCall) : BridgeLink :=
  if c.response.length < 3 then { s with current := some c }
  else
    let frameLength := declaredLength c.response
    if frameLength < 3 ∨ BZM_BRIDGE_MAX_RESPONSE_SIZE < frameLength then
      s.finish c.call (.error .invalidResponse)
    else if c.response.length < frameLength then { s with current := some c }
    else s.finish c.call (responseResult c)

/-- `uart_read_bytes` in `read_exact` finds at most `available` bytes. -/
def readBytes (s : BridgeLink) (available : Nat) : BridgeLink :=
  match s.current with
  | none => s
  | some c =>
      let received := min (wanted c) (min available s.fifo.length)
      { s with fifo := s.fifo.drop received }.advance
        { c with response := c.response ++ s.fifo.take received }

/-- `read_exact` gives up: the deadline passes, or the read fails. -/
def giveUp (s : BridgeLink) (failed : Bool) : BridgeLink :=
  match s.current with
  | none => s
  | some c => s.finish c.call (.error (if failed then .fail else .timeout))

/-- The bridge answers its oldest request. -/
def answer (s : BridgeLink) (payload : List U8) : BridgeLink :=
  match s.pending with
  | [] => s
  | request :: pending =>
      { s with
        pending := pending
        replies := s.replies ++ [{ request := request, payload := payload }] }

/-- The next byte arrives. -/
def arrive (s : BridgeLink) : BridgeLink :=
  match s.stream[s.arrived]? with
  | none => s
  | some byte => { s with arrived := s.arrived + 1, fifo := s.fifo ++ [byte] }

inductive Input where
  | begin (ready : Bool) (page command : U8) (requestPayload : List U8) (responseCapacity : Nat)
      (responsePayload : Bool) (send : BridgeSend)
  | read (available : Nat)
  | giveUp (failed : Bool)
  | answer (payload : List U8)
  | arrive

def step (s : BridgeLink) : Input → BridgeLink
  | .begin ready page command requestPayload responseCapacity responsePayload send =>
      s.begin ready page command requestPayload responseCapacity responsePayload send
  | .read available => s.readBytes available
  | .giveUp failed => s.giveUp failed
  | .answer payload => s.answer payload
  | .arrive => s.arrive

def initial : BridgeLink where
  nextCommandId := 0
  calls := 0
  pending := []
  replies := []
  arrived := 0
  fifo := []
  current := none
  trace := []

/-- The reply that a byte of the stream belongs to. -/
def replyAt : List BridgeReply → Nat → Option BridgeReply
  | [], _ => none
  | reply :: replies, position =>
      if position < reply.frame.length then some reply
      else replyAt replies (position - reply.frame.length)

/-- What the bridge and the channel promise: a reply's length fits its header,
and fewer than 256 calls begin between a request and the arrival of its reply. -/
def LinkAllowed (s : BridgeLink) : Input → Prop
  | .answer payload => payload.length + 3 < 2 ^ 16
  | .arrive => ∀ reply ∈ replyAt s.replies s.arrived, s.calls ≤ reply.request.call + 256
  | .begin _ _ _ _ _ _ _ | .read _ | .giveUp _ => True

instance (s : BridgeLink) (input : Input) : Decidable (LinkAllowed s input) :=
  match input with
  | .answer payload => inferInstanceAs (Decidable (payload.length + 3 < 2 ^ 16))
  | .arrive => inferInstanceAs (Decidable (∀ reply ∈ replyAt s.replies s.arrived,
      s.calls ≤ reply.request.call + 256))
  | .begin _ _ _ _ _ _ _ => .isTrue trivial
  | .read _ => .isTrue trivial
  | .giveUp _ => .isTrue trivial

end BridgeLink

end EspMiner
