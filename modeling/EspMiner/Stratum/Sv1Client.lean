import EspMiner.Stratum.Sv1Protocol

/-!
# Receiving Stratum V1 lines

`components/stratum/sv1_client.c`: the receive buffer and the loop that reads until
it holds a newline.  The transport hands out a stream of bytes in pieces; how many
it gives at a read, what the clock says and which allocations succeed are inputs.
-/

namespace EspMiner

open Library

def SV1_RECEIVE_TIMEOUT_US : Int := 180 * 1000000
def BUFFER_SIZE : Nat := 1024
def JSON_RPC_BUFFER_LIMIT : Nat := STRATUM_V1_MAX_JSON_LINE_SIZE + 2

/-- What `esp_transport_read` does: it fails, or gives the next bytes, at most so many
and at most as many as were asked for. -/
inductive Sv1ReadResult where
  | failed
  | bytes (count : Nat)
deriving DecidableEq, Repr

/-- One round of the receive loop: the clock before and after the read, the read, and
whether `realloc` finds memory. -/
structure Sv1Read where
  before : Int
  after : Int
  result : Sv1ReadResult
  allocates : Bool

/-- One call: the clock at its start, whether the buffer and the line find memory, and
its rounds. -/
structure Sv1Call where
  start : Int
  initializes : Bool
  copies : Bool
  reads : List Sv1Read

/-- What happens to the buffer: a read is asked for, or bytes are stored. -/
inductive Sv1BufferEvent where
  | read (requested length size : Nat)
  | stored (length size : Nat)
deriving DecidableEq, Repr

/-- The receive buffer and the bytes that the transport has not given out yet.
`size` is 0 while there is no buffer. -/
structure Sv1Receiver where
  size : Nat
  data : List U8
  stream : List U8
  trace : List Sv1BufferEvent

/-- A call returns a line or NULL, or it still waits. -/
inductive Sv1Return where
  | line (text : Option (List U8))
  | waits
deriving DecidableEq, Repr

/-- The loop in `ensure_json_buffer_capacity` that looks for the new size. -/
def growBufferSize (required newSize : Nat) : Nat :=
  if newSize < required ∧ newSize < JSON_RPC_BUFFER_LIMIT then
    growBufferSize required (min (newSize + BUFFER_SIZE) JSON_RPC_BUFFER_LIMIT)
  else newSize
termination_by JSON_RPC_BUFFER_LIMIT - newSize
decreasing_by
  have hstep : 0 < BUFFER_SIZE := by decide
  omega

/-- `ensure_json_buffer_capacity`: the size of the buffer afterwards. -/
def ensureJsonBufferCapacity (size required : Nat) (allocates : Bool) : Option Nat :=
  if JSON_RPC_BUFFER_LIMIT < required then none
  else if required ≤ size then some size
  else if allocates then some (growBufferSize required size)
  else none

namespace Sv1Receiver

def record (r : Sv1Receiver) (event : Sv1BufferEvent) : Sv1Receiver :=
  { r with trace := event :: r.trace }

/-- `STRATUM_V1_initialize_buffer`, as far as the buffer goes. -/
def initializeBuffer (r : Sv1Receiver) (allocates : Bool) : Sv1Receiver :=
  { r with size := if allocates then BUFFER_SIZE else 0, data := [] }

/-- The buffer after a failure. -/
def clear (r : Sv1Receiver) : Sv1Receiver := { r with data := [] }

/-- The line up to a newline, and what is left in the buffer. -/
def extractLine (r : Sv1Receiver) (lineLen : Nat) (copies : Bool) : Sv1Return × Sv1Receiver :=
  (.line (if copies then some ((r.data.take lineLen).takeWhile (· ≠ 0#8)) else none),
    { r with data := r.data.drop (lineLen + 1) })

/-- What the loop asks the transport for. -/
def receiveSize (r : Sv1Receiver) : Nat :=
  min BUFFER_SIZE (STRATUM_V1_MAX_JSON_LINE_SIZE + 1 - r.data.length)

/-- The bytes of a read are checked and appended; the flag says whether the call goes on. -/
def store (r : Sv1Receiver) (chunk : List U8) (allocates : Bool) : Bool × Sv1Receiver :=
  if chunk.contains 0#8 then (false, r)
  else
    match ensureJsonBufferCapacity r.size (r.data.length + chunk.length + 1) allocates with
    | none => (false, r)
    | some size =>
        let data := r.data ++ chunk
        (data.contains 10#8 || decide (data.length ≤ STRATUM_V1_MAX_JSON_LINE_SIZE),
          { r.record (.stored data.length size) with size := size, data := data })

/-- The receive loop of a call. -/
def receiveLoop (deadline : Int) (copies : Bool) :
    List Sv1Read → Sv1Receiver → Sv1Return × Sv1Receiver
  | [], r =>
      match r.data.findIdx? (· = 10#8) with
      | some lineLen => r.extractLine lineLen copies
      | none => (.waits, r)
  | read :: reads, r =>
      match r.data.findIdx? (· = 10#8) with
      | some lineLen => r.extractLine lineLen copies
      | none =>
          if deadline - read.before ≤ 0 then (.line none, r.clear)
          else
            let requested := r.receiveSize
            let r := r.record (.read requested r.data.length r.size)
            match read.result with
            | .failed => (.line none, r.clear)
            | .bytes count =>
                let chunk := r.stream.take (min count requested)
                let r := { r with stream := r.stream.drop (min count requested) }
                if deadline ≤ read.after then (.line none, r.clear)
                else if chunk = [] then receiveLoop deadline copies reads r
                else
                  match r.store chunk read.allocates with
                  | (false, r) => (.line none, r.clear)
                  | (true, r) => receiveLoop deadline copies reads r

/-- `sv1_receive_jsonrpc_line_with_clock` -/
def receiveLine (r : Sv1Receiver) (call : Sv1Call) : Sv1Return × Sv1Receiver :=
  let r := if r.size = 0 then r.initializeBuffer call.initializes else r
  if r.size = 0 then (.line none, r)
  else r.receiveLoop (call.start + SV1_RECEIVE_TIMEOUT_US) call.copies call.reads

/-- Calls one after another, up to the first that still waits. -/
def receiveLines (r : Sv1Receiver) : List Sv1Call → List Sv1Return × Sv1Receiver
  | [] => ([], r)
  | call :: calls =>
      match r.receiveLine call with
      | (.waits, r) => ([.waits], r)
      | (.line text, r) =>
          let rest := r.receiveLines calls
          (.line text :: rest.1, rest.2)

end Sv1Receiver

end EspMiner
