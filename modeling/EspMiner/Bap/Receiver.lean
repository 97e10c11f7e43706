import EspMiner.Bap.Protocol
import EspMiner.Library.Run

/-!
# Receiving sentences

`uart_receive_task` of `main/bap/bap_uart.c` assembles the sentences from the bytes that
the UART delivers and hands them to `BAP_parse_message`.
-/

namespace EspMiner

open Library

/-- A byte that was read, and what `esp_timer_get_time` returns if it ends a sentence. -/
structure BapByte where
  byte : U8
  nowUs : U64

/-- The local variables of `uart_receive_task`, the two that `BAP_parse_message` keeps,
and the calls of handlers so far, oldest first. -/
structure BapReceiver where
  inMessage : Bool
  message : List U8
  lastProcessedMessage : List U8
  lastMessageTime : U32
  calls : List BapCall

namespace BapReceiver

def init : BapReceiver := ⟨false, [], [], 0, []⟩

/-- The string in a buffer. -/
def stringOf (message : List U8) : List U8 := message.takeWhile (· ≠ 0#8)

/-- `esp_timer_get_time() / 1000` -/
def currentTime (nowUs : U64) : U32 := (nowUs / 1000#64).setWidth 32

/-- The test for a duplicate in `BAP_parse_message`. -/
def isDuplicate (r : BapReceiver) (message : List U8) (nowUs : U64) : Bool :=
  message == r.lastProcessedMessage && decide (currentTime nowUs - r.lastMessageTime < 1000#32)

/-- The call that a sentence asks for. -/
def callOf (handlers : BapCommand → Bool) (message : List U8) : Option BapCall :=
  (bapSentenceBody message).bind (bapDispatch handlers)

/-- `BAP_parse_message` -/
def parseMessage (handlers : BapCommand → Bool) (r : BapReceiver) (message : List U8)
    (nowUs : U64) : BapReceiver :=
  if r.isDuplicate message nowUs then r
  else
    { r with
      lastProcessedMessage := message.take (BAP_MAX_MESSAGE_LEN - 1)
      lastMessageTime := currentTime nowUs
      calls := r.calls ++ (callOf handlers message).toList }

@[simp] theorem parseMessage_message (handlers : BapCommand → Bool) (r : BapReceiver)
    (message : List U8) (nowUs : U64) :
    (r.parseMessage handlers message nowUs).message = r.message := by
  unfold parseMessage
  split <;> rfl

/-- The calls of a sentence come behind those that were made. -/
theorem parseMessage_calls {handlers : BapCommand → Bool} {r : BapReceiver}
    {message : List U8} {nowUs : U64} :
    ∃ added, (r.parseMessage handlers message nowUs).calls = r.calls ++ added ∧
      ∀ call ∈ added, callOf handlers message = some call := by
  unfold parseMessage
  split
  · exact ⟨[], (List.append_nil _).symm, by simp⟩
  · exact ⟨_, rfl, fun call hcall => Option.mem_toList.mp hcall⟩

/-- The body of the loop over the bytes of a read. -/
def step (handlers : BapCommand → Bool) (r : BapReceiver) (input : BapByte) : BapReceiver :=
  let c := input.byte
  if c = 0x24#8 then { r with inMessage := true, message := [c] }
  else if isTerminator c && r.inMessage then
    if 1 < r.message.length ∧ r.message.length < BAP_MAX_MESSAGE_LEN then
      let r := { r with message := r.message ++ [c] }
      let r := r.parseMessage handlers (stringOf r.message) input.nowUs
      -- behind a CR the task waits for an LF and keeps the message
      if c = 0x0d#8 then r else { r with inMessage := false }
    else if BAP_MAX_MESSAGE_LEN ≤ r.message.length then { r with inMessage := false }
    else r
  else if r.inMessage && decide (r.message.length < BAP_MAX_MESSAGE_LEN) then
    { r with message := r.message ++ [c] }
  else r

end BapReceiver

/-- `uart_receive_task`, with the bytes of each `uart_read_bytes`. -/
def uartReceiveTask (handlers : BapCommand → Bool) (r : BapReceiver) (reads : List (List BapByte)) :
    BapReceiver :=
  run (run (BapReceiver.step handlers)) r reads

/-- How the bytes are cut into reads makes no difference. -/
theorem uartReceiveTask_eq (handlers : BapCommand → Bool) (r : BapReceiver)
    (reads : List (List BapByte)) :
    uartReceiveTask handlers r reads = run (BapReceiver.step handlers) r reads.flatten := by
  induction reads generalizing r with
  | nil => rfl
  | cons read reads ih => rw [List.flatten_cons, run_append, ← ih, uartReceiveTask, run_cons]; rfl

/-- The bytes of the reads. -/
def readBytes (reads : List (List BapByte)) : List U8 := reads.flatten.map BapByte.byte

end EspMiner
