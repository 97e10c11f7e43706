import EspMiner.Bap.Receiver
import EspMiner.Library.CString

/-!
# The buffers of the accessory protocol

`BAP_send_message` and `BAP_send_message_with_queue` of `main/bap/bap_uart.c`, and
`uart_receive_task` with `BAP_parse_message`, over the arrays that they read and write.
-/

namespace EspMiner

open Library

/-! ## Sending -/

/-- The arrays `message` and `sentence_body` of the senders, with what stands on the stack -/
structure BapSendBuffers where
  message : Vector U8 BAP_MAX_MESSAGE_LEN
  sentenceBody : Vector U8 BAP_MAX_MESSAGE_LEN

/-- The sentence of a body -/
def bapSentence (sentenceBody : List U8) : List U8 :=
  cText "$" ++ sentenceBody ++ cText "*" ++ upperHex (bapCalculateChecksum sentenceBody) ++
    cText "\r\n"

/-- The value of a command, which may be missing -/
def bapBodyOf (command : BapCommand) (parameter : Text) (value : Option Text) : List U8 :=
  bapBody command parameter.val (value.map (·.val))

/-- What both senders begin with: `message` and the length that `snprintf` returned -/
def bapFormat (buffers : BapSendBuffers) (command : BapCommand) (parameter : Text)
    (value : Option Text) : Except Stop (Printed BAP_MAX_MESSAGE_LEN) := do
  let sentenceBody ← snprintf buffers.sentenceBody (bapBodyOf command parameter value)
  let body ← readString sentenceBody.cells 0
  snprintf buffers.message (bapSentence body)

/-- `BAP_send_message`: the bytes handed to the UART, or none without the mutex -/
def bapSendMessageChecked (buffers : BapSendBuffers) (taken : Bool) (command : BapCommand)
    (parameter : Text) (value : Option Text) : Except Stop (List U8) := do
  let message ← bapFormat buffers command parameter value
  if taken then readSpan message.cells.toList 0 message.len else return []

/-- `BAP_send_message_with_queue` and what `uart_send_task` makes of its item, or nothing
where the memory or the queue is full; `heap` is what `malloc` returns. -/
def bapSendMessageWithQueueChecked (buffers : BapSendBuffers) (queued : Bool)
    (heap : (size : Nat) → Vector U8 size) (command : BapCommand) (parameter : Text)
    (value : Option Text) : Except Stop (List U8) := do
  let message ← bapFormat buffers command parameter value
  if queued then
    let text ← readString message.cells 0
    let copy ← strncpy (heap (message.len + 1)) text message.len
    let copy ← writeCell copy message.len 0#8
    readSpan copy.toList 0 message.len
  else return []

/-! ## Receiving -/

/-- The arrays of `BAP_parse_message`, with what stands on the stack -/
structure BapParseBuffers where
  sentenceBody : Vector U8 BAP_MAX_MESSAGE_LEN
  tokenizeBody : Vector U8 BAP_MAX_MESSAGE_LEN

/-- The variables of `uart_receive_task` and `BAP_parse_message` as they are stored -/
structure BapMemory where
  inMessage : Bool
  message : Vector U8 (BAP_MAX_MESSAGE_LEN + 1)
  messageLen : Nat
  lastProcessedMessage : Vector U8 BAP_MAX_MESSAGE_LEN
  lastMessageTime : U32
  calls : List BapCall

/-- A byte that was read, and the stack if it ends a sentence -/
structure BapMemoryInput extends BapByte where
  buffers : BapParseBuffers

namespace BapMemory

/-- `uart_receive_task` before it has read anything, with an array that was not initialized -/
def init (message : Vector U8 (BAP_MAX_MESSAGE_LEN + 1)) : BapMemory :=
  ⟨false, message, 0, Vector.replicate BAP_MAX_MESSAGE_LEN 0#8, 0, []⟩

/-- The bytes behind the first are copied to `sentence_body`. -/
def copyBody (buffers : BapParseBuffers) (message : List U8) (bodyLen : Nat) :
    Except Stop (Vector U8 BAP_MAX_MESSAGE_LEN) := do
  let sentenceBody ← strncpy buffers.sentenceBody (message.drop 1) bodyLen
  writeCell sentenceBody bodyLen 0#8

/-- The part of `BAP_parse_message` before the tokens -/
def sentenceBody (buffers : BapParseBuffers) (message : List U8) :
    Except Stop (Option (List U8)) := do
  if message.length < 5 then return none
  else if message.head? ≠ some 0x24#8 then return none
  else
    let asterisk := (message.takeWhile (· ≠ 0x2a#8)).length
    if asterisk < message.length then
      if message.length < asterisk + 3 then return none
      else
        let receivedChecksum := (scanHexByte (message.drop (asterisk + 1))).getD 0
        let bodyLen := asterisk - 1
        if BAP_MAX_MESSAGE_LEN ≤ bodyLen then return none
        else
          let cells ← copyBody buffers message bodyLen
          let body ← readString cells 0
          if bapCalculateChecksum body = receivedChecksum ∨
              (cText "BAP,SUB,").isPrefixOf body = true then
            return some body
          else return none
    else
      let bodyLen := ((message.drop 1).takeWhile (! isTerminator ·)).length
      if BAP_MAX_MESSAGE_LEN ≤ bodyLen then return none
      else
        let cells ← copyBody buffers message bodyLen
        let body ← readString cells 0
        if (cText "BAP,SUB,").isPrefixOf body = true ∨
            (cText "BAP,UNSUB,").isPrefixOf body = true then
          return some body
        else return none

/-- The rest of it behind the talker -/
def dispatchCommand (handlers : BapCommand → Bool) (cells : Vector U8 BAP_MAX_MESSAGE_LEN)
    (next : Nat) : Except Stop (Option BapCall) := do
  match ← strtokAt 0x2c#8 cells next with
  | none => return none
  | some command =>
    match ← strtokAt 0x2c#8 command.cells command.next with
    | none => return none
    | some parameter =>
      let value ← strtokAt 0x2c#8 parameter.cells parameter.next
      let named := BapCommand.fromString command.field
      if named = .unknown then return none
      else if handlers named then
        return some
          { command := named, parameter := parameter.field, value := value.map (·.field) }
      else return none

/-- The tokens of the body and the handler that they call -/
def dispatch (handlers : BapCommand → Bool) (buffers : BapParseBuffers) (sentenceBody : List U8) :
    Except Stop (Option BapCall) := do
  let cells ← strcpy buffers.tokenizeBody sentenceBody
  match ← strtokAt 0x2c#8 cells 0 with
  | none => return none
  | some talker =>
    if talker.field ≠ cText "BAP" then return none
    else dispatchCommand handlers talker.cells talker.next

/-- `BAP_parse_message` -/
def parseMessage (handlers : BapCommand → Bool) (m : BapMemory) (buffers : BapParseBuffers)
    (message : List U8) (nowUs : U64) : Except Stop BapMemory := do
  let currentTime := BapReceiver.currentTime nowUs
  let last ← readString m.lastProcessedMessage 0
  if message == last && decide (currentTime - m.lastMessageTime < 1000#32) then return m
  else
    let last ← strncpy m.lastProcessedMessage message (BAP_MAX_MESSAGE_LEN - 1)
    let last ← writeCell last (BAP_MAX_MESSAGE_LEN - 1) 0#8
    let m := { m with lastProcessedMessage := last, lastMessageTime := currentTime }
    let body ← sentenceBody buffers message
    match body with
    | none => return m
    | some body =>
      let call ← dispatch handlers buffers body
      return { m with calls := m.calls ++ call.toList }

/-- The body of the loop over the bytes of a read -/
def step (handlers : BapCommand → Bool) (m : BapMemory) (input : BapMemoryInput) :
    Except Stop BapMemory := do
  let c := input.byte
  if c = 0x24#8 then
    let message ← writeCell m.message 0 c
    return { m with inMessage := true, message, messageLen := 1 }
  else if isTerminator c && m.inMessage then
    if 1 < m.messageLen ∧ m.messageLen < BAP_MAX_MESSAGE_LEN then
      let message ← writeCell m.message m.messageLen c
      let messageLen := m.messageLen + 1
      let message ← writeCell message messageLen 0#8
      let text ← readString message 0
      let m ← parseMessage handlers { m with message, messageLen } input.buffers text input.nowUs
      if c = 0x0d#8 then return m else return { m with inMessage := false }
    else if BAP_MAX_MESSAGE_LEN ≤ m.messageLen then return { m with inMessage := false }
    else return m
  else if m.inMessage && decide (m.messageLen < BAP_MAX_MESSAGE_LEN) then
    let message ← writeCell m.message m.messageLen c
    return { m with message, messageLen := m.messageLen + 1 }
  else return m

end BapMemory

/-- `uart_receive_task` over the bytes of any reads -/
def uartReceiveTaskChecked (handlers : BapCommand → Bool) (m : BapMemory)
    (inputs : List BapMemoryInput) : Except Stop BapMemory :=
  inputs.foldlM (BapMemory.step handlers) m

/-- `BAP_handle_subscription` in AP mode: the reply with the parameter as it was received -/
def bapHandleSubscription (connected : Bool) (parameter : Text) :
    Option (BapCommand × Text × Option Text) :=
  if connected then none
  else some (.err, parameter, some ⟨cText "ap_mode_no_subscriptions", by decide⟩)

end EspMiner
