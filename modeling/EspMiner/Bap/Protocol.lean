import EspMiner.Asic.Job
import EspMiner.Library.Decimal
import EspMiner.Library.Fields
import EspMiner.Library.Json

/-!
# The Bitaxe accessory protocol

`main/bap/bap_protocol.c` and the parser of `main/bap/bap_handlers.c`: a sentence is
`$BAP,<command>,<parameter>,<value>*<checksum>`.  A C string is the list of its bytes.
-/

namespace EspMiner

open Library

def BAP_MAX_MESSAGE_LEN : Nat := 256

/-- `bap_command_t` -/
inductive BapCommand where
  | req
  | res
  | sub
  | unsub
  | set
  | ack
  | err
  | cmd
  | sta
  | log
  | unknown
deriving DecidableEq, Repr

namespace BapCommand

/-- `command_strings` -/
def commandStrings : List (BapCommand × List U8) :=
  [(req, cText "REQ"), (res, cText "RES"), (sub, cText "SUB"), (unsub, cText "UNSUB"),
    (set, cText "SET"), (ack, cText "ACK"), (err, cText "ERR"), (cmd, cText "CMD"),
    (sta, cText "STA"), (log, cText "LOG")]

/-- `BAP_command_from_string` -/
def fromString (text : List U8) : BapCommand :=
  match commandStrings.find? fun entry => entry.2 == text with
  | none => unknown
  | some entry => entry.1

/-- `BAP_command_to_string` -/
def toText (command : BapCommand) : List U8 :=
  match commandStrings.find? fun entry => entry.1 == command with
  | none => cText "UNK"
  | some entry => entry.2

theorem fromString_toText (command : BapCommand) : fromString command.toText = command := by
  cases command <;> rfl

end BapCommand

/-! ### Checksums -/

/-- `BAP_calculate_checksum` -/
def bapCalculateChecksum (sentenceBody : List U8) : U8 := sentenceBody.foldl (· ^^^ ·) 0

/-- `sscanf(text, "%2hhX", &value)`: behind the white space at most two characters are
read; `none` leaves the value alone.  A `0x` without a digit is no number. -/
def scanHexByte (text : List U8) : Option U8 :=
  match (text.dropWhile isSpace).take 2 with
  | [] => none
  | [digit] => (hexVal digit).map (BitVec.ofNat 8)
  | first :: second :: _ =>
      match hexVal first, hexVal second with
      | some high, some low => some (BitVec.ofNat 8 (16 * high + low))
      | some digit, none =>
          if digit = 0 ∧ (second = 0x78#8 ∨ second = 0x58#8) then none
          else some (BitVec.ofNat 8 digit)
      | none, some digit =>
          if first = 0x2b#8 then some (BitVec.ofNat 8 digit)
          else if first = 0x2d#8 then some (-BitVec.ofNat 8 digit)
          else none
      | none, none => none

theorem isSpace_of_hexVal {digit : U8} {value : Nat} (h : hexVal digit = some value) :
    isSpace digit = false := by
  have hall : ∀ byte : U8, (hexVal byte).isSome = true → isSpace byte = false := by
    decide +kernel
  exact hall digit (by rw [h]; rfl)

/-- Two digits are read as the number that they make. -/
theorem scanHexByte_digits {high low : U8} {h l : Nat} (hhigh : hexVal high = some h)
    (hlow : hexVal low = some l) (rest : List U8) :
    scanHexByte (high :: low :: rest) = some (BitVec.ofNat 8 (16 * h + l)) := by
  have hspace := isSpace_of_hexVal hhigh
  simp [scanHexByte, hspace, hhigh, hlow]

/-! ### Sending -/

/-- A digit of `%02X`. -/
def upperDigit (nibble : Nat) : U8 := (cText "0123456789ABCDEF").getD nibble 0

/-- `%02X` -/
def upperHex (byte : U8) : List U8 := [upperDigit (byte.toNat / 16), upperDigit (byte.toNat % 16)]

theorem hexVal_upperDigit (nibble : Nat) (h : nibble < 16) :
    hexVal (upperDigit nibble) = some nibble := by
  have hall : ∀ n < 16, hexVal (upperDigit n) = some n := by decide
  exact hall nibble h

/-- What `%02X` prints is scanned as the byte that was printed. -/
theorem scanHexByte_upperHex (byte : U8) (rest : List U8) :
    scanHexByte (upperHex byte ++ rest) = some byte := by
  have hbyte := byte.isLt
  have hdigits := scanHexByte_digits (hexVal_upperDigit (byte.toNat / 16) (by omega))
    (hexVal_upperDigit (byte.toNat % 16) (by omega)) rest
  rw [Nat.div_add_mod, BitVec.ofNat_toNat, BitVec.setWidth_eq] at hdigits
  exact hdigits

/-- The text that `snprintf` makes of a body; an empty value is left out. -/
def bapBody (command : BapCommand) (parameter : List U8) (value : Option (List U8)) : List U8 :=
  let head := cText "BAP," ++ command.toText ++ cText "," ++ parameter
  match value with
  | none => head
  | some value => if value = [] then head else head ++ cText "," ++ value

/-- `BAP_send_message`: the bytes that it writes once it has the mutex.  `snprintf`
cuts the body at the end of its array; `none` is a sentence longer than its own, where
`uart_write_bytes` reads behind it. -/
def bapSendMessage (command : BapCommand) (parameter : List U8) (value : Option (List U8)) :
    Option (List U8) :=
  let sentenceBody := (bapBody command parameter value).take (BAP_MAX_MESSAGE_LEN - 1)
  let message := cText "$" ++ sentenceBody ++ cText "*" ++
    upperHex (bapCalculateChecksum sentenceBody) ++ cText "\r\n"
  if message.length < BAP_MAX_MESSAGE_LEN then some message else none

/-! ### Parsing -/

/-- The commands for which `BAP_handlers_init` registers a handler. -/
def bapHandlers (command : BapCommand) : Bool :=
  [BapCommand.sub, .unsub, .req, .set].contains command

/-- What a handler is called with. -/
structure BapCall where
  command : BapCommand
  parameter : List U8
  value : Option (List U8)
deriving DecidableEq, Repr

def isTerminator (byte : U8) : Bool := byte == 0x0a#8 || byte == 0x0d#8

/-- The part of `BAP_parse_message` before the tokens: the body of a sentence whose
checksum matches, or may be ignored. -/
def bapSentenceBody (message : List U8) : Option (List U8) :=
  if message.length < 5 then none
  else if message.head? ≠ some 0x24#8 then none
  else
    let asterisk := message.takeWhile (· ≠ 0x2a#8)
    if asterisk.length < message.length then
      if message.length < asterisk.length + 3 then none
      else
        let receivedChecksum := (scanHexByte (message.drop (asterisk.length + 1))).getD 0
        let body := asterisk.drop 1
        if BAP_MAX_MESSAGE_LEN ≤ body.length then none
        else if bapCalculateChecksum body = receivedChecksum ∨
            (cText "BAP,SUB,").isPrefixOf body = true then some body
        else none
    else
      let body := (message.drop 1).takeWhile (! isTerminator ·)
      if BAP_MAX_MESSAGE_LEN ≤ body.length then none
      else if (cText "BAP,SUB,").isPrefixOf body = true ∨
          (cText "BAP,UNSUB,").isPrefixOf body = true then some body
      else none

/-- The rest of it: the tokens of the body and the handler that they call, if one is
registered. -/
def bapDispatch (handlers : BapCommand → Bool) (sentenceBody : List U8) : Option BapCall := do
  let talker ← strtokR 0x2c#8 sentenceBody
  if talker.1 ≠ cText "BAP" then none
  else
    let command ← strtokR 0x2c#8 talker.2
    let parameter ← strtokR 0x2c#8 command.2
    let value := (strtokR 0x2c#8 parameter.2).map Prod.fst
    let named := BapCommand.fromString command.1
    if named = .unknown then none
    else if handlers named then
      some { command := named, parameter := parameter.1, value := value }
    else none

/-! ### What the parser accepts -/

/-- The fields of a body that calls a handler. -/
theorem bapDispatch_eq_some {handlers : BapCommand → Bool} {body : List U8} {call : BapCall}
    (h : bapDispatch handlers body = some call) :
    ∃ name more, fields 0x2c#8 body = cText "BAP" :: name :: call.parameter :: more ∧
      BapCommand.fromString name = call.command ∧ call.value = more.head? := by
  unfold bapDispatch at h
  obtain ⟨⟨talker, rest⟩, htalker, h⟩ := Option.bind_eq_some_iff.mp h
  dsimp only at h
  by_cases hbap : talker = cText "BAP"
  · rw [if_neg (not_not_intro hbap)] at h
    obtain ⟨⟨name, rest'⟩, hname, h⟩ := Option.bind_eq_some_iff.mp h
    obtain ⟨⟨parameter, rest''⟩, hparameter, h⟩ := Option.bind_eq_some_iff.mp h
    refine ⟨name, fields 0x2c#8 rest'', ?_⟩
    rw [fields_of_strtokR_eq_some htalker, fields_of_strtokR_eq_some hname,
      fields_of_strtokR_eq_some hparameter]
    split at h
    · cases h
    split at h
    · cases h
      exact ⟨by rw [hbap], rfl, strtokR_map_fst rest''⟩
    · cases h
  · rw [if_pos hbap] at h
    cases h

/-- Fields that call a handler. -/
theorem bapDispatch_of_fields {handlers : BapCommand → Bool} {body name parameter : List U8}
    {more : List (List U8)}
    (hfields : fields 0x2c#8 body = cText "BAP" :: name :: parameter :: more)
    (hknown : BapCommand.fromString name ≠ .unknown)
    (hregistered : handlers (BapCommand.fromString name) = true) :
    bapDispatch handlers body = some ⟨BapCommand.fromString name, parameter, more.head?⟩ := by
  obtain ⟨rest, htalker, hfields⟩ := strtokR_of_fields hfields
  obtain ⟨rest', hname, hfields⟩ := strtokR_of_fields hfields
  obtain ⟨rest'', hparameter, hfields⟩ := strtokR_of_fields hfields
  simp [bapDispatch, htalker, hname, hparameter, hknown, hregistered, ← hfields,
    strtokR_map_fst]

/-- The second field of a body names the command that it calls. -/
theorem bapDispatch_command {handlers : BapCommand → Bool} {call : BapCall} (name rest : List U8)
    (hnil : name ≠ []) (hname : 0x2c#8 ∉ name)
    (h : bapDispatch handlers (cText "BAP" ++ 0x2c#8 :: (name ++ 0x2c#8 :: rest)) = some call) :
    call.command = BapCommand.fromString name := by
  obtain ⟨named, more, hfields, hcommand, -⟩ := bapDispatch_eq_some h
  rw [fields_append_delim (by decide) (by decide), fields_append_delim hnil hname] at hfields
  rw [← hcommand, (List.cons.inj (List.cons.inj hfields).2).1]

/-- The body of a sentence that passes: its checksum is right, or it subscribes. -/
theorem bapSentenceBody_eq_some {message body : List U8} (h : bapSentenceBody message = some body) :
    (∃ tail, message = 0x24#8 :: body ++ 0x2a#8 :: tail ∧ 0x2a#8 ∉ body ∧ 2 ≤ tail.length ∧
        bapCalculateChecksum body = (scanHexByte tail).getD 0) ∨
      (cText "BAP,SUB,").isPrefixOf body = true ∨ (cText "BAP,UNSUB,").isPrefixOf body = true := by
  unfold bapSentenceBody at h
  split at h
  · cases h
  split at h
  · cases h
  next hlength hdollar =>
  simp only at h
  split at h
  · next hstar =>
    split at h
    · cases h
    next hroom =>
    split at h
    · cases h
    split at h
    · next hchecked =>
      cases h
      rcases hchecked with hchecksum | hsub
      · refine .inl ⟨message.drop ((message.takeWhile (· ≠ 0x2a#8)).length + 1), ?_, ?_, ?_,
          hchecksum⟩
        · have hsplit := eq_takeWhile_append_drop hstar
          cases message with
          | nil => cases hstar
          | cons dollar rest =>
            simp only [List.head?_cons, ne_eq, Option.some.injEq, Decidable.not_not] at hdollar
            subst hdollar
            exact hsplit
        · intro hmem
          simpa using List.mem_takeWhile_imp (List.mem_of_mem_drop hmem)
        · rw [List.length_drop]
          omega
      · exact .inr (.inl hsub)
    · cases h
  · split at h
    · cases h
    split at h
    · next hsubscribes =>
      cases h
      exact .inr hsubscribes
    · cases h

/-- A sentence with the right checksum passes. -/
theorem bapSentenceBody_of_checksum {body tail : List U8} (hnil : body ≠ [])
    (hstar : 0x2a#8 ∉ body) (hlength : body.length < BAP_MAX_MESSAGE_LEN) (htail : 2 ≤ tail.length)
    (hchecksum : bapCalculateChecksum body = (scanHexByte tail).getD 0) :
    bapSentenceBody (0x24#8 :: (body ++ 0x2a#8 :: tail)) = some body := by
  have hpos := List.length_pos_iff.mpr hnil
  have hfirst : 0x2a#8 ∉ 0x24#8 :: body := by simp [hstar]
  have hasterisk : (0x24#8 :: (body ++ 0x2a#8 :: tail)).takeWhile (· ≠ 0x2a#8) = 0x24#8 :: body :=
    takeWhile_ne_of_not_mem hfirst tail
  have hdrop : (0x24#8 :: (body ++ 0x2a#8 :: tail)).drop ((0x24#8 :: body).length + 1) = tail := by
    simp
  unfold bapSentenceBody
  simp only [hasterisk, hdrop]
  rw [if_neg (by simp; omega), if_neg (by simp), if_pos (by simp), if_neg (by simp; omega),
    if_neg (by simpa using hlength), if_pos (.inl (by simpa using hchecksum))]
  rfl

end EspMiner
