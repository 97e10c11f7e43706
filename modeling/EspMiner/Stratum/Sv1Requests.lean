import EspMiner.Stratum.Sv1Writer

/-!
# Requests are whole or not there

The writer holds the text of all that was appended, or it has failed and the text does not fit.  The
texts that the encoders append are JSON values on a line of their own, so each encoder writes one
whole message, whatever its strings are, or fails where that does not fit.
-/

namespace EspMiner

open Library

/-! ## What the writer holds -/

/-- Writing behind the bytes that are kept. -/
theorem overwrite_append (kept old bytes : List U8) :
    overwrite (kept ++ old) kept.length bytes = kept ++ bytes ++ old.drop bytes.length := by
  unfold overwrite
  rw [List.take_left, List.drop_append]
  simp

namespace JsonWriter

/-- All of the text with its terminator is in the buffer, or it does not fit and the
buffer holds an empty string. -/
def Holds (capacity : Nat) (text : List U8) (writer : JsonWriter) : Prop :=
  writer.buffer.length = capacity ∧
    ((writer.failed = false ∧ writer.length = text.length ∧
        ∃ rest, writer.buffer = text ++ 0#8 :: rest) ∨
      (writer.failed = true ∧ capacity ≤ text.length ∧ ∃ rest, writer.buffer = 0#8 :: rest))

variable {capacity : Nat} {text : List U8} {writer : JsonWriter}

theorem fail_buffer (h : writer.buffer ≠ []) :
    ∃ rest, writer.fail.buffer = 0#8 :: rest ∧
      writer.fail.buffer.length = writer.buffer.length := by
  cases hbuffer : writer.buffer with
  | nil => exact absurd hbuffer h
  | cons byte rest =>
    refine ⟨rest, ?_, ?_⟩ <;> simp [fail, overwrite, hbuffer]

theorem holds_init {buffer : List U8} (hbuffer : buffer ≠ []) :
    ∃ writer, JsonWriter.init buffer = some writer ∧ writer.Holds buffer.length [] ∧
      ∃ rest, writer.buffer = 0#8 :: rest := by
  refine ⟨_, if_neg hbuffer, ?_⟩
  cases buffer with
  | nil => exact absurd rfl hbuffer
  | cons byte rest =>
    have hwritten : overwrite (byte :: rest) 0 [0#8] = 0#8 :: rest := by simp [overwrite]
    rw [hwritten]
    exact ⟨⟨rfl, .inl ⟨rfl, rfl, rest, rfl⟩⟩, rest, rfl⟩

/-- A failed writer stays as it is, and more text fits even less. -/
theorem Holds.of_failed (h : writer.Holds capacity text) (hfailed : writer.failed = true)
    (value : List U8) : writer.Holds capacity (text ++ value) := by
  obtain ⟨hlength, ⟨hworks, -⟩ | ⟨-, hlong, hempty⟩⟩ := h
  · rw [hfailed] at hworks
    cases hworks
  · refine ⟨hlength, .inr ⟨hfailed, ?_, hempty⟩⟩
    rw [List.length_append]
    exact Nat.le_trans hlong (Nat.le_add_right _ _)

theorem Holds.of_working (h : writer.Holds capacity text) (hfailed : writer.failed = false) :
    ∃ rest, writer.buffer = text ++ 0#8 :: rest ∧ writer.buffer.length = capacity ∧
      writer.length = text.length ∧ capacity = text.length + (rest.length + 1) ∧
      writer.remaining = rest.length + 1 := by
  obtain ⟨hcapacity, ⟨-, hlength, rest, hbuffer⟩ | ⟨hfails, -⟩⟩ := h
  · have hsize : capacity = text.length + (rest.length + 1) := by
      rw [← hcapacity, hbuffer, List.length_append, List.length_cons]
    refine ⟨rest, hbuffer, hcapacity, hlength, hsize, ?_⟩
    rw [remaining, hcapacity, hsize, hlength, Nat.add_sub_cancel_left]
  · exact nomatch hfailed.symm.trans hfails

theorem Holds.appendBytes (h : writer.Holds capacity text) (value : List U8) :
    (writer.appendBytes value).Holds capacity (text ++ value) := by
  cases hfailed : writer.failed with
  | true =>
    unfold JsonWriter.appendBytes
    rw [if_pos hfailed]
    exact h.of_failed hfailed value
  | false =>
    obtain ⟨rest, hbuffer, hcapacity, hlength, hsize, hremaining⟩ := h.of_working hfailed
    unfold JsonWriter.appendBytes
    rw [if_neg (by rw [hfailed]; exact Bool.false_ne_true), hremaining]
    split
    · next hlong =>
      obtain ⟨left, hleft, hsame⟩ := @fail_buffer writer (by rw [hbuffer]; simp)
      refine ⟨hsame.trans hcapacity, .inr ⟨rfl, ?_, left, hleft⟩⟩
      rw [List.length_append]
      omega
    · next hroom =>
      obtain ⟨byte, left, hleft⟩ :
          ∃ byte left, (0#8 :: rest).drop value.length = byte :: left := by
        refine List.exists_cons_of_length_pos ?_
        rw [List.length_drop, List.length_cons]
        omega
      have hwritten : overwrite (overwrite writer.buffer writer.length value)
          (writer.length + value.length) [0#8] = (text ++ value) ++ 0#8 :: left := by
        rw [hbuffer, hlength, overwrite_append, hleft, ← List.length_append, overwrite_append]
        simp
      have hleftLength : left.length + 1 + value.length = rest.length + 1 := by
        have := congrArg List.length hleft
        rw [List.length_drop, List.length_cons, List.length_cons] at this
        omega
      refine ⟨?_, .inl ⟨hfailed, ?_, left, hwritten⟩⟩
      · show (overwrite _ _ _).length = _
        rw [hwritten, List.length_append, List.length_append, List.length_cons]
        omega
      · show writer.length + value.length = _
        rw [hlength, List.length_append]

theorem Holds.appendFormat (h : writer.Holds capacity text) (value : List U8) :
    (writer.appendFormat value).Holds capacity (text ++ value) := by
  cases hfailed : writer.failed with
  | true =>
    unfold JsonWriter.appendFormat
    rw [if_pos hfailed]
    exact h.of_failed hfailed value
  | false =>
    obtain ⟨rest, hbuffer, hcapacity, hlength, hsize, hremaining⟩ := h.of_working hfailed
    have hprinted : overwrite writer.buffer writer.length (value.take rest.length ++ [0#8])
        = text ++ (value.take rest.length ++ [0#8])
          ++ (0#8 :: rest).drop (value.take rest.length ++ [0#8]).length := by
      rw [hbuffer, hlength, overwrite_append]
    have hprintedLength :
        (overwrite writer.buffer writer.length (value.take rest.length ++ [0#8])).length
          = capacity := by
      rw [hprinted]
      simp only [List.length_append, List.length_drop, List.length_cons, List.length_take,
        List.length_nil]
      omega
    unfold JsonWriter.appendFormat
    rw [if_neg (by rw [hfailed]; exact Bool.false_ne_true), hremaining, Nat.add_sub_cancel]
    dsimp only
    split
    · next hlong =>
      obtain ⟨left, hleft, hsame⟩ := @fail_buffer
        { writer with
          buffer := overwrite writer.buffer writer.length (value.take rest.length ++ [0#8]) }
        (by rw [hprinted]; simp)
      refine ⟨hsame.trans hprintedLength, .inr ⟨rfl, ?_, left, hleft⟩⟩
      rw [List.length_append]
      omega
    · next hroom =>
      have hwhole : value.take rest.length = value := List.take_of_length_le (by omega)
      rw [hwhole] at hprinted hprintedLength ⊢
      refine ⟨hprintedLength, .inl ⟨hfailed, ?_, (0#8 :: rest).drop (value.length + 1), ?_⟩⟩
      · show writer.length + value.length = _
        rw [hlength, List.length_append]
      · show overwrite _ _ _ = _
        rw [hprinted]
        simp

/-- What the loop appends for a character. -/
def characterText (character : U8) : List U8 :=
  if character = 34#8 then cText "\\\""
  else if character = 92#8 then cText "\\\\"
  else if character = 8#8 then cText "\\b"
  else if character = 12#8 then cText "\\f"
  else if character = 10#8 then cText "\\n"
  else if character = 13#8 then cText "\\r"
  else if character = 9#8 then cText "\\t"
  else if character.toNat < 0x20 then
    cText "\\u00" ++ [hexTable (character.toNat / 16), hexTable (character.toNat % 16)]
  else [character]

theorem appendCharacter_eq (writer : JsonWriter) (character : U8) :
    writer.appendCharacter character = writer.appendBytes (characterText character) := by
  unfold appendCharacter characterText
  simp only [apply_ite writer.appendBytes]
  rfl

/-- The text of a string between its quotes. -/
def escapedText (value : CString) : List U8 := value.bytes.flatMap characterText

theorem Holds.appendEscaped (h : writer.Holds capacity text) (value : CString) :
    (writer.appendEscaped value).Holds capacity (text ++ escapedText value) := by
  unfold JsonWriter.appendEscaped escapedText
  induction value.bytes generalizing writer text with
  | nil => rwa [List.flatMap_nil, List.append_nil]
  | cons character characters ih =>
    rw [List.foldl_cons, List.flatMap_cons, ← List.append_assoc, appendCharacter_eq]
    exact ih (h.appendBytes _)

theorem Holds.appendString (h : writer.Holds capacity text) (value : CString) :
    (writer.appendString value).Holds capacity
      (text ++ JsonText.quoted (escapedText value)) := by
  have hquoted : text ++ JsonText.quoted (escapedText value)
      = text ++ cText "\"" ++ escapedText value ++ cText "\"" := by
    simp [JsonText.quoted, cText]
  rw [hquoted]
  exact ((h.appendBytes (cText "\"")).appendEscaped value).appendBytes (cText "\"")

/-- The string that a buffer holds. -/
def cString (buffer : List U8) : List U8 := buffer.takeWhile (· ≠ 0#8)

/-- An encoder that fails leaves an empty string. -/
def Fails (out : Int × List U8) : Prop := out.1 = -1 ∧ cString out.2 = []

/-- An encoder that succeeds returns the length of the text and leaves it terminated. -/
def Leaves (text : List U8) (out : Int × List U8) : Prop :=
  out.1 = text.length ∧ ∃ rest, out.2 = text ++ 0#8 :: rest

/-- `finish` fails when the text does not fit or has no length that is an `int`. -/
theorem Holds.finish (h : writer.Holds capacity text) (hcapacity : 0 < capacity) :
    writer.finish.2.length = capacity ∧
      if text.length < capacity ∧ (text.length : Int) ≤ INT_MAX then Leaves text writer.finish
      else Fails writer.finish := by
  obtain ⟨hlength, hcases⟩ := h
  have hfail : writer.fail.buffer.length = capacity ∧
      Fails (-1, writer.fail.buffer) := by
    obtain ⟨rest, hrest, hsame⟩ := @fail_buffer writer
      (List.ne_nil_of_length_pos (by rw [hlength]; exact hcapacity))
    refine ⟨hsame.trans hlength, rfl, ?_⟩
    rw [hrest]
    rfl
  rcases hcases with ⟨hworks, htext, rest, hbuffer⟩ | ⟨hfailed, hlong, -⟩
  · have hfits : text.length < capacity := by
      rw [← hlength, hbuffer, List.length_append, List.length_cons]
      omega
    unfold JsonWriter.finish
    split
    · next hlarge =>
      rw [hworks, htext] at hlarge
      have hint := hlarge.resolve_left Bool.false_ne_true
      rw [if_neg (fun hboth => absurd hboth.2 (Int.not_le.mpr hint))]
      exact hfail
    · next hsmall =>
      rw [htext] at hsmall
      have hint : (text.length : Int) ≤ INT_MAX := by
        by_contra hlarge
        exact hsmall (.inr (Int.not_le.mp hlarge))
      rw [if_pos ⟨hfits, hint⟩]
      exact ⟨hlength, congrArg _ htext, rest, hbuffer⟩
  · unfold JsonWriter.finish
    rw [if_pos (.inl hfailed), if_neg (fun hboth => absurd hboth.1 (Nat.not_lt.mpr hlong))]
    exact hfail

end JsonWriter

/-! ## The texts are JSON on one line -/

open JsonText

/-- A text without the bytes that end a line or a C string. -/
def OneLine (text : List U8) : Prop := ∀ byte ∈ text, byte ≠ 10#8 ∧ byte ≠ 0#8

/-- A text on one line that is read as this value. -/
structure Written (text : List U8) (value : JsonValue) : Prop where
  spells : Spells text value
  oneLine : OneLine text

theorem OneLine.append {text more : List U8} (h : OneLine text) (hmore : OneLine more) :
    OneLine (text ++ more) := by
  intro byte hbyte
  exact (List.mem_append.mp hbyte).elim (h byte) (hmore byte)

theorem OneLine.cons {byte : U8} {text : List U8} (hbyte : byte ≠ 10#8 ∧ byte ≠ 0#8)
    (h : OneLine text) : OneLine (byte :: text) := by
  intro other hother
  rcases List.mem_cons.mp hother with rfl | hother
  · exact hbyte
  · exact h other hother

theorem OneLine.quoted {text : List U8} (h : OneLine text) : OneLine (quoted text) :=
  OneLine.cons (by decide) (h.append (by unfold OneLine; decide))

theorem OneLine.commaJoined {texts : List (List U8)} (h : ∀ text ∈ texts, OneLine text) :
    OneLine (commaJoined texts) := by
  induction texts with
  | nil => exact nofun
  | cons text texts ih =>
    obtain ⟨htext, htexts⟩ := List.forall_mem_cons.mp h
    cases texts with
    | nil => exact htext
    | cons next texts => exact htext.append (OneLine.cons (by decide) (ih htexts))

theorem hexQuad_control (code : Nat) (h : code < 32) :
    hexQuad 48#8 48#8 (hexTable (code / 16)) (hexTable (code % 16)) = some code := by
  have hall : ∀ n < 32, hexQuad 48#8 48#8 (hexTable (n / 16)) (hexTable (n % 16)) = some n := by
    decide
  exact hall code h

/-- A character is escaped by a letter or by its code, or stands for itself. -/
theorem characterText_cases (character : U8) :
    (∃ letter, (letter ≠ 117#8 ∧ letter ≠ 10#8 ∧ letter ≠ 0#8) ∧
        simpleEscape letter = some character ∧
        JsonWriter.characterText character = [92#8, letter]) ∨
      (character.toNat < 32 ∧
        JsonWriter.characterText character = [92#8, 117#8, 48#8, 48#8,
          hexTable (character.toNat / 16), hexTable (character.toNat % 16)]) ∨
      (32 ≤ character.toNat ∧ character ≠ 34#8 ∧ character ≠ 92#8 ∧
        JsonWriter.characterText character = [character]) := by
  unfold JsonWriter.characterText
  split_ifs with hquote hslash hback hfeed hline hreturn htab hcontrol
  · exact .inl ⟨34#8, by decide, by rw [hquote]; rfl, rfl⟩
  · exact .inl ⟨92#8, by decide, by rw [hslash]; rfl, rfl⟩
  · exact .inl ⟨98#8, by decide, by rw [hback]; rfl, rfl⟩
  · exact .inl ⟨102#8, by decide, by rw [hfeed]; rfl, rfl⟩
  · exact .inl ⟨110#8, by decide, by rw [hline]; rfl, rfl⟩
  · exact .inl ⟨114#8, by decide, by rw [hreturn]; rfl, rfl⟩
  · exact .inl ⟨116#8, by decide, by rw [htab]; rfl, rfl⟩
  · exact .inr (.inl ⟨hcontrol, rfl⟩)
  · exact .inr (.inr ⟨Nat.le_of_not_lt hcontrol, hquote, hslash, rfl⟩)

/-- What is appended for a character stands for that character. -/
theorem spellsChars_characterText (character : U8) :
    SpellsChars (JsonWriter.characterText character) [character] := by
  rcases characterText_cases character with
    ⟨letter, hletter, hescape, htext⟩ | ⟨hcontrol, htext⟩ | ⟨hprintable, hquote, hslash, htext⟩
  · rw [htext]
    exact SpellsChars.escape hletter.1 hescape
  · have hspelled := SpellsChars.quad (hexQuad_control character.toNat hcontrol) (by omega)
    rwa [BitVec.ofNat_toNat, BitVec.setWidth_eq, ← htext] at hspelled
  · rw [htext]
    exact SpellsChars.plain hprintable hquote hslash

theorem oneLine_characterText {character : U8} (h : character ≠ 0#8) :
    OneLine (JsonWriter.characterText character) := by
  rcases characterText_cases character with
    ⟨letter, hletter, -, htext⟩ | ⟨hcontrol, htext⟩ | ⟨hprintable, -, -, htext⟩
  · rw [htext]
    exact OneLine.cons (by decide) (OneLine.cons hletter.2 nofun)
  · rw [htext]
    have hhigh := hexTable_ne (character.toNat / 16) (by omega)
    have hlow := hexTable_ne (character.toNat % 16) (by omega)
    exact OneLine.cons (by decide) (OneLine.cons (by decide) (OneLine.cons (by decide)
      (OneLine.cons (by decide) (OneLine.cons hhigh (OneLine.cons hlow nofun)))))
  · rw [htext]
    refine OneLine.cons ⟨?_, h⟩ nofun
    rintro rfl
    exact absurd hprintable (by decide)

/-- A byte that stands for itself in the text of a string. -/
def Plain (byte : U8) : Prop := 32 ≤ byte.toNat ∧ byte ≠ 34#8 ∧ byte ≠ 92#8

instance (byte : U8) : Decidable (Plain byte) := by
  unfold Plain
  infer_instance

theorem oneLine_of_plain {text : List U8} (h : ∀ byte ∈ text, Plain byte) : OneLine text := by
  intro byte hbyte
  have hprintable := (h byte hbyte).1
  constructor
  all_goals
    rintro rfl
    exact absurd hprintable (by decide)

theorem Written.plain {text : List U8} (h : ∀ byte ∈ text, Plain byte) :
    Written (quoted text) (.string text) :=
  ⟨.quoted (SpellsChars.of_plain h), OneLine.quoted (oneLine_of_plain h)⟩

theorem oneLine_escapedText (value : CString) : OneLine (JsonWriter.escapedText value) := by
  intro byte hbyte
  obtain ⟨character, hcharacter, hmem⟩ := List.mem_flatMap.mp hbyte
  exact oneLine_characterText (fun hzero => value.nulFree (hzero ▸ hcharacter)) byte hmem

theorem spellsChars_escapedText (value : CString) :
    SpellsChars (JsonWriter.escapedText value) value.bytes :=
  SpellsChars.flatMap fun byte _ => spellsChars_characterText byte

theorem Written.string (value : CString) :
    Written (quoted (JsonWriter.escapedText value)) (.string value.bytes) :=
  ⟨.quoted (spellsChars_escapedText value), OneLine.quoted (oneLine_escapedText value)⟩

theorem Written.integer (n : Int) : Written (integerText n) (.number n 0) := by
  refine ⟨Spells.integer n, ?_⟩
  have hdigits : OneLine (decimalText n.natAbs) := by
    intro byte hbyte
    have hdigit := decimalDigits_isDigit _ _ byte hbyte
    constructor
    all_goals
      rintro rfl
      exact absurd hdigit (by decide)
  unfold integerText
  split
  · exact OneLine.cons (by decide) hdigits
  · exact hdigits

theorem Written.array {items : List (List U8 × JsonValue)} (hne : items ≠ [])
    (hitems : ∀ item ∈ items, Written item.1 item.2) :
    Written (arrayText (items.map Prod.fst)) (.array (items.map Prod.snd)) := by
  refine ⟨Spells.array hne fun item hitem => (hitems item hitem).spells,
    OneLine.cons (by decide) ((OneLine.commaJoined ?_).append (by unfold OneLine; decide))⟩
  intro text htext
  obtain ⟨item, hitem, rfl⟩ := List.mem_map.mp htext
  exact (hitems item hitem).oneLine

/-- The message ends with the only newline, and what is before it is the value. -/
def IsRequest (message : List U8) (value : JsonValue) : Prop :=
  readJson message = some value ∧ ∃ line, message = line ++ [10#8] ∧ 10#8 ∉ line ∧ 0#8 ∉ line

theorem isRequest_object {members : List Member} (hne : members ≠ [])
    (hmembers : ∀ member ∈ members,
      (∀ byte ∈ member.name, Plain byte) ∧ Written member.text member.value) :
    IsRequest (objectText (members.map fun member => memberText member.name member.text) ++ [10#8])
      (.object (members.map fun member => (member.name, member.value))) := by
  have hspells := Spells.object hne fun member hmember =>
    ⟨SpellsChars.of_plain (hmembers member hmember).1, (hmembers member hmember).2.spells⟩
  have hline : OneLine
      (objectText (members.map fun member => memberText member.name member.text)) := by
    refine OneLine.cons (by decide)
      ((OneLine.commaJoined ?_).append (by unfold OneLine; decide))
    intro text htext
    obtain ⟨member, hmember, rfl⟩ := List.mem_map.mp htext
    exact (OneLine.quoted (oneLine_of_plain (hmembers member hmember).1)).append
      (OneLine.cons (by decide) (hmembers member hmember).2.oneLine)
  have hblank : Ended [10#8] := by
    intro byte hbyte
    obtain rfl := Option.some.inj hbyte
    decide
  exact ⟨readJson_of_spells hspells hblank (by decide),
    _, rfl, fun hmem => (hline _ hmem).1 rfl, fun hmem => (hline _ hmem).2 rfl⟩

/-! ## Words of eight digits -/

theorem plain_hexTable (nibble : Nat) (h : nibble < 16) : Plain (hexTable nibble) := by
  have hall : ∀ n < 16, Plain (hexTable n) := by decide
  exact hall nibble h

theorem mem_hexDigits {places n : Nat} {digit : U8} (h : digit ∈ hexDigits places n) :
    ∃ nibble, nibble < 16 ∧ digit = hexTable nibble := by
  induction places generalizing n with
  | zero => cases h
  | succ places ih =>
    rcases List.mem_append.mp h with hmem | hmem
    · exact ih hmem
    · exact ⟨n % 16, Nat.mod_lt _ (by decide), List.mem_singleton.mp hmem⟩

theorem length_hexDigits (places n : Nat) : (hexDigits places n).length = places := by
  induction places generalizing n with
  | zero => rfl
  | succ places ih => rw [hexDigits, List.length_append, ih, List.length_singleton]

theorem foldl_hexDigits {places n : Nat} (h : n < 16 ^ places) :
    (hexDigits places n).foldl (fun value digit => 16 * value + (hexVal digit).getD 0) 0 = n := by
  induction places generalizing n with
  | zero =>
    have hzero : n = 0 := by omega
    rw [hzero]
    rfl
  | succ places ih =>
    have hpre : n / 16 < 16 ^ places := by
      rw [Nat.div_lt_iff_lt_mul (by decide), ← Nat.pow_succ]
      exact h
    rw [hexDigits, List.foldl_append, ih hpre, List.foldl_cons, List.foldl_nil,
      hexVal_hexTable _ (Nat.mod_lt _ (by decide)), Option.getD_some]
    omega

/-- The digits of a word are read back as the word. -/
theorem hexValue_hexWord (word : U32) : hexValue (hexWord word) = word := by
  unfold hexValue hexWord
  rw [foldl_hexDigits word.isLt, BitVec.ofNat_toNat, BitVec.setWidth_eq]

theorem Written.hexWord (word : U32) :
    Written (quoted (hexWord word)) (.string (hexWord word)) := by
  refine Written.plain fun byte hbyte => ?_
  obtain ⟨nibble, hnibble, rfl⟩ := mem_hexDigits hbyte
  exact plain_hexTable nibble hnibble

/-! ## The encoders -/

/-- What an encoder promises: without a value, because an argument is NULL, it fails
into every buffer; else it writes one message, or fails where that does not fit or has
no length that is an `int`. -/
def Encodes (encode : List U8 → Int × List U8) (value : Option JsonValue) : Prop :=
  (∀ buffer, (encode buffer).2.length = buffer.length) ∧
    match value with
    | none => ∀ buffer, JsonWriter.Fails (encode buffer)
    | some value => ∃ message, IsRequest message value ∧ ∀ buffer,
        if message.length < buffer.length ∧ (message.length : Int) ≤ INT_MAX then
          JsonWriter.Leaves message (encode buffer)
        else JsonWriter.Fails (encode buffer)

/-- The encoder writes this message where it fits. -/
def EncodesTo (encode : List U8 → Int × List U8) (message : List U8) : Prop :=
  ∀ buffer, (encode buffer).2.length = buffer.length ∧
    if message.length < buffer.length ∧ (message.length : Int) ≤ INT_MAX then
      JsonWriter.Leaves message (encode buffer)
    else JsonWriter.Fails (encode buffer)

theorem EncodesTo.encodes {encode : List U8 → Int × List U8} {message : List U8}
    {value : JsonValue} (h : EncodesTo encode message) (hmessage : IsRequest message value) :
    Encodes encode (some value) :=
  ⟨fun buffer => (h buffer).1, message, hmessage, fun buffer => (h buffer).2⟩

/-- An encoder whose writer ends up with a message. -/
theorem encodesTo_of_holds {encode : List U8 → Int × List U8} {body : JsonWriter → JsonWriter}
    {message : List U8}
    (hencode : ∀ buffer, encode buffer = match JsonWriter.init buffer with
      | none => (-1, buffer)
      | some writer => (body writer).finish)
    (hbody : ∀ capacity writer, JsonWriter.Holds capacity [] writer →
      (body writer).Holds capacity message) : EncodesTo encode message := by
  intro buffer
  rw [hencode]
  by_cases hempty : buffer = []
  · rw [hempty]
    exact ⟨rfl, by rw [if_neg (fun hboth => Nat.not_lt_zero _ hboth.1)]; exact ⟨rfl, rfl⟩⟩
  · obtain ⟨writer, hinit, hholds, -⟩ := JsonWriter.holds_init hempty
    rw [hinit]
    exact (hbody _ writer hholds).finish (List.length_pos_iff.mpr hempty)

/-- An encoder with an argument that is NULL. -/
theorem encodes_none {encode : List U8 → Int × List U8}
    (hencode : ∀ buffer, encode buffer = match JsonWriter.init buffer with
      | none => (-1, buffer)
      | some writer => (-1, writer.buffer)) : Encodes encode none := by
  have hspec : ∀ buffer, (encode buffer).2.length = buffer.length ∧
      JsonWriter.Fails (encode buffer) := by
    intro buffer
    rw [hencode]
    by_cases hempty : buffer = []
    · rw [hempty]
      exact ⟨rfl, rfl, rfl⟩
    · obtain ⟨writer, hinit, hholds, rest, hrest⟩ := JsonWriter.holds_init hempty
      rw [hinit]
      refine ⟨hholds.1, rfl, ?_⟩
      show JsonWriter.cString writer.buffer = []
      rw [hrest]
      rfl
  exact ⟨fun buffer => (hspec buffer).1, fun buffer => (hspec buffer).2⟩

/-- A request of a method. -/
def requestValue (messageId : Int) (method : String) (params : List JsonValue) : JsonValue :=
  .object [(cText "id", .number messageId 0), (cText "method", .string (cText method)),
    (cText "params", .array params)]

/-- The text of a request. -/
def requestText (messageId : Int) (method : String) (params : List (List U8)) : List U8 :=
  objectText [memberText (cText "id") (integerText messageId),
    memberText (cText "method") (quoted (cText method)),
    memberText (cText "params") (arrayText params)] ++ [10#8]

/-- The text as it is appended, from its first byte on. -/
theorem requestText_eq (messageId : Int) (method : String) (params : List (List U8)) :
    requestText messageId method params
      = cText "\x7b\"id\":" ++ (integerText messageId ++ (cText ",\"method\":\"" ++ (cText method ++
        (cText "\",\"params\":[" ++ (commaJoined params ++ cText "]\x7d\n"))))) := by
  simp [requestText, objectText, memberText, arrayText, commaJoined, quoted, cText]

theorem quoted_eq (text : List U8) : quoted text = cText "\"" ++ (text ++ cText "\"") := rfl

theorem comma_cons (text : List U8) : 44#8 :: text = cText "," ++ text := rfl

theorem isRequest_requestText (messageId : Int) {method : String}
    (hmethod : ∀ byte ∈ cText method, Plain byte) {params : List (List U8 × JsonValue)}
    (hne : params ≠ []) (hparams : ∀ param ∈ params, Written param.1 param.2) :
    IsRequest (requestText messageId method (params.map Prod.fst))
      (requestValue messageId method (params.map Prod.snd)) := by
  have hid : ∀ byte ∈ cText "id", Plain byte := by decide
  have hname : ∀ byte ∈ cText "method", Plain byte := by decide
  have hkey : ∀ byte ∈ cText "params", Plain byte := by decide
  refine @isRequest_object [⟨cText "id", integerText messageId, .number messageId 0⟩,
    ⟨cText "method", quoted (cText method), .string (cText method)⟩,
    ⟨cText "params", arrayText (params.map Prod.fst), .array (params.map Prod.snd)⟩]
    (List.cons_ne_nil _ _) ?_
  simp only [List.mem_cons, List.not_mem_nil, or_false]
  rintro member (rfl | rfl | rfl)
  · exact ⟨hid, .integer messageId⟩
  · exact ⟨hname, .plain hmethod⟩
  · exact ⟨hkey, .array hne hparams⟩

theorem authorize_encodesTo (messageId : Int) (username password : CString) :
    EncodesTo
      (fun buffer => stratumV1EncodeAuthorize buffer messageId (some username) (some password))
      (requestText messageId "mining.authorize"
        [quoted (JsonWriter.escapedText username), quoted (JsonWriter.escapedText password)]) := by
  refine encodesTo_of_holds (fun buffer => rfl) fun capacity writer hholds => ?_
  have hwritten := ((((hholds.appendFormat (cText "\x7b\"id\":" ++ integerText messageId ++
    cText ",\"method\":\"mining.authorize\",\"params\":[")).appendString username).appendBytes
    (cText ",")).appendString password).appendBytes (cText "]\x7d\n")
  have hmethod : cText ",\"method\":\"mining.authorize\",\"params\":["
      = cText ",\"method\":\"" ++ cText "mining.authorize" ++ cText "\",\"params\":[" := rfl
  have htext : requestText messageId "mining.authorize"
      [quoted (JsonWriter.escapedText username), quoted (JsonWriter.escapedText password)]
      = [] ++ (cText "\x7b\"id\":" ++ integerText messageId ++
        cText ",\"method\":\"mining.authorize\",\"params\":[")
        ++ quoted (JsonWriter.escapedText username) ++ cText ","
        ++ quoted (JsonWriter.escapedText password) ++ cText "]\x7d\n" := by
    rw [requestText_eq, hmethod]
    simp only [commaJoined, comma_cons, List.append_assoc, List.nil_append]
  exact htext ▸ hwritten

theorem encodes_authorize (messageId : Int) (username password : CString) :
    Encodes
      (fun buffer => stratumV1EncodeAuthorize buffer messageId (some username) (some password))
      (some (requestValue messageId "mining.authorize"
        [.string username.bytes, .string password.bytes])) := by
  refine (authorize_encodesTo messageId username password).encodes ?_
  refine @isRequest_requestText messageId "mining.authorize" (by decide)
    [(_, .string username.bytes), (_, .string password.bytes)] (List.cons_ne_nil _ _) ?_
  simp only [List.mem_cons, List.not_mem_nil, or_false]
  rintro param (rfl | rfl)
  · exact .string username
  · exact .string password

/-- The user agent: the model and the version behind a fixed name. -/
theorem Written.userAgent (model version : CString) :
    Written
      (quoted (cText "bitaxe/" ++ JsonWriter.escapedText model ++ cText "/" ++
        JsonWriter.escapedText version))
      (.string (cText "bitaxe/" ++ model.bytes ++ cText "/" ++ version.bytes)) := by
  have hname : ∀ byte ∈ cText "bitaxe/", Plain byte := by decide
  have hslash : ∀ byte ∈ cText "/", Plain byte := by decide
  have hspells := (((SpellsChars.of_plain hname).append (spellsChars_escapedText model)).append
    (SpellsChars.of_plain hslash)).append (spellsChars_escapedText version)
  have hline := (((oneLine_of_plain hname).append (oneLine_escapedText model)).append
    (oneLine_of_plain hslash)).append (oneLine_escapedText version)
  exact ⟨.quoted hspells, hline.quoted⟩

theorem encodes_subscribe (messageId : Int) (model version : CString) :
    Encodes
      (fun buffer => stratumV1EncodeSubscribe buffer messageId (some model) (some version))
      (some (requestValue messageId "mining.subscribe"
        [.string (cText "bitaxe/" ++ model.bytes ++ cText "/" ++ version.bytes)])) := by
  have hrequest := @isRequest_requestText messageId "mining.subscribe" (by decide)
    [(_, .string (cText "bitaxe/" ++ model.bytes ++ cText "/" ++ version.bytes))]
    (List.cons_ne_nil _ _) (by
      intro param hparam
      obtain rfl := List.mem_singleton.mp hparam
      exact .userAgent model version)
  refine (encodesTo_of_holds (fun buffer => rfl) fun capacity writer hholds => ?_).encodes hrequest
  have hwritten := ((((hholds.appendFormat (cText "\x7b\"id\":" ++ integerText messageId ++
    cText ",\"method\":\"mining.subscribe\",\"params\":[\"bitaxe/")).appendEscaped
    model).appendBytes (cText "/")).appendEscaped version).appendBytes (cText "\"]\x7d\n")
  have hmethod : cText ",\"method\":\"mining.subscribe\",\"params\":[\"bitaxe/"
      = cText ",\"method\":\"" ++ cText "mining.subscribe" ++ cText "\",\"params\":["
        ++ cText "\"" ++ cText "bitaxe/" := rfl
  have hclosing : cText "\"]\x7d\n" = cText "\"" ++ cText "]\x7d\n" := rfl
  have htext : requestText messageId "mining.subscribe"
      [quoted (cText "bitaxe/" ++ JsonWriter.escapedText model ++ cText "/" ++
        JsonWriter.escapedText version)]
      = [] ++ (cText "\x7b\"id\":" ++ integerText messageId ++
        cText ",\"method\":\"mining.subscribe\",\"params\":[\"bitaxe/")
        ++ JsonWriter.escapedText model ++ cText "/" ++ JsonWriter.escapedText version
        ++ cText "\"]\x7d\n" := by
    rw [requestText_eq, hmethod, hclosing]
    simp only [commaJoined, quoted_eq, List.append_assoc, List.nil_append]
  exact htext ▸ hwritten

theorem encodes_versionResponse (messageId : Int) (version : CString) :
    Encodes (fun buffer => stratumV1EncodeVersionResponse buffer messageId (some version))
      (some (.object [(cText "id", .number messageId 0), (cText "result", .string version.bytes),
        (cText "error", .null)])) := by
  have hid : ∀ byte ∈ cText "id", Plain byte := by decide
  have hresult : ∀ byte ∈ cText "result", Plain byte := by decide
  have herror : ∀ byte ∈ cText "error", Plain byte := by decide
  have hrequest := @isRequest_object [⟨cText "id", integerText messageId, .number messageId 0⟩,
    ⟨cText "result", quoted (JsonWriter.escapedText version), .string version.bytes⟩,
    ⟨cText "error", cText "null", .null⟩] (List.cons_ne_nil _ _) (by
      simp only [List.mem_cons, List.not_mem_nil, or_false]
      rintro member (rfl | rfl | rfl)
      · exact ⟨hid, .integer messageId⟩
      · exact ⟨hresult, .string version⟩
      · exact ⟨herror, .null, by unfold OneLine; decide⟩)
  refine (encodesTo_of_holds (fun buffer => rfl) fun capacity writer hholds => ?_).encodes hrequest
  have hwritten := ((hholds.appendFormat (cText "\x7b\"id\":" ++ integerText messageId ++
    cText ",\"result\":")).appendString version).appendBytes (cText ",\"error\":null\x7d\n")
  have htext : objectText [memberText (cText "id") (integerText messageId),
      memberText (cText "result") (quoted (JsonWriter.escapedText version)),
      memberText (cText "error") (cText "null")] ++ [10#8]
      = [] ++ (cText "\x7b\"id\":" ++ integerText messageId ++ cText ",\"result\":")
        ++ quoted (JsonWriter.escapedText version) ++ cText ",\"error\":null\x7d\n" := by
    simp [objectText, memberText, commaJoined, quoted, cText]
  exact htext ▸ hwritten

/-- The texts and values of a share's parameters. -/
def submitParams (username jobId extranonce2 : CString) (ntime nonce : U32)
    (versionBits : Option U32) : List (List U8 × JsonValue) :=
  [(quoted (JsonWriter.escapedText username), .string username.bytes),
    (quoted (JsonWriter.escapedText jobId), .string jobId.bytes),
    (quoted (JsonWriter.escapedText extranonce2), .string extranonce2.bytes),
    (quoted (hexWord ntime), .string (hexWord ntime)),
    (quoted (hexWord nonce), .string (hexWord nonce))] ++
    versionBits.toList.map fun bits => (quoted (hexWord bits), .string (hexWord bits))

theorem written_submitParams (username jobId extranonce2 : CString) (ntime nonce : U32)
    (versionBits : Option U32) :
    ∀ param ∈ submitParams username jobId extranonce2 ntime nonce versionBits,
      Written param.1 param.2 := by
  intro param hparam
  rcases List.mem_append.mp hparam with hparam | hparam
  · simp only [List.mem_cons, List.not_mem_nil, or_false] at hparam
    rcases hparam with rfl | rfl | rfl | rfl | rfl
    · exact .string username
    · exact .string jobId
    · exact .string extranonce2
    · exact .hexWord ntime
    · exact .hexWord nonce
  · obtain ⟨bits, -, rfl⟩ := List.mem_map.mp hparam
    exact .hexWord bits

theorem encodes_submitShare (messageId : Int) (username jobId extranonce2 : CString)
    (ntime nonce : U32) (versionBits : Option U32) :
    Encodes
      (fun buffer => stratumV1EncodeSubmitShare buffer messageId (some username) (some jobId)
        (some extranonce2) ntime nonce versionBits)
      (some (requestValue messageId "mining.submit"
        ((submitParams username jobId extranonce2 ntime nonce versionBits).map Prod.snd))) := by
  have hrequest := @isRequest_requestText messageId "mining.submit" (by decide)
    (submitParams username jobId extranonce2 ntime nonce versionBits) (List.cons_ne_nil _ _)
    (written_submitParams username jobId extranonce2 ntime nonce versionBits)
  refine (encodesTo_of_holds (fun buffer => rfl) fun capacity writer hholds => ?_).encodes hrequest
  have hmethod : cText ",\"method\":\"mining.submit\",\"params\":["
      = cText ",\"method\":\"" ++ cText "mining.submit" ++ cText "\",\"params\":[" := rfl
  have hnext : cText ",\"" = cText "," ++ cText "\"" := rfl
  have hbetween : cText "\",\"" = cText "\"" ++ (cText "," ++ cText "\"") := rfl
  have hcommon := ((((((hholds.appendFormat (cText "\x7b\"id\":" ++ integerText messageId ++
    cText ",\"method\":\"mining.submit\",\"params\":[")).appendString username).appendBytes
    (cText ",")).appendString jobId).appendBytes (cText ",")).appendString
    extranonce2).appendFormat (cText ",\"" ++ hexWord ntime ++ cText "\",\"" ++
      hexWord nonce ++ cText "\"")
  have htext : requestText messageId "mining.submit"
      ((submitParams username jobId extranonce2 ntime nonce versionBits).map Prod.fst)
      = [] ++ (cText "\x7b\"id\":" ++ integerText messageId ++
          cText ",\"method\":\"mining.submit\",\"params\":[")
        ++ quoted (JsonWriter.escapedText username) ++ cText ","
        ++ quoted (JsonWriter.escapedText jobId) ++ cText ","
        ++ quoted (JsonWriter.escapedText extranonce2)
        ++ (cText ",\"" ++ hexWord ntime ++ cText "\",\"" ++ hexWord nonce ++ cText "\"")
        ++ versionBits.elim [] (fun bits => cText ",\"" ++ hexWord bits ++ cText "\"")
        ++ cText "]\x7d\n" := by
    rw [requestText_eq, hmethod]
    cases versionBits <;>
      simp only [submitParams, Option.toList, Option.elim, List.map_cons, List.map_nil,
        List.append_nil, List.cons_append, List.nil_append, commaJoined, comma_cons, quoted_eq,
        hnext, hbetween, List.append_assoc]
  rw [htext]
  cases versionBits with
  | none => exact (List.append_nil _).symm ▸ hcommon.appendBytes (cText "]\x7d\n")
  | some bits =>
    exact (hcommon.appendFormat (cText ",\"" ++ hexWord bits ++ cText "\"")).appendBytes
      (cText "]\x7d\n")

/-- **Requests cannot be corrupted by their strings.**  Every encoder that is given its
strings writes one line of JSON with the strings as they are, or fails with an empty
string when that line with its terminator does not fit or is longer than an `int` says;
without one of its strings it fails. -/
theorem sv1_requests_whole (messageId : Int) :
    (∀ model version, Encodes
      (fun buffer => stratumV1EncodeSubscribe buffer messageId model version)
      (model.bind fun model => version.bind fun version =>
        some (requestValue messageId "mining.subscribe"
          [.string (cText "bitaxe/" ++ model.bytes ++ cText "/" ++ version.bytes)]))) ∧
    (∀ username password, Encodes
      (fun buffer => stratumV1EncodeAuthorize buffer messageId username password)
      (username.bind fun username => password.bind fun password =>
        some (requestValue messageId "mining.authorize"
          [.string username.bytes, .string password.bytes]))) ∧
    (∀ version, Encodes
      (fun buffer => stratumV1EncodeVersionResponse buffer messageId version)
      (version.bind fun version =>
        some (.object [(cText "id", .number messageId 0), (cText "result", .string version.bytes),
          (cText "error", .null)]))) ∧
    (∀ username jobId extranonce2 ntime nonce versionBits, Encodes
      (fun buffer => stratumV1EncodeSubmitShare buffer messageId username jobId extranonce2 ntime
        nonce versionBits)
      (username.bind fun username => jobId.bind fun jobId => extranonce2.bind fun extranonce2 =>
        some (requestValue messageId "mining.submit"
          ([.string username.bytes, .string jobId.bytes, .string extranonce2.bytes,
            .string (hexWord ntime), .string (hexWord nonce)] ++
            versionBits.toList.map fun bits => .string (hexWord bits))))) ∧
    ∀ word, (hexWord word).length = 8 ∧ hexValue (hexWord word) = word := by
  refine ⟨fun model version => ?_, fun username password => ?_, fun version => ?_,
    fun username jobId extranonce2 ntime nonce versionBits => ?_,
    fun word => ⟨length_hexDigits 8 word.toNat, hexValue_hexWord word⟩⟩
  · cases model with
    | none => exact encodes_none fun buffer => rfl
    | some model =>
      cases version with
      | none => exact encodes_none fun buffer => rfl
      | some version => exact encodes_subscribe messageId model version
  · cases username with
    | none => exact encodes_none fun buffer => rfl
    | some username =>
      cases password with
      | none => exact encodes_none fun buffer => rfl
      | some password => exact encodes_authorize messageId username password
  · cases version with
    | none => exact encodes_none fun buffer => rfl
    | some version => exact encodes_versionResponse messageId version
  · cases username with
    | none => exact encodes_none fun buffer => rfl
    | some username =>
      cases jobId with
      | none => exact encodes_none fun buffer => rfl
      | some jobId =>
        cases extranonce2 with
        | none => exact encodes_none fun buffer => rfl
        | some extranonce2 =>
          have hencodes := encodes_submitShare messageId username jobId extranonce2 ntime nonce
            versionBits
          rw [submitParams, List.map_append, List.map_map] at hencodes
          exact hencodes

/-! ## A message that is too long for an `int` -/

/-- A username of 2 GiB. -/
def longUsername : CString where
  bytes := List.replicate (2 ^ 31) 97#8
  nulFree := fun hmem => absurd (List.eq_of_mem_replicate hmem) (by decide)

theorem length_le_escapedText (value : CString) :
    value.bytes.length ≤ (JsonWriter.escapedText value).length := by
  unfold JsonWriter.escapedText
  induction value.bytes with
  | nil => exact Nat.zero_le _
  | cons character characters ih =>
    have hone : 1 ≤ (JsonWriter.characterText character).length := by
      rcases characterText_cases character with
        ⟨letter, -, -, htext⟩ | ⟨-, htext⟩ | ⟨-, -, -, htext⟩
      all_goals
        rw [htext]
        exact Nat.le_add_left 1 _
    rw [List.flatMap_cons, List.length_append, List.length_cons]
    omega

/-- No buffer is large enough for a username that is longer than an `int` says. -/
theorem authorize_fails_of_long (messageId : Int) (username password : CString)
    (h : INT_MAX < username.bytes.length) (buffer : List U8) :
    JsonWriter.Fails
      (stratumV1EncodeAuthorize buffer messageId (some username) (some password)) := by
  have hspec := (authorize_encodesTo messageId username password buffer).2
  have hlength := length_le_escapedText username
  rw [if_neg] at hspec
  · exact hspec
  · rintro ⟨-, hint⟩
    rw [requestText_eq] at hint
    simp only [commaJoined, quoted, List.length_append, List.length_cons] at hint
    omega

/-- A message of 2 GiB fits into a buffer of its length and one, and is not written. -/
theorem authorize_longUsername :
    ¬ ∃ message, IsRequest message (requestValue 1 "mining.authorize"
        [.string longUsername.bytes, .string []]) ∧
      ∀ buffer : List U8, message.length < buffer.length →
        JsonWriter.Leaves message
          (stratumV1EncodeAuthorize buffer 1 (some longUsername) (some ⟨[], nofun⟩)) := by
  rintro ⟨message, -, hwrites⟩
  have hlong : INT_MAX < longUsername.bytes.length := by
    rw [longUsername, List.length_replicate]
    decide
  have hleaves := hwrites (List.replicate (message.length + 1) 0#8)
    (by rw [List.length_replicate]; exact Nat.lt_succ_self _)
  have hfails := authorize_fails_of_long 1 longUsername ⟨[], nofun⟩ hlong
    (List.replicate (message.length + 1) 0#8)
  have hlength := hleaves.1.symm.trans hfails.1
  omega

end EspMiner
