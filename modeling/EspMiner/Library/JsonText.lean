import EspMiner.Library.Decimal
import EspMiner.Library.Json

/-!
# JSON texts

A reader of JSON texts as lists of bytes.  A string is the bytes it stands for, where
an escaped code point stands for its UTF-8 bytes, and a number is a decimal, its
digits as an integer and a power of ten.  The rules of the second part say how the
text of a value is put together so that the reader gives the value back.
-/

namespace EspMiner.Library

inductive JsonValue where
  | null
  | bool (value : Bool)
  | number (digits exponent : Int)
  | string (bytes : List (BitVec 8))
  | array (items : List JsonValue)
  | object (members : List (List (BitVec 8) × JsonValue))

namespace JsonText

/-! ## Strings -/

/-- The value of a hexadecimal digit of either case. -/
def hexDigit (byte : BitVec 8) : Option Nat :=
  (cText "0123456789abcdef").idxOf? (lowerByte byte)

/-- The value of four hexadecimal digits. -/
def hexQuad (a b c d : BitVec 8) : Option Nat := do
  let a ← hexDigit a
  let b ← hexDigit b
  let c ← hexDigit c
  let d ← hexDigit d
  some (4096 * a + 256 * b + 16 * c + d)

/-- The UTF-8 bytes of a code point. -/
def utf8 (code : Nat) : List (BitVec 8) :=
  let tail (shift : Nat) := BitVec.ofNat 8 (128 + code / 2 ^ shift % 64)
  if code < 128 then [BitVec.ofNat 8 code]
  else if code < 2048 then [BitVec.ofNat 8 (192 + code / 2 ^ 6), tail 0]
  else if code < 65536 then [BitVec.ofNat 8 (224 + code / 2 ^ 12), tail 6, tail 0]
  else [BitVec.ofNat 8 (240 + code / 2 ^ 18), tail 12, tail 6, tail 0]

/-- What a letter after a backslash stands for. -/
def simpleEscape (letter : BitVec 8) : Option (BitVec 8) :=
  if letter = 34#8 ∨ letter = 92#8 ∨ letter = 47#8 then some letter
  else if letter = 98#8 then some 8#8
  else if letter = 102#8 then some 12#8
  else if letter = 110#8 then some 10#8
  else if letter = 114#8 then some 13#8
  else if letter = 116#8 then some 9#8
  else none

/-- Bytes in front of the string that was read. -/
def prepend (bytes : List (BitVec 8)) (read : Option (List (BitVec 8) × List (BitVec 8))) :
    Option (List (BitVec 8) × List (BitVec 8)) :=
  read.map fun found => (bytes ++ found.1, found.2)

/-- A string from behind its opening quote, and what follows its closing quote. -/
def readString : List (BitVec 8) → Option (List (BitVec 8) × List (BitVec 8))
  | [] => none
  | byte :: text =>
      if byte = 34#8 then some ([], text)
      else if byte.toNat < 32 then none
      else if byte ≠ 92#8 then prepend [byte] (readString text)
      else
        match text with
        | [] => none
        | letter :: text =>
            if letter ≠ 117#8 then (simpleEscape letter).bind fun byte =>
              prepend [byte] (readString text)
            else
              match text with
              | a :: b :: c :: d :: text => (hexQuad a b c d).bind fun high =>
                  if high < 0xd800 ∨ 0xdfff < high then prepend (utf8 high) (readString text)
                  else
                    -- the first of two surrogates needs the second
                    match text with
                    | slash :: letter :: a :: b :: c :: d :: text =>
                        (hexQuad a b c d).bind fun low =>
                          if slash = 92#8 ∧ letter = 117#8 ∧ high < 0xdc00 ∧ 0xdc00 ≤ low ∧
                              low ≤ 0xdfff then
                            prepend (utf8 (65536 + 1024 * (high - 0xd800) + (low - 0xdc00)))
                              (readString text)
                          else none
                    | _ => none
              | _ => none

/-! ## Numbers -/

/-- The digits in front of a text; there must be some. -/
def readDigits (text : List (BitVec 8)) : Option (List (BitVec 8) × List (BitVec 8)) :=
  if text.takeWhile isDigit = [] then none
  else some (text.takeWhile isDigit, text.dropWhile isDigit)

/-- The digits behind a point. -/
def readFraction : List (BitVec 8) → Option (List (BitVec 8) × List (BitVec 8))
  | [] => some ([], [])
  | byte :: text => if byte = 46#8 then readDigits text else some ([], byte :: text)

def readExponent : List (BitVec 8) → Option (Int × List (BitVec 8))
  | [] => some (0, [])
  | byte :: text =>
      if byte = 101#8 ∨ byte = 69#8 then
        let signed := splitSign text
        (readDigits signed.2).map fun found =>
          (if signed.1 then -(digitsValue found.1 : Int) else digitsValue found.1, found.2)
      else some (0, byte :: text)

/-- The digits of a number: no zero stands in front of others. -/
def readUnsigned (text : List (BitVec 8)) : Option ((Nat × Int) × List (BitVec 8)) := do
  let whole ← readDigits text
  guard (whole.1.head? = some 48#8 → whole.1 = [48#8])
  let fraction ← readFraction whole.2
  let exponent ← readExponent fraction.2
  some ((digitsValue (whole.1 ++ fraction.1), exponent.1 - fraction.1.length), exponent.2)

def readNumber : List (BitVec 8) → Option (JsonValue × List (BitVec 8))
  | [] => none
  | byte :: text =>
      if byte = 45#8 then
        (readUnsigned text).map fun found => (.number (-found.1.1) found.1.2, found.2)
      else
        (readUnsigned (byte :: text)).map fun found => (.number found.1.1 found.1.2, found.2)

/-! ## Values -/

/-- The text behind the blanks. -/
def skipBlanks (text : List (BitVec 8)) : List (BitVec 8) :=
  text.dropWhile fun byte => decide (byte = 32#8 ∨ byte = 9#8 ∨ byte = 10#8 ∨ byte = 13#8)

/-- A fixed name in front of a text. -/
def readName (name : String) (value : JsonValue) (text : List (BitVec 8)) :
    Option (JsonValue × List (BitVec 8)) :=
  if (cText name).isPrefixOf text then some (value, text.drop (cText name).length) else none

/-- What follows an item: a comma, with what the reader of further items makes of the
text behind it, or the closing byte. -/
def readNext {item : Type} (closing : BitVec 8) (first : item)
    (more : List (BitVec 8) → Option (List item × List (BitVec 8))) (text : List (BitVec 8)) :
    Option (List item × List (BitVec 8)) :=
  match skipBlanks text with
  | [] => none
  | byte :: text =>
      if byte = 44#8 then (more text).map fun found => (first :: found.1, found.2)
      else if byte = closing then some ([first], text)
      else none

mutual

/-- The value in front of a text; every nested reader takes one from the count. -/
def readValue : Nat → List (BitVec 8) → Option (JsonValue × List (BitVec 8))
  | 0, _ => none
  | fuel + 1, text =>
      match skipBlanks text with
      | [] => none
      | byte :: text =>
          if byte = 34#8 then (readString text).map fun found => (.string found.1, found.2)
          else if byte = 91#8 then
            if (skipBlanks text).head? = some 93#8 then some (.array [], (skipBlanks text).tail)
            else (readItems fuel text).map fun found => (.array found.1, found.2)
          else if byte = 123#8 then
            if (skipBlanks text).head? = some 125#8 then some (.object [], (skipBlanks text).tail)
            else (readMembers fuel text).map fun found => (.object found.1, found.2)
          else if byte = 110#8 then readName "null" .null (byte :: text)
          else if byte = 116#8 then readName "true" (.bool true) (byte :: text)
          else if byte = 102#8 then readName "false" (.bool false) (byte :: text)
          else readNumber (byte :: text)

/-- The items of an array up to its closing bracket. -/
def readItems : Nat → List (BitVec 8) → Option (List JsonValue × List (BitVec 8))
  | 0, _ => none
  | fuel + 1, text =>
      (readValue fuel text).bind fun item => readNext 93#8 item.1 (readItems fuel) item.2

/-- The members of an object up to its closing brace. -/
def readMembers :
    Nat → List (BitVec 8) → Option (List (List (BitVec 8) × JsonValue) × List (BitVec 8))
  | 0, _ => none
  | fuel + 1, text =>
      match skipBlanks text with
      | [] => none
      | quote :: text =>
          if quote ≠ 34#8 then none
          else (readString text).bind fun name =>
            match skipBlanks name.2 with
            | [] => none
            | colon :: text =>
                if colon ≠ 58#8 then none
                else (readValue fuel text).bind fun value =>
                  readNext 125#8 (name.1, value.1) (readMembers fuel) value.2

end

/-- A text that is one value, between blanks. -/
def readJson (text : List (BitVec 8)) : Option JsonValue :=
  (readValue (text.length + 1) text).bind fun found =>
    if skipBlanks found.2 = [] then some found.1 else none

/-! ## Texts that are read back -/

/-- A piece of a string's text that stands for these bytes, whatever follows. -/
def SpellsChars (text bytes : List (BitVec 8)) : Prop :=
  ∀ rest, readString (text ++ rest) = prepend bytes (readString rest)

/-- What follows a value does not go on with a number. -/
def Ended (rest : List (BitVec 8)) : Prop :=
  ∀ byte ∈ rest.head?, isDigit byte = false ∧ byte ≠ 46#8 ∧ byte ≠ 101#8 ∧ byte ≠ 69#8

/-- A text that is read as this value; its length is enough fuel. -/
def Spells (text : List (BitVec 8)) (value : JsonValue) : Prop :=
  ∀ fuel, text.length ≤ fuel → ∀ rest, Ended rest →
    readValue fuel (text ++ rest) = some (value, rest)

variable {text bytes rest : List (BitVec 8)}

theorem prepend_prepend (bytes more : List (BitVec 8))
    (read : Option (List (BitVec 8) × List (BitVec 8))) :
    prepend bytes (prepend more read) = prepend (bytes ++ more) read := by
  cases read <;> simp [prepend]

theorem SpellsChars.nil : SpellsChars [] [] := by
  intro rest
  cases hread : readString rest <;> simp [prepend, hread]

theorem SpellsChars.append {text' bytes' : List (BitVec 8)} (h : SpellsChars text bytes)
    (h' : SpellsChars text' bytes') : SpellsChars (text ++ text') (bytes ++ bytes') := by
  intro rest
  rw [List.append_assoc, h, h', prepend_prepend]

/-- A string is spelled byte by byte. -/
theorem SpellsChars.flatMap {piece : BitVec 8 → List (BitVec 8)}
    (h : ∀ byte ∈ bytes, SpellsChars (piece byte) [byte]) :
    SpellsChars (bytes.flatMap piece) bytes := by
  induction bytes with
  | nil => exact SpellsChars.nil
  | cons byte bytes ih =>
    rw [List.flatMap_cons]
    obtain ⟨hbyte, hbytes⟩ := List.forall_mem_cons.mp h
    exact hbyte.append (ih hbytes)

theorem SpellsChars.plain {byte : BitVec 8} (hcontrol : 32 ≤ byte.toNat) (hquote : byte ≠ 34#8)
    (hslash : byte ≠ 92#8) : SpellsChars [byte] [byte] := by
  intro rest
  rw [List.singleton_append, readString.eq_def]
  dsimp only
  rw [if_neg hquote, if_neg (Nat.not_lt.mpr hcontrol), if_pos hslash]

theorem SpellsChars.escape {letter byte : BitVec 8} (hletter : letter ≠ 117#8)
    (hbyte : simpleEscape letter = some byte) : SpellsChars [92#8, letter] [byte] := by
  intro rest
  show readString (92#8 :: letter :: rest) = _
  rw [readString.eq_def]
  dsimp only
  rw [if_neg (by decide), if_neg (by decide), if_neg (by decide), if_pos hletter, hbyte]
  rfl

/-- Four hexadecimal digits that stand for one byte. -/
theorem SpellsChars.quad {a b c d : BitVec 8} {code : Nat} (hcode : hexQuad a b c d = some code)
    (hascii : code < 128) :
    SpellsChars [92#8, 117#8, a, b, c, d] [BitVec.ofNat 8 code] := by
  intro rest
  show readString (92#8 :: 117#8 :: a :: b :: c :: d :: rest) = _
  rw [readString.eq_def]
  dsimp only
  rw [if_neg (by decide), if_neg (by decide), if_neg (by decide), if_neg (by decide), hcode,
    Option.bind_some, if_pos (by omega), utf8, if_pos hascii]

/-- Printable bytes other than a quote and a backslash stand for themselves. -/
theorem SpellsChars.of_plain
    (h : ∀ byte ∈ bytes, 32 ≤ byte.toNat ∧ byte ≠ 34#8 ∧ byte ≠ 92#8) :
    SpellsChars bytes bytes := by
  have hflat : bytes.flatMap (fun byte => [byte]) = bytes := List.flatMap_singleton' bytes
  have hspelled := @SpellsChars.flatMap bytes (fun byte => [byte]) fun byte hbyte =>
    SpellsChars.plain (h byte hbyte).1 (h byte hbyte).2.1 (h byte hbyte).2.2
  rwa [hflat] at hspelled

theorem readString_closed (h : SpellsChars text bytes) (rest : List (BitVec 8)) :
    readString (text ++ 34#8 :: rest) = some (bytes, rest) := by
  rw [h, readString.eq_def]
  dsimp only
  rw [if_pos rfl, prepend, Option.map_some, List.append_nil]

/-- A text between quotes. -/
def quoted (text : List (BitVec 8)) : List (BitVec 8) := 34#8 :: (text ++ [34#8])

theorem skipBlanks_cons {byte : BitVec 8} (h : 32 < byte.toNat) (text : List (BitVec 8)) :
    skipBlanks (byte :: text) = byte :: text := by
  unfold skipBlanks
  rw [List.dropWhile_cons_of_neg]
  rw [decide_eq_true_eq]
  rintro (rfl | rfl | rfl | rfl) <;> exact absurd h (by decide)

theorem Spells.quoted (h : SpellsChars text bytes) : Spells (quoted text) (.string bytes) := by
  intro fuel hfuel rest _
  obtain ⟨fuel, rfl⟩ := Nat.exists_eq_add_of_le' (Nat.le_trans (Nat.le_add_left 1 _) hfuel)
  have htext : JsonText.quoted text ++ rest = 34#8 :: (text ++ 34#8 :: rest) := by
    simp [JsonText.quoted]
  rw [htext, readValue, skipBlanks_cons (by decide)]
  dsimp only
  rw [if_pos rfl, readString_closed h]
  rfl

theorem Spells.null : Spells (cText "null") .null := by
  intro fuel hfuel rest _
  obtain ⟨fuel, rfl⟩ := Nat.exists_eq_add_of_le' hfuel
  rfl

/-! ### Integers -/

theorem readDigits_append {digits : List (BitVec 8)} (hne : digits ≠ [])
    (hdigits : ∀ byte ∈ digits, isDigit byte = true) (hrest : Ended rest) :
    readDigits (digits ++ rest) = some (digits, rest) := by
  have hstop : rest.takeWhile isDigit = [] ∧ rest.dropWhile isDigit = rest := by
    cases rest with
    | nil => exact ⟨rfl, rfl⟩
    | cons byte rest =>
      have hbyte := (hrest byte rfl).1
      simp [hbyte]
  unfold readDigits
  rw [List.takeWhile_append_of_pos hdigits, List.dropWhile_append_of_pos hdigits, hstop.1,
    hstop.2, List.append_nil, if_neg hne]

theorem readFraction_ended (hrest : Ended rest) : readFraction rest = some ([], rest) := by
  cases rest with
  | nil => rfl
  | cons byte rest =>
    exact if_neg (hrest byte rfl).2.1

theorem readExponent_ended (hrest : Ended rest) : readExponent rest = some (0, rest) := by
  cases rest with
  | nil => rfl
  | cons byte rest =>
    exact if_neg (not_or.mpr (hrest byte rfl).2.2)

/-- No zero stands in front of the digits of a number. -/
theorem decimalDigits_head (places n : Nat) (h : n < 10 ^ places) :
    (decimalDigits places n).head? = some 48#8 → decimalDigits places n = [48#8] := by
  induction places generalizing n with
  | zero => exact nofun
  | succ places ih =>
    unfold decimalDigits
    split
    · next hsmall =>
      intro hhead
      exact congrArg (fun byte => [byte]) (Option.some.inj hhead)
    · next hlarge =>
      intro hhead
      exfalso
      have hbound : n / 10 < 10 ^ places := by
        rw [Nat.div_lt_iff_lt_mul (by decide), ← Nat.pow_succ]
        exact h
      have hvalue := digitsValue_decimalDigits hbound
      cases hdigits : decimalDigits places (n / 10) with
      | nil =>
        rw [hdigits] at hvalue
        have hzero : n / 10 = 0 := hvalue.symm
        omega
      | cons first digits =>
        rw [hdigits, List.cons_append] at hhead
        have hfirst := ih (n / 10) hbound (by rw [hdigits]; exact hhead)
        rw [hfirst] at hvalue
        have hzero : n / 10 = 0 := hvalue.symm
        omega

theorem readUnsigned_decimalText (n : Nat) (hrest : Ended rest) :
    readUnsigned (decimalText n ++ rest) = some ((n, 0), rest) := by
  have hhead : (decimalText n).head? = some 48#8 → decimalText n = [48#8] :=
    decimalDigits_head (n + 1) n (n.lt_succ_self.trans (Nat.lt_pow_self (by decide)))
  have hguard : (guard ((decimalText n).head? = some 48#8 → decimalText n = [48#8]) : Option Unit)
      = some () := if_pos hhead
  unfold readUnsigned
  rw [readDigits_append (decimalText_ne_nil n) (decimalDigits_isDigit _ _) hrest]
  simp only [Option.bind_eq_bind, Option.bind_some, hguard, readFraction_ended hrest,
    readExponent_ended hrest, List.append_nil, digitsValue_decimalText]
  rfl

/-- The first digit opens a number, not one of the other values. -/
theorem readValue_digit {byte : BitVec 8} (hbyte : isDigit byte = true ∨ byte = 45#8)
    (fuel : Nat) (text : List (BitVec 8)) :
    readValue (fuel + 1) (byte :: text) = readNumber (byte :: text) := by
  have hrange : 45 ≤ byte.toNat ∧ byte.toNat ≤ 57 := by
    rcases hbyte with hdigit | rfl
    · have := of_decide_eq_true hdigit
      omega
    · decide
  have hne : ∀ other : BitVec 8, other.toNat < 45 ∨ 57 < other.toNat → byte ≠ other := by
    rintro other hother rfl
    omega
  rw [readValue, skipBlanks_cons (by omega)]
  dsimp only
  rw [if_neg (hne _ (by decide)), if_neg (hne _ (by decide)), if_neg (hne _ (by decide)),
    if_neg (hne _ (by decide)), if_neg (hne _ (by decide)), if_neg (hne _ (by decide))]

theorem one_le_length_integerText (n : Int) : 1 ≤ (integerText n).length := by
  have hdigits := List.length_pos_iff.mpr (decimalText_ne_nil n.natAbs)
  unfold integerText
  split
  · exact Nat.le_add_left 1 _
  · exact hdigits

theorem Spells.integer (n : Int) : Spells (integerText n) (.number n 0) := by
  intro fuel hfuel rest hrest
  obtain ⟨fuel, rfl⟩ :=
    Nat.exists_eq_add_of_le' (Nat.le_trans (one_le_length_integerText n) hfuel)
  unfold integerText
  split
  · next hnegative =>
    rw [List.cons_append, readValue_digit (.inr rfl), readNumber, if_pos rfl,
      readUnsigned_decimalText n.natAbs hrest]
    simp only [Option.map_some, Option.some.injEq, Prod.mk.injEq, JsonValue.number.injEq,
      and_true]
    omega
  · next hpositive =>
    have hread := readUnsigned_decimalText n.natAbs hrest
    have hdigits := decimalDigits_isDigit (n.natAbs + 1) n.natAbs
    cases htext : decimalText n.natAbs with
    | nil => exact absurd htext (decimalText_ne_nil _)
    | cons byte digits =>
      have hbyte : isDigit byte = true :=
        hdigits byte (by rw [← decimalText, htext]; exact List.mem_cons_self)
      have hminus : byte ≠ 45#8 := by
        rintro rfl
        exact absurd hbyte (by decide)
      rw [htext] at hread
      rw [List.cons_append] at hread ⊢
      rw [readValue_digit (.inl hbyte), readNumber, if_neg hminus, hread]
      simp only [Option.map_some, Option.some.injEq, Prod.mk.injEq, JsonValue.number.injEq,
        and_true]
      omega

/-! ### Arrays and objects -/

/-- Texts with commas between them. -/
def commaJoined : List (List (BitVec 8)) → List (BitVec 8)
  | [] => []
  | [text] => text
  | text :: texts => text ++ 44#8 :: commaJoined texts

def arrayText (texts : List (List (BitVec 8))) : List (BitVec 8) :=
  91#8 :: (commaJoined texts ++ [93#8])

/-- A name and the text of a value. -/
def memberText (name : List (BitVec 8)) (text : List (BitVec 8)) : List (BitVec 8) :=
  quoted name ++ 58#8 :: text

def objectText (members : List (List (BitVec 8))) : List (BitVec 8) :=
  123#8 :: (commaJoined members ++ [125#8])

/-- No value begins with a closing bracket. -/
theorem skipBlanks_ne_bracket {fuel : Nat} {found : JsonValue × List (BitVec 8)}
    (h : readValue fuel text = some found) : (skipBlanks text).head? ≠ some 93#8 := by
  intro hhead
  cases fuel with
  | zero => simp [readValue] at h
  | succ fuel =>
    cases hskip : skipBlanks text with
    | nil =>
      rw [hskip] at hhead
      cases hhead
    | cons byte more =>
      rw [hskip] at hhead
      obtain rfl := Option.some.inj hhead
      rw [readValue, hskip] at h
      simp [readNumber, readUnsigned, readDigits, isDigit] at h

theorem ended_of_closing {byte : BitVec 8} (h : 57 < byte.toNat ∨ byte = 44#8)
    (hletter : byte ≠ 101#8 ∧ byte ≠ 69#8) (rest : List (BitVec 8)) : Ended (byte :: rest) := by
  intro first hfirst
  obtain rfl := Option.some.inj hfirst
  refine ⟨?_, ?_, hletter⟩
  · rcases h with hlarge | rfl
    · simp only [isDigit, decide_eq_false_iff_not]
      omega
    · decide
  · rintro rfl
    exact absurd h (by decide)

/-- What the readers of items and members do behind an item. -/
theorem readNext_comma {item : Type} (closing : BitVec 8) (first : item)
    (more : List (BitVec 8) → Option (List item × List (BitVec 8))) (text : List (BitVec 8)) :
    readNext closing first more (44#8 :: text)
      = (more text).map fun found => (first :: found.1, found.2) := by
  unfold readNext
  rw [skipBlanks_cons (by decide)]
  exact if_pos rfl

theorem readNext_closing {item : Type} {closing : BitVec 8} (hblank : 32 < closing.toNat)
    (hcomma : closing ≠ 44#8) (first : item)
    (more : List (BitVec 8) → Option (List item × List (BitVec 8))) (text : List (BitVec 8)) :
    readNext closing first more (closing :: text) = some ([first], text) := by
  unfold readNext
  rw [skipBlanks_cons hblank]
  dsimp only
  rw [if_neg hcomma, if_pos rfl]

theorem length_commaJoined_cons (text next : List (BitVec 8)) (texts : List (List (BitVec 8))) :
    (commaJoined (text :: next :: texts)).length
      = text.length + ((commaJoined (next :: texts)).length + 1) := by
  rw [commaJoined, List.length_append, List.length_cons]
  exact List.cons_ne_nil _ _

theorem readItems_commaJoined {items : List (List (BitVec 8) × JsonValue)}
    (hne : items ≠ []) (hitems : ∀ item ∈ items, Spells item.1 item.2) {fuel : Nat}
    (hfuel : (commaJoined (items.map Prod.fst)).length + 1 ≤ fuel) (rest : List (BitVec 8)) :
    readItems fuel (commaJoined (items.map Prod.fst) ++ 93#8 :: rest)
      = some (items.map Prod.snd, rest) := by
  induction items generalizing fuel with
  | nil => exact absurd rfl hne
  | cons item items ih =>
    obtain ⟨hitem, hitems⟩ := List.forall_mem_cons.mp hitems
    obtain ⟨fuel, rfl⟩ : ∃ f, fuel = f + 1 := ⟨fuel - 1, by omega⟩
    cases items with
    | nil =>
      have hend : Ended (93#8 :: rest) := ended_of_closing (by decide) (by decide) rest
      show readItems (fuel + 1) (item.1 ++ 93#8 :: rest) = some ([item.2], rest)
      rw [readItems, hitem fuel (Nat.le_of_succ_le_succ hfuel) _ hend, Option.bind_some,
        readNext_closing (by decide) (by decide)]
    | cons next items =>
      have hend : ∀ more, Ended (44#8 :: more) := ended_of_closing (by decide) (by decide)
      have htext : commaJoined ((item :: next :: items).map Prod.fst) ++ 93#8 :: rest
          = item.1 ++ 44#8 :: (commaJoined ((next :: items).map Prod.fst) ++ 93#8 :: rest) := by
        simp [commaJoined]
      have hlength := length_commaJoined_cons item.1 next.1 (items.map Prod.fst)
      simp only [List.map_cons] at hfuel
      rw [htext, readItems, hitem fuel (by omega) _ (hend _), Option.bind_some, readNext_comma,
        ih (List.cons_ne_nil _ _) hitems (by simp only [List.map_cons]; omega)]
      rfl

/-- An array is spelled item by item. -/
theorem Spells.array {items : List (List (BitVec 8) × JsonValue)}
    (hne : items ≠ []) (hitems : ∀ item ∈ items, Spells item.1 item.2) :
    Spells (arrayText (items.map Prod.fst)) (.array (items.map Prod.snd)) := by
  intro fuel hfuel rest _
  rw [arrayText, List.length_cons, List.length_append, List.length_singleton] at hfuel
  obtain ⟨fuel, rfl⟩ : ∃ f, fuel = f + 1 := ⟨fuel - 1, by omega⟩
  have hread := readItems_commaJoined hne hitems (Nat.le_of_succ_le_succ hfuel) rest
  have htext : arrayText (items.map Prod.fst) ++ rest
      = 91#8 :: (commaJoined (items.map Prod.fst) ++ 93#8 :: rest) := by
    simp [arrayText]
  have hopen : (skipBlanks (commaJoined (items.map Prod.fst) ++ 93#8 :: rest)).head?
      ≠ some 93#8 := by
    cases fuel with
    | zero => simp [readItems] at hread
    | succ fuel =>
      rw [readItems] at hread
      obtain ⟨found, hfound, -⟩ := Option.bind_eq_some_iff.mp hread
      exact skipBlanks_ne_bracket hfound
  rw [htext, readValue, skipBlanks_cons (by decide)]
  dsimp only
  rw [if_neg (by decide), if_pos rfl, if_neg hopen, hread]
  rfl

/-- A member of an object: its name, its text and its value. -/
structure Member where
  name : List (BitVec 8)
  text : List (BitVec 8)
  value : JsonValue

theorem readMembers_commaJoined {members : List Member} (hne : members ≠ [])
    (hmembers : ∀ member ∈ members,
      SpellsChars member.name member.name ∧ Spells member.text member.value) {fuel : Nat}
    (hfuel : (commaJoined (members.map fun member => memberText member.name member.text)).length
      + 1 ≤ fuel) (rest : List (BitVec 8)) :
    readMembers fuel
        (commaJoined (members.map fun member => memberText member.name member.text)
          ++ 125#8 :: rest)
      = some (members.map fun member => (member.name, member.value), rest) := by
  induction members generalizing fuel with
  | nil => exact absurd rfl hne
  | cons member members ih =>
    obtain ⟨⟨hname, hvalue⟩, hmembers⟩ := List.forall_mem_cons.mp hmembers
    obtain ⟨fuel, rfl⟩ : ∃ f, fuel = f + 1 := ⟨fuel - 1, by omega⟩
    have hlength : (memberText member.name member.text).length
        = member.name.length + 3 + member.text.length := by
      simp [memberText, JsonText.quoted]
      omega
    have hfirst : member.text.length ≤ fuel → ∀ more, Ended more →
        readMembers (fuel + 1) (memberText member.name member.text ++ more)
          = readNext 125#8 (member.name, member.value) (readMembers fuel) more := by
      intro hmember more hmore
      have htext : memberText member.name member.text ++ more
          = 34#8 :: (member.name ++ 34#8 :: 58#8 :: (member.text ++ more)) := by
        simp [memberText, JsonText.quoted]
      rw [htext, readMembers, skipBlanks_cons (by decide)]
      dsimp only
      rw [if_neg (by decide), readString_closed hname, Option.bind_some,
        skipBlanks_cons (by decide)]
      dsimp only
      rw [if_neg (by decide), hvalue fuel hmember _ hmore, Option.bind_some]
    cases members with
    | nil =>
      have hend : Ended (125#8 :: rest) := ended_of_closing (by decide) (by decide) rest
      show readMembers (fuel + 1) (memberText member.name member.text ++ 125#8 :: rest)
        = some ([(member.name, member.value)], rest)
      have hroom := Nat.le_of_succ_le_succ hfuel
      simp only [List.map_cons, List.map_nil, commaJoined] at hroom
      rw [hfirst (by omega) _ hend, readNext_closing (by decide) (by decide)]
    | cons next members =>
      have hend : ∀ more, Ended (44#8 :: more) := ended_of_closing (by decide) (by decide)
      have htext : commaJoined ((member :: next :: members).map fun member =>
            memberText member.name member.text) ++ 125#8 :: rest
          = memberText member.name member.text ++ 44#8 ::
            (commaJoined ((next :: members).map fun member =>
              memberText member.name member.text) ++ 125#8 :: rest) := by
        simp [commaJoined]
      have hjoined := length_commaJoined_cons (memberText member.name member.text)
        (memberText next.name next.text)
        (members.map fun member => memberText member.name member.text)
      simp only [List.map_cons] at hfuel
      rw [htext, hfirst (by omega) _ (hend _), readNext_comma,
        ih (List.cons_ne_nil _ _) hmembers (by simp only [List.map_cons]; omega)]
      rfl

/-- An object is spelled member by member. -/
theorem Spells.object {members : List Member} (hne : members ≠ [])
    (hmembers : ∀ member ∈ members,
      SpellsChars member.name member.name ∧ Spells member.text member.value) :
    Spells (objectText (members.map fun member => memberText member.name member.text))
      (.object (members.map fun member => (member.name, member.value))) := by
  intro fuel hfuel rest _
  rw [objectText, List.length_cons, List.length_append, List.length_singleton] at hfuel
  obtain ⟨fuel, rfl⟩ : ∃ f, fuel = f + 1 := ⟨fuel - 1, by omega⟩
  have hread := readMembers_commaJoined hne hmembers (Nat.le_of_succ_le_succ hfuel) rest
  have htext : objectText (members.map fun member => memberText member.name member.text) ++ rest
      = 123#8 :: (commaJoined (members.map fun member => memberText member.name member.text)
        ++ 125#8 :: rest) := by
    simp [objectText]
  have hopen : (skipBlanks (commaJoined (members.map fun member =>
      memberText member.name member.text) ++ 125#8 :: rest)).head? ≠ some 125#8 := by
    cases members with
    | nil => exact absurd rfl hne
    | cons member members =>
      have hquote : ∃ more, commaJoined ((member :: members).map fun member =>
          memberText member.name member.text) ++ 125#8 :: rest = 34#8 :: more := by
        cases members <;> exact ⟨_, rfl⟩
      obtain ⟨more, hmore⟩ := hquote
      rw [hmore, skipBlanks_cons (by decide)]
      exact fun hhead => absurd (Option.some.inj hhead) (by decide)
  rw [htext, readValue, skipBlanks_cons (by decide)]
  dsimp only
  rw [if_neg (by decide), if_neg (by decide), if_pos rfl, if_neg hopen, hread]
  rfl

/-- A spelled value, with blanks behind it, is the whole text. -/
theorem readJson_of_spells {value : JsonValue} (h : Spells text value)
    {blanks : List (BitVec 8)} (hend : Ended blanks) (hblanks : skipBlanks blanks = []) :
    readJson (text ++ blanks) = some value := by
  unfold readJson
  rw [h _ (by rw [List.length_append]; omega) _ hend, Option.bind_some, if_pos hblanks]

end JsonText

end EspMiner.Library
