import EspMiner.Library.CString
import EspMiner.Stratum.MiningJobHex

/-!
# Hexadecimal coding

`bin2hex` and `hex2bin` of `components/stratum/utils.c` over the arrays that they read and write.
Each keeps within its arrays and is what the job builders take it for: the loops are followed cell
by cell with what is written in front and what was there behind, and decoding what was encoded
gives the bytes back.
-/

namespace EspMiner

open Library

/-- The bytes of an object, which has at most `PTRDIFF_MAX` of them. -/
abbrev ByteObject : Type := { bytes : List U8 // bytes.length < 2 ^ 31 }

variable {n : Nat}

/-- What a coder returns, and the array that it wrote -/
structure Coded (n : Nat) where
  len : Nat
  cells : Vector U8 n

/-- The loop of `bin2hex` from byte `i` on -/
def bin2hexLoop : List U8 → Nat → Vector U8 n → Except Stop (Vector U8 n)
  | [], _, hex => .ok hex
  | byte :: buf, i, hex => do
      let hex ← writeCell hex (2 * i) (hexTable (byte.toNat / 16))
      let hex ← writeCell hex (2 * i + 1) (hexTable (byte.toNat % 16))
      bin2hexLoop buf (i + 1) hex

/-- `bin2hex`; the product is one of a 32-bit `size_t`. -/
def bin2hexChecked (buf : ByteObject) (hex : Vector U8 n) : Except Stop (Coded n) :=
  let len := buf.val.length * 2 % 2 ^ 32
  if n ≤ len then .ok ⟨0, hex⟩
  else do
    let hex ← bin2hexLoop buf.val 0 hex
    let hex ← writeCell hex len 0#8
    return ⟨len, hex⟩

/-- `hex_decode_byte`; nothing behind the terminator is read. -/
def hexDecodeByte (string : List U8) (pos : Nat) : Except Stop (Option U8) := do
  let high ← readElem string pos
  if high = 0#8 then return none
  else
    let low ← readElem string (pos + 1)
    if low = 0#8 then return none
    else
      match hexVal high, hexVal low with
      | some h, some l => return some (BitVec.ofNat 8 (16 * h + l))
      | _, _ => return none

/-- The loop of `hex2bin` while there is room -/
def hex2binLoop (string : List U8) :
    (room pos len : Nat) → Vector U8 n → Except Stop (Coded n)
  | 0, _, len, bin => .ok ⟨len, bin⟩
  | room + 1, pos, len, bin => do
      let first ← readElem string pos
      if first = 0#8 then return ⟨len, bin⟩
      else
        match ← hexDecodeByte string pos with
        | none => return ⟨0, bin⟩
        | some byte =>
            let bin ← writeCell bin len byte
            hex2binLoop string room (pos + 2) (len + 1) bin

/-- `hex2bin` on a string with its terminator -/
def hex2binChecked (hex : Text) (bin : Vector U8 n) : Except Stop (Coded n) :=
  hex2binLoop (hex.val ++ [0#8]) n 0 0 bin

/-! ## Writing digits -/

/-- A cell behind the first ones is written. -/
theorem writeCell_front {cells : Vector U8 n} {front rest : List U8} {old : U8}
    (hcells : cells.toList = front ++ old :: rest) (byte : U8) :
    ∃ cells', writeCell cells front.length byte = .ok cells' ∧
      cells'.toList = front ++ byte :: rest := by
  have hlength := congrArg List.length hcells
  rw [Vector.length_toList, List.length_append, List.length_cons] at hlength
  obtain ⟨cells', hwrite, hset⟩ := @exists_writeCell n front.length cells byte (by omega)
  refine ⟨cells', hwrite, ?_⟩
  rw [hset, hcells, List.set_append_right _ _ le_rfl, Nat.sub_self]
  rfl

theorem exists_bin2hexLoop (buf : List U8) {i : Nat} {hex : Vector U8 n} {front rest : List U8}
    (hhex : hex.toList = front ++ rest) (hfront : front.length = 2 * i)
    (hrest : 2 * buf.length ≤ rest.length) :
    ∃ hex', bin2hexLoop buf i hex = .ok hex' ∧
      hex'.toList = front ++ (bin2hex buf ++ rest.drop (2 * buf.length)) := by
  induction buf generalizing i hex front rest with
  | nil => exact ⟨hex, rfl, by simpa [bin2hex] using hhex⟩
  | cons byte buf ih =>
    rw [List.length_cons] at hrest
    obtain ⟨first, rest, rfl⟩ : ∃ first rest', rest = first :: rest' :=
      List.exists_cons_of_length_pos (by omega)
    rw [List.length_cons] at hrest
    obtain ⟨second, rest, rfl⟩ : ∃ second rest', rest = second :: rest' :=
      List.exists_cons_of_length_pos (by omega)
    rw [List.length_cons] at hrest
    obtain ⟨hex₁, hwrite₁, hhex₁⟩ := writeCell_front hhex (hexTable (byte.toNat / 16))
    have hnext : hex₁.toList = (front ++ [hexTable (byte.toNat / 16)]) ++ second :: rest := by
      rw [hhex₁, List.append_assoc]
      rfl
    obtain ⟨hex₂, hwrite₂, hhex₂⟩ := writeCell_front hnext (hexTable (byte.toNat % 16))
    rw [hfront] at hwrite₁
    rw [List.length_append, hfront, List.length_singleton] at hwrite₂
    have hlast : hex₂.toList =
        (front ++ [hexTable (byte.toNat / 16), hexTable (byte.toNat % 16)]) ++ rest := by
      rw [hhex₂]
      simp
    obtain ⟨hex', hloop, hhex'⟩ := ih hlast
      (by rw [List.length_append, hfront]; exact (Nat.mul_succ 2 i).symm)
      (by omega)
    refine ⟨hex', ?_, ?_⟩
    · rw [bin2hexLoop, hwrite₁]
      dsimp only [Bind.bind, Except.bind]
      rw [hwrite₂]
      exact hloop
    · rw [hhex', bin2hex_cons, List.length_cons, Nat.mul_add]
      simp

/-- With room for the digits and the terminator both are written. -/
theorem exists_bin2hexChecked (buf : ByteObject) {hex : Vector U8 n}
    (hroom : 2 * buf.val.length < n) :
    ∃ hex', bin2hexChecked buf hex = .ok ⟨2 * buf.val.length, hex'⟩ ∧
      hex'.toList = bin2hex buf.val ++ 0#8 :: hex.toList.drop (2 * buf.val.length + 1) := by
  have hlen : buf.val.length * 2 % 2 ^ 32 = 2 * buf.val.length := by
    have := buf.property
    omega
  obtain ⟨hex₁, hloop, hhex₁⟩ := @exists_bin2hexLoop n buf.val 0 hex [] hex.toList rfl rfl
    (by rw [Vector.length_toList]; omega)
  obtain ⟨first, rest, hrest⟩ : ∃ first rest,
      hex.toList.drop (2 * buf.val.length) = first :: rest :=
    List.exists_cons_of_length_pos (by rw [List.length_drop, Vector.length_toList]; omega)
  rw [List.nil_append, hrest] at hhex₁
  obtain ⟨hex', hwrite, hhex'⟩ := writeCell_front hhex₁ 0#8
  rw [length_bin2hex] at hwrite
  refine ⟨hex', ?_, ?_⟩
  · rw [bin2hexChecked, hlen, if_neg (by omega), hloop]
    dsimp only [Bind.bind, Except.bind]
    rw [hwrite]
    rfl
  · rw [hhex', ← List.drop_drop, hrest]
    rfl

theorem bin2hexChecked_refused (buf : ByteObject) {hex : Vector U8 n}
    (hroom : n ≤ 2 * buf.val.length) : bin2hexChecked buf hex = .ok ⟨0, hex⟩ := by
  have := buf.property
  exact if_pos (by omega)

/-! ## Reading digits -/

theorem readElem_front {string front text : List U8} {byte : U8}
    (h : string = front ++ byte :: text) : readElem string front.length = .ok byte := by
  rw [h]
  exact FieldAt.readElem ⟨text, List.drop_left⟩

/-- A pair of characters is decoded where both are digits. -/
theorem hexDecodeByte_pair {string front text : List U8} {high low : U8}
    (h : string = front ++ high :: low :: text) (hhigh : high ≠ 0#8) (hlow : low ≠ 0#8) :
    hexDecodeByte string front.length = .ok
      ((hexVal high).bind fun h => (hexVal low).map fun l => BitVec.ofNat 8 (16 * h + l)) := by
  have hnext : readElem string (front.length + 1) = .ok low := by
    rw [← List.length_singleton (a := high), ← List.length_append]
    exact readElem_front (by rw [h, List.append_assoc]; rfl)
  rw [hexDecodeByte, readElem_front h]
  dsimp only [Bind.bind, Except.bind]
  rw [if_neg hhigh, hnext]
  dsimp only [Bind.bind, Except.bind]
  rw [if_neg hlow]
  cases hexVal high with
  | none => rfl
  | some h =>
    cases hexVal low with
    | none => rfl
    | some l => rfl

/-- The last character before the terminator is not decoded. -/
theorem hexDecodeByte_half {string front : List U8} {high : U8}
    (h : string = front ++ [high, 0#8]) (hhigh : high ≠ 0#8) :
    hexDecodeByte string front.length = .ok none := by
  have hnext : readElem string (front.length + 1) = .ok 0#8 := by
    rw [← List.length_singleton (a := high), ← List.length_append]
    exact readElem_front (by rw [h, List.append_assoc]; rfl)
  rw [hexDecodeByte, readElem_front h]
  dsimp only [Bind.bind, Except.bind]
  rw [if_neg hhigh, hnext]
  rfl

/-- The checked loop is `hex2bin` of the job builders, with the length that it returns. -/
theorem exists_hex2binLoop {string front text : List U8} (room : Nat)
    (hstring : string = front ++ (text ++ [0#8])) (htext : 0#8 ∉ text) {bin : Vector U8 n}
    {done rest : List U8} (hbin : bin.toList = done ++ rest) (hrest : rest.length = room) :
    ∃ bin', hex2binLoop string room front.length done.length bin =
        .ok ⟨((hex2binLength room text).map (done.length + ·)).getD 0, bin'⟩ ∧
      bin'.toList = done ++ hex2bin room text rest := by
  induction room generalizing front text bin done rest with
  | zero =>
    refine ⟨bin, rfl, ?_⟩
    rw [hbin]
    rfl
  | succ room ih =>
    match text, htext with
    | [], _ =>
      refine ⟨bin, ?_, ?_⟩
      · rw [hex2binLoop, readElem_front hstring]
        rfl
      · rw [hbin]
        rfl
    | [high], htext =>
      have hhigh : high ≠ 0#8 := fun h => htext (by rw [h]; exact List.mem_cons_self)
      refine ⟨bin, ?_, ?_⟩
      · rw [hex2binLoop, readElem_front hstring]
        dsimp only [Bind.bind, Except.bind]
        rw [if_neg hhigh, hexDecodeByte_half hstring hhigh]
        rfl
      · rw [hbin]
        rfl
    | high :: low :: text, htext =>
      rw [List.mem_cons, List.mem_cons, not_or, not_or] at htext
      obtain ⟨hhigh, hlow, htext⟩ := htext
      rw [hex2binLoop, readElem_front hstring]
      dsimp only [Bind.bind, Except.bind]
      rw [if_neg (Ne.symm hhigh), hexDecodeByte_pair hstring (Ne.symm hhigh) (Ne.symm hlow)]
      obtain ⟨old, rest, rfl⟩ := List.exists_cons_of_length_eq_add_one hrest
      rw [List.length_cons, Nat.add_right_cancel_iff] at hrest
      cases hh : hexVal high with
      | none =>
        refine ⟨bin, ?_, ?_⟩
        · simp only [hex2binLength, hh]
          rfl
        · simp only [hex2bin, hh]
          exact hbin
      | some h =>
        cases hl : hexVal low with
        | none =>
          refine ⟨bin, ?_, ?_⟩
          · simp only [hex2binLength, hh, hl]
            rfl
          · simp only [hex2bin, hh, hl]
            exact hbin
        | some l =>
          obtain ⟨bin₁, hwrite, hbin₁⟩ := writeCell_front hbin (BitVec.ofNat 8 (16 * h + l))
          have hnext : string = (front ++ [high, low]) ++ (text ++ [0#8]) := by
            rw [hstring]
            simp
          have hbin₁' : bin₁.toList = (done ++ [BitVec.ofNat 8 (16 * h + l)]) ++ rest := by
            rw [hbin₁, List.append_assoc]
            rfl
          obtain ⟨bin', hloop, hbin'⟩ := ih hnext htext hbin₁' hrest
          rw [List.length_append, List.length_append, List.length_singleton] at hloop
          refine ⟨bin', ?_, ?_⟩
          · dsimp only [Option.bind_some, Option.map_some]
            rw [hwrite]
            dsimp only [Bind.bind, Except.bind]
            refine hloop.trans ?_
            simp only [hex2binLength, hh, hl]
            cases hex2binLength room text with
            | none => rfl
            | some count =>
              simp only [Option.map_some, Option.getD_some]
              rw [Nat.add_assoc, Nat.add_comm 1]
          · rw [hbin', List.append_assoc]
            simp only [hex2bin, hh, hl]
            rfl

/-! ## What is decoded -/

/-- The pairs that are consumed: as many as there is room for, or as the text has -/
def pairCount (room : Nat) (text : List U8) : Nat := min room (text.length / 2)

/-- Every pair that is consumed is two digits, and no half pair is met while there is room. -/
def DigitsMet (room : Nat) (text : List U8) : Prop :=
  (∀ digit ∈ text.take (2 * pairCount room text), (hexVal digit).isSome) ∧
    (text.length / 2 < room → text.length % 2 = 0)

theorem pairCount_cons (room : Nat) (high low : U8) (text : List U8) :
    pairCount (room + 1) (high :: low :: text) = pairCount room text + 1 := by
  unfold pairCount
  rw [List.length_cons, List.length_cons]
  omega

theorem digitsMet_cons {room : Nat} {high low : U8} {text : List U8} :
    DigitsMet (room + 1) (high :: low :: text) ↔
      (hexVal high).isSome ∧ (hexVal low).isSome ∧ DigitsMet room text := by
  have htake : (high :: low :: text).take (2 * (pairCount room text + 1)) =
      high :: low :: text.take (2 * pairCount room text) := rfl
  have hhalf : ((high :: low :: text).length / 2 < room + 1 →
      (high :: low :: text).length % 2 = 0) ↔
        (text.length / 2 < room → text.length % 2 = 0) := by
    rw [List.length_cons, List.length_cons]
    omega
  unfold DigitsMet
  rw [pairCount_cons, htake, hhalf, List.forall_mem_cons, List.forall_mem_cons, and_assoc,
    and_assoc]

/-- Where only digits are met, the length is that of the pairs and the bytes are theirs. -/
theorem hex2bin_digitsMet {room : Nat} {text : List U8} (h : DigitsMet room text) {bin : List U8}
    (hbin : bin.length = room) :
    hex2binLength room text = some (pairCount room text) ∧
      hex2bin room text bin = decodeHex (text.take (2 * pairCount room text)) ++
        bin.drop (pairCount room text) := by
  induction room generalizing text bin with
  | zero =>
    have hnil : bin = [] := List.length_eq_zero_iff.mp hbin
    have hzero : pairCount 0 text = 0 := Nat.zero_min _
    rw [hnil, hzero]
    exact ⟨rfl, rfl⟩
  | succ room ih =>
    obtain ⟨byte, bin, rfl⟩ := List.exists_cons_of_length_eq_add_one hbin
    rw [List.length_cons, Nat.add_right_cancel_iff] at hbin
    match text, h with
    | [], _ => exact ⟨rfl, rfl⟩
    | [high], h =>
      have hodd : [high].length % 2 = 0 := h.2 (by simp)
      exact absurd hodd (by simp)
    | high :: low :: text, h =>
      obtain ⟨hhigh, hlow, hrest⟩ := digitsMet_cons.mp h
      obtain ⟨h', hh⟩ := Option.isSome_iff_exists.mp hhigh
      obtain ⟨l', hl⟩ := Option.isSome_iff_exists.mp hlow
      obtain ⟨hlength, hbytes⟩ := ih hrest hbin
      rw [pairCount_cons]
      constructor
      · simp only [hex2binLength, hh, hl, hlength, Option.map_some]
      · simp only [hex2bin, hh, hl, hbytes]
        change _ = decodeHex (high :: low :: text.take (2 * pairCount room text)) ++ _
        rw [decodeHex, hh, hl]
        rfl

/-- Where another character is met, or a half pair, nothing is returned. -/
theorem hex2binLength_eq_none {room : Nat} {text : List U8} (h : ¬ DigitsMet room text) :
    hex2binLength room text = none := by
  induction room generalizing text with
  | zero =>
    refine absurd ⟨?_, fun hroom => absurd hroom (Nat.not_lt_zero _)⟩ h
    have hzero : pairCount 0 text = 0 := Nat.zero_min _
    rw [hzero]
    simp
  | succ room ih =>
    match text, h with
    | [], h => exact absurd ⟨by simp, fun _ => rfl⟩ h
    | [high], _ => rfl
    | high :: low :: text, h =>
      rw [digitsMet_cons, not_and, not_and] at h
      rw [hex2binLength]
      cases hh : hexVal high with
      | none => rfl
      | some h' =>
        cases hl : hexVal low with
        | none => rfl
        | some l' =>
          have hrest := h (by rw [hh]; rfl) (by rw [hl]; rfl)
          simp only [ih hrest, Option.map_none]

theorem exists_hex2binChecked (hex : Text) (bin : Vector U8 n) :
    ∃ bin', hex2binChecked hex bin = .ok ⟨hex2binReturn n hex.val, bin'⟩ ∧
      bin'.toList = hex2bin n hex.val bin.toList := by
  obtain ⟨bin', hloop, hbin'⟩ := @exists_hex2binLoop n (hex.val ++ [0#8]) [] hex.val n rfl
    hex.property bin [] bin.toList rfl bin.length_toList
  refine ⟨bin', ?_, hbin'⟩
  rw [hex2binChecked, hex2binReturn]
  refine hloop.trans ?_
  cases hex2binLength n hex.val with
  | none => rfl
  | some count => rw [Option.map_some, List.length_nil, Nat.zero_add]

/-! ## Both ways -/

/-- The ten digits and the lower-case letters up to `f` -/
def LowerCase (digit : U8) : Prop := digit ∈ cText "0123456789abcdef"

theorem lowerCase_bin2hex {bytes : List U8} {digit : U8} (h : digit ∈ bin2hex bytes) :
    LowerCase digit := by
  have hall : ∀ nibble < 16, hexTable nibble ∈ cText "0123456789abcdef" := by decide
  rw [bin2hex, List.mem_flatMap] at h
  obtain ⟨byte, -, hdigit⟩ := h
  have hbyte : byte.toNat < 256 := byte.isLt
  rw [List.mem_cons, List.mem_singleton] at hdigit
  rcases hdigit with rfl | rfl
  · exact hall _ (by omega)
  · exact hall _ (by omega)

/-- What `bin2hex` writes as a string -/
def bin2hexText (bytes : List U8) : Text :=
  ⟨bin2hex bytes, fun h => (mem_bin2hex h).2 rfl⟩

/-- Reading what was written -/
theorem exists_hex2bin_bin2hex (bytes : List U8) {bin : Vector U8 n} (hroom : bytes.length ≤ n) :
    ∃ bin', hex2binChecked (bin2hexText bytes) bin = .ok ⟨bytes.length, bin'⟩ ∧
      bin'.toList = bytes ++ bin.toList.drop bytes.length := by
  obtain ⟨bin', hcall, hbin'⟩ := exists_hex2binChecked (bin2hexText bytes) bin
  obtain ⟨hbytes, hlen, -⟩ := @hex2bin_hexText _ (hexText_bin2hex bytes) n bin.toList
    (by rw [length_bin2hex]; omega) (by rw [length_bin2hex, Vector.length_toList]; omega)
  rw [decodeHex_bin2hex] at hbytes hlen
  refine ⟨bin', ?_, hbin'.trans hbytes⟩
  rw [hcall]
  exact congrArg (fun len => Except.ok (Coded.mk len bin')) hlen

/-- **Hex coding is exact and bounded.**  No call touches a place outside its arrays.  What
fits is written in lower-case digits with a terminator and is read back; and of any string the
pairs that there is room for are decoded, where only digits are met. -/
theorem hexCoding_exact :
    (∀ (buf : ByteObject) (capacity : Nat) (hex : Vector U8 capacity),
      (2 * buf.val.length < capacity →
        ∃ (digits : Text) (hex' : Vector U8 capacity),
          bin2hexChecked buf hex = .ok ⟨2 * buf.val.length, hex'⟩ ∧
          hex'.toList = digits.val ++ 0#8 :: hex.toList.drop (2 * buf.val.length + 1) ∧
          digits.val.length = 2 * buf.val.length ∧ (∀ digit ∈ digits.val, LowerCase digit) ∧
          ∀ (n : Nat) (bin : Vector U8 n), buf.val.length ≤ n →
            ∃ bin', hex2binChecked digits bin = .ok ⟨buf.val.length, bin'⟩ ∧
              bin'.toList = buf.val ++ bin.toList.drop buf.val.length) ∧
      (capacity ≤ 2 * buf.val.length → bin2hexChecked buf hex = .ok ⟨0, hex⟩)) ∧
    ∀ (hex : Text) (n : Nat) (bin : Vector U8 n),
      (DigitsMet n hex.val → ∃ bin', hex2binChecked hex bin = .ok ⟨pairCount n hex.val, bin'⟩ ∧
        bin'.toList = decodeHex (hex.val.take (2 * pairCount n hex.val)) ++
          bin.toList.drop (pairCount n hex.val)) ∧
      (¬ DigitsMet n hex.val → ∃ bin', hex2binChecked hex bin = .ok ⟨0, bin'⟩) := by
  constructor
  · intro buf capacity hex
    constructor
    · intro hroom
      obtain ⟨hex', hcall, hhex'⟩ := @exists_bin2hexChecked capacity buf hex hroom
      refine ⟨bin2hexText buf.val, hex', hcall, hhex', length_bin2hex _, ?_, ?_⟩
      · intro digit hdigit
        exact lowerCase_bin2hex hdigit
      · intro n bin hn
        exact exists_hex2bin_bin2hex buf.val hn
    · intro hroom
      exact bin2hexChecked_refused buf hroom
  · intro hex n bin
    obtain ⟨bin', hcall, hbin'⟩ := exists_hex2binChecked hex bin
    constructor
    · intro hdigits
      obtain ⟨hlength, hbytes⟩ := hex2bin_digitsMet hdigits bin.length_toList
      refine ⟨bin', ?_, hbin'.trans hbytes⟩
      rw [hcall, hex2binReturn, hlength]
      rfl
    · intro hdigits
      refine ⟨bin', ?_⟩
      rw [hcall, hex2binReturn, hex2binLength_eq_none hdigits]
      rfl

theorem hexCoding_exact_pair :
    ∃ bin', hex2binChecked ⟨cText "fF", by decide⟩ (Vector.replicate 1 0#8) =
        .ok ⟨pairCount 1 (cText "fF"), bin'⟩ ∧
      bin'.toList = decodeHex ((cText "fF").take (2 * pairCount 1 (cText "fF"))) ++
        (Vector.replicate 1 0#8).toList.drop (pairCount 1 (cText "fF")) :=
  (hexCoding_exact.2 ⟨cText "fF", by decide⟩ 1 (Vector.replicate 1 0#8)).1 (by
    unfold DigitsMet
    decide)

end EspMiner
