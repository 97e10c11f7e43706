import Mathlib.Data.Nat.Log
import Mathlib.Tactic.Ring

/-!
# Decimal numbers in C strings

What `%lu` prints and what `strtoul` reads in base 10, for a 32-bit `long`.  A
string is the list of its bytes, with or without what follows its terminator.
-/

namespace EspMiner.Library

/-- An ASCII digit. -/
def isDigit (byte : BitVec 8) : Bool := decide (48 ≤ byte.toNat ∧ byte.toNat ≤ 57)

/-- `isspace` in the C locale. -/
def isSpace (byte : BitVec 8) : Bool :=
  decide (byte.toNat = 32 ∨ (9 ≤ byte.toNat ∧ byte.toNat ≤ 13))

/-- The digits of a number, most significant first, at most `places` of them. -/
def decimalDigits : Nat → Nat → List (BitVec 8)
  | 0, _ => []
  | places + 1, n =>
      if n < 10 then [BitVec.ofNat 8 (48 + n)]
      else decimalDigits places (n / 10) ++ [BitVec.ofNat 8 (48 + n % 10)]

/-- `%lu` -/
def decimalText (n : Nat) : List (BitVec 8) := decimalDigits (n + 1) n

/-- `%d` -/
def integerText (n : Int) : List (BitVec 8) :=
  if n < 0 then 45#8 :: decimalText n.natAbs else decimalText n.natAbs

/-- The value of a string of digits. -/
def digitsValue (digits : List (BitVec 8)) : Nat :=
  digits.foldl (fun value byte => 10 * value + (byte.toNat - 48)) 0

/-- The sign and what follows it. -/
def splitSign : List (BitVec 8) → Bool × List (BitVec 8)
  | 45#8 :: rest => (true, rest)
  | 43#8 :: rest => (false, rest)
  | text => (false, text)

/-- `strtoul` in base 10. -/
def strtoul (text : List (BitVec 8)) : BitVec 32 :=
  let signed := splitSign (text.dropWhile isSpace)
  let value := digitsValue (signed.2.takeWhile isDigit)
  if 2 ^ 32 ≤ value then BitVec.allOnes 32
  else if signed.1 then -BitVec.ofNat 32 value
  else BitVec.ofNat 32 value

theorem toNat_digit {n : Nat} (h : n < 10) : (BitVec.ofNat 8 (48 + n)).toNat = 48 + n := by
  rw [BitVec.toNat_ofNat, Nat.mod_eq_of_lt (by omega)]

theorem isDigit_digit {n : Nat} (h : n < 10) : isDigit (BitVec.ofNat 8 (48 + n)) = true := by
  rw [isDigit, toNat_digit h]
  simp only [decide_eq_true_eq]
  omega

theorem decimalDigits_isDigit (places n : Nat) :
    ∀ byte ∈ decimalDigits places n, isDigit byte = true := by
  induction places generalizing n with
  | zero => simp [decimalDigits]
  | succ places ih =>
    intro byte hbyte
    unfold decimalDigits at hbyte
    split at hbyte
    · next hsmall =>
      obtain rfl := List.mem_singleton.mp hbyte
      exact isDigit_digit hsmall
    · rcases List.mem_append.mp hbyte with hbyte | hbyte
      · exact ih _ byte hbyte
      · obtain rfl := List.mem_singleton.mp hbyte
        exact isDigit_digit (Nat.mod_lt _ (by decide))

/-- Enough places hold the whole number. -/
theorem digitsValue_decimalDigits {places n : Nat} (h : n < 10 ^ places) :
    digitsValue (decimalDigits places n) = n := by
  induction places generalizing n with
  | zero =>
    have : n = 0 := by omega
    rw [this]
    rfl
  | succ places ih =>
    unfold decimalDigits
    split
    · next hsmall => simp [digitsValue, toNat_digit hsmall]
    · have hpre : n / 10 < 10 ^ places := by
        rw [Nat.div_lt_iff_lt_mul (by decide), ← Nat.pow_succ]
        exact h
      have hfold := ih hpre
      rw [digitsValue, List.foldl_append]
      rw [digitsValue] at hfold
      rw [hfold]
      simp only [List.foldl_cons, List.foldl_nil, toNat_digit (Nat.mod_lt n (by decide : 0 < 10))]
      omega

theorem digitsValue_decimalText (n : Nat) : digitsValue (decimalText n) = n :=
  digitsValue_decimalDigits (n.lt_succ_self.trans (Nat.lt_pow_self (by decide)))

theorem length_decimalDigits_le {places n width : Nat} (h : n < 10 ^ width) (hwidth : 0 < width) :
    (decimalDigits places n).length ≤ width := by
  induction places generalizing n width with
  | zero => simp [decimalDigits]
  | succ places ih =>
    unfold decimalDigits
    split
    · exact hwidth
    · next hlarge =>
      obtain ⟨width, rfl⟩ : ∃ w, width = w + 1 := ⟨width - 1, by omega⟩
      have hpos : 0 < width := by
        rcases Nat.eq_zero_or_pos width with rfl | hpos
        · omega
        · exact hpos
      have hpre : n / 10 < 10 ^ width := by
        rw [Nat.div_lt_iff_lt_mul (by decide), ← Nat.pow_succ]
        exact h
      have := ih hpre hpos
      simp only [List.length_append, List.length_singleton]
      omega

theorem decimalText_ne_nil (n : Nat) : decimalText n ≠ [] := by
  unfold decimalText decimalDigits
  split <;> simp

/-- A digit is neither a blank nor a sign. -/
theorem splitSign_of_digits {digits : List (BitVec 8)} (hne : digits ≠ [])
    (hdigits : ∀ byte ∈ digits, isDigit byte = true) (rest : List (BitVec 8)) :
    splitSign ((digits ++ rest).dropWhile isSpace) = (false, digits ++ rest) := by
  cases digits with
  | nil => exact absurd rfl hne
  | cons first digits =>
    have hfirst : 48 ≤ first.toNat ∧ first.toNat ≤ 57 :=
      of_decide_eq_true (hdigits first List.mem_cons_self)
    have hspace : isSpace first = false := by
      simp only [isSpace, decide_eq_false_iff_not]
      omega
    rw [List.cons_append, List.dropWhile_cons_of_neg (by simp [hspace])]
    unfold splitSign
    split
    · next heq =>
      obtain ⟨rfl, -⟩ := List.cons.inj heq
      exact absurd hfirst (by decide)
    · next heq =>
      obtain ⟨rfl, -⟩ := List.cons.inj heq
      exact absurd hfirst (by decide)
    · rfl

/-- `strtoul` reads back what `%lu` printed, up to the first byte that is no digit. -/
theorem strtoul_decimalText_append (value : BitVec 32) {rest : List (BitVec 8)}
    (hrest : rest.takeWhile isDigit = []) :
    strtoul (decimalText value.toNat ++ rest) = value := by
  have hdigits : ∀ byte ∈ decimalText value.toNat, isDigit byte = true :=
    decimalDigits_isDigit _ _
  have hsplit := splitSign_of_digits (decimalText_ne_nil value.toNat) hdigits rest
  have htake : (decimalText value.toNat ++ rest).takeWhile isDigit = decimalText value.toNat := by
    rw [List.takeWhile_append_of_pos hdigits, hrest, List.append_nil]
  have hbound : ¬ 2 ^ 32 ≤ value.toNat := Nat.not_le.mpr value.isLt
  unfold strtoul
  rw [hsplit]
  dsimp only
  rw [htake, digitsValue_decimalText, if_neg hbound]
  simp

/-- `strtoul` reads back what `%lu` printed. -/
theorem strtoul_decimalText (value : BitVec 32) (rest : List (BitVec 8)) :
    strtoul (decimalText value.toNat ++ 0#8 :: rest) = value :=
  strtoul_decimalText_append value (List.takeWhile_cons_of_neg (by decide))

end EspMiner.Library
