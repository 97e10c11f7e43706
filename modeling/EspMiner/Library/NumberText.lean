import EspMiner.Library.Binary32
import EspMiner.Library.Binary64
import EspMiner.Library.Decimal
import EspMiner.Library.Json
import Mathlib.Algebra.Field.Rat
import Mathlib.Algebra.Order.Field.Power
import Mathlib.Algebra.Order.Ring.Rat
import Mathlib.Data.List.TakeWhile

/-!
# Numbers at the start of C strings

What `atoi`, for a 32-bit `long`, and `strtod` read of a text, as exact numbers, and the double
and the float that such a number becomes.
-/

namespace EspMiner.Library

/-- A number that a text stands for, before it is rounded. -/
inductive ExactNumber where
  | nan
  | infinite (negative : Bool)
  | finite (value : ℚ)
deriving DecidableEq

/-! ## Integers -/

/-- The decimal integer at the start of a text, zero where there is none. -/
def leadingInteger (text : List (BitVec 8)) : Int :=
  let sign := splitSign (text.dropWhile isSpace)
  signed sign.1 (digitsValue (sign.2.takeWhile isDigit))

/-- `atoi`: `strtol` in base 10, which ends at the bounds of its type -/
def atoi (text : List (BitVec 8)) : BitVec 32 :=
  BitVec.ofInt 32 (max (-2 ^ 31) (min (2 ^ 31 - 1) (leadingInteger text)))

/-! ## Fractions -/

/-- The digit that a byte is in a base up to 16. -/
def baseDigit (base : Nat) (byte : BitVec 8) : Option Nat :=
  let code := byte.toNat
  let digit :=
    if 48 ≤ code ∧ code ≤ 57 then code - 48
    else if 97 ≤ code ∧ code ≤ 102 then code - 87
    else if 65 ≤ code ∧ code ≤ 70 then code - 55
    else base
  if digit < base then some digit else none

def isBaseDigit (base : Nat) (byte : BitVec 8) : Bool := (baseDigit base byte).isSome

/-- The value of digits in a base. -/
def baseValue (base : Nat) (digits : List (BitVec 8)) : Nat :=
  digits.foldl (fun value byte => base * value + (baseDigit base byte).getD 0) 0

/-- Digits with a point among them, and what follows them. -/
structure ScannedDigits where
  digits : List (BitVec 8)
  places : Nat
  rest : List (BitVec 8)

def scanDigits (base : Nat) (text : List (BitVec 8)) : ScannedDigits :=
  let whole := text.takeWhile (isBaseDigit base)
  match text.dropWhile (isBaseDigit base) with
  | 46#8 :: rest =>
      let fraction := rest.takeWhile (isBaseDigit base)
      ⟨whole ++ fraction, fraction.length, rest.dropWhile (isBaseDigit base)⟩
  | rest => ⟨whole, 0, rest⟩

/-- A scanned exponent and what follows it -/
structure ScannedExponent where
  exponent : Int
  rest : List (BitVec 8)

/-- The exponent behind one of two letters, zero where there is none. -/
def scanExponent (lower upper : BitVec 8) (text : List (BitVec 8)) : ScannedExponent :=
  match text with
  | [] => ⟨0, []⟩
  | mark :: rest =>
      let sign := splitSign rest
      let digits := sign.2.takeWhile isDigit
      if (mark = lower ∨ mark = upper) ∧ digits ≠ [] then
        ⟨signed sign.1 (digitsValue digits), sign.2.dropWhile isDigit⟩
      else ⟨0, text⟩

/-- The text starts with a lower-case word, in letters of either case. -/
def startsWithWord (word text : List (BitVec 8)) : Bool :=
  (text.take word.length).map (fun byte =>
    if 65 ≤ byte.toNat ∧ byte.toNat ≤ 90 then byte + 32#8 else byte) == word

/-- A number and what follows it -/
structure ScannedNumber where
  number : ExactNumber
  rest : List (BitVec 8)

/-- A magnitude and what follows it -/
structure ScannedMagnitude where
  magnitude : ℚ
  rest : List (BitVec 8)

/-- The digits of a number without its sign, in base 16 behind `0x`. -/
def scanMagnitude (text : List (BitVec 8)) : Option ScannedMagnitude :=
  let hex := scanDigits 16 (text.drop 2)
  if startsWithWord (cText "0x") text = true ∧ hex.digits ≠ [] then
    let exponent := scanExponent 112#8 80#8 hex.rest
    some ⟨baseValue 16 hex.digits * 2 ^ (exponent.exponent - 4 * (hex.places : Int)), exponent.rest⟩
  else
    let decimal := scanDigits 10 text
    if decimal.digits = [] then none
    else
      let exponent := scanExponent 101#8 69#8 decimal.rest
      some ⟨baseValue 10 decimal.digits * 10 ^ (exponent.exponent - (decimal.places : Int)),
        exponent.rest⟩

/-- What follows a NaN and the characters in brackets that may stand behind it -/
def behindNan (text : List (BitVec 8)) : List (BitVec 8) :=
  match text with
  | 40#8 :: inside =>
      match inside.dropWhile (fun byte => isBaseDigit 16 byte) with
      | 41#8 :: rest => rest
      | _ => text
  | _ => text

/-- `strtod` and `strtof` before they round: nothing where there is no number -/
def scanNumber (text : List (BitVec 8)) : Option ScannedNumber :=
  let sign := splitSign (text.dropWhile isSpace)
  if startsWithWord (cText "infinity") sign.2 = true then
    some ⟨.infinite sign.1, sign.2.drop 8⟩
  else if startsWithWord (cText "inf") sign.2 = true then some ⟨.infinite sign.1, sign.2.drop 3⟩
  else if startsWithWord (cText "nan") sign.2 = true then
    some ⟨.nan, behindNan (sign.2.drop 3)⟩
  else (scanMagnitude sign.2).map fun scanned =>
    ⟨.finite (if sign.1 = true then -scanned.magnitude else scanned.magnitude), scanned.rest⟩

/-- The number that `strtod` reads, before it is rounded. -/
def strtodNumber (text : List (BitVec 8)) : ExactNumber :=
  match scanNumber text with
  | none => .finite 0
  | some scanned => scanned.number

/-! ## Rounding -/

theorem natAbs_signed (negative : Bool) (magnitude : Nat) :
    (signed negative magnitude).natAbs = magnitude := by
  cases negative <;> simp [signed]

/-- A float by its sign and its magnitude. -/
def floatOfUnits (negative : Bool) (units : Nat) (h : HasMantissa units) : Binary32 :=
  if hbound : units < BINARY32_OVERFLOW then
    .finite (signed negative units) (by
      rw [natAbs_signed]
      exact ⟨h, hbound⟩)
  else .inf negative

theorem floatOfUnits_of_lt {negative : Bool} {units : Nat} {h : HasMantissa units}
    (hbound : units < BINARY32_OVERFLOW) :
    ∃ h', floatOfUnits negative units h = .finite (signed negative units) h' :=
  ⟨_, dif_pos hbound⟩

/-- A literal with the suffix of a float -/
def floatLiteral (num den : Nat) (hden : 0 < den) : Binary32 :=
  floatOfUnits false (roundRatio 23 (num * 2 ^ 149) den) (hasBits_roundRatio 23 _ hden)

/-- A unit of a float in those of a double -/
@[irreducible] def BINARY32_UNIT : Nat := 2 ^ 925

theorem unit_pos : 0 < BINARY32_UNIT := by
  unfold BINARY32_UNIT
  exact pow_pos two_pos 925

theorem one_eq_unit : BINARY64_ONE = 2 ^ 149 * BINARY32_UNIT := by
  unfold BINARY64_ONE BINARY32_UNIT
  rw [← Nat.pow_add]

/-- The magnitude of the double nearest to a number, in multiples of `2^-1074` -/
def doubleUnits (value : ℚ) : Nat :=
  min (roundRatio 52 (value.num.natAbs * BINARY64_ONE) value.den) BINARY64_INFINITY

/-- The magnitude of the float nearest to that double, in multiples of `2^-149` -/
def floatUnits (value : ℚ) : Nat := roundRatio 23 (doubleUnits value) BINARY32_UNIT

/-- The float that a double becomes which is the one nearest to a number -/
def floatOfNumber : ExactNumber → Binary32
  | .nan => .nan
  | .infinite negative => .inf negative
  | .finite value =>
      floatOfUnits (decide (value < 0)) (floatUnits value)
        (hasBits_roundRatio 23 _ unit_pos)

/-! ## Bounds -/

section Bounds

variable {value : ℚ} {bound : Nat}

theorem hasBits_scaled {bits : Nat} (hbound : bound < 2 ^ bits) (k : Nat) :
    HasBits bits (bound * 2 ^ k) :=
  ⟨bound, k, hbound, rfl⟩

theorem hasBits_double (hbound : bound < 2 ^ 24) : HasBits 53 (bound * BINARY64_ONE) := by
  unfold BINARY64_ONE
  exact hasBits_scaled (hbound.trans (by decide)) 1074

theorem le_infinity (hbound : bound < 2 ^ 24) : bound * BINARY64_ONE ≤ BINARY64_INFINITY := by
  have hpower : ∀ k, 24 ≤ k → bound * BINARY64_ONE ≤ 2 ^ k * BINARY64_ONE := by
    intro k hk
    exact Nat.mul_le_mul_right _ (hbound.le.trans (Nat.pow_le_pow_right (by decide) hk))
  unfold BINARY64_INFINITY
  exact hpower 1024 (by decide)

theorem le_value_iff : (bound : ℚ) ≤ value ↔ (bound * value.den : Int) ≤ value.num := by
  have hden : (0 : ℚ) < value.den := Nat.cast_pos.mpr value.den_pos
  conv_lhs => rw [← Rat.num_div_den value, le_div_iff₀ hden]
  exact_mod_cast Iff.rfl

theorem value_le_iff : value ≤ bound ↔ value.num ≤ (bound * value.den : Int) := by
  have hden : (0 : ℚ) < value.den := Nat.cast_pos.mpr value.den_pos
  conv_lhs => rw [← Rat.num_div_den value, div_le_iff₀ hden]
  exact_mod_cast Iff.rfl

/-- A magnitude that is no less than a small integer is not rounded below it. -/
theorem le_floatUnits (hbound : bound < 2 ^ 24) (h : (bound : ℚ) ≤ value) :
    bound * 2 ^ 149 ≤ floatUnits value := by
  have hratio : bound * value.den ≤ value.num.natAbs := by
    have := le_value_iff.mp h
    omega
  have hdouble : bound * BINARY64_ONE ≤ doubleUnits value := by
    refine le_min (le_roundRatio value.den_pos (hasBits_double hbound) ?_) (le_infinity hbound)
    rw [Nat.mul_right_comm]
    exact Nat.mul_le_mul_right _ hratio
  refine le_roundRatio unit_pos (hasBits_scaled hbound 149) ?_
  rwa [Nat.mul_assoc, ← one_eq_unit]

theorem floatUnits_le (hbound : bound < 2 ^ 24) (hpos : 0 ≤ value) (h : value ≤ bound) :
    floatUnits value ≤ bound * 2 ^ 149 := by
  have hratio : value.num.natAbs ≤ bound * value.den := by
    have := value_le_iff.mp h
    have hnum := Rat.num_nonneg.mpr hpos
    omega
  have hdouble : doubleUnits value ≤ bound * BINARY64_ONE := by
    refine (min_le_left _ _).trans (roundRatio_le value.den_pos (hasBits_double hbound) ?_)
    rw [Nat.mul_right_comm]
    exact Nat.mul_le_mul_right _ hratio
  refine roundRatio_le unit_pos (hasBits_scaled hbound 149) ?_
  rwa [Nat.mul_assoc, ← one_eq_unit]

/-- A number between two small integers becomes a float between them. -/
theorem floatOfNumber_between {least greatest : Nat} (hgreatest : greatest < 2 ^ 24)
    (hlow : (least : ℚ) ≤ value) (hhigh : value ≤ greatest) :
    Binary32.le (Binary32.ofNat least) (floatOfNumber (.finite value)) = true ∧
      Binary32.le (floatOfNumber (.finite value)) (Binary32.ofNat greatest) = true := by
  have hpos : 0 ≤ value := (Nat.cast_nonneg least).trans hlow
  have hleast : least < 2 ^ 24 := by
    have : (least : ℚ) ≤ greatest := hlow.trans hhigh
    exact (Nat.cast_le.mp this).trans_lt hgreatest
  have hlow' := le_floatUnits hleast hlow
  have hhigh' := floatUnits_le hgreatest hpos hhigh
  have hbounded : floatUnits value < BINARY32_OVERFLOW :=
    hhigh'.trans_lt (Nat.mul_lt_mul_of_pos_right (hgreatest.trans (by decide))
      (Nat.two_pow_pos 149))
  obtain ⟨h₁, hofLeast⟩ := Binary32.ofNat_eq_finite hleast
  obtain ⟨h₂, hofGreatest⟩ := Binary32.ofNat_eq_finite hgreatest
  have hsign : decide (value < 0) = false := decide_eq_false (not_lt.mpr hpos)
  obtain ⟨h₃, hfloat⟩ := @floatOfUnits_of_lt false (floatUnits value)
    (hasBits_roundRatio 23 _ unit_pos) hbounded
  rw [hofLeast, hofGreatest, floatOfNumber, hsign, hfloat]
  exact ⟨decide_eq_true (Int.ofNat_le.mpr hlow'), decide_eq_true (Int.ofNat_le.mpr hhigh')⟩

end Bounds

end EspMiner.Library
