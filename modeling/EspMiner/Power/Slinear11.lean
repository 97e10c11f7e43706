import EspMiner.Asic.Job
import Mathlib.Algebra.Order.Archimedean.Basic
import Mathlib.Algebra.Order.Field.Power
import Mathlib.Algebra.Order.Floor.Ring
import Mathlib.Data.Rat.Floor
import Mathlib.Tactic.FieldSimp
import Mathlib.Tactic.IntervalCases
import Mathlib.Tactic.Linarith
import Mathlib.Tactic.Positivity
import Mathlib.Tactic.Ring

/-!
# PMBus linear numbers

The `SLINEAR11` words of `main/power/TPS546.c`: five bits of exponent over eleven bits of
mantissa, both in two's complement.  Floating-point numbers are rationals.
-/

namespace EspMiner

/-- The conversion to `int`, toward zero -/
def truncate (value : ℚ) : Int := if 0 ≤ value then ⌊value⌋ else ⌈value⌉

/-- The exponent that both decoders take out of a word -/
def slinear11Exponent (value : U16) : Int :=
  if value &&& 0x8000#16 ≠ 0#16 then
    -1 * (((~~~(value.setWidth 32)).sshiftRight 11 &&& 0x1f#32).toInt + 1)
  else (value >>> 11).toNat

/-- The mantissa that both decoders take out of a word -/
def slinear11Mantissa (value : U16) : Int :=
  if value &&& 0x400#16 ≠ 0#16 then -1 * ((~~~(value.setWidth 32) &&& 0x3ff#32).toInt + 1)
  else (value &&& 0x3ff#16).toNat

/-- `slinear11_2_float` -/
def slinear11ToFloat (value : U16) : ℚ := slinear11Mantissa value * 2 ^ slinear11Exponent value

/-- `slinear11_2_int` -/
def slinear11ToInt (value : U16) : Int := truncate (slinear11ToFloat value)

/-- The word of an exponent and a mantissa, as both encoders put it together -/
def slinear11Word (exponent : U32) (mantissa : Int) : U16 :=
  (((exponent <<< 11) &&& 0xf800#32) + BitVec.ofInt 32 mantissa).setWidth 16

/-- `int_2_slinear11`; the loop ends at the first exponent that leaves ten bits. -/
def intToSlinear11 (value : Int) : U16 :=
  if 0 ≤ value then
    match (List.range 16).find? fun i => decide (truncate ((value : ℚ) / 2 ^ i) < 1024) with
    | some i => slinear11Word (BitVec.ofInt 32 i) (truncate ((value : ℚ) / 2 ^ i))
    | none => 0
  else 0

/-- `float_2_slinear11`; the loop ends behind the last exponent that leaves ten bits. -/
def floatToSlinear11 (value : ℚ) : U16 :=
  if 0 < value then
    match (List.range 16).find? fun i => decide (1024 ≤ truncate (value * 2 ^ i)) with
    | some i =>
        let exponent : Int := i - 1
        slinear11Word (~~~(BitVec.ofInt 32 exponent) + 1) (truncate (value * 2 ^ exponent))
    | none => 0
  else 0

/-! ## The fields of a word -/

/-- The five bits of the exponent -/
def exponentField (value : U16) : BitVec 5 := value.extractLsb' 11 5

/-- The eleven bits of the mantissa -/
def mantissaField (value : U16) : BitVec 11 := value.extractLsb' 0 11

/-- A negative number out of its complement -/
theorem toInt_of_msb {w : Nat} {field : BitVec w} (h : field.msb = true) :
    -1 * (((~~~field).toNat : Int) + 1) = field.toInt := by
  have hlt := field.isLt
  rw [BitVec.toInt_eq_msb_cond, if_pos h, BitVec.toNat_not]
  omega

theorem toInt_of_not_msb {w : Nat} {field : BitVec w} (h : field.msb = false) :
    field.toInt = field.toNat := by
  rw [BitVec.toInt_eq_msb_cond, h]
  rfl

/-- A field is positive in an `int`. -/
theorem toInt_setWidth_field {w : Nat} (hw : w ≤ 11) (field : BitVec w) :
    (field.setWidth 32).toInt = field.toNat := by
  have hlt : field.toNat < 2 ^ 11 := field.isLt.trans_le (Nat.pow_le_pow_right (by decide) hw)
  have hsame : (field.setWidth 32).toNat = field.toNat := by
    rw [BitVec.toNat_setWidth, Nat.mod_eq_of_lt (by omega)]
  rw [BitVec.toInt_eq_toNat_of_lt (by rw [hsame]; omega), hsame]

/-- Both decoders read the exponent in two's complement. -/
theorem slinear11Exponent_eq (value : U16) :
    slinear11Exponent value = (exponentField value).toInt := by
  have hsign : value &&& 0x8000#16 = 0#16 ↔ (exponentField value).msb = false := by
    have h := BitVec.and_twoPow value 15
    rw [show BitVec.twoPow 16 15 = 0x8000#16 from rfl] at h
    rw [h, exponentField, BitVec.msb_eq_getLsbD_last, BitVec.getLsbD_extractLsb']
    simp
  have hcomplement : (~~~(value.setWidth 32)).sshiftRight 11 &&& 0x1f#32 =
      (~~~(exponentField value)).setWidth 32 := by
    apply BitVec.eq_of_getLsbD_eq
    intro i hi
    simp only [exponentField, BitVec.getLsbD_and, BitVec.getLsbD_sshiftRight, BitVec.getLsbD_not,
      BitVec.getLsbD_setWidth, BitVec.getLsbD_extractLsb']
    interval_cases i <;> simp
  have hplain : (value >>> 11).toNat = (exponentField value).toNat := by
    rw [exponentField, BitVec.extractLsb'_toNat, BitVec.toNat_ushiftRight]
    have hlt := value.isLt
    rw [Nat.shiftRight_eq_div_pow]
    omega
  unfold slinear11Exponent
  cases hmsb : (exponentField value).msb with
  | false =>
    rw [if_neg (not_not.mpr (hsign.mpr hmsb)), hplain, toInt_of_not_msb hmsb]
  | true =>
    have hne : value &&& 0x8000#16 ≠ 0#16 := by
      rw [Ne, hsign, hmsb]
      exact Bool.noConfusion
    rw [if_pos hne, hcomplement, toInt_setWidth_field (by decide), toInt_of_msb hmsb]

/-- Both decoders read the mantissa in two's complement. -/
theorem slinear11Mantissa_eq (value : U16) :
    slinear11Mantissa value = (mantissaField value).toInt := by
  have hsign : value &&& 0x400#16 = 0#16 ↔ (mantissaField value).msb = false := by
    have h := BitVec.and_twoPow value 10
    rw [show BitVec.twoPow 16 10 = 0x400#16 from rfl] at h
    rw [h, mantissaField, BitVec.msb_eq_getLsbD_last, BitVec.getLsbD_extractLsb']
    simp
  unfold slinear11Mantissa
  cases hmsb : (mantissaField value).msb with
  | false =>
    have hplain : value &&& 0x3ff#16 = (mantissaField value).setWidth 16 := by
      have hbit : value[10] = false := by
        rw [mantissaField, BitVec.msb_eq_getLsbD_last, BitVec.getLsbD_extractLsb'] at hmsb
        simpa using hmsb
      apply BitVec.eq_of_getLsbD_eq
      intro i hi
      simp only [mantissaField, BitVec.getLsbD_and, BitVec.getLsbD_setWidth,
        BitVec.getLsbD_extractLsb']
      interval_cases i <;> simp [hbit]
    rw [if_neg (not_not.mpr (hsign.mpr hmsb)), hplain, toInt_of_not_msb hmsb,
      BitVec.toNat_setWidth, Nat.mod_eq_of_lt]
    exact (mantissaField value).isLt.trans (by decide)
  | true =>
    have hne : value &&& 0x400#16 ≠ 0#16 := by
      rw [Ne, hsign, hmsb]
      exact Bool.noConfusion
    have hcomplement : ~~~(value.setWidth 32) &&& 0x3ff#32 =
        (~~~(mantissaField value)).setWidth 32 := by
      have hbit : value[10] = true := by
        rw [mantissaField, BitVec.msb_eq_getLsbD_last, BitVec.getLsbD_extractLsb'] at hmsb
        simpa using hmsb
      apply BitVec.eq_of_getLsbD_eq
      intro i hi
      simp only [mantissaField, BitVec.getLsbD_and, BitVec.getLsbD_not, BitVec.getLsbD_setWidth,
        BitVec.getLsbD_extractLsb']
      interval_cases i <;> simp [hbit]
    rw [if_pos hne, hcomplement, toInt_setWidth_field (by decide), toInt_of_msb hmsb]

/-- A mantissa of eleven bits does not reach into the exponent. -/
theorem slinear11Word_fields (exponent : U32) {mantissa : Int} (hpos : 0 ≤ mantissa)
    (hlt : mantissa < 2048) :
    exponentField (slinear11Word exponent mantissa) = exponent.setWidth 5 ∧
      mantissaField (slinear11Word exponent mantissa) = BitVec.ofInt 11 mantissa := by
  obtain ⟨count, rfl⟩ := Int.eq_ofNat_of_zero_le hpos
  have hcount : count < 2048 := by omega
  have hwide : BitVec.ofInt 32 count = (BitVec.ofNat 11 count).setWidth 32 := by
    apply BitVec.eq_of_toNat_eq
    rw [BitVec.ofInt_natCast, BitVec.toNat_setWidth, BitVec.toNat_ofNat, BitVec.toNat_ofNat]
    omega
  have hword : slinear11Word exponent count = exponent.setWidth 5 ++ BitVec.ofNat 11 count := by
    obtain ⟨field, hfield⟩ : ∃ field, field = BitVec.ofNat 11 count := ⟨_, rfl⟩
    have hdisjoint : ((exponent <<< 11) &&& 0xf800#32) &&& field.setWidth 32 = 0#32 := by
      apply BitVec.eq_of_getLsbD_eq
      intro i hi
      simp only [BitVec.getLsbD_and, BitVec.getLsbD_shiftLeft, BitVec.getLsbD_setWidth]
      interval_cases i <;> simp
    rw [slinear11Word, hwide, ← hfield, BitVec.add_eq_or_of_and_eq_zero _ _ hdisjoint]
    apply BitVec.eq_of_getLsbD_eq
    intro i hi
    simp only [BitVec.getLsbD_setWidth, BitVec.getLsbD_or, BitVec.getLsbD_and,
      BitVec.getLsbD_shiftLeft, BitVec.getLsbD_append]
    interval_cases i <;> simp
  rw [hword, exponentField, mantissaField, BitVec.extractLsb'_append_eq_left,
    BitVec.extractLsb'_append_eq_right]
  exact ⟨rfl, (BitVec.ofInt_natCast _ _).symm⟩

/-- A word is its mantissa, scaled by its exponent. -/
theorem slinear11ToFloat_word {bits : U32} {exponent mantissa : Int}
    (hexponent : (bits.setWidth 5).toInt = exponent) (hpos : 0 ≤ mantissa)
    (hlt : mantissa < 1024) :
    slinear11ToFloat (slinear11Word bits mantissa) = mantissa * 2 ^ exponent := by
  obtain ⟨hfield, hmantissa⟩ := slinear11Word_fields bits hpos (by omega)
  have hself : (BitVec.ofInt 11 mantissa).toInt = mantissa := by
    rw [BitVec.toInt_ofInt, Int.bmod_eq_of_le (by omega) (by omega)]
  rw [slinear11ToFloat, slinear11Exponent_eq, slinear11Mantissa_eq, hfield, hmantissa, hexponent,
    hself]

theorem mantissaField_word {bits : U32} {mantissa : Int} (hpos : 0 ≤ mantissa)
    (hlt : mantissa < 1024) : (mantissaField (slinear11Word bits mantissa)).toNat < 1024 := by
  rw [(slinear11Word_fields bits hpos (by omega)).2]
  obtain ⟨count, rfl⟩ := Int.eq_ofNat_of_zero_le hpos
  rw [BitVec.ofInt_natCast, BitVec.toNat_ofNat]
  omega

/-! ## The integer encoder -/

theorem truncate_of_nonneg {value : ℚ} (h : 0 ≤ value) : truncate value = ⌊value⌋ := if_pos h

/-- The exponent is the least that leaves ten bits. -/
theorem intToSlinear11_cases {value : Int} (hpos : 0 ≤ value) :
    (∃ i : Nat, i ≤ 15 ∧ (value : ℚ) / 2 ^ i < 1024 ∧ (i = 0 ∨ 1024 ≤ (value : ℚ) / 2 ^ (i - 1)) ∧
      intToSlinear11 value = slinear11Word (BitVec.ofInt 32 i) ⌊(value : ℚ) / 2 ^ i⌋) ∨
    (1024 * 2 ^ 15 ≤ value ∧ intToSlinear11 value = 0) := by
  have hquotient : ∀ i : Nat, truncate ((value : ℚ) / 2 ^ i) = ⌊(value : ℚ) / 2 ^ i⌋ := by
    intro i
    exact truncate_of_nonneg (by positivity)
  have hbelow : ∀ i : Nat, ⌊(value : ℚ) / 2 ^ i⌋ < 1024 ↔ (value : ℚ) / 2 ^ i < 1024 := by
    intro i
    rw [Int.floor_lt]
    norm_cast
  rw [intToSlinear11, if_pos hpos]
  simp only [hquotient, hbelow]
  split
  · next i hfind =>
    obtain ⟨hi, hmem, hfirst⟩ := List.find?_range_eq_some.mp hfind
    left
    refine ⟨i, by simpa [Nat.lt_succ_iff] using hmem, of_decide_eq_true hi, ?_, rfl⟩
    rcases Nat.eq_zero_or_pos i with hzero | hi
    · exact .inl hzero
    · right
      have hbefore := hfirst (i - 1) (by omega)
      simpa using hbefore
  · next hfind =>
    right
    refine ⟨?_, rfl⟩
    have hlast := List.find?_eq_none.mp hfind 15 (by simp)
    rw [decide_eq_true_eq, not_lt, le_div_iff₀ (by positivity)] at hlast
    exact_mod_cast hlast

/-- Rounding down to a unit loses less than it. -/
theorem floor_unit {value unit : ℚ} (hunit : 0 < unit) :
    (⌊value / unit⌋ : ℚ) * unit ≤ value ∧ value - ⌊value / unit⌋ * unit < unit := by
  have hle := Int.floor_le (value / unit)
  have hlt := Int.lt_floor_add_one (value / unit)
  rw [le_div_iff₀ hunit] at hle
  rw [div_lt_iff₀ hunit, add_mul, one_mul] at hlt
  exact ⟨hle, by linarith⟩

theorem intExponent_field {i : Nat} (hi : i ≤ 15) :
    ((BitVec.ofInt 32 (i : Int)).setWidth 5).toInt = i := by
  interval_cases i <;> decide

/-- An integer is rounded down to the unit of its exponent. -/
theorem slinear11ToFloat_intToSlinear11 {value : Int} (hpos : 0 ≤ value)
    (hlt : value < 1024 * 2 ^ 15) :
    ∃ i : Nat, slinear11Exponent (intToSlinear11 value) = i ∧
      (i = 0 ∨ 1024 ≤ (value : ℚ) / 2 ^ (i - 1)) ∧
      slinear11ToFloat (intToSlinear11 value) = ⌊(value : ℚ) / 2 ^ i⌋ * 2 ^ i := by
  rcases intToSlinear11_cases hpos with ⟨i, hi, hbelow, hleast, hword⟩ | ⟨hlarge, -⟩
  · have hfloor : 0 ≤ ⌊(value : ℚ) / 2 ^ i⌋ := Int.floor_nonneg.mpr (by positivity)
    have hsmall : ⌊(value : ℚ) / 2 ^ i⌋ < 1024 := by
      rw [Int.floor_lt]
      exact_mod_cast hbelow
    refine ⟨i, ?_, hleast, ?_⟩
    · rw [hword, slinear11Exponent_eq, (slinear11Word_fields _ hfloor (by omega)).1,
        intExponent_field hi]
    · rw [hword, slinear11ToFloat_word (intExponent_field hi) hfloor hsmall, zpow_natCast]
  · omega

/-! ## The float encoder -/

/-- The exponent is the one that leaves exactly ten bits, from a 32nd on. -/
theorem floatToSlinear11_cases {value : ℚ} (hlt : value < 2048) :
    (∃ i : Nat, i ≤ 15 ∧ 512 ≤ value * 2 ^ ((i : Int) - 1) ∧ value * 2 ^ ((i : Int) - 1) < 1024 ∧
      floatToSlinear11 value =
        slinear11Word (~~~(BitVec.ofInt 32 ((i : Int) - 1)) + 1) ⌊value * 2 ^ ((i : Int) - 1)⌋) ∨
    (value < 1 / 32 ∧ floatToSlinear11 value = 0) := by
  by_cases hpos : 0 < value
  · have hproduct : ∀ i : Nat, truncate (value * 2 ^ i) = ⌊value * 2 ^ i⌋ := by
      intro i
      exact truncate_of_nonneg (by positivity)
    have hscaled : ∀ i : Int, truncate (value * 2 ^ i) = ⌊value * 2 ^ i⌋ := by
      intro i
      exact truncate_of_nonneg (mul_nonneg hpos.le (by positivity))
    have hreached : ∀ i : Nat, 1024 ≤ ⌊value * 2 ^ i⌋ ↔ 1024 ≤ value * 2 ^ i := by
      intro i
      rw [Int.le_floor]
      norm_cast
    rw [floatToSlinear11, if_pos hpos]
    simp only [hproduct, hreached, hscaled]
    split
    · next i hfind =>
      obtain ⟨hi, hmem, hfirst⟩ := List.find?_range_eq_some.mp hfind
      have hhalf : value * 2 ^ ((i : Int) - 1) = value * 2 ^ i / 2 := by
        rw [zpow_sub₀ two_ne_zero, zpow_natCast, zpow_one, mul_div_assoc]
      left
      refine ⟨i, by simpa [Nat.lt_succ_iff] using hmem, ?_, ?_, rfl⟩
      · have := of_decide_eq_true hi
        rw [hhalf]
        linarith
      · rcases Nat.eq_zero_or_pos i with rfl | hi
        · rw [hhalf, pow_zero]
          linarith
        · have hbefore := hfirst (i - 1) (by omega)
          rw [Bool.not_eq_true', decide_eq_false_iff_not, not_le] at hbefore
          have hcast : (i : Int) - 1 = ((i - 1 : Nat) : Int) := by omega
          rw [hcast, zpow_natCast]
          exact hbefore
    · next hfind =>
      right
      refine ⟨?_, rfl⟩
      have hlast := List.find?_eq_none.mp hfind 15 (by simp)
      rw [decide_eq_true_eq, not_le] at hlast
      norm_num at hlast
      linarith
  · right
    refine ⟨lt_of_le_of_lt (not_lt.mp hpos) (by norm_num), ?_⟩
    rw [floatToSlinear11, if_neg hpos]

theorem floatExponent_field {i : Nat} (hi : i ≤ 15) :
    ((~~~(BitVec.ofInt 32 ((i : Int) - 1)) + 1).setWidth 5).toInt = 1 - i := by
  interval_cases i <;> decide

/-- A number is rounded down to ten significant bits. -/
theorem slinear11ToFloat_floatToSlinear11 {value : ℚ} (hmin : 1 / 32 ≤ value)
    (hlt : value < 2048) :
    ∃ i : Nat, 512 ≤ value * 2 ^ ((i : Int) - 1) ∧ value * 2 ^ ((i : Int) - 1) < 1024 ∧
      slinear11ToFloat (floatToSlinear11 value) =
        ⌊value * 2 ^ ((i : Int) - 1)⌋ * 2 ^ (1 - (i : Int)) := by
  rcases floatToSlinear11_cases hlt with ⟨i, hi, hleast, hbelow, hword⟩ | ⟨hsmall, -⟩
  · refine ⟨i, hleast, hbelow, ?_⟩
    have hfloor : 0 ≤ ⌊value * 2 ^ ((i : Int) - 1)⌋ := Int.floor_nonneg.mpr (by linarith)
    have hten : ⌊value * 2 ^ ((i : Int) - 1)⌋ < 1024 := by
      rw [Int.floor_lt]
      exact_mod_cast hbelow
    rw [hword, slinear11ToFloat_word (floatExponent_field hi) hfloor hten]
  · linarith

/-! ## Coding again -/

theorem slinear11_bounds (word : U16) :
    slinear11Mantissa word < 1024 ∧ slinear11Exponent word ≤ 15 := by
  rw [slinear11Mantissa_eq, slinear11Exponent_eq]
  have hmantissa := BitVec.two_mul_toInt_lt (x := mantissaField word)
  have hexponent := BitVec.two_mul_toInt_lt (x := exponentField word)
  omega

/-- A unit that is no finer leaves an integer. -/
theorem floor_scaled {mantissa : Int} {count : Int} (hcount : 0 ≤ count) :
    ((⌊(mantissa : ℚ) * 2 ^ count⌋ : Int) : ℚ) = mantissa * 2 ^ count := by
  obtain ⟨count, rfl⟩ := Int.eq_ofNat_of_zero_le hcount
  have hint : (mantissa : ℚ) * 2 ^ (count : Int) = ((mantissa * 2 ^ count : Int) : ℚ) := by
    rw [zpow_natCast]
    push_cast
    rfl
  rw [hint, Int.floor_intCast]

/-- A finer unit than a half leaves less than half of the mantissa. -/
theorem scaled_lt {mantissa : Int} (hlt : mantissa < 1024) {count : Int} (hcount : count < 0)
    (hpos : (0 : ℚ) < mantissa) : (mantissa : ℚ) * 2 ^ count < 512 := by
  have hhalf : (2 : ℚ) ^ count ≤ 2 ^ (-1 : Int) := zpow_le_zpow_right₀ one_le_two (by omega)
  have hmantissa : (mantissa : ℚ) < 1024 := by exact_mod_cast hlt
  rw [zpow_neg_one] at hhalf
  calc (mantissa : ℚ) * 2 ^ count ≤ mantissa * 2⁻¹ := mul_le_mul_of_nonneg_left hhalf hpos.le
    _ < 1024 * 2⁻¹ := mul_lt_mul_of_pos_right hmantissa (by norm_num)
    _ = 512 := by norm_num

theorem floatToSlinear11_decoded {word : U16} (hmin : 1 / 32 ≤ slinear11ToFloat word)
    (hlt : slinear11ToFloat word < 2048) :
    slinear11ToFloat (floatToSlinear11 (slinear11ToFloat word)) = slinear11ToFloat word := by
  obtain ⟨i, hleast, -, hcoded⟩ := slinear11ToFloat_floatToSlinear11 hmin hlt
  obtain ⟨hmantissa, -⟩ := slinear11_bounds word
  have hpositive : (0 : ℚ) < slinear11Mantissa word := by
    have hvalue : (0 : ℚ) < slinear11ToFloat word := by linarith
    exact (pos_iff_pos_of_mul_pos hvalue).mpr (by positivity)
  have hscaled : slinear11ToFloat word * 2 ^ ((i : Int) - 1) =
      slinear11Mantissa word * 2 ^ (slinear11Exponent word + ((i : Int) - 1)) := by
    rw [slinear11ToFloat, mul_assoc, ← zpow_add₀ two_ne_zero]
  have hcount : 0 ≤ slinear11Exponent word + ((i : Int) - 1) := by
    by_contra hneg
    have hsmall := scaled_lt hmantissa (not_le.mp hneg) hpositive
    rw [← hscaled] at hsmall
    linarith
  rw [hcoded, hscaled, floor_scaled hcount, mul_assoc, ← zpow_add₀ two_ne_zero, slinear11ToFloat]
  congr 2
  omega

theorem intToSlinear11_decoded {word : U16} {value : Int} (hpos : 0 ≤ value)
    (hvalue : slinear11ToFloat word = value) :
    value < 1024 * 2 ^ 15 ∧ slinear11ToFloat (intToSlinear11 value) = value := by
  obtain ⟨hmantissa, hexponent⟩ := slinear11_bounds word
  have hbelow : (slinear11Mantissa word : ℚ) < 1024 := by exact_mod_cast hmantissa
  have hlarge : value < 1024 * 2 ^ 15 := by
    have hunit : (2 : ℚ) ^ slinear11Exponent word ≤ 2 ^ (15 : Int) :=
      zpow_le_zpow_right₀ one_le_two hexponent
    have hlt : (value : ℚ) < 1024 * 2 ^ (15 : Int) := by
      rw [← hvalue, slinear11ToFloat]
      calc (slinear11Mantissa word : ℚ) * 2 ^ slinear11Exponent word
          < 1024 * 2 ^ slinear11Exponent word :=
            mul_lt_mul_of_pos_right hbelow (by positivity)
        _ ≤ 1024 * 2 ^ (15 : Int) := mul_le_mul_of_nonneg_left hunit (by norm_num)
    exact_mod_cast hlt
  refine ⟨hlarge, ?_⟩
  obtain ⟨i, -, hleast, hcoded⟩ := slinear11ToFloat_intToSlinear11 hpos hlarge
  rw [hcoded]
  cases i with
  | zero => rw [pow_zero, div_one, mul_one, Int.floor_intCast]
  | succ i =>
    have hquotient : ∀ count : Nat, (value : ℚ) / 2 ^ count =
        slinear11Mantissa word * 2 ^ (slinear11Exponent word - count) := by
      intro count
      rw [← hvalue, slinear11ToFloat, mul_div_assoc, zpow_sub₀ two_ne_zero, zpow_natCast]
    have hcount : 0 ≤ slinear11Exponent word - (i + 1 : Nat) := by
      by_contra hneg
      have hreached := hleast.resolve_left (Nat.succ_ne_zero i)
      have hone : (2 : ℚ) ^ (slinear11Exponent word - i) ≤ 1 :=
        zpow_le_one_of_nonpos₀ one_le_two (by omega)
      have hnonneg : (0 : ℚ) ≤ slinear11Mantissa word := by
        by_contra hneg
        have hfinal : (value : ℚ) < 0 := by
          rw [← hvalue, slinear11ToFloat]
          exact mul_neg_of_neg_of_pos (not_le.mp hneg) (by positivity)
        exact absurd hpos (not_le.mpr (by exact_mod_cast hfinal))
      rw [Nat.add_sub_cancel, hquotient] at hreached
      have hsmall := mul_le_of_le_one_right hnonneg hone
      linarith
    rw [hquotient, floor_scaled hcount, mul_assoc, ← zpow_natCast, ← zpow_add₀ two_ne_zero,
      sub_add_cancel, ← hvalue, slinear11ToFloat]

/-- **Linear numbers round trip.**  Both encoders round down, one to the unit of its exponent
and one to ten bits; the mantissa stays in its field; and what was decoded is coded exactly. -/
theorem slinear11_roundTrip :
    (∀ value : Int, 0 ≤ value → value < 1024 * 2 ^ 15 →
      slinear11ToFloat (intToSlinear11 value) ≤ value ∧
        value - slinear11ToFloat (intToSlinear11 value) <
          2 ^ slinear11Exponent (intToSlinear11 value)) ∧
    (∀ value : ℚ, 1 / 32 ≤ value → value < 2048 →
      slinear11ToFloat (floatToSlinear11 value) ≤ value ∧
        value - slinear11ToFloat (floatToSlinear11 value) < value / 512) ∧
    (∀ value : Int, (mantissaField (intToSlinear11 value)).toNat ≤ 1023) ∧
    (∀ value : ℚ, value < 2048 → (mantissaField (floatToSlinear11 value)).toNat ≤ 1023) ∧
    (∀ (word : U16) (value : Int), 0 ≤ value → slinear11ToFloat word = value →
      slinear11ToFloat (intToSlinear11 value) = value) ∧
    (∀ word : U16, 1 / 32 ≤ slinear11ToFloat word → slinear11ToFloat word < 2048 →
      slinear11ToFloat (floatToSlinear11 (slinear11ToFloat word)) = slinear11ToFloat word) := by
  refine ⟨?_, ?_, ?_, ?_, ?_, ?_⟩
  · intro value hpos hlt
    obtain ⟨i, hexponent, -, hcoded⟩ := slinear11ToFloat_intToSlinear11 hpos hlt
    have hunit := @floor_unit (value : ℚ) (2 ^ i) (by positivity)
    rw [hcoded, hexponent, zpow_natCast]
    exact hunit
  · intro value hmin hlt
    obtain ⟨i, hleast, -, hcoded⟩ := slinear11ToFloat_floatToSlinear11 hmin hlt
    have hpos : (0 : ℚ) < 2 ^ (1 - (i : Int)) := by positivity
    have hdiv : value / 2 ^ (1 - (i : Int)) = value * 2 ^ ((i : Int) - 1) := by
      rw [div_eq_mul_inv, ← zpow_neg, neg_sub]
    obtain ⟨hle, hlost⟩ := @floor_unit value _ hpos
    rw [hdiv] at hle hlost
    have hlarge : 512 * 2 ^ (1 - (i : Int)) ≤ value := by
      rw [← le_div_iff₀ hpos, hdiv]
      exact hleast
    rw [hcoded]
    exact ⟨hle, by linarith⟩
  · intro value
    by_cases hpos : 0 ≤ value
    · rcases intToSlinear11_cases hpos with ⟨i, hi, hbelow, hleast, hword⟩ | ⟨-, hword⟩
      · rw [hword]
        refine Nat.le_of_lt_succ (mantissaField_word ?_ ?_)
        · exact Int.floor_nonneg.mpr (by positivity)
        · rw [Int.floor_lt]
          exact_mod_cast hbelow
      · rw [hword]
        decide
    · rw [intToSlinear11, if_neg hpos]
      decide
  · intro value hlt
    rcases floatToSlinear11_cases hlt with ⟨i, hi, hleast, hbelow, hword⟩ | ⟨-, hword⟩
    · rw [hword]
      refine Nat.le_of_lt_succ (mantissaField_word ?_ ?_)
      · exact Int.floor_nonneg.mpr (by linarith)
      · rw [Int.floor_lt]
        exact_mod_cast hbelow
    · rw [hword]
      decide
  · intro word value hpos hvalue
    exact (intToSlinear11_decoded hpos hvalue).2
  · intro word hmin hlt
    exact floatToSlinear11_decoded hmin hlt

theorem slinear11_roundTrip_scaled :
    (slinear11ToFloat (intToSlinear11 3000) ≤ (3000 : Int) ∧
      ((3000 : Int) : ℚ) - slinear11ToFloat (intToSlinear11 3000) <
        2 ^ slinear11Exponent (intToSlinear11 3000)) ∧
    slinear11ToFloat (floatToSlinear11 (13 / 3)) ≤ 13 / 3 ∧
      13 / 3 - slinear11ToFloat (floatToSlinear11 (13 / 3)) < 13 / 3 / 512 :=
  ⟨slinear11_roundTrip.1 3000 (by decide) (by decide),
    slinear11_roundTrip.2.1 (13 / 3) (by norm_num) (by norm_num)⟩

/-- Read back as an integer, a coded integer has lost less than the unit of its exponent. -/
theorem slinear11ToInt_intToSlinear11 {value : Int} (hpos : 0 ≤ value)
    (hlt : value < 1024 * 2 ^ 15) :
    slinear11ToInt (intToSlinear11 value) ≤ value ∧
      ((value - slinear11ToInt (intToSlinear11 value) : Int) : ℚ) <
        2 ^ slinear11Exponent (intToSlinear11 value) := by
  obtain ⟨i, hexponent, -, hcoded⟩ := slinear11ToFloat_intToSlinear11 hpos hlt
  have hfloor : 0 ≤ ⌊(value : ℚ) / 2 ^ i⌋ := Int.floor_nonneg.mpr (by positivity)
  have hint : ((slinear11ToInt (intToSlinear11 value) : Int) : ℚ) =
      ⌊(value : ℚ) / 2 ^ i⌋ * 2 ^ i := by
    rw [slinear11ToInt, hcoded, truncate_of_nonneg (by positivity), ← zpow_natCast,
      floor_scaled (Int.natCast_nonneg i)]
  obtain ⟨hle, hlost⟩ := @floor_unit (value : ℚ) (2 ^ i) (by positivity)
  rw [← hint] at hle hlost
  rw [hexponent, zpow_natCast, Int.cast_sub]
  exact ⟨by exact_mod_cast hle, hlost⟩

end EspMiner
