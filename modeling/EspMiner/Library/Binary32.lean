import Mathlib.Data.Nat.Log
import Mathlib.Tactic.Ring

/-!
# Single precision numbers

The values of the IEEE binary32 format, with the comparisons, the maximum and
the subtraction that rounds to nearest, ties to even.  Every finite value is an
integer multiple of `2^-149`, so a finite value is kept as that integer.  The
two zeros compare equal and are one value here.
-/

namespace EspMiner.Library

/-- An integer with at most 24 significant bits. -/
def HasMantissa (units : Nat) : Prop :=
  ∃ mantissa exponent, mantissa < 2 ^ 24 ∧ units = mantissa * 2 ^ exponent

/-- `2^128` in units: the first magnitude beyond the finite ones. -/
def BINARY32_OVERFLOW : Nat := 2 ^ 128 * 2 ^ 149

/-- The magnitude of a finite value. -/
structure Representable (units : Nat) : Prop where
  mantissa : HasMantissa units
  bounded : units < BINARY32_OVERFLOW

inductive Binary32 where
  | nan
  | inf (negative : Bool)
  | finite (units : Int) (representable : Representable units.natAbs)
deriving DecidableEq

/-- Round a magnitude to 24 significant bits, to nearest, ties to even. -/
def roundUnits (units : Nat) : Nat :=
  if units < 2 ^ 24 then units
  else
    let ulp := 2 ^ (units.log2 - 23)
    let down := units / ulp
    let rest := units % ulp
    (if 2 * rest < ulp ∨ (2 * rest = ulp ∧ down % 2 = 0) then down else down + 1) * ulp

/-! ## Rounding -/

theorem roundUnits_of_lt {units : Nat} (h : units < 2 ^ 24) : roundUnits units = units :=
  if_pos h

/-- A large magnitude is rounded to one of the two neighbouring multiples of its
last place, and to itself if it is one. -/
theorem roundUnits_cases {units : Nat} (h : 2 ^ 24 ≤ units) :
    ∃ down, 2 ^ 23 ≤ down ∧ down < 2 ^ 24 ∧ down * 2 ^ (units.log2 - 23) ≤ units ∧
      units < (down + 1) * 2 ^ (units.log2 - 23) ∧
      (roundUnits units = down * 2 ^ (units.log2 - 23) ∨
        (down * 2 ^ (units.log2 - 23) < units ∧
          roundUnits units = (down + 1) * 2 ^ (units.log2 - 23))) := by
  have hpos : units ≠ 0 := by
    have : 0 < 2 ^ 24 := Nat.two_pow_pos 24
    omega
  have hlog : 24 ≤ units.log2 := (Nat.le_log2 hpos).mpr h
  have hlow : 2 ^ units.log2 ≤ units := Nat.log2_self_le hpos
  have hhigh : units < 2 ^ (units.log2 + 1) := Nat.lt_log2_self
  obtain ⟨place, hplace⟩ : ∃ place, units.log2 = place + 23 := ⟨units.log2 - 23, by omega⟩
  have hulp : 0 < 2 ^ place := Nat.two_pow_pos place
  rw [hplace] at hlow hhigh
  rw [Nat.pow_add] at hlow
  rw [show place + 23 + 1 = place + 24 by omega, Nat.pow_add] at hhigh
  rw [roundUnits, if_neg (Nat.not_lt.mpr h), hplace, Nat.add_sub_cancel]
  refine ⟨units / 2 ^ place, ?_, ?_, Nat.div_mul_le_self _ _, ?_, ?_⟩
  · rw [Nat.le_div_iff_mul_le hulp, Nat.mul_comm]
    exact hlow
  · rw [Nat.div_lt_iff_lt_mul hulp, Nat.mul_comm]
    exact hhigh
  · rw [← Nat.div_lt_iff_lt_mul hulp]
    exact Nat.lt_succ_self _
  · dsimp only
    split
    · exact .inl rfl
    · next hup =>
      refine .inr ⟨?_, rfl⟩
      have hdiv := Nat.div_add_mod units (2 ^ place)
      have hcomm := Nat.mul_comm (2 ^ place) (units / 2 ^ place)
      omega

/-- A rounded magnitude has 24 significant bits. -/
theorem hasMantissa_roundUnits (units : Nat) : HasMantissa (roundUnits units) := by
  rcases Nat.lt_or_ge units (2 ^ 24) with hlt | hge
  · rw [roundUnits_of_lt hlt]
    exact ⟨units, 0, hlt, by rw [Nat.pow_zero, Nat.mul_one]⟩
  · obtain ⟨down, -, hdown, -, -, hround | ⟨-, hround⟩⟩ := roundUnits_cases hge
    · exact ⟨down, _, hdown, hround⟩
    · rcases Nat.lt_or_ge (down + 1) (2 ^ 24) with hlt | hge
      · exact ⟨down + 1, _, hlt, hround⟩
      · -- the carry runs into the next binade
        have hcarry : down + 1 = 2 ^ 23 * 2 ^ 1 := by omega
        exact ⟨2 ^ 23, 1 + (units.log2 - 23), by decide, by
          rw [hround, hcarry, Nat.mul_assoc, ← Nat.pow_add]⟩

/-- A magnitude of 24 significant bits is at least as coarse as the last place of what is below
it. -/
theorem place_le_exponent {mantissa exponent place : Nat} (hmantissa : mantissa < 2 ^ 24)
    (h : 2 ^ 23 * 2 ^ place ≤ mantissa * 2 ^ exponent) : place ≤ exponent := by
  by_contra hfine
  have hhigh : mantissa * 2 ^ exponent < 2 ^ 24 * 2 ^ exponent :=
    Nat.mul_lt_mul_of_pos_right hmantissa (Nat.two_pow_pos exponent)
  have hpow : 2 ^ 24 * 2 ^ exponent ≤ 2 ^ 23 * 2 ^ place := by
    rw [← Nat.pow_add, ← Nat.pow_add]
    exact Nat.pow_le_pow_right (by omega) (by omega)
  omega

/-- A value that needs no rounding stays. -/
theorem roundUnits_eq_self {units : Nat} (hunits : HasMantissa units) :
    roundUnits units = units := by
  rcases Nat.lt_or_ge units (2 ^ 24) with hlt | hge
  · exact roundUnits_of_lt hlt
  · obtain ⟨down, hmin, -, hfloor, hceil, hround⟩ := roundUnits_cases hge
    generalize units.log2 - 23 = place at *
    obtain ⟨mantissa, exponent, hmantissa, rfl⟩ := hunits
    have hcoarse : place ≤ exponent :=
      place_le_exponent hmantissa ((Nat.mul_le_mul_right _ hmin).trans hfloor)
    obtain ⟨more, rfl⟩ := Nat.exists_eq_add_of_le hcoarse
    have hmultiple : mantissa * 2 ^ (place + more) = mantissa * 2 ^ more * 2 ^ place := by
      rw [Nat.pow_add]
      ring
    rw [hmultiple] at hfloor hceil hround ⊢
    have hdown : down = mantissa * 2 ^ more := by
      have hle := Nat.le_of_mul_le_mul_right hfloor (Nat.two_pow_pos place)
      have hlt := Nat.lt_of_mul_lt_mul_right hceil
      omega
    rcases hround with hround | ⟨habove, -⟩
    · rw [hround, hdown]
    · exact absurd habove (by rw [hdown]; exact lt_irrefl _)

/-- Rounding does not cross a value that needs no rounding. -/
theorem roundUnits_le {units bound : Nat} (hbound : HasMantissa bound) (h : units ≤ bound) :
    roundUnits units ≤ bound := by
  rcases Nat.lt_or_ge units (2 ^ 24) with hlt | hge
  · rwa [roundUnits_of_lt hlt]
  · obtain ⟨down, hmin, hmax, hfloor, hceil, hround⟩ := roundUnits_cases hge
    generalize units.log2 - 23 = place at *
    obtain ⟨mantissa, exponent, hmantissa, rfl⟩ := hbound
    have hcoarse : place ≤ exponent :=
      place_le_exponent hmantissa ((Nat.mul_le_mul_right _ hmin).trans (hfloor.trans h))
    obtain ⟨gap, rfl⟩ := Nat.exists_eq_add_of_le hcoarse
    have hmultiple : mantissa * 2 ^ (place + gap) = mantissa * 2 ^ gap * 2 ^ place := by
      rw [Nat.pow_add]
      ring
    rw [hmultiple] at h ⊢
    rcases hround with hround | ⟨habove, hround⟩
    · rw [hround]
      exact hfloor.trans h
    · rw [hround]
      have hlt : down < mantissa * 2 ^ gap :=
        Nat.lt_of_mul_lt_mul_right (habove.trans_le h)
      exact Nat.mul_le_mul_right _ hlt

namespace Binary32

/-! ## Values and operations -/

/-- The value nearest to an exact integer number of units. -/
def ofUnits (units : Int) : Binary32 :=
  if h : roundUnits units.natAbs < BINARY32_OVERFLOW then
    if units < 0 then
      .finite (-(roundUnits units.natAbs : Int)) (by
        rw [Int.natAbs_neg, Int.natAbs_natCast]
        exact ⟨hasMantissa_roundUnits _, h⟩)
    else
      .finite (roundUnits units.natAbs) (by
        rw [Int.natAbs_natCast]
        exact ⟨hasMantissa_roundUnits _, h⟩)
  else .inf (decide (units < 0))

/-- A C literal such as `45.0f`. -/
def ofNat (value : Nat) : Binary32 := ofUnits (value * 2 ^ 149)

/-- A value that needs no rounding -/
theorem ofUnits_natCast {units : Nat} (h : Representable units) :
    ∃ h', ofUnits (units : Int) = .finite units h' := by
  have hround : roundUnits (units : Int).natAbs = units := by
    rw [Int.natAbs_natCast, roundUnits_eq_self h.mantissa]
  refine ⟨by rwa [Int.natAbs_natCast], ?_⟩
  rw [ofUnits, dif_pos (by rw [hround]; exact h.bounded), if_neg (by omega)]
  congr 1
  exact_mod_cast hround

/-- A small integer is a float. -/
theorem ofNat_eq_finite {n : Nat} (hn : n < 2 ^ 24) :
    ∃ h, ofNat n = .finite ((n * 2 ^ 149 : Nat) : Int) h := by
  have hbounded : n * 2 ^ 149 < BINARY32_OVERFLOW :=
    Nat.mul_lt_mul_of_pos_right (hn.trans (by decide)) (Nat.two_pow_pos 149)
  have hunits : ((n * 2 ^ 149 : Nat) : Int) = (n : Int) * 2 ^ 149 := by
    rw [Nat.cast_mul, Nat.cast_pow]
    rfl
  rw [ofNat, ← hunits]
  exact ofUnits_natCast ⟨⟨n, 149, hn, rfl⟩, hbounded⟩

/-- `isfinite` -/
def isFinite : Binary32 → Bool
  | finite _ _ => true
  | _ => false

/-- `x <= y`; no comparison with a NaN holds. -/
def le : Binary32 → Binary32 → Bool
  | nan, _ => false
  | _, nan => false
  | inf true, _ => true
  | _, inf false => true
  | finite x _, finite y _ => decide (x ≤ y)
  | _, _ => false

/-- `x < y` -/
def lt (x y : Binary32) : Bool := le x y && !le y x

/-- `fmaxf`; a NaN is treated as missing. -/
def fmaxf (x y : Binary32) : Binary32 :=
  if x = nan then y
  else if y = nan then x
  else if le x y then y
  else x

/-- `x - y` -/
def sub : Binary32 → Binary32 → Binary32
  | nan, _ => nan
  | _, nan => nan
  | inf s, inf t => if s = t then nan else inf s
  | inf s, finite _ _ => inf s
  | finite _ _, inf t => inf (!t)
  | finite x _, finite y _ => ofUnits (x - y)

/-- `fabsf` -/
def abs : Binary32 → Binary32
  | nan => nan
  | inf _ => inf false
  | finite x h => finite x.natAbs (by rwa [Int.natAbs_natCast])

/-! ## Order facts -/

/-- A value that is no less than a positive integer is not below zero. -/
theorem le_zero_eq_false {x : Binary32} {n : Nat} (hn : n < 2 ^ 24) (hpos : 0 < n)
    (h : le (ofNat n) x = true) : le x (ofNat 0) = false := by
  obtain ⟨h₁, hofNat⟩ := ofNat_eq_finite hn
  obtain ⟨h₀, hzero⟩ := @ofNat_eq_finite 0 (by decide)
  rw [hofNat] at h
  rw [hzero]
  cases x with
  | nan => rfl
  | inf negative =>
    cases negative with
    | true => cases h
    | false => rfl
  | finite units representable =>
    have hle : ((n * 2 ^ 149 : Nat) : Int) ≤ units := of_decide_eq_true h
    have hunits : 0 < n * 2 ^ 149 := Nat.mul_pos hpos (Nat.two_pow_pos 149)
    refine decide_eq_false ?_
    rw [Nat.zero_mul]
    omega

theorem isFinite_of_between {x : Binary32} {m n : Nat} (hm : m < 2 ^ 24) (hn : n < 2 ^ 24)
    (hlow : le (ofNat m) x = true) (hhigh : le x (ofNat n) = true) : x.isFinite = true := by
  obtain ⟨h₁, hofm⟩ := ofNat_eq_finite hm
  obtain ⟨h₂, hofn⟩ := ofNat_eq_finite hn
  rw [hofm] at hlow
  rw [hofn] at hhigh
  cases x with
  | nan => cases hhigh
  | inf negative =>
    cases negative with
    | true => cases hlow
    | false => cases hhigh
  | finite units representable => rfl

/-- A finite value is a number of units. -/
theorem eq_finite {x : Binary32} (h : x.isFinite = true) :
    ∃ units representable, x = finite units representable := by
  cases x with
  | nan => cases h
  | inf negative => cases h
  | finite units representable => exact ⟨units, representable, rfl⟩

theorem le_refl_of_finite {x : Binary32} (h : x.isFinite = true) : le x x = true := by
  obtain ⟨x, mantissa, rfl⟩ := eq_finite h
  simp [le]

theorem le_total_of_finite {x y : Binary32} (hx : x.isFinite = true) (hy : y.isFinite = true)
    (h : le x y = false) : le y x = true := by
  obtain ⟨x, mantissa, rfl⟩ := eq_finite hx
  obtain ⟨y, mantissa', rfl⟩ := eq_finite hy
  simp only [le, decide_eq_false_iff_not, decide_eq_true_eq] at h ⊢
  omega

theorem le_trans_of_finite {x y z : Binary32} (hx : x.isFinite = true) (hy : y.isFinite = true)
    (hz : z.isFinite = true) (hxy : le x y = true) (hyz : le y z = true) : le x z = true := by
  obtain ⟨x, mantissa, rfl⟩ := eq_finite hx
  obtain ⟨y, mantissa', rfl⟩ := eq_finite hy
  obtain ⟨z, mantissa'', rfl⟩ := eq_finite hz
  simp only [le, decide_eq_true_eq] at hxy hyz ⊢
  omega

theorem le_of_not_lt {x y : Binary32} (hx : x.isFinite = true) (hy : y.isFinite = true)
    (h : lt x y = false) : le y x = true := by
  obtain ⟨x, mantissa, rfl⟩ := eq_finite hx
  obtain ⟨y, mantissa', rfl⟩ := eq_finite hy
  simp only [lt, le, Bool.and_eq_false_iff, decide_eq_false_iff_not, Bool.not_eq_false',
    decide_eq_true_eq] at h ⊢
  omega

theorem le_fmaxf_left {x : Binary32} (y : Binary32) (hx : x.isFinite = true) :
    le x (fmaxf x y) = true := by
  have hne : x ≠ nan := by
    rintro rfl
    cases hx
  rw [fmaxf, if_neg hne]
  split
  · exact le_refl_of_finite hx
  · split
    · assumption
    · exact le_refl_of_finite hx

theorem fmaxf_le {x y bound : Binary32} (hx : le x bound = true) (hy : le y bound = true) :
    le (fmaxf x y) bound = true := by
  unfold fmaxf
  split_ifs <;> assumption

theorem sub_self_of_finite {x : Binary32} (hx : x.isFinite = true) : sub x x = ofUnits 0 := by
  cases x with
  | nan => cases hx
  | inf negative => cases hx
  | finite units representable => rw [sub, Int.sub_self]

/-- Subtracting a nonnegative value does not lead above a nonnegative one,
rounding included. -/
theorem sub_le {x y : Binary32} (hx : x.isFinite = true) (hx0 : le (ofNat 0) x = true)
    (hy : y.isFinite = true) (hy0 : le (ofNat 0) y = true) : le (sub x y) x = true := by
  have hzero : ofNat 0 = finite 0 ⟨⟨0, 0, by decide, rfl⟩, by decide⟩ := by
    simp [ofNat, ofUnits, roundUnits, BINARY32_OVERFLOW]
  rw [hzero] at hx0 hy0
  cases x with
  | nan => cases hx
  | inf negative => cases hx
  | finite x hrepresentable =>
    cases y with
    | nan => cases hy
    | inf negative => cases hy
    | finite y hrepresentable' =>
      simp only [le, decide_eq_true_eq] at hx0 hy0
      by_cases hnegative : x - y < 0
      · simp only [sub, ofUnits, hnegative, if_true]
        split
        · simp only [le, decide_eq_true_eq]
          omega
        · simp [le]
      · have hround : roundUnits (x - y).natAbs ≤ x.natAbs :=
          roundUnits_le hrepresentable.mantissa (by omega)
        simp only [sub, ofUnits, hnegative, if_false]
        rw [dif_pos (hround.trans_lt hrepresentable.bounded)]
        simp only [le, decide_eq_true_eq]
        omega

end Binary32

end EspMiner.Library
