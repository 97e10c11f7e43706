import EspMiner.Library.FixedPoint
import EspMiner.Library.Rounding

/-!
# Double precision numbers

The values of the IEEE binary64 format that are no NaN, as a sign and a magnitude in
multiples of `2^-1074`.  The first magnitude beyond the finite ones stands for
infinity.  They are printed with a fixed count of decimals and read back.
-/

namespace EspMiner.Library

/-- The multiples of `2^-1074` in one. -/
@[irreducible] def BINARY64_ONE : Nat := 2 ^ 1074

@[irreducible] def BINARY64_INFINITY : Nat := 2 ^ 1024 * BINARY64_ONE

structure Binary64 where
  negative : Bool
  units : Nat
  significant : HasBits 53 units
  bounded : units ≤ BINARY64_INFINITY
deriving DecidableEq

/-- A number from its sign and its magnitude. -/
def signed (negative : Bool) (magnitude : Nat) : Int :=
  if negative then -magnitude else magnitude

/-- Changing the magnitudes in an order-preserving way keeps the order. -/
theorem signed_mono {f : Nat → Nat} (hmono : ∀ a b, a ≤ b → f a ≤ f b) (hzero : f 0 = 0)
    {s t : Bool} {a b : Nat} (h : signed s a ≤ signed t b) : signed s (f a) ≤ signed t (f b) := by
  unfold signed at h ⊢
  cases s with
  | false =>
    cases t with
    | false =>
      have := hmono a b (by simpa using h)
      simpa using this
    | true =>
      -- only zero is at most a negative number's magnitude below zero
      obtain ⟨rfl, rfl⟩ : a = 0 ∧ b = 0 := by simp at h; omega
      simp [hzero]
  | true =>
    cases t with
    | false => simp
    | true =>
      have := hmono b a (by simpa using h)
      simpa using this

/-- The value of a decimal fraction, in multiples of its last place. -/
def DecimalFraction.scaled (fraction : DecimalFraction) : Int :=
  signed fraction.negative fraction.digits

namespace Binary64

/-- The value in multiples of `2^-1074`; both zeros have the value zero. -/
def value (x : Binary64) : Int := signed x.negative x.units

instance : LT Binary64 := ⟨fun x y => x.value < y.value⟩
instance : LE Binary64 := ⟨fun x y => x.value ≤ y.value⟩

instance (x y : Binary64) : Decidable (x < y) := inferInstanceAs (Decidable (x.value < y.value))
instance (x y : Binary64) : Decidable (x ≤ y) := inferInstanceAs (Decidable (x.value ≤ y.value))

theorem not_lt {x y : Binary64} : ¬ x < y ↔ y ≤ x := Int.not_lt

theorem le_of_lt {x y : Binary64} (h : x < y) : x ≤ y := Int.le_of_lt h

theorem le_trans {x y z : Binary64} (hxy : x ≤ y) (hyz : y ≤ z) : x ≤ z := Int.le_trans hxy hyz

theorem one_pos : 0 < BINARY64_ONE := by
  unfold BINARY64_ONE
  exact pow_pos two_pos 1074

theorem hasBits_infinity : HasBits 53 BINARY64_INFINITY := by
  have hone : HasBits 53 1 := ⟨1, 0, by decide, rfl⟩
  have hpower := (hone.mul_two_pow 1024).mul_two_pow 1074
  rw [Nat.one_mul] at hpower
  unfold BINARY64_INFINITY BINARY64_ONE
  exact hpower

/-- The value nearest to a decimal fraction. -/
def ofFraction (fraction : DecimalFraction) : Binary64 where
  negative := fraction.negative
  units := min (roundRatio 52 (fraction.digits * BINARY64_ONE) (10 ^ fraction.places))
    BINARY64_INFINITY
  significant := by
    rcases min_choice (roundRatio 52 (fraction.digits * BINARY64_ONE) (10 ^ fraction.places))
      BINARY64_INFINITY with hmin | hmin
    · rw [hmin]
      exact hasBits_roundRatio _ _ (Nat.pow_pos (by decide))
    · rw [hmin]
      exact hasBits_infinity
  bounded := min_le_right _ _

theorem units_ofFraction (fraction : DecimalFraction) : (ofFraction fraction).units =
    min (roundRatio 52 (fraction.digits * BINARY64_ONE) (10 ^ fraction.places))
      BINARY64_INFINITY := rfl

/-- The decimals that a format with this many places writes of a finite value. -/
def toFraction (places : Nat) (x : Binary64) : DecimalFraction where
  negative := x.negative
  digits := nearest (10 ^ places * x.units) BINARY64_ONE
  places := places

/-- What the text of a value is read as. -/
def reread (places : Nat) (x : Binary64) : Binary64 := ofFraction (x.toFraction places)

variable {x y : Binary64} {places : Nat}

/-- Printing keeps the order. -/
theorem scaled_toFraction_mono (h : x ≤ y) :
    (x.toFraction places).scaled ≤ (y.toFraction places).scaled := by
  refine signed_mono (f := fun n => nearest (10 ^ places * n) BINARY64_ONE)
    (fun a b hab => ?_) ?_ h
  · exact nearest_mono one_pos (Nat.mul_le_mul_left (10 ^ places) hab)
  · simp only [Nat.mul_zero, nearest_zero one_pos]

/-- Reading keeps the order of decimals with the same number of places. -/
theorem ofFraction_mono {f g : DecimalFraction} (hplaces : f.places = g.places)
    (h : f.scaled ≤ g.scaled) : ofFraction f ≤ ofFraction g := by
  have hscale : 0 < 10 ^ g.places := Nat.pow_pos (by decide)
  show signed f.negative (ofFraction f).units ≤ signed g.negative (ofFraction g).units
  rw [units_ofFraction, units_ofFraction, hplaces]
  refine signed_mono (f := fun n =>
    min (roundRatio 52 (n * BINARY64_ONE) (10 ^ g.places)) BINARY64_INFINITY)
    (fun a b hab => ?_) ?_ h
  · exact min_le_min_right _ (roundRatio_mono hscale (Nat.mul_le_mul_right _ hab))
  · simp only [Nat.zero_mul, roundRatio_zero 52 hscale, Nat.zero_min]

/-- Printing and reading keeps the order. -/
theorem reread_mono (h : x ≤ y) : x.reread places ≤ y.reread places :=
  ofFraction_mono rfl (scaled_toFraction_mono h)

/-- The text of what is read from the text of a value is that text. -/
theorem toFraction_reread (hplaces : places ≠ 0) :
    (x.reread places).toFraction places = x.toFraction places := by
  have hscale : 0 < 10 ^ places := Nat.pow_pos (by decide)
  have hodd : ¬ 10 ^ places ∣ BINARY64_ONE := by
    intro hdvd
    have hten : 5 ∣ 10 ^ places := (by decide : 5 ∣ 10).trans (dvd_pow_self 10 hplaces)
    have hpower (n : Nat) : Nat.Coprime 5 (2 ^ n) := Nat.Coprime.pow_right n (by decide)
    have hcoprime : Nat.Coprime 5 BINARY64_ONE := by
      unfold BINARY64_ONE
      exact hpower 1074
    exact absurd (hcoprime.eq_one_of_dvd (hten.trans hdvd)) (by decide)
  have hunits : HasBits (52 + 1) x.units := x.significant
  -- a finite value is read as a finite one, infinity as infinity
  have hbound : roundRatio 52 (nearest (10 ^ places * x.units) BINARY64_ONE * BINARY64_ONE)
      (10 ^ places) ≤ BINARY64_INFINITY := by
    refine roundRatio_le hscale hasBits_infinity ?_
    have hwritten : nearest (10 ^ places * x.units) BINARY64_ONE ≤ 10 ^ places * 2 ^ 1024 := by
      refine (nearest_mono one_pos (Nat.mul_le_mul_left _ x.bounded)).trans_eq ?_
      unfold BINARY64_INFINITY
      rw [← Nat.mul_assoc]
      exact nearest_mul _ one_pos
    refine (Nat.mul_le_mul_right _ hwritten).trans_eq ?_
    unfold BINARY64_INFINITY
    rw [Nat.mul_assoc, Nat.mul_comm]
  have hagain := nearest_roundRatio_nearest hscale one_pos hodd hunits
  simp only [reread, toFraction, ofFraction, min_eq_left hbound, hagain]

end Binary64

end EspMiner.Library
