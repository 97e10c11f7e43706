import EspMiner.Library.Run
import Mathlib.Algebra.Ring.Nat

/-!
# Numbers of two words

A number kept in two words of `w` bits.  Adding a word carries into the high word at most
once, and the comparison of the high words decides unless they are equal.
-/

namespace EspMiner.Library

/-- A number of two words of `w` bits -/
structure DoubleWord (w : Nat) where
  high : BitVec w
  low : BitVec w
deriving DecidableEq, Repr

namespace DoubleWord

variable {w : Nat}

/-- The number the two words stand for -/
def toNat (c : DoubleWord w) : Nat := c.high.toNat * 2 ^ w + c.low.toNat

/-- A word is added to the low word, and a wrap of the sum is the carry. -/
def add (c : DoubleWord w) (n : BitVec w) : DoubleWord w :=
  ⟨if c.low + n < c.low then c.high + 1 else c.high, c.low + n⟩

/-- The larger number, word by word -/
def max (c other : DoubleWord w) : DoubleWord w :=
  if c.high < other.high then other
  else if other.high = c.high ∧ c.low < other.low then ⟨c.high, other.low⟩
  else c

theorem toNat_lt (c : DoubleWord w) : c.toNat < 2 ^ w * 2 ^ w := by
  have hhigh : (c.high.toNat + 1) * 2 ^ w ≤ 2 ^ w * 2 ^ w :=
    Nat.mul_le_mul_right _ (Nat.succ_le_of_lt c.high.isLt)
  have hlow := c.low.isLt
  rw [toNat]
  rw [Nat.add_mul, Nat.one_mul] at hhigh
  omega

theorem toNat_injective : Function.Injective (toNat (w := w)) := by
  intro c other h
  have hlow := congrArg (· % 2 ^ w) h
  have hhigh := congrArg (· / 2 ^ w) h
  simp only [toNat, Nat.mul_add_mod_self_right, Nat.mod_eq_of_lt c.low.isLt,
    Nat.mod_eq_of_lt other.low.isLt] at hlow
  simp only [toNat, Nat.mul_comm _ (2 ^ w), Nat.mul_add_div (Nat.two_pow_pos w),
    Nat.div_eq_of_lt c.low.isLt, Nat.div_eq_of_lt other.low.isLt, Nat.add_zero] at hhigh
  cases c
  cases other
  congr
  · exact BitVec.eq_of_toNat_eq hhigh
  · exact BitVec.eq_of_toNat_eq hlow

/-- The sum is below the addend exactly when it wraps. -/
theorem low_wraps_iff (c : DoubleWord w) (n : BitVec w) :
    c.low + n < c.low ↔ 2 ^ w ≤ c.low.toNat + n.toNat := by
  have hlow := c.low.isLt
  have hn := n.isLt
  rw [BitVec.lt_def, BitVec.toNat_add]
  constructor
  · intro h
    by_contra hfits
    rw [Nat.mod_eq_of_lt (Nat.not_le.mp hfits)] at h
    omega
  · intro h
    rw [Nat.mod_eq_sub_mod h, Nat.mod_eq_of_lt (by omega)]
    omega

/-- Adding a word carries into the high word exactly once when the low word overflows. -/
theorem high_add (c : DoubleWord w) (n : BitVec w) (hfits : c.toNat + n.toNat < 2 ^ w * 2 ^ w) :
    (c.add n).high.toNat = c.high.toNat + (c.low.toNat + n.toNat) / 2 ^ w := by
  have hlow := c.low.isLt
  have hn := n.isLt
  by_cases hcarry : 2 ^ w ≤ c.low.toNat + n.toNat
  · have hquot : (c.low.toNat + n.toNat) / 2 ^ w = 1 :=
      Nat.div_eq_of_lt_le (by omega) (by omega)
    have hroom : c.high.toNat + 1 < 2 ^ w := by
      by_contra hfull
      have hfull : 2 ^ w * 2 ^ w ≤ (c.high.toNat + 1) * 2 ^ w :=
        Nat.mul_le_mul_right _ (Nat.not_lt.mp hfull)
      rw [Nat.add_mul, Nat.one_mul] at hfull
      rw [toNat] at hfits
      omega
    have hone : (1 : BitVec w).toNat = 1 := by
      have : 1 < 2 ^ w := by omega
      simp [BitVec.toNat_ofNat, Nat.mod_eq_of_lt this]
    rw [add, if_pos ((low_wraps_iff c n).mpr hcarry), hquot, BitVec.toNat_add, hone,
      Nat.mod_eq_of_lt hroom]
  · rw [add, if_neg fun h => hcarry ((low_wraps_iff c n).mp h),
      Nat.div_eq_of_lt (Nat.not_le.mp hcarry), Nat.add_zero]

theorem low_add (c : DoubleWord w) (n : BitVec w) :
    (c.add n).low.toNat = (c.low.toNat + n.toNat) % 2 ^ w := BitVec.toNat_add ..

/-- Adding a word adds its number. -/
theorem toNat_add (c : DoubleWord w) (n : BitVec w) (hfits : c.toNat + n.toNat < 2 ^ w * 2 ^ w) :
    (c.add n).toNat = c.toNat + n.toNat := by
  have hsplit := Nat.div_add_mod' (c.low.toNat + n.toNat) (2 ^ w)
  rw [toNat, high_add c n hfits, low_add, toNat, Nat.add_mul]
  omega

/-- A sum that wraps is only smaller. -/
theorem toNat_add_le (c : DoubleWord w) (n : BitVec w) :
    (c.add n).toNat ≤ c.toNat + n.toNat := by
  by_cases hfits : c.toNat + n.toNat < 2 ^ w * 2 ^ w
  · exact (toNat_add c n hfits).le
  · exact (toNat_lt _).le.trans (Nat.not_lt.mp hfits)

/-- The order of the numbers is that of the words. -/
theorem toNat_max (c other : DoubleWord w) :
    (c.max other).toNat = Nat.max c.toNat other.toNat := by
  have hlow := c.low.isLt
  have hother := other.low.isLt
  have hless : ∀ {x y : Nat}, x < y → (x + 1) * 2 ^ w ≤ y * 2 ^ w :=
    fun h => Nat.mul_le_mul_right _ h
  rw [max]
  split
  case isTrue hhigh =>
    have h := hless (BitVec.lt_def.mp hhigh)
    rw [Nat.add_mul, Nat.one_mul] at h
    exact (Nat.max_eq_right (by simp only [toNat]; omega)).symm
  case isFalse hhigh =>
    split
    case isTrue hequal =>
      have hlt := BitVec.lt_def.mp hequal.2
      have hsame : (⟨c.high, other.low⟩ : DoubleWord w).toNat = other.toNat := by
        rw [toNat, toNat, hequal.1]
      rw [hsame]
      exact (Nat.max_eq_right (by simp only [toNat, hequal.1]; omega)).symm
    case isFalse hnot =>
      have hle : other.high.toNat ≤ c.high.toNat := Nat.not_lt.mp hhigh
      refine (Nat.max_eq_left ?_).symm
      rcases Nat.lt_or_eq_of_le hle with hlt | heq
      · have h := hless hlt
        rw [Nat.add_mul, Nat.one_mul] at h
        simp only [toNat]
        omega
      · have hlast : ¬ c.low < other.low := fun h => hnot ⟨BitVec.eq_of_toNat_eq heq, h⟩
        rw [BitVec.lt_def] at hlast
        simp only [toNat, heq]
        omega

end DoubleWord

end EspMiner.Library
