import Mathlib.Algebra.Group.Nat.Even
import Mathlib.Logic.Function.Iterate
import Mathlib.Tactic.Ring

/-!
# Machine counters that skip zero

A `w`-bit counter whose increment replaces a wrapped-around zero by one takes
the values `1 … 2 ^ w - 1` in turn.  Its `ordinal` counts from zero and turns
`n` increments into an addition modulo `2 ^ w - 1`.
-/

namespace EspMiner.Library

/-- A `w`-bit counter value; zero is never one. -/
@[ext] structure NonzeroCounter (w : Nat) where
  val : BitVec w
  ne_zero : val ≠ 0#w
deriving DecidableEq

namespace NonzeroCounter

variable {w : Nat}

theorem toNat_pos (c : NonzeroCounter w) : 0 < c.val.toNat := by
  rcases Nat.eq_zero_or_pos c.val.toNat with h | h
  · exact absurd (BitVec.eq_of_toNat_eq (by simpa using h)) c.ne_zero
  · exact h

/-- The number of increments from one. -/
def ordinal (c : NonzeroCounter w) : Nat := c.val.toNat - 1

theorem toNat_eq (c : NonzeroCounter w) : c.val.toNat = c.ordinal + 1 := by
  have := c.toNat_pos
  unfold ordinal
  omega

theorem ordinal_lt (c : NonzeroCounter w) : c.ordinal < 2 ^ w - 1 := by
  have hlt := c.val.isLt
  have := c.toNat_eq
  omega

/-- The widths that machine counters have. -/
instance neZero_thirtyTwo : NeZero 32 := ⟨by decide⟩

instance neZero_sixtyFour : NeZero 64 := ⟨by decide⟩

variable [NeZero w]

theorem one_lt_two_pow : 1 < 2 ^ w := Nat.one_lt_two_pow (NeZero.ne w)

/-- The first value. -/
def one : NonzeroCounter w :=
  ⟨1#w, by
    intro h
    have := congrArg BitVec.toNat h
    simp [Nat.mod_eq_of_lt (one_lt_two_pow (w := w))] at this⟩

@[simp] theorem ordinal_one : (one : NonzeroCounter w).ordinal = 0 := by
  simp [ordinal, one, Nat.mod_eq_of_lt (one_lt_two_pow (w := w))]

/-- The C idiom `if (++counter == 0) counter = 1`. -/
def next (c : NonzeroCounter w) : NonzeroCounter w :=
  if h : c.val + 1#w = 0#w then one else ⟨c.val + 1#w, h⟩

theorem ordinal_next (c : NonzeroCounter w) :
    c.next.ordinal = (c.ordinal + 1) % (2 ^ w - 1) := by
  have hlt := c.ordinal_lt
  have hc := c.toNat_eq
  have hw := one_lt_two_pow (w := w)
  have hadd : (c.val + 1#w).toNat = (c.ordinal + 2) % 2 ^ w := by
    rw [BitVec.toNat_add, hc, BitVec.toNat_ofNat, Nat.mod_eq_of_lt hw]
  by_cases hwrap : c.val + 1#w = 0#w
  · -- only the largest value wraps around, and its ordinal is `2 ^ w - 2`
    have hzero : (c.ordinal + 2) % 2 ^ w = 0 := by
      rw [← hadd, hwrap]; simp
    have hlast : c.ordinal + 1 = 2 ^ w - 1 := by
      by_contra hne
      rw [Nat.mod_eq_of_lt (by omega)] at hzero
      omega
    rw [next, dif_pos hwrap, ordinal_one, hlast, Nat.mod_self]
  · have hne : (c.ordinal + 2) % 2 ^ w ≠ 0 := by
      intro hzero
      exact hwrap (BitVec.eq_of_toNat_eq (by rw [hadd, hzero]; simp))
    have hsmall : c.ordinal + 2 < 2 ^ w := by
      by_contra hge
      have : c.ordinal + 2 = 2 ^ w := by omega
      exact hne (by rw [this, Nat.mod_self])
    rw [next, dif_neg hwrap, Nat.mod_eq_of_lt (by omega)]
    show (c.val + 1#w).toNat - 1 = c.ordinal + 1
    rw [hadd, Nat.mod_eq_of_lt hsmall]
    omega

theorem ordinal_iterate_next (c : NonzeroCounter w) (n : Nat) :
    (next^[n] c).ordinal = (c.ordinal + n) % (2 ^ w - 1) := by
  induction n with
  | zero => simp [Nat.mod_eq_of_lt c.ordinal_lt]
  | succ n ih =>
    rw [Function.iterate_succ_apply', ordinal_next, ih, Nat.mod_add_mod, Nat.add_assoc]

/-- Without a wrap-around the counter just counts. -/
theorem ordinal_iterate_next_of_lt {c : NonzeroCounter w} {n : Nat}
    (h : c.ordinal + n < 2 ^ w - 1) : (next^[n] c).ordinal = c.ordinal + n := by
  rw [ordinal_iterate_next, Nat.mod_eq_of_lt h]

end NonzeroCounter

end EspMiner.Library
