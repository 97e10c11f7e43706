import EspMiner.Library.Ring
import Mathlib.Algebra.BigOperators.Group.List.Basic
import Mathlib.Algebra.Order.BigOperators.Group.List
import Mathlib.Algebra.Order.Field.Basic
import Mathlib.Data.Finset.Max
import Mathlib.Tactic.FieldSimp
import Mathlib.Tactic.Linarith
import Mathlib.Tactic.Ring

/-!
# Means of windows

The mean of the last elements of a sequence, and a longer mean that is kept as the means of
blocks: a ring has one slot for each block, and the slot of the block that is under way moves
from the content it replaces to the mean of the new block.
-/

namespace EspMiner.Library

variable {K : Type*} [Field K]

/-- The last `size` elements, or all of them when there are fewer. -/
def lastOf {α : Type*} (size : Nat) (xs : List α) : List α := xs.drop (xs.length - size)

def mean (xs : List K) : K := xs.sum / xs.length

/-! ## The last elements -/

section LastOf

variable {α : Type*} {size more : Nat} {xs ys : List α} {x : α}

theorem length_lastOf : (lastOf size xs).length = min size xs.length := by
  rw [lastOf, List.length_drop]
  omega

theorem lastOf_eq_self (h : xs.length ≤ size) : lastOf size xs = xs := by
  rw [lastOf, Nat.sub_eq_zero_of_le h, List.drop_zero]

theorem lastOf_ne_nil (hsize : 0 < size) (h : xs ≠ []) : lastOf size xs ≠ [] := by
  intro hnil
  have hlength := congrArg List.length hnil
  have hpos := List.length_pos_iff.mpr h
  rw [length_lastOf, List.length_nil] at hlength
  omega

/-- The last elements of a prefix are among the last of the whole. -/
theorem mem_lastOf_of_take {k : Nat} (hk : k ≤ xs.length) (h : x ∈ lastOf size (xs.take k))
    (hreach : xs.length + size ≤ k + more) : x ∈ lastOf more xs := by
  rw [lastOf, List.length_take, Nat.min_eq_left hk, List.mem_drop_iff_getElem] at h
  obtain ⟨i, hi, rfl⟩ := h
  rw [List.length_take, Nat.min_eq_left hk] at hi
  rw [lastOf, List.mem_drop_iff_getElem]
  refine ⟨k - size + i - (xs.length - more), by omega, ?_⟩
  rw [List.getElem_take]
  congr 1
  omega

theorem mem_lastOf_mono (hle : size ≤ more) (h : x ∈ lastOf size xs) : x ∈ lastOf more xs := by
  have htake : x ∈ lastOf size (xs.take xs.length) := by rwa [List.take_length]
  exact mem_lastOf_of_take le_rfl htake (by omega)

/-- Samples have a least and a greatest one. -/
theorem exists_isLeast_isGreatest [LinearOrder α] (hxs : xs ≠ []) :
    ∃ lo hi, IsLeast {x | x ∈ xs} lo ∧ IsGreatest {x | x ∈ xs} hi := by
  have hset : {x | x ∈ xs} = (xs.toFinset : Set α) := by
    ext x
    simp
  have hnonempty : xs.toFinset.Nonempty := List.toFinset_nonempty_iff xs |>.mpr hxs
  rw [hset]
  exact ⟨_, _, xs.toFinset.isLeast_min' hnonempty, xs.toFinset.isGreatest_max' hnonempty⟩

end LastOf

/-! ## Means -/

section Mean

theorem mean_perm {xs ys : List K} (h : xs.Perm ys) : mean xs = mean ys := by
  rw [mean, mean, h.sum_eq, h.length_eq]

/-- The means of consecutive blocks of one size add up to a sum over the size. -/
theorem sum_drop_blockMeans {xs : List K} {d m k : Nat} (hd : 0 < d) (hm : m ≤ k)
    (hk : d * k ≤ xs.length) :
    (((List.range k).map fun j => mean (lastOf d (xs.take (d * (j + 1))))).drop m).sum =
      ((xs.take (d * k)).drop (d * m)).sum / d := by
  induction k, hm using Nat.le_induction with
  | base =>
    rw [List.drop_of_length_le (by simp), List.drop_of_length_le (by
      rw [List.length_take]
      omega), List.sum_nil, zero_div]
  | succ k hmk ih =>
    have hnext : d * (k + 1) = d * k + d := Nat.mul_succ d k
    have hmul : d * m ≤ d * k := Nat.mul_le_mul_left d hmk
    have hlength : (xs.take (d * (k + 1))).length = d * k + d := by
      rw [List.length_take]
      omega
    have hblock : lastOf d (xs.take (d * (k + 1))) = (xs.take (d * (k + 1))).drop (d * k) := by
      rw [lastOf, hlength, Nat.add_sub_cancel]
    have hsize : ((xs.take (d * (k + 1))).drop (d * k)).length = d := by
      rw [List.length_drop, hlength]
      omega
    have hsplit : (xs.take (d * (k + 1))).drop (d * m) =
        (xs.take (d * k)).drop (d * m) ++ (xs.take (d * (k + 1))).drop (d * k) := by
      conv_lhs => rw [← List.take_append_drop (d * k) (xs.take (d * (k + 1)))]
      rw [List.take_take, Nat.min_eq_left (by omega), List.drop_append_of_le_length (by
        rw [List.length_take]
        omega)]
    rw [List.range_succ, List.map_append, List.drop_append_of_le_length (by simpa using hmk),
      List.sum_append, ih (by omega), hsplit, List.sum_append, add_div, List.map_singleton,
      List.sum_singleton, hblock, mean, hsize]

/-- **The mean of the last block means is the mean of the last elements.** -/
theorem mean_blockMeans [CharZero K] {xs : List K} {c d k : Nat} (hd : 0 < d)
    (hk : xs.length = d * k) :
    mean (lastOf c ((List.range k).map fun j => mean (lastOf d (xs.take (d * (j + 1)))))) =
      mean (lastOf (c * d) xs) := by
  have hpos : (d : K) ≠ 0 := Nat.cast_ne_zero.mpr (Nat.ne_of_gt hd)
  have hstart : xs.length - c * d = d * (k - c) := by
    rw [hk, Nat.mul_sub, Nat.mul_comm c d]
  have hsum := @sum_drop_blockMeans _ _ xs d (k - c) k hd (Nat.sub_le k c) hk.ge
  rw [← hk, List.take_length] at hsum
  have hlength : (lastOf (c * d) xs).length = d * (k - (k - c)) := by
    rw [lastOf, List.length_drop, hstart, hk, ← Nat.mul_sub]
  rw [mean, mean, hlength, length_lastOf, lastOf, List.length_map, List.length_range, hsum, lastOf,
    hstart, Nat.cast_mul, div_div, show k - (k - c) = min c k by omega]

variable [LinearOrder K] [IsStrictOrderedRing K] {xs : List K} {lo hi a b f : K}

/-- A mean lies where its elements lie. -/
theorem mean_within (hxs : xs ≠ []) (h : ∀ x ∈ xs, lo ≤ x ∧ x ≤ hi) :
    lo ≤ mean xs ∧ mean xs ≤ hi := by
  have hpos : (0 : K) < xs.length := Nat.cast_pos.mpr (List.length_pos_iff.mpr hxs)
  have hlo : xs.length • lo ≤ xs.sum := List.card_nsmul_le_sum xs lo fun x hx => (h x hx).1
  have hhi : xs.sum ≤ xs.length • hi := List.sum_le_card_nsmul xs hi fun x hx => (h x hx).2
  rw [nsmul_eq_mul] at hlo hhi
  constructor
  · rw [mean, le_div_iff₀ hpos]
    linarith
  · rw [mean, div_le_iff₀ hpos]
    linarith

/-- A value between two others -/
theorem blend_within (hf₀ : 0 ≤ f) (hf₁ : f ≤ 1) (ha : lo ≤ a ∧ a ≤ hi) (hb : lo ≤ b ∧ b ≤ hi) :
    lo ≤ f * a + (1 - f) * b ∧ f * a + (1 - f) * b ≤ hi := by
  obtain ⟨hlo, hhi⟩ := ha
  obtain ⟨hlo', hhi'⟩ := hb
  constructor
  · nlinarith
  · nlinarith

end Mean

end EspMiner.Library
