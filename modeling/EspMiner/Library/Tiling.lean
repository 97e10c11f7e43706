import Mathlib.Order.Interval.Set.Basic

/-!
# Tilings of an interval

A row of closed intervals of naturals, each starting one behind the end of the
one before it, covers the interval from the first start to the last end exactly
once.
-/

namespace EspMiner.Library

/-- The `count` intervals `[start i, stop i]` lie one behind the other from `low`
to `high`. -/
structure Tiles (low high count : Nat) (start stop : Nat → Nat) : Prop where
  first : start 0 = low
  last : stop (count - 1) = high
  nonempty : ∀ i < count, start i ≤ stop i
  adjacent : ∀ i, i + 1 < count → start (i + 1) = stop i + 1

namespace Tiles

variable {low high count : Nat} {start stop : Nat → Nat}

/-- A later tile starts behind the end of an earlier one. -/
theorem stop_lt_start (h : Tiles low high count start stop) {i j : Nat} (hij : i < j)
    (hj : j < count) : stop i < start j := by
  induction j with
  | zero => omega
  | succ j ih =>
    have hnext := h.adjacent j hj
    rcases Nat.lt_succ_iff_lt_or_eq.mp hij with hlt | rfl
    · have hbefore := ih hlt (by omega)
      have hne := h.nonempty j (by omega)
      omega
    · omega

/-- No number lies in two tiles. -/
theorem unique (h : Tiles low high count start stop) {i j n : Nat} (hi : i < count)
    (hj : j < count) (hin : start i ≤ n ∧ n ≤ stop i) (hjn : start j ≤ n ∧ n ≤ stop j) :
    i = j := by
  rcases Nat.lt_trichotomy i j with hlt | heq | hgt
  · have := h.stop_lt_start hlt hj
    omega
  · exact heq
  · have := h.stop_lt_start hgt hi
    omega

/-- Every number from the first start up to the end of a tile lies in a tile. -/
theorem exists_of_le_stop (h : Tiles low high count start stop) {k n : Nat} (hk : k < count)
    (hlow : low ≤ n) (hn : n ≤ stop k) : ∃ i < count, start i ≤ n ∧ n ≤ stop i := by
  induction k with
  | zero => exact ⟨0, hk, by rw [h.first]; exact hlow, hn⟩
  | succ k ih =>
    rcases Nat.lt_or_ge (stop k) n with hgt | hle
    · exact ⟨k + 1, hk, by rw [h.adjacent k hk]; omega, hn⟩
    · exact ih (by omega) hle

/-- The tiles stay inside the interval. -/
theorem bounds (h : Tiles low high count start stop) {i n : Nat} (hi : i < count)
    (hn : start i ≤ n ∧ n ≤ stop i) : low ≤ n ∧ n ≤ high := by
  have hfirst := h.nonempty 0 (by omega)
  have hlast := h.nonempty (count - 1) (by omega)
  have hstart := h.first
  have hstop := h.last
  constructor
  · rcases Nat.eq_zero_or_pos i with rfl | hpos
    · omega
    · have := h.stop_lt_start hpos hi
      omega
  · rcases Nat.lt_or_ge i (count - 1) with hlt | hge
    · have := h.stop_lt_start hlt (by omega)
      omega
    · obtain rfl : i = count - 1 := by omega
      omega

/-- **Exact cover.**  The numbers of the interval are those that lie in exactly
one tile. -/
theorem existsUnique_iff (h : Tiles low high count start stop) (hcount : 0 < count) (n : Nat) :
    (∃! i, i < count ∧ start i ≤ n ∧ n ≤ stop i) ↔ low ≤ n ∧ n ≤ high := by
  constructor
  · rintro ⟨i, ⟨hi, hn⟩, -⟩
    exact h.bounds hi hn
  · rintro ⟨hlow, hhigh⟩
    obtain ⟨i, hi, hn⟩ := h.exists_of_le_stop (k := count - 1) (by omega) hlow
      (by rw [h.last]; exact hhigh)
    refine ⟨i, ⟨hi, hn⟩, ?_⟩
    rintro j ⟨hj, hjn⟩
    exact h.unique hj hi hjn hn

end Tiles

end EspMiner.Library
