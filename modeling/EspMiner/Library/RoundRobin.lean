import Mathlib.Data.Nat.ModEq

/-!
# Turns of a round robin

`n` members take turns in a fixed order, starting with member zero.  After
`turns` turns the history of turns, newest first, has turn `turns - 1 - i` at
index `i`.  `age` is the index of a member's latest turn in it, should it have
had one, and `count` the number of turns it had.
-/

namespace EspMiner.Library.RoundRobin

/-- The index, newest first, of the latest turn of member `k`. -/
def age (n turns k : Nat) : Nat :=
  if k < turns % n then turns % n - 1 - k else turns % n + n - 1 - k

/-- The number of turns that member `k` had. -/
def count (n turns k : Nat) : Nat :=
  if k < turns % n then turns / n + 1 else turns / n

variable {n turns k i : Nat}

/-- One more turn moves on to the next member, or starts the next round. -/
theorem succ_cases (hn : 0 < n) (turns : Nat) :
    (turns % n + 1 < n ∧ (turns + 1) % n = turns % n + 1 ∧ (turns + 1) / n = turns / n) ∨
      (turns % n + 1 = n ∧ (turns + 1) % n = 0 ∧ (turns + 1) / n = turns / n + 1) := by
  have hlt := Nat.mod_lt turns hn
  have hdiv := Nat.div_add_mod turns n
  rcases Nat.lt_or_ge (turns % n + 1) n with h | h
  · refine .inl ⟨h, ?_, ?_⟩
    · rw [← hdiv, Nat.add_assoc, Nat.mul_add_mod, Nat.mul_add_mod, Nat.mod_mod,
        Nat.mod_eq_of_lt h]
    · rw [← hdiv, Nat.add_assoc, Nat.mul_add_div hn, Nat.mul_add_div hn, Nat.div_eq_of_lt h,
        Nat.div_eq_of_lt (Nat.mod_lt _ hn)]
  · have hround : turns + 1 = n * (turns / n + 1) := by
      rw [Nat.mul_add, Nat.mul_one]
      omega
    refine .inr ⟨by omega, ?_, ?_⟩
    · rw [hround, Nat.mul_mod_right]
    · rw [hround, Nat.mul_div_cancel_left _ hn]

theorem age_lt (hk : k < n) (turns : Nat) : age n turns k < n := by
  have hlt := Nat.mod_lt turns (Nat.zero_lt_of_lt hk)
  unfold age
  split <;> omega

theorem age_turn (hn : 0 < n) (turns : Nat) : age n turns (turns % n) = n - 1 := by
  have hlt := Nat.mod_lt turns hn
  rw [age, if_neg (Nat.lt_irrefl _)]
  omega

theorem age_succ_turn (hn : 0 < n) (turns : Nat) : age n (turns + 1) (turns % n) = 0 := by
  have hlt := Nat.mod_lt turns hn
  rcases succ_cases hn turns with ⟨h, hmod, -⟩ | ⟨h, hmod, -⟩
  · rw [age, hmod, if_pos (Nat.lt_succ_self _)]
    omega
  · rw [age, hmod, if_neg (Nat.not_lt_zero _)]
    omega

theorem age_succ (hk : k < n) (hne : k ≠ turns % n) : age n (turns + 1) k = age n turns k + 1 := by
  have hn := Nat.zero_lt_of_lt hk
  have hlt := Nat.mod_lt turns hn
  rcases succ_cases hn turns with ⟨h, hmod, -⟩ | ⟨h, hmod, -⟩
  · unfold age
    rw [hmod]
    split <;> split <;> omega
  · unfold age
    rw [hmod, if_neg (Nat.not_lt_zero _), if_pos (by omega)]
    omega

theorem count_turn (n turns : Nat) : count n turns (turns % n) = turns / n :=
  if_neg (Nat.lt_irrefl _)

theorem count_succ_turn (hn : 0 < n) (turns : Nat) :
    count n (turns + 1) (turns % n) = turns / n + 1 := by
  rcases succ_cases hn turns with ⟨h, hmod, hdiv⟩ | ⟨h, hmod, hdiv⟩
  · rw [count, hmod, hdiv, if_pos (Nat.lt_succ_self _)]
  · rw [count, hmod, hdiv, if_neg (Nat.not_lt_zero _)]

theorem count_succ (hk : k < n) (hne : k ≠ turns % n) :
    count n (turns + 1) k = count n turns k := by
  have hn := Nat.zero_lt_of_lt hk
  have hlt := Nat.mod_lt turns hn
  rcases succ_cases hn turns with ⟨h, hmod, hdiv⟩ | ⟨h, hmod, hdiv⟩
  · unfold count
    rw [hmod, hdiv]
    split <;> split <;> omega
  · unfold count
    rw [hmod, hdiv, if_neg (Nat.not_lt_zero _), if_pos (by omega)]

/-- The turn at index `i` of the history is member `k`'s exactly when `i` is a
whole number of rounds older than its latest turn. -/
theorem turn_mod_eq_iff (hk : k < n) (hi : i < turns) :
    (turns - 1 - i) % n = k ↔ i % n = age n turns k := by
  have hn := Nat.zero_lt_of_lt hk
  have hb := Nat.mod_lt i hn
  have hc := Nat.mod_lt turns hn
  have hdivI := Nat.div_add_mod i n
  have hdivT := Nat.div_add_mod turns n
  rcases Nat.lt_or_ge (i % n) (turns % n) with h | h
  · -- no round boundary between the offsets
    have hq : i / n ≤ turns / n := Nat.div_le_div_right hi.le
    have hturn : turns - 1 - i = n * (turns / n - i / n) + (turns % n - 1 - i % n) := by
      have := Nat.mul_le_mul_left n hq
      rw [Nat.mul_sub]
      omega
    rw [hturn, Nat.mul_add_mod, Nat.mod_eq_of_lt (by omega)]
    unfold age
    split <;> omega
  · have hq : i / n + 1 ≤ turns / n := by
      by_contra hlt
      have := Nat.mul_le_mul_left n (show turns / n ≤ i / n by omega)
      omega
    have hturn : turns - 1 - i = n * (turns / n - (i / n + 1)) + (turns % n + n - 1 - i % n) := by
      have := Nat.mul_le_mul_left n hq
      rw [Nat.mul_sub]
      rw [Nat.mul_add, Nat.mul_one] at this ⊢
      omega
    rw [hturn, Nat.mul_add_mod, Nat.mod_eq_of_lt (by omega)]
    unfold age
    split <;> omega

/-- Two turns of one member in one round are the same turn. -/
theorem turn_inj {s t : Nat} (hmember : s % n = t % n) (hround : s / n = t / n) : s = t := by
  rw [← Nat.div_add_mod s n, ← Nat.div_add_mod t n, hmember, hround]

end EspMiner.Library.RoundRobin
