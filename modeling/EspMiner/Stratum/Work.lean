import EspMiner.Asic.Job
import EspMiner.Library.NonzeroCounter

/-!
# Work generations

`main/tasks/stratum_work.c`: the generation that every clean job and every
invalidation moves on.  Zero is skipped, so fewer than `2 ^ 64 - 1` moves never
come back to an earlier generation.
-/

namespace EspMiner

open Library

/-- `if (++generation == 0) ++generation` -/
def nextWorkGeneration (generation : U64) : U64 :=
  if generation + 1#64 = 0#64 then generation + 1#64 + 1#64 else generation + 1#64

theorem nextWorkGeneration_counter (counter : NonzeroCounter 64) :
    nextWorkGeneration counter.val = counter.next.val := by
  unfold nextWorkGeneration NonzeroCounter.next
  split
  · next hwrap =>
    rw [hwrap]
    rfl
  · rfl

theorem nextWorkGeneration_iterate (counter : NonzeroCounter 64) (n : Nat) :
    nextWorkGeneration^[n] counter.val = (NonzeroCounter.next^[n] counter).val := by
  induction n generalizing counter with
  | zero => rfl
  | succ n ih =>
    rw [Function.iterate_succ_apply, Function.iterate_succ_apply, nextWorkGeneration_counter, ih]

/-- Moves from a nonzero generation. -/
theorem nextWorkGeneration_counter_inj (counter : NonzeroCounter 64) {m n : Nat}
    (hm : m < 2 ^ 64 - 1) (hn : n < 2 ^ 64 - 1)
    (h : nextWorkGeneration^[m] counter.val = nextWorkGeneration^[n] counter.val) : m = n := by
  rw [nextWorkGeneration_iterate, nextWorkGeneration_iterate] at h
  have hordinal := congrArg NonzeroCounter.ordinal (NonzeroCounter.ext h)
  rw [NonzeroCounter.ordinal_iterate_next, NonzeroCounter.ordinal_iterate_next] at hordinal
  have hlt := counter.ordinal_lt
  rcases Nat.lt_or_ge (counter.ordinal + m) (2 ^ 64 - 1) with hcm | hcm <;>
    rcases Nat.lt_or_ge (counter.ordinal + n) (2 ^ 64 - 1) with hcn | hcn
  · rw [Nat.mod_eq_of_lt hcm, Nat.mod_eq_of_lt hcn] at hordinal
    omega
  · rw [Nat.mod_eq_of_lt hcm, Nat.mod_eq_sub_mod hcn, Nat.mod_eq_of_lt (by omega)] at hordinal
    omega
  · rw [Nat.mod_eq_of_lt hcn, Nat.mod_eq_sub_mod hcm, Nat.mod_eq_of_lt (by omega)] at hordinal
    omega
  · rw [Nat.mod_eq_sub_mod hcm, Nat.mod_eq_sub_mod hcn, Nat.mod_eq_of_lt (by omega),
      Nat.mod_eq_of_lt (by omega)] at hordinal
    omega

theorem nextWorkGeneration_ne_zero (generation : U64) : nextWorkGeneration generation ≠ 0 := by
  unfold nextWorkGeneration
  split
  · next hwrap =>
    rw [hwrap]
    decide
  · assumption

/-- **Generations are not reused.**  The board starts at generation zero, which
never comes back. -/
theorem nextWorkGeneration_iterate_inj {generation : U64} {m n : Nat} (hm : m < 2 ^ 64 - 1)
    (hn : n < 2 ^ 64 - 1)
    (h : nextWorkGeneration^[m] generation = nextWorkGeneration^[n] generation) : m = n := by
  by_cases hzero : generation = 0
  · subst hzero
    have hfirst : nextWorkGeneration 0 = (NonzeroCounter.one : NonzeroCounter 64).val := by decide
    cases m with
    | zero =>
      cases n with
      | zero => rfl
      | succ n =>
        rw [Function.iterate_succ_apply'] at h
        exact absurd h.symm (nextWorkGeneration_ne_zero _)
    | succ m =>
      cases n with
      | zero =>
        rw [Function.iterate_succ_apply'] at h
        exact absurd h (nextWorkGeneration_ne_zero _)
      | succ n =>
        rw [Function.iterate_succ_apply, Function.iterate_succ_apply, hfirst] at h
        exact congrArg Nat.succ (nextWorkGeneration_counter_inj _ (by omega) (by omega) h)
  · exact nextWorkGeneration_counter_inj ⟨generation, hzero⟩ hm hn h

end EspMiner
