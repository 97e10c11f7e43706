import Mathlib.Data.Nat.Notation

/-!
# Iterating a partial function

`iterates next start` are the values that `next` gives from `start` on, until it gives
none.  A function that brings every value closer to a goal, and gives none there only,
reaches it.
-/

namespace EspMiner.Library

variable {α : Type*} {next : α → Option α} {start goal : α}

/-- The value after so many steps. -/
def iterates (next : α → Option α) (start : α) : ℕ → Option α
  | 0 => some start
  | k + 1 => (iterates next start k).bind next

/-- The goal is reached in `n` steps, not before, and there the iteration ends; every
step is related by `step`. -/
structure Reaches (next : α → Option α) (step : α → α → Prop) (start goal : α) (n : ℕ) :
    Prop where
  reached : iterates next start n = some goal
  ends : iterates next start (n + 1) = none
  steps : ∀ k < n, ∃ a b, iterates next start k = some a ∧ iterates next start (k + 1) = some b ∧
    a ≠ goal ∧ step a b

theorem iterates_succ_of_next {b : α} (h : next start = some b) (k : ℕ) :
    iterates next start (k + 1) = iterates next b k := by
  induction k with
  | zero => exact h
  | succ k ih => rw [iterates, ih, iterates]

/-- Every value is the goal, where `next` gives none, or `next` gives one that is closer. -/
theorem exists_reaches {step : α → α → Prop} (P : α → Prop) (distance : α → ℕ)
    (hgoal : next goal = none)
    (hstep : ∀ a, P a → a ≠ goal →
      ∃ b, next a = some b ∧ P b ∧ step a b ∧ distance b < distance a)
    (hstart : P start) : ∃ n, Reaches next step start goal n := by
  induction hd : distance start using Nat.strongRecOn generalizing start with
  | ind d ih =>
    by_cases hdone : start = goal
    · refine ⟨0, hdone ▸ rfl, ?_, fun k hk => absurd hk (Nat.not_lt_zero k)⟩
      rw [hdone]
      exact hgoal
    obtain ⟨b, hnext, hb, hrel, hcloser⟩ := hstep start hstart hdone
    obtain ⟨n, hreaches⟩ := ih (distance b) (hd ▸ hcloser) hb rfl
    refine ⟨n + 1, ?_, ?_, ?_⟩
    · rw [iterates_succ_of_next hnext, hreaches.reached]
    · rw [iterates_succ_of_next hnext, hreaches.ends]
    · intro k hk
      cases k with
      | zero => exact ⟨start, b, rfl, hnext, hdone, hrel⟩
      | succ k =>
        obtain ⟨a, c, ha, hc, hne, hrel'⟩ := hreaches.steps k (Nat.lt_of_succ_lt_succ hk)
        exact ⟨a, c, by rw [iterates_succ_of_next hnext, ha],
          by rw [iterates_succ_of_next hnext, hc], hne, hrel'⟩

/-! ## Loops -/

/-- The value at which the iteration ends, in so many steps at most. -/
def settle (next : α → Option α) : ℕ → α → α
  | 0, a => a
  | fuel + 1, a =>
      match next a with
      | none => a
      | some b => settle next fuel b

theorem iterates_invariant (P : α → Prop) (hstep : ∀ a b, P a → next a = some b → P b)
    (hstart : P start) {k : ℕ} {a : α} (ha : iterates next start k = some a) : P a := by
  induction k generalizing a with
  | zero => exact Option.some.inj ha ▸ hstart
  | succ k ih =>
    rw [iterates, Option.bind_eq_some_iff] at ha
    obtain ⟨b, hb, hnext⟩ := ha
    exact hstep b a (ih hb) hnext

/-- A loop whose steps come down a distance ends within it, where its invariant holds. -/
theorem settle_spec (P : α → Prop) (distance : α → ℕ)
    (hstep : ∀ a b, P a → next a = some b → P b ∧ distance b < distance a)
    (hstart : P start) {fuel : ℕ} (hfuel : distance start ≤ fuel) :
    P (settle next fuel start) ∧ next (settle next fuel start) = none := by
  induction fuel generalizing start with
  | zero =>
    refine ⟨hstart, ?_⟩
    cases hnext : next start with
    | none => exact hnext
    | some b =>
      have hcloser := (hstep start b hstart hnext).2
      omega
  | succ fuel ih =>
    rw [settle]
    cases hnext : next start with
    | none => exact ⟨hstart, hnext⟩
    | some b =>
      obtain ⟨hb, hcloser⟩ := hstep start b hstart hnext
      exact ih hb (by omega)

/-- The loop ends at a value of the iteration. -/
theorem exists_iterates_settle (next : α → Option α) (fuel : ℕ) (start : α) :
    ∃ k, iterates next start k = some (settle next fuel start) := by
  induction fuel generalizing start with
  | zero => exact ⟨0, rfl⟩
  | succ fuel ih =>
    rw [settle]
    cases hnext : next start with
    | none => exact ⟨0, rfl⟩
    | some b =>
      obtain ⟨k, hk⟩ := ih b
      exact ⟨k + 1, by rw [iterates_succ_of_next hnext, hk]⟩

end EspMiner.Library
