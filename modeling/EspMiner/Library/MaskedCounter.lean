import Mathlib.Data.Nat.ModEq
import Mathlib.Logic.Function.Iterate

/-!
# Counters spread over the bits of a mask

The bits of a word that a mask selects, read in order, form a number.
`maskedSucc` adds one to it and leaves the other bits alone: the gaps are filled
with ones, so that a carry crosses them.

`maskedRank mask value n` is the number formed by the selected bits below
position `n`.  A step over a window of the mask advances it by the weight of
the lowest bit of the window.
-/

namespace EspMiner.Library

variable {w : Nat}

/-- The number of bits that `mask` selects below position `n`. -/
def bitsBelow (mask : BitVec w) : Nat → Nat
  | 0 => 0
  | n + 1 => bitsBelow mask n + (mask.getLsbD n).toNat

/-- The number formed by the selected bits of `value` below position `n`. -/
def maskedRank (mask value : BitVec w) : Nat → Nat
  | 0 => 0
  | n + 1 => maskedRank mask value n +
      if mask.getLsbD n && value.getLsbD n then 2 ^ bitsBelow mask n else 0

/-- One step of the counter on the bits of `mask`. -/
def maskedSucc (value mask : BitVec w) : BitVec w :=
  (value &&& ~~~mask) ||| (((value ||| ~~~mask) + 1#w) &&& mask)

/-- Every selected bit below position `n` is set: a step carries into `n`. -/
def FullBelow (mask value : BitVec w) (n : Nat) : Prop :=
  ∀ i < n, mask.getLsbD i = true → value.getLsbD i = true

instance (mask value : BitVec w) (n : Nat) : Decidable (FullBelow mask value n) :=
  inferInstanceAs (Decidable (∀ i < n, mask.getLsbD i = true → value.getLsbD i = true))

/-! ## The bits of one step -/

theorem fullBelow_zero (mask value : BitVec w) : FullBelow mask value 0 := by
  intro i hi
  omega

theorem fullBelow_succ (mask value : BitVec w) (n : Nat) :
    FullBelow mask value (n + 1) ↔
      FullBelow mask value n ∧ (mask.getLsbD n = true → value.getLsbD n = true) := by
  constructor
  · intro h
    exact ⟨fun i hi => h i (by omega), h n (by omega)⟩
  · rintro ⟨hbelow, hbit⟩ i hi
    rcases Nat.lt_succ_iff_lt_or_eq.mp hi with hlt | rfl
    · exact hbelow i hlt
    · exact hbit

/-- The carry of the addition that fills the gaps of the mask. -/
theorem carry_fill (mask value : BitVec w) (hw : 0 < w) {i : Nat} (hi : i ≤ w) :
    BitVec.carry i (value ||| ~~~mask) (1#w) false =
      (decide (0 < i) && decide (FullBelow mask value i)) := by
  cases i with
  | zero => simp
  | succ i =>
    rw [BitVec.carry_succ_one _ _ hw]
    have hiff : (∀ j ≤ i, (value ||| ~~~mask).getLsbD j = true) ↔
        FullBelow mask value (i + 1) := by
      constructor
      · intro h j hj hmask
        simpa [hmask] using h j (by omega)
      · intro h j hj
        have hlt : j < w := by omega
        cases hmask : mask.getLsbD j with
        | false => simp only [BitVec.getLsbD_or, BitVec.getLsbD_not, hmask, hlt, decide_true,
            Bool.not_false, Bool.and_self, Bool.or_true]
        | true => simp only [BitVec.getLsbD_or, h j (by omega) hmask, Bool.true_or]
    simp only [hiff, Nat.zero_lt_succ, decide_true, Bool.true_and]

theorem getLsbD_maskedSucc (value mask : BitVec w) (i : Nat) :
    (maskedSucc value mask).getLsbD i =
      if mask.getLsbD i = true ∧ FullBelow mask value i then !value.getLsbD i
      else value.getLsbD i := by
  by_cases hi : i < w
  · have hone : (1#w).getLsbD i = decide (i = 0) := by
      simp [BitVec.getLsbD_one, show 0 < w by omega]
    have hsum : ((value ||| ~~~mask) + 1#w).getLsbD i =
        ((value ||| ~~~mask).getLsbD i ^^ decide (FullBelow mask value i)) := by
      rw [BitVec.getLsbD_add hi, carry_fill mask value (by omega) (by omega), hone]
      cases i with
      | zero => simp [fullBelow_zero]
      | succ i => simp
    cases hmask : mask.getLsbD i with
    | false =>
      simp only [maskedSucc, BitVec.getLsbD_or, BitVec.getLsbD_and, BitVec.getLsbD_not, hmask, hi,
        decide_true, Bool.not_false, Bool.and_self, Bool.and_true, Bool.and_false, Bool.or_false,
        Bool.false_eq_true, false_and, if_false]
    | true =>
      simp only [maskedSucc, BitVec.getLsbD_or, BitVec.getLsbD_and, BitVec.getLsbD_not, hsum, hmask,
        hi, decide_true, Bool.not_true, Bool.and_false, Bool.or_false, Bool.false_or, Bool.and_true,
        true_and]
      by_cases hfull : FullBelow mask value i <;> simp [hfull]
  · simp [BitVec.getLsbD_of_ge _ _ (Nat.le_of_not_lt hi)]

/-- The bits outside the mask stay. -/
theorem maskedSucc_and_not {value mask outer : BitVec w}
    (hsub : ∀ i, mask.getLsbD i = true → outer.getLsbD i = true) :
    maskedSucc value mask &&& ~~~outer = value &&& ~~~outer := by
  apply BitVec.eq_of_getLsbD_eq
  intro i hi
  rw [BitVec.getLsbD_and, BitVec.getLsbD_and, getLsbD_maskedSucc]
  cases hmask : mask.getLsbD i with
  | false => simp
  | true => simp [hsub i hmask]

/-! ## The rank after one step -/

theorem maskedRank_congr {mask value value' : BitVec w} {n : Nat}
    (h : ∀ i < n, mask.getLsbD i = true → value.getLsbD i = value'.getLsbD i) :
    maskedRank mask value n = maskedRank mask value' n := by
  induction n with
  | zero => rfl
  | succ n ih =>
    rw [maskedRank, maskedRank, ih fun i hi => h i (by omega)]
    cases hmask : mask.getLsbD n with
    | false => simp
    | true => simp [h n (by omega) hmask]

/-- `window` is the part of `mask` at the positions from `lo` on, below `hi`. -/
structure IsWindow (mask window : BitVec w) (lo hi : Nat) : Prop where
  below : ∀ i < lo, window.getLsbD i = false
  inside : ∀ i, lo ≤ i → i < hi → window.getLsbD i = mask.getLsbD i

theorem maskedRank_below_window {mask window : BitVec w} {lo hi : Nat}
    (h : IsWindow mask window lo hi) (value : BitVec w) :
    FullBelow window value lo ∧
      maskedRank mask (maskedSucc value window) lo = maskedRank mask value lo := by
  constructor
  · intro i hi hwindow
    rw [h.below i hi] at hwindow
    cases hwindow
  · apply maskedRank_congr
    intro i hi _
    rw [getLsbD_maskedSucc, h.below i hi]
    simp

/-- Inside the window a step adds the weight of its lowest bit to the rank;
while the carry is still running, its own weight is missing from the sum. -/
theorem maskedRank_step {mask window : BitVec w} {lo hi : Nat} (h : IsWindow mask window lo hi)
    (value : BitVec w) {n : Nat} (hlo : lo ≤ n) (hhi : n ≤ hi) :
    maskedRank mask (maskedSucc value window) n +
        (if FullBelow window value n then 2 ^ bitsBelow mask n else 0) =
      maskedRank mask value n + 2 ^ bitsBelow mask lo := by
  induction n, hlo using Nat.le_induction with
  | base =>
    obtain ⟨hfull, hrank⟩ := maskedRank_below_window h value
    rw [if_pos hfull, hrank]
  | succ n hn ih =>
    have ih := ih (by omega)
    have hwindow : window.getLsbD n = mask.getLsbD n := h.inside n hn (by omega)
    have hbit := getLsbD_maskedSucc value window n
    have hfull := fullBelow_succ window value n
    rw [maskedRank, maskedRank, bitsBelow]
    rw [hwindow] at hbit hfull
    cases hmask : mask.getLsbD n with
    | false =>
      simp only [hmask, Bool.false_eq_true, false_implies, and_true] at hfull
      simpa [hmask, hfull] using ih
    | true =>
      by_cases hcarry : FullBelow window value n
      · -- the carry arrives: it turns the bit over and moves on if the bit was set
        rw [if_pos hcarry] at ih
        cases hvalue : value.getLsbD n with
        | false =>
          have hstops : ¬ FullBelow window value (n + 1) := by simp [hfull, hmask, hvalue]
          simp only [hbit, hmask, hcarry, hvalue, hstops, and_self, if_true, Bool.not_false,
            Bool.and_true, Bool.and_false, Bool.false_eq_true, if_false]
          omega
        | true =>
          have hmoves : FullBelow window value (n + 1) := by simp [hfull, hcarry, hvalue]
          simp only [hbit, hmask, hcarry, hvalue, hmoves, and_self, if_true, Bool.not_true,
            Bool.and_true, Bool.and_false, Bool.false_eq_true, if_false, Bool.toNat_true,
            Nat.pow_succ]
          omega
      · have hstops : ¬ FullBelow window value (n + 1) := by simp [hfull, hcarry]
        rw [if_neg hcarry] at ih
        simp only [hbit, hcarry, hstops, and_false, if_false]
        omega

/-- A step over a window adds the weight of its lowest bit, modulo the weight of
the first bit above it. -/
theorem maskedRank_maskedSucc {mask window : BitVec w} {lo hi : Nat}
    (h : IsWindow mask window lo hi) (hlohi : lo ≤ hi) (value : BitVec w) :
    maskedRank mask (maskedSucc value window) hi ≡
      maskedRank mask value hi + 2 ^ bitsBelow mask lo [MOD 2 ^ bitsBelow mask hi] := by
  have hstep := maskedRank_step h value hlohi (Nat.le_refl hi)
  rw [← hstep]
  split
  · exact (Nat.add_mod_right _ _).symm
  · exact rfl

/-- Several steps over a window. -/
theorem maskedRank_iterate {mask window : BitVec w} {lo hi : Nat}
    (h : IsWindow mask window lo hi) (hlohi : lo ≤ hi) (value : BitVec w) (n : Nat) :
    maskedRank mask ((fun value => maskedSucc value window)^[n] value) hi ≡
      maskedRank mask value hi + n * 2 ^ bitsBelow mask lo [MOD 2 ^ bitsBelow mask hi] := by
  induction n with
  | zero => simp [Nat.ModEq]
  | succ n ih =>
    rw [Function.iterate_succ_apply']
    refine (maskedRank_maskedSucc h hlohi _).trans ?_
    rw [Nat.add_mul, Nat.one_mul, ← Nat.add_assoc]
    exact ih.add_right _

theorem iterate_maskedSucc_and_not {mask outer : BitVec w}
    (hsub : ∀ i, mask.getLsbD i = true → outer.getLsbD i = true) (value : BitVec w) (n : Nat) :
    ((fun value => maskedSucc value mask)^[n] value) &&& ~~~outer = value &&& ~~~outer := by
  induction n with
  | zero => rfl
  | succ n ih => rw [Function.iterate_succ_apply', maskedSucc_and_not hsub, ih]

/-- The population count of a word is the count over all of its positions. -/
theorem toNat_cpop_eq_bitsBelow (mask : BitVec w) : mask.cpop.toNat = bitsBelow mask w := by
  have hrec : ∀ n, mask.cpopNatRec n 0 = bitsBelow mask n := by
    intro n
    induction n with
    | zero => rfl
    | succ n ih =>
      rw [BitVec.cpopNatRec_succ, BitVec.cpopNatRec_eq, ih, bitsBelow]
      omega
  rw [BitVec.toNat_cpop, hrec]

/-- The bits of a window are those of the mask between its two ends. -/
theorem bitsBelow_window {mask window : BitVec w} {lo hi : Nat} (h : IsWindow mask window lo hi)
    (habove : ∀ i, hi ≤ i → window.getLsbD i = false) (hlohi : lo ≤ hi) (hhi : hi ≤ w) :
    bitsBelow mask lo + window.cpop.toNat = bitsBelow mask hi := by
  have hbelow : ∀ n ≤ lo, bitsBelow window n = 0 := by
    intro n hn
    induction n with
    | zero => rfl
    | succ n ih => simp [bitsBelow, ih (by omega), h.below n (by omega)]
  have hinside : ∀ n, lo ≤ n → n ≤ hi →
      bitsBelow mask lo + bitsBelow window n = bitsBelow mask n := by
    intro n hlo
    induction n, hlo using Nat.le_induction with
    | base =>
      intro _
      rw [hbelow lo (Nat.le_refl _), Nat.add_zero]
    | succ n hn ih =>
      intro hle
      rw [bitsBelow, bitsBelow, ← ih (by omega), h.inside n hn (by omega), Nat.add_assoc]
  have habove : ∀ n, hi ≤ n → bitsBelow window n = bitsBelow window hi := by
    intro n hn
    induction n, hn using Nat.le_induction with
    | base => rfl
    | succ n hn ih => simp [bitsBelow, ih, habove n hn]
  rw [toNat_cpop_eq_bitsBelow, habove w hhi, hinside hi hlohi (Nat.le_refl _)]

end EspMiner.Library
