import EspMiner.Asic.Pll
import Mathlib.Algebra.Order.Field.Basic
import Mathlib.Data.Finset.Max
import Mathlib.Tactic.FieldSimp
import Mathlib.Tactic.Linarith
import Mathlib.Tactic.NormNum
import Mathlib.Tactic.Ring

/-!
# Which PLL parameters are selected

Two frequencies on the two sides of the target can be equally close within EPSILON without
being equally close.  The search then goes from the closer to the other one only for a lower
VCO frequency, and back whatever the VCO frequencies are.  The parameters it ends at are the
lowest for their frequency exactly when the order of the turns keeps them.
-/

namespace EspMiner.Pll

open Library

/-! ## Candidates -/

section Candidates

variable {targetFreq : ℚ} {fbDividerMin fbDividerMax : Nat} {p q : Parameters}

/-- The candidates in the order of the turns -/
def candidates (targetFreq : ℚ) (fbDividerMin fbDividerMax : Nat) : List Parameters :=
  (turns targetFreq).filter fun p => decide (Admitted fbDividerMin fbDividerMax p)

theorem mem_turns :
    p ∈ turns targetFreq ↔ (1 ≤ p.refdiv ∧ p.refdiv ≤ 2) ∧ (1 ≤ p.postdiv1 ∧ p.postdiv1 ≤ 7) ∧
      (1 ≤ p.postdiv2 ∧ p.postdiv2 ≤ 7) ∧ p.fbDivider = fbDivider targetFreq p.divider := by
  have htwo (n : Nat) : n ∈ [2, 1] ↔ 1 ≤ n ∧ n ≤ 2 := by
    simp only [List.mem_cons, List.not_mem_nil, or_false]
    omega
  have hseven (n : Nat) : n ∈ [7, 6, 5, 4, 3, 2, 1] ↔ 1 ≤ n ∧ n ≤ 7 := by
    simp only [List.mem_cons, List.not_mem_nil, or_false]
    omega
  simp only [turns, List.mem_flatMap, List.mem_map]
  constructor
  · rintro ⟨refdiv, hrefdiv, postdiv1, hpostdiv1, postdiv2, hpostdiv2, rfl⟩
    exact ⟨(htwo _).mp hrefdiv, (hseven _).mp hpostdiv1, (hseven _).mp hpostdiv2, rfl⟩
  · rintro ⟨hrefdiv, hpostdiv1, hpostdiv2, hfb⟩
    refine ⟨p.refdiv, (htwo _).mpr hrefdiv, p.postdiv1, (hseven _).mpr hpostdiv1, p.postdiv2,
      (hseven _).mpr hpostdiv2, ?_⟩
    rw [Parameters.divider] at hfb
    rw [← hfb]

theorem roundAway_le {x : ℚ} {n : ℕ} (h : x ≤ n) : roundAway x ≤ n := by
  rw [roundAway]
  split
  case isTrue =>
    have hlt : x + 1 / 2 < ((n : ℤ) + 1 : ℤ) := by
      push_cast
      linarith
    exact Int.lt_add_one_iff.mp (Int.floor_lt.mpr hlt)
  case isFalse hneg =>
    have hfloor : 0 ≤ ⌊-x + 1 / 2⌋ := Int.floor_nonneg.mpr (by linarith)
    omega

theorem divider_le (hrefdiv : p.refdiv ≤ 2) (hpostdiv1 : p.postdiv1 ≤ 7)
    (hpostdiv2 : p.postdiv2 < p.postdiv1) : p.divider ≤ 84 := by
  have h12 : p.refdiv * p.postdiv1 ≤ 2 * 7 := Nat.mul_le_mul hrefdiv hpostdiv1
  have hlast : p.postdiv2 ≤ 6 := by omega
  calc p.divider ≤ 2 * 7 * 6 := Nat.mul_le_mul h12 hlast
    _ = 84 := rfl

/-- The candidates are the turns that are admitted. -/
theorem mem_candidates_iff (htarget : targetFreq < 1000) (hmin : 1 ≤ fbDividerMin) :
    p ∈ candidates targetFreq fbDividerMin fbDividerMax ↔
      IsCandidate targetFreq fbDividerMin fbDividerMax p := by
  have hround (hdivider : p.divider ≤ 84) :
      roundAway (targetFreq / FREQ_MULT * p.divider) ≤ 3360 := by
    refine @roundAway_le _ 3360 ?_
    have hratio : targetFreq / FREQ_MULT ≤ 40 := by
      rw [FREQ_MULT, div_le_iff₀ (by norm_num)]
      linarith
    have hcast : (p.divider : ℚ) ≤ 84 := by exact_mod_cast hdivider
    calc targetFreq / FREQ_MULT * p.divider ≤ 40 * p.divider :=
          mul_le_mul_of_nonneg_right hratio (Nat.cast_nonneg _)
      _ ≤ (3360 : ℕ) := by
          push_cast
          linarith
  rw [candidates, List.mem_filter, mem_turns, decide_eq_true_eq, Admitted, IsCandidate]
  constructor
  · rintro ⟨⟨hrefdiv, hpostdiv1, hpostdiv2, hfb⟩, horder, hlo, hhi⟩
    have hle := hround (divider_le hrefdiv.2 hpostdiv1.2 horder)
    refine ⟨hrefdiv.1, hrefdiv.2, hpostdiv2.1, horder, hpostdiv1.2, ?_, hlo, hhi⟩
    rw [fbDivider] at hfb
    omega
  · rintro ⟨hr1, hr2, hp2, horder, hp1, hfb, hlo, hhi⟩
    have hle := hround (divider_le hr2 hp1 horder)
    refine ⟨⟨⟨hr1, hr2⟩, ⟨by omega, hp1⟩, ⟨hp2, by omega⟩, ?_⟩, horder, hlo, hhi⟩
    rw [fbDivider]
    omega

end Candidates

/-! ## Distances between frequencies -/

section Spacing

variable {targetFreq : ℚ} {fbDividerMin fbDividerMax : Nat} {p q r : Parameters}

/-- The smallest distance between two frequencies -/
def SPACING : ℚ := 25 / 7056

theorem IsCandidate.divider_pos (h : IsCandidate targetFreq fbDividerMin fbDividerMax p) :
    0 < p.divider :=
  Nat.mul_pos (Nat.mul_pos h.1 (by have := h.2.2; omega)) h.2.2.1

theorem IsCandidate.divider_le (h : IsCandidate targetFreq fbDividerMin fbDividerMax p) :
    p.divider ≤ 84 :=
  Pll.divider_le h.2.1 h.2.2.2.2.1 h.2.2.2.1

/-- Two frequencies that are closer than the spacing are equal. -/
theorem freq_eq_of_close (hp : IsCandidate targetFreq fbDividerMin fbDividerMax p)
    (hq : IsCandidate targetFreq fbDividerMin fbDividerMax q)
    (hclose : |p.freq - q.freq| < SPACING) : p.freq = q.freq := by
  have hp0 : (0 : ℚ) < p.divider := by exact_mod_cast hp.divider_pos
  have hq0 : (0 : ℚ) < q.divider := by exact_mod_cast hq.divider_pos
  have hp84 : (p.divider : ℚ) ≤ 84 := by exact_mod_cast hp.divider_le
  have hq84 : (q.divider : ℚ) ≤ 84 := by exact_mod_cast hq.divider_le
  obtain ⟨n, hn⟩ : ∃ n : ℤ, n = (p.fbDivider * q.divider : ℤ) - q.fbDivider * p.divider := ⟨_, rfl⟩
  have hdiff : p.freq - q.freq = 25 * n / (p.divider * q.divider) := by
    rw [Parameters.freq, Parameters.freq, FREQ_MULT, hn]
    push_cast
    field_simp
  by_cases hzero : n = 0
  · rw [hzero, Int.cast_zero, mul_zero, zero_div] at hdiff
    linarith
  · have hone : (1 : ℚ) ≤ |(n : ℚ)| := by
      rw [← Int.cast_abs]
      exact_mod_cast Int.one_le_abs hzero
    have hpos : (0 : ℚ) < p.divider * q.divider := mul_pos hp0 hq0
    have hprod : (p.divider * q.divider : ℚ) ≤ 7056 := by
      calc (p.divider * q.divider : ℚ) ≤ 84 * 84 := mul_le_mul hp84 hq84 hq0.le (by norm_num)
        _ = 7056 := by norm_num
    rw [hdiff, abs_div, abs_mul, abs_of_pos hpos, div_lt_iff₀ hpos, SPACING,
      abs_of_pos (show (0 : ℚ) < 25 by norm_num)] at hclose
    linarith

/-- On one side of the target, frequencies that are equally far are equal. -/
theorem freq_eq_of_side (hp : IsCandidate targetFreq fbDividerMin fbDividerMax p)
    (hq : IsCandidate targetFreq fbDividerMin fbDividerMax q)
    (hside : targetFreq ≤ p.freq ↔ targetFreq ≤ q.freq)
    (hclose : |p.diff targetFreq - q.diff targetFreq| < SPACING) : p.freq = q.freq := by
  refine freq_eq_of_close hp hq ?_
  rw [Parameters.diff, Parameters.diff] at hclose
  by_cases habove : targetFreq ≤ p.freq
  · rw [abs_of_nonpos (sub_nonpos.mpr habove), abs_of_nonpos (sub_nonpos.mpr (hside.mp habove)),
      show -(targetFreq - p.freq) - -(targetFreq - q.freq) = p.freq - q.freq by ring] at hclose
    exact hclose
  · have hbelow := not_le.mp habove
    have hbelow' := not_le.mp fun h => habove (hside.mpr h)
    rw [abs_of_pos (sub_pos.mpr hbelow), abs_of_pos (sub_pos.mpr hbelow'),
      show targetFreq - p.freq - (targetFreq - q.freq) = -(p.freq - q.freq) by ring,
      abs_neg] at hclose
    exact hclose

/-- Of three candidates that are about equally far from the target, two have one frequency. -/
theorem two_freqs (hp : IsCandidate targetFreq fbDividerMin fbDividerMax p)
    (hq : IsCandidate targetFreq fbDividerMin fbDividerMax q)
    (hr : IsCandidate targetFreq fbDividerMin fbDividerMax r)
    (hpq : |p.diff targetFreq - q.diff targetFreq| < SPACING)
    (hqr : |q.diff targetFreq - r.diff targetFreq| < SPACING)
    (hpr : |p.diff targetFreq - r.diff targetFreq| < SPACING) :
    p.freq = q.freq ∨ q.freq = r.freq ∨ p.freq = r.freq := by
  by_cases hfirst : targetFreq ≤ p.freq ↔ targetFreq ≤ q.freq
  · exact .inl (freq_eq_of_side hp hq hfirst hpq)
  · by_cases hsecond : targetFreq ≤ q.freq ↔ targetFreq ≤ r.freq
    · exact .inr (.inl (freq_eq_of_side hq hr hsecond hqr))
    · have hthird : targetFreq ≤ p.freq ↔ targetFreq ≤ r.freq := by
        rw [not_iff] at hfirst hsecond
        rw [← hsecond, ← hfirst, not_not]
      exact .inr (.inr (freq_eq_of_side hp hr hthird hpr))

theorem diff_eq_of_freq (h : p.freq = q.freq) : p.diff targetFreq = q.diff targetFreq := by
  rw [Parameters.diff, Parameters.diff, h]

/-- VCO frequencies that are equal within EPSILON are equal. -/
theorem vcoFreq_eq_of_close (hp : IsCandidate targetFreq fbDividerMin fbDividerMax p)
    (hq : IsCandidate targetFreq fbDividerMin fbDividerMax q)
    (hclose : |p.vcoFreq - q.vcoFreq| < EPSILON) : p.vcoFreq = q.vcoFreq := by
  have hhalf {p : Parameters} (h : IsCandidate targetFreq fbDividerMin fbDividerMax p) :
      ∃ n : ℤ, p.vcoFreq = 25 / 2 * n := by
    have hrefdiv : p.refdiv = 1 ∨ p.refdiv = 2 := by
      have h1 := h.1
      have h2 := h.2.1
      omega
    rcases hrefdiv with h1 | h2
    · refine ⟨2 * p.fbDivider, ?_⟩
      rw [Parameters.vcoFreq, h1, FREQ_MULT]
      push_cast
      ring
    · refine ⟨p.fbDivider, ?_⟩
      rw [Parameters.vcoFreq, h2, FREQ_MULT]
      push_cast
      ring
  obtain ⟨m, hm⟩ := hhalf hp
  obtain ⟨n, hn⟩ := hhalf hq
  by_cases heq : m = n
  · rw [hm, hn, heq]
  · have hone : (1 : ℚ) ≤ |((m - n : ℤ) : ℚ)| := by
      rw [← Int.cast_abs]
      exact_mod_cast Int.one_le_abs (sub_ne_zero.mpr heq)
    rw [hm, hn, ← mul_sub, ← Int.cast_sub, abs_mul,
      abs_of_pos (show (0 : ℚ) < 25 / 2 by norm_num), EPSILON] at hclose
    linarith

end Spacing

/-! ## The search over the candidates -/

/-- The search replaces `p` by `q`. -/
def Replaces (targetFreq : ℚ) (p q : Parameters) : Prop :=
  q.diff targetFreq < p.diff targetFreq ∨
    |q.diff targetFreq - p.diff targetFreq| < EPSILON ∧ q.vcoFreq < p.vcoFreq ∨
    |q.diff targetFreq - p.diff targetFreq| < EPSILON ∧ |q.vcoFreq - p.vcoFreq| < EPSILON ∧
      q.postdiv < p.postdiv

instance (targetFreq : ℚ) (p q : Parameters) : Decidable (Replaces targetFreq p q) :=
  inferInstanceAs (Decidable (_ ∨ _))

/-- The search over admitted parameters -/
def select (targetFreq : ℚ) (kept : Option Parameters) (q : Parameters) : Option Parameters :=
  match kept with
  | none => some q
  | some p => if Replaces targetFreq p q then some q else some p

/-- The variables of a search that has come to `kept` -/
def stateOf (targetFreq : ℚ) (kept : Option Parameters) : Search :=
  match kept with
  | none => Search.start
  | some p => ⟨p, p.freq, p.diff targetFreq, p.vcoFreq, p.postdiv⟩

section Search

variable {targetFreq : ℚ} {fbDividerMin fbDividerMax : Nat} {p q : Parameters}
  (htarget : targetFreq < 1000) (hmin : 1 ≤ fbDividerMin)
  (hmax : fbDividerMax ≤ 255)

include htarget hmin hmax

theorem IsCandidate.diff_lt (h : IsCandidate targetFreq fbDividerMin fbDividerMax p) :
    p.diff targetFreq < FLT_MAX := by
  have hfb : (p.fbDivider : ℚ) ≤ 255 := by
    have hle : p.fbDivider ≤ 255 := h.2.2.2.2.2.2.2.trans hmax
    exact_mod_cast hle
  have hdivider : (1 : ℚ) ≤ p.divider := by
    have hpos := h.divider_pos
    exact_mod_cast hpos
  have hpositive : 0 < targetFreq := by
    by_contra hneg
    have hle : targetFreq / FREQ_MULT * p.divider ≤ (0 : ℕ) := by
      rw [FREQ_MULT, Nat.cast_zero]
      exact mul_nonpos_of_nonpos_of_nonneg
        (div_nonpos_of_nonpos_of_nonneg (not_lt.mp hneg) (by norm_num)) (by linarith)
    have hround := roundAway_le hle
    rw [← h.2.2.2.2.2.1] at hround
    have hlo := h.2.2.2.2.2.2.1
    omega
  have hfreq : 0 ≤ p.freq := by
    rw [Parameters.freq, FREQ_MULT]
    exact div_nonneg (mul_nonneg (by norm_num) (Nat.cast_nonneg _)) (by linarith)
  have hbound : p.freq ≤ 25 * 255 := by
    rw [Parameters.freq, FREQ_MULT, div_le_iff₀ (by linarith)]
    calc 25 * (p.fbDivider : ℚ) ≤ 25 * 255 * 1 := by linarith
      _ ≤ 25 * 255 * p.divider := mul_le_mul_of_nonneg_left hdivider (by norm_num)
  rw [Parameters.diff, FLT_MAX, abs_lt]
  norm_num
  constructor
  · linarith
  · linarith

theorem consider_stateOf (kept : Option Parameters) (hq : q ∈ turns targetFreq) :
    consider targetFreq fbDividerMin fbDividerMax (stateOf targetFreq kept) q =
      stateOf targetFreq
        (if Admitted fbDividerMin fbDividerMax q then select targetFreq kept q else kept) := by
  rw [consider]
  by_cases hadmitted : Admitted fbDividerMin fbDividerMax q
  · have hcandidate := (mem_candidates_iff htarget hmin).mp
      (List.mem_filter.mpr ⟨hq, decide_eq_true hadmitted⟩)
    have hbyte : q.fbDivider % 2 ^ 8 = q.fbDivider := by
      have hle := hadmitted.2.2
      omega
    rw [if_pos hadmitted, if_pos hadmitted, hbyte]
    cases kept with
    | none =>
      rw [if_pos (.inl (hcandidate.diff_lt htarget hmin hmax))]
      rfl
    | some p =>
      by_cases hreplaces : Replaces targetFreq p q
      · rw [select, if_pos hreplaces]
        exact if_pos hreplaces
      · rw [select, if_neg hreplaces]
        exact if_neg hreplaces
  · rw [if_neg hadmitted, if_neg hadmitted]

/-- The search is one over the candidates. -/
theorem foldl_consider (ps : List Parameters) (hps : ∀ p ∈ ps, p ∈ turns targetFreq)
    (kept : Option Parameters) :
    ps.foldl (consider targetFreq fbDividerMin fbDividerMax) (stateOf targetFreq kept) =
      stateOf targetFreq ((ps.filter fun p => decide (Admitted fbDividerMin fbDividerMax p)).foldl
        (select targetFreq) kept) := by
  induction ps generalizing kept with
  | nil => rfl
  | cons p ps ih =>
    have htail : ∀ q ∈ ps, q ∈ turns targetFreq := fun q hq => hps q (List.mem_cons_of_mem _ hq)
    rw [List.foldl_cons, consider_stateOf htarget hmin hmax kept (hps p List.mem_cons_self),
      ih htail]
    by_cases hadmitted : Admitted fbDividerMin fbDividerMax p
    · rw [if_pos hadmitted, List.filter_cons, if_pos (decide_eq_true hadmitted), List.foldl_cons]
    · rw [if_neg hadmitted, List.filter_cons, if_neg (by simpa using hadmitted)]

end Search

/-! ## The nearest candidates -/

/-- VCO frequency and postdivider, compared in this order -/
def key (p : Parameters) : ℚ ×ₗ ℕ := toLex (p.vcoFreq, p.postdiv)

/-- No candidate is closer. -/
def Closest (targetFreq : ℚ) (fbDividerMin fbDividerMax : Nat) (p : Parameters) : Prop :=
  ∀ q ∈ candidates targetFreq fbDividerMin fbDividerMax, p.diff targetFreq ≤ q.diff targetFreq

instance (targetFreq : ℚ) (fbDividerMin fbDividerMax : Nat) :
    DecidablePred (Closest targetFreq fbDividerMin fbDividerMax) :=
  fun _ => inferInstanceAs (Decidable (∀ _ ∈ _, _))

/-- No candidate is closer by EPSILON or more. -/
def Near (targetFreq : ℚ) (fbDividerMin fbDividerMax : Nat) (p : Parameters) : Prop :=
  ∀ q ∈ candidates targetFreq fbDividerMin fbDividerMax,
    p.diff targetFreq < q.diff targetFreq + EPSILON

instance (targetFreq : ℚ) (fbDividerMin fbDividerMax : Nat) :
    DecidablePred (Near targetFreq fbDividerMin fbDividerMax) :=
  fun _ => inferInstanceAs (Decidable (∀ _ ∈ _, _))

/-- The nearest candidates in the order of the turns -/
def nearest (targetFreq : ℚ) (fbDividerMin fbDividerMax : Nat) : List Parameters :=
  (candidates targetFreq fbDividerMin fbDividerMax).filter fun p =>
    decide (Near targetFreq fbDividerMin fbDividerMax p)

section Nearest

variable {targetFreq : ℚ} {fbDividerMin fbDividerMax : Nat} {p q r : Parameters}

theorem exists_closest (h : candidates targetFreq fbDividerMin fbDividerMax ≠ []) :
    ∃ p ∈ candidates targetFreq fbDividerMin fbDividerMax,
      Closest targetFreq fbDividerMin fbDividerMax p := by
  obtain ⟨p, hp, hleast⟩ := Finset.exists_min_image
    (candidates targetFreq fbDividerMin fbDividerMax).toFinset (fun p => p.diff targetFreq)
    (List.toFinset_nonempty_iff _ |>.mpr h)
  exact ⟨p, List.mem_toFinset.mp hp, fun q hq => hleast q (List.mem_toFinset.mpr hq)⟩

theorem Closest.near (h : Closest targetFreq fbDividerMin fbDividerMax p) :
    Near targetFreq fbDividerMin fbDividerMax p := by
  intro q hq
  have hpos : 0 < EPSILON := by norm_num [EPSILON]
  linarith [h q hq]

section Range

variable (htarget : targetFreq < 1000) (hmin : 1 ≤ fbDividerMin)

include htarget hmin

/-- What is about as far as a near candidate is as far as it or as the closest. -/
theorem near_of_close (hp : p ∈ candidates targetFreq fbDividerMin fbDividerMax)
    (hq : q ∈ candidates targetFreq fbDividerMin fbDividerMax)
    (hnear : Near targetFreq fbDividerMin fbDividerMax p)
    (hclose : |q.diff targetFreq - p.diff targetFreq| < EPSILON) :
    Near targetFreq fbDividerMin fbDividerMax q := by
  obtain ⟨a, ha, hclosest⟩ := exists_closest (List.ne_nil_of_mem hp)
  have hap := hnear a ha
  have hle := hclosest p hp
  have hle' := hclosest q hq
  have habs := abs_lt.mp hclose
  have hgap : 2 * EPSILON < SPACING := by norm_num [EPSILON, SPACING]
  have hpos : 0 < EPSILON := by norm_num [EPSILON]
  have hcandidate {p : Parameters} := @mem_candidates_iff targetFreq fbDividerMin fbDividerMax p
    htarget hmin
  rcases two_freqs (hcandidate.mp ha) (hcandidate.mp hp) (hcandidate.mp hq)
    (abs_lt.mpr ⟨by linarith, by linarith⟩) (abs_lt.mpr ⟨by linarith, by linarith⟩)
    (abs_lt.mpr ⟨by linarith, by linarith⟩) with heq | heq | heq
  · have hdiff := @diff_eq_of_freq targetFreq _ _ heq
    intro b hb
    have hb' := hclosest b hb
    linarith
  · have hdiff := @diff_eq_of_freq targetFreq _ _ heq
    intro b hb
    have hb' := hnear b hb
    linarith
  · have hdiff := @diff_eq_of_freq targetFreq _ _ heq
    intro b hb
    have hb' := hclosest b hb
    linarith

/-- Near candidates that are not closest are all as far. -/
theorem diff_eq_of_near
    (hp : p ∈ candidates targetFreq fbDividerMin fbDividerMax)
    (hq : q ∈ candidates targetFreq fbDividerMin fbDividerMax)
    (hnear : Near targetFreq fbDividerMin fbDividerMax p)
    (hnear' : Near targetFreq fbDividerMin fbDividerMax q)
    (hclass : Closest targetFreq fbDividerMin fbDividerMax p ↔
      Closest targetFreq fbDividerMin fbDividerMax q) :
    p.diff targetFreq = q.diff targetFreq := by
  by_cases hclosest : Closest targetFreq fbDividerMin fbDividerMax p
  · exact le_antisymm (hclosest q hq) (hclass.mp hclosest p hp)
  · obtain ⟨a, ha, haclosest⟩ := exists_closest (List.ne_nil_of_mem hp)
    have hap := hnear a ha
    have haq := hnear' a ha
    have hle := haclosest p hp
    have hle' := haclosest q hq
    have hgap : 2 * EPSILON < SPACING := by norm_num [EPSILON, SPACING]
    have hpos : 0 < EPSILON := by norm_num [EPSILON]
    have hcandidate {p : Parameters} := @mem_candidates_iff targetFreq fbDividerMin fbDividerMax
      p htarget hmin
    have hsame {b : Parameters} (heq : a.freq = b.freq) :
        Closest targetFreq fbDividerMin fbDividerMax b := by
      intro c hc
      rw [← @diff_eq_of_freq targetFreq _ _ heq]
      exact haclosest c hc
    rcases two_freqs (hcandidate.mp ha) (hcandidate.mp hp) (hcandidate.mp hq)
      (abs_lt.mpr ⟨by linarith, by linarith⟩) (abs_lt.mpr ⟨by linarith, by linarith⟩)
      (abs_lt.mpr ⟨by linarith, by linarith⟩) with heq | heq | heq
    · exact absurd (hsame heq) hclosest
    · exact diff_eq_of_freq heq
    · exact absurd (hclass.mpr (hsame heq)) hclosest

omit htarget hmin in
theorem key_lt_iff (p q : Parameters) :
    key p < key q ↔ p.vcoFreq < q.vcoFreq ∨ p.vcoFreq = q.vcoFreq ∧ p.postdiv < q.postdiv :=
  Prod.Lex.toLex_lt_toLex

omit htarget hmin in
theorem key_le_iff (p q : Parameters) :
    key p ≤ key q ↔ p.vcoFreq < q.vcoFreq ∨ p.vcoFreq = q.vcoFreq ∧ p.postdiv ≤ q.postdiv :=
  Prod.Lex.toLex_le_toLex

/-- Among the near candidates the search is a scan of two classes. -/
theorem replaces_iff (hp : p ∈ candidates targetFreq fbDividerMin fbDividerMax)
    (hq : q ∈ candidates targetFreq fbDividerMin fbDividerMax)
    (hnear : Near targetFreq fbDividerMin fbDividerMax p)
    (hnear' : Near targetFreq fbDividerMin fbDividerMax q) :
    Replaces targetFreq p q ↔
      MovesOn (Closest targetFreq fbDividerMin fbDividerMax) key p q := by
  have hpq := hnear q hq
  have hqp := hnear' p hp
  have hclose : |q.diff targetFreq - p.diff targetFreq| < EPSILON :=
    abs_lt.mpr ⟨by linarith, by linarith⟩
  have hvco : |q.vcoFreq - p.vcoFreq| < EPSILON ↔ q.vcoFreq = p.vcoFreq := by
    constructor
    · exact vcoFreq_eq_of_close ((mem_candidates_iff htarget hmin).mp hq)
        ((mem_candidates_iff htarget hmin).mp hp)
    · intro heq
      rw [heq, sub_self, abs_zero]
      norm_num [EPSILON]
  have hless : q.diff targetFreq < p.diff targetFreq ↔
      Closest targetFreq fbDividerMin fbDividerMax q ∧
        ¬ Closest targetFreq fbDividerMin fbDividerMax p := by
    constructor
    · intro hlt
      have hnot : ¬ Closest targetFreq fbDividerMin fbDividerMax p :=
        fun h => not_lt.mpr (h q hq) hlt
      refine ⟨?_, hnot⟩
      by_contra hfar
      have heq := diff_eq_of_near htarget hmin hp hq hnear hnear'
        ⟨fun h => absurd h hnot, fun h => absurd h hfar⟩
      linarith
    · rintro ⟨hclosest, hnot⟩
      by_contra hge
      exact hnot fun b hb => (not_lt.mp hge).trans (hclosest b hb)
  rw [Replaces, MovesOn, hless, hvco, key_lt_iff]
  constructor
  · rintro (h | h | h)
    · exact .inl h
    · exact .inr (.inl h.2)
    · exact .inr (.inr h.2)
  · rintro (h | h | h)
    · exact .inl h
    · exact .inr (.inl ⟨hclose, h⟩)
    · exact .inr (.inr ⟨hclose, h⟩)

/-- One candidate more, seen on the near candidates only. -/
theorem filter_select {kept : Option Parameters}
    (hkept : ∀ p ∈ kept, p ∈ candidates targetFreq fbDividerMin fbDividerMax)
    (hq : q ∈ candidates targetFreq fbDividerMin fbDividerMax) :
    (select targetFreq kept q).filter
        (fun p => decide (Near targetFreq fbDividerMin fbDividerMax p)) =
      if Near targetFreq fbDividerMin fbDividerMax q then
        keep (Closest targetFreq fbDividerMin fbDividerMax) key
          (kept.filter fun p => decide (Near targetFreq fbDividerMin fbDividerMax p)) q
      else kept.filter fun p => decide (Near targetFreq fbDividerMin fbDividerMax p) := by
  have hnew {p : Parameters} : (some p).filter
      (fun p => decide (Near targetFreq fbDividerMin fbDividerMax p)) =
        if Near targetFreq fbDividerMin fbDividerMax p then some p else none := by
    rw [Option.filter_some]
    simp
  cases kept with
  | none =>
    rw [select, hnew]
    rfl
  | some p =>
    have hp := hkept p rfl
    have hselect : select targetFreq (some p) q =
        if Replaces targetFreq p q then some q else some p := rfl
    rw [hselect]
    by_cases hnear : Near targetFreq fbDividerMin fbDividerMax p
    · by_cases hnear' : Near targetFreq fbDividerMin fbDividerMax q
      · have hiff := replaces_iff htarget hmin hp hq hnear hnear'
        rw [hnew, if_pos hnear, if_pos hnear', keep_some]
        by_cases hreplaces : Replaces targetFreq p q
        · rw [if_pos hreplaces, if_pos (hiff.mp hreplaces), hnew, if_pos hnear']
        · rw [if_neg hreplaces, if_neg fun h => hreplaces (hiff.mpr h), hnew, if_pos hnear]
      · have hstays : ¬ Replaces targetFreq p q := by
          have hfar : ¬ |q.diff targetFreq - p.diff targetFreq| < EPSILON :=
            fun h => hnear' (near_of_close htarget hmin hp hq hnear h)
          rintro (h | h | h)
          · exact hnear' fun b hb => h.trans (hnear b hb)
          · exact hfar h.1
          · exact hfar h.1
        rw [if_neg hstays, if_neg hnear']
    · by_cases hnear' : Near targetFreq fbDividerMin fbDividerMax q
      · have hmoves : Replaces targetFreq p q := by
          refine .inl ?_
          by_contra hge
          exact hnear fun b hb => (not_lt.mp hge).trans_lt (hnear' b hb)
        rw [if_pos hmoves, if_pos hnear', hnew, hnew, if_pos hnear', if_neg hnear]
        rfl
      · rw [if_neg hnear', hnew, if_neg hnear]
        split
        · rw [hnew, if_neg hnear']
        · rw [hnew, if_neg hnear]

/-- The search ends at the near candidate at which the scan of the near ones ends. -/
theorem foldl_select (ps : List Parameters)
    (hps : ∀ p ∈ ps, p ∈ candidates targetFreq fbDividerMin fbDividerMax) (kept : Option Parameters)
    (hkept : ∀ p ∈ kept, p ∈ candidates targetFreq fbDividerMin fbDividerMax) :
    (ps.foldl (select targetFreq) kept).filter
        (fun p => decide (Near targetFreq fbDividerMin fbDividerMax p)) =
      (ps.filter fun p => decide (Near targetFreq fbDividerMin fbDividerMax p)).foldl
        (keep (Closest targetFreq fbDividerMin fbDividerMax) key)
        (kept.filter fun p => decide (Near targetFreq fbDividerMin fbDividerMax p)) := by
  induction ps generalizing kept with
  | nil => rfl
  | cons q ps ih =>
    have hq := hps q List.mem_cons_self
    have hnext : ∀ p ∈ select targetFreq kept q,
        p ∈ candidates targetFreq fbDividerMin fbDividerMax := by
      intro p hp
      cases kept with
      | none => exact (Option.some.inj hp) ▸ hq
      | some x =>
        have hselect : select targetFreq (some x) q =
            if Replaces targetFreq x q then some q else some x := rfl
        rw [hselect, Option.mem_def] at hp
        split at hp
        · exact (Option.some.inj hp) ▸ hq
        · exact (Option.some.inj hp) ▸ hkept x rfl
    rw [List.foldl_cons, ih (fun p hp => hps p (List.mem_cons_of_mem _ hp)) _ hnext,
      filter_select htarget hmin hkept hq, List.filter_cons]
    by_cases hnear : Near targetFreq fbDividerMin fbDividerMax q
    · rw [if_pos hnear, if_pos (decide_eq_true hnear), List.foldl_cons]
    · rw [if_neg hnear, if_neg (by simpa using hnear)]

theorem pllGetParameters_of_none (hmax : fbDividerMax ≤ 255)
    (h : candidates targetFreq fbDividerMin fbDividerMax = []) :
    pllGetParameters targetFreq fbDividerMin fbDividerMax = (⟨0, 0, 0, 0⟩, 0) := by
  have hsearch := foldl_consider htarget hmin hmax (turns targetFreq) (fun _ hp => hp) none
  rw [← candidates, h] at hsearch
  have hstart : stateOf targetFreq none = Search.start := rfl
  rw [hstart] at hsearch
  rw [pllGetParameters, hsearch]
  rfl

/-- The result of the search is that of the scan of the near candidates. -/
theorem pllGetParameters_of_scan
    (hmax : fbDividerMax ≤ 255)
    (h : scan (Closest targetFreq fbDividerMin fbDividerMax) key
      (nearest targetFreq fbDividerMin fbDividerMax) = some r) :
    pllGetParameters targetFreq fbDividerMin fbDividerMax = (r, r.freq) := by
  have hsearch := foldl_consider htarget hmin hmax (turns targetFreq) (fun _ hp => hp) none
  have hselect := foldl_select htarget hmin (candidates targetFreq fbDividerMin fbDividerMax)
    (fun _ hp => hp) none (fun _ hp => absurd hp (Option.not_mem_none _))
  have hscan : (nearest targetFreq fbDividerMin fbDividerMax).foldl
      (keep (Closest targetFreq fbDividerMin fbDividerMax) key) none = some r := h
  rw [← nearest, Option.filter_none, hscan, Option.filter_eq_some_iff] at hselect
  rw [← candidates, hselect.1] at hsearch
  have hstart : stateOf targetFreq none = Search.start := rfl
  rw [hstart] at hsearch
  rw [pllGetParameters, hsearch]
  rfl

/-- Near candidates of one class have one frequency if the other class has a member. -/
theorem freq_eq_of_class
    (hp : p ∈ nearest targetFreq fbDividerMin fbDividerMax)
    (hq : q ∈ nearest targetFreq fbDividerMin fbDividerMax)
    (hr : r ∈ nearest targetFreq fbDividerMin fbDividerMax)
    (hclass : Closest targetFreq fbDividerMin fbDividerMax p ↔
      Closest targetFreq fbDividerMin fbDividerMax q)
    (hother : ¬ (Closest targetFreq fbDividerMin fbDividerMax r ↔
      Closest targetFreq fbDividerMin fbDividerMax p)) : p.freq = q.freq := by
  have hmem {p : Parameters} (h : p ∈ nearest targetFreq fbDividerMin fbDividerMax) :
      p ∈ candidates targetFreq fbDividerMin fbDividerMax ∧
        Near targetFreq fbDividerMin fbDividerMax p := by
    rw [nearest, List.mem_filter, decide_eq_true_eq] at h
    exact h
  have hclose {p q : Parameters} (hp : p ∈ nearest targetFreq fbDividerMin fbDividerMax)
      (hq : q ∈ nearest targetFreq fbDividerMin fbDividerMax) :
      |p.diff targetFreq - q.diff targetFreq| < SPACING := by
    have hpq := (hmem hp).2 q (hmem hq).1
    have hqp := (hmem hq).2 p (hmem hp).1
    have hgap : EPSILON < SPACING := by norm_num [EPSILON, SPACING]
    exact abs_lt.mpr ⟨by linarith, by linarith⟩
  have hsame {p q : Parameters} (h : p.freq = q.freq) :
      Closest targetFreq fbDividerMin fbDividerMax p ↔
        Closest targetFreq fbDividerMin fbDividerMax q := by
    rw [Closest, Closest, @diff_eq_of_freq targetFreq p q h]
  have hcandidate {p : Parameters} (h : p ∈ nearest targetFreq fbDividerMin fbDividerMax) :=
    (mem_candidates_iff htarget hmin).mp (hmem h).1
  rcases two_freqs (hcandidate hp) (hcandidate hq) (hcandidate hr) (hclose hp hq) (hclose hq hr)
    (hclose hp hr) with heq | heq | heq
  · exact heq
  · exact absurd ((hsame heq).symm.trans hclass.symm) hother
  · exact absurd (hsame heq).symm hother

end Range

/-- **PLL selection is optimal exactly when** the order of the turns keeps a lowest candidate:
behind the last of the closest candidates that are lowest in VCO frequency and postdivider, no
near candidate that is farther is lower, or a lowest of those is behind all closest ones. -/
theorem pllGetParameters_optimal_iff (targetFreq : ℚ) (fbDividerMin fbDividerMax : Nat)
    (htarget : targetFreq < 1000) (hmin : 1 ≤ fbDividerMin) (hmax : fbDividerMax ≤ 255) :
    Optimal targetFreq fbDividerMin fbDividerMax
        (pllGetParameters targetFreq fbDividerMin fbDividerMax) ↔
      KeepsLowest (Closest targetFreq fbDividerMin fbDividerMax) key
        (nearest targetFreq fbDividerMin fbDividerMax) := by
  have hcandidate {p : Parameters} := @mem_candidates_iff targetFreq fbDividerMin fbDividerMax p
    htarget hmin
  rcases Decidable.em (candidates targetFreq fbDividerMin fbDividerMax = []) with hnone | hsome
  · constructor
    · intro _ before x after heq
      rw [nearest, hnone, List.filter_nil] at heq
      exact absurd heq.symm (by simp)
    · intro _
      refine ⟨fun _ => pllGetParameters_of_none htarget hmin hmax hnone, ?_⟩
      rintro ⟨p, hp⟩
      have hmem := hcandidate.mpr hp
      rw [hnone] at hmem
      exact absurd hmem List.not_mem_nil
  · obtain ⟨a, ha, hclosest⟩ := exists_closest hsome
    have hanear : a ∈ nearest targetFreq fbDividerMin fbDividerMax :=
      List.mem_filter.mpr ⟨ha, decide_eq_true hclosest.near⟩
    have hfirst : ∃ p ∈ nearest targetFreq fbDividerMin fbDividerMax,
        Closest targetFreq fbDividerMin fbDividerMax p := ⟨a, hanear, hclosest⟩
    obtain ⟨r, hr, hscan⟩ := @scan_mem _ _ _ (Closest targetFreq fbDividerMin fbDividerMax) _
      key _ (List.ne_nil_of_mem hanear)
    have hrmem := List.mem_filter.mp hr
    have hrnear := of_decide_eq_true hrmem.2
    rw [pllGetParameters_of_scan htarget hmin hmax hscan]
    constructor
    · intro hoptimal
      obtain ⟨-, -, -, hlowest⟩ := hoptimal.some ⟨a, hcandidate.mp ha⟩
      by_cases hsecond : ∃ b ∈ nearest targetFreq fbDividerMin fbDividerMax,
          ¬ (Closest targetFreq fbDividerMin fbDividerMax b ↔
            Closest targetFreq fbDividerMin fbDividerMax r)
      · obtain ⟨b, hb, hother⟩ := hsecond
        refine keepsLowest_of_isLowest hscan ?_
        intro q hq hclass
        have hfreq := freq_eq_of_class htarget hmin hr hq hb hclass.symm hother
        exact (key_le_iff r q).mpr
          (hlowest q (hcandidate.mp (List.mem_filter.mp hq).1) hfreq.symm)
      · push Not at hsecond
        intro before x after heq hx _ _
        refine .inl fun y hy hy' => ?_
        have hsame (z : Parameters) (hz : z ∈ before ++ x :: after) := hsecond z (heq ▸ hz)
        exact absurd ((hsame y (by simp [hy])).mpr ((hsame x (by simp)).mp hx)) hy'
    · intro hkeeps
      obtain ⟨r', hscan', hlowest⟩ := isLowest_of_keepsLowest hfirst hkeeps
      rw [hscan, Option.some.injEq] at hscan'
      subst hscan'
      refine ⟨fun h => absurd (hcandidate.mp ha) (h a), fun _ => ?_⟩
      refine ⟨hcandidate.mp hrmem.1, rfl, ?_, ?_⟩
      · intro p hp
        exact not_le.mpr (hrnear p (hcandidate.mpr hp))
      · intro p hp hfreq
        have hdiff := @diff_eq_of_freq targetFreq p r hfreq
        have hpnear : p ∈ nearest targetFreq fbDividerMin fbDividerMax := by
          refine List.mem_filter.mpr ⟨hcandidate.mpr hp, decide_eq_true ?_⟩
          rw [Near, hdiff]
          exact hrnear
        have hclass : Closest targetFreq fbDividerMin fbDividerMax p ↔
            Closest targetFreq fbDividerMin fbDividerMax r := by
          rw [Closest, Closest, hdiff]
        exact (key_le_iff r p).mp (hlowest p hpnear hclass)

theorem pllGetParameters_optimal_iff_bm1370 :
    Optimal 600 160 239 (pllGetParameters 600 160 239) ↔
      KeepsLowest (Closest 600 160 239) key (nearest 600 160 239) :=
  pllGetParameters_optimal_iff 600 160 239 (by norm_num) (by norm_num) (by norm_num)

/-- 13187163/131072 MHz: dividers 7 and 3 behind a halved reference are left for a frequency
that is farther by less than `EPSILON`, and the search returns to theirs with twice the VCO
frequency. -/
theorem lower_vco_lost :
    ¬ Optimal (13187163 / 131072) 160 239 (pllGetParameters (13187163 / 131072) 160 239) := by
  have hresult : pllGetParameters (13187163 / 131072) 160 239 = (⟨169, 1, 7, 6⟩, 4225 / 42) := by
    decide +kernel
  have hlower : IsCandidate (13187163 / 131072) 160 239 ⟨169, 2, 7, 3⟩ := by decide +kernel
  intro h
  obtain ⟨-, -, -, hlowest⟩ := h.some ⟨_, hlower⟩
  rw [hresult] at hlowest
  have hvco := hlowest ⟨169, 2, 7, 3⟩ hlower (by decide +kernel)
  exact absurd hvco (by decide +kernel)

end Nearest

end EspMiner.Pll
