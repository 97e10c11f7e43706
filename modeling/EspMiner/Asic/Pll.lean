import EspMiner.Library.NearTie
import Mathlib.Data.Prod.Lex
import Mathlib.Data.Rat.Floor

/-!
# The PLL parameters

`pll_get_parameters` of `components/asic/pll.c` over exact rationals: the search for the
dividers whose frequency is closest to the target.
-/

namespace EspMiner.Pll

open Library

def EPSILON : ℚ := 1 / 10000
def FREQ_MULT : ℚ := 25
def FLT_MAX : ℚ := 2 ^ 128 - 2 ^ 104
def UINT16_MAX : Nat := 65535

/-- The dividers of one turn of the loops -/
structure Parameters where
  fbDivider : Nat
  refdiv : Nat
  postdiv1 : Nat
  postdiv2 : Nat
deriving DecidableEq, Repr

namespace Parameters

variable (p : Parameters)

def divider : Nat := p.refdiv * p.postdiv1 * p.postdiv2

/-- `new_freq` -/
def freq : ℚ := FREQ_MULT * p.fbDivider / p.divider

/-- `vco_freq` -/
def vcoFreq : ℚ := FREQ_MULT * p.fbDivider / p.refdiv

def postdiv : Nat := p.postdiv1 * p.postdiv2

/-- `curr_diff` -/
def diff (target : ℚ) : ℚ := |target - p.freq|

end Parameters

/-- `round`, away from zero at a half -/
def roundAway (x : ℚ) : ℤ := if 0 ≤ x then ⌊x + 1 / 2⌋ else -⌊-x + 1 / 2⌋

/-- `fb_divider`; a negative number, whose conversion is undefined, becomes zero. -/
def fbDivider (targetFreq : ℚ) (divider : Nat) : Nat :=
  (roundAway (targetFreq / FREQ_MULT * divider)).toNat % 2 ^ 16

/-- The turns of the three loops -/
def turns (targetFreq : ℚ) : List Parameters :=
  [2, 1].flatMap fun refdiv =>
    [7, 6, 5, 4, 3, 2, 1].flatMap fun postdiv1 =>
      [7, 6, 5, 4, 3, 2, 1].map fun postdiv2 =>
        ⟨fbDivider targetFreq (refdiv * postdiv1 * postdiv2), refdiv, postdiv1, postdiv2⟩

/-- The variables of the search -/
structure Search where
  best : Parameters
  bestFreq : ℚ
  minDiff : ℚ
  minVcoFreq : ℚ
  minPostdiv : Nat

/-- The variables before the first turn -/
def Search.start : Search := ⟨⟨0, 0, 0, 0⟩, 0, FLT_MAX, FLT_MAX, UINT16_MAX⟩

/-- The dividers are in the right order, and the feedback divider is in its range. -/
def Admitted (fbDividerMin fbDividerMax : Nat) (p : Parameters) : Prop :=
  p.postdiv2 < p.postdiv1 ∧ fbDividerMin ≤ p.fbDivider ∧ p.fbDivider ≤ fbDividerMax

instance (fbDividerMin fbDividerMax : Nat) (p : Parameters) :
    Decidable (Admitted fbDividerMin fbDividerMax p) :=
  inferInstanceAs (Decidable (_ ∧ _))

/-- One turn: the best parameters are replaced by closer ones, or by ones that are as close
within EPSILON with a lower VCO frequency or a lower postdivider. -/
def consider (targetFreq : ℚ) (fbDividerMin fbDividerMax : Nat) (s : Search) (p : Parameters) :
    Search :=
  if Admitted fbDividerMin fbDividerMax p then
    if p.diff targetFreq < s.minDiff ∨
        |p.diff targetFreq - s.minDiff| < EPSILON ∧ p.vcoFreq < s.minVcoFreq ∨
        |p.diff targetFreq - s.minDiff| < EPSILON ∧ |p.vcoFreq - s.minVcoFreq| < EPSILON ∧
          p.postdiv < s.minPostdiv then
      ⟨{ p with fbDivider := p.fbDivider % 2 ^ 8 }, p.freq, p.diff targetFreq, p.vcoFreq,
        p.postdiv⟩
    else s
  else s

/-- `pll_get_parameters`: the dividers and `actual_freq` -/
def pllGetParameters (targetFreq : ℚ) (fbDividerMin fbDividerMax : Nat) : Parameters × ℚ :=
  let s := (turns targetFreq).foldl (consider targetFreq fbDividerMin fbDividerMax) Search.start
  (s.best, s.bestFreq)

/-! ## What the search is for -/

/-- Dividers in their ranges with the feedback divider that is nearest to the target -/
def IsCandidate (targetFreq : ℚ) (fbDividerMin fbDividerMax : Nat) (p : Parameters) : Prop :=
  1 ≤ p.refdiv ∧ p.refdiv ≤ 2 ∧ 1 ≤ p.postdiv2 ∧ p.postdiv2 < p.postdiv1 ∧ p.postdiv1 ≤ 7 ∧
    (p.fbDivider : ℤ) = roundAway (targetFreq / FREQ_MULT * p.divider) ∧
    fbDividerMin ≤ p.fbDivider ∧ p.fbDivider ≤ fbDividerMax

instance (targetFreq : ℚ) (fbDividerMin fbDividerMax : Nat) (p : Parameters) :
    Decidable (IsCandidate targetFreq fbDividerMin fbDividerMax p) :=
  inferInstanceAs (Decidable (_ ∧ _))

/-- The result is a candidate that no other one beats, or zeros where there is none. -/
structure Optimal (targetFreq : ℚ) (fbDividerMin fbDividerMax : Nat) (result : Parameters × ℚ) :
    Prop where
  none : (∀ p, ¬ IsCandidate targetFreq fbDividerMin fbDividerMax p) → result = (⟨0, 0, 0, 0⟩, 0)
  some : (∃ p, IsCandidate targetFreq fbDividerMin fbDividerMax p) →
    IsCandidate targetFreq fbDividerMin fbDividerMax result.1 ∧ result.2 = result.1.freq ∧
      (∀ p, IsCandidate targetFreq fbDividerMin fbDividerMax p →
        ¬ p.diff targetFreq + EPSILON ≤ result.1.diff targetFreq) ∧
      ∀ p, IsCandidate targetFreq fbDividerMin fbDividerMax p → p.freq = result.1.freq →
        result.1.vcoFreq < p.vcoFreq ∨
          result.1.vcoFreq = p.vcoFreq ∧ result.1.postdiv ≤ p.postdiv

end EspMiner.Pll
