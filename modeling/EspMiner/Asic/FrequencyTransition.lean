import Mathlib.Algebra.Order.Round
import Mathlib.Data.List.Chain
import Mathlib.Data.Rat.Floor
import Mathlib.Tactic.Linarith
import Mathlib.Tactic.Ring

/-!
# The Bitmain frequency ramp

`do_frequency_transition` of `components/asic/frequency_transition_bmXX.c` over exact rationals:
the frequency goes over the multiples of 6.25 MHz and from the last of them to the target.  The
steps are a chain towards the target whatever the callback answers (`Ramping`), and the cell of the
grid that the target lies in says where the loop ends.
-/

namespace EspMiner.FrequencyTransition

def EPSILON : ℚ := 1 / 10000
def STEP_SIZE : ℚ := 25 / 4

/-- The variables of the function, and the frequencies passed to `set_frequency_fn` -/
structure Ramp where
  currentFrequency : ℚ
  currentStep : ℤ
  actualFrequency : ℚ
  requested : List ℚ

section Ramp

/- What `set_frequency_fn` returns: any function of all it was passed so far -/
variable (setFrequencyFn : List ℚ → ℚ)

/-- `current_frequency` is set and passed on. -/
def Ramp.set (r : Ramp) (frequency : ℚ) : Ramp :=
  { r with
    currentFrequency := frequency
    actualFrequency := setFrequencyFn (r.requested ++ [frequency])
    requested := r.requested ++ [frequency] }

/-- `(int) floor` of the number of steps on the way up, `(int) ceil` on the way down -/
def gridStep (rising : Prop) [Decidable rising] (frequency : ℚ) : ℤ :=
  if rising then ⌊frequency / STEP_SIZE⌋ else ⌈frequency / STEP_SIZE⌉

/-- The loop over the steps -/
def rampTo (signum targetStep : ℤ) (r : Ramp) : Ramp :=
  if 0 < signum ∧ r.currentStep < targetStep ∨ signum < 0 ∧ targetStep < r.currentStep then
    let currentStep := r.currentStep + signum
    rampTo signum targetStep
      (Ramp.set setFrequencyFn { r with currentStep } (currentStep * STEP_SIZE))
  else r
termination_by
  if 0 < signum then (targetStep - r.currentStep).toNat else (r.currentStep - targetStep).toNat
decreasing_by
  simp only [Ramp.set]
  split <;> omega

/-- `do_frequency_transition` with `frequency_value` and `actual_frequency` -/
def doFrequencyTransition (targetFrequency actualFrequency : ℚ) : Ramp :=
  let r : Ramp := ⟨actualFrequency, 0, actualFrequency, []⟩
  if |r.currentFrequency - targetFrequency| < EPSILON then r
  else if |targetFrequency - r.currentFrequency| < STEP_SIZE then
    r.set setFrequencyFn targetFrequency
  else
    let rising := r.currentFrequency < targetFrequency
    let r := { r with currentStep := gridStep rising r.currentFrequency }
    let targetStep := gridStep rising targetFrequency
    let r :=
      if r.currentStep ≠ targetStep then
        rampTo setFrequencyFn (if rising then 1 else -1) targetStep r
      else r
    if EPSILON < |r.currentFrequency - targetFrequency| then r.set setFrequencyFn targetFrequency
    else r

end Ramp

/-! ## Steps towards the target -/

/-- A step in the direction `signum` that is not too large and does not pass the target -/
structure Toward (signum : ℤ) (target x y : ℚ) : Prop where
  ahead : 0 < signum * (y - x)
  small : signum * (y - x) ≤ STEP_SIZE
  within : signum * y ≤ signum * target

/-- What holds of the ramp from `start` at any time. -/
structure Ramping (setFrequencyFn : List ℚ → ℚ) (signum : ℤ) (target start : ℚ) (r : Ramp) :
    Prop where
  steps : List.IsChain (Toward signum target) (start :: r.requested)
  current : (start :: r.requested).getLast? = some r.currentFrequency
  actual : r.actualFrequency = if r.requested = [] then start else setFrequencyFn r.requested

section Ramping

variable {setFrequencyFn : List ℚ → ℚ} {signum targetStep : ℤ} {target start : ℚ} {r : Ramp}

/-- One more frequency is requested. -/
theorem Ramping.set (h : Ramping setFrequencyFn signum target start r) {frequency : ℚ}
    (hstep : Toward signum target r.currentFrequency frequency) :
    Ramping setFrequencyFn signum target start (r.set setFrequencyFn frequency) where
  steps := by
    show List.IsChain _ ((start :: r.requested) ++ [frequency])
    rw [List.isChain_append]
    refine ⟨h.steps, List.isChain_singleton _, ?_⟩
    intro x hx y hy
    rw [h.current, Option.mem_def, Option.some.injEq] at hx
    rw [List.head?_cons, Option.mem_def, Option.some.injEq] at hy
    rw [← hx, ← hy]
    exact hstep
  current := by
    show ((start :: r.requested) ++ [frequency]).getLast? = some frequency
    exact List.getLast?_concat
  actual := by
    rw [if_neg (by simp [Ramp.set])]
    rfl

/-- The frequency is in the cell of its step, seen in the direction of the ramp. -/
def InCell (signum step : ℤ) (frequency : ℚ) : Prop :=
  (signum * step : ℤ) * STEP_SIZE ≤ signum * frequency ∧
    signum * frequency < ((signum * step : ℤ) + 1) * STEP_SIZE

theorem stepSize_pos : 0 < STEP_SIZE := by
  norm_num [STEP_SIZE]

theorem inCell_floor (frequency : ℚ) : InCell 1 ⌊frequency / STEP_SIZE⌋ frequency := by
  have hle := (le_div_iff₀ stepSize_pos).mp (Int.floor_le (frequency / STEP_SIZE))
  have hlt := (div_lt_iff₀ stepSize_pos).mp (Int.lt_floor_add_one (frequency / STEP_SIZE))
  rw [InCell, one_mul, Int.cast_one, one_mul]
  exact ⟨hle, hlt⟩

theorem inCell_ceil (frequency : ℚ) : InCell (-1) ⌈frequency / STEP_SIZE⌉ frequency := by
  have hle := (div_le_iff₀ stepSize_pos).mp (Int.le_ceil (frequency / STEP_SIZE))
  have hlt := (lt_div_iff₀ stepSize_pos).mp
    (sub_lt_iff_lt_add.mpr (Int.ceil_lt_add_one (frequency / STEP_SIZE)))
  rw [InCell]
  push_cast
  constructor
  · linarith
  · linarith

/-- The loop ends at the step of the target, and is gradual. -/
theorem ramping_rampTo (hsignum : signum = 1 ∨ signum = -1)
    (h : Ramping setFrequencyFn signum target start r)
    (hcell : InCell signum r.currentStep r.currentFrequency)
    (hwithin : signum * r.currentFrequency ≤ signum * target)
    (htarget : InCell signum targetStep target)
    (hstep : signum * r.currentStep ≤ signum * targetStep) :
    Ramping setFrequencyFn signum target start (rampTo setFrequencyFn signum targetStep r) ∧
      InCell signum targetStep (rampTo setFrequencyFn signum targetStep r).currentFrequency ∧
      signum * (rampTo setFrequencyFn signum targetStep r).currentFrequency ≤ signum * target := by
  induction r using rampTo.induct setFrequencyFn signum targetStep with
  | case1 r hmore currentStep ih =>
    rw [rampTo, if_pos hmore]
    have hnext : (signum * currentStep : ℤ) = signum * r.currentStep + 1 := by
      rcases hsignum with rfl | rfl <;> simp only [currentStep] <;> ring
    have hroom : signum * currentStep ≤ signum * targetStep := by
      rcases hsignum with rfl | rfl <;> omega
    have hfreq : (signum : ℚ) * (currentStep * STEP_SIZE) =
        ((signum * r.currentStep : ℤ) + 1) * STEP_SIZE := by
      have hcast : ((signum * currentStep : ℤ) : ℚ) = ((signum * r.currentStep : ℤ) : ℚ) + 1 := by
        rw [hnext]
        push_cast
        ring
      rw [← hcast]
      push_cast
      ring
    have hcast : ((signum * r.currentStep : ℤ) : ℚ) + 1 ≤ ((signum * targetStep : ℤ) : ℚ) := by
      rw [hnext] at hroom
      exact_mod_cast hroom
    have hle := mul_le_mul_of_nonneg_right hcast stepSize_pos.le
    have hcell' : InCell signum currentStep (currentStep * STEP_SIZE) := by
      rw [InCell, hfreq, hnext]
      push_cast
      have hpos := stepSize_pos
      constructor
      · linarith
      · linarith
    have htoward : Toward signum target r.currentFrequency (currentStep * STEP_SIZE) := by
      refine ⟨?_, ?_, ?_⟩
      · rw [mul_sub, hfreq]
        linarith [hcell.2]
      · rw [mul_sub, hfreq]
        linarith [hcell.1]
      · rw [hfreq]
        linarith [htarget.1]
    have hstart : Ramping setFrequencyFn signum target start { r with currentStep } :=
      ⟨h.steps, h.current, h.actual⟩
    exact ih (hstart.set htoward) hcell' htoward.within hroom
  | case2 r hdone =>
    rw [rampTo, if_neg hdone]
    have hsame : r.currentStep = targetStep := by
      rcases hsignum with rfl | rfl <;> omega
    exact ⟨h, hsame ▸ hcell, hwithin⟩

end Ramping

/-! ## The whole transition -/

/-- The direction of the ramp -/
def direction (target start : ℚ) : ℤ := if start < target then 1 else -1

/-- The transition was gradual and complete: every step goes towards the target, none is
larger than 6.25 MHz or passes it, the last frequency requested is the target or within
EPSILON of it, and `actual_frequency` is what `set_frequency_fn` returned for it. -/
structure Completes (setFrequencyFn : List ℚ → ℚ) (target start : ℚ) (r : Ramp) : Prop where
  steps : List.IsChain (Toward (direction target start) target) (start :: r.requested)
  ends : r.requested.getLast? = some target ∨
    |(r.requested.getLast?).getD start - target| ≤ EPSILON
  actual : r.actualFrequency = if r.requested = [] then start else setFrequencyFn r.requested

section Completes

variable {setFrequencyFn : List ℚ → ℚ} {target start : ℚ} {r : Ramp}

theorem direction_cases (target start : ℚ) :
    direction target start = 1 ∨ direction target start = -1 := by
  rw [direction]
  split
  · exact .inl rfl
  · exact .inr rfl

theorem start_within (target start : ℚ) :
    direction target start * start ≤ direction target start * target := by
  rw [direction]
  split
  case isTrue h =>
    push_cast
    linarith
  case isFalse h =>
    push_cast
    linarith

/-- The transition ends with a request for the target. -/
theorem completes_set (h : Ramping setFrequencyFn (direction target start) target start r)
    (hne : r.currentFrequency ≠ target)
    (hsmall : direction target start * (target - r.currentFrequency) ≤ STEP_SIZE)
    (hwithin : direction target start * r.currentFrequency ≤ direction target start * target) :
    Completes setFrequencyFn target start (r.set setFrequencyFn target) := by
  have htoward : Toward (direction target start) target r.currentFrequency target := by
    refine ⟨?_, hsmall, le_rfl⟩
    rcases direction_cases target start with hup | hdown
    · rw [hup] at hwithin ⊢
      push_cast at hwithin ⊢
      have hlt := lt_of_le_of_ne (by linarith) hne
      linarith
    · rw [hdown] at hwithin ⊢
      push_cast at hwithin ⊢
      have hlt := lt_of_le_of_ne (by linarith) hne.symm
      linarith
  have hset := h.set htoward
  exact ⟨hset.steps, .inl List.getLast?_concat, hset.actual⟩

/-- The end of a transition with the frequency within a step of the target. -/
theorem completes_last (h : Ramping setFrequencyFn (direction target start) target start r)
    (hsmall : direction target start * (target - r.currentFrequency) ≤ STEP_SIZE)
    (hwithin : direction target start * r.currentFrequency ≤ direction target start * target) :
    Completes setFrequencyFn target start
      (if EPSILON < |r.currentFrequency - target| then r.set setFrequencyFn target else r) := by
  split
  case isTrue hfar =>
    refine completes_set h ?_ hsmall hwithin
    intro heq
    rw [heq, sub_self, abs_zero] at hfar
    norm_num [EPSILON] at hfar
  case isFalse hnear =>
    refine ⟨h.steps, .inr ?_, h.actual⟩
    have hlast : (r.requested.getLast?).getD start = r.currentFrequency := by
      have hcurrent := h.current
      rw [List.getLast?_cons] at hcurrent
      exact Option.some.inj hcurrent
    rw [hlast]
    exact not_lt.mp hnear

theorem inCell_gridStep (target start frequency : ℚ) :
    InCell (direction target start) (gridStep (start < target) frequency) frequency := by
  rw [direction, gridStep]
  split
  · exact inCell_floor frequency
  · exact inCell_ceil frequency

theorem gridStep_le (target start : ℚ) :
    direction target start * gridStep (start < target) start ≤
      direction target start * gridStep (start < target) target := by
  rw [direction, gridStep, gridStep]
  split
  case isTrue h =>
    rw [one_mul, one_mul]
    exact Int.floor_mono (div_le_div_of_nonneg_right h.le stepSize_pos.le)
  case isFalse h =>
    have hle := Int.ceil_mono (div_le_div_of_nonneg_right (not_lt.mp h) stepSize_pos.le)
    omega

/-- Two frequencies of a cell are within a step of each other. -/
theorem InCell.sub_le {signum step : ℤ} {x y : ℚ} (hx : InCell signum step x)
    (hy : InCell signum step y) : signum * (y - x) ≤ STEP_SIZE := by
  rw [mul_sub]
  linarith [hx.1, hy.2]

/-- **The Bitmain frequency ramp is gradual and complete.** -/
theorem doFrequencyTransition_completes (setFrequencyFn : List ℚ → ℚ) (target start : ℚ) :
    Completes setFrequencyFn target start (doFrequencyTransition setFrequencyFn target start) := by
  have hbegin (step : ℤ) :
      Ramping setFrequencyFn (direction target start) target start ⟨start, step, start, []⟩ :=
    ⟨List.isChain_singleton _, rfl, rfl⟩
  have hwithin := start_within target start
  rw [doFrequencyTransition]
  dsimp only
  split
  case isTrue hnear => exact ⟨List.isChain_singleton _, .inr hnear.le, rfl⟩
  case isFalse hfar =>
    have hne : start ≠ target := by
      intro heq
      rw [heq, sub_self, abs_zero] at hfar
      norm_num [EPSILON] at hfar
    split
    case isTrue hclose =>
      refine completes_set (hbegin 0) hne ?_ hwithin
      have habs := abs_lt.mp hclose
      rcases direction_cases target start with hup | hdown
      · rw [hup]
        push_cast
        linarith
      · rw [hdown]
        push_cast
        linarith
    case isFalse hlarge =>
      have hstart := inCell_gridStep target start start
      have htarget := inCell_gridStep target start target
      split
      case isTrue hsteps =>
        obtain ⟨hramp, hcell, hnext⟩ := ramping_rampTo (direction_cases target start)
          (hbegin (gridStep (start < target) start)) hstart hwithin htarget
          (gridStep_le target start)
        exact completes_last hramp (hcell.sub_le htarget) hnext
      case isFalse hsame =>
        rw [not_not] at hsame
        exact completes_last (hbegin _) ((hsame ▸ hstart).sub_le htarget) hwithin

end Completes

end EspMiner.FrequencyTransition
