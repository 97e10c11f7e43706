import EspMiner.Bzm.Frequency

/-!
# The frequency ramps reach their goal

On the grid both ramps are functions of the feedback dividers.  Each moves the divider towards that
of the target, by four at most but for the first jump, and stops there, never past the target and
never off the grid.
-/

namespace EspMiner

open Library

variable {a b c m : ℤ}

/-! ### Comparisons on the grid -/

theorem gridMhz_lt : gridMhz a < gridMhz b ↔ a < b := by
  unfold gridMhz
  rw [mul_lt_mul_iff_right₀ (by norm_num), Int.cast_lt]

theorem gridMhz_le : gridMhz a ≤ gridMhz b ↔ a ≤ b := by
  rw [← not_lt, gridMhz_lt, not_lt]

/-- The tolerance is smaller than a step of the grid. -/
theorem gridMhz_le_add_epsilon : gridMhz a ≤ gridMhz b + BZM_FREQUENCY_EPSILON_MHZ ↔ a ≤ b := by
  constructor
  · intro h
    by_contra hlt
    have hnext : gridMhz (b + 1) ≤ gridMhz a := gridMhz_le.mpr (by omega)
    unfold gridMhz BZM_FREQUENCY_EPSILON_MHZ at *
    push_cast at hnext
    linarith
  · intro h
    have := gridMhz_le.mpr h
    unfold BZM_FREQUENCY_EPSILON_MHZ
    linarith

theorem abs_gridMhz_sub_le :
    |gridMhz a - gridMhz b| ≤ BZM_FREQUENCY_EPSILON_MHZ ↔ a = b := by
  rw [abs_le, sub_le_iff_le_add', gridMhz_le_add_epsilon, neg_le_sub_iff_le_add,
    gridMhz_le_add_epsilon]
  omega

theorem abs_gridMhz_sub_lt :
    |gridMhz a - gridMhz b| < BZM_FREQUENCY_EPSILON_MHZ ↔ a = b := by
  constructor
  · exact fun h => abs_gridMhz_sub_le.mp h.le
  · rintro rfl
    rw [sub_self, abs_zero]
    unfold BZM_FREQUENCY_EPSILON_MHZ
    norm_num

theorem gridMhz_add_four : gridMhz c + BZM_FREQUENCY_RAMP_STEP_MHZ = gridMhz (c + 4) := by
  unfold gridMhz BZM_FREQUENCY_RAMP_STEP_MHZ
  push_cast
  ring

theorem powerOn_eq : BZM_FREQUENCY_POWER_ON_MHZ = gridMhz 128 := by
  unfold gridMhz BZM_FREQUENCY_POWER_ON_MHZ
  norm_num

theorem gridFrequency_iff {mhz : ℚ} :
    GridFrequency mhz ↔ ∃ divider, 128 ≤ divider ∧ divider ≤ 320 ∧ mhz = gridMhz divider := by
  have hmaximum : BZM_FREQUENCY_TARGET_MAX_MHZ = gridMhz 320 := by
    unfold gridMhz BZM_FREQUENCY_TARGET_MAX_MHZ
    norm_num
  rw [GridFrequency, hmaximum, show BZM_FREQUENCY_TARGET_MIN_MHZ = gridMhz 128 from powerOn_eq]
  constructor
  · rintro ⟨hmin, hmax, divider, rfl⟩
    exact ⟨divider, gridMhz_le.mp hmin, gridMhz_le.mp hmax, rfl⟩
  · rintro ⟨divider, hmin, hmax, rfl⟩
    exact ⟨gridMhz_le.mpr hmin, gridMhz_le.mpr hmax, divider, rfl⟩

theorem requestIsValid_gridMhz (hmin : 128 ≤ c) (hmax : c ≤ 320) :
    bzmFrequencyRequestIsValid (gridMhz c) = true := by
  have hmin' : (128 : ℚ) ≤ c := by exact_mod_cast hmin
  have hmax' : (c : ℚ) ≤ 320 := by exact_mod_cast hmax
  exact requestIsValid_iff.mpr (by unfold gridMhz; constructor <;> linarith)

theorem resolve_gridMhz (hmin : 128 ≤ c) (hmax : c ≤ 320) :
    (bzmFrequencyResolveTarget (gridMhz c)).actualMhz = gridMhz c := by
  rw [actualMhz_eq, dividerOf_gridMhz hmin hmax]

theorem clampFrequency_gridMhz (hab : a ≤ b) :
    clampFrequency (gridMhz c) (gridMhz a) (gridMhz b) = gridMhz (max a (min c b)) := by
  simp only [clampFrequency, gridMhz_lt]
  split
  · rw [max_eq_left (by omega)]
  · split
    · rw [min_eq_right (by omega), max_eq_right hab]
    · rw [min_eq_left (by omega), max_eq_right (by omega)]

/-- The jump from power-on ends below the target and at 1425 MHz at most. -/
theorem initialMhz_gridMhz (hmin : 128 ≤ m) (hmax : m ≤ 320) :
    bzmFrequencyInitialMhz (gridMhz m) = gridMhz (max 128 (min (m - 16) 228)) := by
  have hoffset : gridMhz m - BZM_FREQUENCY_INITIAL_OFFSET_MHZ = gridMhz (m - 16) := by
    unfold gridMhz BZM_FREQUENCY_INITIAL_OFFSET_MHZ
    push_cast
    ring
  have hmaximum : BZM_FREQUENCY_INITIAL_MAX_MHZ = gridMhz 228 := by
    unfold gridMhz BZM_FREQUENCY_INITIAL_MAX_MHZ
    norm_num
  simp only [bzmFrequencyInitialMhz]
  rw [resolve_gridMhz hmin hmax, hoffset, hmaximum,
    show BZM_FREQUENCY_TARGET_MIN_MHZ = gridMhz 128 from powerOn_eq,
    clampFrequency_gridMhz (by decide), resolve_gridMhz (by omega) (by omega)]

/-- The divider that the ramp goes to. -/
def rampDivider (c m : ℤ) : ℤ := min (if c = 128 ∧ 144 < m then min (m - 16) 228 else c + 4) m

theorem nextRamp_gridMhz (hmin : 128 ≤ c) {target : ℚ}
    (htarget : bzmFrequencyRequestIsValid target = true) :
    bzmFrequencyNextRampMhz (gridMhz c) target =
      if dividerOf target ≤ c then none else some (gridMhz (rampDivider c (dividerOf target))) := by
  obtain ⟨htmin, htmax⟩ := dividerOf_mem target
  have hstart : ¬(bzmFrequencyRequestIsValid target = false ∨
      gridMhz c < BZM_FREQUENCY_POWER_ON_MHZ - BZM_FREQUENCY_EPSILON_MHZ) := by
    rw [not_or, not_lt, powerOn_eq, sub_le_iff_le_add]
    exact ⟨by simp [htarget], gridMhz_le_add_epsilon.mpr hmin⟩
  rw [bzmFrequencyNextRampMhz, if_neg hstart]
  simp only [actualMhz_eq target, sub_le_iff_le_add, gridMhz_le_add_epsilon]
  split
  · rfl
  next hbelow =>
  -- the candidate is the divider of the ramp before it is cut at the target
  have hcandidate : (if |gridMhz c - BZM_FREQUENCY_POWER_ON_MHZ| ≤ BZM_FREQUENCY_EPSILON_MHZ then
        if bzmFrequencyInitialMhz (gridMhz (dividerOf target)) ≤
            gridMhz c + BZM_FREQUENCY_EPSILON_MHZ then gridMhz c + BZM_FREQUENCY_RAMP_STEP_MHZ
        else bzmFrequencyInitialMhz (gridMhz (dividerOf target))
      else gridMhz c + BZM_FREQUENCY_RAMP_STEP_MHZ) =
      gridMhz (if c = 128 ∧ 144 < dividerOf target then min (dividerOf target - 16) 228
        else c + 4) := by
    rw [powerOn_eq, initialMhz_gridMhz htmin htmax, gridMhz_add_four]
    simp only [abs_gridMhz_sub_le, gridMhz_le_add_epsilon]
    by_cases hpower : c = 128
    · by_cases hjump : 144 < dividerOf target
      · rw [if_pos hpower, if_neg (by omega), if_pos ⟨hpower, hjump⟩, max_eq_right (by omega)]
      · rw [if_pos hpower, if_pos (by omega), if_neg (fun hboth => hjump hboth.2)]
    · rw [if_neg hpower, if_neg (fun hboth => hpower hboth.1)]
  -- the cut candidate is on the grid, above the current frequency
  have hcut : ∀ d : ℤ, (if gridMhz (dividerOf target) < gridMhz d then gridMhz (dividerOf target)
      else gridMhz d) = gridMhz (min d (dividerOf target)) := by
    intro d
    simp only [gridMhz_lt]
    split
    · rw [min_eq_right (by omega)]
    · rw [min_eq_left (by omega)]
  have hnext : c < rampDivider c (dividerOf target) ∧ rampDivider c (dividerOf target) ≤ 320 := by
    unfold rampDivider
    split <;> omega
  have habove : ¬gridMhz (rampDivider c (dividerOf target)) ≤
      gridMhz c + BZM_FREQUENCY_EPSILON_MHZ := by
    rw [gridMhz_le_add_epsilon]
    omega
  have hresolved := resolve_gridMhz (by omega) hnext.2
  rw [rampDivider] at hresolved habove
  simp only [hcandidate, hcut, hresolved, if_neg habove, rampDivider]

/-- The divider that the live ramp goes to. -/
def liveDivider (c m : ℤ) : ℤ := if c < m then min (c + 4) m else max (c - 4) m

theorem nextLiveRamp_gridMhz (hmin : 128 ≤ c) (hmax : c ≤ 320) {target : ℚ}
    (htarget : bzmFrequencyRequestIsValid target = true) :
    bzmFrequencyNextLiveRampMhz (gridMhz c) target =
      if c = dividerOf target then none
      else some (gridMhz (liveDivider c (dividerOf target))) := by
  obtain ⟨htmin, htmax⟩ := dividerOf_mem target
  have hepsilon : ¬BZM_FREQUENCY_EPSILON_MHZ ≤ |gridMhz c - gridMhz c| := by
    rw [not_le, abs_gridMhz_sub_lt]
  rw [bzmFrequencyNextLiveRampMhz]
  simp only [resolve_gridMhz hmin hmax, requestIsValid_gridMhz hmin hmax, htarget,
    actualMhz_eq target, Bool.true_eq_false, false_or, if_neg hepsilon, abs_gridMhz_sub_lt, sub_pos, sub_neg, gridMhz_lt]
  by_cases hdone : c = dividerOf target
  · rw [if_pos hdone.symm, if_pos hdone]
  rw [if_neg (Ne.symm hdone), if_neg hdone]
  have hcandidate : gridMhz c + (if c < dividerOf target then BZM_FREQUENCY_RAMP_STEP_MHZ
      else -BZM_FREQUENCY_RAMP_STEP_MHZ) =
        gridMhz (if c < dividerOf target then c + 4 else c - 4) := by
    unfold gridMhz BZM_FREQUENCY_RAMP_STEP_MHZ
    split <;> push_cast <;> ring
  have hcut : (if c < dividerOf target ∧ dividerOf target < (if c < dividerOf target then c + 4
          else c - 4) ∨ dividerOf target < c ∧ (if c < dividerOf target then c + 4 else c - 4) <
            dividerOf target then gridMhz (dividerOf target)
      else gridMhz (if c < dividerOf target then c + 4 else c - 4)) =
        gridMhz (liveDivider c (dividerOf target)) := by
    unfold liveDivider
    split_ifs <;> congr 1 <;> omega
  have hnext : liveDivider c (dividerOf target) ≠ c ∧ 128 ≤ liveDivider c (dividerOf target) ∧
      liveDivider c (dividerOf target) ≤ 320 := by
    unfold liveDivider
    split <;> omega
  rw [hcandidate]
  simp only [gridMhz_lt]
  rw [hcut, resolve_gridMhz hnext.2.1 hnext.2.2, if_neg (mt abs_gridMhz_sub_lt.mp hnext.1)]

/-! ### The ramps -/

/-- The frequency that a request is resolved to. -/
def resolvedMhz (target : ℚ) : ℚ := (bzmFrequencyResolveTarget target).actualMhz

/-- A step up to the goal at most; only the jump from power-on may be long, and it ends
at 1425 MHz and at the request at most. -/
structure RampStep (target f g : ℚ) : Prop where
  grid : GridFrequency f ∧ GridFrequency g
  rises : f < g
  bounded : g ≤ resolvedMhz target
  short : g ≤ f + BZM_FREQUENCY_RAMP_STEP_MHZ ∨ f = BZM_FREQUENCY_POWER_ON_MHZ ∧
    g ≤ BZM_FREQUENCY_INITIAL_MAX_MHZ ∧ g ≤ target

/-- A short step from the side of the start to the goal at most. -/
structure LiveRampStep (start target f g : ℚ) : Prop where
  grid : GridFrequency f ∧ GridFrequency g
  rises : start ≤ resolvedMhz target → f < g ∧ g ≤ resolvedMhz target
  falls : resolvedMhz target ≤ start → g < f ∧ resolvedMhz target ≤ g
  short : |g - f| ≤ BZM_FREQUENCY_RAMP_STEP_MHZ

/-- The two ramps to a target agree with their goal. -/
structure RampsExact (target : ℚ) : Prop where
  ramp : ∃ n, Reaches (fun f => bzmFrequencyNextRampMhz f target) (RampStep target)
    BZM_FREQUENCY_POWER_ON_MHZ (resolvedMhz target) n
  live : ∀ start, GridFrequency start →
    ∃ n, Reaches (fun f => bzmFrequencyNextLiveRampMhz f target) (LiveRampStep start target)
      start (resolvedMhz target) n
  grid : GridFrequency (resolvedMhz target)
  near : |resolvedMhz target - target| ≤ 25 / 8
  fixed : resolvedMhz (resolvedMhz target) = resolvedMhz target
  monotone : ∀ other, target ≤ other → resolvedMhz target ≤ resolvedMhz other

theorem resolvedMhz_eq (target : ℚ) : resolvedMhz target = gridMhz (dividerOf target) :=
  actualMhz_eq target

theorem resolvedMhz_near {target : ℚ} (htarget : bzmFrequencyRequestIsValid target = true) :
    |resolvedMhz target - target| ≤ 25 / 8 := by
  have hnear := abs_halfDown_sub_le (4 / 25 * target)
  rw [abs_le] at hnear
  rw [resolvedMhz_eq, dividerOf, clampFrequency_of_valid htarget, gridMhz, abs_le]
  constructor <;> linarith

/-- How many dividers a frequency is from the goal. -/
def dividersTo (target mhz : ℚ) : ℕ := (dividerOf target - dividerOf mhz).natAbs

theorem rampStep_gridMhz {target : ℚ} (htarget : bzmFrequencyRequestIsValid target = true)
    (hmin : 128 ≤ c) (hbelow : c < dividerOf target) :
    RampStep target (gridMhz c) (gridMhz (rampDivider c (dividerOf target))) := by
  obtain ⟨-, htmax⟩ := dividerOf_mem target
  have hnear := abs_le.mp (resolvedMhz_near htarget)
  rw [resolvedMhz_eq] at hnear
  have hrise : c < rampDivider c (dividerOf target) := by
    unfold rampDivider
    split <;> omega
  have hgoal : rampDivider c (dividerOf target) ≤ dividerOf target := min_le_right _ _
  constructor
  · exact ⟨gridFrequency_iff.mpr ⟨c, hmin, by omega, rfl⟩,
      gridFrequency_iff.mpr ⟨_, by omega, by omega, rfl⟩⟩
  · exact gridMhz_lt.mpr hrise
  · rw [resolvedMhz_eq]
    exact gridMhz_le.mpr hgoal
  · by_cases hjump : c = 128 ∧ 144 < dividerOf target
    · right
      -- the jump ends 100 MHz below the goal
      have hend : rampDivider c (dividerOf target) ≤ dividerOf target - 16 ∧
          rampDivider c (dividerOf target) ≤ 228 := by
        rw [rampDivider, if_pos hjump]
        omega
      have hlow := gridMhz_le.mpr hend.1
      have hcap := gridMhz_le.mpr hend.2
      unfold gridMhz at *
      push_cast at hlow hcap
      refine ⟨?_, ?_, ?_⟩
      · rw [hjump.1, powerOn_eq]
        rfl
      · unfold BZM_FREQUENCY_INITIAL_MAX_MHZ
        linarith
      · linarith [hnear.2]
    · left
      rw [gridMhz_add_four, gridMhz_le, rampDivider, if_neg hjump]
      exact min_le_left _ _

theorem ramp_reaches {target : ℚ} (htarget : bzmFrequencyRequestIsValid target = true) :
    ∃ n, Reaches (fun f => bzmFrequencyNextRampMhz f target) (RampStep target)
      BZM_FREQUENCY_POWER_ON_MHZ (resolvedMhz target) n := by
  obtain ⟨htmin, htmax⟩ := dividerOf_mem target
  rw [resolvedMhz_eq, powerOn_eq]
  refine exists_reaches (fun f => ∃ c, 128 ≤ c ∧ c ≤ dividerOf target ∧ f = gridMhz c)
    (dividersTo target) (by rw [nextRamp_gridMhz htmin htarget, if_pos le_rfl]) ?_
    ⟨128, le_rfl, htmin, rfl⟩
  rintro a ⟨c, hmin, hmax, rfl⟩ hne
  have hbelow : c < dividerOf target := lt_of_le_of_ne hmax fun heq => hne (heq ▸ rfl)
  have hrise : c < rampDivider c (dividerOf target) := by
    unfold rampDivider
    split <;> omega
  have hgoal : rampDivider c (dividerOf target) ≤ dividerOf target := min_le_right _ _
  refine ⟨gridMhz (rampDivider c (dividerOf target)), ?_, ⟨_, by omega, hgoal, rfl⟩,
    rampStep_gridMhz htarget hmin hbelow, ?_⟩
  · rw [nextRamp_gridMhz hmin htarget, if_neg (not_le.mpr hbelow)]
  · unfold dividersTo
    rw [dividerOf_gridMhz hmin (by omega), dividerOf_gridMhz (by omega) (by omega)]
    omega

theorem liveRamp_reaches {target start : ℚ} (htarget : bzmFrequencyRequestIsValid target = true)
    (hstart : GridFrequency start) :
    ∃ n, Reaches (fun f => bzmFrequencyNextLiveRampMhz f target) (LiveRampStep start target)
      start (resolvedMhz target) n := by
  obtain ⟨htmin, htmax⟩ := dividerOf_mem target
  obtain ⟨s, hsmin, hsmax, rfl⟩ := gridFrequency_iff.mp hstart
  rw [resolvedMhz_eq]
  refine exists_reaches (fun f => ∃ c, 128 ≤ c ∧ c ≤ 320 ∧ (s ≤ dividerOf target →
      c ≤ dividerOf target) ∧ (dividerOf target ≤ s → dividerOf target ≤ c) ∧ f = gridMhz c)
    (dividersTo target) (by rw [nextLiveRamp_gridMhz htmin htmax htarget, if_pos rfl]) ?_
    ⟨s, hsmin, hsmax, id, id, rfl⟩
  rintro a ⟨c, hmin, hmax, hlow, hhigh, rfl⟩ hne
  have hdiffer : c ≠ dividerOf target := fun heq => hne (heq ▸ rfl)
  have hbetween : (c < liveDivider c (dividerOf target) ∧
        liveDivider c (dividerOf target) ≤ dividerOf target ∧ c < dividerOf target ∨
      liveDivider c (dividerOf target) < c ∧ dividerOf target ≤ liveDivider c (dividerOf target) ∧
        dividerOf target < c) ∧
      liveDivider c (dividerOf target) - c ≤ 4 ∧ c - liveDivider c (dividerOf target) ≤ 4 := by
    unfold liveDivider
    split <;> omega
  generalize hnext : liveDivider c (dividerOf target) = d at hbetween
  refine ⟨gridMhz d, ?_, ⟨d, by omega, by omega, by omega, by omega, rfl⟩, ?_, ?_⟩
  · rw [nextLiveRamp_gridMhz hmin hmax htarget, if_neg hdiffer, hnext]
  · constructor
    · exact ⟨gridFrequency_iff.mpr ⟨c, hmin, hmax, rfl⟩,
        gridFrequency_iff.mpr ⟨d, by omega, by omega, rfl⟩⟩
    · rw [resolvedMhz_eq, gridMhz_le, gridMhz_lt, gridMhz_le]
      omega
    · rw [resolvedMhz_eq, gridMhz_le, gridMhz_lt, gridMhz_le]
      omega
    · have hup : gridMhz d ≤ gridMhz (c + 4) := gridMhz_le.mpr (by omega)
      have hdown : gridMhz c ≤ gridMhz (d + 4) := gridMhz_le.mpr (by omega)
      rw [← gridMhz_add_four] at hup hdown
      rw [abs_le]
      constructor <;> linarith
  · unfold dividersTo
    rw [dividerOf_gridMhz hmin hmax, dividerOf_gridMhz (by omega) (by omega)]
    omega

/-- **The two frequency ramps agree with their goal**, for every valid target and from
every start on the grid. -/
theorem bzmFrequency_ramps_exact (target : ℚ) (htarget : bzmFrequencyRequestIsValid target = true) :
    RampsExact target where
  ramp := ramp_reaches htarget
  live _ hstart := liveRamp_reaches htarget hstart
  grid := gridFrequency_iff.mpr ⟨dividerOf target, (dividerOf_mem target).1,
    (dividerOf_mem target).2, actualMhz_eq target⟩
  near := resolvedMhz_near htarget
  fixed := by
    unfold resolvedMhz
    rw [actualMhz_eq target, resolve_gridMhz (dividerOf_mem target).1 (dividerOf_mem target).2]
  monotone other hle := by
    unfold resolvedMhz
    rw [actualMhz_eq, actualMhz_eq, gridMhz_le]
    exact halfDown_mono (mul_le_mul_of_nonneg_left (clampFrequency_mono hle) (by norm_num))

theorem bzmFrequency_ramps_exact_off_grid : RampsExact (4003 / 4) :=
  bzmFrequency_ramps_exact (4003 / 4) (requestIsValid_iff.mpr (by norm_num))

end EspMiner
