import EspMiner.Asic.Job
import EspMiner.Library.Iteration
import EspMiner.Library.Rounding
import Mathlib.Data.Rat.Floor

/-!
# Frequencies of the hash clocks

`components/asic/bzm_frequency.c`, with exact rationals for the `float` values: a
frequency is resolved to the grid of the PLL's feedback divider, and the two ramps move a
clock towards a target.
-/

namespace EspMiner

open Library

def BZM_REFERENCE_MHZ : ℚ := 50
def BZM_REFERENCE_DIVIDER : ℚ := 2
def BZM_POST1_DIVIDER : ℚ := 1
def BZM_POST2_DIVIDER : ℚ := 1
def BZM_FREQUENCY_EPSILON_MHZ : ℚ := 1 / 1000
def BZM_FREQUENCY_POWER_ON_MHZ : ℚ := 800
def BZM_FREQUENCY_TARGET_MIN_MHZ : ℚ := 800
def BZM_FREQUENCY_TARGET_MAX_MHZ : ℚ := 2000
def BZM_FREQUENCY_INITIAL_OFFSET_MHZ : ℚ := 100
def BZM_FREQUENCY_INITIAL_MAX_MHZ : ℚ := 1425
def BZM_FREQUENCY_RAMP_STEP_MHZ : ℚ := 25

/-- `bzm_frequency_target_t` -/
structure BzmFrequencyTarget where
  requestedMhz : ℚ
  actualMhz : ℚ
  feedbackDivider : U16
  postdivRegister : U32

/-- `clamp_frequency` -/
def clampFrequency (frequencyMhz minimumMhz maximumMhz : ℚ) : ℚ :=
  if frequencyMhz < minimumMhz then minimumMhz
  else if maximumMhz < frequencyMhz then maximumMhz
  else frequencyMhz

/-- `bzm_frequency_request_is_valid` -/
def bzmFrequencyRequestIsValid (requestedMhz : ℚ) : Bool :=
  decide (BZM_FREQUENCY_TARGET_MIN_MHZ ≤ requestedMhz ∧
    requestedMhz ≤ BZM_FREQUENCY_TARGET_MAX_MHZ)

/-- `bzm_frequency_resolve_target`, which succeeds on every rational. -/
def bzmFrequencyResolveTarget (requestedMhz : ℚ) : BzmFrequencyTarget :=
  let clampedMhz :=
    clampFrequency requestedMhz BZM_FREQUENCY_TARGET_MIN_MHZ BZM_FREQUENCY_TARGET_MAX_MHZ
  let scale := BZM_REFERENCE_DIVIDER * (BZM_POST1_DIVIDER + 1) * (BZM_POST2_DIVIDER + 1)
  let feedback := scale * clampedMhz / BZM_REFERENCE_MHZ
  let truncated := BitVec.ofNat 16 ⌊feedback⌋.toNat
  -- exact half-divider ties stay at the lower value
  let feedbackDivider :=
    if 1 / 2 < feedback - (truncated.toNat : ℚ) then truncated + 1 else truncated
  { requestedMhz := requestedMhz
    actualMhz := BZM_REFERENCE_MHZ * (feedbackDivider.toNat : ℚ) / scale
    feedbackDivider := feedbackDivider
    postdivRegister := (1#32 <<< 12) ||| (1#32 <<< 9) ||| (1#32 <<< 6) ||| 2#32 }

/-- `bzm_frequency_initial_mhz` -/
def bzmFrequencyInitialMhz (targetMhz : ℚ) : ℚ :=
  let initialMhz := clampFrequency
    ((bzmFrequencyResolveTarget targetMhz).actualMhz - BZM_FREQUENCY_INITIAL_OFFSET_MHZ)
    BZM_FREQUENCY_TARGET_MIN_MHZ BZM_FREQUENCY_INITIAL_MAX_MHZ
  (bzmFrequencyResolveTarget initialMhz).actualMhz

/-- `bzm_frequency_next_ramp_mhz` -/
def bzmFrequencyNextRampMhz (currentMhz targetMhz : ℚ) : Option ℚ :=
  if bzmFrequencyRequestIsValid targetMhz = false ∨
      currentMhz < BZM_FREQUENCY_POWER_ON_MHZ - BZM_FREQUENCY_EPSILON_MHZ then none
  else
    let targetMhz := (bzmFrequencyResolveTarget targetMhz).actualMhz
    if targetMhz - BZM_FREQUENCY_EPSILON_MHZ ≤ currentMhz then none
    else
      let candidateMhz :=
        if |currentMhz - BZM_FREQUENCY_POWER_ON_MHZ| ≤ BZM_FREQUENCY_EPSILON_MHZ then
          let initialMhz := bzmFrequencyInitialMhz targetMhz
          if initialMhz ≤ currentMhz + BZM_FREQUENCY_EPSILON_MHZ then
            currentMhz + BZM_FREQUENCY_RAMP_STEP_MHZ
          else initialMhz
        else currentMhz + BZM_FREQUENCY_RAMP_STEP_MHZ
      let candidateMhz := if targetMhz < candidateMhz then targetMhz else candidateMhz
      let resolved := bzmFrequencyResolveTarget candidateMhz
      if resolved.actualMhz ≤ currentMhz + BZM_FREQUENCY_EPSILON_MHZ then none
      else some resolved.actualMhz

/-- `bzm_frequency_next_live_ramp_mhz` -/
def bzmFrequencyNextLiveRampMhz (currentMhz targetMhz : ℚ) : Option ℚ :=
  let resolvedCurrent := bzmFrequencyResolveTarget currentMhz
  if bzmFrequencyRequestIsValid currentMhz = false ∨ bzmFrequencyRequestIsValid targetMhz = false ∨
      BZM_FREQUENCY_EPSILON_MHZ ≤ |resolvedCurrent.actualMhz - currentMhz| then none
  else
    let currentMhz := resolvedCurrent.actualMhz
    let targetMhz := (bzmFrequencyResolveTarget targetMhz).actualMhz
    let deltaMhz := targetMhz - currentMhz
    if |deltaMhz| < BZM_FREQUENCY_EPSILON_MHZ then none
    else
      let candidateMhz := currentMhz +
        if 0 < deltaMhz then BZM_FREQUENCY_RAMP_STEP_MHZ else -BZM_FREQUENCY_RAMP_STEP_MHZ
      let candidateMhz :=
        if (0 < deltaMhz ∧ targetMhz < candidateMhz) ∨
            (deltaMhz < 0 ∧ candidateMhz < targetMhz) then targetMhz
        else candidateMhz
      let resolvedNext := bzmFrequencyResolveTarget candidateMhz
      if |resolvedNext.actualMhz - currentMhz| < BZM_FREQUENCY_EPSILON_MHZ then none
      else some resolvedNext.actualMhz

/-! ### The grid -/

/-- The frequency of a feedback divider. -/
def gridMhz (divider : ℤ) : ℚ := 25 / 4 * divider

/-- A frequency of the grid, in range. -/
def GridFrequency (mhz : ℚ) : Prop :=
  BZM_FREQUENCY_TARGET_MIN_MHZ ≤ mhz ∧ mhz ≤ BZM_FREQUENCY_TARGET_MAX_MHZ ∧
    ∃ divider, mhz = gridMhz divider

/-- The divider that a request is resolved to. -/
def dividerOf (requestedMhz : ℚ) : ℤ :=
  halfDown (4 / 25 * clampFrequency requestedMhz 800 2000)

theorem clampFrequency_mem (mhz : ℚ) :
    800 ≤ clampFrequency mhz 800 2000 ∧ clampFrequency mhz 800 2000 ≤ 2000 := by
  unfold clampFrequency
  split
  · norm_num
  · split
    · norm_num
    · constructor <;> linarith

theorem clampFrequency_mono {a b : ℚ} (h : a ≤ b) :
    clampFrequency a 800 2000 ≤ clampFrequency b 800 2000 := by
  unfold clampFrequency
  split <;> split <;> (try split) <;> (try split) <;> linarith

theorem requestIsValid_iff {mhz : ℚ} :
    bzmFrequencyRequestIsValid mhz = true ↔ 800 ≤ mhz ∧ mhz ≤ 2000 := decide_eq_true_iff

theorem clampFrequency_of_valid {mhz : ℚ} (h : bzmFrequencyRequestIsValid mhz = true) :
    clampFrequency mhz 800 2000 = mhz := by
  obtain ⟨hmin, hmax⟩ := requestIsValid_iff.mp h
  rw [clampFrequency, if_neg (not_lt.mpr hmin), if_neg (not_lt.mpr hmax)]

theorem dividerOf_mem (mhz : ℚ) : 128 ≤ dividerOf mhz ∧ dividerOf mhz ≤ 320 := by
  obtain ⟨hmin, hmax⟩ := clampFrequency_mem mhz
  have hlow : halfDown (((128 : ℤ) : ℚ)) ≤ dividerOf mhz := halfDown_mono (by push_cast; linarith)
  have hhigh : dividerOf mhz ≤ halfDown (((320 : ℤ) : ℚ)) := halfDown_mono (by push_cast; linarith)
  rw [halfDown_intCast] at hlow hhigh
  exact ⟨hlow, hhigh⟩

/-- The divider of the code is the nearest one. -/
theorem feedbackDivider_eq (mhz : ℚ) :
    ((bzmFrequencyResolveTarget mhz).feedbackDivider.toNat : ℤ) = dividerOf mhz := by
  obtain ⟨hmin, hmax⟩ := clampFrequency_mem mhz
  have hdivider := dividerOf_mem mhz
  have hfeedback : BZM_REFERENCE_DIVIDER * (BZM_POST1_DIVIDER + 1) * (BZM_POST2_DIVIDER + 1) *
      clampFrequency mhz 800 2000 / BZM_REFERENCE_MHZ = 4 / 25 * clampFrequency mhz 800 2000 := by
    unfold BZM_REFERENCE_DIVIDER BZM_POST1_DIVIDER BZM_POST2_DIVIDER BZM_REFERENCE_MHZ
    ring
  have hfloor : 128 ≤ ⌊4 / 25 * clampFrequency mhz 800 2000⌋ ∧
      ⌊4 / 25 * clampFrequency mhz 800 2000⌋ ≤ 320 := by
    constructor
    · exact Int.le_floor.mpr (by push_cast; linarith)
    · exact Int.floor_le_iff.mpr (by push_cast; linarith)
  obtain ⟨n, hn⟩ := Int.eq_ofNat_of_zero_le (Int.le_trans (by decide) hfloor.1)
  rw [hn] at hfloor
  have htruncated : (BitVec.ofNat 16 ((n : ℤ)).toNat).toNat = n := by
    rw [Int.toNat_natCast, BitVec.toNat_ofNat]
    exact Nat.mod_eq_of_lt (by omega)
  simp only [bzmFrequencyResolveTarget, BZM_FREQUENCY_TARGET_MIN_MHZ, BZM_FREQUENCY_TARGET_MAX_MHZ,
    hfeedback, dividerOf, halfDown, hn, htruncated]
  push_cast
  split
  · rw [BitVec.toNat_add, htruncated, Nat.mod_eq_of_lt]
    · rfl
    · rw [show (1#16).toNat = 1 from rfl]
      omega
  · rw [htruncated]

theorem actualMhz_eq (mhz : ℚ) :
    (bzmFrequencyResolveTarget mhz).actualMhz = gridMhz (dividerOf mhz) := by
  have hactual : (bzmFrequencyResolveTarget mhz).actualMhz = BZM_REFERENCE_MHZ *
      ((bzmFrequencyResolveTarget mhz).feedbackDivider.toNat : ℤ) /
        (BZM_REFERENCE_DIVIDER * (BZM_POST1_DIVIDER + 1) * (BZM_POST2_DIVIDER + 1)) := rfl
  rw [hactual, feedbackDivider_eq, gridMhz]
  unfold BZM_REFERENCE_DIVIDER BZM_POST1_DIVIDER BZM_POST2_DIVIDER BZM_REFERENCE_MHZ
  ring

/-- A frequency of the grid is resolved to itself. -/
theorem dividerOf_gridMhz {divider : ℤ} (hmin : 128 ≤ divider) (hmax : divider ≤ 320) :
    dividerOf (gridMhz divider) = divider := by
  have hmin' : (128 : ℚ) ≤ divider := by exact_mod_cast hmin
  have hmax' : (divider : ℚ) ≤ 320 := by exact_mod_cast hmax
  have hvalid : bzmFrequencyRequestIsValid (gridMhz divider) = true :=
    requestIsValid_iff.mpr (by unfold gridMhz; constructor <;> linarith)
  rw [dividerOf, clampFrequency_of_valid hvalid, gridMhz,
    show 4 / 25 * (25 / 4 * (divider : ℚ)) = divider by ring, halfDown_intCast]

end EspMiner
