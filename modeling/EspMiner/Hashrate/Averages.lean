import EspMiner.Asic.Job
import EspMiner.Library.BlendedMean
import Mathlib.Data.List.Induction
import Mathlib.Data.Rat.Cast.CharZero
import Mathlib.Tactic.NormNum

/-!
# The hashrate averages

`init_averages`, `calculate_avg_nan_safe` and `update_hashrate_averages` of
`main/tasks/hashrate_monitor_task.c` with exact numbers, where a slot that holds none is the
source's NaN.
-/

namespace EspMiner

open Library

def POLL_RATE : Nat := 1000
def HASHRATE_1M_SIZE : Nat := 60000 / POLL_RATE
def HASHRATE_10M_SIZE : Nat := 10
def HASHRATE_1H_SIZE : Nat := 6
def DIV_10M : Nat := HASHRATE_1M_SIZE
def DIV_1H : Nat := HASHRATE_10M_SIZE * DIV_10M

/-- The averages of `SystemModule` -/
structure SystemHashrates where
  hashrate1m : ℚ
  hashrate10m : ℚ
  hashrate1h : ℚ

/-- The static variables of the task, and what it tells the system; `poll_count` has the 32 bits
of the target's `unsigned long`. -/
structure HashrateAverages where
  pollCount : U32
  hashrate1m : Nat → Option ℚ
  hashrate10mPrev : Option ℚ
  hashrate10m : Nat → Option ℚ
  hashrate1hPrev : Option ℚ
  hashrate1h : Nat → Option ℚ
  system : SystemHashrates

/-- `sum` and `count` in `calculate_avg_nan_safe` -/
structure AvgTotals where
  sum : ℚ
  count : Nat

/-- One turn of the loop in `calculate_avg_nan_safe` -/
def AvgTotals.add (totals : AvgTotals) (value : Option ℚ) : AvgTotals :=
  match value with
  | none => totals
  | some value => ⟨totals.sum + value, totals.count + 1⟩

/-- `calculate_avg_nan_safe` -/
def calculateAvgNanSafe (arr : Nat → Option ℚ) (size : Nat) : ℚ :=
  let totals := (List.range size).foldl
    (fun (totals : AvgTotals) i => totals.add (arr i)) ⟨0, 0⟩
  if 0 < totals.count then totals.sum / totals.count else 0

/-- The blend of a value with the previous content of its slot, which `update_hashrate_averages`
makes twice -/
def blendPrev (blend size : Nat) (value : ℚ) (prev : Option ℚ) : ℚ :=
  match prev with
  | none => value
  | some prev =>
      let f : ℚ := ((blend : ℚ) + 1) / size
      f * value + (1 - f) * prev

namespace HashrateAverages

/-- The variables at the start of the program -/
def boot (system : SystemHashrates) : HashrateAverages :=
  ⟨0, fun _ => some 0, some 0, fun _ => some 0, some 0, fun _ => some 0, system⟩

/-- `init_averages` -/
def initAverages (s : HashrateAverages) : HashrateAverages :=
  { s with hashrate1m := fun _ => none, hashrate10m := fun _ => none, hashrate1h := fun _ => none }

/-- `update_hashrate_averages` for a `current_hashrate` -/
def updateHashrateAverages (s : HashrateAverages) (currentHashrate : ℚ) : HashrateAverages :=
  let count := s.pollCount.toNat
  let hashrate1m := Function.update s.hashrate1m (count % HASHRATE_1M_SIZE) (some currentHashrate)
  let average1m := calculateAvgNanSafe hashrate1m HASHRATE_1M_SIZE
  let hashrate10mBlend := count % HASHRATE_1M_SIZE
  let hashrate10mPrev :=
    if hashrate10mBlend = 0 then s.hashrate10m (count / DIV_10M % HASHRATE_10M_SIZE)
    else s.hashrate10mPrev
  let hashrate1mValue := blendPrev hashrate10mBlend HASHRATE_1M_SIZE average1m hashrate10mPrev
  let hashrate10m :=
    Function.update s.hashrate10m (count / DIV_10M % HASHRATE_10M_SIZE) (some hashrate1mValue)
  let average10m := calculateAvgNanSafe hashrate10m HASHRATE_10M_SIZE
  let hashrate1hBlend := count % DIV_1H
  let hashrate1hPrev :=
    if hashrate1hBlend = 0 then s.hashrate1h (count / DIV_1H % HASHRATE_1H_SIZE)
    else s.hashrate1hPrev
  let hashrate10mValue := blendPrev hashrate1hBlend DIV_1H average10m hashrate1hPrev
  let hashrate1h :=
    Function.update s.hashrate1h (count / DIV_1H % HASHRATE_1H_SIZE) (some hashrate10mValue)
  let average1h := calculateAvgNanSafe hashrate1h HASHRATE_1H_SIZE
  { pollCount := s.pollCount + 1
    hashrate1m := hashrate1m
    hashrate10mPrev := hashrate10mPrev
    hashrate10m := hashrate10m
    hashrate1hPrev := hashrate1hPrev
    hashrate1h := hashrate1h
    system := ⟨average1m, average10m, average1h⟩ }

/-- The variables after some samples -/
def afterSamples (system : SystemHashrates) (samples : List ℚ) : HashrateAverages :=
  samples.foldl updateHashrateAverages (boot system).initAverages

end HashrateAverages

/-! ## The hashrate averages are means of windows

What the rings hold is a function of the samples; at the ends of the blocks the averages are
plain means of the last samples, and between them they lie where these lie. -/

/-! ## The averages as functions of the samples -/

def minuteMean (xs : List ℚ) : ℚ := mean (lastOf HASHRATE_1M_SIZE xs)

def tenMinuteMean (xs : List ℚ) : ℚ := blendedMean HASHRATE_10M_SIZE DIV_10M minuteMean xs

def hourMean (xs : List ℚ) : ℚ := blendedMean HASHRATE_1H_SIZE DIV_1H tenMinuteMean xs

/-- The loop adds up what the slots hold. -/
theorem foldl_avgTotals (values : List (Option ℚ)) (totals : AvgTotals) :
    values.foldl AvgTotals.add totals =
      ⟨totals.sum + (values.filterMap id).sum, totals.count + (values.filterMap id).length⟩ := by
  induction values generalizing totals with
  | nil => simp
  | cons value values ih =>
    rw [List.foldl_cons, ih]
    cases value with
    | none => simp [AvgTotals.add]
    | some value =>
      simp only [AvgTotals.add, List.filterMap_cons, id_eq, List.sum_cons, List.length_cons]
      rw [add_assoc, Nat.add_assoc, Nat.add_comm 1]

theorem calculateAvgNanSafe_eq (arr : Nat → Option ℚ) (size : Nat) :
    calculateAvgNanSafe arr size = mean (((List.range size).map arr).filterMap id) := by
  have hfold := foldl_avgTotals ((List.range size).map arr) ⟨0, 0⟩
  rw [List.foldl_map, zero_add, Nat.zero_add] at hfold
  rw [calculateAvgNanSafe, hfold, mean]
  dsimp only
  split
  · rfl
  · next hnone =>
    rw [Nat.eq_zero_of_not_pos hnone, Nat.cast_zero, div_zero]

theorem calculateAvgNanSafe_of_fills {size : Nat} {ring : Nat → Option ℚ} {ys : List ℚ}
    (h : Fills size ring ys) (hsize : 0 < size) :
    calculateAvgNanSafe ring size = mean (lastOf size ys) := by
  rw [calculateAvgNanSafe_eq, mean_perm (h.perm hsize)]

/-! ## One sample -/

theorem blendPrev_eq (blend size : Nat) (value : ℚ) (prev : Option ℚ) :
    blendPrev blend size value prev =
      blendInto (((blend + 1 : Nat) : ℚ) / size) value prev := by
  cases prev with
  | none => rfl
  | some prev =>
    rw [Nat.cast_succ]
    rfl

namespace HashrateAverages

variable {s : HashrateAverages} {xs : List ℚ} {x : ℚ}

/-- The variables are those of the samples. -/
structure Tracks (s : HashrateAverages) (xs : List ℚ) : Prop where
  count : s.pollCount.toNat = xs.length
  minutes : Fills HASHRATE_1M_SIZE s.hashrate1m xs
  tenMinutes : Blends HASHRATE_10M_SIZE DIV_10M minuteMean s.hashrate10m s.hashrate10mPrev xs
  hours : Blends HASHRATE_1H_SIZE DIV_1H tenMinuteMean s.hashrate1h s.hashrate1hPrev xs

theorem tracks_initAverages (system : SystemHashrates) : (boot system).initAverages.Tracks [] where
  count := rfl
  minutes := fills_nil
  tenMinutes := blends_nil
  hours := blends_nil

section Update

variable (s : HashrateAverages) (x : ℚ)

theorem hashrate1m_update : (s.updateHashrateAverages x).hashrate1m =
    Function.update s.hashrate1m (s.pollCount.toNat % HASHRATE_1M_SIZE) (some x) := rfl

theorem hashrate10mPrev_update : (s.updateHashrateAverages x).hashrate10mPrev =
    if s.pollCount.toNat % DIV_10M = 0 then
      s.hashrate10m (s.pollCount.toNat / DIV_10M % HASHRATE_10M_SIZE)
    else s.hashrate10mPrev := rfl

theorem hashrate10m_update : (s.updateHashrateAverages x).hashrate10m =
    Function.update s.hashrate10m (s.pollCount.toNat / DIV_10M % HASHRATE_10M_SIZE)
      (some (blendInto (((s.pollCount.toNat % DIV_10M + 1 : Nat) : ℚ) / DIV_10M)
        (s.updateHashrateAverages x).system.hashrate1m
        (s.updateHashrateAverages x).hashrate10mPrev)) := by
  rw [← blendPrev_eq]
  rfl

theorem hashrate1hPrev_update : (s.updateHashrateAverages x).hashrate1hPrev =
    if s.pollCount.toNat % DIV_1H = 0 then
      s.hashrate1h (s.pollCount.toNat / DIV_1H % HASHRATE_1H_SIZE)
    else s.hashrate1hPrev := rfl

theorem hashrate1h_update : (s.updateHashrateAverages x).hashrate1h =
    Function.update s.hashrate1h (s.pollCount.toNat / DIV_1H % HASHRATE_1H_SIZE)
      (some (blendInto (((s.pollCount.toNat % DIV_1H + 1 : Nat) : ℚ) / DIV_1H)
        (s.updateHashrateAverages x).system.hashrate10m
        (s.updateHashrateAverages x).hashrate1hPrev)) := by
  rw [← blendPrev_eq]
  rfl

end Update

/-- A sample moves the three rings on, and the averages are those of the samples. -/
theorem Tracks.step (h : s.Tracks xs) (hlt : xs.length + 1 < 2 ^ 32) :
    (s.updateHashrateAverages x).Tracks (xs ++ [x]) ∧
      (s.updateHashrateAverages x).system =
        ⟨minuteMean (xs ++ [x]), tenMinuteMean (xs ++ [x]), hourMean (xs ++ [x])⟩ := by
  obtain ⟨hcount, hminutes, hten, hhours⟩ := h
  have hminutes' : Fills HASHRATE_1M_SIZE (s.updateHashrateAverages x).hashrate1m (xs ++ [x]) := by
    rw [hashrate1m_update, hcount]
    exact hminutes.update
  have hminute : (s.updateHashrateAverages x).system.hashrate1m = minuteMean (xs ++ [x]) :=
    calculateAvgNanSafe_of_fills hminutes' (by decide)
  have hprev := hashrate10mPrev_update s x
  have hring := hashrate10m_update s x
  rw [hcount] at hprev
  rw [hcount, hminute] at hring
  obtain ⟨hslots, hten'⟩ := hten.step (by decide) (by decide) hprev rfl
  rw [← hring] at hslots hten'
  have htenMinute : (s.updateHashrateAverages x).system.hashrate10m = tenMinuteMean (xs ++ [x]) :=
    calculateAvgNanSafe_of_fills hslots (by decide)
  have hprevHour := hashrate1hPrev_update s x
  have hringHour := hashrate1h_update s x
  rw [hcount] at hprevHour
  rw [hcount, htenMinute] at hringHour
  obtain ⟨hslotsHour, hhours'⟩ := hhours.step (by decide) (by decide) hprevHour rfl
  rw [← hringHour] at hslotsHour hhours'
  have hhour : (s.updateHashrateAverages x).system.hashrate1h = hourMean (xs ++ [x]) :=
    calculateAvgNanSafe_of_fills hslotsHour (by decide)
  refine ⟨⟨?_, hminutes', hten', hhours'⟩, ?_⟩
  · have hnext : (s.updateHashrateAverages x).pollCount = s.pollCount + 1 := rfl
    rw [hnext, List.length_append, List.length_singleton, BitVec.toNat_add, hcount]
    exact Nat.mod_eq_of_lt hlt
  · rw [← hminute, ← htenMinute, ← hhour]

/-- Every run of samples keeps the variables those of the samples. -/
theorem tracks_afterSamples (system : SystemHashrates) (hlt : xs.length < 2 ^ 32) :
    (afterSamples system xs).Tracks xs := by
  induction xs using List.reverseRecOn with
  | nil => exact tracks_initAverages system
  | append_singleton xs x ih =>
    rw [List.length_append, List.length_singleton] at hlt
    have hrun : afterSamples system (xs ++ [x]) =
        (afterSamples system xs).updateHashrateAverages x := by
      rw [afterSamples, List.foldl_append]
      rfl
    rw [hrun]
    exact ((ih (by omega)).step hlt).1

theorem system_afterSamples (system : SystemHashrates) (hne : xs ≠ []) (hlt : xs.length < 2 ^ 32) :
    (afterSamples system xs).system = ⟨minuteMean xs, tenMinuteMean xs, hourMean xs⟩ := by
  induction xs using List.reverseRecOn with
  | nil => exact absurd rfl hne
  | append_singleton xs x _ =>
    rw [List.length_append, List.length_singleton] at hlt
    rw [afterSamples, List.foldl_append]
    exact ((tracks_afterSamples system (by omega)).step hlt).2

end HashrateAverages

/-! ## What the averages are -/

section Averages

variable {xs : List ℚ}

theorem minuteMean_staysWithin (hne : xs ≠ []) :
    StaysWithin HASHRATE_1M_SIZE minuteMean xs := by
  intro lo hi hsamples
  exact mean_within (lastOf_ne_nil (by decide) hne) hsamples

theorem tenMinuteMean_boundary (hne : xs ≠ []) (hdvd : DIV_10M ∣ xs.length) :
    tenMinuteMean xs = mean (lastOf DIV_1H xs) :=
  blendedMean_boundary (by decide) hdvd hne fun _ _ => rfl

/-- The prefix that ends with a block is not empty. -/
theorem take_block_ne_nil {period j : Nat} (hperiod : 0 < period)
    (h : period * (j + 1) ≤ xs.length) : xs.take (period * (j + 1)) ≠ [] := by
  have hpos : 0 < period * (j + 1) := Nat.mul_pos hperiod (Nat.succ_pos j)
  intro hnil
  have hlength := congrArg List.length hnil
  rw [List.length_take, List.length_nil] at hlength
  omega

theorem tenMinuteMean_block {j : Nat} (h : DIV_1H * (j + 1) ≤ xs.length) :
    tenMinuteMean (xs.take (DIV_1H * (j + 1))) =
      mean (lastOf DIV_1H (xs.take (DIV_1H * (j + 1)))) := by
  refine tenMinuteMean_boundary (take_block_ne_nil (by decide) h) ?_
  rw [List.length_take, Nat.min_eq_left h, DIV_1H, Nat.mul_comm HASHRATE_10M_SIZE, Nat.mul_assoc]
  exact Nat.dvd_mul_right _ _

theorem hourMean_boundary (hne : xs ≠ []) (hdvd : DIV_1H ∣ xs.length) :
    hourMean xs = mean (lastOf (HASHRATE_1H_SIZE * DIV_1H) xs) :=
  blendedMean_boundary (by decide) hdvd hne fun _ hj => tenMinuteMean_block hj

theorem tenMinuteMean_staysWithin (hne : xs ≠ []) : StaysWithin 660 tenMinuteMean xs :=
  blendedMean_staysWithin (by decide) (by decide) hne (minuteMean_staysWithin hne)
    (fun _ hj => minuteMean_staysWithin (take_block_ne_nil (by decide) hj)) (by decide) (by decide)

/-- At the ends of its blocks the shorter average is a plain mean, so that the longer one reaches
less far back than two windows. -/
theorem hourMean_staysWithin (hne : xs ≠ []) : StaysWithin 4200 hourMean xs := by
  have hblocks : ∀ j, DIV_1H * (j + 1) ≤ xs.length →
      StaysWithin DIV_1H tenMinuteMean (xs.take (DIV_1H * (j + 1))) := by
    intro j hj lo hi hsamples
    rw [tenMinuteMean_block hj]
    exact mean_within (lastOf_ne_nil (by decide) (take_block_ne_nil (by decide) hj)) hsamples
  exact blendedMean_staysWithin (by decide) (by decide) hne (tenMinuteMean_staysWithin hne)
    hblocks (by decide) (by decide)

/-- A value lies between the least and the greatest of the last samples. -/
def BetweenExtremes (window : Nat) (xs : List ℚ) (value : ℚ) : Prop :=
  ∃ lo hi, IsLeast {x | x ∈ lastOf window xs} lo ∧ IsGreatest {x | x ∈ lastOf window xs} hi ∧
    lo ≤ value ∧ value ≤ hi

theorem betweenExtremes_of_staysWithin {window : Nat} {f : List ℚ → ℚ} (h : StaysWithin window f xs)
    (hwindow : 0 < window) (hne : xs ≠ []) : BetweenExtremes window xs (f xs) := by
  obtain ⟨lo, hi, hlo, hhi⟩ := exists_isLeast_isGreatest (lastOf_ne_nil hwindow hne)
  exact ⟨lo, hi, hlo, hhi, h lo hi fun x hx => ⟨hlo.2 hx, hhi.2 hx⟩⟩

end Averages

/-- **The averages are means of windows.**  The minute's is one after every sample, the others
are at the ends of their blocks, and between these they lie between the extremes of the last
samples. -/
theorem hashrateAverages_exact (system : SystemHashrates) (samples : List ℚ)
    (hne : samples ≠ []) (hlt : samples.length < 2 ^ 32) :
    (HashrateAverages.afterSamples system samples).system.hashrate1m =
        mean (lastOf 60 samples) ∧
      (60 ∣ samples.length →
        (HashrateAverages.afterSamples system samples).system.hashrate10m =
          mean (lastOf 600 samples)) ∧
      (600 ∣ samples.length →
        (HashrateAverages.afterSamples system samples).system.hashrate1h =
          mean (lastOf 3600 samples)) ∧
      BetweenExtremes 660 samples
        (HashrateAverages.afterSamples system samples).system.hashrate10m ∧
      BetweenExtremes 4200 samples
        (HashrateAverages.afterSamples system samples).system.hashrate1h := by
  rw [HashrateAverages.system_afterSamples system hne hlt]
  exact ⟨rfl, tenMinuteMean_boundary hne, hourMean_boundary hne,
    betweenExtremes_of_staysWithin (tenMinuteMean_staysWithin hne) (by decide) hne,
    betweenExtremes_of_staysWithin (hourMean_staysWithin hne) (by decide) hne⟩

theorem hashrateAverages_exact_constant :
    (HashrateAverages.afterSamples ⟨0, 0, 0⟩ (List.replicate 600 5)).system.hashrate10m = 5 ∧
      (HashrateAverages.afterSamples ⟨0, 0, 0⟩ (List.replicate 600 5)).system.hashrate1h = 5 := by
  have hlength : (List.replicate 600 (5 : ℚ)).length = 600 := List.length_replicate
  have hne : List.replicate 600 (5 : ℚ) ≠ [] := by
    intro h
    rw [h] at hlength
    cases hlength
  obtain ⟨-, hten, hhour, -, -⟩ := hashrateAverages_exact ⟨0, 0, 0⟩ (List.replicate 600 5) hne
    (by rw [hlength]; decide)
  have hmean : ∀ size, 600 ≤ size → mean (lastOf size (List.replicate 600 (5 : ℚ))) = 5 := by
    intro size hsize
    rw [lastOf_eq_self (by rw [hlength]; exact hsize), mean, List.sum_replicate, hlength,
      nsmul_eq_mul, mul_div_cancel_left₀ _ (by norm_num)]
  rw [hten (by rw [hlength]; decide), hhour (by rw [hlength])]
  exact ⟨hmean 600 le_rfl, hmean 3600 (by decide)⟩

end EspMiner
