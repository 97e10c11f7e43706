import EspMiner.Asic.Job
import EspMiner.Library.Ring
import EspMiner.Library.Run
import Mathlib.Data.List.Induction
import Mathlib.Data.List.Pairwise

/-!
# The hashrate counter window

`components/hashrate_counter_window/hashrate_counter_window.c`: the last snapshots of a
counter in a ring, and the difference to the youngest one that is old enough.
-/

namespace EspMiner

open Library

def HASHRATE_COUNTER_WINDOW_SECONDS : Nat := 30
def HASHRATE_COUNTER_WINDOW_US : U64 := 30000000#64
def HASHRATE_COUNTER_WINDOW_SNAPSHOTS : Nat := HASHRATE_COUNTER_WINDOW_SECONDS + 2
def UINT64_MAX : U64 := 0xFFFFFFFFFFFFFFFF#64

/-- `hashrate_counter_snapshot_t` -/
structure HashrateCounterSnapshot where
  value : U32
  timeUs : U64
deriving DecidableEq, Repr

/-- `hashrate_counter_window_t` -/
structure HashrateCounterWindow where
  snapshots : Nat → HashrateCounterSnapshot
  next : Nat
  count : Nat

/-- `baseline` and `baseline_age_us` in the search of the ring -/
structure HashrateCounterBaseline where
  baseline : Option HashrateCounterSnapshot
  ageUs : U64
deriving DecidableEq

namespace HashrateCounterWindow

/-- `hashrate_counter_window_reset` -/
def reset : HashrateCounterWindow := ⟨fun _ => ⟨0, 0⟩, 0, 0⟩

/-- The cell of the last snapshot -/
def latest (w : HashrateCounterWindow) : Nat :=
  if w.next = 0 then HASHRATE_COUNTER_WINDOW_SNAPSHOTS - 1 else w.next - 1

/-- The time is not after the last snapshot. -/
def isStale (w : HashrateCounterWindow) (timeUs : U64) : Bool :=
  decide (0 < w.count) && decide (timeUs ≤ (w.snapshots w.latest).timeUs)

/-- The snapshot is written over the oldest one. -/
def record (w : HashrateCounterWindow) (snapshot : HashrateCounterSnapshot) :
    HashrateCounterWindow where
  snapshots := Function.update w.snapshots w.next snapshot
  next := (w.next + 1) % HASHRATE_COUNTER_WINDOW_SNAPSHOTS
  count := if w.count < HASHRATE_COUNTER_WINDOW_SNAPSHOTS then w.count + 1 else w.count

/-- One turn of the search: the cell `i` with the snapshot of the call in `current`. -/
def consider (w : HashrateCounterWindow) (current : Nat) (timeUs : U64)
    (best : HashrateCounterBaseline) (i : Nat) : HashrateCounterBaseline :=
  let candidate := w.snapshots i
  if i = current ∨ timeUs ≤ candidate.timeUs then best
  else
    let ageUs := timeUs - candidate.timeUs
    if HASHRATE_COUNTER_WINDOW_US ≤ ageUs ∧ ageUs < best.ageUs then ⟨some candidate, ageUs⟩
    else best

/-- The search over all cells in use -/
def search (w : HashrateCounterWindow) (current : Nat) (timeUs : U64) : HashrateCounterBaseline :=
  (List.range w.count).foldl (w.consider current timeUs) ⟨none, UINT64_MAX⟩

/-- `hashrate_counter_window_update`: the window, and `counter_delta` and `duration_us` when
it returns true. -/
def update (w : HashrateCounterWindow) (value : U32) (timeUs : U64) :
    HashrateCounterWindow × Option (U32 × U64) :=
  if w.isStale timeUs then (w, none)
  else
    let current := w.next
    let w := w.record ⟨value, timeUs⟩
    let found := w.search current timeUs
    match found.baseline with
    | none => (w, none)
    | some baseline => (w, some (value - baseline.value, found.ageUs))

/-- The window after a sequence of calls from reset -/
def after (calls : List HashrateCounterSnapshot) : HashrateCounterWindow :=
  run (fun w call => (w.update call.value call.timeUs).1) reset calls

end HashrateCounterWindow

/-! ## What the hashrate counter window measures

After any calls the ring holds the last snapshots that were recorded, and the search
finds the youngest one that is old enough, except where its age is the largest number
there is. -/

/-! ## The recorded snapshots -/

/-- The time is later than every recorded one. -/
def isLater (recorded : List HashrateCounterSnapshot) (timeUs : U64) : Bool :=
  recorded.all fun s => decide (s.timeUs < timeUs)

/-- The calls that count, oldest first. -/
def recordedSnapshots (calls : List HashrateCounterSnapshot) : List HashrateCounterSnapshot :=
  calls.foldl (fun recorded call =>
    if isLater recorded call.timeUs then recorded ++ [call] else recorded) []

/-- Of the snapshots recorded just before a time, the newest that is old enough. -/
def newestOldEnough (recorded : List HashrateCounterSnapshot) (timeUs : U64) :
    Option HashrateCounterSnapshot :=
  (recorded.reverse.take (HASHRATE_COUNTER_WINDOW_SNAPSHOTS - 1)).find? fun s =>
    decide (HASHRATE_COUNTER_WINDOW_US ≤ timeUs - s.timeUs)

theorem isLater_iff {recorded : List HashrateCounterSnapshot} {timeUs : U64} :
    isLater recorded timeUs = true ↔ ∀ s ∈ recorded, s.timeUs < timeUs := by
  simp [isLater]

theorem recordedSnapshots_append (calls : List HashrateCounterSnapshot)
    (call : HashrateCounterSnapshot) :
    recordedSnapshots (calls ++ [call]) =
      if isLater (recordedSnapshots calls) call.timeUs then recordedSnapshots calls ++ [call]
      else recordedSnapshots calls := by
  rw [recordedSnapshots, List.foldl_append]
  rfl

/-- Recorded snapshots are in the order of their times. -/
theorem pairwise_recordedSnapshots (calls : List HashrateCounterSnapshot) :
    (recordedSnapshots calls).Pairwise fun s s' => s.timeUs < s'.timeUs := by
  induction calls using List.reverseRecOn with
  | nil => exact List.Pairwise.nil
  | append_singleton calls call ih =>
    rw [recordedSnapshots_append]
    split
    · next hlater =>
      rw [List.pairwise_append]
      refine ⟨ih, List.pairwise_singleton _ _, ?_⟩
      intro s hs s' hs'
      rw [List.mem_singleton.mp hs']
      exact isLater_iff.mp hlater s hs
    · exact ih

namespace HashrateCounterWindow

variable {w : HashrateCounterWindow} {recorded : List HashrateCounterSnapshot} {timeUs : U64}

/-! ## The ring -/

/-- The ring holds the end of what was recorded. -/
structure Holds (w : HashrateCounterWindow) (recorded : List HashrateCounterSnapshot) : Prop where
  retains : Ring.Retains HASHRATE_COUNTER_WINDOW_SNAPSHOTS w.snapshots recorded
  next : w.next = recorded.length % HASHRATE_COUNTER_WINDOW_SNAPSHOTS
  count : w.count = min recorded.length HASHRATE_COUNTER_WINDOW_SNAPSHOTS

theorem holds_reset : reset.Holds [] where
  retains := fun p hp => absurd hp (Nat.not_lt_zero p)
  next := rfl
  count := rfl

theorem Holds.record (h : w.Holds recorded) (snapshot : HashrateCounterSnapshot) :
    (w.record snapshot).Holds (recorded ++ [snapshot]) := by
  obtain ⟨hretains, hnext, hcount⟩ := h
  have hsize : HASHRATE_COUNTER_WINDOW_SNAPSHOTS = 32 := rfl
  refine ⟨?_, ?_, ?_⟩
  · have hone : [snapshot].length ≤ HASHRATE_COUNTER_WINDOW_SNAPSHOTS := by
      rw [List.length_singleton]
      decide
    have hwrite := hretains.write hone
    rw [Ring.write_singleton (by decide), ← hnext] at hwrite
    exact hwrite
  · show (w.next + 1) % HASHRATE_COUNTER_WINDOW_SNAPSHOTS = _
    rw [hnext, Nat.mod_add_mod, List.length_append, List.length_singleton]
  · show (if w.count < HASHRATE_COUNTER_WINDOW_SNAPSHOTS then w.count + 1 else w.count) = _
    rw [hcount, List.length_append, List.length_singleton]
    split <;> omega

/-- The last snapshot is the one recorded last. -/
theorem Holds.snapshots_latest (h : w.Holds recorded) (hne : recorded ≠ []) :
    w.snapshots w.latest = recorded.getLast hne := by
  have hpositive := List.length_pos_iff.mpr hne
  have hsize : HASHRATE_COUNTER_WINDOW_SNAPSHOTS = 32 := rfl
  have hlatest : w.latest = (recorded.length - 1) % HASHRATE_COUNTER_WINDOW_SNAPSHOTS := by
    rw [latest, h.next, hsize]
    split <;> omega
  rw [hlatest, h.retains _ (by omega) (by omega), List.getLast_eq_getElem]

/-- A time is stale unless it is later than every recorded one. -/
theorem Holds.isStale_eq (h : w.Holds recorded)
    (hsorted : recorded.Pairwise fun s s' => s.timeUs < s'.timeUs) :
    w.isStale timeUs = !isLater recorded timeUs := by
  by_cases hne : recorded = []
  · subst hne
    have hcount : w.count = 0 := h.count
    simp [isStale, hcount, isLater]
  · have hpositive : 0 < w.count := by
      have hlength := List.length_pos_iff.mpr hne
      rw [h.count]
      exact Nat.lt_min.mpr ⟨hlength, by decide⟩
    have hlast : isLater recorded timeUs = decide ((recorded.getLast hne).timeUs < timeUs) := by
      apply Bool.eq_iff_iff.mpr
      rw [isLater_iff, decide_eq_true_eq]
      constructor
      · intro hall
        exact hall _ (List.getLast_mem hne)
      · intro hlt s hs
        rw [← List.dropLast_concat_getLast hne, List.pairwise_append] at hsorted
        rw [← List.dropLast_concat_getLast hne, List.mem_append, List.mem_singleton] at hs
        rcases hs with hs | rfl
        · exact BitVec.lt_trans (hsorted.2.2 s hs _ (List.mem_singleton_self _)) hlt
        · exact hlt
    rw [isStale, decide_eq_true hpositive, Bool.true_and, h.snapshots_latest hne, hlast]
    simp [← BitVec.not_lt]

/-! ## The search -/

/-- The search as far as the snapshot in a cell decides. -/
def considerSnapshot (timeUs : U64) (best : HashrateCounterBaseline)
    (candidate : HashrateCounterSnapshot) : HashrateCounterBaseline :=
  if timeUs ≤ candidate.timeUs then best
  else if HASHRATE_COUNTER_WINDOW_US ≤ timeUs - candidate.timeUs ∧
      timeUs - candidate.timeUs < best.ageUs then ⟨some candidate, timeUs - candidate.timeUs⟩
  else best

/-- The candidate can become the baseline. -/
def Qualifies (timeUs : U64) (candidate : HashrateCounterSnapshot) : Prop :=
  candidate.timeUs < timeUs ∧ HASHRATE_COUNTER_WINDOW_US ≤ timeUs - candidate.timeUs ∧
    timeUs - candidate.timeUs < UINT64_MAX

/-- What the search has found among `candidates`: the youngest that qualifies. -/
inductive FoundIn (timeUs : U64) (candidates : List HashrateCounterSnapshot) :
    HashrateCounterBaseline → Prop
  | nothing (h : ∀ s ∈ candidates, ¬ Qualifies timeUs s) :
      FoundIn timeUs candidates ⟨none, UINT64_MAX⟩
  | youngest (s : HashrateCounterSnapshot) (hmem : s ∈ candidates) (hqualifies : Qualifies timeUs s)
      (hleast : ∀ s' ∈ candidates, Qualifies timeUs s' →
        timeUs - s.timeUs ≤ timeUs - s'.timeUs) :
      FoundIn timeUs candidates ⟨some s, timeUs - s.timeUs⟩

theorem considerSnapshot_of_better {best : HashrateCounterBaseline}
    {candidate : HashrateCounterSnapshot} (h : candidate.timeUs < timeUs)
    (hold : HASHRATE_COUNTER_WINDOW_US ≤ timeUs - candidate.timeUs)
    (hyounger : timeUs - candidate.timeUs < best.ageUs) :
    considerSnapshot timeUs best candidate = ⟨some candidate, timeUs - candidate.timeUs⟩ := by
  rw [considerSnapshot, if_neg (BitVec.not_le.mpr h), if_pos ⟨hold, hyounger⟩]

theorem considerSnapshot_of_not_better {best : HashrateCounterBaseline}
    {candidate : HashrateCounterSnapshot}
    (h : ¬ (candidate.timeUs < timeUs ∧ HASHRATE_COUNTER_WINDOW_US ≤ timeUs - candidate.timeUs ∧
      timeUs - candidate.timeUs < best.ageUs)) :
    considerSnapshot timeUs best candidate = best := by
  rw [considerSnapshot]
  split
  · rfl
  · next hnewer =>
    exact if_neg fun hbetter => h ⟨BitVec.not_le.mp hnewer, hbetter⟩

theorem FoundIn.consider {candidates : List HashrateCounterSnapshot}
    {best : HashrateCounterBaseline} (h : FoundIn timeUs candidates best)
    (candidate : HashrateCounterSnapshot) :
    FoundIn timeUs (candidates ++ [candidate]) (considerSnapshot timeUs best candidate) := by
  cases h with
  | nothing hnone =>
    by_cases hqualifies : Qualifies timeUs candidate
    · rw [considerSnapshot_of_better hqualifies.1 hqualifies.2.1 hqualifies.2.2]
      refine .youngest candidate (List.mem_append_right _ (List.mem_singleton_self _)) hqualifies ?_
      intro s hs hs'
      rcases List.mem_append.mp hs with hs | hs
      · exact absurd hs' (hnone s hs)
      · rw [List.mem_singleton.mp hs]
        exact BitVec.le_refl _
    · have hsame : considerSnapshot timeUs ⟨none, UINT64_MAX⟩ candidate = ⟨none, UINT64_MAX⟩ :=
        considerSnapshot_of_not_better hqualifies
      rw [hsame]
      refine .nothing fun s hs => ?_
      rcases List.mem_append.mp hs with hs | hs
      · exact hnone s hs
      · rwa [List.mem_singleton.mp hs]
  | youngest s hmem hqualifies hleast =>
    by_cases hbetter : candidate.timeUs < timeUs ∧
        HASHRATE_COUNTER_WINDOW_US ≤ timeUs - candidate.timeUs ∧
          timeUs - candidate.timeUs < timeUs - s.timeUs
    · obtain ⟨hearlier, hold, hyounger⟩ := hbetter
      rw [considerSnapshot_of_better hearlier hold hyounger]
      refine .youngest candidate (List.mem_append_right _ (List.mem_singleton_self _))
        ⟨hearlier, hold, BitVec.lt_trans hyounger hqualifies.2.2⟩ ?_
      intro s' hs hs'
      rcases List.mem_append.mp hs with hs | hs
      · exact BitVec.le_trans (BitVec.le_of_lt hyounger) (hleast s' hs hs')
      · rw [List.mem_singleton.mp hs]
        exact BitVec.le_refl _
    · rw [considerSnapshot_of_not_better hbetter]
      refine .youngest s (List.mem_append_left _ hmem) hqualifies ?_
      intro s' hs hs'
      rcases List.mem_append.mp hs with hs | hs
      · exact hleast s' hs hs'
      · rw [List.mem_singleton.mp hs] at hs' ⊢
        exact BitVec.not_lt.mp fun hlt => hbetter ⟨hs'.1, hs'.2.1, hlt⟩

theorem FoundIn.ageUs_eq {candidates : List HashrateCounterSnapshot}
    {found : HashrateCounterBaseline} (h : FoundIn timeUs candidates found)
    {s : HashrateCounterSnapshot} (hs : found.baseline = some s) :
    found.ageUs = timeUs - s.timeUs := by
  cases h with
  | nothing _ => cases hs
  | youngest s' _ _ _ =>
    cases hs
    rfl

/-- The search by induction on the candidates seen. -/
theorem foundIn_foldl (timeUs : U64) (candidates : List HashrateCounterSnapshot) :
    FoundIn timeUs candidates (candidates.foldl (considerSnapshot timeUs) ⟨none, UINT64_MAX⟩) := by
  induction candidates using List.reverseRecOn with
  | nil => exact .nothing fun s hs => absurd hs List.not_mem_nil
  | append_singleton candidates candidate ih =>
    rw [List.foldl_append]
    exact ih.consider candidate

/-- In the ring that holds the call itself, only the times decide. -/
theorem search_eq {current : Nat} (hcurrent : (w.snapshots current).timeUs = timeUs) :
    w.search current timeUs =
      ((List.range w.count).map w.snapshots).foldl (considerSnapshot timeUs)
        ⟨none, UINT64_MAX⟩ := by
  rw [search, List.foldl_map]
  congr 1
  funext best i
  rw [consider, considerSnapshot]
  by_cases hi : i = current
  · subst hi
    rw [hcurrent, if_pos (Or.inl rfl), if_pos (BitVec.le_refl _)]
  · by_cases hnewer : timeUs ≤ (w.snapshots i).timeUs
    · rw [if_pos (Or.inr hnewer), if_pos hnewer]
    · rw [if_neg (not_or.mpr ⟨hi, hnewer⟩), if_neg hnewer]

/-- The candidates of the search are the last snapshots before the call, and the call. -/
theorem Holds.mem_candidates_iff {call s : HashrateCounterSnapshot}
    (h : w.Holds (recorded ++ [call])) :
    s ∈ (List.range w.count).map w.snapshots ↔
      s ∈ recorded.reverse.take (HASHRATE_COUNTER_WINDOW_SNAPSHOTS - 1) ∨ s = call := by
  have hsize : HASHRATE_COUNTER_WINDOW_SNAPSHOTS = 32 := rfl
  have hcells : s ∈ (List.range w.count).map w.snapshots ↔
      ∃ cell < HASHRATE_COUNTER_WINDOW_SNAPSHOTS, cell < (recorded ++ [call]).length ∧
        w.snapshots cell = s := by
    simp only [List.mem_map, List.mem_range, h.count, Nat.lt_min]
    constructor
    · rintro ⟨cell, ⟨hlength, hcell⟩, hs⟩
      exact ⟨cell, hcell, hlength, hs⟩
    · rintro ⟨cell, hcell, hlength, hs⟩
      exact ⟨cell, ⟨hlength, hcell⟩, hs⟩
  have hlast : (recorded ++ [call]).length - HASHRATE_COUNTER_WINDOW_SNAPSHOTS =
      recorded.length - (HASHRATE_COUNTER_WINDOW_SNAPSHOTS - 1) := by
    rw [List.length_append, List.length_singleton]
    omega
  rw [hcells, h.retains.mem_recent_iff, hlast, List.drop_append_of_le_length (Nat.sub_le _ _),
    List.mem_append, List.mem_singleton, List.take_reverse, List.mem_reverse]

/-- The youngest candidate is the newest snapshot that is old enough, unless its age is
the number that the search starts from. -/
theorem FoundIn.baseline_eq {candidates : List HashrateCounterSnapshot}
    {found : HashrateCounterBaseline} {call : HashrateCounterSnapshot}
    (h : FoundIn call.timeUs candidates found)
    (hcandidates : ∀ s, s ∈ candidates ↔
      s ∈ recorded.reverse.take (HASHRATE_COUNTER_WINDOW_SNAPSHOTS - 1) ∨ s = call)
    (hsorted : recorded.Pairwise fun s s' => s.timeUs < s'.timeUs)
    (hlater : ∀ s ∈ recorded, s.timeUs < call.timeUs) :
    found.baseline = (newestOldEnough recorded call.timeUs).filter fun s =>
      decide (call.timeUs - s.timeUs ≠ UINT64_MAX) := by
  have hrecent {s : HashrateCounterSnapshot} (hs : s ∈ candidates)
      (hqualifies : Qualifies call.timeUs s) :
      s ∈ recorded.reverse.take (HASHRATE_COUNTER_WINDOW_SNAPSHOTS - 1) := by
    refine ((hcandidates s).mp hs).resolve_right ?_
    rintro rfl
    exact BitVec.lt_irrefl _ hqualifies.1
  have hnewestFirst : (recorded.reverse.take (HASHRATE_COUNTER_WINDOW_SNAPSHOTS - 1)).Pairwise
      fun s s' => s'.timeUs < s.timeUs :=
    (List.pairwise_reverse.mpr hsorted).sublist (List.take_sublist _ _)
  cases hfind : newestOldEnough recorded call.timeUs with
  | none =>
    rw [newestOldEnough, List.find?_eq_none] at hfind
    cases h with
    | nothing _ => rfl
    | youngest s hmem hqualifies _ =>
      exact absurd (decide_eq_true hqualifies.2.1) (hfind s (hrecent hmem hqualifies))
  | some s =>
    obtain ⟨hold, newer, older, hsplit, hnewer⟩ := List.find?_eq_some_iff_append.mp hfind
    have hold := of_decide_eq_true hold
    have hmem : s ∈ recorded.reverse.take (HASHRATE_COUNTER_WINDOW_SNAPSHOTS - 1) := by
      rw [hsplit]
      exact List.mem_append_right _ List.mem_cons_self
    have hearlier := hlater s (List.mem_reverse.mp (List.mem_of_mem_take hmem))
    have hcandidate := (hcandidates s).mpr (Or.inl hmem)
    cases h with
    | nothing hnone =>
      -- the snapshot would qualify if its age were not the largest number
      have hage : call.timeUs - s.timeUs = UINT64_MAX := by
        by_contra hage
        have hbelow : call.timeUs - s.timeUs < UINT64_MAX := by
          have hmax : UINT64_MAX.toNat = 2 ^ 64 - 1 := rfl
          bv_omega
        exact hnone s hcandidate ⟨hearlier, hold, hbelow⟩
      simp [Option.filter, hage]
    | youngest s' hmem' hqualifies hleast =>
      have hsame : s' = s := by
        have hsplit' := hrecent hmem' hqualifies
        rw [hsplit] at hsplit' hnewestFirst
        rcases List.mem_append.mp hsplit' with hs' | hs'
        · have hyoung := hnewer s' hs'
          simp [hqualifies.2.1] at hyoung
        · rcases List.mem_cons.mp hs' with hs' | hs'
          · exact hs'
          · -- an older snapshot would not be the youngest
            have hlt := List.rel_of_pairwise_cons
              (List.pairwise_append.mp hnewestFirst).2.1 hs'
            have hage : call.timeUs - s.timeUs < call.timeUs - s'.timeUs := by
              bv_omega
            have hle := hleast s hcandidate
              ⟨hearlier, hold, BitVec.lt_trans hage hqualifies.2.2⟩
            exact absurd hle (BitVec.not_le.mpr hage)
      subst hsame
      have hage : call.timeUs - s'.timeUs ≠ UINT64_MAX := by
        intro heq
        have hlt := hqualifies.2.2
        rw [heq] at hlt
        exact BitVec.lt_irrefl _ hlt
      simp [Option.filter, hage]

/-! ## Calls -/

/-- What one call does to a ring that holds what was recorded. -/
theorem Holds.update {call : HashrateCounterSnapshot} (h : w.Holds recorded)
    (hsorted : recorded.Pairwise fun s s' => s.timeUs < s'.timeUs) :
    w.update call.value call.timeUs =
      if isLater recorded call.timeUs then
        (w.record call, ((newestOldEnough recorded call.timeUs).filter fun s =>
          decide (call.timeUs - s.timeUs ≠ UINT64_MAX)).map fun s =>
            (call.value - s.value, call.timeUs - s.timeUs))
      else (w, none) := by
  rw [HashrateCounterWindow.update, h.isStale_eq hsorted]
  by_cases hlater : isLater recorded call.timeUs = true
  · rw [hlater, if_neg (by decide), if_pos rfl]
    have hafter := h.record call
    have hcurrent : ((w.record call).snapshots w.next).timeUs = call.timeUs := by
      show (Function.update w.snapshots w.next call w.next).timeUs = _
      rw [Function.update_self]
    have hfound := foundIn_foldl call.timeUs
      ((List.range (w.record call).count).map (w.record call).snapshots)
    rw [← search_eq hcurrent] at hfound
    have hbaseline := hfound.baseline_eq (fun s => hafter.mem_candidates_iff) hsorted
      (isLater_iff.mp hlater)
    rw [← hbaseline]
    have hcall : (⟨call.value, call.timeUs⟩ : HashrateCounterSnapshot) = call := rfl
    dsimp only
    rw [hcall]
    cases hfind : ((w.record call).search w.next call.timeUs).baseline with
    | none => rfl
    | some s =>
      rw [hfound.ageUs_eq hfind]
      rfl
  · rw [Bool.not_eq_true] at hlater
    rw [hlater]
    rfl

theorem holds_after (calls : List HashrateCounterSnapshot) :
    (after calls).Holds (recordedSnapshots calls) := by
  induction calls using List.reverseRecOn with
  | nil => exact holds_reset
  | append_singleton calls call ih =>
    rw [after, run_append, recordedSnapshots_append]
    show ((after calls).update call.value call.timeUs).1.Holds _
    rw [ih.update (pairwise_recordedSnapshots calls)]
    split
    · exact ih.record call
    · exact ih

end HashrateCounterWindow

/-- A call after others measures over the right interval: it is recorded if its time is
later than every recorded one and changes nothing otherwise, and it gives the difference
to the newest snapshot that is old enough. -/
def MeasuresRightInterval (calls : List HashrateCounterSnapshot) (call : HashrateCounterSnapshot) :
    Prop :=
  let window := HashrateCounterWindow.after calls
  let recorded := recordedSnapshots calls
  window.Holds recorded ∧
    if isLater recorded call.timeUs then
      (window.update call.value call.timeUs).1.Holds (recorded ++ [call]) ∧
      (window.update call.value call.timeUs).2 =
        (newestOldEnough recorded call.timeUs).map fun s =>
          (call.value - s.value, call.timeUs - s.timeUs)
    else window.update call.value call.timeUs = (window, none)

/-- The call spans all times there are: it comes at the last one, and the newest snapshot
that is old enough was taken at the first. -/
def SpansAllTimes (calls : List HashrateCounterSnapshot) (call : HashrateCounterSnapshot) : Prop :=
  isLater (recordedSnapshots calls) call.timeUs = true ∧ call.timeUs = UINT64_MAX ∧
    ∃ s ∈ newestOldEnough (recordedSnapshots calls) call.timeUs, s.timeUs = 0

/-- **The window measures over the right interval** after any calls, unless the call
spans all times there are: an age of `UINT64_MAX` is no less than the age that the search
starts from. -/
theorem measuresRightInterval_iff (calls : List HashrateCounterSnapshot)
    (call : HashrateCounterSnapshot) :
    MeasuresRightInterval calls call ↔ ¬ SpansAllTimes calls call := by
  have hholds := HashrateCounterWindow.holds_after calls
  have hsorted := pairwise_recordedSnapshots calls
  rw [MeasuresRightInterval, SpansAllTimes, hholds.update hsorted]
  by_cases hlater : isLater (recordedSnapshots calls) call.timeUs = true
  · simp only [hlater, if_true, true_and]
    cases hfind : newestOldEnough (recordedSnapshots calls) call.timeUs with
    | none => simp [hholds, hholds.record call]
    | some s =>
      have hmem : s ∈ recordedSnapshots calls :=
        List.mem_reverse.mp (List.mem_of_mem_take (List.mem_of_find?_eq_some hfind))
      have hearlier := isLater_iff.mp hlater s hmem
      have hmax : UINT64_MAX.toNat = 2 ^ 64 - 1 := rfl
      by_cases hage : call.timeUs - s.timeUs = UINT64_MAX
      · have htimes : call.timeUs = UINT64_MAX ∧ s.timeUs = 0 := by
          constructor
          · bv_omega
          · bv_omega
        simp [Option.filter, htimes]
      · have htimes : ¬ (call.timeUs = UINT64_MAX ∧ s.timeUs = 0) := by
          rintro ⟨hcall, hzero⟩
          rw [hcall, hzero] at hage
          exact hage (BitVec.sub_zero _)
        simpa [Option.filter, hage, hholds, hholds.record call] using htimes
  · simp [hlater, hholds]

/-- A call at the last time, after one at the first. -/
theorem full_span_not_measured : ¬ MeasuresRightInterval [⟨0, 0⟩] ⟨5, UINT64_MAX⟩ := by
  intro h
  have hlater : isLater (recordedSnapshots [⟨0, 0⟩]) UINT64_MAX = true := by decide
  have hcall := h.2
  simp only [hlater, if_true] at hcall
  exact absurd hcall.2 (by decide)

end EspMiner
