import EspMiner.Asic.Job
import EspMiner.Library.Iteration
import EspMiner.Library.Run
import Mathlib.Algebra.Ring.Nat
import Mathlib.Data.List.Induction

/-!
# Statistics

`addStatisticData` of `main/tasks/statistics_task.c`: samples are kept until the buffer is
full, and from then on one is removed for every one that is added.
-/

namespace EspMiner

open Library

def MAX_STATISTICS_COUNT : Nat := 720

/-- `struct StatisticsData`: the time in milliseconds and what was measured. -/
structure StatisticsData (μ : Type) where
  timestamp : U64
  measured : μ
deriving DecidableEq

/-- `low` and `high` of the bisection -/
structure Bisection where
  low : Nat
  high : Nat
deriving DecidableEq, Repr

namespace Statistics

variable {μ : Type}

/-- `statisticsBuffer[i].timestamp` -/
def timeAt (buffer : List (StatisticsData μ)) (i : Nat) : U64 :=
  (buffer.map (·.timestamp)).getD i 0

/-- The first index from `low` to `high` whose time is not before the middle, moved on
where the bisection would stand still. -/
def splitAt (buffer : List (StatisticsData μ)) (b : Bisection) : Nat :=
  let midTime := (timeAt buffer b.low + timeAt buffer b.high) / 2
  let split := ((List.range' b.low (b.high + 1 - b.low)).find? fun i =>
    decide (midTime ≤ timeAt buffer i)).getD b.low
  let split := if split = b.low then split + 1 else split
  if b.high < split then b.high else split

/-- One turn of the bisection: towards the half with more samples -/
def bisect (buffer : List (StatisticsData μ)) (b : Bisection) : Option Bisection :=
  if b.high - b.low ≤ 1 then none
  else
    let split := splitAt buffer b
    let leftCount := split - b.low
    let rightCount := b.high - split + 1
    some (if rightCount < leftCount then ⟨b.low, split - 1⟩ else ⟨split, b.high⟩)

/-- The bisection of a full buffer, without the oldest sample -/
def bisection (buffer : List (StatisticsData μ)) : Bisection :=
  settle (bisect buffer) MAX_STATISTICS_COUNT ⟨1, MAX_STATISTICS_COUNT - 1⟩

/-- `indexToRemove` for a full buffer -/
def indexToRemove (buffer : List (StatisticsData μ)) (data : StatisticsData μ)
    (statsFrequency : U16) : Nat :=
  let currentSpan := data.timestamp - timeAt buffer 0
  let targetDuration := BitVec.ofNat 64 MAX_STATISTICS_COUNT * statsFrequency.setWidth 64 * 1000
  if targetDuration ≤ currentSpan then 0 else (bisection buffer).low

/-- `addStatisticData` with a buffer that could be allocated -/
def add (buffer : List (StatisticsData μ)) (call : StatisticsData μ × U16) :
    List (StatisticsData μ) :=
  if buffer.length < MAX_STATISTICS_COUNT then buffer ++ [call.1]
  else buffer.eraseIdx (indexToRemove buffer call.1 call.2) ++ [call.1]

/-- The buffer after a sequence of calls from an empty one -/
def after (calls : List (StatisticsData μ × U16)) : List (StatisticsData μ) :=
  run add [] calls

end Statistics

/-! ## The thinned sample

The buffer is a sample of what was added, in its order and up to the latest, and one
entry goes for each that comes to a full buffer. -/

namespace Statistics

variable {μ : Type} {buffer : List (StatisticsData μ)} {b : Bisection}

/-! ## The bisection -/

/-- The bisection stays inside the buffer, behind the oldest sample and before the
newest. -/
def Inside (b : Bisection) : Prop :=
  1 ≤ b.low ∧ b.low ≤ b.high ∧ b.low < MAX_STATISTICS_COUNT - 1 ∧ b.high < MAX_STATISTICS_COUNT

theorem splitAt_bounds (buffer : List (StatisticsData μ)) (h : b.low + 2 ≤ b.high) :
    b.low < splitAt buffer b ∧ splitAt buffer b ≤ b.high := by
  unfold splitAt
  dsimp only
  have hfound : ∀ p : Nat → Bool, b.low ≤ ((List.range' b.low (b.high + 1 - b.low)).find? p).getD
      b.low ∧ ((List.range' b.low (b.high + 1 - b.low)).find? p).getD b.low ≤ b.high := by
    intro p
    cases hfind : (List.range' b.low (b.high + 1 - b.low)).find? p with
    | none => exact ⟨Nat.le_refl _, by rw [Option.getD_none]; omega⟩
    | some i =>
      have hmem := List.mem_range'_1.mp (List.mem_of_find?_eq_some hfind)
      rw [Option.getD_some]
      omega
  obtain ⟨hlow, hhigh⟩ := hfound fun i =>
    decide ((timeAt buffer b.low + timeAt buffer b.high) / 2 ≤ timeAt buffer i)
  generalize ((List.range' b.low (b.high + 1 - b.low)).find? fun i =>
    decide ((timeAt buffer b.low + timeAt buffer b.high) / 2 ≤ timeAt buffer i)).getD b.low = split
    at hlow hhigh
  split <;> split <;> omega

/-- One turn stays inside and leaves fewer samples. -/
theorem bisect_inside {b' : Bisection} (h : Inside b) (hnext : bisect buffer b = some b') :
    Inside b' ∧ b'.high - b'.low < b.high - b.low := by
  obtain ⟨hfirst, horder, hlow, hhigh⟩ := h
  rw [bisect] at hnext
  split at hnext
  · cases hnext
  · next hwide =>
    obtain ⟨hsplit, hsplit'⟩ := splitAt_bounds buffer (b := b) (by omega)
    obtain rfl := Option.some.inj hnext
    generalize splitAt buffer b = split at hsplit hsplit'
    split
    · refine ⟨⟨hfirst, ?_, hlow, ?_⟩, ?_⟩
      all_goals dsimp only
      all_goals omega
    · -- the upper half is taken only if it has as many samples, so not the newest alone
      refine ⟨⟨?_, hsplit', ?_, hhigh⟩, ?_⟩
      all_goals dsimp only
      all_goals omega

theorem inside_start : Inside ⟨1, MAX_STATISTICS_COUNT - 1⟩ := by
  unfold Inside MAX_STATISTICS_COUNT
  decide

theorem bisection_spec (buffer : List (StatisticsData μ)) :
    Inside (bisection buffer) ∧ bisect buffer (bisection buffer) = none := by
  refine settle_spec Inside (fun b => b.high - b.low) ?_ inside_start (by decide)
  intro b b' hb hnext
  exact bisect_inside hb hnext

/-! ## One call -/

/-- The removed entry is the oldest if the new span is long enough, and otherwise one
between the oldest and the newest. -/
theorem indexToRemove_spec (buffer : List (StatisticsData μ)) (data : StatisticsData μ)
    (statsFrequency : U16) (h : timeAt buffer 0 < data.timestamp) :
    (MAX_STATISTICS_COUNT * statsFrequency.toNat * 1000 ≤
        data.timestamp.toNat - (timeAt buffer 0).toNat →
      indexToRemove buffer data statsFrequency = 0) ∧
    (data.timestamp.toNat - (timeAt buffer 0).toNat <
        MAX_STATISTICS_COUNT * statsFrequency.toNat * 1000 →
      1 ≤ indexToRemove buffer data statsFrequency ∧
        indexToRemove buffer data statsFrequency < MAX_STATISTICS_COUNT - 1) := by
  have hspan : (data.timestamp - timeAt buffer 0).toNat =
      data.timestamp.toNat - (timeAt buffer 0).toNat :=
    BitVec.toNat_sub_of_le (BitVec.le_of_lt h)
  have htarget : (BitVec.ofNat 64 MAX_STATISTICS_COUNT * statsFrequency.setWidth 64 *
      1000).toNat = MAX_STATISTICS_COUNT * statsFrequency.toNat * 1000 := by
    have hfrequency := statsFrequency.isLt
    have hmilliseconds : (1000 : U64).toNat = 1000 := rfl
    simp only [BitVec.toNat_mul, BitVec.toNat_setWidth, BitVec.toNat_ofNat, hmilliseconds,
      MAX_STATISTICS_COUNT]
    omega
  have hcompare : BitVec.ofNat 64 MAX_STATISTICS_COUNT * statsFrequency.setWidth 64 * 1000 ≤
      data.timestamp - timeAt buffer 0 ↔ MAX_STATISTICS_COUNT * statsFrequency.toNat * 1000 ≤
        data.timestamp.toNat - (timeAt buffer 0).toNat := by
    rw [BitVec.le_def, hspan, htarget]
  rw [indexToRemove]
  constructor
  · intro hlong
    exact if_pos (hcompare.mpr hlong)
  · intro hshort
    rw [if_neg fun hlong => Nat.not_le.mpr hshort (hcompare.mp hlong)]
    obtain ⟨hfirst, _, hlow, _⟩ := (bisection_spec buffer).1
    exact ⟨hfirst, hlow⟩

/-! ## Runs -/

/-- The buffer is a sample of what was added, in order and up to the latest. -/
structure IsSample (calls : List (StatisticsData μ × U16)) : Prop where
  sample : (after calls).Sublist (calls.map Prod.fst)
  increasing : (after calls).Pairwise fun a b => a.timestamp < b.timestamp
  latest : (after calls).getLast? = (calls.map Prod.fst).getLast?
  size : (after calls).length = min calls.length MAX_STATISTICS_COUNT

/-- What the next call does: it loses nothing while there is room, and then one entry. -/
structure Thins (calls : List (StatisticsData μ × U16)) (call : StatisticsData μ × U16) :
    Prop where
  grows : calls.length < MAX_STATISTICS_COUNT → after (calls ++ [call]) = after calls ++ [call.1]
  /-- The oldest entry goes if the span is long enough, else neither it nor the newest. -/
  thins : MAX_STATISTICS_COUNT ≤ calls.length → ∃ oldest removed,
    (after calls)[0]? = some oldest ∧ removed < MAX_STATISTICS_COUNT ∧
    after (calls ++ [call]) = (after calls).eraseIdx removed ++ [call.1] ∧
    (removed = 0 ↔ MAX_STATISTICS_COUNT * call.2.toNat * 1000 ≤
      call.1.timestamp.toNat - oldest.timestamp.toNat) ∧
    removed ≠ MAX_STATISTICS_COUNT - 1
  /-- The bisection ends, and its indices are always those of entries. -/
  bisects : (∃ k b, iterates (bisect (after calls)) ⟨1, MAX_STATISTICS_COUNT - 1⟩ k = some b ∧
      bisect (after calls) b = none) ∧
    ∀ k b, iterates (bisect (after calls)) ⟨1, MAX_STATISTICS_COUNT - 1⟩ k = some b →
      b.low < MAX_STATISTICS_COUNT ∧ b.high < MAX_STATISTICS_COUNT

theorem after_concat (calls : List (StatisticsData μ × U16)) (call : StatisticsData μ × U16) :
    after (calls ++ [call]) = add (after calls) call := by
  rw [after, run_append]
  rfl

theorem indexToRemove_lt (buffer : List (StatisticsData μ)) (data : StatisticsData μ)
    (statsFrequency : U16) : indexToRemove buffer data statsFrequency < MAX_STATISTICS_COUNT := by
  rw [indexToRemove]
  split
  · decide
  · exact Nat.lt_of_lt_of_le (bisection_spec buffer).1.2.2.1 (Nat.sub_le _ _)

theorem length_after (calls : List (StatisticsData μ × U16)) :
    (after calls).length = min calls.length MAX_STATISTICS_COUNT := by
  induction calls using List.reverseRecOn with
  | nil => rfl
  | append_singleton calls call ih =>
    rw [after_concat, add, List.length_append, List.length_singleton]
    split
    · next hroom =>
      rw [List.length_append, List.length_singleton]
      omega
    · next hfull =>
      have hlt := indexToRemove_lt (after calls) call.1 call.2
      rw [List.length_append, List.length_eraseIdx_of_lt (by omega), List.length_singleton]
      omega

theorem sublist_after (calls : List (StatisticsData μ × U16)) :
    (after calls).Sublist (calls.map Prod.fst) := by
  induction calls using List.reverseRecOn with
  | nil => exact List.Sublist.refl _
  | append_singleton calls call ih =>
    rw [after_concat, add, List.map_append]
    split
    · exact ih.append (List.Sublist.refl _)
    · exact ((List.eraseIdx_sublist _ _).trans ih).append (List.Sublist.refl _)

theorem getLast?_after (calls : List (StatisticsData μ × U16)) :
    (after calls).getLast? = (calls.map Prod.fst).getLast? := by
  induction calls using List.reverseRecOn with
  | nil => rfl
  | append_singleton calls call ih =>
    rw [after_concat, add, List.map_append]
    split <;> simp

theorem thins_after {calls : List (StatisticsData μ × U16)} {call : StatisticsData μ × U16}
    (h : ∀ earlier ∈ calls, earlier.1.timestamp < call.1.timestamp) : Thins calls call where
  grows := by
    intro hroom
    rw [after_concat, add, if_pos (by rw [length_after]; omega)]
  thins := by
    intro hfull
    have hlength := length_after calls
    have hpositive : 0 < MAX_STATISTICS_COUNT := by decide
    have holdest : 0 < (after calls).length := by omega
    have hmem : (after calls)[0] ∈ calls.map Prod.fst :=
      (sublist_after calls).subset (List.getElem_mem holdest)
    obtain ⟨earlier, hearlier, heq⟩ := List.mem_map.mp hmem
    have htime : timeAt (after calls) 0 = (after calls)[0].timestamp := by
      rw [timeAt, List.getD_eq_getElem?_getD, List.getElem?_map, List.getElem?_eq_getElem holdest]
      rfl
    have hlater : timeAt (after calls) 0 < call.1.timestamp := by
      rw [htime, ← heq]
      exact h earlier hearlier
    obtain ⟨hlong, hshort⟩ := indexToRemove_spec (after calls) call.1 call.2 hlater
    rw [htime] at hlong hshort
    refine ⟨(after calls)[0], indexToRemove (after calls) call.1 call.2,
      List.getElem?_eq_getElem holdest, indexToRemove_lt _ _ _, ?_, ?_, ?_⟩
    · rw [after_concat, add, if_neg (by omega)]
    · constructor
      · intro hzero
        by_contra hspan
        have hfirst := (hshort (Nat.not_le.mp hspan)).1
        omega
      · exact hlong
    · rcases Nat.lt_or_ge (call.1.timestamp.toNat - (after calls)[0].timestamp.toNat)
        (MAX_STATISTICS_COUNT * call.2.toNat * 1000) with hspan | hspan
      · exact Nat.ne_of_lt (hshort hspan).2
      · rw [hlong hspan]
        decide
  bisects := by
    constructor
    · obtain ⟨k, hk⟩ := exists_iterates_settle (bisect (after calls)) MAX_STATISTICS_COUNT
        ⟨1, MAX_STATISTICS_COUNT - 1⟩
      exact ⟨k, bisection (after calls), hk, (bisection_spec _).2⟩
    · intro k b hb
      have hinside := iterates_invariant Inside (fun b b' h hnext => (bisect_inside h hnext).1)
        inside_start hb
      exact ⟨Nat.lt_of_lt_of_le hinside.2.2.1 (Nat.sub_le _ _), hinside.2.2.2⟩

/-- **Thinning keeps an ordered sample.**  After any calls with increasing times the
buffer is a sample in order and up to the latest, and every call of them loses nothing
while there is room and one entry afterwards, the right one. -/
theorem statistics_ordered_sample (calls : List (StatisticsData μ × U16))
    (h : calls.Pairwise fun a b => a.1.timestamp < b.1.timestamp) :
    IsSample calls ∧
      ∀ earlier call later, calls = earlier ++ call :: later → Thins earlier call := by
  constructor
  · refine ⟨sublist_after calls, ?_, getLast?_after calls, length_after calls⟩
    have hadded : (calls.map Prod.fst).Pairwise fun a b => a.timestamp < b.timestamp :=
      List.pairwise_map.mpr h
    exact hadded.sublist (sublist_after calls)
  · rintro earlier call later rfl
    apply thins_after
    intro before hbefore
    exact (List.pairwise_append.mp h).2.2 before hbefore call List.mem_cons_self

/-- One call more than the buffer has room for, a second apart. -/
def secondlyCalls : List (StatisticsData Unit × U16) :=
  (List.range (MAX_STATISTICS_COUNT + 1)).map fun i => (⟨BitVec.ofNat 64 (1000 * i), ()⟩, 1)

theorem statistics_ordered_sample_full :
    IsSample secondlyCalls ∧ ∃ earlier call, earlier.length = MAX_STATISTICS_COUNT ∧
      secondlyCalls = earlier ++ [call] ∧ Thins earlier call := by
  have hsplit := congrArg (List.map fun i =>
    ((⟨BitVec.ofNat 64 (1000 * i), ()⟩, 1) : StatisticsData Unit × U16))
    (@List.range_succ MAX_STATISTICS_COUNT)
  rw [List.map_append] at hsplit
  have hordered : secondlyCalls.Pairwise fun a b => a.1.timestamp < b.1.timestamp := by
    refine List.pairwise_map.mpr (List.pairwise_lt_range.imp_of_mem fun {i j} hi hj hlt => ?_)
    rw [List.mem_range, MAX_STATISTICS_COUNT] at hi hj
    rw [BitVec.lt_def, BitVec.toNat_ofNat, BitVec.toNat_ofNat, Nat.mod_eq_of_lt (by omega),
      Nat.mod_eq_of_lt (by omega)]
    omega
  obtain ⟨hsample, hthins⟩ := statistics_ordered_sample secondlyCalls hordered
  exact ⟨hsample, _, _, by rw [List.length_map, List.length_range], hsplit,
    hthins _ _ [] hsplit⟩

end Statistics

end EspMiner
