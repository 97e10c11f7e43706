import EspMiner.Asic.Job
import EspMiner.Library.Run
import Mathlib.Algebra.Ring.Nat
import Mathlib.Data.List.Basic
import Mathlib.Data.List.Induction
import Mathlib.Data.List.Nodup
import Mathlib.Data.List.Perm.Subperm
import Mathlib.Data.List.Sort

/-!
# Reasons for rejected shares

`SYSTEM_notify_rejected_share` of `main/system.c`: a table of the reasons that pools gave,
with the number of shares for each.  A C string is the list of its bytes.
-/

namespace EspMiner

open Library

/-- `sizeof(rejected_reason_stats[0].message)` -/
def REJECTED_REASON_MESSAGE_SIZE : Nat := 64

/-- The number of entries in `rejected_reason_stats` -/
def REJECTED_REASON_STATS_SIZE : Nat := 10

/-- `RejectedReasonStat` -/
structure RejectedReasonStat where
  message : List U8
  count : U32
deriving DecidableEq

/-- The fields of `SystemModule` that rejected shares are counted in; the list is as long as
`rejected_reason_stats_count`. -/
structure RejectedReasons where
  sharesRejected : U64
  stats : List RejectedReasonStat
deriving DecidableEq

/-- `compare_rejected_reason_stats` -/
def compareRejectedReasonStats (a b : RejectedReasonStat) : Int :=
  (if a.count < b.count then 1 else 0) - if b.count < a.count then 1 else 0

/-- What the C library's `qsort` promises: the same elements in an order that `compare`
accepts.  Elements that compare equal may end up either way. -/
structure Qsort (compare : α → α → Int) where
  sort : List α → List α
  perm : ∀ list, (sort list).Perm list
  sorted : ∀ list, (sort list).Pairwise fun a b => compare a b ≤ 0

namespace RejectedReasons

def zero : RejectedReasons := ⟨0, []⟩

/-- What of a reason a message has room for. -/
def cut (errorMsg : List U8) : List U8 := errorMsg.take (REJECTED_REASON_MESSAGE_SIZE - 1)

/-- `strncmp` of an entry's message with a reason, as far as a message reaches. -/
def matchesReason (errorMsg : List U8) (stat : RejectedReasonStat) : Bool :=
  decide (cut stat.message = cut errorMsg)

/-- The entry that the loop over the table stops at -/
def statIndex? (m : RejectedReasons) (errorMsg : List U8) : Option Nat :=
  m.stats.findIdx? (matchesReason errorMsg)

/-- `SYSTEM_notify_rejected_share` -/
def notify (q : Qsort compareRejectedReasonStats) (m : RejectedReasons) (errorMsg : List U8) :
    RejectedReasons :=
  let sharesRejected := m.sharesRejected + 1
  match m.statIndex? errorMsg with
  | some i =>
      -- the function returns here, before the table is sorted
      ⟨sharesRejected, m.stats.modify i fun stat => { stat with count := stat.count + 1 }⟩
  | none =>
      let stats := if m.stats.length < REJECTED_REASON_STATS_SIZE then
        m.stats ++ [⟨cut errorMsg, 1⟩] else m.stats
      ⟨sharesRejected, if 1 < stats.length then q.sort stats else stats⟩

/-- The table after a sequence of rejected shares -/
def after (q : Qsort compareRejectedReasonStats) (reasons : List (List U8)) : RejectedReasons :=
  run (notify q) zero reasons

/-- The reason is new and the table has no room for it. -/
def turnsAway (m : RejectedReasons) (errorMsg : List U8) : Bool :=
  (m.statIndex? errorMsg).isNone && decide (REJECTED_REASON_STATS_SIZE ≤ m.stats.length)

/-- How many shares of a sequence are turned away -/
def turnedAway (q : Qsort compareRejectedReasonStats) :
    RejectedReasons → List (List U8) → Nat
  | _, [] => 0
  | m, errorMsg :: reasons =>
      (if m.turnsAway errorMsg then 1 else 0) + turnedAway q (m.notify q errorMsg) reasons

end RejectedReasons

/-! ## The table of rejected reasons over a run

Messages, counts and the total are right after any sequence of shares whose counts stay
below 2^32.  The order is kept as long as no share raises the count of an entry above
that of the entry before it. -/

namespace RejectedReasons

variable {q : Qsort compareRejectedReasonStats} {m : RejectedReasons} {errorMsg : List U8}
  {reasons : List (List U8)}

def messages (m : RejectedReasons) : List (List U8) := m.stats.map (·.message)

/-! ## One share -/

theorem compare_le_iff (a b : RejectedReasonStat) :
    compareRejectedReasonStats a b ≤ 0 ↔ b.count ≤ a.count := by
  rw [compareRejectedReasonStats, ← BitVec.not_lt]
  by_cases hlt : a.count < b.count
  · have hnot : ¬ b.count < a.count := BitVec.not_lt.mpr (BitVec.le_of_lt hlt)
    simp [hlt, hnot]
  · by_cases hgt : b.count < a.count <;> simp [hlt, hgt]

@[simp] theorem cut_cut (text : List U8) : cut (cut text) = cut text := by
  rw [cut, cut, List.take_take, Nat.min_self]

/-- Every message fits its array. -/
def Fits (m : RejectedReasons) : Prop := ∀ stat ∈ m.stats, cut stat.message = stat.message

theorem statIndex?_eq_none (hfits : m.Fits) :
    m.statIndex? errorMsg = none ↔ cut errorMsg ∉ m.messages := by
  rw [statIndex?, List.findIdx?_eq_none_iff, messages, List.mem_map]
  constructor
  · rintro h ⟨stat, hstat, heq⟩
    have hno := h stat hstat
    rw [matchesReason, hfits stat hstat, heq] at hno
    exact of_decide_eq_false hno rfl
  · intro h stat hstat
    rw [matchesReason, hfits stat hstat]
    exact decide_eq_false fun heq => h ⟨stat, hstat, heq⟩

/-- The entry that is found has the message of the reason. -/
theorem statIndex?_eq_some (hfits : m.Fits) {i : Nat} (h : m.statIndex? errorMsg = some i) :
    ∃ hi : i < m.stats.length, m.stats[i].message = cut errorMsg := by
  obtain ⟨hi, hmatch, _⟩ := List.findIdx?_eq_some_iff_getElem.mp h
  refine ⟨hi, ?_⟩
  rw [matchesReason, hfits _ (List.getElem_mem hi)] at hmatch
  exact of_decide_eq_true hmatch

theorem notify_of_some {i : Nat} (h : m.statIndex? errorMsg = some i) :
    m.notify q errorMsg = ⟨m.sharesRejected + 1,
      m.stats.modify i fun stat => { stat with count := stat.count + 1 }⟩ := by
  rw [notify, h]

theorem sharesRejected_notify (q : Qsort compareRejectedReasonStats) (m : RejectedReasons)
    (errorMsg : List U8) : (m.notify q errorMsg).sharesRejected = m.sharesRejected + 1 := by
  rw [notify]
  split <;> rfl

/-- Counting a share in an entry leaves all messages. -/
theorem messages_notify_of_some {i : Nat} (h : m.statIndex? errorMsg = some i) :
    (m.notify q errorMsg).messages = m.messages := by
  rw [notify_of_some h, messages, messages]
  apply List.ext_getElem
  · simp
  · intro k hk hk'
    rw [List.getElem_map, List.getElem_map, List.getElem_modify]
    split <;> rfl

/-- A new reason is added where there is room, and the table is sorted. -/
theorem notify_of_none (h : m.statIndex? errorMsg = none) :
    (m.notify q errorMsg).stats.Perm
        (if m.stats.length < REJECTED_REASON_STATS_SIZE then m.stats ++ [⟨cut errorMsg, 1⟩]
        else m.stats) ∧
      (m.notify q errorMsg).stats.Pairwise fun a b => b.count ≤ a.count := by
  rw [notify, h]
  dsimp only
  generalize (if m.stats.length < REJECTED_REASON_STATS_SIZE then
    m.stats ++ [(⟨cut errorMsg, 1⟩ : RejectedReasonStat)] else m.stats) = stats
  split
  · refine ⟨q.perm stats, (q.sorted stats).imp fun {a b} hle => ?_⟩
    exact (compare_le_iff a b).mp hle
  · next hshort =>
    refine ⟨List.Perm.refl _, ?_⟩
    rcases stats with _ | ⟨stat, _ | ⟨other, rest⟩⟩
    · exact List.Pairwise.nil
    · exact List.pairwise_singleton _ _
    · simp at hshort

/-! ## The counts -/

/-- How many of the reasons are counted under a message -/
def occurrences (reasons : List (List U8)) (message : List U8) : Nat :=
  reasons.countP fun errorMsg => decide (cut errorMsg = message)

theorem occurrences_concat (reasons : List (List U8)) (errorMsg message : List U8) :
    occurrences (reasons ++ [errorMsg]) message =
      occurrences reasons message + if cut errorMsg = message then 1 else 0 := by
  rw [occurrences, List.countP_append, List.countP_singleton]
  simp [occurrences]

theorem turnedAway_concat (q : Qsort compareRejectedReasonStats) (m : RejectedReasons)
    (reasons : List (List U8)) (errorMsg : List U8) :
    turnedAway q m (reasons ++ [errorMsg]) = turnedAway q m reasons +
      if (run (notify q) m reasons).turnsAway errorMsg then 1 else 0 := by
  induction reasons generalizing m with
  | nil =>
    simp only [List.nil_append, turnedAway, run_nil, Nat.zero_add, Nat.add_zero]
    rfl
  | cons first reasons ih =>
    rw [List.cons_append, turnedAway, turnedAway, ih, run_cons, Nat.add_assoc]

/-- All shares that are counted in the table -/
def counted (m : RejectedReasons) : Nat := (m.stats.map fun stat => stat.count.toNat).sum

/-- Everything but the order, after the shares of `reasons`. -/
structure Counts (m : RejectedReasons) (reasons : List (List U8)) : Prop where
  fits : m.Fits
  nodup : m.messages.Nodup
  small : m.stats.length ≤ REJECTED_REASON_STATS_SIZE
  counts : ∀ stat ∈ m.stats, stat.count.toNat = occurrences reasons stat.message
  known : m.stats.length < REJECTED_REASON_STATS_SIZE →
    ∀ errorMsg ∈ reasons, cut errorMsg ∈ m.messages

theorem counts_zero : zero.Counts [] where
  fits := fun _ hstat => absurd hstat List.not_mem_nil
  nodup := List.nodup_nil
  small := Nat.zero_le _
  counts := fun _ hstat => absurd hstat List.not_mem_nil
  known := fun _ _ herror => absurd herror List.not_mem_nil

/-- The count of the entry that a reason is counted in stays below 2^32. -/
def HasRoom (m : RejectedReasons) (errorMsg : List U8) : Prop :=
  ∀ i ∈ m.statIndex? errorMsg, ∀ stat ∈ m.stats[i]?, stat.count.toNat + 1 < 2 ^ 32

theorem fits_iff : m.Fits ↔ ∀ message ∈ m.messages, cut message = message := by
  simp [Fits, messages]

/-- A share that is counted in an entry. -/
theorem Counts.notify_of_some (h : m.Counts reasons) (hroom : m.HasRoom errorMsg) {i : Nat}
    (hentry : m.statIndex? errorMsg = some i) :
    (m.notify q errorMsg).Counts (reasons ++ [errorMsg]) := by
  obtain ⟨hfits, hnodup, hsmall, hcounts, hknown⟩ := h
  obtain ⟨hi, hmessage⟩ := statIndex?_eq_some hfits hentry
  have hmessages := messages_notify_of_some (q := q) hentry
  have hlength : (m.notify q errorMsg).stats.length = m.stats.length := by
    rw [RejectedReasons.notify_of_some hentry, List.length_modify]
  have hmem : cut errorMsg ∈ m.messages := by
    rw [← hmessage]
    exact List.mem_map_of_mem (List.getElem_mem hi)
  constructor
  · rw [fits_iff, hmessages]
    exact fits_iff.mp hfits
  · rw [hmessages]
    exact hnodup
  · rw [hlength]
    exact hsmall
  · intro stat hstat
    rw [RejectedReasons.notify_of_some hentry] at hstat
    obtain ⟨k, hk, rfl⟩ := List.getElem_of_mem hstat
    rw [List.length_modify] at hk
    have hcount := hcounts m.stats[k] (List.getElem_mem hk)
    rw [List.getElem_modify, occurrences_concat]
    by_cases hik : i = k
    · subst hik
      have hlt := hroom i hentry m.stats[i] (List.getElem?_eq_getElem hi)
      rw [if_pos rfl, if_pos hmessage.symm, ← hcount]
      show (m.stats[i].count + 1).toNat = _
      rw [BitVec.toNat_add]
      exact Nat.mod_eq_of_lt hlt
    · have hother : cut errorMsg ≠ m.stats[k].message := by
        intro heq
        have hi' : i < m.messages.length := by simpa [messages] using hi
        have hk' : k < m.messages.length := by simpa [messages] using hk
        have hsame : m.messages[i] = m.messages[k] := by
          simp only [messages, List.getElem_map]
          rw [hmessage, heq]
        exact hik ((List.Nodup.getElem_inj_iff hnodup).mp hsame)
      rw [if_neg hik, if_neg hother, hcount, Nat.add_zero]
  · intro hshort reason hreason
    rw [hlength] at hshort
    rw [hmessages]
    rcases List.mem_append.mp hreason with hold | hnew
    · exact hknown hshort reason hold
    · rw [List.mem_singleton.mp hnew]
      exact hmem

/-- A share whose reason is new. -/
theorem Counts.notify_of_none (h : m.Counts reasons) (hentry : m.statIndex? errorMsg = none) :
    (m.notify q errorMsg).Counts (reasons ++ [errorMsg]) := by
  obtain ⟨hfits, hnodup, hsmall, hcounts, hknown⟩ := h
  have hnew := (statIndex?_eq_none hfits).mp hentry
  have hperm := (RejectedReasons.notify_of_none (q := q) hentry).1
  by_cases hshort : m.stats.length < REJECTED_REASON_STATS_SIZE
  · rw [if_pos hshort] at hperm
    have hmessages : (m.notify q errorMsg).messages.Perm (m.messages ++ [cut errorMsg]) := by
      have hmap := hperm.map RejectedReasonStat.message
      rwa [List.map_append] at hmap
    have hunseen : occurrences reasons (cut errorMsg) = 0 := by
      rw [occurrences, List.countP_eq_zero]
      intro reason hreason hsame
      exact hnew (of_decide_eq_true hsame ▸ hknown hshort reason hreason)
    constructor
    · rw [fits_iff]
      intro message hmessage
      rcases List.mem_append.mp (hmessages.mem_iff.mp hmessage) with hold | hlast
      · exact fits_iff.mp hfits message hold
      · rw [List.mem_singleton.mp hlast, cut_cut]
    · refine hmessages.nodup_iff.mpr (List.nodup_append.mpr ⟨hnodup, List.nodup_singleton _, ?_⟩)
      intro message hold message' hlast heq
      rw [heq, List.mem_singleton.mp hlast] at hold
      exact hnew hold
    · rw [hperm.length_eq, List.length_append, List.length_singleton]
      exact hshort
    · intro stat hstat
      rw [occurrences_concat]
      rcases List.mem_append.mp (hperm.mem_iff.mp hstat) with hold | hlast
      · have hother : cut errorMsg ≠ stat.message := by
          intro heq
          exact hnew (heq ▸ List.mem_map_of_mem hold)
        rw [hcounts stat hold, if_neg hother, Nat.add_zero]
      · rw [List.mem_singleton.mp hlast]
        show (1 : U32).toNat = occurrences reasons (cut errorMsg) + if cut errorMsg = cut errorMsg
          then 1 else 0
        rw [if_pos rfl, hunseen]
        rfl
    · intro _ reason hreason
      rw [hmessages.mem_iff, List.mem_append, List.mem_singleton]
      rcases List.mem_append.mp hreason with hold | hlast
      · exact Or.inl (hknown hshort reason hold)
      · exact Or.inr (congrArg cut (List.mem_singleton.mp hlast))
  · rw [if_neg hshort] at hperm
    have hmessages : (m.notify q errorMsg).messages.Perm m.messages :=
      hperm.map RejectedReasonStat.message
    constructor
    · rw [fits_iff]
      intro message hmessage
      exact fits_iff.mp hfits message (hmessages.mem_iff.mp hmessage)
    · exact hmessages.nodup_iff.mpr hnodup
    · rw [hperm.length_eq]
      exact hsmall
    · intro stat hstat
      have hold := hperm.mem_iff.mp hstat
      have hother : cut errorMsg ≠ stat.message := by
        intro heq
        exact hnew (heq ▸ List.mem_map_of_mem hold)
      rw [occurrences_concat, hcounts stat hold, if_neg hother, Nat.add_zero]
    · intro hlength
      rw [hperm.length_eq] at hlength
      exact absurd hlength hshort

/-- One share counts in its entry, opens one, or is turned away. -/
theorem Counts.notify (h : m.Counts reasons) (hroom : m.HasRoom errorMsg) :
    (m.notify q errorMsg).Counts (reasons ++ [errorMsg]) := by
  cases hentry : m.statIndex? errorMsg with
  | some i => exact h.notify_of_some hroom hentry
  | none => exact h.notify_of_none hentry

/-- Every share is counted in the table or turned away. -/
theorem Counts.counted_notify (h : m.Counts reasons) (hroom : m.HasRoom errorMsg) :
    (m.notify q errorMsg).counted + (if m.turnsAway errorMsg then 1 else 0) = m.counted + 1 := by
  cases hentry : m.statIndex? errorMsg with
  | some i =>
    obtain ⟨hi, _⟩ := statIndex?_eq_some h.fits hentry
    have hlt := hroom i hentry m.stats[i] (List.getElem?_eq_getElem hi)
    have hsplit : m.stats = m.stats.take i ++ m.stats[i] :: m.stats.drop (i + 1) := by
      rw [← List.drop_eq_getElem_cons hi, List.take_append_drop]
    have hcount : (m.stats[i].count + 1).toNat = m.stats[i].count.toNat + 1 := by
      rw [BitVec.toNat_add]
      exact Nat.mod_eq_of_lt hlt
    have hbefore : m.counted = ((m.stats.take i).map fun stat => stat.count.toNat).sum +
        (m.stats[i].count.toNat +
          ((m.stats.drop (i + 1)).map fun stat => stat.count.toNat).sum) := by
      conv_lhs => rw [counted, hsplit]
      rw [List.map_append, List.map_cons, List.sum_append, List.sum_cons]
    have hafter : (m.notify q errorMsg).counted =
        ((m.stats.take i).map fun stat => stat.count.toNat).sum +
          ((m.stats[i].count + 1).toNat +
            ((m.stats.drop (i + 1)).map fun stat => stat.count.toNat).sum) := by
      rw [counted, RejectedReasons.notify_of_some hentry, List.modify_eq_take_cons_drop hi,
        List.map_append, List.map_cons, List.sum_append, List.sum_cons]
    have hkept : m.turnsAway errorMsg = false := by rw [turnsAway, hentry]; rfl
    rw [hafter, hbefore, hcount, hkept, if_neg (by decide)]
    omega
  | none =>
    have hperm := (RejectedReasons.notify_of_none (q := q) hentry).1
    have hsum := (hperm.map fun stat => stat.count.toNat).sum_nat
    by_cases hshort : m.stats.length < REJECTED_REASON_STATS_SIZE
    · have hkept : m.turnsAway errorMsg = false := by
        rw [turnsAway, hentry, decide_eq_false (Nat.not_le.mpr hshort), Bool.and_false]
      rw [if_pos hshort, List.map_append, List.sum_append] at hsum
      rw [counted, hsum, hkept]
      rfl
    · have haway : m.turnsAway errorMsg = true := by
        rw [turnsAway, hentry, decide_eq_true (Nat.not_lt.mp hshort)]
        rfl
      rw [if_neg hshort] at hsum
      rw [counted, hsum, haway, if_pos rfl]
      rfl

/-- A message stays in the table. -/
theorem messages_subset_notify : m.messages ⊆ (m.notify q errorMsg).messages := by
  intro message hmessage
  cases hentry : m.statIndex? errorMsg with
  | some i => rwa [messages_notify_of_some hentry]
  | none =>
    have hperm := (notify_of_none (q := q) hentry).1.map RejectedReasonStat.message
    refine hperm.mem_iff.mpr ?_
    split
    · rw [List.map_append]
      exact List.mem_append_left _ hmessage
    · exact hmessage

/-! ## The order -/

/-- The counts do not increase along the table. -/
def Sorted (m : RejectedReasons) : Prop := m.stats.Pairwise fun a b => b.count ≤ a.count

/-- The entry that counts the share has a smaller count than the one before it, and room
for one more. -/
def KeepsOrder (m : RejectedReasons) (errorMsg : List U8) : Prop :=
  ∀ i ∈ m.statIndex? errorMsg, ∀ stat ∈ m.stats[i]?, stat.count.toNat + 1 < 2 ^ 32 ∧
    ∀ k, k + 1 = i → ∀ before ∈ m.stats[k]?, stat.count < before.count

theorem KeepsOrder.hasRoom (h : m.KeepsOrder errorMsg) : m.HasRoom errorMsg :=
  fun i hi stat hstat => (h i hi stat hstat).1

/-- Counting a share keeps the order exactly if the entry stays behind the one before. -/
theorem sorted_notify_iff (hcounts : m.Counts reasons) (hsorted : m.Sorted)
    (hroom : m.HasRoom errorMsg) : (m.notify q errorMsg).Sorted ↔ m.KeepsOrder errorMsg := by
  cases hentry : m.statIndex? errorMsg with
  | none =>
    refine iff_of_true (notify_of_none hentry).2 ?_
    intro i hi
    rw [hentry] at hi
    cases hi
  | some i =>
    obtain ⟨hi, _⟩ := statIndex?_eq_some hcounts.fits hentry
    have hlt := hroom i hentry m.stats[i] (List.getElem?_eq_getElem hi)
    have hcount : (m.stats[i].count + 1).toNat = m.stats[i].count.toNat + 1 := by
      rw [BitVec.toNat_add]
      exact Nat.mod_eq_of_lt hlt
    rw [Sorted, RejectedReasons.notify_of_some hentry, List.pairwise_iff_getElem]
    rw [Sorted, List.pairwise_iff_getElem] at hsorted
    simp only [List.length_modify, List.getElem_modify]
    constructor
    · intro h i' hi' stat hstat
      obtain rfl : i = i' := Option.some.inj (hentry.symm.trans hi')
      obtain rfl : m.stats[i] = stat := Option.some.inj
        ((List.getElem?_eq_getElem hi).symm.trans hstat)
      refine ⟨hlt, ?_⟩
      rintro k rfl before hbefore
      have hk : k < m.stats.length := by omega
      obtain rfl : m.stats[k] = before := Option.some.inj
        ((List.getElem?_eq_getElem hk).symm.trans hbefore)
      have hle := h k (k + 1) hk hi (Nat.lt_succ_self k)
      rw [if_pos rfl, if_neg (by omega)] at hle
      change m.stats[k + 1].count + 1 ≤ m.stats[k].count at hle
      rw [BitVec.le_def] at hle
      rw [BitVec.lt_def]
      omega
    · intro h a b ha hb hab
      obtain ⟨_, hbefore⟩ := h i hentry m.stats[i] (List.getElem?_eq_getElem hi)
      have hle := hsorted a b ha hb hab
      by_cases hai : i = a
      · subst hai
        rw [if_pos rfl, if_neg (by omega)]
        rw [BitVec.le_def] at hle ⊢
        show m.stats[b].count.toNat ≤ (m.stats[i].count + 1).toNat
        omega
      · rw [if_neg hai]
        by_cases hbi : i = b
        · subst hbi
          rw [if_pos rfl]
          -- the entry right before stands between the two
          obtain ⟨k, rfl⟩ : ∃ k, i = k + 1 := ⟨i - 1, by omega⟩
          have hk : k < m.stats.length := by omega
          have hstrict := hbefore k rfl m.stats[k] (List.getElem?_eq_getElem hk)
          have hchain : m.stats[k].count ≤ m.stats[a].count := by
            rcases Nat.lt_or_ge a k with hak | hak
            · exact hsorted a k ha hk hak
            · obtain rfl : a = k := by omega
              exact BitVec.le_refl _
          rw [BitVec.lt_def] at hstrict
          rw [BitVec.le_def] at hchain ⊢
          show (m.stats[k + 1].count + 1).toNat ≤ m.stats[a].count.toNat
          omega
        · rw [if_neg hbi]
          exact hle

/-! ## Runs -/

/-- The table is a sorted count of the shares of `reasons`. -/
structure IsSortedCount (q : Qsort compareRejectedReasonStats) (reasons : List (List U8)) :
    Prop where
  sorted : (after q reasons).Sorted
  nodup : (after q reasons).messages.Nodup
  /-- An entry counts the shares since any time when it was not there. -/
  counts : ∀ earlier later, reasons = earlier ++ later → ∀ stat ∈ (after q reasons).stats,
    stat.message ∉ (after q earlier).messages →
      stat.count.toNat = occurrences later stat.message
  stays : ∀ earlier, earlier <+: reasons → (after q earlier).messages ⊆ (after q reasons).messages
  total : (after q reasons).counted + turnedAway q zero reasons = reasons.length
  shares : (after q reasons).sharesRejected = BitVec.ofNat 64 reasons.length

theorem after_concat (q : Qsort compareRejectedReasonStats) (reasons : List (List U8))
    (errorMsg : List U8) :
    after q (reasons ++ [errorMsg]) = (after q reasons).notify q errorMsg := by
  rw [after, run_append]
  rfl

theorem counts_after (h : Guarded (notify q) KeepsOrder zero reasons) :
    (after q reasons).Counts reasons := by
  induction reasons using List.reverseRecOn with
  | nil => exact counts_zero
  | append_singleton reasons errorMsg ih =>
    obtain ⟨hbefore, hlast, _⟩ := (guarded_append_iff _).mp h
    rw [after_concat]
    exact (ih hbefore).notify hlast.hasRoom

theorem sorted_after (h : Guarded (notify q) KeepsOrder zero reasons) :
    (after q reasons).Sorted := by
  induction reasons using List.reverseRecOn with
  | nil => exact List.Pairwise.nil
  | append_singleton reasons errorMsg ih =>
    obtain ⟨hbefore, hlast, _⟩ := (guarded_append_iff _).mp h
    rw [after_concat]
    exact (sorted_notify_iff (counts_after hbefore) (ih hbefore) hlast.hasRoom).mpr hlast

theorem total_after (h : Guarded (notify q) KeepsOrder zero reasons) :
    (after q reasons).counted + turnedAway q zero reasons = reasons.length := by
  induction reasons using List.reverseRecOn with
  | nil => rfl
  | append_singleton reasons errorMsg ih =>
    obtain ⟨hbefore, hlast, _⟩ := (guarded_append_iff _).mp h
    have hstep := (counts_after hbefore).counted_notify (q := q) hlast.hasRoom
    have hprior := ih hbefore
    rw [after_concat, turnedAway_concat, List.length_append, List.length_singleton]
    rw [after] at hstep hprior ⊢
    omega

/-- A message that is in the table stays there. -/
theorem messages_subset_after {earlier reasons : List (List U8)} (h : earlier <+: reasons) :
    (after q earlier).messages ⊆ (after q reasons).messages := by
  obtain ⟨later, rfl⟩ := h
  induction later using List.reverseRecOn with
  | nil => rw [List.append_nil]; exact List.Subset.refl _
  | append_singleton later errorMsg ih =>
    rw [← List.append_assoc, after_concat]
    exact List.Subset.trans ih messages_subset_notify

theorem sharesRejected_after (q : Qsort compareRejectedReasonStats) (reasons : List (List U8)) :
    (after q reasons).sharesRejected = BitVec.ofNat 64 reasons.length := by
  induction reasons using List.reverseRecOn with
  | nil => rfl
  | append_singleton reasons errorMsg ih =>
    rw [after_concat, sharesRejected_notify, ih, List.length_append, BitVec.ofNat_add]
    rfl

/-- No share is counted before its entry is opened: what is not in a full table never gets
there. -/
theorem occurrences_before {earlier later : List (List U8)}
    (h : Guarded (notify q) KeepsOrder zero (earlier ++ later)) {message : List U8}
    (hmem : message ∈ (after q (earlier ++ later)).messages)
    (hnew : message ∉ (after q earlier).messages) : occurrences earlier message = 0 := by
  have hearlier := counts_after ((guarded_append_iff _).mp h).1
  have hlast := counts_after h
  have hsubset := messages_subset_after (q := q) (List.prefix_append earlier later)
  rw [occurrences, List.countP_eq_zero]
  intro reason hreason hsame
  rw [decide_eq_true_eq] at hsame
  by_cases hshort : (after q earlier).stats.length < REJECTED_REASON_STATS_SIZE
  · exact hnew (hsame ▸ hearlier.known hshort reason hreason)
  · -- the table was full, so it has the messages that it had then
    have hperm : (after q earlier).messages.Perm (after q (earlier ++ later)).messages := by
      refine (hearlier.nodup.subperm hsubset).perm_of_length_le ?_
      rw [messages, messages, List.length_map, List.length_map]
      exact Nat.le_trans hlast.small (Nat.not_lt.mp hshort)
    exact hnew (hperm.mem_iff.mpr hmem)

theorem isSortedCount_of_guarded (h : Guarded (notify q) KeepsOrder zero reasons) :
    IsSortedCount q reasons where
  sorted := sorted_after h
  nodup := (counts_after h).nodup
  counts := by
    rintro earlier later rfl stat hstat hnew
    have hmem : stat.message ∈ (after q (earlier ++ later)).messages :=
      List.mem_map_of_mem hstat
    have hcount := (counts_after h).counts stat hstat
    have hbefore := occurrences_before h hmem hnew
    rw [occurrences, List.countP_append] at hcount
    rw [hcount, occurrences]
    rw [occurrences] at hbefore
    rw [hbefore, Nat.zero_add]
  stays := fun _ hprior => messages_subset_after hprior
  total := total_after h
  shares := sharesRejected_after q reasons

/-- An entry whose count is right after a share had room for it. -/
theorem IsSortedCount.hasRoom (hcounts : (after q reasons).Counts reasons)
    (h : IsSortedCount q (reasons ++ [errorMsg])) : (after q reasons).HasRoom errorMsg := by
  intro i hi stat hstat
  obtain ⟨hlt, hmessage⟩ := statIndex?_eq_some hcounts.fits hi
  obtain rfl : (after q reasons).stats[i] = stat := Option.some.inj
    ((List.getElem?_eq_getElem hlt).symm.trans hstat)
  have hafter := after_concat q reasons errorMsg
  rw [notify_of_some hi] at hafter
  have hlast : i < (after q (reasons ++ [errorMsg])).stats.length := by
    rw [hafter, List.length_modify]
    exact hlt
  have hentry : (after q (reasons ++ [errorMsg])).stats[i].message = cut errorMsg := by
    simp only [hafter, List.getElem_modify, if_pos]
    exact hmessage
  have hnow := h.counts [] (reasons ++ [errorMsg]) rfl _ (List.getElem_mem hlast)
    List.not_mem_nil
  have hbefore := hcounts.counts _ (List.getElem_mem hlt)
  rw [hmessage] at hbefore
  rw [hentry, occurrences_concat, if_pos rfl, ← hbefore] at hnow
  rw [← hnow]
  exact BitVec.isLt _

/-- **The table of rejected reasons** is a sorted count after every share of a sequence,
for exactly the sequences in which no entry's count passes that of the entry before it or
overflows.  The function that raises a count returns without sorting. -/
theorem isSortedCount_iff (q : Qsort compareRejectedReasonStats) (reasons : List (List U8)) :
    (∀ earlier, earlier <+: reasons → IsSortedCount q earlier) ↔
      Guarded (notify q) KeepsOrder zero reasons := by
  constructor
  · intro h
    induction reasons using List.reverseRecOn with
    | nil => trivial
    | append_singleton reasons errorMsg ih =>
      have hbefore := ih fun earlier hearlier =>
        h earlier (hearlier.trans (List.prefix_append _ _))
      have hcounts := counts_after hbefore
      have hlast := h (reasons ++ [errorMsg]) (List.prefix_refl _)
      have hsorted := hlast.sorted
      rw [after_concat] at hsorted
      have hkeeps := (sorted_notify_iff hcounts (sorted_after hbefore)
        (hlast.hasRoom hcounts)).mp hsorted
      exact (guarded_append_iff _).mpr ⟨hbefore, hkeeps, trivial⟩
  · rintro h earlier ⟨later, rfl⟩
    exact isSortedCount_of_guarded ((guarded_append_iff _).mp h).1

/-- A sort that keeps the order of equal elements. -/
def insertionQsort : Qsort compareRejectedReasonStats where
  sort := List.insertionSort fun a b => b.count ≤ a.count
  perm := List.perm_insertionSort _
  sorted := by
    have : Std.Total fun a b : RejectedReasonStat => b.count ≤ a.count :=
      ⟨fun a b => BitVec.le_total b.count a.count⟩
    have : IsTrans RejectedReasonStat fun a b => b.count ≤ a.count :=
      ⟨fun _ _ _ hab hbc => BitVec.le_trans hbc hab⟩
    intro list
    exact (List.pairwise_insertionSort _ list).imp fun {a b} hle => (compare_le_iff a b).mpr hle

/-- Two reasons, and the second once more. -/
theorem second_reason_overtakes : ¬ IsSortedCount insertionQsort [[0x41], [0x42], [0x42]] := by
  intro h
  have hsorted : (after insertionQsort [[0x41], [0x42], [0x42]]).stats.Pairwise
      fun a b => b.count ≤ a.count := h.sorted
  exact absurd hsorted (by decide)

end RejectedReasons

end EspMiner
