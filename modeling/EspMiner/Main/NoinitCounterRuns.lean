import EspMiner.Main.NoinitCounters
import Mathlib.Data.List.Induction

/-!
# What the lifetime counters account for

`losesNothingOver_iff` is about whole histories of boots:

* a boot begins with the larger of what it finds in the memory and in NVS, and loses nothing
  of its calls exactly when every interval below a second is followed only by calls within
  that second, and no sum overflows.  Such an interval moves the time of the last update on
  without being accumulated, so that its hashes are lost;
* NVS gets the counters once in an hour, as they are;
* the counters never decrease, also across a boot, if NVS holds what was last written and the
  power is lost only after a write that nothing has been added to.

The first part compares the intervals that are accumulated with all of them (`countedHashes`,
`hashesOf`).  The others follow the calls with a clock of their own (`HourlyClock`), which says
when a write is due and when NVS holds the counters of the memory.
-/

namespace EspMiner

open Library

/-- The sum of `f` over all consecutive elements -/
def sumConsecutive {α : Type} (f : α → α → Nat) : List α → Nat
  | a :: b :: later => f a b + sumConsecutive f (b :: later)
  | _ => 0

section SumConsecutive

variable {α : Type} {f g : α → α → Nat}

@[simp] theorem sumConsecutive_singleton (a : α) : sumConsecutive f [a] = 0 := rfl

theorem sumConsecutive_cons (a b : α) (later : List α) :
    sumConsecutive f (a :: b :: later) = f a b + sumConsecutive f (b :: later) := rfl

theorem sumConsecutive_pair (a b : α) : sumConsecutive f [a, b] = f a b := Nat.add_zero _

theorem sumConsecutive_append (before : List α) (a : α) (later : List α) :
    sumConsecutive f (before ++ a :: later) =
      sumConsecutive f (before ++ [a]) + sumConsecutive f (a :: later) := by
  induction before with
  | nil => simp
  | cons x before ih =>
    cases before with
    | nil => simp [sumConsecutive]
    | cons y before =>
      simp only [List.cons_append, sumConsecutive] at ih ⊢
      rw [ih, Nat.add_assoc]

theorem sumConsecutive_le (h : ∀ a b, f a b ≤ g a b) (calls : List α) :
    sumConsecutive f calls ≤ sumConsecutive g calls := by
  induction calls with
  | nil => exact le_rfl
  | cons a later ih =>
    cases later with
    | nil => exact le_rfl
    | cons b later => exact Nat.add_le_add (h a b) ih

theorem sumConsecutive_eq_zero {a : α} {later : List α}
    (h : (a :: later).Pairwise fun x y => f x y = 0) : sumConsecutive f (a :: later) = 0 := by
  induction later generalizing a with
  | nil => rfl
  | cons b later ih =>
    have hcons := List.pairwise_cons.mp h
    rw [sumConsecutive, hcons.1 b List.mem_cons_self, ih hcons.2]

end SumConsecutive

namespace NoinitUpdate

/-- `current_time_ms` -/
def timeMs (c : NoinitUpdate) : Nat := c.timeUs / 1000

/-- The whole milliseconds from one call to another -/
def elapsedMs (a b : NoinitUpdate) : Nat := b.timeMs - a.timeMs

/-- The hashes from one call to another at the rate the later one sees -/
def hashesBetween (a b : NoinitUpdate) : Nat :=
  LifetimeCounters.hashesDone (elapsedMs a b) b.hashrate

/-- The hashes of all consecutive calls -/
def hashesOf (calls : List NoinitUpdate) : Nat := sumConsecutive hashesBetween calls

/-- The readings of the clock never go back, and fit its type. -/
structure Clocked (startTimeUs : Nat) (calls : List NoinitUpdate) : Prop where
  started : ∀ c ∈ calls, startTimeUs ≤ c.timeUs
  reading : ∀ c ∈ calls, c.timeUs ≤ c.uptimeTimeUs
  fits : ∀ c ∈ calls, c.uptimeTimeUs < 2 ^ 63
  ordered : calls.Pairwise fun a b => a.uptimeTimeUs ≤ b.timeUs

/-- The interval is accumulated: a second has passed, and the clock did not begin in it. -/
def Accumulated (a b : NoinitUpdate) : Prop := a.timeMs ≠ 0 ∧ 1000 ≤ elapsedMs a b

instance (a b : NoinitUpdate) : Decidable (Accumulated a b) :=
  inferInstanceAs (Decidable (_ ∧ _))

/-- The hashes of an interval that is accumulated -/
def countedBetween (a b : NoinitUpdate) : Nat := if Accumulated a b then hashesBetween a b else 0

/-- The hashes of the accumulated intervals -/
def countedHashes (calls : List NoinitUpdate) : Nat := sumConsecutive countedBetween calls

theorem countedBetween_le (a b : NoinitUpdate) : countedBetween a b ≤ hashesBetween a b := by
  rw [countedBetween]
  split
  · exact le_rfl
  · exact Nat.zero_le _

theorem countedBetween_of_short {a b : NoinitUpdate} (h : elapsedMs a b < 1000) :
    countedBetween a b = 0 :=
  if_neg fun hcounted => Nat.not_lt.mpr hcounted.2 h

theorem elapsedMs_le {a b c : NoinitUpdate} (h : a.timeMs ≤ b.timeMs) :
    elapsedMs b c ≤ elapsedMs a c := Nat.sub_le_sub_left h _

namespace Clocked

variable {startTimeUs : Nat} {calls first second : List NoinitUpdate}

theorem of_append (h : Clocked startTimeUs (first ++ second)) : Clocked startTimeUs first where
  started c hc := h.started c (List.mem_append_left _ hc)
  reading c hc := h.reading c (List.mem_append_left _ hc)
  fits c hc := h.fits c (List.mem_append_left _ hc)
  ordered := (List.pairwise_append.mp h.ordered).1

theorem of_cons {a : NoinitUpdate} (h : Clocked startTimeUs (a :: calls)) :
    Clocked startTimeUs calls where
  started c hc := h.started c (List.mem_cons_of_mem _ hc)
  reading c hc := h.reading c (List.mem_cons_of_mem _ hc)
  fits c hc := h.fits c (List.mem_cons_of_mem _ hc)
  ordered := (List.pairwise_cons.mp h.ordered).2

theorem timeMs_lt (h : Clocked startTimeUs calls) {c : NoinitUpdate} (hc : c ∈ calls) :
    c.timeMs < 2 ^ 64 := by
  have hreading := h.reading c hc
  have hfits := h.fits c hc
  rw [timeMs]
  omega

/-- A call is not before the ones in front of it. -/
theorem uptime_le (h : Clocked startTimeUs (first ++ second)) {a b : NoinitUpdate}
    (ha : a ∈ first) (hb : b ∈ second) : a.uptimeTimeUs ≤ b.timeUs :=
  (List.pairwise_append.mp h.ordered).2.2 a ha b hb

theorem timeMs_le (h : Clocked startTimeUs (first ++ second)) {a b : NoinitUpdate}
    (ha : a ∈ first) (hb : b ∈ second) : a.timeMs ≤ b.timeMs :=
  Nat.div_le_div_right
    ((h.reading a (List.mem_append_left _ ha)).trans (h.uptime_le ha hb))

end Clocked

end NoinitUpdate

namespace LifetimeCounters

variable {seen : List NoinitUpdate}

open NoinitUpdate

/-! ## One call -/

section Update

variable (s : LifetimeCounters) (c : NoinitUpdate)

@[simp] theorem persist_noinitState (now : U64) : (s.persist now).noinitState = s.noinitState := by
  rw [persist]
  split <;> rfl

@[simp] theorem persist_lastUpdateTimeMs (now : U64) :
    (s.persist now).lastUpdateTimeMs = s.lastUpdateTimeMs := by
  rw [persist]
  split <;> rfl

@[simp] theorem persist_totalUptimeAtSystemStart (now : U64) :
    (s.persist now).totalUptimeAtSystemStart = s.totalUptimeAtSystemStart := by
  rw [persist]
  split <;> rfl

@[simp] theorem persist_startTimeUs (now : U64) :
    (s.persist now).startTimeUs = s.startTimeUs := by
  rw [persist]
  split <;> rfl

/-- Every call moves the time of the last update, also one that accumulates nothing. -/
@[simp] theorem update_lastUpdateTimeMs :
    (s.update c).lastUpdateTimeMs = BitVec.ofNat 64 c.timeMs := by
  simp only [update]
  split
  · rfl
  · split
    · rfl
    · simp [accumulate, timeMs]

@[simp] theorem update_totalUptimeAtSystemStart :
    (s.update c).totalUptimeAtSystemStart = s.totalUptimeAtSystemStart := by
  simp only [update]
  split
  · rfl
  · split
    · rfl
    · simp [accumulate]

@[simp] theorem update_startTimeUs : (s.update c).startTimeUs = s.startTimeUs := by
  simp only [update]
  split
  · rfl
  · split
    · rfl
    · simp [accumulate]

/-- The first call of a boot only starts the clock. -/
theorem update_first (h : s.lastUpdateTimeMs = 0) : (s.update c).noinitState = s.noinitState := by
  simp only [update]
  rw [if_pos h]

/-- What a call behind another one does to the counters. -/
theorem update_next {a : NoinitUpdate} (hlast : s.lastUpdateTimeMs = BitVec.ofNat 64 a.timeMs)
    (hle : a.timeMs ≤ c.timeMs) (hfits : c.timeMs < 2 ^ 64) :
    (s.update c).noinitState =
      if Accumulated a c then
        { s.noinitState with
          totalUptime := s.totalUptimeAtSystemStart + uptimeAt c.uptimeTimeUs s.startTimeUs
          cumulativeHashes :=
            s.noinitState.cumulativeHashes.add (BitVec.ofNat 64 (hashesBetween a c)) }
      else s.noinitState := by
  have ha : (BitVec.ofNat 64 a.timeMs).toNat = a.timeMs := by
    rw [BitVec.toNat_ofNat]
    exact Nat.mod_eq_of_lt (lt_of_le_of_lt hle hfits)
  have hzero : s.lastUpdateTimeMs = 0 ↔ a.timeMs = 0 := by
    rw [hlast]
    constructor
    · intro h
      rw [← ha, h]
      rfl
    · intro h
      rw [h]
      rfl
  have helapsed : (BitVec.ofNat 64 (c.timeUs / 1000) - s.lastUpdateTimeMs).toNat =
      elapsedMs a c := by
    rw [hlast, ← timeMs, BitVec.toNat_sub, ha, BitVec.toNat_ofNat, elapsedMs]
    omega
  have hshort : BitVec.ofNat 64 (c.timeUs / 1000) - s.lastUpdateTimeMs < 1000 ↔
      elapsedMs a c < 1000 := by
    rw [BitVec.lt_def, helapsed]
    rfl
  by_cases hfirst : a.timeMs = 0
  · rw [if_neg fun h => h.1 hfirst, update_first s c (hzero.mpr hfirst)]
  · have hrun : ¬ s.lastUpdateTimeMs = 0 := fun h => hfirst (hzero.mp h)
    simp only [update]
    rw [if_neg hrun]
    by_cases hsecond : elapsedMs a c < 1000
    · rw [if_pos (hshort.mpr hsecond), if_neg fun h => Nat.not_lt.mpr h.2 hsecond]
    · rw [if_neg fun h => hsecond (hshort.mp h), persist_noinitState,
        if_pos ⟨hfirst, Nat.not_lt.mp hsecond⟩]
      simp only [accumulate, hashesBetween, helapsed]

end Update

/-! ## The calls of a boot -/

/-- The hashes of all boots -/
def hashes (s : LifetimeCounters) : Nat := s.noinitState.cumulativeHashes.toNat

/-- A boot as `SYSTEM_init_system` leaves it -/
structure Started (s : LifetimeCounters) : Prop where
  unclocked : s.lastUpdateTimeMs = 0
  uptime : s.noinitState.totalUptime = s.totalUptimeAtSystemStart

theorem started_start (s : LifetimeCounters) (boot : Boot) : (s.start boot).Started := ⟨rfl, rfl⟩

section Run

variable (s : LifetimeCounters)

theorem run_snoc (seen : List NoinitUpdate) (c : NoinitUpdate) :
    run update s (seen ++ [c]) = (run update s seen).update c := run_append ..

@[simp] theorem run_totalUptimeAtSystemStart (seen : List NoinitUpdate) :
    (run update s seen).totalUptimeAtSystemStart = s.totalUptimeAtSystemStart :=
  run_invariant (P := fun s' => s'.totalUptimeAtSystemStart = s.totalUptimeAtSystemStart) update
    (fun _ _ h => (update_totalUptimeAtSystemStart ..).trans h) rfl seen

@[simp] theorem run_startTimeUs (seen : List NoinitUpdate) :
    (run update s seen).startTimeUs = s.startTimeUs :=
  run_invariant (P := fun s' => s'.startTimeUs = s.startTimeUs) update
    (fun _ _ h => (update_startTimeUs ..).trans h) rfl seen

variable {s}

/-- What a call behind `a` does to the counters of a boot. -/
theorem run_next {a c : NoinitUpdate} (hclock : Clocked s.startTimeUs (seen ++ [a, c])) :
    (run update s (seen ++ [a, c])).noinitState =
      if Accumulated a c then
        { (run update s (seen ++ [a])).noinitState with
          totalUptime := s.totalUptimeAtSystemStart + uptimeAt c.uptimeTimeUs s.startTimeUs
          cumulativeHashes := (run update s (seen ++ [a])).noinitState.cumulativeHashes.add
            (BitVec.ofNat 64 (hashesBetween a c)) }
      else (run update s (seen ++ [a])).noinitState := by
  have hsplit : seen ++ [a, c] = (seen ++ [a]) ++ [c] := by simp
  rw [hsplit] at hclock
  have hle := hclock.timeMs_le (a := a) (b := c) (by simp) (by simp)
  have hlast : (run update s (seen ++ [a])).lastUpdateTimeMs = BitVec.ofNat 64 a.timeMs := by
    rw [run_snoc, update_lastUpdateTimeMs]
  rw [hsplit, run_snoc, update_next _ _ hlast hle (hclock.timeMs_lt (by simp))]
  simp

theorem run_first (hstart : s.Started) (c : NoinitUpdate) :
    (run update s [c]).noinitState = s.noinitState :=
  update_first s c hstart.unclocked

theorem hashes_first (hstart : s.Started) (c : NoinitUpdate) :
    (run update s [c]).hashes = s.hashes :=
  congrArg (fun state => state.cumulativeHashes.toNat) (run_first hstart c)

theorem hashes_next {a c : NoinitUpdate} (hclock : Clocked s.startTimeUs (seen ++ [a, c])) :
    (run update s (seen ++ [a, c])).hashes =
      if Accumulated a c then ((run update s (seen ++ [a])).noinitState.cumulativeHashes.add
        (BitVec.ofNat 64 (hashesBetween a c))).toNat
      else (run update s (seen ++ [a])).hashes := by
  have hnext := congrArg (fun state => state.cumulativeHashes.toNat) (run_next hclock)
  by_cases hlong : Accumulated a c
  · rw [if_pos hlong] at hnext ⊢
    exact hnext
  · rw [if_neg hlong] at hnext ⊢
    exact hnext

theorem countedHashes_singleton (c : NoinitUpdate) : countedHashes [c] = 0 := rfl

theorem countedHashes_next (seen : List NoinitUpdate) (a c : NoinitUpdate) :
    countedHashes (seen ++ [a, c]) = countedHashes (seen ++ [a]) + countedBetween a c :=
  sumConsecutive_append seen a [c]

/-- Whatever overflows, a boot adds at most the hashes of the accumulated intervals. -/
theorem hashes_run_le (hstart : s.Started) (hclock : Clocked s.startTimeUs seen) :
    (run update s seen).hashes ≤ s.hashes + countedHashes seen := by
  induction seen using List.reverseRecOn with
  | nil => exact Nat.le_add_right _ _
  | append_singleton seen c ih =>
    rcases List.eq_nil_or_concat seen with rfl | ⟨before, a, rfl⟩
    · rw [List.nil_append, hashes_first hstart]
      exact Nat.le_add_right _ _
    · rw [List.concat_eq_append] at ih hclock ⊢
      have ih := ih hclock.of_append
      rw [List.append_assoc, List.singleton_append] at hclock ⊢
      rw [hashes_next hclock, countedHashes_next, countedBetween, ← Nat.add_assoc]
      by_cases hlong : Accumulated a c
      · rw [if_pos hlong, if_pos hlong]
        have hword : (BitVec.ofNat 64 (hashesBetween a c)).toNat ≤ hashesBetween a c := by
          rw [BitVec.toNat_ofNat]
          exact Nat.mod_le _ _
        exact (DoubleWord.toNat_add_le _ _).trans (Nat.add_le_add ih hword)
      · rw [if_neg hlong, if_neg hlong, Nat.add_zero]
        exact ih

/-- Nothing overflows at the accumulated interval from `a` to `b`, which follows on `before`. -/
structure Fits (s : LifetimeCounters) (before : List NoinitUpdate) (a b : NoinitUpdate) :
    Prop where
  word : hashesBetween a b < 2 ^ 64
  pair : s.hashes + countedHashes (before ++ [a, b]) < 2 ^ 128
  uptime : s.noinitState.totalUptime.toNat + (b.uptimeTimeUs - s.startTimeUs) / 1000000 < 2 ^ 64

/-- Nothing overflows in the calls. -/
def AllFit (s : LifetimeCounters) (calls : List NoinitUpdate) : Prop :=
  ∀ before a b later, calls = before ++ a :: b :: later → Accumulated a b → s.Fits before a b

theorem AllFit.of_append {first second : List NoinitUpdate} (h : s.AllFit (first ++ second)) :
    s.AllFit first := by
  intro before a b later heq
  exact h before a b (later ++ second) (by rw [heq]; simp)

/-- A boot adds the hashes of the accumulated intervals. -/
theorem hashes_run (hstart : s.Started) (hclock : Clocked s.startTimeUs seen)
    (hfits : s.AllFit seen) : (run update s seen).hashes = s.hashes + countedHashes seen := by
  induction seen using List.reverseRecOn with
  | nil => exact (Nat.add_zero _).symm
  | append_singleton seen c ih =>
    rcases List.eq_nil_or_concat seen with rfl | ⟨before, a, rfl⟩
    · rw [List.nil_append, hashes_first hstart, countedHashes_singleton, Nat.add_zero]
    · rw [List.concat_eq_append] at ih hclock hfits ⊢
      have ih := ih hclock.of_append hfits.of_append
      rw [List.append_assoc, List.singleton_append] at hclock hfits ⊢
      by_cases hlong : Accumulated a c
      · have hfit := hfits before a c [] rfl hlong
        have hpair := hfit.pair
        have hword : (BitVec.ofNat 64 (hashesBetween a c)).toNat = hashesBetween a c := by
          rw [BitVec.toNat_ofNat]
          exact Nat.mod_eq_of_lt hfit.word
        have hcounted : countedHashes (before ++ [a, c]) =
            countedHashes (before ++ [a]) + hashesBetween a c := by
          rw [countedHashes_next, countedBetween, if_pos hlong]
        rw [hashes] at ih
        have hroom : (run update s (before ++ [a])).noinitState.cumulativeHashes.toNat +
            (BitVec.ofNat 64 (hashesBetween a c)).toNat < 2 ^ 64 * 2 ^ 64 := by
          rw [ih, hword, Nat.add_assoc, ← hcounted]
          exact hpair
        rw [hashes_next hclock, if_pos hlong, hcounted, ← Nat.add_assoc, ← ih,
          DoubleWord.toNat_add _ _ hroom, hword]
      · rw [hashes_next hclock, countedHashes_next, countedBetween, if_neg hlong, if_neg hlong]
        exact ih

theorem toNat_uptimeAt {timeUs startTimeUs : Nat} (hstart : startTimeUs ≤ timeUs)
    (hfits : timeUs < 2 ^ 63) :
    (uptimeAt timeUs startTimeUs).toNat = (timeUs - startTimeUs) / 1000000 := by
  have hdiv : ((timeUs : Int) - startTimeUs).tdiv 1000000 =
      (((timeUs - startTimeUs) / 1000000 : Nat) : Int) := by
    rw [Int.tdiv_eq_ediv_of_nonneg (by omega)]
    omega
  rw [uptimeAt, hdiv, BitVec.ofInt_natCast, BitVec.toNat_ofNat]
  omega

/-- The uptime is that of the last accumulated call, or the one the boot began with. -/
theorem uptime_run (hstart : s.Started) (hclock : Clocked s.startTimeUs seen)
    (hfits : s.AllFit seen) :
    ∃ timeUs, (timeUs = s.startTimeUs ∨ ∃ a ∈ seen, timeUs = a.uptimeTimeUs) ∧
      (run update s seen).noinitState.totalUptime.toNat =
        s.noinitState.totalUptime.toNat + (timeUs - s.startTimeUs) / 1000000 := by
  induction seen using List.reverseRecOn with
  | nil => exact ⟨s.startTimeUs, .inl rfl, by simp⟩
  | append_singleton seen c ih =>
    rcases List.eq_nil_or_concat seen with rfl | ⟨before, a, rfl⟩
    · refine ⟨s.startTimeUs, .inl rfl, ?_⟩
      rw [List.nil_append, run_first hstart]
      simp
    · rw [List.concat_eq_append] at ih hclock hfits ⊢
      obtain ⟨timeUs, htime, huptime⟩ := ih hclock.of_append hfits.of_append
      rw [List.append_assoc, List.singleton_append] at hclock hfits ⊢
      rw [run_next hclock]
      by_cases hlong : Accumulated a c
      · have hc : c ∈ before ++ [a, c] := by simp
        have hread := hclock.reading c hc
        have hseconds := toNat_uptimeAt ((hclock.started c hc).trans hread) (hclock.fits c hc)
        have hfit := (hfits before a c [] rfl hlong).uptime
        refine ⟨c.uptimeTimeUs, .inr ⟨c, hc, rfl⟩, ?_⟩
        rw [hstart.uptime] at hfit ⊢
        rw [if_pos hlong]
        dsimp only
        rw [BitVec.toNat_add, hseconds, Nat.mod_eq_of_lt hfit]
      · rw [if_neg hlong]
        refine ⟨timeUs, htime.imp_right ?_, huptime⟩
        rintro ⟨x, hx, rfl⟩
        exact ⟨x, by simp only [List.mem_append, List.mem_cons] at hx ⊢; tauto, rfl⟩

end Run

/-! ## What a boot accounts for -/

/-- The counters after the calls `seen` of a boot: everything up to the call `last` has been
accounted for once, and the calls since then are less than a second after it. -/
def Accounts (s : LifetimeCounters) (seen : List NoinitUpdate) : Prop :=
  ∃ before last pending, seen = before ++ last :: pending ∧
    (∀ c ∈ pending, elapsedMs last c < 1000) ∧
    (run update s seen).hashes = s.hashes + hashesOf (before ++ [last])

/-- Neither counter of `s'` is below that of `s`. -/
structure CountersLe (s s' : LifetimeCounters) : Prop where
  uptime : s.noinitState.totalUptime ≤ s'.noinitState.totalUptime
  hashes : s.hashes ≤ s'.hashes

/-- Neither counter decreases, and a carry out of the low word increments the high word
exactly once. -/
structure Grows (s s' : LifetimeCounters) : Prop extends CountersLe s s' where
  carry : ∃ added < 2 ^ 64,
    s'.noinitState.cumulativeHashes.low.toNat =
      (s.noinitState.cumulativeHashes.low.toNat + added) % 2 ^ 64 ∧
    s'.noinitState.cumulativeHashes.high.toNat = s.noinitState.cumulativeHashes.high.toNat +
      (s.noinitState.cumulativeHashes.low.toNat + added) / 2 ^ 64

/-- A boot loses nothing of its calls. -/
structure LosesNothing (s : LifetimeCounters) (calls : List NoinitUpdate) : Prop where
  accounts : ∀ seen later, calls = seen ++ later → seen ≠ [] → s.Accounts seen
  grows : ∀ seen c later, calls = seen ++ c :: later →
    Grows (run update s seen) (run update s (seen ++ [c]))

/-- An interval that has hashes and is not accumulated is followed only by calls within a
second of its start. -/
def EndsQuickly (calls : List NoinitUpdate) : Prop :=
  ∀ before a b later, calls = before ++ a :: b :: later → ¬ Accumulated a b →
    hashesBetween a b ≠ 0 → ∀ c ∈ b :: later, elapsedMs a c < 1000

/-- The condition on the calls of a boot. -/
structure Accountable (s : LifetimeCounters) (calls : List NoinitUpdate) : Prop where
  quick : EndsQuickly calls
  fits : s.AllFit calls

theorem EndsQuickly.of_append {first second : List NoinitUpdate}
    (h : EndsQuickly (first ++ second)) : EndsQuickly first := by
  intro before a b later heq hshort hhashes c hc
  have hwhole : first ++ second = before ++ a :: b :: (later ++ second) := by
    rw [heq]
    simp
  refine h before a b _ hwhole hshort hhashes c ?_
  simp only [List.mem_cons, List.mem_append] at hc ⊢
  tauto

theorem EndsQuickly.of_cons {a : NoinitUpdate} {later : List NoinitUpdate}
    (h : EndsQuickly (a :: later)) : EndsQuickly later := by
  intro before x y rest heq
  exact h (a :: before) x y rest (by rw [heq]; rfl)

section Growth

variable {s s' : LifetimeCounters}

theorem grows_of_eq (h : s'.noinitState = s.noinitState) : Grows s s' := by
  have hlow := s.noinitState.cumulativeHashes.low.isLt
  refine ⟨⟨?_, ?_⟩, 0, by decide, ?_, ?_⟩
  · rw [h]
    exact BitVec.le_refl _
  · rw [hashes, hashes, h]
  · rw [h, Nat.add_zero, Nat.mod_eq_of_lt hlow]
  · rw [h, Nat.add_zero, Nat.div_eq_of_lt hlow, Nat.add_zero]

/-- A call without an overflow lets the counters grow. -/
theorem grows_run (hstart : s.Started) {c : NoinitUpdate}
    (hclock : Clocked s.startTimeUs (seen ++ [c])) (hfits : s.AllFit (seen ++ [c])) :
    Grows (run update s seen) (run update s (seen ++ [c])) := by
  rcases List.eq_nil_or_concat seen with rfl | ⟨before, a, rfl⟩
  · exact grows_of_eq (run_first hstart c)
  · rw [List.concat_eq_append] at hclock hfits ⊢
    obtain ⟨timeUs, htime, huptime⟩ := uptime_run hstart hclock.of_append hfits.of_append
    have hbefore := hashes_run hstart hclock.of_append hfits.of_append
    have hmono : ∀ x ∈ before ++ [a], x.uptimeTimeUs ≤ c.timeUs :=
      fun x hx => hclock.uptime_le hx (by simp)
    have hc : c ∈ before ++ [a] ++ [c] := by simp
    have hread := hclock.reading c hc
    have hbegin := hclock.started c hc
    have hend := hclock.fits c hc
    rw [List.append_assoc, List.singleton_append] at hclock hfits ⊢
    by_cases hlong : Accumulated a c
    · have hfit := hfits before a c [] rfl hlong
      have hpair := hfit.pair
      have hword : (BitVec.ofNat 64 (hashesBetween a c)).toNat = hashesBetween a c := by
        rw [BitVec.toNat_ofNat]
        exact Nat.mod_eq_of_lt hfit.word
      have hroom : (run update s (before ++ [a])).noinitState.cumulativeHashes.toNat +
          (BitVec.ofNat 64 (hashesBetween a c)).toNat < 2 ^ 64 * 2 ^ 64 := by
        rw [countedHashes_next, countedBetween, if_pos hlong, ← Nat.add_assoc, ← hbefore,
          hashes] at hpair
        rw [hword]
        exact hpair
      have hnext := run_next hclock
      rw [if_pos hlong] at hnext
      refine ⟨⟨?_, ?_⟩, hashesBetween a c, hfit.word, ?_, ?_⟩
      · have hseconds := toNat_uptimeAt (hbegin.trans hread) hend
        have hlate : (timeUs - s.startTimeUs) / 1000000 ≤
            (c.uptimeTimeUs - s.startTimeUs) / 1000000 := by
          refine Nat.div_le_div_right (Nat.sub_le_sub_right ?_ _)
          rcases htime with rfl | ⟨x, hx, rfl⟩
          · exact hbegin.trans hread
          · exact (hmono x hx).trans hread
        have hroomUptime := hfit.uptime
        rw [hnext, BitVec.le_def, huptime]
        rw [hstart.uptime] at hroomUptime ⊢
        dsimp only
        rw [BitVec.toNat_add, hseconds, Nat.mod_eq_of_lt hroomUptime]
        exact Nat.add_le_add_left hlate _
      · rw [hashes, hashes, hnext]
        dsimp only
        rw [DoubleWord.toNat_add _ _ hroom]
        exact Nat.le_add_right _ _
      · rw [hnext]
        dsimp only
        rw [DoubleWord.low_add, hword]
      · rw [hnext]
        dsimp only
        rw [DoubleWord.high_add _ _ hroom, hword]
    · refine grows_of_eq ?_
      rw [run_next hclock, if_neg hlong]

/-- Calls that are within a second of the first add nothing. -/
theorem countedHashes_of_short {startTimeUs : Nat} {a : NoinitUpdate} {later : List NoinitUpdate}
    (hclock : Clocked startTimeUs (a :: later)) (hshort : ∀ c ∈ later, elapsedMs a c < 1000) :
    countedHashes (a :: later) = 0 := by
  have hsplit : Clocked startTimeUs ([a] ++ later) := hclock
  refine sumConsecutive_eq_zero ?_
  rw [List.pairwise_cons]
  refine ⟨fun c hc => countedBetween_of_short (hshort c hc), ?_⟩
  refine List.pairwise_of_forall_mem_list ?_
  intro b hb c hc
  have hlater : a.timeMs ≤ b.timeMs := hsplit.timeMs_le (by simp) hb
  exact countedBetween_of_short ((elapsedMs_le hlater).trans_lt (hshort c hc))

/-- The accumulated intervals are all intervals up to a call that the others follow within a
second. -/
theorem exists_last_accounted {startTimeUs : Nat} {a : NoinitUpdate} {later : List NoinitUpdate}
    (hclock : Clocked startTimeUs (a :: later)) (hquick : EndsQuickly (a :: later)) :
    ∃ before last pending, a :: later = before ++ last :: pending ∧
      (∀ c ∈ pending, elapsedMs last c < 1000) ∧
      countedHashes (a :: later) = hashesOf (before ++ [last]) := by
  induction later generalizing a with
  | nil =>
    refine ⟨[], a, [], rfl, by simp, ?_⟩
    rw [countedHashes, hashesOf, List.nil_append, sumConsecutive_singleton,
      sumConsecutive_singleton]
  | cons b later ih =>
    by_cases hlost : ¬ Accumulated a b ∧ hashesBetween a b ≠ 0
    · have hshort := hquick [] a b later rfl hlost.1 hlost.2
      exact ⟨[], a, b :: later, rfl, hshort, countedHashes_of_short hclock hshort⟩
    · have hcounted : countedBetween a b = hashesBetween a b := by
        rw [countedBetween]
        split
        · rfl
        next hshort => exact (not_not.mp fun h => hlost ⟨hshort, h⟩).symm
      obtain ⟨before, last, pending, heq, hpending, hsum⟩ := ih hclock.of_cons hquick.of_cons
      refine ⟨a :: before, last, pending, by rw [heq]; rfl, hpending, ?_⟩
      have hhead : ∃ rest, before ++ [last] = b :: rest := by
        cases before with
        | nil => exact ⟨[], by simp_all⟩
        | cons x rest => exact ⟨rest ++ [last], by simp_all⟩
      obtain ⟨rest, hrest⟩ := hhead
      rw [hrest] at hsum
      rw [countedHashes, hashesOf] at hsum
      rw [List.cons_append, hrest, countedHashes, hashesOf, sumConsecutive_cons,
        sumConsecutive_cons, hcounted, hsum]

/-- **A boot whose calls meet the condition loses nothing.** -/
theorem losesNothing_of_accountable (hstart : s.Started) {calls : List NoinitUpdate}
    (hclock : Clocked s.startTimeUs calls) (h : s.Accountable calls) : s.LosesNothing calls where
  accounts seen later heq hne := by
    subst heq
    obtain ⟨a, rest, rfl⟩ := List.exists_cons_of_ne_nil hne
    obtain ⟨before, last, pending, hsplit, hpending, hsum⟩ :=
      exists_last_accounted hclock.of_append h.quick.of_append
    refine ⟨before, last, pending, hsplit, hpending, ?_⟩
    rw [hashes_run hstart hclock.of_append h.fits.of_append, hsum]
  grows seen c later heq := by
    have hwhole : calls = (seen ++ [c]) ++ later := by rw [heq]; simp
    subst hwhole
    exact grows_run hstart hclock.of_append h.fits.of_append

/-- The calls that are accounted for include the call `c` if it is a second behind `a`. -/
theorem accounted_past {startTimeUs : Nat} {before mid done pending : List NoinitUpdate}
    {a c last : NoinitUpdate} (hclock : Clocked startTimeUs (before ++ a :: (mid ++ [c])))
    (hfar : 1000 ≤ elapsedMs a c) (heq : before ++ a :: (mid ++ [c]) = done ++ last :: pending)
    (hpending : ∀ x ∈ pending, elapsedMs last x < 1000) :
    ∃ b rest, done ++ [last] = before ++ a :: b :: rest ∧ mid ++ [c] = b :: rest ++ pending := by
  have hsplit : (before ++ [a]) ++ (mid ++ [c]) = (done ++ [last]) ++ pending := by
    simpa using heq
  have hclock' : Clocked startTimeUs ((before ++ [a]) ++ (mid ++ [c])) := by
    simpa using hclock
  have hbefore : ∀ x ∈ before ++ [a], x.timeMs ≤ a.timeMs := by
    intro x hx
    have hpair : Clocked startTimeUs (before ++ (a :: (mid ++ [c]))) := hclock
    rcases List.mem_append.mp hx with hx | hx
    · exact hpair.timeMs_le hx List.mem_cons_self
    · exact (List.mem_singleton.mp hx) ▸ le_rfl
  rcases List.append_eq_append_iff.mp hsplit with ⟨t, hdone, hrest⟩ | ⟨t, ha, hrest⟩
  · cases t with
    | nil =>
      rw [List.append_nil] at hdone
      have hlast : last = a := by simpa using (List.append_inj' hdone rfl).2
      have hc := hpending c (by rw [← List.nil_append pending, ← hrest]; simp)
      rw [hlast] at hc
      exact absurd hc (Nat.not_lt.mpr hfar)
    | cons b rest =>
      exact ⟨b, rest, by rw [hdone]; simp, hrest⟩
  · have hlast : last ∈ before ++ [a] := by rw [ha]; simp
    have hc := hpending c (by rw [hrest]; simp)
    exact absurd (hfar.trans (elapsedMs_le (hbefore last hlast))) (Nat.not_le.mpr hc)

/-- All hashes are at least the ones of the accumulated intervals. -/
theorem countedHashes_le (calls : List NoinitUpdate) : countedHashes calls ≤ hashesOf calls :=
  sumConsecutive_le countedBetween_le calls

theorem countersLe_run {calls : List NoinitUpdate} (h : s.LosesNothing calls)
    {seen later : List NoinitUpdate} (heq : calls = seen ++ later) :
    s.CountersLe (run update s seen) := by
  induction seen using List.reverseRecOn generalizing later with
  | nil => exact ⟨BitVec.le_refl _, Nat.le_refl _⟩
  | append_singleton seen c ih =>
    have hsplit : calls = seen ++ c :: later := by rw [heq]; simp
    have hgrows := h.grows seen c later hsplit
    exact ⟨BitVec.le_trans (ih hsplit).uptime hgrows.uptime,
      (ih hsplit).hashes.trans hgrows.hashes⟩

/-- An accumulated interval of a boot that loses nothing does not overflow. -/
theorem fits_of_losesNothing (hstart : s.Started) {before later : List NoinitUpdate}
    {a b : NoinitUpdate} (hclock : Clocked s.startTimeUs (before ++ a :: b :: later))
    (h : s.LosesNothing (before ++ a :: b :: later)) (hlong : Accumulated a b) :
    s.Fits before a b := by
  have hsplit : before ++ a :: b :: later = (before ++ [a, b]) ++ later := by simp
  have hseen : Clocked s.startTimeUs (before ++ [a, b]) := by
    rw [hsplit] at hclock
    exact hclock.of_append
  obtain ⟨done, last, pending, heq, hpending, hvalue⟩ :=
    h.accounts (before ++ [a, b]) later hsplit (by simp)
  obtain ⟨b', rest, hdone, hrest⟩ :=
    @accounted_past s.startTimeUs before [] done pending a b last hseen hlong.2 heq hpending
  have htail : b = b' ∧ rest = [] ∧ pending = [] := by simpa using hrest
  obtain ⟨rfl, rfl, rfl⟩ := htail
  rw [hdone, hashesOf, sumConsecutive_append before a [b]] at hvalue
  have hprevious : Clocked s.startTimeUs (before ++ [a]) := by
    have hseen' : Clocked s.startTimeUs ((before ++ [a]) ++ [b]) := by simpa using hseen
    exact hseen'.of_append
  have hupper := hashes_run_le hstart hprevious
  have hcounted := countedHashes_le (before ++ [a])
  have hnext := hashes_next hseen
  rw [if_pos hlong] at hnext
  have hadd := DoubleWord.toNat_add_le (run update s (before ++ [a])).noinitState.cumulativeHashes
    (BitVec.ofNat 64 (hashesBetween a b))
  have hbound := DoubleWord.toNat_lt
    ((run update s (before ++ [a])).noinitState.cumulativeHashes.add
      (BitVec.ofNat 64 (hashesBetween a b)))
  rw [← hnext] at hadd hbound
  rw [BitVec.toNat_ofNat] at hadd
  rw [sumConsecutive_pair] at hvalue
  rw [hashesOf] at hcounted
  rw [hashes] at hupper
  refine ⟨?_, ?_, ?_⟩
  · have hmod := Nat.mod_lt (hashesBetween a b) (show 0 < 2 ^ 64 by decide)
    omega
  · rw [countedHashes_next, countedBetween, if_pos hlong]
    omega
  · have huptime := (countersLe_run h hsplit).uptime
    have hmem : b ∈ before ++ [a, b] := by simp
    have hseconds := toNat_uptimeAt ((hseen.started b hmem).trans (hseen.reading b hmem))
      (hseen.fits b hmem)
    have hfits := hseen.fits b hmem
    rw [run_next hseen, if_pos hlong, BitVec.le_def] at huptime
    dsimp only at huptime
    rw [BitVec.toNat_add, hseconds, hstart.uptime] at huptime
    rw [hstart.uptime]
    omega

/-- **A boot that loses nothing meets the condition.** -/
theorem accountable_of_losesNothing (hstart : s.Started) {calls : List NoinitUpdate}
    (hclock : Clocked s.startTimeUs calls) (h : s.LosesNothing calls) : s.Accountable calls where
  fits before a b later heq hlong := by
    subst heq
    exact fits_of_losesNothing hstart hclock h hlong
  quick before a b later heq hshort hhashes c hc := by
    subst heq
    by_contra hfar
    obtain ⟨mid, rest, hmid⟩ := List.append_of_mem hc
    have hsplit : before ++ a :: b :: later = (before ++ a :: (mid ++ [c])) ++ rest := by
      rw [hmid]
      simp
    have hseen : Clocked s.startTimeUs (before ++ a :: (mid ++ [c])) := by
      rw [hsplit] at hclock
      exact hclock.of_append
    obtain ⟨done, last, pending, heq, hpending, hvalue⟩ :=
      h.accounts (before ++ a :: (mid ++ [c])) rest hsplit (by simp)
    obtain ⟨b', tail, hdone, htail⟩ := accounted_past hseen (Nat.not_lt.mp hfar) heq hpending
    have hb : b = b' := by
      have hhead : b :: later = b' :: (tail ++ pending ++ rest) := by
        have hjoin : mid ++ c :: rest = (mid ++ [c]) ++ rest := by simp
        rw [hmid, hjoin, htail]
        simp
      exact (List.cons.inj hhead).1
    subst hb
    have hupper := hashes_run_le hstart hseen
    have hpast : countedHashes (last :: pending) = 0 := by
      rw [heq] at hseen
      have hlast : Clocked s.startTimeUs (last :: pending) :=
        ⟨fun x hx => hseen.started x (by simp_all), fun x hx => hseen.reading x (by simp_all),
          fun x hx => hseen.fits x (by simp_all), (List.pairwise_append.mp hseen.ordered).2.1⟩
      exact countedHashes_of_short hlast hpending
    have hall : countedHashes (before ++ a :: (mid ++ [c])) =
        countedHashes (done ++ [last]) + countedHashes (last :: pending) := by
      rw [heq]
      exact sumConsecutive_append done last pending
    have hless : countedHashes (done ++ [last]) < hashesOf (done ++ [last]) := by
      have hbefore := countedHashes_le (before ++ [a])
      have hafter := countedHashes_le (b :: tail)
      have hzero : countedBetween a b = 0 := if_neg hshort
      rw [hdone, countedHashes, hashesOf, sumConsecutive_append before a (b :: tail),
        sumConsecutive_append before a (b :: tail), sumConsecutive_cons, sumConsecutive_cons, hzero]
      rw [countedHashes, hashesOf] at hbefore hafter
      omega
    omega

end Growth

/-! ## Restarts -/

/-- The counters that a restart finds: those of the system, or none after a loss of power -/
def keptUptime (s : LifetimeCounters) (memory : NoinitMemory) : Nat :=
  match memory with
  | .kept => s.noinitState.totalUptime.toNat
  | .lost _ _ => 0

def keptHashes (s : LifetimeCounters) (memory : NoinitMemory) : Nat :=
  match memory with
  | .kept => s.hashes
  | .lost _ _ => 0

/-- The boot begins with the larger of what the memory and NVS hold. -/
structure Restores (s : LifetimeCounters) (boot : Boot) : Prop where
  uptime : (s.start boot).noinitState.totalUptime.toNat =
    Nat.max (s.keptUptime boot.memory) boot.nvs.totalUptime.toNat
  hashes : (s.start boot).hashes =
    Nat.max (s.keptHashes boot.memory) boot.nvs.cumulativeHashes.toNat

/-- A restart begins with the larger of what it finds. -/
theorem restores (s : LifetimeCounters) (boot : Boot) : s.Restores boot := by
  have hfound : (initNoinitState (boot.memory.found s.noinitState)).totalUptime.toNat =
        s.keptUptime boot.memory ∧
      (initNoinitState (boot.memory.found s.noinitState)).cumulativeHashes.toNat =
        s.keptHashes boot.memory := by
    cases boot.memory with
    | kept =>
      rw [NoinitMemory.found, initNoinitState, if_neg (not_not.mpr s.hsentinel)]
      exact ⟨rfl, rfl⟩
    | lost found hlost =>
      rw [NoinitMemory.found, initNoinitState, if_pos hlost]
      exact ⟨rfl, rfl⟩
  refine ⟨?_, ?_⟩
  · rw [← hfound.1, start, initSystem]
    dsimp only
    split
    case isTrue h => exact (Nat.max_eq_right (Nat.le_of_lt h)).symm
    case isFalse h => exact (Nat.max_eq_left (Nat.not_lt.mp h)).symm
  · rw [← hfound.2]
    exact DoubleWord.toNat_max ..

/-! ## Writes to NVS -/

/-- What the calls of a boot say about the hourly write: the times of the last call and
of the last write, or of the call that started the clock, and whether something has been
accumulated since the last write. -/
structure HourlyClock where
  lastMs : Nat
  writtenMs : Nat
  unwritten : Bool
deriving DecidableEq, Repr

namespace HourlyClock

def Accumulates (k : HourlyClock) (c : NoinitUpdate) : Prop :=
  k.lastMs ≠ 0 ∧ 1000 ≤ c.timeMs - k.lastMs

/-- An hour has passed since the last write, and the call accumulates. -/
def Due (k : HourlyClock) (c : NoinitUpdate) : Prop :=
  k.Accumulates c ∧ 3600000 ≤ c.timeMs - k.writtenMs

instance (k : HourlyClock) (c : NoinitUpdate) : Decidable (k.Accumulates c) :=
  inferInstanceAs (Decidable (_ ∧ _))

instance (k : HourlyClock) (c : NoinitUpdate) : Decidable (k.Due c) :=
  inferInstanceAs (Decidable (_ ∧ _))

def call (k : HourlyClock) (c : NoinitUpdate) : HourlyClock :=
  if k.Due c then ⟨c.timeMs, c.timeMs, false⟩
  else if k.Accumulates c then ⟨c.timeMs, k.writtenMs, true⟩
  else if k.lastMs = 0 then ⟨c.timeMs, c.timeMs, k.unwritten⟩
  else ⟨c.timeMs, k.writtenMs, k.unwritten⟩

theorem call_lastMs (k : HourlyClock) (c : NoinitUpdate) : (k.call c).lastMs = c.timeMs := by
  unfold call
  split
  · rfl
  · split
    · rfl
    · split <;> rfl

/-- The clock shows what the system has, and NVS holds the counters if it says so. -/
structure Shows (k : HourlyClock) (s : LifetimeCounters) : Prop where
  last : s.lastUpdateTimeMs.toNat = k.lastMs
  written : s.lastNvsWriteTimeMs.toNat = k.writtenMs
  order : k.writtenMs ≤ k.lastMs
  nvs : k.unwritten = false → s.nvs = s.counters

variable {k : HourlyClock} {s : LifetimeCounters} {c : NoinitUpdate}

/-- The counters that were accumulated are written if the last write was an hour ago. -/
theorem shows_persist {nowMs writtenMs : Nat} {now : U64} (hnow : now.toNat = nowMs)
    (hlast : s.lastUpdateTimeMs = now) (hwritten : s.lastNvsWriteTimeMs.toNat = writtenMs)
    (hle : writtenMs ≤ nowMs) :
    (3600000 ≤ nowMs - writtenMs → Shows ⟨nowMs, nowMs, false⟩ (s.persist now) ∧
      (s.persist now).nvs = (s.persist now).counters) ∧
    (¬ 3600000 ≤ nowMs - writtenMs → Shows ⟨nowMs, writtenMs, true⟩ (s.persist now) ∧
      (s.persist now).nvs = s.nvs) := by
  have hhour : NVS_COUNTER_UPDATE_INTERVAL_MS ≤ now - s.lastNvsWriteTimeMs ↔
      3600000 ≤ nowMs - writtenMs := by
    have hsince : (now - s.lastNvsWriteTimeMs).toNat = nowMs - writtenMs := by
      have := now.isLt
      rw [BitVec.toNat_sub, hnow, hwritten]
      omega
    rw [BitVec.le_def, hsince]
    rfl
  refine ⟨fun hdue => ?_, fun hdue => ?_⟩
  · rw [persist, if_pos (hhour.mpr hdue)]
    exact ⟨⟨hlast ▸ hnow, hnow, le_rfl, fun _ => rfl⟩, rfl⟩
  · rw [persist, if_neg fun h => hdue (hhour.mp h)]
    exact ⟨⟨hlast ▸ hnow, hwritten, hle, nofun⟩, rfl⟩

/-- A call writes the counters exactly when that is due. -/
theorem Shows.update (h : k.Shows s) (hle : k.lastMs ≤ c.timeMs) (hfits : c.timeMs < 2 ^ 64) :
    (k.call c).Shows (s.update c) ∧
      (s.update c).nvs = if k.Due c then (s.update c).counters else s.nvs := by
  have hnow : (BitVec.ofNat 64 (c.timeUs / 1000)).toNat = c.timeMs := by
    rw [BitVec.toNat_ofNat]
    exact Nat.mod_eq_of_lt hfits
  have helapsed : (BitVec.ofNat 64 (c.timeUs / 1000) - s.lastUpdateTimeMs).toNat =
      c.timeMs - k.lastMs := by
    rw [BitVec.toNat_sub, hnow, h.last]
    omega
  have hstarted : s.lastUpdateTimeMs = 0 ↔ k.lastMs = 0 := by
    rw [← h.last]
    exact BitVec.toNat_inj.symm
  simp only [LifetimeCounters.update, HourlyClock.call]
  by_cases hfirst : k.lastMs = 0
  · have hidle : ¬ k.Accumulates c := fun hlong => hlong.1 hfirst
    rw [if_pos (hstarted.mpr hfirst), if_neg fun hdue => hidle hdue.1, if_neg hidle,
      if_pos hfirst, if_neg fun hdue => hidle hdue.1]
    exact ⟨⟨hnow, hnow, le_rfl, h.nvs⟩, rfl⟩
  rw [if_neg fun hzero => hfirst (hstarted.mp hzero)]
  by_cases hshort : c.timeMs - k.lastMs < 1000
  · have hidle : ¬ k.Accumulates c := fun hlong => Nat.not_lt.mpr hlong.2 hshort
    rw [if_pos (BitVec.lt_def.mpr (helapsed ▸ hshort)), if_neg fun hdue => hidle hdue.1,
      if_neg hidle, if_neg hfirst, if_neg fun hdue => hidle hdue.1]
    exact ⟨⟨hnow, h.written, h.order.trans hle, h.nvs⟩, rfl⟩
  rw [if_neg fun hlt => hshort (helapsed ▸ BitVec.lt_def.mp hlt)]
  have hlong : k.Accumulates c := ⟨hfirst, Nat.not_lt.mp hshort⟩
  generalize hs : accumulate _ _ c = accumulated
  have hpersist := @shows_persist accumulated c.timeMs k.writtenMs _ hnow
    (by rw [← hs]; rfl) (by rw [← hs]; exact h.written) (h.order.trans hle)
  have hnvs : accumulated.nvs = s.nvs := by rw [← hs]; rfl
  by_cases hdue : 3600000 ≤ c.timeMs - k.writtenMs
  · rw [if_pos ⟨hlong, hdue⟩, if_pos ⟨hlong, hdue⟩]
    exact hpersist.1 hdue
  · have hrest : ¬ k.Due c := fun h => hdue h.2
    rw [if_neg hrest, if_pos hlong, if_neg hrest, ← hnvs]
    exact hpersist.2 hdue

theorem Shows.run {startTimeUs : Nat} {calls : List NoinitUpdate}
    (hclock : Clocked startTimeUs calls) (h : k.Shows s) (hfirst : k.lastMs = 0) :
    (run call k calls).Shows (Library.run LifetimeCounters.update s calls) ∧
      ∀ b : NoinitUpdate, (∀ a ∈ calls, a.timeMs ≤ b.timeMs) →
        (Library.run call k calls).lastMs ≤ b.timeMs := by
  induction calls using List.reverseRecOn with
  | nil => exact ⟨h, fun b _ => hfirst ▸ Nat.zero_le _⟩
  | append_singleton seen c ih =>
    obtain ⟨hshows, hlast⟩ := ih hclock.of_append
    have hle := hlast c fun a ha => hclock.timeMs_le ha List.mem_cons_self
    rw [run_append, run_append]
    refine ⟨(hshows.update hle (hclock.timeMs_lt (by simp))).1, fun b hb => ?_⟩
    exact (call_lastMs _ c).trans_le (hb c (by simp))

end HourlyClock

/-- Something has been accumulated that was not written, after the boots. -/
def unwrittenAfter (unwritten : Bool) (boots : List Boot) : Bool :=
  run (fun unwritten b => (run HourlyClock.call ⟨0, 0, unwritten⟩ b.calls).unwritten)
    unwritten boots

/-- The counters of a boot that finds in NVS all that the memory held. -/
theorem counters_start (s : LifetimeCounters) (boot : Boot) (hnvs : boot.nvs = s.nvs)
    (hwritten : s.nvs = s.counters) : (s.start boot).counters = s.counters := by
  obtain ⟨huptime, hhashes⟩ := s.restores boot
  have hkept : s.keptUptime boot.memory ≤ s.counters.totalUptime.toNat ∧
      s.keptHashes boot.memory ≤ s.counters.cumulativeHashes.toNat := by
    cases boot.memory with
    | kept => exact ⟨le_rfl, le_rfl⟩
    | lost found hlost => exact ⟨Nat.zero_le _, Nat.zero_le _⟩
  rw [hnvs, hwritten] at huptime hhashes
  have huptime := huptime.trans (Nat.max_eq_right hkept.1)
  have hhashes := hhashes.trans (Nat.max_eq_right hkept.2)
  show NvsCounters.mk _ _ = _
  rw [BitVec.eq_of_toNat_eq huptime, DoubleWord.toNat_injective hhashes]

theorem shows_start (s : LifetimeCounters) (boot : Boot) (hnvs : boot.nvs = s.nvs)
    {unwritten : Bool} (hwritten : unwritten = false → s.nvs = s.counters) :
    HourlyClock.Shows ⟨0, 0, unwritten⟩ (s.start boot) where
  last := rfl
  written := rfl
  order := le_rfl
  nvs h := hnvs.trans ((hwritten h).trans (counters_start s boot hnvs (hwritten h)).symm)

/-! ## Whole histories -/

/-- In every boot of a history: it begins with what it finds, and it loses nothing. -/
def LosesNothingOver (s : LifetimeCounters) (boots : List Boot) : Prop :=
  ∀ earlier b later, boots = earlier ++ b :: later →
    (run boot s earlier).Restores b ∧ ((run boot s earlier).start b).LosesNothing b.calls

def AccountableOver (s : LifetimeCounters) (boots : List Boot) : Prop :=
  ∀ earlier b later, boots = earlier ++ b :: later →
    ((run boot s earlier).start b).Accountable b.calls

/-- NVS is given the counters once in an hour, and else is left alone. -/
def PersistsOver (s : LifetimeCounters) (boots : List Boot) : Prop :=
  ∀ earlier b later, boots = earlier ++ b :: later → ∀ seen c rest, b.calls = seen ++ c :: rest →
    let before := run update ((run boot s earlier).start b) seen
    (before.update c).nvs = if (run HourlyClock.call ⟨0, 0, true⟩ seen).Due c
      then (before.update c).counters else before.nvs

/-- Every boot finds in NVS what was last given to it, and the power is lost only when
nothing has been accumulated since. -/
def WrittenOver (s : LifetimeCounters) (boots : List Boot) : Prop :=
  ∀ earlier b later, boots = earlier ++ b :: later → b.nvs = (run boot s earlier).nvs ∧
    (b.memory.Lost → unwrittenAfter (decide (s.nvs ≠ s.counters)) earlier = false)

/-- At no time of a boot is a counter below what it was before the boot. -/
def NeverDecreasesOver (s : LifetimeCounters) (boots : List Boot) : Prop :=
  ∀ earlier b later, boots = earlier ++ b :: later → ∀ seen rest, b.calls = seen ++ rest →
    (run boot s earlier).CountersLe (run update ((run boot s earlier).start b) seen)

/-- Where nothing is left to write, NVS holds the counters. -/
theorem nvs_run {s : LifetimeCounters} {boots : List Boot}
    (hclock : ∀ b ∈ boots, Clocked b.startTimeUs b.calls) (h : s.WrittenOver boots)
    {earlier later : List Boot} (heq : boots = earlier ++ later)
    (hwritten : unwrittenAfter (decide (s.nvs ≠ s.counters)) earlier = false) :
    (run boot s earlier).nvs = (run boot s earlier).counters := by
  induction earlier using List.reverseRecOn generalizing later with
  | nil => exact not_not.mp (of_decide_eq_false hwritten)
  | append_singleton earlier b ih =>
    have hsplit : boots = earlier ++ b :: later := by rw [heq]; simp
    have hb : b ∈ boots := by rw [hsplit]; simp
    rw [unwrittenAfter, run_append] at hwritten
    rw [run_append]
    have hstart := shows_start (run boot s earlier) b (h earlier b later hsplit).1 (ih hsplit)
    exact (hstart.run (hclock b hb) rfl).1.nvs hwritten

/-- No boot begins below what the boots before it counted. -/
theorem countersLe_start {s : LifetimeCounters} {boots : List Boot}
    (hclock : ∀ b ∈ boots, Clocked b.startTimeUs b.calls) (h : s.WrittenOver boots)
    {earlier later : List Boot} {b : Boot} (heq : boots = earlier ++ b :: later) :
    (run boot s earlier).CountersLe ((run boot s earlier).start b) := by
  obtain ⟨huptime, hhashes⟩ := (run boot s earlier).restores b
  obtain ⟨hnvs, hlost⟩ := h earlier b later heq
  by_cases hkept : b.memory = .kept
  · rw [hkept] at huptime hhashes
    refine ⟨BitVec.le_def.mpr ?_, ?_⟩
    · rw [huptime]
      exact Nat.le_max_left ..
    · rw [hhashes]
      exact Nat.le_max_left ..
  · have hsame := counters_start _ b hnvs (nvs_run hclock h heq (hlost hkept))
    have huptime := congrArg NvsCounters.totalUptime hsame
    have hhashes := congrArg NvsCounters.cumulativeHashes hsame
    exact ⟨BitVec.le_of_eq huptime.symm, Nat.le_of_eq (congrArg DoubleWord.toNat hhashes).symm⟩

/-- **Lifetime counters lose nothing exactly when** every interval that is not accumulated,
because it is below a second or the clock began in it, either has no hashes or is followed
only by calls within a second of its start, and no sum overflows.  NVS gets the counters
once in an hour; where the power is lost only after such a write, they never decrease. -/
theorem losesNothingOver_iff (s : LifetimeCounters) (boots : List Boot)
    (hclock : ∀ b ∈ boots, Clocked b.startTimeUs b.calls) :
    (s.LosesNothingOver boots ↔ s.AccountableOver boots) ∧ s.PersistsOver boots ∧
      (s.AccountableOver boots → s.WrittenOver boots → s.NeverDecreasesOver boots) := by
  have hbegins {earlier : List Boot} {b : Boot} {later : List Boot}
      (heq : boots = earlier ++ b :: later) : Clocked b.startTimeUs b.calls :=
    hclock b (by rw [heq]; simp)
  refine ⟨⟨?_, ?_⟩, ?_, ?_⟩
  · intro h earlier b later heq
    exact accountable_of_losesNothing (started_start _ b) (hbegins heq) (h earlier b later heq).2
  · intro h earlier b later heq
    exact ⟨restores _ b,
      losesNothing_of_accountable (started_start _ b) (hbegins heq) (h earlier b later heq)⟩
  · intro earlier b later heq seen c rest hcalls
    have hseen := hbegins heq
    rw [hcalls] at hseen
    have hstart : HourlyClock.Shows ⟨0, 0, true⟩ ((run boot s earlier).start b) :=
      ⟨rfl, rfl, le_rfl, nofun⟩
    obtain ⟨hshows, hlast⟩ := hstart.run hseen.of_append rfl
    exact (hshows.update (hlast c fun a ha => hseen.timeMs_le ha List.mem_cons_self)
      (hseen.timeMs_lt (by simp))).2
  · intro haccountable hwritten earlier b later heq seen rest hcalls
    have hloses := losesNothing_of_accountable (started_start _ b) (hbegins heq)
      (haccountable earlier b later heq)
    have hstart := countersLe_start hclock hwritten heq
    have hgrows := countersLe_run hloses hcalls
    exact ⟨BitVec.le_trans hstart.uptime hgrows.uptime, hstart.hashes.trans hgrows.hashes⟩

theorem hashesDone_one (elapsedMs : Nat) : hashesDone elapsedMs 1 = elapsedMs * 10 ^ 6 := by
  rw [hashesDone, mul_one]
  exact_mod_cast Nat.floor_natCast (R := ℚ≥0) (elapsedMs * 10 ^ 6)

/-- A system at its first start -/
def powerOn : LifetimeCounters :=
  initSystem ⟨0, ⟨0, 0⟩, 0⟩ ⟨0, ⟨0, 0⟩⟩ 0

/-- A boot with calls at the milliseconds `times`, all at a rate of 1 GH/s -/
def steadyBoot (times : List Nat) : Boot where
  memory := .kept
  nvs := ⟨0, ⟨0, 0⟩⟩
  startTimeUs := 0
  calls := times.map fun ms => ⟨ms * 1000, ms * 1000, 1⟩

/-- A start after a loss of power, with what the boot before it wrote -/
def afterPowerLoss : Boot where
  memory := .lost ⟨7, ⟨7, 7⟩, 0⟩ (by decide)
  nvs := (powerOn.boot (steadyBoot [1000, 3601000])).nvs
  startTimeUs := 0
  calls := []

theorem clocked_steadyBoot {times : List Nat} (hordered : times.Pairwise (· ≤ ·))
    (hfits : ∀ ms ∈ times, ms < 2 ^ 53) :
    Clocked (steadyBoot times).startTimeUs (steadyBoot times).calls where
  started _ _ := Nat.zero_le _
  reading := by simp [steadyBoot]
  fits c hc := by
    obtain ⟨ms, hms, rfl⟩ := List.mem_map.mp hc
    have := hfits ms hms
    show ms * 1000 < 2 ^ 63
    omega
  ordered := List.pairwise_map.mpr (hordered.imp fun h => Nat.mul_le_mul_right 1000 h)

theorem accountable_hour : (start powerOn (steadyBoot [1000, 3601000])).Accountable
    (steadyBoot [1000, 3601000]).calls := by
  have hhashes : hashesBetween ⟨1000000, 1000000, 1⟩ ⟨3601000000, 3601000000, 1⟩ =
      3600000 * 10 ^ 6 := hashesDone_one _
  have hlong : Accumulated ⟨1000000, 1000000, 1⟩ ⟨3601000000, 3601000000, 1⟩ := by decide
  have hsplit : ∀ before a b later, (steadyBoot [1000, 3601000]).calls =
      before ++ a :: b :: later → before = [] ∧ a = ⟨1000000, 1000000, 1⟩ ∧
        b = ⟨3601000000, 3601000000, 1⟩ := by
    intro before a b later heq
    rcases before with _ | ⟨x, _ | ⟨y, before⟩⟩ <;> simp_all [steadyBoot]
  refine ⟨fun before a b later heq hshort => ?_, fun before a b later heq _ => ?_⟩
  · obtain ⟨-, rfl, rfl⟩ := hsplit before a b later heq
    exact absurd hlong hshort
  · obtain ⟨rfl, rfl, rfl⟩ := hsplit before a b later heq
    refine ⟨by rw [hhashes]; decide, ?_, by decide⟩
    have hcounted := countedBetween_le ⟨1000000, 1000000, 1⟩ ⟨3601000000, 3601000000, 1⟩
    have hzero : (start powerOn (steadyBoot [1000, 3601000])).hashes = 0 := by decide
    rw [List.nil_append, countedHashes, sumConsecutive_pair, hzero]
    omega

/-- An hour of work is written, and found after a loss of power. -/
theorem losesNothingOver_hour :
    powerOn.LosesNothingOver [steadyBoot [1000, 3601000], afterPowerLoss] ∧
      powerOn.NeverDecreasesOver [steadyBoot [1000, 3601000], afterPowerLoss] := by
  have hsplit : ∀ earlier b later,
      [steadyBoot [1000, 3601000], afterPowerLoss] = earlier ++ b :: later →
        (earlier = [] ∧ b = steadyBoot [1000, 3601000]) ∨
          (earlier = [steadyBoot [1000, 3601000]] ∧ b = afterPowerLoss) := by
    intro earlier b later heq
    rcases earlier with _ | ⟨x, _ | ⟨y, earlier⟩⟩ <;> simp_all
  have hclock : ∀ b ∈ [steadyBoot [1000, 3601000], afterPowerLoss],
      Clocked b.startTimeUs b.calls := by
    intro b hb
    rcases List.mem_pair.mp hb with rfl | rfl
    · exact clocked_steadyBoot (by decide) (by decide)
    · exact ⟨nofun, nofun, nofun, .nil⟩
  obtain ⟨hloses, -, hnever⟩ :=
    losesNothingOver_iff powerOn [steadyBoot [1000, 3601000], afterPowerLoss] hclock
  have haccountable : powerOn.AccountableOver [steadyBoot [1000, 3601000], afterPowerLoss] := by
    intro earlier b later heq
    rcases hsplit earlier b later heq with ⟨rfl, rfl⟩ | ⟨rfl, rfl⟩
    · exact accountable_hour
    · exact ⟨fun before a b later heq => absurd heq.symm (by simp [afterPowerLoss]),
        fun before a b later heq => absurd heq.symm (by simp [afterPowerLoss])⟩
  refine ⟨hloses.mpr haccountable, hnever haccountable fun earlier b later heq => ?_⟩
  rcases hsplit earlier b later heq with ⟨rfl, rfl⟩ | ⟨rfl, rfl⟩
  · exact ⟨by decide, fun hlost => absurd rfl hlost⟩
  · exact ⟨rfl, fun _ => by decide⟩

/-- Of a second and a half, of which the first half was too short, only the second counts. -/
theorem short_interval_lost :
    ¬ powerOn.LosesNothingOver [steadyBoot [1000, 1500, 2500]] := by
  intro h
  have hloses := (h [] (steadyBoot [1000, 1500, 2500]) [] rfl).2
  have hclock : Clocked (start powerOn (steadyBoot [1000, 1500, 2500])).startTimeUs
      (steadyBoot [1000, 1500, 2500]).calls := clocked_steadyBoot (by decide) (by decide)
  have hquick := (accountable_of_losesNothing (started_start _ _) hclock hloses).quick
    [] ⟨1000000, 1000000, 1⟩ ⟨1500000, 1500000, 1⟩ [⟨2500000, 2500000, 1⟩] rfl
  have hhashes : hashesBetween ⟨1000000, 1000000, 1⟩ ⟨1500000, 1500000, 1⟩ ≠ 0 := by
    rw [hashesBetween, hashesDone_one]
    decide
  have hlast := hquick (by decide) hhashes ⟨2500000, 2500000, 1⟩ (by simp)
  exact absurd hlast (by decide)

end LifetimeCounters

end EspMiner
