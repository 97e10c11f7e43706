import EspMiner.Bzm.ReactorEffect
import EspMiner.Library.RoundRobin
import EspMiner.Library.Run

/-!
# The ledger of assignments

The ledger lists the assignments since the last completed flush, newest first.
The round robin makes it a record of turns: the table of current assignments is
the latest turn of every engine, the table of previous assignments the turn one
round before, and the retired bits name the rest and whatever an invalidation
has passed over.
-/

namespace EspMiner

open Library

/-- An assignment with the number of stores and of invalidations that the
history shows up to it. -/
structure BzmLedgerEntry where
  record : BzmAssigned
  stores : Nat
  invalidations : Nat

abbrev BzmReactorTrace := List BzmReactorEvent

namespace BzmReactorTrace

/-- Calls of `store_generated`. -/
def stores (trace : BzmReactorTrace) : Nat :=
  trace.countP fun
    | .stored _ => true
    | _ => false

/-- Invalidations of the pool, by a clean job or by the start of a flush. -/
def invalidations (trace : BzmReactorTrace) : Nat :=
  trace.countP fun
    | .invalidated => true
    | .flushBegun => true
    | _ => false

/-- The assignments since the last completed flush. -/
def ledger : BzmReactorTrace → List BzmLedgerEntry
  | [] => []
  | .assigned record :: older => ⟨record, stores older, invalidations older⟩ :: ledger older
  | .flushFinished :: _ => []
  | .stored _ :: older => ledger older
  | .writeWork _ _ :: older => ledger older
  | .dispatchCheckpoint _ :: older => ledger older
  | .invalidated :: older => ledger older
  | .flushBegun :: older => ledger older
  | .flush _ :: older => ledger older

end BzmReactorTrace

open BzmReactorTrace

/-! ### Searching the tables -/

theorem firstIndex_eq_some {test : Nat → Bool} {k : Nat} (hk : k < BZM_MAX_ACTIVE_WORK)
    (htest : test k = true) (hfirst : ∀ j < k, test j = false) : firstIndex test = some k := by
  rw [firstIndex, List.find?_range_eq_some]
  exact ⟨htest, List.mem_range.mpr hk, fun j hj => by simp [hfirst j hj]⟩

theorem firstIndex_of_unique {test : Nat → Bool} {k : Nat} (hk : k < BZM_MAX_ACTIVE_WORK)
    (htest : test k = true) (hunique : ∀ j, test j = true → j = k) : firstIndex test = some k :=
  firstIndex_eq_some hk htest fun j hj => by
    by_contra hother
    exact hj.ne (hunique j (by simpa using hother))

theorem firstIndex_eq_none {test : Nat → Bool}
    (h : ∀ j < BZM_MAX_ACTIVE_WORK, test j = false) : firstIndex test = none := by
  rw [firstIndex, List.find?_range_eq_none]
  exact fun j hj => by simp [h j hj]

theorem lt_of_firstIndex {test : Nat → Bool} {k : Nat} (h : firstIndex test = some k) :
    k < BZM_MAX_ACTIVE_WORK ∧ test k = true := by
  rw [firstIndex, List.find?_range_eq_some] at h
  exact ⟨List.mem_range.mp h.2.1, h.1⟩

/-- The table entry of a ledger position. -/
def tableEntry (config : BzmReactorConfig) : Option BzmLedgerEntry → BzmAssignment
  | none => BzmAssignment.zero
  | some entry => entry.record.toAssignment config.nonceOffset

theorem tableEntry_active (config : BzmReactorConfig) (entry : Option BzmLedgerEntry) :
    (tableEntry config entry).active = entry.isSome := by
  cases entry <;> rfl

theorem BzmReactorConfig.sequenceSpace_le (config : BzmReactorConfig) :
    config.sequenceSpace ≤ 255 := by
  unfold BzmReactorConfig.sequenceSpace
  split <;> decide

/-- Work `record` belongs to turn `turn` of the round robin. -/
structure AtTurn (config : BzmReactorConfig) (turn : Nat) (record : BzmAssigned) : Prop where
  scheduled : scheduledEngineAt (turn % config.engineCount) = some record.engine
  sequence : record.work.logicalSequence.toNat = turn / config.engineCount
  built : record.work.BuiltFrom record.work.source record.engine.physicalId
    record.work.logicalSequence config.timestampCount config.enhancedMode

namespace BzmReactor

/-- The scheduler's tables are those of a ledger after `invalidated`
invalidations. -/
structure Dispatched (r : BzmReactor) (entries : List BzmLedgerEntry) (invalidated : Nat) :
    Prop where
  cursor : r.nextEngine = entries.length % r.config.engineCount
  sequence : ∀ k < r.config.engineCount, (r.nextEngineSequence k).toNat =
    RoundRobin.count r.config.engineCount entries.length k
  length_le : entries.length ≤ r.config.engineCount * r.config.sequenceSpace
  turn : ∀ i entry, entries[i]? = some entry →
    AtTurn r.config (entries.length - 1 - i) entry.record
  current : ∀ k < r.config.engineCount, r.assignments k = tableEntry r.config
    entries[RoundRobin.age r.config.engineCount entries.length k]?
  previous : ∀ k < r.config.engineCount, r.previousAssignments k = tableEntry r.config
    entries[RoundRobin.age r.config.engineCount entries.length k + r.config.engineCount]?
  unused : ∀ k, r.config.engineCount ≤ k →
    r.assignments k = BzmAssignment.zero ∧ r.previousAssignments k = BzmAssignment.zero
  stamp : ∀ entry ∈ entries, entry.invalidations ≤ invalidated
  retired : ∀ engine s, (r.retiredSequences engine).getLsbD s = true ↔
    ∃ i entry, entries[i]? = some entry ∧ entry.record.engine.topologyIndex = engine ∧
      entry.record.work.logicalSequence.toNat = s ∧
      (entry.invalidations < invalidated ∨ 2 * r.config.engineCount ≤ i)

namespace Dispatched

variable {r : BzmReactor} {entries : List BzmLedgerEntry} {invalidated : Nat}

/-! ### Engines and identities -/

/-- The engine of a turn and the turn's member determine each other. -/
theorem member_of_physicalId (h : r.Dispatched entries invalidated)
    {i j : Nat} {entry other : BzmLedgerEntry} (hi : entries[i]? = some entry)
    (hj : entries[j]? = some other)
    (heq : entry.record.engine.physicalId = other.record.engine.physicalId) :
    (entries.length - 1 - i) % r.config.engineCount =
      (entries.length - 1 - j) % r.config.engineCount := by
  have hentry := (h.turn i entry hi).scheduled
  have hother := (h.turn j other hj).scheduled
  have hsame := (activationAt_located hentry).2.1.eq_of_physicalId
    (activationAt_located hother).2.1 heq
  rw [hsame] at hentry
  exact activationAt_inj hentry hother

/-- **Identities are unique.**  Two turns of the ledger on one engine with one
sequence are the same turn. -/
theorem identity_unique (h : r.Dispatched entries invalidated)
    {i j : Nat} {entry other : BzmLedgerEntry} (hi : entries[i]? = some entry)
    (hj : entries[j]? = some other)
    (hengine : entry.record.engine.physicalId = other.record.engine.physicalId)
    (hsequence : entry.record.work.logicalSequence = other.record.work.logicalSequence) :
    i = j := by
  have hmember := h.member_of_physicalId hi hj hengine
  have hround : (entries.length - 1 - i) / r.config.engineCount =
      (entries.length - 1 - j) / r.config.engineCount := by
    rw [← (h.turn i entry hi).sequence, ← (h.turn j other hj).sequence, hsequence]
  have hturn := RoundRobin.turn_inj hmember hround
  have hlt := (List.getElem?_eq_some_iff.mp hi).1
  have hlt' := (List.getElem?_eq_some_iff.mp hj).1
  omega

/-! ### What the tables hold -/

/-- The two tables reach back two turns of every engine. -/
theorem tables_reach (hvalid : r.config.Valid) (h : r.Dispatched entries invalidated)
    {i : Nat} {entry : BzmLedgerEntry} (hi : entries[i]? = some entry)
    (hrecent : i < 2 * r.config.engineCount) :
    ∃ k < r.config.engineCount, scheduledEngineAt k = some entry.record.engine ∧
      (i = RoundRobin.age r.config.engineCount entries.length k ∨
        i = RoundRobin.age r.config.engineCount entries.length k + r.config.engineCount) := by
  have hn := hvalid.engineCount_pos
  have hlt := (List.getElem?_eq_some_iff.mp hi).1
  have hk := Nat.mod_lt (entries.length - 1 - i) hn
  refine ⟨_, hk, (h.turn i entry hi).scheduled, ?_⟩
  rw [← (RoundRobin.turn_mod_eq_iff hk hlt).mp rfl]
  have hsplit := Nat.div_add_mod i r.config.engineCount
  rcases Nat.lt_or_ge i r.config.engineCount with hi | hi
  · exact .inl (Nat.mod_eq_of_lt hi).symm
  · right
    rw [Nat.mod_eq_sub_mod hi, Nat.mod_eq_of_lt (by omega)]
    omega

theorem scheduled_of_age (h : r.Dispatched entries invalidated) {k i : Nat}
    {entry : BzmLedgerEntry} (hk : k < r.config.engineCount)
    (hage : i % r.config.engineCount = RoundRobin.age r.config.engineCount entries.length k)
    (hi : entries[i]? = some entry) : scheduledEngineAt k = some entry.record.engine := by
  have hlt := (List.getElem?_eq_some_iff.mp hi).1
  have hturn := (h.turn i entry hi).scheduled
  rwa [(RoundRobin.turn_mod_eq_iff hk hlt).mpr hage] at hturn

theorem age_mod {k : Nat} (hk : k < r.config.engineCount) :
    RoundRobin.age r.config.engineCount entries.length k % r.config.engineCount =
      RoundRobin.age r.config.engineCount entries.length k :=
  Nat.mod_eq_of_lt (RoundRobin.age_lt hk _)

theorem age_add_mod {k : Nat} (hk : k < r.config.engineCount) :
    (RoundRobin.age r.config.engineCount entries.length k + r.config.engineCount) %
      r.config.engineCount = RoundRobin.age r.config.engineCount entries.length k := by
  rw [Nat.add_mod_right, Nat.mod_eq_of_lt (RoundRobin.age_lt hk _)]

/-- An active table entry is a turn of the ledger. -/
theorem of_current_active (h : r.Dispatched entries invalidated) {k : Nat}
    (hactive : (r.assignments k).active = true) :
    k < r.config.engineCount ∧ ∃ entry,
      entries[RoundRobin.age r.config.engineCount entries.length k]? = some entry ∧
      r.assignments k = entry.record.toAssignment r.config.nonceOffset := by
  have hk : k < r.config.engineCount := by
    by_contra hge
    rw [(h.unused k (Nat.not_lt.mp hge)).1] at hactive
    cases hactive
  rw [h.current k hk] at hactive ⊢
  cases hentry : entries[RoundRobin.age r.config.engineCount entries.length k]? with
  | none => rw [hentry] at hactive; cases hactive
  | some entry => exact ⟨hk, entry, rfl, rfl⟩

theorem of_previous_active (h : r.Dispatched entries invalidated) {k : Nat}
    (hactive : (r.previousAssignments k).active = true) :
    k < r.config.engineCount ∧ ∃ entry,
      entries[RoundRobin.age r.config.engineCount entries.length k + r.config.engineCount]? =
        some entry ∧
      r.previousAssignments k = entry.record.toAssignment r.config.nonceOffset := by
  have hk : k < r.config.engineCount := by
    by_contra hge
    rw [(h.unused k (Nat.not_lt.mp hge)).2] at hactive
    cases hactive
  rw [h.previous k hk] at hactive ⊢
  cases hentry : entries[RoundRobin.age r.config.engineCount entries.length k +
      r.config.engineCount]? with
  | none => rw [hentry] at hactive; cases hactive
  | some entry => exact ⟨hk, entry, rfl, rfl⟩

theorem names_iff {assignment : BzmAssignment} {engineId : Nat} {sequence : U8} :
    assignment.names engineId sequence = true ↔
      assignment.active = true ∧ assignment.engineId = engineId ∧
        assignment.logicalSequence = sequence := by
  simp [BzmAssignment.names, and_assoc]

/-- **The search finds the last two turns of every engine.** -/
theorem findAssignment_eq_some_iff (hvalid : r.config.Valid)
    (h : r.Dispatched entries invalidated) {engineId : Nat} {sequence : U8}
    {assignment : BzmAssignment} :
    r.findAssignment engineId sequence = some assignment ↔
      ∃ i entry, entries[i]? = some entry ∧ i < 2 * r.config.engineCount ∧
        entry.record.engine.physicalId = engineId ∧
        entry.record.work.logicalSequence = sequence ∧
        assignment = entry.record.toAssignment r.config.nonceOffset := by
  constructor
  · intro hfind
    unfold findAssignment at hfind
    split at hfind
    · next k hk =>
      obtain ⟨hactive, hengine, hsequence⟩ := names_iff.mp (lt_of_firstIndex hk).2
      obtain ⟨hlt, entry, hentry, heq⟩ := h.of_current_active hactive
      rw [heq] at hengine hsequence hfind
      have hage := RoundRobin.age_lt hlt entries.length
      exact ⟨_, entry, hentry, by omega, hengine, hsequence, (Option.some.inj hfind).symm⟩
    · obtain ⟨k, hk, hfind⟩ := Option.map_eq_some_iff.mp hfind
      obtain ⟨hactive, hengine, hsequence⟩ := names_iff.mp (lt_of_firstIndex hk).2
      obtain ⟨hlt, entry, hentry, heq⟩ := h.of_previous_active hactive
      rw [heq] at hengine hsequence hfind
      have hage := RoundRobin.age_lt hlt entries.length
      exact ⟨_, entry, hentry, by omega, hengine, hsequence, hfind.symm⟩
  · rintro ⟨i, entry, hi, hrecent, rfl, rfl, rfl⟩
    obtain ⟨k, hk, -, hage⟩ := h.tables_reach hvalid hi hrecent
    have hsize : k < BZM_MAX_ACTIVE_WORK :=
      Nat.lt_of_lt_of_le hk (hvalid.engineCount_le.trans (by decide))
    -- whatever else bears this identity stands at the same ledger position
    have hunique : ∀ j other, j < r.config.engineCount →
        entries[RoundRobin.age r.config.engineCount entries.length j]? = some other →
        other.record.engine.physicalId = entry.record.engine.physicalId →
        other.record.work.logicalSequence = entry.record.work.logicalSequence →
        RoundRobin.age r.config.engineCount entries.length j = i :=
      fun j other _ hother hengine hsequence => h.identity_unique hother hi hengine hsequence
    unfold findAssignment
    rcases hage with rfl | rfl
    · have hcurrent : r.assignments k = entry.record.toAssignment r.config.nonceOffset := by
        rw [h.current k hk, hi]
        rfl
      rw [firstIndex_of_unique hsize (names_iff.mpr (by simp [hcurrent, BzmAssigned.toAssignment]))]
      · rw [← hcurrent]
      · intro j hnames
        obtain ⟨hactive, hengine, hsequence⟩ := names_iff.mp hnames
        obtain ⟨hj, other, hother, heq⟩ := h.of_current_active hactive
        rw [heq] at hengine hsequence
        have hsame := hunique j other hj hother hengine hsequence
        rw [hsame, hi] at hother
        have hscheduled := h.scheduled_of_age hj (age_mod hj ▸ hsame ▸ rfl) hi
        exact activationAt_inj hscheduled (h.scheduled_of_age hk (age_mod hk) hi)
    · have hprevious : r.previousAssignments k =
          entry.record.toAssignment r.config.nonceOffset := by
        rw [h.previous k hk, hi]
        rfl
      rw [firstIndex_eq_none]
      · rw [firstIndex_of_unique hsize
          (names_iff.mpr (by simp [hprevious, BzmAssigned.toAssignment]))]
        · rw [Option.map_some, ← hprevious]
        · intro j hnames
          obtain ⟨hactive, hengine, hsequence⟩ := names_iff.mp hnames
          obtain ⟨hj, other, hother, heq⟩ := h.of_previous_active hactive
          rw [heq] at hengine hsequence
          have hsame := h.identity_unique hother hi hengine hsequence
          exact activationAt_inj
            (h.scheduled_of_age hj (by rw [← hsame, age_add_mod hj]) hi)
            (h.scheduled_of_age hk (age_add_mod hk) hi)
      · intro j _
        by_contra hnames
        obtain ⟨hactive, hengine, hsequence⟩ := names_iff.mp (by simpa using hnames)
        obtain ⟨hj, other, hother, heq⟩ := h.of_current_active hactive
        rw [heq] at hengine hsequence
        have hsame := hunique j other hj hother hengine hsequence
        have hlt := RoundRobin.age_lt hj entries.length
        omega

/-- The cursor's engine keeps its own index in the tables. -/
theorem assignmentIndexFor_eq (hvalid : r.config.Valid) (h : r.Dispatched entries invalidated)
    {engine : BzmEngineLocation} (hengine : scheduledEngineAt r.nextEngine = some engine) :
    r.assignmentIndexFor engine.physicalId = some r.nextEngine := by
  have hn := hvalid.engineCount_pos
  have hk : r.nextEngine < r.config.engineCount := h.cursor ▸ Nat.mod_lt _ hn
  have hsize : r.nextEngine < BZM_MAX_ACTIVE_WORK :=
    Nat.lt_of_lt_of_le hk (hvalid.engineCount_le.trans (by decide))
  have howner : ∀ j, ((r.assignments j).active &&
      decide ((r.assignments j).engineId = engine.physicalId)) = true → j = r.nextEngine := by
    intro j hj
    obtain ⟨hactive, hid⟩ := Bool.and_eq_true_iff.mp hj
    obtain ⟨hlt, entry, hentry, heq⟩ := h.of_current_active hactive
    rw [heq] at hid
    have hscheduled := h.scheduled_of_age hlt (age_mod hlt) hentry
    have hsame := (activationAt_located hscheduled).2.1.eq_of_physicalId
      (activationAt_located hengine).2.1 (of_decide_eq_true hid)
    rw [hsame] at hscheduled
    exact activationAt_inj hscheduled hengine
  unfold assignmentIndexFor findEngineAssignment
  cases hactive : (r.assignments r.nextEngine).active with
  | true =>
    obtain ⟨-, entry, hentry, heq⟩ := h.of_current_active hactive
    have hscheduled := h.scheduled_of_age hk (age_mod hk) hentry
    have hsame : entry.record.engine = engine := by
      rw [hengine] at hscheduled
      exact (Option.some.inj hscheduled).symm
    rw [firstIndex_of_unique hsize _ howner]
    rw [heq, ← hsame]
    simp [BzmAssigned.toAssignment]
  | false =>
    rw [firstIndex_eq_none]
    · -- before the first round is over the free indices start at the cursor
      refine firstIndex_eq_some hsize (by simp [hactive]) fun j hj => ?_
      have hjlt : j < r.config.engineCount := hj.trans hk
      have hage : RoundRobin.age r.config.engineCount entries.length j < entries.length := by
        rw [h.cursor] at hj
        rw [RoundRobin.age, if_pos hj]
        have := Nat.mod_le entries.length r.config.engineCount
        omega
      rw [h.current j hjlt, List.getElem?_eq_getElem hage]
      simp [tableEntry, BzmAssigned.toAssignment]
    · intro j _
      by_contra hother
      have hsame := howner j (by simpa using hother)
      rw [hsame, hactive] at hother
      exact hother rfl

/-! ### How the calls change them -/

/-- Empty tables are those of an empty ledger. -/
theorem fresh (hassignments : r.assignments = fun _ => BzmAssignment.zero)
    (hprevious : r.previousAssignments = fun _ => BzmAssignment.zero)
    (hsequence : r.nextEngineSequence = fun _ => 0) (hretired : r.retiredSequences = fun _ => 0)
    (hcursor : r.nextEngine = 0) (invalidated : Nat) : r.Dispatched [] invalidated where
  cursor := by simp [hcursor]
  sequence k hk := by simp [hsequence, RoundRobin.count]
  length_le := Nat.zero_le _
  turn i entry hi := by simp at hi
  current k hk := by simp [hassignments, tableEntry]
  previous k hk := by simp [hprevious, tableEntry]
  unused k hk := by simp [hassignments, hprevious]
  stamp entry hmem := by simp at hmem
  retired engine s := by simp [hretired]

/-- Neither the store nor the history takes part in the scheduling. -/
theorem withStore (h : r.Dispatched entries invalidated) (jobStore : AsicJobStore)
    (trace : BzmReactorTrace) :
    Dispatched { r with jobStore := jobStore, trace := trace } entries invalidated :=
  ⟨h.cursor, h.sequence, h.length_le, h.turn, h.current, h.previous, h.unused, h.stamp, h.retired⟩

theorem getLsbD_retireAssignment (retired : Nat → BitVec 256) (assignment : BzmAssignment)
    (engine s : Nat) :
    (retireAssignment retired assignment engine).getLsbD s = true ↔
      (retired engine).getLsbD s = true ∨
        (assignment.active = true ∧ assignment.logicalEngineId = engine ∧
          assignment.logicalSequence.toNat = s) := by
  unfold retireAssignment
  split
  · next hactive =>
    by_cases hengine : engine = assignment.logicalEngineId
    · have hlt := assignment.logicalSequence.isLt
      subst hengine
      simp only [Function.update_self, BitVec.getLsbD_or, BitVec.getLsbD_twoPow, Bool.or_eq_true,
        Bool.and_eq_true, decide_eq_true_eq, hactive, true_and]
      constructor
      · rintro (h | ⟨-, h⟩)
        · exact .inl h
        · exact .inr h
      · rintro (h | h)
        · exact .inl h
        · exact .inr ⟨by omega, h⟩
    · have hne : assignment.logicalEngineId ≠ engine := fun h => hengine h.symm
      simp [Function.update_of_ne hengine, hne]
  · next hinactive => simp [hinactive]

/-- The loop of an invalidation retires every active entry of both tables. -/
theorem getLsbD_retireAll (r : BzmReactor) (engine s : Nat) :
    (r.retireAll engine).getLsbD s = true ↔
      (r.retiredSequences engine).getLsbD s = true ∨
        ∃ i < BZM_MAX_ACTIVE_WORK, ∃ assignment,
          (assignment = r.assignments i ∨ assignment = r.previousAssignments i) ∧
          assignment.active = true ∧ assignment.logicalEngineId = engine ∧
          assignment.logicalSequence.toNat = s := by
  have hloop : ∀ (indices : List Nat) (retired : Nat → BitVec 256),
      (indices.foldl (fun retired i =>
        retireAssignment (retireAssignment retired (r.assignments i)) (r.previousAssignments i))
        retired engine).getLsbD s = true ↔
      (retired engine).getLsbD s = true ∨
        ∃ i ∈ indices, ∃ assignment,
          (assignment = r.assignments i ∨ assignment = r.previousAssignments i) ∧
          assignment.active = true ∧ assignment.logicalEngineId = engine ∧
          assignment.logicalSequence.toNat = s := by
    intro indices
    induction indices with
    | nil => simp
    | cons i indices ih =>
      intro retired
      simp only [List.foldl_cons, ih, getLsbD_retireAssignment, List.mem_cons]
      constructor
      · rintro (((h | h) | h) | ⟨j, hj, h⟩)
        · exact .inl h
        · exact .inr ⟨i, .inl rfl, _, .inl rfl, h⟩
        · exact .inr ⟨i, .inl rfl, _, .inr rfl, h⟩
        · exact .inr ⟨j, .inr hj, h⟩
      · rintro (h | ⟨j, rfl | hj, assignment, rfl | rfl, h⟩)
        · exact .inl (.inl (.inl h))
        · exact .inl (.inl (.inr h))
        · exact .inl (.inr h)
        · exact .inr ⟨j, hj, _, .inl rfl, h⟩
        · exact .inr ⟨j, hj, _, .inr rfl, h⟩
  rw [retireAll, hloop]
  simp only [List.mem_range]

theorem invalidateWork (hvalid : r.config.Valid) (h : r.Dispatched entries invalidated) :
    r.invalidateWork.Dispatched entries (invalidated + 1) where
  cursor := h.cursor
  sequence := h.sequence
  length_le := h.length_le
  turn := h.turn
  current := h.current
  previous := h.previous
  unused := h.unused
  stamp entry hmem := (h.stamp entry hmem).trans (Nat.le_succ _)
  retired engine s := by
    have hbits : r.invalidateWork.retiredSequences = r.retireAll := by
      simp only [BzmReactor.invalidateWork]
    have hconfig : r.invalidateWork.config = r.config := rfl
    rw [hbits, hconfig, getLsbD_retireAll, h.retired]
    constructor
    · rintro (⟨i, entry, hi, hengine, hs, -⟩ | ⟨k, -, assignment, rfl | rfl, hactive, hengine, hs⟩)
      · have := h.stamp entry (List.mem_of_getElem? hi)
        exact ⟨i, entry, hi, hengine, hs, .inl (by omega)⟩
      · obtain ⟨-, entry, hentry, heq⟩ := h.of_current_active hactive
        have := h.stamp entry (List.mem_of_getElem? hentry)
        rw [heq] at hengine hs
        exact ⟨_, entry, hentry, hengine, hs, .inl (by omega)⟩
      · obtain ⟨-, entry, hentry, heq⟩ := h.of_previous_active hactive
        have := h.stamp entry (List.mem_of_getElem? hentry)
        rw [heq] at hengine hs
        exact ⟨_, entry, hentry, hengine, hs, .inl (by omega)⟩
    · rintro ⟨i, entry, hi, hengine, hs, -⟩
      rcases Nat.lt_or_ge i (2 * r.config.engineCount) with hrecent | hold
      · obtain ⟨k, hk, -, hage⟩ := h.tables_reach hvalid hi hrecent
        refine .inr ⟨k, Nat.lt_of_lt_of_le hk (hvalid.engineCount_le.trans (by decide)),
          entry.record.toAssignment r.config.nonceOffset, ?_, rfl, hengine, hs⟩
        rcases hage with rfl | rfl
        · exact .inl (by rw [h.current k hk, hi]; rfl)
        · exact .inr (by rw [h.previous k hk, hi]; rfl)
      · exact .inl ⟨i, entry, hi, hengine, hs, .inr hold⟩

/-- **A committed assignment is the next turn.** -/
theorem commitAssignment (hvalid : r.config.Valid) (h : r.Dispatched entries invalidated)
    {record : BzmAssigned} (hturn : AtTurn r.config entries.length record)
    (hspace : record.work.logicalSequence.toNat < r.config.sequenceSpace) (stores : Nat) :
    (r.commitAssignment r.nextEngine r.nextEngine record).Dispatched
      (⟨record, stores, invalidated⟩ :: entries) invalidated := by
  have hn := hvalid.engineCount_pos
  have hcursor := h.cursor
  have hk : r.nextEngine < r.config.engineCount := hcursor ▸ Nat.mod_lt _ hn
  have hlast : RoundRobin.age r.config.engineCount entries.length r.nextEngine =
      r.config.engineCount - 1 := by rw [hcursor, RoundRobin.age_turn hn]
  have hfirst : RoundRobin.age r.config.engineCount (entries.length + 1) r.nextEngine = 0 := by
    rw [hcursor, RoundRobin.age_succ_turn hn]
  have hprevious := h.previous r.nextEngine hk
  rw [hlast] at hprevious
  refine ⟨?_, ?_, ?_, ?_, ?_, ?_, ?_, ?_, ?_⟩
  · show (r.nextEngine + 1) % r.config.engineCount = (entries.length + 1) % r.config.engineCount
    rw [hcursor, Nat.mod_add_mod]
  · intro k (hlt : k < r.config.engineCount)
    show (Function.update r.nextEngineSequence r.nextEngine (record.work.logicalSequence + 1#8)
      k).toNat = RoundRobin.count r.config.engineCount (entries.length + 1) k
    by_cases hk : k = r.nextEngine
    · have hle := r.config.sequenceSpace_le
      subst hk
      rw [Function.update_self, hcursor, RoundRobin.count_succ_turn hn, ← hturn.sequence,
        BitVec.toNat_add, Nat.mod_eq_of_lt]
      · rfl
      · simp only [BitVec.toNat_ofNat]
        omega
    · rw [Function.update_of_ne hk, h.sequence k hlt, RoundRobin.count_succ hlt (hcursor ▸ hk)]
  · show entries.length + 1 ≤ r.config.engineCount * r.config.sequenceSpace
    rw [hturn.sequence, Nat.div_lt_iff_lt_mul hn, Nat.mul_comm] at hspace
    exact hspace
  · intro i entry hi
    cases i with
    | zero =>
      obtain rfl := Option.some.inj hi
      exact hturn
    | succ i =>
      have hold := h.turn i entry hi
      have hindex : (⟨record, stores, invalidated⟩ :: entries).length - 1 - (i + 1) =
          entries.length - 1 - i := by
        rw [List.length_cons]
        omega
      rw [hindex]
      exact hold
  · intro k (hlt : k < r.config.engineCount)
    show Function.update r.assignments r.nextEngine _ k = tableEntry r.config
      (⟨record, stores, invalidated⟩ :: entries)[
        RoundRobin.age r.config.engineCount (entries.length + 1) k]?
    by_cases hk : k = r.nextEngine
    · subst hk
      rw [Function.update_self, hfirst]
      rfl
    · rw [Function.update_of_ne hk, h.current k hlt, RoundRobin.age_succ hlt (hcursor ▸ hk),
        List.getElem?_cons_succ]
  · intro k (hlt : k < r.config.engineCount)
    show Function.update r.previousAssignments r.nextEngine _ k = tableEntry r.config
      (⟨record, stores, invalidated⟩ :: entries)[
        RoundRobin.age r.config.engineCount (entries.length + 1) k + r.config.engineCount]?
    by_cases hk : k = r.nextEngine
    · -- the engine's latest turn moves to the second table
      subst hk
      have hround : r.config.engineCount = r.config.engineCount - 1 + 1 := by omega
      have hmoved : (⟨record, stores, invalidated⟩ :: entries)[r.config.engineCount]? =
          entries[r.config.engineCount - 1]? := by
        conv_lhs => rw [hround, List.getElem?_cons_succ]
      rw [Function.update_self, hfirst, Nat.zero_add, h.current _ hlt, hlast, tableEntry_active,
        hmoved]
      cases entries[r.config.engineCount - 1]? <;> rfl
    · rw [Function.update_of_ne hk, h.previous k hlt, RoundRobin.age_succ hlt (hcursor ▸ hk),
        Nat.add_right_comm, List.getElem?_cons_succ]
  · intro k hge
    have hne : k ≠ r.nextEngine := fun heq => Nat.not_lt.mpr hge (heq ▸ hk)
    constructor
    · show Function.update r.assignments r.nextEngine _ k = _
      rw [Function.update_of_ne hne]
      exact (h.unused k hge).1
    · show Function.update r.previousAssignments r.nextEngine _ k = _
      rw [Function.update_of_ne hne]
      exact (h.unused k hge).2
  · intro entry hmem
    rcases List.mem_cons.mp hmem with rfl | hold
    · exact Nat.le_refl _
    · exact h.stamp entry hold
  · intro engine s
    -- only the turn that leaves the second table is new among the retired ones
    have hretired : ((r.commitAssignment r.nextEngine r.nextEngine record).retiredSequences
        engine).getLsbD s = true ↔ (r.retiredSequences engine).getLsbD s = true ∨
          ∃ entry, entries[2 * r.config.engineCount - 1]? = some entry ∧
            entry.record.engine.topologyIndex = engine ∧
            entry.record.work.logicalSequence.toNat = s := by
      have hindex : r.config.engineCount - 1 + r.config.engineCount =
          2 * r.config.engineCount - 1 := by omega
      rw [hindex] at hprevious
      show ((if (r.previousAssignments r.nextEngine).active then
          retireAssignment r.retiredSequences (r.previousAssignments r.nextEngine)
        else r.retiredSequences) engine).getLsbD s = true ↔ _
      rw [hprevious, tableEntry_active]
      cases entries[2 * r.config.engineCount - 1]? with
      | none => simp
      | some entry =>
        simp only [Option.isSome_some, if_true, getLsbD_retireAssignment, tableEntry]
        simp [BzmAssigned.toAssignment]
    rw [hretired, h.retired]
    constructor
    · rintro (⟨i, entry, hi, hengine, hs, hold⟩ | ⟨entry, hi, hengine, hs⟩)
      · refine ⟨i + 1, entry, hi, hengine, hs, ?_⟩
        exact hold.imp_right fun hold => hold.trans (Nat.le_succ i)
      · refine ⟨2 * r.config.engineCount, entry, ?_, hengine, hs, .inr (Nat.le_refl _)⟩
        rw [show 2 * r.config.engineCount = 2 * r.config.engineCount - 1 + 1 by omega,
          List.getElem?_cons_succ]
        exact hi
    · rintro ⟨i, entry, hi, hengine, hs, hold⟩
      cases i with
      | zero =>
        obtain rfl := Option.some.inj hi
        rcases hold with hold | hold
        · exact absurd hold (Nat.lt_irrefl _)
        · have hpos : 2 * r.config.engineCount ≤ 0 := hold
          omega
      | succ i =>
        rcases hold with hold | hold
        · exact .inl ⟨i, entry, hi, hengine, hs, .inl hold⟩
        · rcases Nat.lt_or_ge i (2 * r.config.engineCount) with hlt | hge
          · have hbound : 2 * r.config.engineCount ≤ i + 1 := hold
            obtain rfl : i = 2 * r.config.engineCount - 1 := by omega
            exact .inr ⟨entry, hi, hengine, hs⟩
          · exact .inl ⟨i, entry, hi, hengine, hs, .inr hge⟩

end Dispatched

end BzmReactor

end EspMiner
