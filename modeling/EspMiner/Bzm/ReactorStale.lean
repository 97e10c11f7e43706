import EspMiner.Bzm.ReactorAttribution

/-!
# Stale results

A raw result whose identity was programmed since the last completed flush is answered by exactly
one of the two questions: it maps when that assignment is the engine's latest one and no
invalidation followed, else it is known to be stale.  Other identities are never known to be stale.
Handles come round after 2^56 steps of their counter, and there the answers go wrong.
-/

namespace EspMiner

open Library BzmReactorTrace

namespace BzmReactorTrace

/-- A split of the history at an assignment since the last completed flush is a
split of the ledger. -/
theorem ledger_split (newer : BzmReactorTrace) (record : BzmAssigned) (older : BzmReactorTrace)
    (hnewer : .flushFinished ∉ newer) :
    ∃ (i : Nat) (entry : BzmLedgerEntry),
      (ledger (newer ++ .assigned record :: older))[i]? = some entry ∧
      entry.record = record ∧ entry.invalidations = invalidations older ∧
      ∀ j < i, ∃ other : BzmLedgerEntry,
        (ledger (newer ++ .assigned record :: older))[j]? = some other ∧
        other.record ∈ assignedRecords newer := by
  induction newer with
  | nil =>
    exact ⟨0, _, rfl, rfl, rfl, fun j hj => absurd hj (Nat.not_lt_zero j)⟩
  | cons event newer ih =>
    obtain ⟨i, entry, hi, hrecord, hstamp, hbefore⟩ :=
      ih fun hmem => hnewer (List.mem_cons_of_mem _ hmem)
    cases event with
    | flushFinished => exact absurd List.mem_cons_self hnewer
    | assigned latest =>
      refine ⟨i + 1, entry, hi, hrecord, hstamp, ?_⟩
      intro j hj
      cases j with
      | zero => exact ⟨_, rfl, List.mem_cons_self⟩
      | succ j =>
        obtain ⟨other, hother, hmem⟩ := hbefore j (Nat.lt_of_succ_lt_succ hj)
        exact ⟨other, hother, List.mem_cons_of_mem _ hmem⟩
    | stored => exact ⟨i, entry, hi, hrecord, hstamp, hbefore⟩
    | writeWork => exact ⟨i, entry, hi, hrecord, hstamp, hbefore⟩
    | dispatchCheckpoint => exact ⟨i, entry, hi, hrecord, hstamp, hbefore⟩
    | invalidated => exact ⟨i, entry, hi, hrecord, hstamp, hbefore⟩
    | flushBegun => exact ⟨i, entry, hi, hrecord, hstamp, hbefore⟩
    | flush => exact ⟨i, entry, hi, hrecord, hstamp, hbefore⟩

end BzmReactorTrace

namespace BzmReactor

variable {start : NonzeroCounter 64} {r : BzmReactor} {raw : BzmRawResult}

/-- Outside a flush a result is stale exactly when a turn of the ledger bears its
identity and that turn is invalidated, two rounds old or without its job. -/
theorem Tracked.resultIsStale_iff (h : Tracked start r) (hpending : r.flushPending = false) :
    r.resultIsStale raw = true ↔
      raw.hasValidNonce = true ∧ (∃ index, bzmTopologyAsicIndex raw.asicId = some index) ∧
      ∃ i entry, (ledger r.trace)[i]? = some entry ∧ entry.record.names r.config raw = true ∧
        (entry.invalidations < invalidations r.trace ∨ 2 * r.config.engineCount ≤ i ∨
          r.jobStore.contains entry.handle = false) := by
  obtain ⟨hdispatched, hholds, -, -, -⟩ := h.dispatching hpending
  unfold resultIsStale
  cases hlogical : bzmEngineLogicalId raw.engineId with
  | none =>
    simp only [Bool.false_eq_true, false_iff]
    rintro ⟨-, -, i, entry, hi, hnames, -⟩
    have hlocated := (activationAt_located (hdispatched.turn i entry hi).scheduled).2.1
    rw [← (names_iff_identity.mp hnames).1, hlocated.logicalId] at hlogical
    cases hlogical
  | some engine =>
    -- the retired bit of the result's identity
    have hretired : (r.retiredSequences engine).getLsbD (r.config.rawSequence raw).toNat = true ↔
        ∃ i entry, (ledger r.trace)[i]? = some entry ∧ entry.record.names r.config raw = true ∧
          (entry.invalidations < invalidations r.trace ∨ 2 * r.config.engineCount ≤ i) := by
      rw [hdispatched.retired]
      obtain ⟨location, hfrom, htopology⟩ := Option.map_eq_some_iff.mp hlogical
      obtain ⟨hlocation, hphysical⟩ := fromPhysicalId_located hfrom
      constructor
      · rintro ⟨i, entry, hi, hengine, hs, hold⟩
        have hlocated := (activationAt_located (hdispatched.turn i entry hi).scheduled).2.1
        have hsame := hlocated.eq_of_topologyIndex hlocation (hengine.trans htopology.symm)
        refine ⟨i, entry, hi, names_iff_identity.mpr ⟨?_, BitVec.eq_of_toNat_eq hs⟩, hold⟩
        rw [hsame, hphysical]
      · rintro ⟨i, entry, hi, hnames, hold⟩
        obtain ⟨hengine, hsequence⟩ := names_iff_identity.mp hnames
        have hlocated := (activationAt_located (hdispatched.turn i entry hi).scheduled).2.1
        have hsame := hlocated.eq_of_physicalId hlocation (hengine.trans hphysical.symm)
        exact ⟨i, entry, hi, by rw [hsame, htopology], by rw [hsequence], hold⟩
    simp only
    split
    · next hmalformed =>
      simp only [Bool.false_eq_true, false_iff]
      rintro ⟨hnonce, ⟨index, hasic⟩, -⟩
      simp [hnonce, hasic] at hmalformed
    · next hformed =>
      simp only [Bool.or_eq_true, not_or, Bool.not_eq_true', Bool.not_eq_true] at hformed
      have hasic : ∃ index, bzmTopologyAsicIndex raw.asicId = some index := by
        rw [← Option.isSome_iff_exists, Option.isSome_iff_ne_none]
        intro hnone
        simp [hnone] at hformed
      have hnonce : raw.hasValidNonce = true := by
        simpa using hformed.2
      cases hfind : r.findAssignment raw.engineId (r.config.rawSequence raw) with
      | none =>
        simp only [hretired]
        constructor
        · rintro ⟨i, entry, hi, hnames, hold⟩
          exact ⟨hnonce, hasic, i, entry, hi, hnames, hold.imp_right .inl⟩
        · rintro ⟨-, -, i, entry, hi, hnames, -⟩
          -- an identity that the search misses is two rounds old
          obtain ⟨hengine, hsequence⟩ := names_iff_identity.mp hnames
          refine ⟨i, entry, hi, hnames, .inr (Nat.not_lt.mp fun hrecent => ?_)⟩
          have hfound := (hdispatched.findAssignment_eq_some_iff h.valid).mpr
            ⟨i, entry, hi, hrecent, hengine, hsequence, rfl⟩
          exact absurd (hfind.symm.trans hfound) (by simp)
      | some assignment =>
        obtain ⟨i, entry, hi, hrecent, hengine, hsequence, rfl⟩ :=
          (hdispatched.findAssignment_eq_some_iff h.valid).mp hfind
        have hnames := names_iff_identity.mpr ⟨hengine, hsequence⟩
        have hstamped := hholds.stamped entry (List.mem_of_getElem? hi)
        have hle := (hholds.recent entry (List.mem_of_getElem? hi)).1
        have honly : ∀ j other, (ledger r.trace)[j]? = some other →
            other.record.names r.config raw = true → j = i := fun j other hj hother =>
          hdispatched.identity_unique hj hi
            ((names_iff_identity.mp hother).1.trans hengine.symm)
            ((names_iff_identity.mp hother).2.trans hsequence.symm)
        simp only
        split
        · next hgone =>
          refine iff_of_true rfl ⟨hnonce, hasic, i, entry, hi, hnames, ?_⟩
          rcases hgone with hepoch | hcontains
          · left
            refine Nat.lt_of_le_of_ne hle fun hnow => hepoch ?_
            show entry.record.epoch.val = r.epoch.val
            rw [hstamped.epoch_eq, hnow, h.epoch]
          · exact .inr (.inr hcontains)
        · next hlive =>
          rw [hretired]
          constructor
          · rintro ⟨j, other, hj, hother, hold⟩
            exact ⟨hnonce, hasic, j, other, hj, hother, hold.imp_right .inl⟩
          · rintro ⟨-, -, j, other, hj, hother, hold⟩
            refine ⟨j, other, hj, hother, ?_⟩
            rcases hold with hold | hold | hcontains
            · exact .inl hold
            · exact .inr hold
            · obtain rfl := honly j other hj hother
              obtain rfl := Option.some.inj (hj.symm.trans hi)
              exact absurd (.inr hcontains) hlive

/-- The latest turn of an engine, still current, has its job in the store. -/
theorem Tracked.latest_contained (h : Tracked start r) (hpending : r.flushPending = false)
    (hbound : generationSteps (since isFlushFinished r.trace) < 2 ^ 56) {i : Nat}
    {entry : BzmLedgerEntry} (hi : (ledger r.trace)[i]? = some entry)
    (hrecent : i < r.config.engineCount) (hnow : entry.invalidations = invalidations r.trace) :
    r.jobStore.contains entry.handle = true := by
  obtain ⟨-, hholds, hkept, -, -⟩ := h.dispatching hpending
  have hsplit := generationSteps_split r.trace
  rw [generationSteps] at hsplit
  have hstored := hkept (by omega) i entry hi hrecent hnow
  have hhandle := (hholds.stamped entry (List.mem_of_getElem? hi)).handle_ne
  simp [AsicJobStore.contains, hhandle, hstored]

/-- **Known identities.**  Outside a flush and its quarantine, a well-formed raw
result whose identity was assigned since the last completed flush is answered by
exactly one of the two questions.  It maps when that assignment is the engine's
latest one and no invalidation followed, while the store took fewer than `2 ^ 56`
counter steps since that flush.  A result whose identity was not assigned since
then is not stale. -/
theorem known_identity_answered_once {config : BzmReactorConfig} {transport : BzmTransportOps}
    {jobStore : AsicJobStore} {initial : BzmReactor}
    (hinit : init config transport jobStore = some initial) (ops : List BzmReactorOp)
    (hpending : (run step initial ops).flushPending = false)
    (hquarantined : (run step initial ops).resultsQuarantined = false) (raw : BzmRawResult) :
    (WellFormed config raw →
      (∃ record ∈ assignedRecords (since isFlushFinished (run step initial ops).trace),
        record.names config raw = true) →
      ((run step initial ops).mapResult raw).isSome =
        !(run step initial ops).resultIsStale raw) ∧
    (WellFormed config raw →
      generationSteps (since isFlushFinished (run step initial ops).trace) < 2 ^ 56 →
      ∀ newer record older, (run step initial ops).trace = newer ++ .assigned record :: older →
        record.names config raw = true → .flushFinished ∉ newer → .invalidated ∉ newer →
        (∀ other ∈ assignedRecords newer, other.engine ≠ record.engine) →
        ((run step initial ops).mapResult raw).isSome = true) ∧
    ((∀ record ∈ assignedRecords (since isFlushFinished (run step initial ops).trace),
        record.names config raw = false) →
      (run step initial ops).resultIsStale raw = false) := by
  have h := run_tracked hinit ops
  have hconfig := (run_config hinit ops).1
  generalize run step initial ops = r at h hconfig hpending hquarantined ⊢
  subst hconfig
  obtain ⟨hdispatched, hholds, -, -, hopened⟩ := h.dispatching hpending
  refine ⟨?_, ?_, ?_⟩
  · rintro hraw ⟨record, hrecord, hnames⟩
    rw [assignedRecords_since] at hrecord
    obtain ⟨entry, hentry, rfl⟩ := List.mem_map.mp hrecord
    obtain ⟨i, hi⟩ := List.mem_iff_getElem?.mp hentry
    have hle := (hholds.recent entry hentry).1
    have honly : ∀ j other, (ledger r.trace)[j]? = some other →
        other.record.names r.config raw = true → j = i ∧ other = entry := by
      intro j other hj hother
      have hposition := hdispatched.identity_unique hj hi
        ((names_iff_identity.mp hother).1.trans (names_iff_identity.mp hnames).1.symm)
        ((names_iff_identity.mp hother).2.trans (names_iff_identity.mp hnames).2.symm)
      subst hposition
      exact ⟨rfl, Option.some.inj (hj.symm.trans hi)⟩
    cases hstale : r.resultIsStale raw with
    | true =>
      obtain ⟨-, -, j, other, hj, hother, hold⟩ := (h.resultIsStale_iff hpending).mp hstale
      obtain ⟨rfl, rfl⟩ := honly j other hj hother
      rw [Bool.not_true, Option.isSome_eq_false_iff, Option.isNone_iff_eq_none,
        Option.eq_none_iff_forall_ne_some]
      intro event hmap
      obtain ⟨-, -, -, j', other', -, hj', hrecent, hother', hnow, hcontains, -⟩ :=
        h.mapResult_eq_some_iff.mp hmap
      obtain ⟨rfl, rfl⟩ := honly j' other' hj' hother'
      rcases hold with hold | hold | hold
      · omega
      · omega
      · rw [hcontains] at hold
        cases hold
    | false =>
      have hlive : ¬ (entry.invalidations < invalidations r.trace ∨
          2 * r.config.engineCount ≤ i ∨ r.jobStore.contains entry.handle = false) := by
        intro hold
        have := (h.resultIsStale_iff hpending).mpr
          ⟨hraw.validNonce, hraw.asicId, i, entry, hi, hnames, hold⟩
        exact absurd (this.symm.trans hstale) (by simp)
      simp only [not_or, Nat.not_lt, Nat.not_le, Bool.not_eq_false] at hlive
      obtain ⟨asicIndex, hasic⟩ := hraw.asicId
      have hmap := h.mapResult_eq_some_iff.mpr ⟨hpending, hquarantined, hraw, i, entry, asicIndex,
        hi, hlive.2.1, hnames, Nat.le_antisymm hle hlive.1, hlive.2.2, hasic, rfl⟩
      rw [hmap]
      rfl
  · intro hraw hbound newer record older htrace hnames hfinished hinvalidated hlatest
    obtain ⟨i, entry, hi, rfl, hstamp, hbefore⟩ := ledger_split newer record older hfinished
    rw [← htrace] at hi hbefore
    have hbegun : .flushBegun ∉ newer := by
      intro hmem
      obtain ⟨first, rest, rfl⟩ := List.append_of_mem hmem
      refine hopened ?_
      rw [htrace, List.append_assoc]
      refine mem_since_of_not_barrier (fun event hevent => ?_) rfl
      cases event with
      | flushFinished => exact absurd (List.mem_append_left _ hevent) hfinished
      | _ => rfl
    have hquiet : invalidations newer = 0 := by
      refine List.countP_eq_zero.mpr fun event hevent => ?_
      cases event with
      | invalidated => exact absurd hevent hinvalidated
      | flushBegun => exact absurd hevent hbegun
      | _ => simp
    have hnow : entry.invalidations = invalidations r.trace := by
      have hsum : invalidations r.trace = invalidations newer + invalidations older := by
        rw [htrace]
        simp [invalidations]
      omega
    -- a turn one round later would be another assignment of this engine
    have hrecent : i < r.config.engineCount := by
      by_contra hge
      have hn := h.valid.engineCount_pos
      obtain ⟨other, hother, hmem⟩ := hbefore (i - r.config.engineCount) (by omega)
      have hlt := (List.getElem?_eq_some_iff.mp hi).1
      have hturn := (hdispatched.turn i entry hi).scheduled
      have hturn' := (hdispatched.turn _ other hother).scheduled
      have hshift : (ledger r.trace).length - 1 - (i - r.config.engineCount) =
          (ledger r.trace).length - 1 - i + r.config.engineCount := by omega
      rw [hshift, Nat.add_mod_right, hturn] at hturn'
      exact hlatest other.record hmem (Option.some.inj hturn').symm
    obtain ⟨asicIndex, hasic⟩ := hraw.asicId
    have hmap := h.mapResult_eq_some_iff.mpr ⟨hpending, hquarantined, hraw, i, entry, asicIndex,
      hi, by omega, hnames, hnow, h.latest_contained hpending hbound hi hrecent hnow, hasic, rfl⟩
    rw [hmap]
    rfl
  · intro hunknown
    cases hstale : r.resultIsStale raw with
    | false => rfl
    | true =>
      obtain ⟨-, -, i, entry, hi, hnames, -⟩ := (h.resultIsStale_iff hpending).mp hstale
      have hmem : entry.record ∈ assignedRecords (since isFlushFinished r.trace) := by
        rw [assignedRecords_since]
        exact List.mem_map_of_mem (List.mem_of_getElem? hi)
      exact absurd ((hunknown entry.record hmem).symm.trans hnames) (by simp)

theorem known_identity_answered_once_second : ∃ initial, plainReactor = some initial ∧
    ((run step initial twoAssignments).mapResult secondResult).isSome =
      !(run step initial twoAssignments).resultIsStale secondResult := by
  have hpending : (run step (plainReactor.get rfl) twoAssignments).flushPending = false := by
    decide +kernel
  have hquarantined : (run step (plainReactor.get rfl) twoAssignments).resultsQuarantined =
      false := by decide +kernel
  have hknown : (assignedRecords (since isFlushFinished
      (run step (plainReactor.get rfl) twoAssignments).trace)).any
        (BzmAssigned.names plainConfig secondResult) = true := by decide +kernel
  have hinit : plainReactor = some (plainReactor.get rfl) := rfl
  refine ⟨_, hinit, (known_identity_answered_once hinit twoAssignments hpending hquarantined
    secondResult).1 ⟨by decide, ⟨0, rfl⟩, by decide, by decide⟩ ?_⟩
  simpa using hknown

/-! ### A stale handle returns

Invalidations step the generation counter too.  Enough of them bring back the
handle that a two rounds old assignment still holds, and retiring that
assignment releases the job of a current one. -/

/-- What a number of invalidations leaves alone. -/
theorem run_invalidations (r : BzmReactor) (n : Nat) :
    (run step r (List.replicate n .invalidateWork)).assignments = r.assignments ∧
    (run step r (List.replicate n .invalidateWork)).previousAssignments =
      r.previousAssignments ∧
    (run step r (List.replicate n .invalidateWork)).nextEngineSequence = r.nextEngineSequence ∧
    (run step r (List.replicate n .invalidateWork)).nextEngine = r.nextEngine ∧
    (run step r (List.replicate n .invalidateWork)).flushPending = r.flushPending ∧
    (run step r (List.replicate n .invalidateWork)).resultsQuarantined = r.resultsQuarantined ∧
    (run step r (List.replicate n .invalidateWork)).jobStore.nextGeneration =
      NonzeroCounter.next^[n] r.jobStore.nextGeneration := by
  induction n generalizing r with
  | zero => exact ⟨rfl, rfl, rfl, rfl, rfl, rfl, rfl⟩
  | succ n ih => exact ih r.invalidateWork

theorem run_invalidations_nextSlot (r : BzmReactor) (n : Nat) :
    (run step r (List.replicate (n + 1) .invalidateWork)).jobStore.nextSlot = 0 := by
  rw [List.replicate_succ', run_append]
  rfl

/-- Two engines in the enhanced mode. -/
def pairConfig : BzmReactorConfig where
  engineCount := 2
  timestampCount := 0
  leadZeros := 0
  nonceOffset := 0
  enhancedMode := true

def pairReactor : BzmReactor :=
  (init pairConfig serialTransport AsicJobStore.empty).get rfl

def assignZero : BzmReactorOp := .assign ⟨0, AsicJob.zero⟩ allGood

/-- Three turns, many invalidations, two turns. -/
def staleHandleOps (n : Nat) : List BzmReactorOp :=
  List.replicate 3 assignZero ++ (List.replicate n .invalidateWork ++ [assignZero, assignZero])

/-- A result of the fourth turn. -/
def fourthTurnResult : BzmRawResult where
  asicId := 0x0a
  engineId := 10
  status := 8
  nonce := 0
  sequenceId := 4
  time := 0
  timestampUs := 0

/-- What the first three turns leave for the last two. -/
theorem threeTurns :
    let r := run step pairReactor (List.replicate 3 assignZero)
    r.flushPending = false ∧ r.resultsQuarantined = false ∧ r.nextEngine = 1 ∧
      r.nextEngineSequence 0 = 2 ∧ r.nextEngineSequence 1 = 1 ∧
      (r.previousAssignments 0).active = true ∧
      (r.previousAssignments 0).handle = generatedHandle NonzeroCounter.one.val 0 ∧
      r.jobStore.nextGeneration = NonzeroCounter.next^[3] NonzeroCounter.one := by
  decide +kernel

/-- After `2 ^ 56 - 3` invalidations the next handle is the first one again. -/
theorem first_handle_returns {r : BzmReactor} {n : Nat} (hn : n + 3 = 2 ^ 56)
    (hgeneration : r.jobStore.nextGeneration =
      NonzeroCounter.next^[n] (NonzeroCounter.next^[3] NonzeroCounter.one))
    (hslot : r.jobStore.nextSlot = 0) :
    r.nextHandle = generatedHandle NonzeroCounter.one.val 0 := by
  have hgenerated : r.jobStore.generatedSlot = 0 := by rw [AsicJobStore.generatedSlot, hslot]; rfl
  rw [nextHandle, hgeneration, hgenerated]
  refine generatedHandle_eq_iff.mpr ⟨?_, rfl⟩
  rw [← Function.iterate_add_apply, NonzeroCounter.ordinal_iterate_next,
    NonzeroCounter.ordinal_one, hn]
  decide

/-- Two more turns after the invalidations: the second one releases the job that
the first one has just stored. -/
theorem stale_handle_releases {r : BzmReactor} {n : Nat} (hn : n + 3 = 2 ^ 56)
    (htracked : Tracked start r) (htransport : r.transport = serialTransport)
    (hconfig : r.config = pairConfig) (hpending : r.flushPending = false)
    (hquarantined : r.resultsQuarantined = false) (hcursor : r.nextEngine = 1)
    (hsequence0 : r.nextEngineSequence 0 = 2) (hsequence1 : r.nextEngineSequence 1 = 1)
    (hactive : (r.previousAssignments 0).active = true)
    (hprevious : (r.previousAssignments 0).handle = generatedHandle NonzeroCounter.one.val 0)
    (hgeneration : r.jobStore.nextGeneration =
      NonzeroCounter.next^[n] (NonzeroCounter.next^[3] NonzeroCounter.one))
    (hslot : r.jobStore.nextSlot = 0) :
    ∃ newer record older,
      (run step r [assignZero, assignZero]).flushPending = false ∧
      (run step r [assignZero, assignZero]).resultsQuarantined = false ∧
      (run step r [assignZero, assignZero]).trace = newer ++ .assigned record :: older ∧
      record.names pairConfig fourthTurnResult = true ∧
      .flushFinished ∉ newer ∧ .invalidated ∉ newer ∧
      (∀ other ∈ assignedRecords newer, other.engine ≠ record.engine) ∧
      (run step r [assignZero, assignZero]).jobStore.contains record.work.source.handle =
        false := by
  have hfirst := first_handle_returns hn hgeneration hslot
  -- the fourth turn, on the second engine
  obtain ⟨record, sent, hattempt, hsent, hassign⟩ := htracked.assign_ok hpending
    (by rw [hcursor, hsequence1, hconfig]; decide) (by rw [hfirst]; decide) ⟨0, AsicJob.zero⟩
    allGood (by rw [htransport]; rfl)
  obtain ⟨s, hs⟩ : ∃ s, s = r.step assignZero := ⟨_, rfl⟩
  have hs' : s = ((r.afterStore ⟨0, AsicJob.zero⟩).noted sent).commitAssignment r.nextEngine
      r.nextEngine record := by
    rw [hs]
    exact congrArg Prod.snd hassign
  have hstracked : Tracked start s := hs ▸ step_tracked htracked assignZero
  have hscursor : s.nextEngine = 0 := by
    rw [hs']
    show (r.nextEngine + 1) % r.config.engineCount = 0
    rw [hcursor, hconfig]
    rfl
  have hspending : s.flushPending = false := by rw [hs']; exact hpending
  have hsequence : s.nextEngineSequence 0 = 2 := by
    rw [hs']
    show Function.update r.nextEngineSequence r.nextEngine _ 0 = 2
    rw [Function.update_of_ne (by rw [hcursor]; decide), hsequence0]
  have hsprevious : s.previousAssignments 0 = r.previousAssignments 0 := by
    rw [hs']
    exact Function.update_of_ne (by rw [hcursor]; decide) _ _
  have hsslot : s.jobStore.generatedSlot = 1 := by
    have hnext : s.jobStore.nextSlot = r.jobStore.nextSlot + 1 := by
      rw [hs', commitAssignment_jobStore]
      split
      · exact AsicJobStore.release_nextSlot _ _
      · rfl
    rw [AsicJobStore.generatedSlot, hnext, hslot]
    rfl
  have hshandle : s.nextHandle ≠ ASIC_WORK_HANDLE_INVALID := by
    intro hinvalid
    have := slot_of_invalid hinvalid
    rw [hsslot] at this
    exact absurd this (by decide)
  have hsconfig : s.config = pairConfig := by rw [hs']; exact hconfig
  have hstransport : s.transport = serialTransport := by rw [hs']; exact htransport
  -- the fifth turn, on the first engine
  obtain ⟨record', sent', hattempt', hsent', hassign'⟩ := hstracked.assign_ok hspending
    (by rw [hscursor, hsequence, hsconfig]; decide) hshandle ⟨0, AsicJob.zero⟩ allGood
    (by rw [hstransport]; rfl)
  have hrun : run step r [assignZero, assignZero] =
      ((s.afterStore ⟨0, AsicJob.zero⟩).noted sent').commitAssignment s.nextEngine s.nextEngine
        record' := by
    show (r.step assignZero).step assignZero = _
    rw [← hs]
    exact congrArg Prod.snd hassign'
  have hstrace : s.trace = .assigned record :: (sent ++ .stored r.nextHandle :: r.trace) := by
    rw [hs']
    rfl
  have hbook := hsent'.bookkeeping []
  refine ⟨.assigned record' :: (sent' ++ [.stored s.nextHandle]), record, sent ++ .stored
    r.nextHandle :: r.trace, ?_, ?_, ?_, ?_, ?_, ?_, ?_, ?_⟩
  · rw [hrun]
    exact hspending
  · rw [hrun]
    show (if (s.nextEngine + 1) % s.config.engineCount = 0 then false
      else s.resultsQuarantined) = false
    have hopen : s.resultsQuarantined = false := by
      rw [hs']
      show (if (r.nextEngine + 1) % r.config.engineCount = 0 then false
        else r.resultsQuarantined) = false
      rw [hquarantined]
      split <;> rfl
    rw [hopen]
    split <;> rfl
  · rw [hrun]
    show .assigned record' :: (sent' ++ .stored s.nextHandle :: s.trace) = _
    rw [hstrace]
    simp
  · have hscheduled := hattempt.scheduled
    rw [hcursor] at hscheduled
    have hengine : record.engine.physicalId = 10 := by
      have hlocation : (scheduledEngineAt 1).map BzmEngineLocation.physicalId = some 10 := by
        decide +kernel
      rw [hscheduled] at hlocation
      exact Option.some.inj hlocation
    refine names_iff_identity.mpr ⟨hengine, ?_⟩
    rw [hattempt.built.logicalSequence_eq, hcursor, hsequence1]
    rfl
  · cases hsent' <;> simp
  · cases hsent' <;> simp
  · intro other hother hsame
    have hother' : other = record' := by
      cases hsent' <;> simpa [assignedRecords] using hother
    have hscheduled := hattempt'.scheduled
    rw [hother'] at hsame
    rw [hsame] at hscheduled
    have := activationAt_inj hscheduled hattempt.scheduled
    rw [hscursor, hcursor] at this
    exact absurd this (by decide)
  · have hhandle : record.work.source.handle = generatedHandle NonzeroCounter.one.val 0 := by
      rw [hattempt.built.source_eq, hfirst]
    rw [hrun, commitAssignment_jobStore, hscursor]
    show (if (s.previousAssignments 0).active then
      ((s.jobStore.storeGenerated ⟨0, AsicJob.zero⟩).2.release
        (s.previousAssignments 0).handle).2
      else (s.jobStore.storeGenerated ⟨0, AsicJob.zero⟩).2).contains record.work.source.handle =
        false
    rw [hsprevious, if_pos hactive, hprevious, hhandle, AsicJobStore.contains_eq_isSome,
      AsicJobStore.snapshot_release, if_pos rfl]
    rfl

/-- The engine's latest assignment, with no invalidation after it, does not map. -/
theorem stale_handle_unmaps_current : ∃ newer record older,
    (run step pairReactor (staleHandleOps (2 ^ 56 - 3))).flushPending = false ∧
    (run step pairReactor (staleHandleOps (2 ^ 56 - 3))).resultsQuarantined = false ∧
    WellFormed pairConfig fourthTurnResult ∧
    (run step pairReactor (staleHandleOps (2 ^ 56 - 3))).trace =
      newer ++ .assigned record :: older ∧
    record.names pairConfig fourthTurnResult = true ∧
    .flushFinished ∉ newer ∧ .invalidated ∉ newer ∧
    (∀ other ∈ assignedRecords newer, other.engine ≠ record.engine) ∧
    (run step pairReactor (staleHandleOps (2 ^ 56 - 3))).mapResult fourthTurnResult = none := by
  have hinit : init pairConfig serialTransport AsicJobStore.empty = some pairReactor :=
    (Option.some_get _).symm
  obtain ⟨n, hn⟩ : ∃ n, n = 2 ^ 56 - 3 := ⟨_, rfl⟩
  rw [← hn]
  obtain ⟨three, hthree⟩ : ∃ three, three = run step pairReactor (List.replicate 3 assignZero) :=
    ⟨_, rfl⟩
  obtain ⟨hpending, hquarantined, hcursor, hsequence0, hsequence1, hactive, hprevious,
    hgeneration⟩ := threeTurns
  rw [← hthree] at hpending hquarantined hcursor hsequence0 hsequence1 hactive hprevious hgeneration
  obtain ⟨-, hprevious', hsequence', hcursor', hpending', hquarantined', hgeneration'⟩ :=
    run_invalidations three n
  have hslot : (run step three (List.replicate n .invalidateWork)).jobStore.nextSlot = 0 := by
    have hsucc : n = n - 1 + 1 := by omega
    rw [hsucc]
    exact run_invalidations_nextSlot three (n - 1)
  have hinvalidated := run_tracked hinit (List.replicate 3 assignZero ++
    List.replicate n .invalidateWork)
  have hconfig := run_config hinit (List.replicate 3 assignZero ++
    List.replicate n .invalidateWork)
  rw [run_append, ← hthree] at hinvalidated hconfig
  have hsteps : n + 3 = 2 ^ 56 := by omega
  obtain ⟨newer, record, older, hpendingT, hquarantinedT, htrace, hnames, hfinished, hclean,
    hlatest, hcontains⟩ := stale_handle_releases hsteps hinvalidated hconfig.2 hconfig.1
      (hpending'.trans hpending) (hquarantined'.trans hquarantined) (hcursor'.trans hcursor)
      (by rw [hsequence', hsequence0]) (by rw [hsequence', hsequence1])
      (by rw [hprevious', hactive]) (by rw [hprevious', hprevious])
      (by rw [hgeneration', hgeneration]) hslot
  have hops : run step pairReactor (staleHandleOps n) =
      run step (run step three (List.replicate n .invalidateWork)) [assignZero, assignZero] := by
    rw [staleHandleOps, run_append, run_append, ← hthree]
  have hfinal := run_tracked hinit (staleHandleOps n)
  have hfinalConfig := (run_config hinit (staleHandleOps n)).1
  rw [hops] at hfinal hfinalConfig ⊢
  refine ⟨newer, record, older, hpendingT, hquarantinedT,
    ⟨by decide, ⟨0, rfl⟩, by decide, by decide⟩, htrace, hnames, hfinished, hclean, hlatest, ?_⟩
  -- whatever would map names this record, and its handle is gone
  rw [Option.eq_none_iff_forall_ne_some]
  intro event hmap
  obtain ⟨-, -, -, i, entry, -, hi, -, hentry, -, hstored, -⟩ :=
    hfinal.mapResult_eq_some_iff.mp hmap
  obtain ⟨j, other, hj, hrecord, -, -⟩ := ledger_split newer record older hfinished
  rw [← htrace] at hj
  obtain ⟨hdispatched, -, -, -, -⟩ := hfinal.dispatching hpendingT
  rw [hfinalConfig] at hentry
  have hposition := hdispatched.identity_unique hi hj
    ((names_iff_identity.mp hentry).1.trans
      (names_iff_identity.mp (hrecord ▸ hnames)).1.symm)
    ((names_iff_identity.mp hentry).2.trans
      (names_iff_identity.mp (hrecord ▸ hnames)).2.symm)
  subst hposition
  obtain rfl := Option.some.inj (hi.symm.trans hj)
  rw [BzmLedgerEntry.handle, hrecord, hcontains] at hstored
  cases hstored

end BzmReactor

end EspMiner
