import EspMiner.Asic.JobStore
import EspMiner.Library.Run
import Mathlib.Data.List.Nodup
import Mathlib.Data.Nat.Bitwise

/-!
# Handles name the store that returned them

A run of job-store operations is compared with its own history: a handle is
retained exactly while nothing in the history has overwritten its slot,
released it or invalidated the store since the store that returned it.

Every generated store and every invalidation takes one step of the 64-bit
generation counter, and a handle keeps its low 56 bits.  Handles are therefore
distinct for `2 ^ 56 - 1` steps, and one step earlier the all-ones handle is
still out of reach.
-/

namespace EspMiner

open Library

/-! ## Handles -/

theorem toNat_generatedHandle (generation : U64) (slot : U8) :
    (generatedHandle generation slot).toNat =
      generation.toNat % 2 ^ 56 * 256 + slot.toNat := by
  have hslot := slot.isLt
  have hshift : (generation.toNat <<< 8) % 2 ^ 64 = 2 ^ 8 * (generation.toNat % 2 ^ 56) := by
    rw [Nat.shiftLeft_eq]
    omega
  have hwide : slot.toNat % 2 ^ 64 = slot.toNat := Nat.mod_eq_of_lt (by omega)
  rw [generatedHandle, BitVec.toNat_or, BitVec.toNat_shiftLeft, hshift, BitVec.toNat_setWidth,
    hwide, ← Nat.two_pow_add_eq_or_of_lt hslot]
  omega

theorem toNat_handleSlot (handle : AsicWorkHandle) :
    (handleSlot handle).toNat = handle.toNat % 256 := by
  rw [handleSlot, BitVec.toNat_setWidth, BitVec.toNat_and]
  have : handle.toNat &&& (0xff#64).toNat = handle.toNat % 2 ^ 8 :=
    Nat.and_two_pow_sub_one_eq_mod handle.toNat 8
  omega

@[simp] theorem handleSlot_generatedHandle (generation : U64) (slot : U8) :
    handleSlot (generatedHandle generation slot) = slot := by
  apply BitVec.eq_of_toNat_eq
  rw [toNat_handleSlot, toNat_generatedHandle]
  have := slot.isLt
  omega

@[simp] theorem handleSlot_setWidth (slot : U8) : handleSlot (slot.setWidth 64) = slot := by
  apply BitVec.eq_of_toNat_eq
  rw [toNat_handleSlot, BitVec.toNat_setWidth]
  have := slot.isLt
  omega

/-- The generation of the `n`-th counter step, while the low 56 bits last. -/
theorem toNat_nthHandle {n : Nat} (hn : n < 2 ^ 56 - 1) (slot : U8) :
    (generatedHandle (NonzeroCounter.next^[n] NonzeroCounter.one).val slot).toNat =
      (n + 1) * 256 + slot.toNat := by
  have hcount : (NonzeroCounter.next^[n] (NonzeroCounter.one : NonzeroCounter 64)).ordinal = n := by
    rw [NonzeroCounter.ordinal_iterate_next_of_lt (by simp; omega)]
    simp
  rw [toNat_generatedHandle, NonzeroCounter.toNat_eq, hcount, Nat.mod_eq_of_lt (by omega)]

/-! ## Snapshots of the elementary updates -/

namespace AsicJobStore

variable (store : AsicJobStore)

@[simp] theorem snapshot_empty (handle : AsicWorkHandle) :
    empty.snapshotWithContext handle = none := by
  simp [snapshotWithContext, empty, AsicJobStoreEntry.zero]

@[simp] theorem snapshot_invalidateAll (handle : AsicWorkHandle) :
    store.invalidateAll.snapshotWithContext handle = none := by
  simp [snapshotWithContext, invalidateAll, AsicJobStoreEntry.zero]

/-- A handle is contained exactly when a snapshot finds it. -/
theorem contains_eq_isSome (handle : AsicWorkHandle) :
    store.contains handle = (store.snapshotWithContext handle).isSome := by
  unfold contains snapshotWithContext
  split
  · rfl
  · simp only
    split
    · next hlive => simp [hlive]
    · next hdead => simpa using hdead

theorem snapshot_storeEntry (stored : AsicWorkHandle) (template : JobRef)
    {handle : AsicWorkHandle} (hhandle : handle ≠ ASIC_WORK_HANDLE_INVALID) :
    (store.storeEntry (handleSlot stored) stored template).snapshotWithContext handle =
      if stored = handle then some (template.job, store.contextFor template)
      else if handleSlot stored = handleSlot handle then none
      else store.snapshotWithContext handle := by
  by_cases hslot : handleSlot handle = handleSlot stored
  · by_cases hstored : stored = handle
    · simp [snapshotWithContext, storeEntry, hhandle, hstored]
    · simp [snapshotWithContext, storeEntry, hhandle, hstored, hslot]
  · have hstored : stored ≠ handle := fun h => hslot (by rw [h])
    simp [snapshotWithContext, storeEntry, hhandle, hstored, hslot, Ne.symm hslot]

theorem snapshot_storeGenerated (template : JobRef) {handle : AsicWorkHandle}
    (hhandle : handle ≠ ASIC_WORK_HANDLE_INVALID) :
    (store.storeGenerated template).2.snapshotWithContext handle =
      if (store.storeGenerated template).1 = handle then
        some (template.job, store.contextFor template)
      else if store.generatedSlot = handleSlot handle then none
      else store.snapshotWithContext handle := by
  have h := snapshot_storeEntry
    { store with nextSlot := store.nextSlot + 1, nextGeneration := store.nextGeneration.next }
    (generatedHandle store.nextGeneration.val store.generatedSlot) template hhandle
  rw [handleSlot_generatedHandle] at h
  exact h

theorem snapshot_release (released handle : AsicWorkHandle) :
    (store.release released).2.snapshotWithContext handle =
      if released = handle then none else store.snapshotWithContext handle := by
  by_cases hinvalid : released = ASIC_WORK_HANDLE_INVALID
  · have hkeep : (store.release released).2 = store := by simp [release, hinvalid]
    rw [hkeep]
    by_cases hsame : released = handle
    · simp [snapshotWithContext, ← hsame, hinvalid]
    · simp [hsame]
  · by_cases hlive : (store.entries (handleSlot released)).valid = true ∧
        (store.entries (handleSlot released)).handle = released
    · by_cases hsame : released = handle
      · subst hsame
        simp [release, snapshotWithContext, hinvalid, hlive, AsicJobStoreEntry.zero]
      · -- the released entry carried another handle than the one asked for
        by_cases hslot : handleSlot handle = handleSlot released
        · simp [release, snapshotWithContext, hinvalid, hlive, hsame, hslot,
            AsicJobStoreEntry.zero]
        · simp [release, snapshotWithContext, hinvalid, hlive, hsame, hslot]
    · by_cases hsame : released = handle
      · subst hsame
        simp [release, snapshotWithContext, hinvalid, hlive]
      · simp [release, hinvalid, hlive, hsame]

/-- Releasing a handle that no snapshot finds changes nothing. -/
theorem release_of_snapshot_eq_none {handle : AsicWorkHandle}
    (h : store.snapshotWithContext handle = none) : store.release handle = (false, store) := by
  by_cases hinvalid : handle = ASIC_WORK_HANDLE_INVALID
  · simp [release, hinvalid]
  · simp only [snapshotWithContext, hinvalid, if_false] at h
    split at h
    · cases h
    · next hdead => simp only [release, hinvalid, if_false, hdead]; rfl

end AsicJobStore

/-! ## Runs and their histories -/

inductive AsicJobStoreOp where
  | beginSubmission (job : JobRef) (context : AsicJobContext)
  | endSubmission
  | storeSlot (slot : U8) (template : JobRef)
  | storeGenerated (template : JobRef)
  | release (handle : AsicWorkHandle)
  | invalidateAll
  | snapshotWithContext (handle : AsicWorkHandle)

/-- What a caller of the store saw happen. -/
inductive AsicJobStoreEvent where
  | submissionBegun (job : JobRef) (context : AsicJobContext)
  | submissionEnded
  | slotStored (handle : AsicWorkHandle) (template : JobRef)
  | generatedStored (handle : AsicWorkHandle) (template : JobRef)
  | released (handle : AsicWorkHandle)
  | invalidated

abbrev AsicJobStoreHistory := List AsicJobStoreEvent

structure AsicJobStoreRun where
  store : AsicJobStore
  history : AsicJobStoreHistory

namespace AsicJobStoreRun

def start : AsicJobStoreRun := ⟨AsicJobStore.empty, []⟩

def step (r : AsicJobStoreRun) : AsicJobStoreOp → AsicJobStoreRun
  | .beginSubmission job context =>
      ⟨r.store.beginSubmission job context, .submissionBegun job context :: r.history⟩
  | .endSubmission => ⟨r.store.endSubmission, .submissionEnded :: r.history⟩
  | .storeSlot slot template =>
      let (handle, store) := r.store.storeSlot slot template
      ⟨store, .slotStored handle template :: r.history⟩
  | .storeGenerated template =>
      let (handle, store) := r.store.storeGenerated template
      ⟨store, .generatedStored handle template :: r.history⟩
  | .release handle => ⟨(r.store.release handle).2, .released handle :: r.history⟩
  | .invalidateAll => ⟨r.store.invalidateAll, .invalidated :: r.history⟩
  | .snapshotWithContext _ => r

end AsicJobStoreRun

namespace AsicJobStoreHistory

/-- The submission scope a history leaves open. -/
def boundSubmission : AsicJobStoreHistory → Option (JobRef × AsicJobContext)
  | [] => none
  | .submissionBegun job context :: _ => some (job, context)
  | .submissionEnded :: _ => none
  | _ :: older => boundSubmission older

/-- The context a store of `template` has after `history`: the bound one for the
bound pointer, the default otherwise. -/
def contextAt (history : AsicJobStoreHistory) (template : JobRef) : AsicJobContext :=
  match boundSubmission history with
  | some (job, context) =>
      if job.address = template.address then context
      else AsicJobContext.ofVersion template.job.version
  | none => AsicJobContext.ofVersion template.job.version

/-- The template of an event that stored a job and returned `handle`. -/
def storedTemplate (handle : AsicWorkHandle) : AsicJobStoreEvent → Option JobRef
  | .slotStored stored template => if stored = handle then some template else none
  | .generatedStored stored template => if stored = handle then some template else none
  | _ => none

/-- The event overwrites the slot of `handle`, releases it or invalidates the store. -/
def retires (handle : AsicWorkHandle) : AsicJobStoreEvent → Bool
  | .slotStored stored _ => decide (handleSlot stored = handleSlot handle)
  | .generatedStored stored _ => decide (handleSlot stored = handleSlot handle)
  | .released released => decide (released = handle)
  | .invalidated => true
  | _ => false

/-- Some store returned `handle` for this job under this context, and nothing
has retired it since. -/
def Retains (history : AsicJobStoreHistory) (handle : AsicWorkHandle)
    (job : AsicJob) (context : AsicJobContext) : Prop :=
  ∃ newer event older template, history = newer ++ event :: older ∧
    storedTemplate handle event = some template ∧
    (∀ e ∈ newer, retires handle e = false) ∧
    job = template.job ∧ context = contextAt older template

/-- The handles that `store_generated` returned, newest first. -/
def generatedHandles (history : AsicJobStoreHistory) : List AsicWorkHandle :=
  history.filterMap fun
    | .generatedStored handle _ => some handle
    | _ => none

/-- Steps of the generation counter: generated stores and invalidations. -/
def generationSteps (history : AsicJobStoreHistory) : Nat :=
  history.countP fun
    | .generatedStored _ _ => true
    | .invalidated => true
    | _ => false

/-- `Retains` as a scan of the history. -/
def retained (handle : AsicWorkHandle) :
    AsicJobStoreHistory → Option (AsicJob × AsicJobContext)
  | [] => none
  | event :: older =>
      match storedTemplate handle event with
      | some template => some (template.job, contextAt older template)
      | none => if retires handle event then none else retained handle older

theorem retained_eq_some_iff {history : AsicJobStoreHistory} {handle : AsicWorkHandle}
    {job : AsicJob} {context : AsicJobContext} :
    retained handle history = some (job, context) ↔ Retains history handle job context := by
  induction history with
  | nil => simp [retained, Retains]
  | cons event older ih =>
    constructor
    · intro h
      cases hstored : storedTemplate handle event with
      | some template =>
        simp only [retained, hstored, Option.some.injEq, Prod.mk.injEq] at h
        exact ⟨[], event, older, template, rfl, hstored, by simp, h.1.symm, h.2.symm⟩
      | none =>
        simp only [retained, hstored] at h
        split at h
        · cases h
        · next hkeep =>
          obtain ⟨newer, e, rest, template, rfl, he, hnewer, hrest⟩ := ih.mp h
          refine ⟨event :: newer, e, rest, template, rfl, he, ?_, hrest⟩
          simpa [hkeep] using hnewer
    · rintro ⟨newer, e, rest, template, hsplit, he, hnewer, rfl, rfl⟩
      cases newer with
      | nil =>
        obtain ⟨rfl, rfl⟩ := List.cons.inj hsplit
        simp [retained, he]
      | cons first newer =>
        obtain ⟨rfl, rfl⟩ := List.cons.inj hsplit
        have hfirst : retires handle event = false := hnewer event (by simp)
        have hnone : storedTemplate handle event = none := by
          cases event <;> simp_all [retires, storedTemplate]
          all_goals (intro h; simp_all)
        simp only [retained, hnone, hfirst]
        exact ih.mpr ⟨newer, e, rest, template, rfl, he,
          fun x hx => hnewer x (by simp [hx]), rfl, rfl⟩

end AsicJobStoreHistory

open AsicJobStoreHistory

namespace AsicJobStoreRun

/-! ## The store agrees with its history -/

/-- The handle an event returned has the form its operation gives it: a slot
number, or the slot under the generation of that counter step. -/
def WellMade (older : AsicJobStoreHistory) : AsicJobStoreEvent → Prop
  | .slotStored handle _ => ∃ slot : U8, handle = slot.setWidth 64
  | .generatedStored handle _ => ∃ slot, handle =
      generatedHandle (NonzeroCounter.next^[generationSteps older] NonzeroCounter.one).val slot
  | _ => True

/-- The store holds what its history says. -/
structure Agrees (r : AsicJobStoreRun) : Prop where
  submission : ∀ template, r.store.contextFor template = contextAt r.history template
  snapshot : ∀ handle, handle ≠ ASIC_WORK_HANDLE_INVALID →
    r.store.snapshotWithContext handle = retained handle r.history
  generation : r.store.nextGeneration =
    NonzeroCounter.next^[generationSteps r.history] NonzeroCounter.one
  wellMade : ∀ newer event older, r.history = newer ++ event :: older → WellMade older event

theorem start_agrees : start.Agrees where
  submission template := by
    simp [start, AsicJobStore.contextFor, AsicJobStore.empty, contextAt, boundSubmission]
  snapshot handle _ := by simp [start, retained]
  generation := rfl
  wellMade newer event older h := by simp [start] at h

/-- Only the new event of a longer history needs a look. -/
theorem wellMade_cons {history : AsicJobStoreHistory} {event : AsicJobStoreEvent}
    (hevent : WellMade history event)
    (hhistory : ∀ newer e older, history = newer ++ e :: older → WellMade older e)
    (newer : AsicJobStoreHistory) (e : AsicJobStoreEvent) (older : AsicJobStoreHistory)
    (hsplit : event :: history = newer ++ e :: older) : WellMade older e := by
  cases newer with
  | nil =>
    obtain ⟨rfl, rfl⟩ := List.cons.inj hsplit
    exact hevent
  | cons first newer => exact hhistory newer e older (List.cons.inj hsplit).2

theorem step_agrees {r : AsicJobStoreRun} (h : r.Agrees) (op : AsicJobStoreOp) :
    (r.step op).Agrees := by
  obtain ⟨hsubmission, hsnapshot, hgeneration, hwellMade⟩ := h
  cases op with
  | beginSubmission job context =>
    refine ⟨?_, ?_, hgeneration, wellMade_cons trivial hwellMade⟩
    · intro template
      simp only [step, AsicJobStore.contextFor, AsicJobStore.beginSubmission, contextAt,
        boundSubmission, Option.some.injEq]
    · intro handle hhandle
      exact hsnapshot handle hhandle
  | endSubmission =>
    refine ⟨?_, ?_, hgeneration, wellMade_cons trivial hwellMade⟩
    · intro template
      simp [step, AsicJobStore.contextFor, AsicJobStore.endSubmission, contextAt, boundSubmission]
    · intro handle hhandle
      exact hsnapshot handle hhandle
  | storeSlot slot template =>
    refine ⟨hsubmission, ?_, hgeneration, wellMade_cons ⟨slot, rfl⟩ hwellMade⟩
    intro handle hhandle
    have hstore := r.store.snapshot_storeEntry (slot.setWidth 64) template hhandle
    rw [handleSlot_setWidth] at hstore
    simp only [step, AsicJobStore.storeSlot, hstore, retained, storedTemplate, retires,
      hsubmission, hsnapshot handle hhandle, handleSlot_setWidth]
    split <;> simp
  | storeGenerated template =>
    refine ⟨hsubmission, ?_, ?_, wellMade_cons ?_ hwellMade⟩
    · intro handle hhandle
      simp only [step, r.store.snapshot_storeGenerated template hhandle,
        AsicJobStore.storeGenerated_fst, hsubmission, hsnapshot handle hhandle,
        retained, storedTemplate, retires, handleSlot_generatedHandle]
      split <;> simp
    · simp only [step, AsicJobStore.storeGenerated_nextGeneration, hgeneration, generationSteps,
        List.countP_cons_of_pos, Function.iterate_succ_apply']
    · exact ⟨r.store.generatedSlot, by rw [← hgeneration]⟩
  | release released =>
    refine ⟨?_, ?_, ?_, wellMade_cons trivial hwellMade⟩
    · intro template
      exact (r.store.release_contextFor template released).trans (hsubmission template)
    · intro handle hhandle
      simp only [step, AsicJobStore.snapshot_release, retained, storedTemplate, retires,
        decide_eq_true_eq, hsnapshot handle hhandle]
    · exact (r.store.release_nextGeneration released).trans hgeneration
  | invalidateAll =>
    refine ⟨hsubmission, ?_, ?_, wellMade_cons trivial hwellMade⟩
    · intro handle _
      simp [step, retained, storedTemplate, retires]
    · simp only [step, AsicJobStore.invalidateAll_nextGeneration, hgeneration, generationSteps,
        List.countP_cons_of_pos, Function.iterate_succ_apply']
  | snapshotWithContext handle => exact ⟨hsubmission, hsnapshot, hgeneration, hwellMade⟩

theorem run_agrees (ops : List AsicJobStoreOp) : (run step start ops).Agrees :=
  run_invariant (P := Agrees) step (fun _ op h => step_agrees h op) start_agrees ops

/-! ## Generated handles -/

/-- A generated handle of the history, with the counter step it was made at. -/
theorem Agrees.mem_generatedHandles {r : AsicJobStoreRun} (h : r.Agrees)
    (newer older : AsicJobStoreHistory) (hsplit : r.history = newer ++ older)
    {handle : AsicWorkHandle} (hmem : handle ∈ generatedHandles older) :
    ∃ n < generationSteps older, ∃ slot,
      handle = generatedHandle (NonzeroCounter.next^[n] NonzeroCounter.one).val slot := by
  induction older generalizing newer with
  | nil => simp [generatedHandles] at hmem
  | cons event older ih =>
    have hrest : handle ∈ generatedHandles older →
        ∃ n < generationSteps (event :: older), ∃ slot,
          handle = generatedHandle (NonzeroCounter.next^[n] NonzeroCounter.one).val slot := by
      intro hold
      obtain ⟨n, hn, slot, heq⟩ := ih (newer ++ [event]) (by simpa using hsplit) hold
      exact ⟨n, Nat.lt_of_lt_of_le hn (by simp [generationSteps, List.countP_cons]), slot, heq⟩
    cases event with
    | generatedStored stored template =>
      simp only [generatedHandles, List.filterMap_cons, List.mem_cons] at hmem
      rcases hmem with rfl | hold
      · obtain ⟨slot, heq⟩ := h.wellMade newer _ older hsplit
        exact ⟨generationSteps older, by simp [generationSteps], slot, heq⟩
      · exact hrest hold
    | submissionBegun => exact hrest hmem
    | submissionEnded => exact hrest hmem
    | slotStored => exact hrest hmem
    | released => exact hrest hmem
    | invalidated => exact hrest hmem

theorem Agrees.nodup_generatedHandles {r : AsicJobStoreRun} (h : r.Agrees)
    (newer older : AsicJobStoreHistory) (hsplit : r.history = newer ++ older)
    (hbound : generationSteps older < 2 ^ 56 - 1) : (generatedHandles older).Nodup := by
  induction older generalizing newer with
  | nil => exact List.nodup_nil
  | cons event older ih =>
    have hle : generationSteps older ≤ generationSteps (event :: older) := by
      simp [generationSteps, List.countP_cons]
    have hrest := ih (newer ++ [event]) (by simpa using hsplit) (by omega)
    cases event with
    | generatedStored stored template =>
      refine List.nodup_cons.mpr ⟨?_, hrest⟩
      intro hold
      -- the older handle was made at an earlier counter step
      obtain ⟨slot, hnew⟩ := h.wellMade newer _ older hsplit
      obtain ⟨n, hn, slot', hprev⟩ :=
        h.mem_generatedHandles (newer ++ [.generatedStored stored template]) older
          (by simpa using hsplit) hold
      have h1 := toNat_nthHandle (n := generationSteps older) (by omega) slot
      have h2 := toNat_nthHandle (n := n) (by omega) slot'
      rw [← hnew] at h1
      rw [← hprev] at h2
      have := slot.isLt
      have := slot'.isLt
      omega
    | submissionBegun => exact hrest
    | submissionEnded => exact hrest
    | slotStored => exact hrest
    | released => exact hrest
    | invalidated => exact hrest

/-- While the counter stays below its last 56-bit value, a generated handle is
neither a slot handle nor the invalid one. -/
theorem Agrees.generatedHandle_range {r : AsicJobStoreRun} (h : r.Agrees)
    (hbound : generationSteps r.history < 2 ^ 56 - 1) {handle : AsicWorkHandle}
    (hmem : handle ∈ generatedHandles r.history) :
    256 ≤ handle.toNat ∧ handle.toNat < 2 ^ 64 - 1 := by
  obtain ⟨n, hn, slot, rfl⟩ := h.mem_generatedHandles [] r.history rfl hmem
  have hval := toNat_nthHandle (n := n) (by omega) slot
  have := slot.isLt
  omega

/-- The invalid handle is never retained below the bound. -/
theorem Agrees.not_retains_invalid {r : AsicJobStoreRun} (h : r.Agrees)
    (hbound : generationSteps r.history < 2 ^ 56 - 1) {job : AsicJob}
    {context : AsicJobContext} :
    ¬ Retains r.history ASIC_WORK_HANDLE_INVALID job context := by
  rintro ⟨newer, event, older, template, hsplit, hstored, -, -, -⟩
  have hmade := h.wellMade newer event older hsplit
  cases event with
  | slotStored handle stored =>
    obtain ⟨slot, rfl⟩ := hmade
    simp only [storedTemplate, Option.ite_none_right_eq_some] at hstored
    have hval := congrArg BitVec.toNat hstored.1
    have := slot.isLt
    simp only [ASIC_WORK_HANDLE_INVALID, BitVec.toNat_setWidth, BitVec.toNat_ofNat] at hval
    omega
  | generatedStored handle stored =>
    simp only [storedTemplate, Option.ite_none_right_eq_some] at hstored
    have hmem : handle ∈ generatedHandles r.history := by
      rw [hsplit]
      simp [generatedHandles]
    have hrange := h.generatedHandle_range hbound hmem
    rw [hstored.1] at hrange
    simp [ASIC_WORK_HANDLE_INVALID] at hrange
  | submissionBegun => cases hstored
  | submissionEnded => cases hstored
  | released => cases hstored
  | invalidated => cases hstored

theorem Agrees.snapshot_eq_some_iff {r : AsicJobStoreRun} (h : r.Agrees)
    (hbound : generationSteps r.history < 2 ^ 56 - 1) {handle : AsicWorkHandle} {job : AsicJob}
    {context : AsicJobContext} :
    r.store.snapshotWithContext handle = some (job, context) ↔
      Retains r.history handle job context := by
  by_cases hinvalid : handle = ASIC_WORK_HANDLE_INVALID
  · subst hinvalid
    simp [AsicJobStore.snapshotWithContext, h.not_retains_invalid hbound]
  · rw [h.snapshot handle hinvalid, retained_eq_some_iff]

/-- **Retained jobs and handles.**  With fewer than `2 ^ 56 - 1` generated stores
and invalidations together, generated handles never repeat and never equal a
slot handle; a snapshot finds exactly what its history retains; and releasing
a handle that is not retained changes nothing. -/
theorem handles_name_their_store (ops : List AsicJobStoreOp)
    (hbound : generationSteps (run step start ops).history < 2 ^ 56 - 1) :
    (generatedHandles (run step start ops).history).Nodup ∧
    (∀ handle ∈ generatedHandles (run step start ops).history,
      ∀ slot : U8, handle ≠ slot.setWidth 64) ∧
    (∀ handle job context,
      (run step start ops).store.snapshotWithContext handle = some (job, context) ↔
        Retains (run step start ops).history handle job context) ∧
    (∀ handle, (∀ job context, ¬ Retains (run step start ops).history handle job context) →
      ((run step start ops).store.release handle).2 = (run step start ops).store) := by
  have h := run_agrees ops
  refine ⟨h.nodup_generatedHandles [] _ rfl hbound, ?_,
    fun handle job context => h.snapshot_eq_some_iff hbound, ?_⟩
  · intro handle hmem slot heq
    have hrange := h.generatedHandle_range hbound hmem
    have := slot.isLt
    rw [heq, BitVec.toNat_setWidth] at hrange
    omega
  · intro handle hdead
    have hnone : (run step start ops).store.snapshotWithContext handle = none := by
      rw [Option.eq_none_iff_forall_ne_some]
      intro found hfound
      exact hdead found.1 found.2 ((h.snapshot_eq_some_iff hbound).mp hfound)
    rw [AsicJobStore.release_of_snapshot_eq_none _ hnone]

/-- A store, an invalidation and a second store stay below the bound. -/
theorem handles_name_their_store_of_three :
    let ops := [AsicJobStoreOp.storeGenerated ⟨0, AsicJob.zero⟩, .invalidateAll,
      .storeGenerated ⟨0, AsicJob.zero⟩]
    generationSteps (run step start ops).history < 2 ^ 56 - 1 ∧
      (generatedHandles (run step start ops).history).Nodup := by
  have hbound : generationSteps (run step start [.storeGenerated ⟨0, AsicJob.zero⟩,
      .invalidateAll, .storeGenerated ⟨0, AsicJob.zero⟩]).history < 2 ^ 56 - 1 := by
    simp [step, start, generationSteps]
  exact ⟨hbound, (handles_name_their_store _ hbound).1⟩

/-! ## Invalidations alone bring a handle back -/

/-- `n` invalidations step the generation `n` times and store nothing. -/
theorem run_replicate_invalidateAll (r : AsicJobStoreRun) (n : Nat) :
    (run step r (List.replicate n .invalidateAll)).store.nextGeneration =
      NonzeroCounter.next^[n] r.store.nextGeneration ∧
    (run step r (List.replicate n .invalidateAll)).history =
      List.replicate n .invalidated ++ r.history := by
  induction n generalizing r with
  | zero => exact ⟨rfl, rfl⟩
  | succ n ih =>
    obtain ⟨hgeneration, hhistory⟩ := ih (r.step .invalidateAll)
    rw [List.replicate_succ, run_cons]
    refine ⟨hgeneration, hhistory.trans ?_⟩
    rw [List.replicate_succ', List.append_assoc]
    rfl

theorem run_replicate_invalidateAll_nextSlot (r : AsicJobStoreRun) (n : Nat) :
    (run step r (List.replicate (n + 1) .invalidateAll)).store.nextSlot = 0 := by
  rw [List.replicate_succ', run_append]
  rfl

/-- One stored job, `n + 1` invalidations and a second stored job. -/
def reusingOps (n : Nat) : List AsicJobStoreOp :=
  .storeGenerated ⟨0, AsicJob.zero⟩ ::
    (List.replicate (n + 1) .invalidateAll ++ [.storeGenerated ⟨0, AsicJob.zero⟩])

theorem generatedHandles_replicate_invalidated (n : Nat) (history : AsicJobStoreHistory) :
    generatedHandles (List.replicate n .invalidated ++ history) = generatedHandles history := by
  induction n with
  | zero => rfl
  | succ n ih => exact ih

theorem generatedHandles_step_storeGenerated (r : AsicJobStoreRun) (template : JobRef) :
    generatedHandles (r.step (.storeGenerated template)).history =
      generatedHandle r.store.nextGeneration.val r.store.generatedSlot ::
        generatedHandles r.history := rfl

theorem generatedHandles_reusingOps (n : Nat) :
    generatedHandles (run step start (reusingOps n)).history =
      [generatedHandle (NonzeroCounter.next^[n + 2] NonzeroCounter.one).val 0,
        generatedHandle NonzeroCounter.one.val 0] := by
  obtain ⟨hgeneration, hhistory⟩ := run_replicate_invalidateAll
    (step start (.storeGenerated ⟨0, AsicJob.zero⟩)) (n + 1)
  have hslot := run_replicate_invalidateAll_nextSlot
    (step start (.storeGenerated ⟨0, AsicJob.zero⟩)) n
  rw [reusingOps, run_cons, run_append, run_cons, run_nil, generatedHandles_step_storeGenerated,
    hgeneration, hhistory, generatedHandles_replicate_invalidated, AsicJobStore.generatedSlot,
    hslot]
  rfl

/-- Only two generated stores, yet the second returns the first one's handle. -/
theorem generated_handle_returns :
    (generatedHandles (run step start (reusingOps (2 ^ 56 - 2))).history).length < 2 ^ 56 ∧
      ¬ (generatedHandles (run step start (reusingOps (2 ^ 56 - 2))).history).Nodup := by
  have hsame : generatedHandle (NonzeroCounter.next^[2 ^ 56 - 2 + 2] NonzeroCounter.one).val 0 =
      generatedHandle NonzeroCounter.one.val 0 := by
    apply BitVec.eq_of_toNat_eq
    rw [toNat_generatedHandle, toNat_generatedHandle, NonzeroCounter.toNat_eq,
      NonzeroCounter.toNat_eq, NonzeroCounter.ordinal_iterate_next, NonzeroCounter.ordinal_one]
    decide
  rw [generatedHandles_reusingOps, hsame]
  refine ⟨by simp, by simp⟩

end AsicJobStoreRun

end EspMiner
