import EspMiner.Asic.Job
import EspMiner.Library.NonzeroCounter

/-!
# The ASIC job store

`components/asic/asic_job_store.c`: 256 retained jobs addressed by work handles.
Slot handles are the slot number itself; generated handles carry a generation
above the slot byte.  The store is initialised with all 256 entries, so a slot
byte always names an entry and the `slot >= capacity` tests never fire.
-/

namespace EspMiner

open Library

/-- `asic_work_handle_t` -/
abbrev AsicWorkHandle := U64

/-- `ASIC_WORK_HANDLE_INVALID` -/
def ASIC_WORK_HANDLE_INVALID : AsicWorkHandle := 0xffffffffffffffff#64

def ASIC_JOB_STORE_CAPACITY : Nat := 256

/-- `(generation << 8) | slot` -/
def generatedHandle (generation : U64) (slot : U8) : AsicWorkHandle :=
  (generation <<< 8) ||| slot.setWidth 64

/-- `(uint8_t)(handle & 0xff)` -/
def handleSlot (handle : AsicWorkHandle) : U8 := (handle &&& 0xff#64).setWidth 8

/-- `asic_job_store_entry_t` -/
structure AsicJobStoreEntry where
  valid : Bool
  handle : AsicWorkHandle
  template : AsicJob
  context : AsicJobContext
deriving DecidableEq

/-- What `clear_entry` leaves. -/
def AsicJobStoreEntry.zero : AsicJobStoreEntry := ⟨false, 0, AsicJob.zero, AsicJobContext.zero⟩

/-- `asic_job_store_t`, without its two locks.  `next_generation` is stepped by
`if (++next_generation == 0) next_generation = 1` only. -/
@[ext] structure AsicJobStore where
  submissionJob : Option Nat
  submissionContext : AsicJobContext
  entries : U8 → AsicJobStoreEntry
  nextSlot : U16
  nextGeneration : NonzeroCounter 64

namespace AsicJobStore

/-- The store that a successful `asic_job_store_init_with_caps` leaves. -/
def empty : AsicJobStore where
  submissionJob := none
  submissionContext := AsicJobContext.zero
  entries := fun _ => AsicJobStoreEntry.zero
  nextSlot := 0
  nextGeneration := NonzeroCounter.one

/-- `asic_job_store_begin_submission` -/
def beginSubmission (store : AsicJobStore) (job : JobRef) (context : AsicJobContext) :
    AsicJobStore :=
  { store with submissionJob := some job.address, submissionContext := context }

/-- `asic_job_store_end_submission` -/
def endSubmission (store : AsicJobStore) : AsicJobStore :=
  { store with submissionJob := none, submissionContext := AsicJobContext.zero }

/-- The context that a store or a query reads for `job`: the bound one when
`submission_job == job`, else the default. -/
def contextFor (store : AsicJobStore) (job : JobRef) : AsicJobContext :=
  if store.submissionJob = some job.address then store.submissionContext
  else AsicJobContext.ofVersion job.job.version

/-- `asic_job_store_submission_context` -/
def submissionContextOf (store : AsicJobStore) (job : JobRef) : Bool × AsicJobContext :=
  (decide (store.submissionJob = some job.address), store.contextFor job)

/-- `store_entry` -/
def storeEntry (store : AsicJobStore) (slot : U8) (handle : AsicWorkHandle)
    (template : JobRef) : AsicJobStore :=
  { store with
    entries := Function.update store.entries slot
      ⟨true, handle, template.job, store.contextFor template⟩ }

/-- `asic_job_store_store_slot`: the handle is the slot itself. -/
def storeSlot (store : AsicJobStore) (slot : U8) (template : JobRef) :
    AsicWorkHandle × AsicJobStore :=
  (slot.setWidth 64, store.storeEntry slot (slot.setWidth 64) template)

/-- `(uint8_t)(next_slot % capacity)` -/
def generatedSlot (store : AsicJobStore) : U8 :=
  (store.nextSlot % BitVec.ofNat 16 ASIC_JOB_STORE_CAPACITY).setWidth 8

/-- `asic_job_store_store_generated` -/
def storeGenerated (store : AsicJobStore) (template : JobRef) :
    AsicWorkHandle × AsicJobStore :=
  let slot := store.generatedSlot
  let handle := generatedHandle store.nextGeneration.val slot
  let store := { store with
    nextSlot := store.nextSlot + 1
    nextGeneration := store.nextGeneration.next }
  (handle, store.storeEntry slot handle template)

/-- `asic_job_store_contains` -/
def contains (store : AsicJobStore) (handle : AsicWorkHandle) : Bool :=
  if handle = ASIC_WORK_HANDLE_INVALID then false
  else
    let entry := store.entries (handleSlot handle)
    entry.valid && decide (entry.handle = handle)

/-- `asic_job_store_snapshot_with_context` -/
def snapshotWithContext (store : AsicJobStore) (handle : AsicWorkHandle) :
    Option (AsicJob × AsicJobContext) :=
  if handle = ASIC_WORK_HANDLE_INVALID then none
  else
    let entry := store.entries (handleSlot handle)
    if entry.valid && decide (entry.handle = handle) then
      some (entry.template, entry.context)
    else none

/-- `asic_job_store_release` -/
def release (store : AsicJobStore) (handle : AsicWorkHandle) : Bool × AsicJobStore :=
  if handle = ASIC_WORK_HANDLE_INVALID then (false, store)
  else
    let entry := store.entries (handleSlot handle)
    if entry.valid && decide (entry.handle = handle) then
      (true, { store with
        entries := Function.update store.entries (handleSlot handle) AsicJobStoreEntry.zero })
    else (false, store)

/-- `asic_job_store_invalidate_all` -/
def invalidateAll (store : AsicJobStore) : AsicJobStore :=
  { store with
    entries := fun _ => AsicJobStoreEntry.zero
    nextSlot := 0
    nextGeneration := store.nextGeneration.next }

/-! ### What the updates leave alone -/

section Fields

variable (store : AsicJobStore) (template other : JobRef) (handle : AsicWorkHandle)

/-- A release touches the entries only. -/
theorem release_snd_eq :
    ∃ entries, (store.release handle).2 = { store with entries := entries } := by
  unfold release
  split
  · exact ⟨store.entries, rfl⟩
  · simp only
    split
    · exact ⟨_, rfl⟩
    · exact ⟨store.entries, rfl⟩

@[simp] theorem release_contextFor :
    (store.release handle).2.contextFor template = store.contextFor template := by
  obtain ⟨entries, h⟩ := store.release_snd_eq handle
  rw [h]
  rfl

@[simp] theorem release_nextSlot : (store.release handle).2.nextSlot = store.nextSlot := by
  obtain ⟨entries, h⟩ := store.release_snd_eq handle
  rw [h]

@[simp] theorem release_nextGeneration :
    (store.release handle).2.nextGeneration = store.nextGeneration := by
  obtain ⟨entries, h⟩ := store.release_snd_eq handle
  rw [h]

@[simp] theorem storeGenerated_fst :
    (store.storeGenerated template).1 =
      generatedHandle store.nextGeneration.val store.generatedSlot := rfl

@[simp] theorem storeGenerated_contextFor :
    (store.storeGenerated template).2.contextFor other = store.contextFor other := rfl

@[simp] theorem storeGenerated_nextSlot :
    (store.storeGenerated template).2.nextSlot = store.nextSlot + 1 := rfl

@[simp] theorem storeGenerated_nextGeneration :
    (store.storeGenerated template).2.nextGeneration = store.nextGeneration.next := rfl

@[simp] theorem storeGenerated_entries :
    (store.storeGenerated template).2.entries =
      Function.update store.entries store.generatedSlot
        ⟨true, generatedHandle store.nextGeneration.val store.generatedSlot, template.job,
          store.contextFor template⟩ := rfl

@[simp] theorem invalidateAll_contextFor :
    store.invalidateAll.contextFor template = store.contextFor template := rfl

@[simp] theorem invalidateAll_nextSlot : store.invalidateAll.nextSlot = 0 := rfl

@[simp] theorem invalidateAll_nextGeneration :
    store.invalidateAll.nextGeneration = store.nextGeneration.next := rfl

@[simp] theorem invalidateAll_entries (slot : U8) :
    store.invalidateAll.entries slot = AsicJobStoreEntry.zero := rfl

end Fields

end AsicJobStore

end EspMiner
