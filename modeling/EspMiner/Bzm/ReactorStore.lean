import EspMiner.Asic.JobStoreHandles
import EspMiner.Bzm.ReactorLedger

/-!
# The reactor's job store

What the store holds under a ledger handle was stored by a ledger assignment
that no invalidation has passed over.  Handles keep 56 bits of the generation
counter, so two assignments may share one; the epoch and the bounded number of
stores between two flushes tell them apart.
-/

namespace EspMiner

open Library

/-! ### Handles of distant counter steps -/

theorem generatedHandle_eq_iff {generation generation' : NonzeroCounter 64} {slot slot' : U8} :
    generatedHandle generation.val slot = generatedHandle generation'.val slot' ↔
      (generation.ordinal + 1) % 2 ^ 56 = (generation'.ordinal + 1) % 2 ^ 56 ∧ slot = slot' := by
  have hslot := slot.isLt
  have hslot' := slot'.isLt
  rw [← BitVec.toNat_inj, toNat_generatedHandle, toNat_generatedHandle, NonzeroCounter.toNat_eq,
    NonzeroCounter.toNat_eq, ← BitVec.toNat_inj]
  constructor
  · intro h
    constructor <;> omega
  · rintro ⟨h, h'⟩
    rw [h, h']

/-- Fewer than `2 ^ 56 - 1` counter steps change the handle. -/
theorem generatedHandle_ne_of_steps {generation : NonzeroCounter 64} {steps : Nat}
    (hpos : 0 < steps) (hlt : steps < 2 ^ 56 - 1) (slot slot' : U8) :
    generatedHandle generation.val slot ≠
      generatedHandle (NonzeroCounter.next^[steps] generation).val slot' := by
  intro h
  have hmod := (generatedHandle_eq_iff.mp h).1
  have hordinal := generation.ordinal_lt
  rw [NonzeroCounter.ordinal_iterate_next] at hmod
  rcases Nat.lt_or_ge (generation.ordinal + steps) (2 ^ 64 - 1) with hwrap | hwrap
  · rw [Nat.mod_eq_of_lt hwrap] at hmod
    omega
  · rw [Nat.mod_eq_sub_mod hwrap, Nat.mod_eq_of_lt (by omega)] at hmod
    omega

/-- Two counters that take turns with a shared 32-bit counter: a common handle
and a common epoch leave no room for a small difference in stores. -/
theorem stores_eq_of_handle_eq {start : NonzeroCounter 64} {storesE storesF epochE epochF : Nat}
    {slot slot' : U8}
    (hhandle : generatedHandle (NonzeroCounter.next^[storesE + epochE] start).val slot =
      generatedHandle (NonzeroCounter.next^[storesF + epochF] start).val slot')
    (hepoch : NonzeroCounter.next^[epochE] (NonzeroCounter.one : NonzeroCounter 32) =
      NonzeroCounter.next^[epochF] NonzeroCounter.one)
    (hle : storesE ≤ storesF) (hlt : storesF < storesE + (2 ^ 24 - 1)) : storesE = storesF := by
  have hmod := (generatedHandle_eq_iff.mp hhandle).1
  have hround : epochE % (2 ^ 32 - 1) = epochF % (2 ^ 32 - 1) := by
    have := congrArg NonzeroCounter.ordinal hepoch
    simpa [NonzeroCounter.ordinal_iterate_next] using this
  rw [NonzeroCounter.ordinal_iterate_next, NonzeroCounter.ordinal_iterate_next] at hmod
  have hE := Nat.div_add_mod (start.ordinal + (storesE + epochE)) (2 ^ 64 - 1)
  have hF := Nat.div_add_mod (start.ordinal + (storesF + epochF)) (2 ^ 64 - 1)
  have hltE := Nat.mod_lt (start.ordinal + (storesE + epochE)) (show 0 < 2 ^ 64 - 1 by decide)
  have hltF := Nat.mod_lt (start.ordinal + (storesF + epochF)) (show 0 < 2 ^ 64 - 1 by decide)
  generalize (start.ordinal + (storesE + epochE)) % (2 ^ 64 - 1) = x at hmod hE hltE
  generalize (start.ordinal + (storesE + epochE)) / (2 ^ 64 - 1) = qx at hE
  generalize (start.ordinal + (storesF + epochF)) % (2 ^ 64 - 1) = y at hmod hF hltF
  generalize (start.ordinal + (storesF + epochF)) / (2 ^ 64 - 1) = qy at hF
  -- the generations differ by `u` times `2 ^ 56`, which is `2 ^ 24 * u` modulo `2 ^ 32 - 1`
  obtain ⟨u, hu⟩ : ∃ u : Int, (y : Int) - x = 2 ^ 56 * u :=
    ⟨((y + 1) / 2 ^ 56 : Nat) - ((x + 1) / 2 ^ 56 : Nat), by omega⟩
  obtain ⟨t, ht⟩ : ∃ t : Int, (storesF : Int) - storesE = 2 ^ 24 * u + (2 ^ 32 - 1) * t :=
    ⟨(2 ^ 32 + 1) * (qy - qx) + 2 ^ 24 * u - ((epochF / (2 ^ 32 - 1) : Nat) -
      (epochE / (2 ^ 32 - 1) : Nat)), by omega⟩
  rcases Int.lt_trichotomy u 0 with hu0 | hu0 | hu0 <;>
    rcases Int.lt_trichotomy t 0 with ht0 | ht0 | ht0 <;> omega

/-- Only slot 255 can carry the all-ones handle. -/
theorem slot_of_invalid {generation : U64} {slot : U8}
    (h : generatedHandle generation slot = ASIC_WORK_HANDLE_INVALID) : slot.toNat = 255 := by
  have hvalue := congrArg BitVec.toNat h
  have := slot.isLt
  rw [toNat_generatedHandle] at hvalue
  simp only [ASIC_WORK_HANDLE_INVALID, BitVec.toNat_ofNat] at hvalue
  omega

namespace AsicJobStore

theorem toNat_generatedSlot (store : AsicJobStore) :
    store.generatedSlot.toNat = store.nextSlot.toNat % 256 := by
  have hcapacity : (BitVec.ofNat 16 ASIC_JOB_STORE_CAPACITY).toNat = 256 := rfl
  rw [generatedSlot, BitVec.toNat_setWidth, BitVec.toNat_umod, hcapacity]
  omega

theorem nextSlot_storeGenerated (store : AsicJobStore) (template : JobRef) :
    (store.storeGenerated template).2.nextSlot.toNat % 256 = (store.nextSlot.toNat + 1) % 256 := by
  have hone : (1 : U16).toNat = 1 := rfl
  rw [storeGenerated_nextSlot, BitVec.toNat_add, hone]
  omega

/-- A release leaves a valid entry as it was, or clears it. -/
theorem release_entry (store : AsicJobStore) (handle : AsicWorkHandle) (slot : U8) :
    (store.release handle).2.entries slot = store.entries slot ∨
      (handle = (store.entries slot).handle ∧ handleSlot handle = slot ∧
        (store.release handle).2.entries slot = AsicJobStoreEntry.zero) := by
  unfold release
  split
  · exact .inl rfl
  · simp only
    split
    · next hlive =>
      by_cases hslot : handleSlot handle = slot
      · subst hslot
        simp only [Bool.and_eq_true, decide_eq_true_eq] at hlive
        exact .inr ⟨hlive.2.symm, rfl, Function.update_self ..⟩
      · exact .inl (Function.update_of_ne (fun h => hslot h.symm) ..)
    · exact .inl rfl

end AsicJobStore

namespace BzmLedgerEntry

def handle (entry : BzmLedgerEntry) : AsicWorkHandle := entry.record.work.source.handle

/-- The handle and the epoch of an assignment belong to its stamps; `start` is
the generation that the reactor found at its initialisation. -/
structure Stamped (start : NonzeroCounter 64) (entry : BzmLedgerEntry) : Prop where
  epoch_eq : entry.record.epoch = NonzeroCounter.next^[entry.invalidations] NonzeroCounter.one
  stores_pos : 0 < entry.stores
  handle_eq : entry.handle = generatedHandle
    (NonzeroCounter.next^[entry.stores - 1 + entry.invalidations] start).val
    (handleSlot entry.handle)
  handle_ne : entry.handle ≠ ASIC_WORK_HANDLE_INVALID

end BzmLedgerEntry

/-- The store after `stores` stores and `invalidated` invalidations, `flushed` of
which came before the last completed flush, against the ledger since then. -/
structure Holds (start : NonzeroCounter 64) (store : AsicJobStore) (entries : List BzmLedgerEntry)
    (stores invalidated flushed : Nat) : Prop where
  stamped : ∀ entry ∈ entries, entry.Stamped start
  ordered : entries.Pairwise fun newer older =>
    older.stores < newer.stores ∧ older.invalidations ≤ newer.invalidations
  recent : ∀ entry ∈ entries, entry.invalidations ≤ invalidated ∧
    flushed < entry.stores + entry.invalidations
  flushed_le : flushed ≤ stores + invalidated
  /-- Of 256 consecutive stores at most one is lost to the all-ones handle. -/
  spread : ∀ i entry, entries[i]? = some entry → entry.stores + i ≤ stores ∧
    255 * stores + store.nextSlot.toNat % 256 ≤ 255 * entry.stores + 256 * i + 255
  slots : ∀ entry ∈ entries, entry.invalidations = invalidated →
    ((handleSlot entry.handle).toNat + (stores - entry.stores) + 1) % 256 =
      store.nextSlot.toNat % 256
  held : ∀ entry ∈ entries, (store.entries (handleSlot entry.handle)).valid = true →
    (store.entries (handleSlot entry.handle)).handle = ASIC_WORK_HANDLE_INVALID ∨
    ∃ owner ∈ entries, owner.invalidations = invalidated ∧
      (store.entries (handleSlot entry.handle)).handle = owner.handle ∧
      (store.entries (handleSlot entry.handle)).template = owner.record.work.source.template.job ∧
      (store.entries (handleSlot entry.handle)).context = owner.record.context

/-- The jobs of the last `rounds` turns that no invalidation has passed over are
still in the store. -/
def Kept (rounds : Nat) (store : AsicJobStore) (entries : List BzmLedgerEntry)
    (invalidated : Nat) : Prop :=
  ∀ i entry, entries[i]? = some entry → i < rounds → entry.invalidations = invalidated →
    (store.entries (handleSlot entry.handle)).valid = true ∧
      (store.entries (handleSlot entry.handle)).handle = entry.handle

namespace Holds

variable {start : NonzeroCounter 64} {store : AsicJobStore} {entries : List BzmLedgerEntry}
  {stores invalidated flushed : Nat}

theorem fresh (start : NonzeroCounter 64) (store : AsicJobStore) {stores invalidated flushed : Nat}
    (h : flushed ≤ stores + invalidated) : Holds start store [] stores invalidated flushed where
  stamped entry hmem := by cases hmem
  ordered := List.Pairwise.nil
  recent entry hmem := by cases hmem
  flushed_le := h
  spread i entry hi := by simp at hi
  slots entry hmem := by cases hmem
  held entry hmem := by cases hmem

variable (h : Holds start store entries stores invalidated flushed)

include h

/-- A release can only empty entries. -/
theorem release (handle : AsicWorkHandle) :
    Holds start (store.release handle).2 entries stores invalidated flushed where
  stamped := h.stamped
  ordered := h.ordered
  recent := h.recent
  flushed_le := h.flushed_le
  spread := by simpa using h.spread
  slots := by simpa using h.slots
  held entry hmem hvalid := by
    rcases store.release_entry handle (handleSlot entry.handle) with heq | ⟨-, -, heq⟩
    · rw [heq] at hvalid ⊢
      exact h.held entry hmem hvalid
    · rw [heq] at hvalid
      cases hvalid

theorem invalidateAll :
    Holds start store.invalidateAll entries stores (invalidated + 1) flushed where
  stamped := h.stamped
  ordered := h.ordered
  recent entry hmem := by
    have := h.recent entry hmem
    omega
  flushed_le := by
    have := h.flushed_le
    omega
  spread i entry hi := by
    have := h.spread i entry hi
    have hzero : (0 : U16).toNat = 0 := rfl
    rw [AsicJobStore.invalidateAll_nextSlot, hzero]
    omega
  slots entry hmem hnow := by
    have := h.recent entry hmem
    omega
  held entry hmem hvalid := by
    simp [AsicJobStoreEntry.zero] at hvalid

/-- The submission scope is no part of the comparison. -/
theorem congr {other : AsicJobStore} (hentries : other.entries = store.entries)
    (hslot : other.nextSlot = store.nextSlot) :
    Holds start other entries stores invalidated flushed where
  stamped := h.stamped
  ordered := h.ordered
  recent := h.recent
  flushed_le := h.flushed_le
  spread := by rw [hslot]; exact h.spread
  slots := by rw [hslot]; exact h.slots
  held := by rw [hentries]; exact h.held

section Store

variable (template : JobRef)

theorem spread_store {i lost : Nat} {entry : BzmLedgerEntry} (hi : entries[i]? = some entry)
    (hlost : lost = 1 ∨ store.nextSlot.toNat % 256 = 255 ∧ lost = 0) :
    entry.stores + (i + lost) ≤ stores + 1 ∧
      255 * (stores + 1) + (store.storeGenerated template).2.nextSlot.toNat % 256 ≤
        255 * entry.stores + 256 * (i + lost) + 255 := by
  have := h.spread i entry hi
  rw [AsicJobStore.nextSlot_storeGenerated]
  rcases hlost with rfl | ⟨hslot, rfl⟩ <;> omega

theorem slots_store {entry : BzmLedgerEntry} (hmem : entry ∈ entries)
    (hnow : entry.invalidations = invalidated) :
    ((handleSlot entry.handle).toNat + (stores + 1 - entry.stores) + 1) % 256 =
      (store.storeGenerated template).2.nextSlot.toNat % 256 := by
  obtain ⟨i, hi⟩ := List.mem_iff_getElem?.mp hmem
  have hle := (h.spread i entry hi).1
  have := h.slots entry hmem hnow
  rw [AsicJobStore.nextSlot_storeGenerated]
  omega

/-- A store that returns the all-ones handle leaves the ledger alone. -/
theorem storeGenerated_lost
    (hinvalid : generatedHandle store.nextGeneration.val store.generatedSlot =
      ASIC_WORK_HANDLE_INVALID) :
    Holds start (store.storeGenerated template).2 entries (stores + 1) invalidated flushed where
  stamped := h.stamped
  ordered := h.ordered
  recent := h.recent
  flushed_le := by
    have := h.flushed_le
    omega
  spread i entry hi := by
    have hslot : store.nextSlot.toNat % 256 = 255 := by
      rw [← AsicJobStore.toNat_generatedSlot]
      exact slot_of_invalid hinvalid
    simpa using h.spread_store template hi (.inr ⟨hslot, rfl⟩)
  slots entry hmem hnow := h.slots_store template hmem hnow
  held entry hmem hvalid := by
    rw [AsicJobStore.storeGenerated_entries] at hvalid ⊢
    by_cases hslot : handleSlot entry.handle = store.generatedSlot
    · rw [hslot, Function.update_self]
      exact .inl hinvalid
    · rw [Function.update_of_ne hslot] at hvalid ⊢
      exact h.held entry hmem hvalid

/-- A stored job becomes the newest ledger entry. -/
theorem storeGenerated_assigned
    (hgeneration : store.nextGeneration = NonzeroCounter.next^[stores + invalidated] start)
    {record : BzmAssigned}
    (hsource : record.work.source =
      ⟨generatedHandle store.nextGeneration.val store.generatedSlot, template⟩)
    (hhandle : record.work.source.handle ≠ ASIC_WORK_HANDLE_INVALID)
    (hcontext : record.context = store.contextFor template)
    (hepoch : record.epoch = NonzeroCounter.next^[invalidated] NonzeroCounter.one) :
    Holds start (store.storeGenerated template).2 (⟨record, stores + 1, invalidated⟩ :: entries)
      (stores + 1) invalidated flushed := by
  have hslot : handleSlot record.work.source.handle = store.generatedSlot := by
    rw [hsource, handleSlot_generatedHandle]
  have hflushed := h.flushed_le
  constructor
  · intro entry hmem
    rcases List.mem_cons.mp hmem with rfl | hold
    · refine ⟨hepoch, Nat.succ_pos _, ?_, hhandle⟩
      show record.work.source.handle = generatedHandle
        (NonzeroCounter.next^[stores + 1 - 1 + invalidated] start).val
        (handleSlot record.work.source.handle)
      rw [Nat.add_sub_cancel, ← hgeneration, hslot, hsource]
    · exact h.stamped entry hold
  · refine List.pairwise_cons.mpr ⟨?_, h.ordered⟩
    intro older hold
    obtain ⟨i, hi⟩ := List.mem_iff_getElem?.mp hold
    have hspread := (h.spread i older hi).1
    have hrecent := (h.recent older hold).1
    exact ⟨by simp only; omega, hrecent⟩
  · intro entry hmem
    rcases List.mem_cons.mp hmem with rfl | hold
    · exact ⟨Nat.le_refl _, by simp only; omega⟩
    · exact h.recent entry hold
  · omega
  · intro i entry hi
    cases i with
    | zero =>
      obtain rfl := Option.some.inj hi
      have := Nat.mod_lt (store.storeGenerated template).2.nextSlot.toNat (show 0 < 256 by decide)
      simp only
      omega
    | succ i => exact h.spread_store template hi (.inl rfl)
  · intro entry hmem hnow
    rcases List.mem_cons.mp hmem with rfl | hold
    · show ((handleSlot record.work.source.handle).toNat + (stores + 1 - (stores + 1)) + 1) % 256 =
        (store.storeGenerated template).2.nextSlot.toNat % 256
      rw [hslot, AsicJobStore.toNat_generatedSlot, AsicJobStore.nextSlot_storeGenerated]
      omega
    · exact h.slots_store template hold hnow
  · intro entry hmem hvalid
    rw [AsicJobStore.storeGenerated_entries] at hvalid ⊢
    by_cases hsame : handleSlot entry.handle = store.generatedSlot
    · rw [hsame, Function.update_self]
      refine .inr ⟨_, List.mem_cons_self, rfl, ?_, ?_, hcontext.symm⟩
      · show _ = record.work.source.handle
        rw [hsource]
      · simp only [hsource]
    · rw [Function.update_of_ne hsame] at hvalid ⊢
      rcases List.mem_cons.mp hmem with rfl | hold
      · exact absurd hslot hsame
      · rcases h.held entry hold hvalid with hheld | ⟨owner, howner, hheld⟩
        · exact .inl hheld
        · exact .inr ⟨owner, List.mem_cons_of_mem _ howner, hheld⟩

end Store

/-! ### Handles name their assignment -/

omit h in
theorem entry_of_snapshot {handle : AsicWorkHandle} {job : AsicJob} {context : AsicJobContext}
    (h : store.snapshotWithContext handle = some (job, context)) :
    handle ≠ ASIC_WORK_HANDLE_INVALID ∧
      (store.entries (handleSlot handle)).valid = true ∧
      (store.entries (handleSlot handle)).handle = handle ∧
      (store.entries (handleSlot handle)).template = job ∧
      (store.entries (handleSlot handle)).context = context := by
  unfold AsicJobStore.snapshotWithContext at h
  split at h
  · cases h
  · next hhandle =>
    simp only at h
    split at h
    · next hlive =>
      simp only [Bool.and_eq_true, decide_eq_true_eq] at hlive
      simp only [Option.some.injEq, Prod.mk.injEq] at h
      exact ⟨hhandle, hlive.1, hlive.2, h.1, h.2⟩
    · cases h

/-- Two assignments of one ledger with one handle and one epoch are the same. -/
theorem position_unique (hlength : entries.length ≤ 2 ^ 16) {i j : Nat}
    {newer older : BzmLedgerEntry} (hi : entries[i]? = some newer) (hj : entries[j]? = some older)
    (hle : i ≤ j) (hhandle : newer.handle = older.handle)
    (hepoch : newer.record.epoch = older.record.epoch) : i = j := by
  rcases Nat.lt_or_ge i j with hlt | hge
  · exfalso
    have hstampedN := h.stamped newer (List.mem_of_getElem? hi)
    have hstampedO := h.stamped older (List.mem_of_getElem? hj)
    obtain ⟨hilt, hiEq⟩ := List.getElem?_eq_some_iff.mp hi
    obtain ⟨hjlt, hjEq⟩ := List.getElem?_eq_some_iff.mp hj
    have hordered := List.pairwise_iff_getElem.mp h.ordered i j hilt hjlt hlt
    rw [hiEq, hjEq] at hordered
    have hspreadN := (h.spread i newer hi).1
    have hspreadO := (h.spread j older hj).2
    have hposN := hstampedN.stores_pos
    have hposO := hstampedO.stores_pos
    rw [hstampedN.handle_eq, hstampedO.handle_eq] at hhandle
    rw [hstampedN.epoch_eq, hstampedO.epoch_eq] at hepoch
    have := stores_eq_of_handle_eq hhandle.symm hepoch.symm (by omega) (by omega)
    omega
  · exact Nat.le_antisymm hle hge

/-- **What a current handle names.**  The job found under the handle of a ledger
assignment of the current epoch is the one this assignment stored, and no
invalidation has passed over it. -/
theorem owner_of_snapshot (hlength : entries.length ≤ 2 ^ 16) {entry : BzmLedgerEntry}
    (hmem : entry ∈ entries)
    (hepoch : entry.record.epoch = NonzeroCounter.next^[invalidated] NonzeroCounter.one)
    {job : AsicJob} {context : AsicJobContext}
    (hsnapshot : store.snapshotWithContext entry.handle = some (job, context)) :
    entry.invalidations = invalidated ∧ job = entry.record.work.source.template.job ∧
      context = entry.record.context := by
  obtain ⟨hhandle, hvalid, hheld, rfl, rfl⟩ := entry_of_snapshot hsnapshot
  rcases h.held entry hmem hvalid with hinvalid | ⟨owner, howner, hnow, hsame, htemplate, hcontext⟩
  · exact absurd (hheld.symm.trans hinvalid) hhandle
  · rw [hheld] at hsame
    have hepochs : entry.record.epoch = owner.record.epoch := by
      rw [hepoch, (h.stamped owner howner).epoch_eq, hnow]
    obtain ⟨i, hi⟩ := List.mem_iff_getElem?.mp hmem
    obtain ⟨j, hj⟩ := List.mem_iff_getElem?.mp howner
    have hposition : i = j := by
      rcases Nat.le_total i j with hle | hle
      · exact h.position_unique hlength hi hj hle hsame hepochs
      · exact (h.position_unique hlength hj hi hle hsame.symm hepochs.symm).symm
    subst hposition
    obtain rfl := Option.some.inj (hi.symm.trans hj)
    exact ⟨hnow, htemplate, hcontext⟩

/-- While fewer than `2 ^ 56` counter steps were taken since the last completed
flush, the assignments of the ledger have different handles. -/
theorem handle_ne (hbound : stores + invalidated < flushed + 2 ^ 56) {i j : Nat}
    {newer older : BzmLedgerEntry} (hi : entries[i]? = some newer) (hj : entries[j]? = some older)
    (hlt : i < j) : older.handle ≠ newer.handle := by
  have hmemN := List.mem_of_getElem? hi
  have hmemO := List.mem_of_getElem? hj
  obtain ⟨hilt, hiEq⟩ := List.getElem?_eq_some_iff.mp hi
  obtain ⟨hjlt, hjEq⟩ := List.getElem?_eq_some_iff.mp hj
  have hordered := List.pairwise_iff_getElem.mp h.ordered i j hilt hjlt hlt
  rw [hiEq, hjEq] at hordered
  have hspread := (h.spread i newer hi).1
  have hrecentN := (h.recent newer hmemN).1
  have hrecentO := (h.recent older hmemO).2
  have hposN := (h.stamped newer hmemN).stores_pos
  have hposO := (h.stamped older hmemO).stores_pos
  obtain ⟨steps, hsteps⟩ : ∃ steps, newer.stores - 1 + newer.invalidations =
      steps + (older.stores - 1 + older.invalidations) := ⟨_, (Nat.sub_add_cancel (by omega)).symm⟩
  have hsteps_pos : 0 < steps := by omega
  have hsteps_lt : steps < 2 ^ 56 - 1 := by omega
  have hnewer := (h.stamped newer hmemN).handle_eq
  rw [hsteps, Function.iterate_add_apply] at hnewer
  rw [hnewer, (h.stamped older hmemO).handle_eq]
  exact generatedHandle_ne_of_steps hsteps_pos hsteps_lt _ _

/-! ### Current jobs survive -/

/-- The next store does not reach back to a recent job's slot. -/
theorem slot_ne_generatedSlot {i : Nat} {entry : BzmLedgerEntry} (hi : entries[i]? = some entry)
    (hrecent : i < 236) (hnow : entry.invalidations = invalidated) :
    handleSlot entry.handle ≠ store.generatedSlot := by
  intro hsame
  have hslot := congrArg BitVec.toNat hsame
  rw [AsicJobStore.toNat_generatedSlot] at hslot
  have hspread := h.spread i entry hi
  have hslots := h.slots entry (List.mem_of_getElem? hi) hnow
  omega

theorem kept_storeGenerated {rounds : Nat} (hrounds : rounds ≤ 236)
    (hkept : Kept rounds store entries invalidated) (template : JobRef) :
    Kept rounds (store.storeGenerated template).2 entries invalidated := by
  intro i entry hi hrecent hnow
  have hslot := h.slot_ne_generatedSlot hi (by omega) hnow
  rw [AsicJobStore.storeGenerated_entries, Function.update_of_ne hslot]
  exact hkept i entry hi hrecent hnow

/-- The newest assignment finds its job, and pushes the others back by one turn. -/
theorem kept_assigned
    {rounds : Nat} (hrounds : rounds ≤ 236) (hkept : Kept rounds store entries invalidated)
    (template : JobRef) {record : BzmAssigned} (stamp : Nat)
    (hhandle : record.work.source.handle =
      generatedHandle store.nextGeneration.val store.generatedSlot) :
    Kept rounds (store.storeGenerated template).2 (⟨record, stamp, invalidated⟩ :: entries)
      invalidated := by
  intro i entry hi hrecent hnow
  cases i with
  | zero =>
    obtain rfl := Option.some.inj hi
    have hslot : handleSlot record.work.source.handle = store.generatedSlot := by
      rw [hhandle, handleSlot_generatedHandle]
    rw [BzmLedgerEntry.handle, hslot, AsicJobStore.storeGenerated_entries, Function.update_self]
    exact ⟨rfl, hhandle.symm⟩
  | succ i => exact h.kept_storeGenerated hrounds hkept template i entry hi (by omega) hnow

end Holds

theorem Kept.release {rounds : Nat} {store : AsicJobStore} {entries : List BzmLedgerEntry}
    {invalidated : Nat} (hkept : Kept rounds store entries invalidated) {handle : AsicWorkHandle}
    (hother : ∀ i entry, entries[i]? = some entry → i < rounds → handle ≠ entry.handle) :
    Kept rounds (store.release handle).2 entries invalidated := by
  intro i entry hi hrecent hnow
  have hold := hkept i entry hi hrecent hnow
  rcases store.release_entry handle (handleSlot entry.handle) with heq | ⟨hreleased, -, -⟩
  · rw [heq]
    exact hold
  · exact absurd (hreleased.trans hold.2) (hother i entry hi hrecent)

end EspMiner
