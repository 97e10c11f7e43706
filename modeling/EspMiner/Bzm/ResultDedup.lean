import EspMiner.Bzm.Reactor
import EspMiner.Library.Ring
import EspMiner.Library.Run
import EspMiner.Library.Sha256
import EspMiner.Stratum.Midstate

/-!
# Duplicate results

`bzm_result_is_duplicate` of `components/asic/bzm_result_dedup.c`: a result is known by the header
that it submits and the pool session it belongs to, and the fingerprints of the last results are
kept in a ring.  The hashed buffer determines the identity, so where no two buffers share a hash
the results found are those that the ring still holds.
-/

namespace EspMiner

open Library

def BZM_RESULT_DEDUP_CAPACITY : Nat := 256

/-- `bzm_result_identity_t` -/
structure BzmResultIdentity where
  valid : Bool
  fingerprint : List U8
deriving DecidableEq

/-- `bzm_result_dedup_t`; the cells below the capacity are used. -/
structure BzmResultDedup where
  entries : Nat → BzmResultIdentity
  next : Nat

/-- The cache that its caller has zeroed. -/
def BzmResultDedup.zero : BzmResultDedup := ⟨fun _ => ⟨false, List.replicate 32 0⟩, 0⟩

/-- The text in a buffer of characters, which ends at the first NUL or with the
buffer. -/
def strnText (buffer : List U8) : List U8 := buffer.takeWhile fun c => decide (c ≠ 0)

/-- `(uint8_t)job->source_type` -/
def MiningJobSource.byte : MiningJobSource → U8
  | .v1 => 0
  | .sv2Standard => 1
  | .sv2Extended => 2

/-- The arguments of a call but for the cache. -/
structure DedupCall where
  job : AsicJob
  workGeneration : U64
  result : AsicResult
deriving DecidableEq

namespace DedupCall

/-- `asic_job_header` of the job with the time that was mined. -/
def header (call : DedupCall) : List U8 :=
  asicJobHeader { call.job with ntime := call.result.finalNtime } call.result.nonce
    call.result.finalVersion

/-- `job->job_id` and `job->extranonce2` as texts. -/
def jobId (call : DedupCall) : List U8 := strnText call.job.jobId.toList

def extranonce2 (call : DedupCall) : List U8 := strnText call.job.extranonce2.toList

/-- A text is copied into zeroed memory. -/
def padded (size : Nat) (text : List U8) : List U8 := text ++ List.replicate (size - text.length) 0

/-- The `identity` buffer. -/
def identityBuffer (call : DedupCall) : List U8 :=
  call.header ++ (List.range 8).map (fun i => (call.workGeneration >>> (8 * i)).setWidth 8) ++
    [call.job.poolId, call.job.sourceType.byte] ++ padded 32 call.jobId ++
    padded 65 call.extranonce2

/-- Both strings are terminated. -/
def Terminated (call : DedupCall) : Prop :=
  call.jobId.length ≠ 32 ∧ call.extranonce2.length ≠ 65

instance (call : DedupCall) : Decidable call.Terminated := inferInstanceAs (Decidable (_ ∧ _))

end DedupCall

/-- `bzm_result_is_duplicate` with the cache that it leaves. -/
def bzmResultIsDuplicate (psaHashCompute : List U8 → Option (List U8)) (cache : BzmResultDedup)
    (call : DedupCall) : Bool × BzmResultDedup :=
  if call.jobId.length = 32 ∨ call.extranonce2.length = 65 then (false, cache)
  else
    let fingerprint := doubleSha256Bin psaHashCompute call.identityBuffer
    if (List.range BZM_RESULT_DEDUP_CAPACITY).any fun i =>
        (cache.entries i).valid && decide ((cache.entries i).fingerprint = fingerprint) then
      (true, cache)
    else (false, {
      entries := Function.update cache.entries cache.next ⟨true, fingerprint⟩
      next := (cache.next + 1) % BZM_RESULT_DEDUP_CAPACITY })

/-! ### Runs -/

/-- What a result is: the header it submits and the pool session it belongs to. -/
structure ResultIdentity where
  header : List U8
  workGeneration : U64
  poolId : U8
  sourceType : MiningJobSource
  jobId : List U8
  extranonce2 : List U8
deriving DecidableEq

def DedupCall.identity (call : DedupCall) : ResultIdentity :=
  ⟨call.header, call.workGeneration, call.job.poolId, call.job.sourceType, call.jobId,
    call.extranonce2⟩

/-- The cache behind some calls, with those answered with false, newest first. -/
structure DedupRun where
  cache : BzmResultDedup
  fresh : List DedupCall

/-- One more call. -/
def DedupRun.step (psaHashCompute : List U8 → Option (List U8)) (s : DedupRun) (call : DedupCall) :
    DedupRun where
  cache := (bzmResultIsDuplicate psaHashCompute s.cache call).2
  fresh :=
    if (bzmResultIsDuplicate psaHashCompute s.cache call).1 then s.fresh else call :: s.fresh

/-- The run of some calls from an empty cache. -/
def dedupRun (psaHashCompute : List U8 → Option (List U8)) (calls : List DedupCall) : DedupRun :=
  run (DedupRun.step psaHashCompute) ⟨.zero, []⟩ calls

/-! ## The duplicate detection window

The identity buffer has all parts of a result's identity, and the ring holds the
fingerprints of the last 256 results that were not duplicates. -/

/-! ### The identity buffer -/

theorem length_strnText_le (buffer : List U8) : (strnText buffer).length ≤ buffer.length :=
  (List.takeWhile_prefix _).length_le

theorem zero_notMem_strnText (buffer : List U8) : (0 : U8) ∉ strnText buffer := by
  intro hmem
  simpa using List.mem_takeWhile_imp hmem

namespace DedupCall

variable {call other : DedupCall}

theorem length_padded {size : Nat} {text : List U8} (h : text.length ≤ size) :
    (padded size text).length = size := by
  rw [padded, List.length_append, List.length_replicate]
  omega

/-- A padded text ends where its zeros begin. -/
theorem strnText_padded (size : Nat) {text : List U8} (h : (0 : U8) ∉ text) :
    strnText (padded size text) = text := by
  have hall : ∀ c ∈ text, decide (c ≠ 0) = true := by
    intro c hc
    rw [decide_eq_true_eq]
    rintro rfl
    exact h hc
  rw [strnText, padded, List.takeWhile_append_of_pos hall]
  cases size - text.length with
  | zero => simp
  | succ count => simp [List.replicate_succ]

theorem padded_inj {size : Nat} {text text' : List U8} (h : (0 : U8) ∉ text)
    (h' : (0 : U8) ∉ text') (heq : padded size text = padded size text') : text = text' := by
  rw [← strnText_padded size h, heq, strnText_padded size h']

/-- The bytes of a generation are those of no other. -/
theorem generationBytes_inj {a b : U64}
    (h : (List.range 8).map (fun i => (a >>> (8 * i)).setWidth 8) =
      (List.range 8).map fun i => ((b >>> (8 * i)).setWidth 8 : U8)) : a = b := by
  rw [List.map_inj_left] at h
  apply BitVec.eq_of_getLsbD_eq
  intro bit hbit
  have hbyte := congrArg (fun byte : U8 => byte.getLsbD (bit % 8))
    (h (bit / 8) (List.mem_range.mpr (by omega)))
  have hlow : bit % 8 < 8 := Nat.mod_lt _ (by decide)
  simp only [BitVec.getLsbD_setWidth, BitVec.getLsbD_ushiftRight, hlow, decide_true, Bool.true_and,
    Nat.div_add_mod] at hbyte
  exact hbyte

theorem length_jobId_le (call : DedupCall) : call.jobId.length ≤ 32 := by
  have hle := length_strnText_le call.job.jobId.toList
  rwa [Vector.length_toList] at hle

theorem length_extranonce2_le (call : DedupCall) : call.extranonce2.length ≤ 65 := by
  have hle := length_strnText_le call.job.extranonce2.toList
  rwa [Vector.length_toList] at hle

/-- **The identity buffer** is the same for exactly the results with the same
identity. -/
theorem identityBuffer_eq_iff :
    call.identityBuffer = other.identityBuffer ↔ call.identity = other.identity := by
  constructor
  · intro h
    obtain ⟨h, hextranonce2⟩ := List.append_inj' h (by
      rw [length_padded (length_extranonce2_le _), length_padded (length_extranonce2_le _)])
    obtain ⟨h, hjobId⟩ := List.append_inj' h (by
      rw [length_padded (length_jobId_le _), length_padded (length_jobId_le _)])
    obtain ⟨h, hpool⟩ := List.append_inj' h rfl
    obtain ⟨hheader, hgeneration⟩ := List.append_inj' h (by simp)
    simp only [List.cons.injEq, and_true] at hpool
    have hsource : call.job.sourceType = other.job.sourceType := by
      have hbyte := hpool.2
      revert hbyte
      cases call.job.sourceType <;> cases other.job.sourceType <;> decide
    rw [identity, identity, ResultIdentity.mk.injEq]
    exact ⟨hheader, generationBytes_inj hgeneration, hpool.1, hsource,
      padded_inj (zero_notMem_strnText _) (zero_notMem_strnText _) hjobId,
      padded_inj (zero_notMem_strnText _) (zero_notMem_strnText _) hextranonce2⟩
  · intro h
    rw [identity, identity, ResultIdentity.mk.injEq] at h
    obtain ⟨hheader, hgeneration, hpool, hsource, hjobId, hextranonce2⟩ := h
    rw [identityBuffer, identityBuffer, hheader, hgeneration, hpool, hsource, hjobId, hextranonce2]

end DedupCall

/-! ### The ring -/

section Ring

variable {psaHashCompute : List U8 → Option (List U8)} {s : DedupRun} {call : DedupCall}

/-- The entry of a result. -/
def dedupEntry (psaHashCompute : List U8 → Option (List U8)) (call : DedupCall) :
    BzmResultIdentity :=
  ⟨true, doubleSha256Bin psaHashCompute call.identityBuffer⟩

/-- The ring holds the entries of the last fresh results, and nothing else. -/
structure DedupOk (psaHashCompute : List U8 → Option (List U8)) (s : DedupRun) : Prop where
  next : s.cache.next = s.fresh.length % BZM_RESULT_DEDUP_CAPACITY
  retains : Ring.Retains BZM_RESULT_DEDUP_CAPACITY s.cache.entries
    (s.fresh.reverse.map (dedupEntry psaHashCompute))
  empty : ∀ cell < BZM_RESULT_DEDUP_CAPACITY, s.fresh.length ≤ cell →
    (s.cache.entries cell).valid = false

/-- The search finds the fingerprint of one of the last fresh results. -/
theorem DedupOk.found_iff (h : DedupOk psaHashCompute s) (fingerprint : List U8) :
    ((List.range BZM_RESULT_DEDUP_CAPACITY).any fun i => (s.cache.entries i).valid &&
        decide ((s.cache.entries i).fingerprint = fingerprint)) = true ↔
      ∃ earlier ∈ s.fresh.take BZM_RESULT_DEDUP_CAPACITY,
        doubleSha256Bin psaHashCompute earlier.identityBuffer = fingerprint := by
  have hcells := h.retains.mem_recent_iff (x := ⟨true, fingerprint⟩)
  have hrecent : (⟨true, fingerprint⟩ : BzmResultIdentity) ∈
      (s.fresh.reverse.map (dedupEntry psaHashCompute)).drop
        ((s.fresh.reverse.map (dedupEntry psaHashCompute)).length - BZM_RESULT_DEDUP_CAPACITY) ↔
      ∃ earlier ∈ s.fresh.take BZM_RESULT_DEDUP_CAPACITY,
        doubleSha256Bin psaHashCompute earlier.identityBuffer = fingerprint := by
    rw [← List.map_drop, List.length_map, List.length_reverse, ← List.reverse_take,
      List.map_reverse, List.mem_reverse, List.mem_map]
    refine exists_congr fun earlier => and_congr_right fun _ => ?_
    rw [dedupEntry, BzmResultIdentity.mk.injEq, and_iff_right rfl]
  rw [← hrecent, ← hcells, List.any_eq_true]
  constructor
  · rintro ⟨cell, hmem, hfound⟩
    rw [Bool.and_eq_true, decide_eq_true_eq] at hfound
    have hcell := List.mem_range.mp hmem
    refine ⟨cell, hcell, ?_, ?_⟩
    · by_contra hempty
      rw [List.length_map, List.length_reverse, Nat.not_lt] at hempty
      rw [h.empty cell hcell hempty] at hfound
      exact Bool.false_ne_true hfound.1
    · rw [← hfound.1, ← hfound.2]
  · rintro ⟨cell, hcell, -, hentry⟩
    exact ⟨cell, List.mem_range.mpr hcell, by simp [hentry]⟩

/-- A call with terminated strings. -/
theorem bzmResultIsDuplicate_of_terminated (hterminated : call.Terminated)
    (cache : BzmResultDedup) :
    bzmResultIsDuplicate psaHashCompute cache call =
      if (List.range BZM_RESULT_DEDUP_CAPACITY).any fun i => (cache.entries i).valid &&
          decide ((cache.entries i).fingerprint =
            doubleSha256Bin psaHashCompute call.identityBuffer) then (true, cache)
      else (false, {
        entries := Function.update cache.entries cache.next (dedupEntry psaHashCompute call)
        next := (cache.next + 1) % BZM_RESULT_DEDUP_CAPACITY }) := by
  rw [bzmResultIsDuplicate, if_neg (not_or.mpr hterminated)]
  rfl

/-- What one call answers and leaves. -/
theorem DedupOk.call_spec (h : DedupOk psaHashCompute s) (hterminated : call.Terminated) :
    ((bzmResultIsDuplicate psaHashCompute s.cache call).1 = true ↔
      ∃ earlier ∈ s.fresh.take BZM_RESULT_DEDUP_CAPACITY,
        doubleSha256Bin psaHashCompute earlier.identityBuffer =
          doubleSha256Bin psaHashCompute call.identityBuffer) ∧
      ((bzmResultIsDuplicate psaHashCompute s.cache call).1 = true →
        (bzmResultIsDuplicate psaHashCompute s.cache call).2 = s.cache) := by
  rw [bzmResultIsDuplicate_of_terminated hterminated, ← h.found_iff]
  split
  · next hfound => exact ⟨iff_of_true rfl hfound, fun _ => rfl⟩
  · next hmissing =>
    exact ⟨iff_of_false Bool.false_ne_true hmissing, fun hfalse => absurd hfalse (by simp)⟩

theorem DedupOk.step (h : DedupOk psaHashCompute s) (hterminated : call.Terminated) :
    DedupOk psaHashCompute (s.step psaHashCompute call) := by
  rw [DedupRun.step, bzmResultIsDuplicate_of_terminated hterminated]
  split
  · exact h
  · have hpositive : 0 < BZM_RESULT_DEDUP_CAPACITY := by decide
    have hlength : (s.fresh.reverse.map (dedupEntry psaHashCompute)).length = s.fresh.length := by
      simp
    constructor
    · change (s.cache.next + 1) % _ = (call :: s.fresh).length % _
      rw [h.next, List.length_cons, Nat.mod_add_mod]
    · have hone : [dedupEntry psaHashCompute call].length ≤ BZM_RESULT_DEDUP_CAPACITY := hpositive
      have hwritten := h.retains.write hone
      rw [Ring.write_singleton hpositive, hlength, ← h.next] at hwritten
      simpa using hwritten
    · intro cell hcell hempty
      have hafter : s.fresh.length + 1 ≤ cell := hempty
      have hnext : s.cache.next = s.fresh.length := by
        rw [h.next]
        exact Nat.mod_eq_of_lt (by omega)
      change (Function.update s.cache.entries s.cache.next _ cell).valid = false
      rw [Function.update_of_ne (by omega)]
      exact h.empty cell hcell (by omega)

end Ring

/-- The ring is right behind every sequence of calls. -/
theorem dedupRun_ok (psaHashCompute : List U8 → Option (List U8)) (calls : List DedupCall)
    (hterminated : ∀ call ∈ calls, call.Terminated) :
    DedupOk psaHashCompute (dedupRun psaHashCompute calls) := by
  induction calls using List.reverseRecOn with
  | nil =>
    exact {
      next := rfl
      retains := fun p hp => absurd hp (Nat.not_lt_zero p)
      empty := fun _ _ _ => rfl }
  | append_singleton calls call ih =>
    rw [dedupRun, run_append]
    refine (ih fun other hmem => hterminated other ?_).step (hterminated call ?_)
    · exact List.mem_append_left _ hmem
    · exact List.mem_append_right _ List.mem_cons_self

/-- The fresh results of a run are among its calls. -/
theorem dedupRun_fresh_subset (psaHashCompute : List U8 → Option (List U8))
    (calls : List DedupCall) : (dedupRun psaHashCompute calls).fresh ⊆ calls := by
  induction calls using List.reverseRecOn with
  | nil => exact List.Subset.refl _
  | append_singleton calls call ih =>
    rw [dedupRun, run_append, run_cons, run_nil, ← dedupRun, DedupRun.step]
    intro earlier hmem
    split at hmem
    · exact List.mem_append_left _ (ih hmem)
    · rcases List.mem_cons.mp hmem with rfl | hmem
      · exact List.mem_append_right _ List.mem_cons_self
      · exact List.mem_append_left _ (ih hmem)

/-- **The duplicate detection window.**  Where no two of the results called with
have different identity buffers with the same double hash, a call is answered with
true exactly when a result with the same identity is among the last 256 that were
answered with false, and then the cache stays as it was. -/
theorem bzmResultIsDuplicate_window (psaHashCompute : List U8 → Option (List U8))
    (calls : List DedupCall) (call : DedupCall)
    (hterminated : ∀ c ∈ call :: calls, c.Terminated)
    (hinjective : ∀ c ∈ call :: calls, ∀ d ∈ call :: calls,
      doubleSha256Bin psaHashCompute c.identityBuffer =
        doubleSha256Bin psaHashCompute d.identityBuffer → c.identityBuffer = d.identityBuffer) :
    let before := dedupRun psaHashCompute calls
    let after := bzmResultIsDuplicate psaHashCompute before.cache call
    (after.1 = true ↔ ∃ earlier ∈ before.fresh.take 256, earlier.identity = call.identity) ∧
      (after.1 = true → after.2 = before.cache) := by
  intro before after
  have hok := dedupRun_ok psaHashCompute calls fun c hc => hterminated c (List.mem_cons_of_mem _ hc)
  obtain ⟨hfound, hkept⟩ := hok.call_spec (hterminated call List.mem_cons_self)
  refine ⟨hfound.trans (exists_congr fun earlier => and_congr_right fun hmem => ?_), hkept⟩
  rw [← DedupCall.identityBuffer_eq_iff]
  constructor
  · intro hhash
    refine hinjective earlier ?_ call List.mem_cons_self hhash
    exact List.mem_cons_of_mem _ (dedupRun_fresh_subset _ _ (List.mem_of_mem_take hmem))
  · exact congrArg _

/-- A call with all fields zero. -/
def DedupCall.zero : DedupCall where
  job := .zero
  workGeneration := 0
  result := ⟨false, .zero, .zero, 0, 0, 0, 0, 0, 0, 0, 0, 0, 0, 0⟩

theorem bzmResultIsDuplicate_window_repeated :
    let psaHashCompute := fun message : List U8 => some (sha256 message)
    let before := dedupRun psaHashCompute [DedupCall.zero]
    let after := bzmResultIsDuplicate psaHashCompute before.cache DedupCall.zero
    (after.1 = true ↔
        ∃ earlier ∈ before.fresh.take 256, earlier.identity = DedupCall.zero.identity) ∧
      (after.1 = true → after.2 = before.cache) := by
  have hsame : ∀ c ∈ [DedupCall.zero, DedupCall.zero], c = DedupCall.zero := by
    intro c hc
    simpa using hc
  refine bzmResultIsDuplicate_window (fun message => some (sha256 message)) [DedupCall.zero]
    DedupCall.zero (fun c hc => ?_) fun c hc d hd _ => ?_
  · rw [hsame c hc]
    decide
  · rw [hsame c hc, hsame d hd]

end EspMiner
