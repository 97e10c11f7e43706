import EspMiner.Asic.JobStore
import EspMiner.Bzm.Topology
import EspMiner.Stratum.Midstate
import EspMiner.Stratum.Mining
import Mathlib.Data.List.Iterate

/-!
# Bonanza work items and raw results

`components/asic/bzm.c` builds the work item of one engine from a template;
`components/asic/bzm_work.c` turns it into register writes.  An engine keeps two
FIFOs, one of midstates and one of sequence bytes, and a raw result names the
sequence byte of the FIFO position that found it.
-/

namespace EspMiner

def BZM_MAX_ENGINE_COUNT : Nat := 4096
def BZM_VERSION_VARIANTS : Nat := 4

/-- `asic_work_t` -/
structure AsicWork where
  handle : AsicWorkHandle
  template : JobRef
deriving DecidableEq

/-- `bzm_work_t`; the two arrays hold the `midstateCount` entries in use. -/
structure BzmWork where
  source : AsicWork
  engineId : Nat
  timestampCount : U8
  startingNonce : U32
  endNonce : U32
  midstateCount : Nat
  midstates : List (List U8)
  versions : List U32
  merkleResidue : U32
  startNtime : U32
  target : U32
  logicalSequence : U8
  leadZeros : U8
deriving DecidableEq

/-- `bzm_build_versions` -/
def bzmBuildVersions (baseVersion versionMask : U32) (enhancedMode : Bool) : List U32 :=
  if !enhancedMode then [baseVersion]
  else if versionMask = 0 then List.replicate BZM_VERSION_VARIANTS baseVersion
  else List.iterate (fun version => incrementBitmask version versionMask) baseVersion
    BZM_VERSION_VARIANTS

/-- The midstate that `bzm_work_build` computes for one version of a template. -/
def bzmMidstate (template : AsicJob) (version : U32) : List U8 :=
  reverseEndiannessPerWord
    (midstateSha256Bin ((asicJobHeader template template.startingNonce version).take 64))

/-- The four bytes of the Merkle root that follow the first 64 header bytes, as
the little-endian word that `memcpy` reads. -/
def merkleResidue (template : AsicJob) : U32 :=
  let byte (i : Nat) : U32 := (template.merkleRoot.toList.getD (28 + i) 0).setWidth 32
  byte 0 ||| (byte 1 <<< 8) ||| (byte 2 <<< 16) ||| (byte 3 <<< 24)

/-- `bzm_work_build` -/
def bzmWorkBuild (source : AsicWork) (engineId : Nat)
    (logicalSequence timestampCount leadZeros : U8) (enhancedMode : Bool) : Option BzmWork :=
  if source.handle = ASIC_WORK_HANDLE_INVALID ∨ BZM_MAX_ENGINE_COUNT ≤ engineId ∨
      0x7f#8 < timestampCount then none
  else
    let template := source.template.job
    let versions := bzmBuildVersions template.version template.versionMask enhancedMode
    some {
      source := source
      engineId := engineId
      timestampCount := timestampCount
      startingNonce := template.startingNonce
      endNonce := 0xffffffff#32
      midstateCount := versions.length
      midstates := versions.map (bzmMidstate template)
      versions := versions
      merkleResidue := merkleResidue template
      startNtime := template.ntime
      target := template.nbits
      logicalSequence := logicalSequence
      leadZeros := leadZeros }

/-! ### Register writes -/

def BZM_REG_MIDSTATE : U8 := 0x10
def BZM_REG_MERKLE_RESIDUE : U8 := 0x30
def BZM_REG_START_TIMESTAMP : U8 := 0x34
def BZM_REG_SEQUENCE_ID : U8 := 0x38
def BZM_REG_JOB_CONTROL : U8 := 0x39
def BZM_REG_START_NONCE : U8 := 0x3c
def BZM_REG_END_NONCE : U8 := 0x40
def BZM_REG_TARGET : U8 := 0x44
def BZM_REG_TIMESTAMP_COUNT : U8 := 0x48
def BZM_REG_ZEROS_TO_FIND : U8 := 0x49
def BZM_TIMESTAMP_AUTO_CLOCK_UNGATE : U8 := 0x80

/-- One call of a `bzm_register_writer_t`. -/
structure BzmRegisterWrite where
  engineId : Nat
  offset : U8
  data : List U8
deriving DecidableEq

/-- `__builtin_bswap32` -/
def bswap32 (value : U32) : U32 :=
  (value <<< 24) ||| ((value &&& 0xff00#32) <<< 8) ||| ((value >>> 8) &&& 0xff00#32) |||
    (value >>> 24)

namespace BzmWork

/-- `zero_count` of `program_work` -/
def zeroCount (work : BzmWork) : U8 :=
  let count := if 32#8 < work.leadZeros then work.leadZeros - 32#8 else 0#8
  if 32#8 < count then 32#8 else count

/-- The sequence byte of one FIFO position. -/
def sequenceByte (work : BzmWork) (position : Nat) : U8 :=
  if 1 < work.midstateCount then (work.logicalSequence <<< 2) ||| BitVec.ofNat 8 position
  else work.logicalSequence

/-- The bytes that `program_work` pushes into the sequence FIFO. -/
def wireBytes (work : BzmWork) : List U8 := (List.range work.midstateCount).map work.sequenceByte

/-- `program_work`: the register writes in their order, when the writer accepts
every one of them. -/
def program (work : BzmWork) (includeNonceRange : Bool) : Option (List BzmRegisterWrite) :=
  if work.midstateCount = 0 ∨ BZM_VERSION_VARIANTS < work.midstateCount then none
  else
    let write (offset : U8) (data : List U8) : BzmRegisterWrite := ⟨work.engineId, offset, data⟩
    some (
      [write BZM_REG_ZEROS_TO_FIND [work.zeroCount],
        write BZM_REG_TIMESTAMP_COUNT [work.timestampCount ||| BZM_TIMESTAMP_AUTO_CLOCK_UNGATE]] ++
      (if includeNonceRange then
        [write BZM_REG_START_NONCE (writeLe32 work.startingNonce),
          write BZM_REG_END_NONCE (writeLe32 work.endNonce)]
      else []) ++
      [write BZM_REG_MERKLE_RESIDUE (writeLe32 (bswap32 work.merkleResidue)),
        write BZM_REG_START_TIMESTAMP (writeLe32 (bswap32 work.startNtime)),
        write BZM_REG_TARGET (writeLe32 (bswap32 work.target))] ++
      (List.range work.midstateCount).map
        (fun i => write BZM_REG_MIDSTATE (work.midstates.getD i [])) ++
      (List.range work.midstateCount).map
        (fun i => write BZM_REG_SEQUENCE_ID [work.sequenceByte i]) ++
      [write BZM_REG_JOB_CONTROL [3]])

end BzmWork

/-- What a sequence of writes pushes into the FIFO behind one register. -/
def bzmFifo (offset : U8) (writes : List BzmRegisterWrite) : List (List U8) :=
  (writes.filter fun write => decide (write.offset = offset)).map BzmRegisterWrite.data

/-! ### Raw results -/

/-- `bzm_raw_result_t` -/
structure BzmRawResult where
  asicId : U8
  engineId : Nat
  status : U8
  nonce : U32
  sequenceId : U8
  time : U8
  timestampUs : U64
deriving DecidableEq

/-- `bzm_raw_result_has_valid_nonce` -/
def BzmRawResult.hasValidNonce (raw : BzmRawResult) : Bool := decide (raw.status &&& 0x08#8 ≠ 0#8)

/-- `bzm_engine_logical_id` -/
def bzmEngineLogicalId (physicalEngineId : Nat) : Option Nat :=
  (bzmTopologyFromPhysicalId physicalEngineId).map BzmEngineLocation.topologyIndex

theorem BzmEngineLocation.Located.logicalId {engine : BzmEngineLocation} (h : engine.Located) :
    bzmEngineLogicalId engine.physicalId = some engine.topologyIndex := by
  rw [bzmEngineLogicalId, h.fromPhysicalId]
  rfl

/-! ### What a built work item holds -/

/-- The number of versions one work item tries. -/
def bzmVersionCount (enhancedMode : Bool) : Nat := if enhancedMode then BZM_VERSION_VARIANTS else 1

@[simp] theorem length_bzmBuildVersions (baseVersion versionMask : U32) (enhancedMode : Bool) :
    (bzmBuildVersions baseVersion versionMask enhancedMode).length =
      bzmVersionCount enhancedMode := by
  cases enhancedMode with
  | false => rfl
  | true =>
    simp only [bzmBuildVersions, bzmVersionCount, Bool.not_true, Bool.false_eq_true, if_false,
      if_true]
    split
    · exact List.length_replicate
    · exact List.length_iterate _ _ _

theorem bzmVersionCount_bounds (enhancedMode : Bool) :
    0 < bzmVersionCount enhancedMode ∧ bzmVersionCount enhancedMode ≤ BZM_VERSION_VARIANTS := by
  cases enhancedMode <;> decide

@[simp] theorem bzmFifo_nil (offset : U8) : bzmFifo offset [] = [] := rfl

theorem bzmFifo_cons (offset : U8) (write : BzmRegisterWrite) (writes : List BzmRegisterWrite) :
    bzmFifo offset (write :: writes) =
      if write.offset = offset then write.data :: bzmFifo offset writes
      else bzmFifo offset writes := by
  by_cases h : write.offset = offset <;> simp [bzmFifo, h]

theorem bzmFifo_append (offset : U8) (first second : List BzmRegisterWrite) :
    bzmFifo offset (first ++ second) = bzmFifo offset first ++ bzmFifo offset second := by
  simp [bzmFifo]

/-- A block of writes to one register fills that register's FIFO or none. -/
theorem bzmFifo_map (offset target : U8) (engineId count : Nat) (data : Nat → List U8) :
    bzmFifo offset ((List.range count).map fun i => ⟨engineId, target, data i⟩) =
      if target = offset then (List.range count).map data else [] := by
  by_cases h : target = offset
  · simp [bzmFifo, List.filter_map, Function.comp_def, h]
  · simp [bzmFifo, List.filter_map, Function.comp_def, h]

section Built

variable {source : AsicWork} {engineId : Nat} {logicalSequence timestampCount leadZeros : U8}
  {enhancedMode : Bool} {work : BzmWork}

theorem bzmWorkBuild_isSome (hhandle : source.handle ≠ ASIC_WORK_HANDLE_INVALID)
    (hengine : engineId < BZM_MAX_ENGINE_COUNT) (htime : timestampCount ≤ 0x7f#8) :
    ∃ work, bzmWorkBuild source engineId logicalSequence timestampCount leadZeros enhancedMode =
      some work := by
  rw [bzmWorkBuild, if_neg]
  · exact ⟨_, rfl⟩
  · rintro (h | h | h)
    · exact hhandle h
    · exact Nat.not_le.mpr hengine h
    · exact BitVec.not_lt.mpr htime h

/-- The fields of a work item that result mapping relies on. -/
structure BzmWork.BuiltFrom (work : BzmWork) (source : AsicWork) (engineId : Nat)
    (logicalSequence timestampCount : U8) (enhancedMode : Bool) : Prop where
  source_eq : work.source = source
  engineId_eq : work.engineId = engineId
  logicalSequence_eq : work.logicalSequence = logicalSequence
  timestampCount_eq : work.timestampCount = timestampCount
  startNtime_eq : work.startNtime = source.template.job.ntime
  versions_eq : work.versions =
    bzmBuildVersions source.template.job.version source.template.job.versionMask enhancedMode
  midstates_eq : work.midstates = work.versions.map (bzmMidstate source.template.job)
  midstateCount_eq : work.midstateCount = bzmVersionCount enhancedMode

theorem bzmWorkBuild_builtFrom
    (h : bzmWorkBuild source engineId logicalSequence timestampCount leadZeros enhancedMode =
      some work) :
    source.handle ≠ ASIC_WORK_HANDLE_INVALID ∧
      work.BuiltFrom source engineId logicalSequence timestampCount enhancedMode := by
  unfold bzmWorkBuild at h
  split at h
  · cases h
  · next hvalid =>
    have hwork := Option.some.inj h
    refine ⟨fun hhandle => hvalid (.inl hhandle), ?_⟩
    constructor <;> rw [← hwork]
    exact length_bzmBuildVersions _ _ _

theorem BzmWork.BuiltFrom.length_versions
    (h : work.BuiltFrom source engineId logicalSequence timestampCount enhancedMode) :
    work.versions.length = bzmVersionCount enhancedMode := by
  rw [h.versions_eq, length_bzmBuildVersions]

end Built

attribute [local simp] BZM_REG_MIDSTATE BZM_REG_MERKLE_RESIDUE BZM_REG_START_TIMESTAMP
  BZM_REG_SEQUENCE_ID BZM_REG_JOB_CONTROL BZM_REG_START_NONCE BZM_REG_END_NONCE BZM_REG_TARGET
  BZM_REG_TIMESTAMP_COUNT BZM_REG_ZEROS_TO_FIND in
/-- Programming a work item fills its two FIFOs position by position. -/
theorem BzmWork.program_fifos {work : BzmWork} {includeNonceRange : Bool}
    {writes : List BzmRegisterWrite} (h : work.program includeNonceRange = some writes) :
    bzmFifo BZM_REG_MIDSTATE writes =
        (List.range work.midstateCount).map (fun i => work.midstates.getD i []) ∧
      bzmFifo BZM_REG_SEQUENCE_ID writes = work.wireBytes.map fun byte => [byte] := by
  unfold BzmWork.program at h
  split at h
  · cases h
  · obtain rfl := Option.some.inj h
    simp only [bzmFifo_append, bzmFifo_map, BzmWork.wireBytes, List.map_map]
    cases includeNonceRange <;> simp [bzmFifo_cons, Function.comp_def]

section Built

variable {source : AsicWork} {engineId : Nat} {logicalSequence timestampCount : U8}
  {enhancedMode : Bool} {work : BzmWork}

/-- A built item can be programmed, and its midstate FIFO holds the midstates of
its versions. -/
theorem BzmWork.BuiltFrom.program_midstates
    (h : work.BuiltFrom source engineId logicalSequence timestampCount enhancedMode)
    (includeNonceRange : Bool) :
    ∃ writes, work.program includeNonceRange = some writes ∧
      bzmFifo BZM_REG_MIDSTATE writes = work.versions.map (bzmMidstate source.template.job) := by
  have hbounds := bzmVersionCount_bounds enhancedMode
  have hcount := h.midstateCount_eq
  have hlength : work.midstates.length = work.midstateCount := by
    rw [h.midstates_eq, List.length_map, h.length_versions, hcount]
  obtain ⟨writes, hwrites⟩ : ∃ writes, work.program includeNonceRange = some writes :=
    ⟨_, by rw [BzmWork.program, if_neg (by omega)]⟩
  refine ⟨writes, hwrites, ?_⟩
  rw [(BzmWork.program_fifos hwrites).1, ← h.midstates_eq]
  refine List.ext_getElem (by simp [hlength]) fun i _ hi => ?_
  simp [List.getElem?_eq_getElem hi]

end Built

end EspMiner
