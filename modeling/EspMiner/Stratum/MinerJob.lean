import EspMiner.Asic.Job

/-!
# Pool jobs

`components/stratum/miner_job.c`: the upstream job record and the pool of eight
slots through which protocol clients hand jobs to the job task.
-/

namespace EspMiner

/-- `miner_job_t`, without the capacities of its two coinbase buffers. -/
structure MinerJob where
  type : MiningJobSource
  jobId : Vector U8 32
  version : U32
  prevHash : Vector U8 32
  ntime : U32
  nbits : U32
  cleanJobs : Bool
  workGeneration : U64
  poolDiff : U64
  versionMask : U32
  extranonce1 : Vector U8 32
  extranonce1Len : U8
  extranonce2Len : U8
  poolId : U8
  merklePath : Vector (Vector U8 32) 32
  merklePathCount : U8
  coinbasePrefix : List U8
  coinbasePrefixLen : U16
  coinbaseSuffix : List U8
  coinbaseSuffixLen : U16
  merkleRoot : Vector U8 32

/-- The record that `miner_job_reset` leaves. -/
def MinerJob.zero : MinerJob where
  type := .v1
  jobId := Vector.replicate 32 0
  version := 0
  prevHash := Vector.replicate 32 0
  ntime := 0
  nbits := 0
  cleanJobs := false
  workGeneration := 0
  poolDiff := 0
  versionMask := 0
  extranonce1 := Vector.replicate 32 0
  extranonce1Len := 0
  extranonce2Len := 0
  poolId := 0
  merklePath := Vector.replicate 32 (Vector.replicate 32 0)
  merklePathCount := 0
  coinbasePrefix := []
  coinbasePrefixLen := 0
  coinbaseSuffix := []
  coinbaseSuffixLen := 0
  merkleRoot := Vector.replicate 32 0

/-- `miner_job_is_rollable` -/
def MinerJob.isRollable (job : MinerJob) : Bool :=
  decide (0 < job.extranonce2Len) && decide (0 < job.coinbasePrefixLen)

def MINER_JOB_POOL_SIZE : Nat := 8

/-- The content of the eight slots at one moment. -/
abbrev MinerJobPool := Fin MINER_JOB_POOL_SIZE → MinerJob

/-- The slot that `miner_job_get_slot` picks for an index. -/
def minerJobSlot (index : U32) : Fin MINER_JOB_POOL_SIZE :=
  ⟨index.toNat % MINER_JOB_POOL_SIZE, Nat.mod_lt _ (by decide)⟩

/-! ## Buffers and byte arrays -/

def MAX_COINBASE_PREFIX_LEN : Nat := 1024
def MAX_COINBASE_SUFFIX_LEN : Nat := 64512

/-- The two coinbase buffers of a slot: their capacities, and whether they were
allocated. -/
structure CoinbaseBuffers where
  prefixCapacity : Nat
  prefixAllocated : Bool
  suffixCapacity : Nat
  suffixAllocated : Bool

/-- The buffers of a board with PSRAM. -/
def CoinbaseBuffers.full : CoinbaseBuffers :=
  ⟨MAX_COINBASE_PREFIX_LEN, true, MAX_COINBASE_SUFFIX_LEN, true⟩

/-- `memcpy` of the first bytes of an array. -/
def copyBytes (count : Nat) (src dest : Vector U8 32) : Vector U8 32 :=
  Vector.ofFn fun i => if i.val < count then src.get i else dest.get i

theorem copyBytes_get (count : Nat) (src dest : Vector U8 32) (i : Fin 32) :
    (copyBytes count src dest).get i = if i.val < count then src.get i else dest.get i := by
  have hget : ∀ bytes : Vector U8 32, bytes.get i = bytes[i.val] := fun _ => rfl
  rw [hget, copyBytes, Vector.getElem_ofFn]

end EspMiner
