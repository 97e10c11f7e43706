import EspMiner.Stratum.MinerJob

/-!
# Building an ASIC job from a pool job

`components/stratum/mining_job.c`: the owned work record that one pool slot, one
extranonce2 value and one version stand for.  The double SHA-256 of the platform
and the allocator of long coinbases are parameters.
-/

namespace EspMiner

def ASIC_JOB_EXTRANONCE2_SIZE : Nat := 32
def MAX_MERKLE_BRANCHES : Nat := 32

/-- `hex_table` -/
def hexTable (nibble : Nat) : U8 :=
  ("0123456789abcdef".toList.map fun digit => BitVec.ofNat 8 digit.toNat).getD nibble 0

/-- The text that `bin2hex` writes, without its terminator. -/
def bin2hex (data : List U8) : List U8 :=
  data.flatMap fun byte => [hexTable (byte.toNat / 16), hexTable (byte.toNat % 16)]

/-- What `strcpy` leaves in a zeroed array. -/
def strcpyZeroed (size : Nat) (text : List U8) : Vector U8 size :=
  Vector.ofFn fun i => (text.takeWhile (· ≠ 0#8)).getD i 0

/-- `copy_metadata`: the two texts as they end up in the job. -/
def copyMetadata (job : AsicJob) (jobId extranonce2 : List U8) : Option AsicJob :=
  if 0#8 ∉ jobId.take 32 ∨ 65 ≤ extranonce2.length then none
  else some { job with
    jobId := strcpyZeroed 32 jobId
    extranonce2 := strcpyZeroed 65 extranonce2 }

theorem copyMetadata_eq_some {job built : AsicJob} {jobId extranonce2 : List U8}
    (h : copyMetadata job jobId extranonce2 = some built) :
    built = { job with
      jobId := strcpyZeroed 32 jobId
      extranonce2 := strcpyZeroed 65 extranonce2 } := by
  unfold copyMetadata at h
  split at h
  · cases h
  · exact (Option.some.inj h).symm

section Build

variable (doubleSha256Bin : List U8 → Vector U8 32)
variable (canAllocate : Nat → Bool)

/-- `calculate_coinbase_tx_hash_bin`: coinbases of up to 1024 bytes are put
together on the stack. -/
def calculateCoinbaseTxHashBin (coinbasePrefix extranonce1 extranonce2 coinbaseSuffix : List U8) :
    Option (Vector U8 32) :=
  let coinbase := coinbasePrefix ++ extranonce1 ++ extranonce2 ++ coinbaseSuffix
  if 1024 < coinbase.length ∧ canAllocate coinbase.length = false then none
  else some (doubleSha256Bin coinbase)

/-- `calculate_merkle_root_hash` -/
def calculateMerkleRootHash (coinbaseTxHash : Vector U8 32) (branches : List (Vector U8 32)) :
    Vector U8 32 :=
  branches.foldl (fun root branch => doubleSha256Bin (root.toList ++ branch.toList)) coinbaseTxHash

/-- The extranonce2 bytes of a counter, least significant first. -/
def extranonce2Bin (length : Nat) (counter : U64) : List U8 :=
  (List.range length).map fun i => if i < 8 then (counter >>> (8 * i)).setWidth 8 else 0

/-- The Merkle root of the job, and the text of the extranonce2 it used. -/
def miningMerkleRoot (job : MinerJob) (extranonce2Counter : U64) :
    Option (Vector U8 32 × List U8) :=
  if job.type = .sv2Standard then some (job.merkleRoot, [])
  else
    let extranonce2 := extranonce2Bin job.extranonce2Len.toNat extranonce2Counter
    (calculateCoinbaseTxHashBin doubleSha256Bin canAllocate
      (job.coinbasePrefix.take job.coinbasePrefixLen.toNat)
      (job.extranonce1.toList.take job.extranonce1Len.toNat) extranonce2
      (job.coinbaseSuffix.take job.coinbaseSuffixLen.toNat)).map fun coinbaseHash =>
        (calculateMerkleRootHash doubleSha256Bin coinbaseHash
          (job.merklePath.toList.take job.merklePathCount.toNat), bin2hex extranonce2)

/-- `mining_build_asic_job` -/
def miningBuildAsicJob (job : MinerJob) (extranonce2Counter : U64) (version : U32) :
    Option AsicJob :=
  if 0#8 ∉ job.jobId.toList ∨ ASIC_JOB_EXTRANONCE2_SIZE < job.extranonce2Len.toNat ∨
      32 < job.extranonce1Len.toNat ∨ MAX_MERKLE_BRANCHES < job.merklePathCount.toNat then none
  else
    match miningMerkleRoot doubleSha256Bin canAllocate job extranonce2Counter with
    | none => none
    | some (merkleRoot, extranonce2) =>
        let template := { AsicJob.zero with
          version := if version ≠ 0 then version else job.version
          versionMask := job.versionMask
          ntime := job.ntime
          nbits := job.nbits
          sourceType := job.type
          poolId := job.poolId
          poolDiff := job.poolDiff
          prevHash := job.prevHash
          merkleRoot := merkleRoot }
        copyMetadata template job.jobId.toList extranonce2

/-- The header fields of a built job. -/
theorem miningBuildAsicJob_fields {job : MinerJob} {extranonce2Counter : U64} {version : U32}
    {template : AsicJob}
    (h : miningBuildAsicJob doubleSha256Bin canAllocate job extranonce2Counter version =
      some template) :
    template.version = (if version ≠ 0 then version else job.version) ∧
      template.versionMask = job.versionMask ∧ template.ntime = job.ntime ∧
      template.nbits = job.nbits ∧ template.prevHash = job.prevHash ∧
      template.poolId = job.poolId ∧ template.sourceType = job.type := by
  unfold miningBuildAsicJob at h
  split at h
  · cases h
  · split at h
    · cases h
    · rw [copyMetadata_eq_some h]
      exact ⟨rfl, rfl, rfl, rfl, rfl, rfl, rfl⟩

end Build

end EspMiner
