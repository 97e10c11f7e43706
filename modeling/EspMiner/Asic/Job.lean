import Mathlib.Data.Vector.Defs

/-!
# Common ASIC jobs

`components/mining_job`: the owned work record that every ASIC family receives,
its provenance inside the Bonanza bookkeeping, and the 80-byte block header it
stands for.  Fixed-width C integers are bit vectors of that width.
-/

namespace EspMiner

abbrev U8 := BitVec 8
abbrev U16 := BitVec 16
abbrev U32 := BitVec 32
abbrev U64 := BitVec 64

/-- `mining_job_source_t` -/
inductive MiningJobSource where
  | v1
  | sv2Standard
  | sv2Extended
deriving DecidableEq, Repr

/-- `asic_job_t`.  `poolDiff` is the bit pattern of the C `double`; nothing in
this development computes with it. -/
structure AsicJob where
  version : U32
  versionMask : U32
  prevHash : Vector U8 32
  merkleRoot : Vector U8 32
  ntime : U32
  nbits : U32
  startingNonce : U32
  poolDiff : U64
  poolId : U8
  sourceType : MiningJobSource
  jobId : Vector U8 32
  extranonce2 : Vector U8 65
deriving DecidableEq

/-- The all-zero record that `memset` leaves. -/
def AsicJob.zero : AsicJob where
  version := 0
  versionMask := 0
  prevHash := Vector.replicate 32 0
  merkleRoot := Vector.replicate 32 0
  ntime := 0
  nbits := 0
  startingNonce := 0
  poolDiff := 0
  poolId := 0
  sourceType := .v1
  jobId := Vector.replicate 32 0
  extranonce2 := Vector.replicate 65 0

/-- A `const asic_job_t *`: the address, which the job store compares, and the
job found there. -/
structure JobRef where
  address : Nat
  job : AsicJob
deriving DecidableEq

/-- `asic_job_context_t` -/
structure AsicJobContext where
  workGeneration : U64
  jobVersion : U32
  cleanJobs : Bool
  poolWork : Bool
deriving DecidableEq, Repr

def AsicJobContext.zero : AsicJobContext := ⟨0, 0, false, false⟩

/-- `(asic_job_context_t){.job_version = version}` -/
def AsicJobContext.ofVersion (version : U32) : AsicJobContext :=
  { AsicJobContext.zero with jobVersion := version }

/-- `write_le32`: the four bytes of a word, least significant first. -/
def writeLe32 (value : U32) : List U8 :=
  (List.range 4).map fun i => (value >>> (8 * i)).setWidth 8

/-- `asic_job_header` -/
def asicJobHeader (job : AsicJob) (nonce version : U32) : List U8 :=
  writeLe32 version ++ job.prevHash.toList ++ job.merkleRoot.toList ++
    writeLe32 job.ntime ++ writeLe32 job.nbits ++ writeLe32 nonce

@[simp] theorem length_writeLe32 (value : U32) : (writeLe32 value).length = 4 := by
  simp [writeLe32]

theorem length_asicJobHeader (job : AsicJob) (nonce version : U32) :
    (asicJobHeader job nonce version).length = 80 := by
  simp [asicJobHeader]

/-! ### Share submissions

`asic_share_submission_t` of `components/asic`, as the submission queue keeps
it: an owned record with its texts.  `components/stratum/utils.c` reads the
extranonce text back into bytes. -/

/-- `asic_share_submission_t`: what the submit functions read of it. -/
structure AsicShareSubmission where
  jobId : List U8
  extranonce2 : List U8
  nonce : U32
  ntime : U32
  finalVersion : U32
  versionBits : U32
  protocol : MiningJobSource
  poolId : U8
  workGeneration : U64
deriving DecidableEq

/-- `hex_val_table` -/
def hexVal (digit : U8) : Option Nat :=
  let code := digit.toNat
  if 48 ≤ code ∧ code ≤ 57 then some (code - 48)
  else if 97 ≤ code ∧ code ≤ 102 then some (code - 87)
  else if 65 ≤ code ∧ code ≤ 70 then some (code - 55)
  else none

/-- `hex2bin` into the start of an array: at most `count` bytes are written, and
a digit that is none ends it. -/
def hex2bin : Nat → List U8 → List U8 → List U8
  | count + 1, high :: low :: hex, byte :: bin =>
      match hexVal high, hexVal low with
      | some h, some l => BitVec.ofNat 8 (16 * h + l) :: hex2bin count hex bin
      | _, _ => byte :: bin
  | _, _, bin => bin

end EspMiner
