import EspMiner.Bzm.WorkHash

/-!
# Bitmain job packets

`components/asic/bitmain_job_packet.c`: the wire payload of a job.  The BM1397 is sent
midstates, one for each version it may try; the others are sent the header's fields.
-/

namespace EspMiner

open Library

/-- `reverse_32bit_words` on 32 bytes. -/
def reverse32bitWords (data : List U8) : List U8 :=
  (List.range 8).flatMap fun word =>
    (List.range 4).map fun byte => data.getD (4 * (7 - word) + byte) 0

@[simp] theorem length_reverse32bitWords (data : List U8) :
    (reverse32bitWords data).length = 32 := by
  simp [reverse32bitWords]

/-- Reversing the words twice leaves 32 bytes as they were. -/
theorem reverse32bitWords_twice {data : List U8} (h : data.length = 32) :
    reverse32bitWords (reverse32bitWords data) = data := by
  have htwice : reverse32bitWords (reverse32bitWords data) =
      (List.range 32).map fun i => data.getD i 0 := rfl
  rw [htwice]
  apply List.ext_getElem
  · simpa using h.symm
  · intro i _ hi
    rw [List.getElem_map, List.getElem_range, List.getD_eq_getElem _ _ hi]

/-- `bm13xx_job_packet_t` -/
structure Bm13xxJobPacket where
  jobId : U8
  numMidstates : U8
  startingNonce : List U8
  nbits : List U8
  ntime : List U8
  merkleRoot : List U8
  prevBlockHash : List U8
  version : List U8
deriving DecidableEq

/-- `bm13xx_build_job_packet` -/
def bm13xxBuildJobPacket (job : AsicJob) (jobId : U8) : Bm13xxJobPacket where
  jobId := jobId
  numMidstates := 1
  startingNonce := writeLe32 job.startingNonce
  nbits := writeLe32 job.nbits
  ntime := writeLe32 job.ntime
  merkleRoot := reverse32bitWords job.merkleRoot.toList
  prevBlockHash := reverse32bitWords job.prevHash.toList
  version := writeLe32 job.version

def BM1397_NUM_MIDSTATES : Nat := 4

/-- `bm1397_job_packet_t` -/
structure Bm1397JobPacket where
  jobId : U8
  numMidstates : U8
  startingNonce : List U8
  nbits : List U8
  ntime : List U8
  merkle4 : List U8
  midstates : List (List U8)
deriving DecidableEq

/-- What one pass of the loop in `bm1397_build_job_packet` writes for a version. -/
def bm1397Midstate (job : AsicJob) (version : U32) : List U8 :=
  reverse32bitWords (midstateSha256Bin ((asicJobHeader job job.startingNonce version).take 64))

/-- The passes of that loop behind the first, which left `version`; the loop ends early
where no version may be rolled. -/
def bm1397FurtherMidstates (job : AsicJob) : Nat → U32 → List (List U8)
  | 0, _ => []
  | passes + 1, version =>
      if job.versionMask = 0#32 then []
      else
        let version := incrementBitmask version job.versionMask
        bm1397Midstate job version :: bm1397FurtherMidstates job passes version

/-- The midstates that the loop writes. -/
def bm1397Midstates (job : AsicJob) : Nat → List (List U8)
  | 0 => []
  | passes + 1 => bm1397Midstate job job.version :: bm1397FurtherMidstates job passes job.version

/-- `bm1397_build_job_packet`: the midstates that are not written stay zero. -/
def bm1397BuildJobPacket (job : AsicJob) (jobId : U8) (softwareMidstates : U8) :
    Bm1397JobPacket :=
  let midstates := bm1397Midstates job (min softwareMidstates.toNat BM1397_NUM_MIDSTATES)
  { jobId := jobId
    numMidstates := BitVec.ofNat 8 midstates.length
    startingNonce := writeLe32 job.startingNonce
    nbits := writeLe32 job.nbits
    ntime := writeLe32 job.ntime
    merkle4 := job.merkleRoot.toList.drop 28
    midstates := midstates ++
      List.replicate (BM1397_NUM_MIDSTATES - midstates.length) (List.replicate 32 0) }

/-! ### The midstates of a packet -/

/-- The loop of `BM1397_process_work` that rolls a job's version to a midstate's. -/
def rolledVersionAt (job : AsicJob) (midstateIndex : Nat) : U32 :=
  (fun version => incrementBitmask version job.versionMask)^[midstateIndex] job.version

theorem length_bm1397FurtherMidstates_le (job : AsicJob) (passes : Nat) (version : U32) :
    (bm1397FurtherMidstates job passes version).length ≤ passes := by
  induction passes generalizing version with
  | zero => simp [bm1397FurtherMidstates]
  | succ passes ih =>
    rw [bm1397FurtherMidstates]
    split
    · simp
    · simpa using ih _

theorem getElem_bm1397FurtherMidstates (job : AsicJob) {passes i : Nat} {version : U32}
    (h : i < (bm1397FurtherMidstates job passes version).length) :
    (bm1397FurtherMidstates job passes version)[i] = bm1397Midstate job
      ((fun version => incrementBitmask version job.versionMask)^[i + 1] version) := by
  induction passes generalizing version i with
  | zero => simp [bm1397FurtherMidstates] at h
  | succ passes ih =>
    by_cases hmask : job.versionMask = 0#32
    · simp [bm1397FurtherMidstates, hmask] at h
    · cases i with
      | zero => simp [bm1397FurtherMidstates, hmask]
      | succ i =>
        have hlt : i < (bm1397FurtherMidstates job passes
            (incrementBitmask version job.versionMask)).length := by
          simpa [bm1397FurtherMidstates, hmask] using h
        simp only [bm1397FurtherMidstates, hmask, if_false, List.getElem_cons_succ]
        rw [ih hlt, ← Function.iterate_succ_apply]

theorem length_bm1397Midstates_le (job : AsicJob) (passes : Nat) :
    (bm1397Midstates job passes).length ≤ passes := by
  cases passes with
  | zero => simp [bm1397Midstates]
  | succ passes => simpa [bm1397Midstates] using length_bm1397FurtherMidstates_le _ _ _

/-- The builder rolls the version as the decoder does. -/
theorem getElem_bm1397Midstates (job : AsicJob) {passes i : Nat}
    (h : i < (bm1397Midstates job passes).length) :
    (bm1397Midstates job passes)[i] = bm1397Midstate job (rolledVersionAt job i) := by
  cases passes with
  | zero => simp [bm1397Midstates] at h
  | succ passes =>
    cases i with
    | zero => rfl
    | succ i =>
      have hlt : i < (bm1397FurtherMidstates job passes job.version).length := by
        simpa [bm1397Midstates] using h
      simp only [bm1397Midstates, List.getElem_cons_succ]
      exact getElem_bm1397FurtherMidstates job hlt

section Packet

variable (job : AsicJob) (jobId softwareMidstates : U8)

/-- Every midstate that a packet counts, by its version. -/
theorem midstates_bm1397BuildJobPacket {i : Nat}
    (h : i < (bm1397BuildJobPacket job jobId softwareMidstates).numMidstates.toNat) :
    (bm1397BuildJobPacket job jobId softwareMidstates).midstates.getD i [] =
      bm1397Midstate job (rolledVersionAt job i) := by
  have hle := length_bm1397Midstates_le job (min softwareMidstates.toNat BM1397_NUM_MIDSTATES)
  have hlt : i < (bm1397Midstates job
      (min softwareMidstates.toNat BM1397_NUM_MIDSTATES)).length := by
    have hcount : (bm1397BuildJobPacket job jobId softwareMidstates).numMidstates.toNat ≤
        (bm1397Midstates job (min softwareMidstates.toNat BM1397_NUM_MIDSTATES)).length := by
      simp only [bm1397BuildJobPacket, BitVec.toNat_ofNat]
      exact Nat.mod_le _ _
    exact h.trans_le hcount
  simp only [bm1397BuildJobPacket]
  rw [List.getD_append _ _ _ _ hlt, List.getD_eq_getElem _ _ hlt, getElem_bm1397Midstates job hlt]

end Packet

/-- **A midstate that was sent.**  With its words put back, it is SHA-256's state behind the
first 64 bytes of every header with that version. -/
theorem reverse32bitWords_bm1397Midstate (job : AsicJob) (nonce version : U32) :
    reverse32bitWords (bm1397Midstate job version) =
      (Sha256.compress Sha256.initialState
        (Sha256.blockWords ((asicJobHeader job nonce version).take 64))).digest := by
  have hblock := length_firstBlock job version
  rw [bm1397Midstate, take_asicJobHeader, take_asicJobHeader, midstateSha256Bin_eq hblock]
  exact reverse32bitWords_twice (Sha256.State.length_digest _)

end EspMiner
