import EspMiner.Bzm.Work
import EspMiner.Stratum.MidstateSha256

/-!
# Work hashes to what is checked

An engine has the midstate of a header and the words that follow, and finishes the
double hash from them for each nonce.  What `program_work` gives it is enough to
find the double hash that `mining_test_nonce_value` computes of the whole header.
-/

namespace EspMiner

open Library

/-! ### The engine's side -/

/-- The second block of an 80-byte message, from its first four words. -/
def secondBlock (residue time target nonce : U32) : List U32 :=
  [residue, time, target, nonce, 0x80000000] ++ List.replicate 10 0 ++ [640]

/-- The double hash that is finished from a midstate and the words behind it. -/
def finishDoubleHash (midstate : List U8) (residue time target nonce : U32) : List U8 :=
  sha256 (Sha256.compress (.ofDigest midstate) (secondBlock residue time target nonce)).digest

/-! ### Byte orders -/

theorem getLsbD_ff00 (i : Nat) : (0xff00#32).getLsbD i = (decide (8 ≤ i) && decide (i < 16)) := by
  by_cases h : i < 32
  · revert i
    decide
  · rw [BitVec.getLsbD_of_ge _ _ (by omega)]
    simp
    omega

/-- Bit by bit, a swapped word. -/
theorem getLsbD_bswap32 (value : U32) (i : Nat) :
    (bswap32 value).getLsbD i =
      (decide (24 ≤ i ∧ i < 32) && value.getLsbD (i - 24) ||
        decide (16 ≤ i ∧ i < 24) && value.getLsbD (i - 8) ||
        decide (8 ≤ i ∧ i < 16) && value.getLsbD (i + 8) ||
        decide (i < 8) && value.getLsbD (i + 24)) := by
  simp only [bswap32, BitVec.getLsbD_or, BitVec.getLsbD_and, BitVec.getLsbD_shiftLeft,
    BitVec.getLsbD_ushiftRight, getLsbD_ff00]
  grind

/-- The big-endian bytes of a swapped word are its little-endian bytes. -/
theorem wordBytes_bswap32 (value : U32) : Sha256.wordBytes (bswap32 value) = writeLe32 value := by
  have hwrite : writeLe32 value = [value.setWidth 8, (value >>> 8).setWidth 8,
      (value >>> 16).setWidth 8, (value >>> 24).setWidth 8] := by
    simp [writeLe32, List.range_succ]
  rw [hwrite]
  simp only [Sha256.wordBytes, List.cons.injEq, and_true]
  have hbyte : ∀ start shift, start + shift = 24 → shift % 8 = 0 →
      (bswap32 value).extractLsb' start 8 = (value >>> shift).setWidth 8 := by
    intro start shift hsum hmod
    apply BitVec.eq_of_getLsbD_eq
    intro i hi
    rw [BitVec.getLsbD_extractLsb', getLsbD_bswap32, BitVec.getLsbD_setWidth,
      BitVec.getLsbD_ushiftRight]
    grind
  exact ⟨hbyte 24 0 rfl rfl, hbyte 16 8 rfl rfl, hbyte 8 16 rfl rfl, hbyte 0 24 rfl rfl⟩

/-- Four bytes that a little-endian load put together are written back. -/
theorem writeLe32_or_shiftLeft (a b c d : U8) :
    writeLe32 (a.setWidth 32 ||| b.setWidth 32 <<< 8 ||| c.setWidth 32 <<< 16 |||
      d.setWidth 32 <<< 24) = [a, b, c, d] := by
  have hbytes : [a, b, c, d] = (List.range 4).map fun i => [a, b, c, d].getD i 0 := rfl
  rw [hbytes]
  apply List.map_congr_left
  intro i hi
  have hlt := List.mem_range.mp hi
  have hhigh : ∀ (x : U8) (bit : Nat), 8 ≤ bit → x.getLsbD bit = false :=
    fun x bit hbit => BitVec.getLsbD_of_ge x bit hbit
  apply BitVec.eq_of_getLsbD_eq
  intro bit hbit
  simp only [BitVec.getLsbD_setWidth, BitVec.getLsbD_ushiftRight, BitVec.getLsbD_or,
    BitVec.getLsbD_shiftLeft]
  obtain rfl | rfl | rfl | rfl : i = 0 ∨ i = 1 ∨ i = 2 ∨ i = 3 := by omega
  · grind
  · grind
  · grind
  · grind

/-- Four bytes of a long enough list. -/
theorem take_drop_eq_four {bytes : List U8} {start : Nat} (h : start + 4 ≤ bytes.length) :
    (bytes.drop start).take 4 = [bytes.getD start 0, bytes.getD (start + 1) 0,
      bytes.getD (start + 2) 0, bytes.getD (start + 3) 0] := by
  have hrange : [bytes.getD start 0, bytes.getD (start + 1) 0, bytes.getD (start + 2) 0,
      bytes.getD (start + 3) 0] = (List.range 4).map fun i => bytes.getD (start + i) 0 := rfl
  rw [hrange]
  apply List.ext_getElem
  · simp
    omega
  · intro i hi _
    have hlt : start + i < bytes.length := by
      simp at hi
      omega
    rw [List.getElem_take, List.getElem_drop, List.getElem_map, List.getElem_range,
      List.getD_eq_getElem _ _ hlt]

/-- The Merkle residue is read from the last four bytes of the root. -/
theorem writeLe32_merkleResidue (template : AsicJob) :
    writeLe32 (merkleResidue template) = template.merkleRoot.toList.drop 28 := by
  have hroot : (template.merkleRoot.toList.drop 28).take 4 = template.merkleRoot.toList.drop 28 :=
    List.take_of_length_le (by simp)
  have hfour : 28 + 4 ≤ template.merkleRoot.toList.length := by
    simp
  rw [← hroot, take_drop_eq_four hfour]
  exact writeLe32_or_shiftLeft _ _ _ _

/-! ### The header -/

/-- The first block of a header, which has neither the nonce nor the time in it. -/
def firstBlock (job : AsicJob) (version : U32) : List U8 :=
  writeLe32 version ++ job.prevHash.toList ++ job.merkleRoot.toList.take 28

theorem length_firstBlock (job : AsicJob) (version : U32) :
    (firstBlock job version).length = 64 := by
  simp [firstBlock]

theorem asicJobHeader_eq (job : AsicJob) (nonce version : U32) :
    asicJobHeader job nonce version = firstBlock job version ++
      (job.merkleRoot.toList.drop 28 ++ writeLe32 job.ntime ++ writeLe32 job.nbits ++
        writeLe32 nonce) := by
  simp only [asicJobHeader, firstBlock, List.append_assoc]
  rw [← List.append_assoc (job.merkleRoot.toList.take 28), List.take_append_drop]

theorem take_asicJobHeader (job : AsicJob) (nonce version : U32) :
    (asicJobHeader job nonce version).take 64 = firstBlock job version := by
  rw [asicJobHeader_eq, ← length_firstBlock job version, List.take_left']
  rfl

theorem drop_asicJobHeader (job : AsicJob) (nonce version : U32) :
    (asicJobHeader job nonce version).drop 64 = job.merkleRoot.toList.drop 28 ++
      writeLe32 job.ntime ++ writeLe32 job.nbits ++ writeLe32 nonce := by
  rw [asicJobHeader_eq, ← length_firstBlock job version, List.drop_left']
  rfl

/-- The second block of a header in the words that `program_work` writes. -/
theorem drop_asicJobHeader_eq_words (job : AsicJob) (nonce version : U32) :
    (asicJobHeader job nonce version).drop 64 = [bswap32 (merkleResidue job), bswap32 job.ntime,
      bswap32 job.nbits, bswap32 nonce].flatMap Sha256.wordBytes := by
  rw [drop_asicJobHeader, ← writeLe32_merkleResidue]
  simp only [List.flatMap_cons, List.flatMap_nil, wordBytes_bswap32, List.append_nil,
    List.append_assoc]

theorem padded_secondBlock (residue time target nonce : U32) :
    [residue, time, target, nonce].flatMap Sha256.wordBytes ++ Sha256.padding 80 =
      (secondBlock residue time target nonce).flatMap Sha256.wordBytes := by
  rfl

theorem length_secondBlock (residue time target nonce : U32) :
    ((secondBlock residue time target nonce).flatMap Sha256.wordBytes).length = 64 := rfl

theorem blockWords_secondBlock (residue time target nonce : U32) :
    Sha256.blockWords ((secondBlock residue time target nonce).flatMap Sha256.wordBytes) =
      secondBlock residue time target nonce :=
  Sha256.beWords_flatMap_wordBytes (secondBlock residue time target nonce)

/-- **The hash of a header** from the hash value behind its first block. -/
theorem sha256_asicJobHeader (job : AsicJob) (nonce version : U32) :
    sha256 (asicJobHeader job nonce version) =
      (Sha256.compress (Sha256.compress Sha256.initialState
          (Sha256.blockWords (firstBlock job version)))
        (secondBlock (bswap32 (merkleResidue job)) (bswap32 job.ntime) (bswap32 job.nbits)
          (bswap32 nonce))).digest := by
  have hlength := length_asicJobHeader job nonce version
  have hfirst : Sha256.blockWords (asicJobHeader job nonce version) =
      Sha256.blockWords (firstBlock job version) := by
    rw [asicJobHeader_eq]
    exact Sha256.beWords_append (length_firstBlock job version).ge _
  rw [sha256_of_midstate (by omega), hfirst, hlength, drop_asicJobHeader_eq_words,
    padded_secondBlock]
  rw [Sha256.absorb_of_le (length_secondBlock _ _ _ _).ge, blockWords_secondBlock,
    Sha256.absorb_of_lt]
  rw [List.length_drop, length_secondBlock]
  decide

/-! ### Midstates in the registers -/

/-- Swapping the bytes of each word twice leaves 32 bytes as they were. -/
theorem reverseEndiannessPerWord_twice {data : List U8} (h : data.length = 32) :
    reverseEndiannessPerWord (reverseEndiannessPerWord data) = data := by
  have htwice : reverseEndiannessPerWord (reverseEndiannessPerWord data) =
      (List.range 32).map fun i => data.getD i 0 := rfl
  rw [htwice]
  apply List.ext_getElem
  · simpa using h.symm
  · intro i _ hi
    rw [List.getElem_map, List.getElem_range, List.getD_eq_getElem _ _ hi]

/-- The midstate of a version, with its words swapped back. -/
theorem reverseEndiannessPerWord_bzmMidstate (template : AsicJob) (version : U32) :
    reverseEndiannessPerWord (bzmMidstate template version) =
      (Sha256.compress Sha256.initialState
        (Sha256.blockWords (firstBlock template version))).digest := by
  have hmidstate := midstateSha256Bin_eq (length_firstBlock template version)
  rw [bzmMidstate, take_asicJobHeader, hmidstate]
  exact reverseEndiannessPerWord_twice (Sha256.State.length_digest _)

attribute [local simp] BZM_REG_MIDSTATE BZM_REG_MERKLE_RESIDUE BZM_REG_START_TIMESTAMP
  BZM_REG_SEQUENCE_ID BZM_REG_JOB_CONTROL BZM_REG_START_NONCE BZM_REG_END_NONCE BZM_REG_TARGET
  BZM_REG_TIMESTAMP_COUNT BZM_REG_ZEROS_TO_FIND in
/-- Programming a work item writes its three header words once. -/
theorem BzmWork.program_words {work : BzmWork} {includeNonceRange : Bool}
    {writes : List BzmRegisterWrite} (h : work.program includeNonceRange = some writes) :
    bzmFifo BZM_REG_MERKLE_RESIDUE writes = [writeLe32 (bswap32 work.merkleResidue)] ∧
      bzmFifo BZM_REG_START_TIMESTAMP writes = [writeLe32 (bswap32 work.startNtime)] ∧
      bzmFifo BZM_REG_TARGET writes = [writeLe32 (bswap32 work.target)] := by
  unfold BzmWork.program at h
  split at h
  · cases h
  · obtain rfl := Option.some.inj h
    simp only [bzmFifo_append, bzmFifo_map]
    cases includeNonceRange <;> simp [bzmFifo_cons]

/-! ### The double hash -/

/-- With a PSA that computes SHA-256, `double_sha256_bin` of a header hashes twice. -/
theorem doubleSha256Bin_eq {psaHashCompute : List U8 → Option (List U8)}
    (hpsa : ∀ message : List U8, message.length ≤ 80 →
      psaHashCompute message = some (sha256 message)) {data : List U8} (h : data.length = 80) :
    doubleSha256Bin psaHashCompute data = sha256 (sha256 data) := by
  have hlength : ∀ message : List U8, (sha256 message).length = 32 :=
    fun message => Sha256.State.length_digest _
  have hbin : ∀ message : List U8, message.length ≤ 80 →
      sha256Bin psaHashCompute message = sha256 message := by
    intro message hle
    simp only [sha256Bin, hpsa message hle]
    rw [if_pos (hlength message)]
  rw [doubleSha256Bin, hbin data h.le, hbin _ (by rw [hlength]; decide)]

section Built

variable {source : AsicWork} {engineId : Nat} {logicalSequence timestampCount leadZeros : U8}
  {enhancedMode includeNonceRange : Bool} {work : BzmWork} {writes : List BzmRegisterWrite}

theorem bzmWorkBuild_words
    (h : bzmWorkBuild source engineId logicalSequence timestampCount leadZeros enhancedMode =
      some work) :
    work.merkleResidue = merkleResidue source.template.job ∧
      work.startNtime = source.template.job.ntime ∧ work.target = source.template.job.nbits := by
  unfold bzmWorkBuild at h
  split at h
  · cases h
  · have hwork := Option.some.inj h
    rw [← hwork]
    exact ⟨rfl, rfl, rfl⟩

/-- **Work hashes to what is checked.**  For every version of a built and programmed
work item, the midstate in its register, swapped back, is SHA-256's behind the first
64 bytes of the header, the three words written and the swapped nonce are the words
that follow, and the double hash finished from them is the one of the whole header
that the nonce is judged by. -/
theorem program_finishes_double_hash {α : Type} (psaHashCompute : List U8 → Option (List U8))
    (hashToPdiff : List U8 → α)
    (hpsa : ∀ message : List U8, message.length ≤ 80 →
      psaHashCompute message = some (sha256 message))
    (hbuild : bzmWorkBuild source engineId logicalSequence timestampCount leadZeros enhancedMode =
      some work)
    (hwrites : work.program includeNonceRange = some writes) :
    let job := source.template.job
    ∃ residue time target : U32,
      bzmFifo BZM_REG_MERKLE_RESIDUE writes = [writeLe32 residue] ∧
      bzmFifo BZM_REG_START_TIMESTAMP writes = [writeLe32 time] ∧
      bzmFifo BZM_REG_TARGET writes = [writeLe32 target] ∧
      (bzmFifo BZM_REG_MIDSTATE writes).length = work.versions.length ∧
      ∀ i, i < work.versions.length → ∀ nonce : U32,
        let version := work.versions.getD i 0
        let midstate := reverseEndiannessPerWord ((bzmFifo BZM_REG_MIDSTATE writes).getD i [])
        let header := asicJobHeader job nonce version
        midstate = (Sha256.compress Sha256.initialState
          (Sha256.blockWords (header.take 64))).digest ∧
        Sha256.beWords 4 (header.drop 64) = [residue, time, target, bswap32 nonce] ∧
        doubleSha256Bin psaHashCompute header =
          finishDoubleHash midstate residue time target (bswap32 nonce) ∧
        miningTestNonceValue (doubleSha256Bin psaHashCompute) hashToPdiff job nonce job.ntime
          version =
            hashToPdiff (finishDoubleHash midstate residue time target (bswap32 nonce)) := by
  intro job
  obtain ⟨hresidue, htime, htarget⟩ := BzmWork.program_words hwrites
  obtain ⟨hresidueBuilt, htimeBuilt, htargetBuilt⟩ := bzmWorkBuild_words hbuild
  obtain ⟨-, hbuilt⟩ := bzmWorkBuild_builtFrom hbuild
  obtain ⟨writes', hwrites', hmidstates⟩ := hbuilt.program_midstates includeNonceRange
  obtain rfl : writes' = writes := Option.some.inj (hwrites'.symm.trans hwrites)
  rw [hresidueBuilt] at hresidue
  rw [htimeBuilt] at htime
  rw [htargetBuilt] at htarget
  refine ⟨_, _, _, hresidue, htime, htarget, by rw [hmidstates, List.length_map], ?_⟩
  intro i hi nonce version midstate header
  have hversion : (bzmFifo BZM_REG_MIDSTATE writes').getD i [] = bzmMidstate job version := by
    rw [hmidstates, List.getD_eq_getElem _ _ (by rwa [List.length_map]), List.getElem_map]
    simp only [version, List.getD_eq_getElem _ _ hi]
    rfl
  have hmidstate : midstate = (Sha256.compress Sha256.initialState
      (Sha256.blockWords (firstBlock job version))).digest := by
    simp only [midstate, hversion]
    exact reverseEndiannessPerWord_bzmMidstate job version
  have hdouble : doubleSha256Bin psaHashCompute header = finishDoubleHash midstate
      (bswap32 (merkleResidue job)) (bswap32 job.ntime) (bswap32 job.nbits) (bswap32 nonce) := by
    rw [doubleSha256Bin_eq hpsa (length_asicJobHeader job nonce version), sha256_asicJobHeader,
      finishDoubleHash, hmidstate, Sha256.State.ofDigest_digest]
  refine ⟨?_, ?_, hdouble, ?_⟩
  · rw [hmidstate, take_asicJobHeader]
  · simp only [header, drop_asicJobHeader_eq_words]
    exact Sha256.beWords_flatMap_wordBytes _
  · exact congrArg hashToPdiff hdouble

end Built

theorem program_finishes_double_hash_fourth_version :
    ∃ work writes, bzmWorkBuild ⟨1, ⟨0, AsicJob.zero⟩⟩ 0 0 0 32 true = some work ∧
      work.program true = some writes ∧
      ∃ residue time target : U32,
        doubleSha256Bin (fun message => some (sha256 message))
            (asicJobHeader AsicJob.zero 7 (work.versions.getD 3 0)) =
          finishDoubleHash
            (reverseEndiannessPerWord ((bzmFifo BZM_REG_MIDSTATE writes).getD 3 []))
            residue time target (bswap32 7) := by
  obtain ⟨work, hbuild⟩ : ∃ work,
      bzmWorkBuild ⟨1, ⟨0, AsicJob.zero⟩⟩ 0 0 0 32 true = some work :=
    bzmWorkBuild_isSome (by decide) (by decide) (by decide)
  obtain ⟨-, hbuilt⟩ := bzmWorkBuild_builtFrom hbuild
  obtain ⟨writes, hwrites, -⟩ := hbuilt.program_midstates true
  obtain ⟨residue, time, target, -, -, -, -, hversions⟩ :=
    program_finishes_double_hash (fun message => some (sha256 message)) id
      (fun _ _ => rfl) hbuild hwrites
  have hthird : 3 < work.versions.length := by
    rw [hbuilt.length_versions]
    decide
  exact ⟨work, writes, hbuild, hwrites, residue, time, target, (hversions 3 hthird 7).2.2.1⟩

end EspMiner
