import EspMiner.Main.StratumV1Client
import EspMiner.Stratum.MiningJobHex
import Mathlib.Data.Option.Basic

/-!
# The two job builders agree

A notification reaches the hexadecimal builder as its texts, and the binary builder as the job that
the Stratum V1 client parsed from the same texts.  Each builder is brought to one closed form,
`builtJob`; without memory for the coinbase one of them fails and the other goes on with a hash of
zeros.
-/

namespace EspMiner

open Library

/-! ## Texts in arrays -/

theorem getElem_ofFn_getD {n : Nat} (bytes : List U8) (i : Nat)
    (h : i < (Vector.ofFn (n := n) fun i => bytes.getD i 0).toList.length) :
    (Vector.ofFn (n := n) fun i => bytes.getD i 0).toList[i] = bytes.getD i 0 := by
  simp

/-- A shorter text is followed by zeros. -/
theorem toList_strcpyZeroed {size : Nat} {text : List U8}
    (h : (text.takeWhile (· ≠ 0#8)).length < size) :
    ∃ zeros, (strcpyZeroed size text).toList = text.takeWhile (· ≠ 0#8) ++ 0#8 :: zeros := by
  refine ⟨List.replicate (size - (text.takeWhile (· ≠ 0#8)).length - 1) 0#8, ?_⟩
  rw [← List.replicate_succ]
  refine List.ext_getElem ?_ fun i hi hi' => ?_
  · rw [Vector.length_toList, List.length_append, List.length_replicate]
    omega
  · have hget : (strcpyZeroed size text).toList[i] = (text.takeWhile (· ≠ 0#8)).getD i 0 :=
      getElem_ofFn_getD _ i hi
    rw [hget, List.getD_eq_getElem?_getD, List.getElem_append]
    split
    · next hlt => rw [List.getElem?_eq_getElem hlt, Option.getD_some]
    · next hge =>
      rw [List.getElem?_eq_none (Nat.le_of_not_lt hge), List.getElem_replicate]
      rfl

/-- The text of an array that it was copied into. -/
theorem cString_strcpyZeroed {size : Nat} {text : List U8}
    (h : (text.takeWhile (· ≠ 0#8)).length < size) :
    cString (strcpyZeroed size text).toList = text.takeWhile (· ≠ 0#8) := by
  obtain ⟨zeros, hzeros⟩ := toList_strcpyZeroed h
  have hbytes : ∀ byte ∈ text.takeWhile (· ≠ 0#8), decide (byte ≠ 0#8) = true :=
    fun byte hbyte => @List.mem_takeWhile_imp _ (fun byte => decide (byte ≠ 0#8)) _ _ hbyte
  rw [hzeros, cString, List.takeWhile_append_of_pos hbytes,
    List.takeWhile_cons_of_neg (by decide), List.append_nil]

/-- Copying an array's text once more changes nothing. -/
theorem strcpyZeroed_strcpyZeroed {size : Nat} {text : List U8}
    (h : (text.takeWhile (· ≠ 0#8)).length < size) :
    strcpyZeroed size (strcpyZeroed size text).toList = strcpyZeroed size text := by
  have htext : ((strcpyZeroed size text).toList.takeWhile (· ≠ 0#8)) =
      text.takeWhile (· ≠ 0#8) := cString_strcpyZeroed h
  unfold strcpyZeroed at htext ⊢
  rw [htext]

theorem takeWhile_terminated (text : List U8) :
    (text ++ [0#8]).takeWhile (· ≠ 0#8) = text.takeWhile (· ≠ 0#8) := by
  rw [List.takeWhile_append]
  split
  · next hall =>
    rw [List.takeWhile_cons_of_neg (by decide), List.append_nil]
    exact (List.IsPrefix.eq_of_length (List.takeWhile_prefix _) hall).symm
  · rfl

/-- The first bytes of an array that a list was written into. -/
theorem take_bytes32 {bytes more : List U8} (h : bytes.length ≤ 32) :
    (bytes32 (bytes ++ more)).toList.take bytes.length = bytes := by
  refine List.ext_getElem (by simp [h]) fun i hi hi' => ?_
  have hget := getElem_ofFn_getD (n := 32) (bytes ++ more) i (by simp; omega)
  rw [List.getElem_take]
  refine hget.trans ?_
  rw [List.getD_eq_getElem?_getD, List.getElem?_append_left hi', List.getElem?_eq_getElem hi',
    Option.getD_some]

theorem take_copyBytes {count : Nat} (src dest : Vector U8 32) :
    (copyBytes count src dest).toList.take count = src.toList.take count := by
  refine List.ext_getElem (by simp) fun i hi hi' => ?_
  rw [List.length_take, Vector.length_toList] at hi
  have hget := copyBytes_get count src dest ⟨i, by omega⟩
  rw [if_pos (show i < count by omega)] at hget
  rw [List.getElem_take, List.getElem_take, Vector.getElem_toList, Vector.getElem_toList]
  exact hget

/-! ## The job that is parsed from the same fields -/

/-- What `parse_mining_notify` checks of the texts. -/
structure MiningNotify.Valid (notify : MiningNotify) : Prop where
  jobId : notify.jobId.length < MAX_JOB_ID_LEN
  prevHash : HexText notify.prevHash ∧ notify.prevHash.length = 64
  coinbase1 : HexText notify.coinbase1 ∧ notify.coinbase1.length ≤ MAX_COINBASE_PREFIX_LEN * 2
  coinbase2 : HexText notify.coinbase2 ∧ notify.coinbase2.length ≤ MAX_COINBASE_SUFFIX_LEN * 2
  branches : notify.merkleBranch.length ≤ MAX_MERKLE_BRANCHES

/-- The same fields for the hexadecimal builder, with the version to build for. -/
def MiningNotify.hexNotify (notify : MiningNotify) (version : U32) : HexMiningNotify where
  jobId := notify.jobId
  prevBlockHash := notify.prevHash
  coinbase1 := notify.coinbase1
  coinbase2 := notify.coinbase2
  merkleBranches := notify.merkleBranch.map fun branch => bytes32 (hexBytes 32 branch)
  version := version
  target := notify.nbits
  ntime := notify.ntime
  cleanJobs := notify.cleanJobs

/-- The job that the client hands on for a notification, after the pool has set an
extranonce1 and the length of an extranonce2. -/
def parsedJob (conn : Sv1Conn) (extranonce1 : List U8) (extranonce2Len : Nat)
    (notify : MiningNotify) : MinerJob :=
  (conn.setExtranonce { StratumApiV1Message.reset with
    method := .miningSetExtranonce
    extranonceStr := some extranonce1
    extranonce2Len := extranonce2Len }).configureJob notify.job

section Parsed

variable (conn : Sv1Conn) {extranonce1 : List U8} {extranonce2Len : Nat} {notify : MiningNotify}

theorem parsedJob_eq (he1 : HexText extranonce1) (hlength1 : extranonce1.length ≤ 64)
    (hlength2 : extranonce2Len ≤ ASIC_JOB_EXTRANONCE2_SIZE) :
    parsedJob conn extranonce1 extranonce2Len notify = { notify.job with
      poolId := conn.poolIdx
      poolDiff := conn.poolDifficulty
      versionMask := conn.versionMask
      extranonce1Len := BitVec.ofNat 8 (decodeHex extranonce1).length
      extranonce1 := copyBytes (decodeHex extranonce1).length
        (bytes32 (decodeHex extranonce1 ++
          conn.extranonce1.toList.drop (decodeHex extranonce1).length)) notify.job.extranonce1
      extranonce2Len := BitVec.ofNat 8 extranonce2Len } := by
  have hsize : ASIC_JOB_EXTRANONCE2_SIZE = 32 := rfl
  have hmax : MAX_EXTRANONCE_2_LEN = 32 := rfl
  obtain ⟨hwritten, -, hhalf⟩ := @hex2bin_hexText _ he1 (min (extranonce1.length / 2) 32)
    conn.extranonce1.toList (by have := he1.1; omega)
    (by rw [Vector.length_toList]; omega)
  have hlen : min (extranonce1.length / 2) 32 = (decodeHex extranonce1).length := by omega
  have hbyte : (BitVec.ofNat 8 (decodeHex extranonce1).length).toNat
      = (decodeHex extranonce1).length := by
    rw [BitVec.toNat_ofNat, Nat.mod_eq_of_lt (by omega)]
  have hset : conn.setExtranonce { StratumApiV1Message.reset with
      method := .miningSetExtranonce
      extranonceStr := some extranonce1
      extranonce2Len := extranonce2Len } = { conn with
        subscribed := conn.subscribed
        extranonce2Len := BitVec.ofNat 8 extranonce2Len
        extranonce1 := bytes32 (decodeHex extranonce1 ++
          conn.extranonce1.toList.drop (decodeHex extranonce1).length)
        extranonce1Len := BitVec.ofNat 8 (decodeHex extranonce1).length } := by
    unfold Sv1Conn.setExtranonce
    rw [if_neg (by dsimp only; omega), if_neg (by rintro ⟨hmethod, -⟩; cases hmethod)]
    dsimp only
    rw [Option.getD_some, hwritten, hlen]
    simp
  unfold parsedJob
  rw [hset]
  unfold Sv1Conn.configureJob
  dsimp only
  rw [hbyte]

/-- The coinbase of the parsed job is what the texts decode to. -/
theorem parsedJob_coinbase (h : notify.Valid) (he1 : HexText extranonce1)
    (hlength1 : extranonce1.length ≤ 64) (hlength2 : extranonce2Len ≤ ASIC_JOB_EXTRANONCE2_SIZE) :
    let job := parsedJob conn extranonce1 extranonce2Len notify
    job.coinbasePrefix.take job.coinbasePrefixLen.toNat = decodeHex notify.coinbase1 ∧
      job.coinbaseSuffix.take job.coinbaseSuffixLen.toNat = decodeHex notify.coinbase2 ∧
      job.extranonce1.toList.take job.extranonce1Len.toNat = decodeHex extranonce1 ∧
      job.extranonce1Len.toNat ≤ 32 ∧ job.extranonce2Len.toNat = extranonce2Len := by
  have hsize : ASIC_JOB_EXTRANONCE2_SIZE = 32 := rfl
  have hpre : MAX_COINBASE_PREFIX_LEN = 1024 := rfl
  have hsuffix : MAX_COINBASE_SUFFIX_LEN = 64512 := rfl
  obtain ⟨hhex1, hmax1⟩ := h.coinbase1
  obtain ⟨hhex2, hmax2⟩ := h.coinbase2
  have hhalf1 := two_mul_length_decodeHex hhex1
  have hhalf2 := two_mul_length_decodeHex hhex2
  have hhalfE := two_mul_length_decodeHex he1
  have htake : ∀ {text : List U8}, HexText text → text.length / 2 < 65536 →
      (hexBytes (text.length / 2) text).take (BitVec.ofNat 16 (text.length / 2)).toNat
        = decodeHex text := by
    intro text htext hbound
    have := two_mul_length_decodeHex htext
    rw [hexBytes_hexText htext, BitVec.toNat_ofNat, Nat.mod_eq_of_lt hbound,
      List.take_of_length_le (by omega)]
  have hbyte : (BitVec.ofNat 8 (decodeHex extranonce1).length).toNat
      = (decodeHex extranonce1).length := by
    rw [BitVec.toNat_ofNat, Nat.mod_eq_of_lt (by omega)]
  dsimp only
  rw [parsedJob_eq conn he1 hlength1 hlength2]
  refine ⟨htake hhex1 (by omega), htake hhex2 (by omega), ?_, ?_, ?_⟩
  · dsimp only
    rw [hbyte, take_copyBytes, take_bytes32 (by omega)]
  · dsimp only
    omega
  · dsimp only
    rw [BitVec.toNat_ofNat, Nat.mod_eq_of_lt (by omega)]

/-- The Merkle path of the parsed job is that of the notification. -/
theorem parsedJob_merklePath (h : notify.Valid) (he1 : HexText extranonce1)
    (hlength1 : extranonce1.length ≤ 64) (hlength2 : extranonce2Len ≤ ASIC_JOB_EXTRANONCE2_SIZE) :
    let job := parsedJob conn extranonce1 extranonce2Len notify
    job.merklePathCount.toNat ≤ MAX_MERKLE_BRANCHES ∧
      job.merklePath.toList.take job.merklePathCount.toNat
        = notify.merkleBranch.map fun branch => bytes32 (hexBytes 32 branch) := by
  have hbranches := h.branches
  have hmax : MAX_MERKLE_BRANCHES = 32 := rfl
  have hcount : (BitVec.ofNat 8 notify.merkleBranch.length).toNat = notify.merkleBranch.length := by
    rw [BitVec.toNat_ofNat, Nat.mod_eq_of_lt (by omega)]
  dsimp only
  rw [parsedJob_eq conn he1 hlength1 hlength2]
  unfold MiningNotify.job
  dsimp only
  rw [hcount]
  refine ⟨hbranches, List.ext_getElem ?_ fun i hi hi' => ?_⟩
  · rw [List.length_take, Vector.length_toList, List.length_map]
    omega
  · rw [List.length_map] at hi'
    rw [List.getElem_take, Vector.getElem_toList, Vector.getElem_ofFn, List.getElem_map,
      List.getD_eq_getElem?_getD, List.getElem?_eq_getElem hi', Option.getD_some]

end Parsed

/-! ## Both builders -/

theorem copyMetadata_jobId {job : AsicJob} {jobId extranonce2 : List U8}
    (hjobId : jobId.length < MAX_JOB_ID_LEN) (hextranonce2 : extranonce2.length < 65) :
    copyMetadata job (jobId ++ [0#8]) extranonce2 = some { job with
        jobId := strcpyZeroed 32 jobId
        extranonce2 := strcpyZeroed 65 extranonce2 } ∧
      copyMetadata job (strcpyZeroed 32 jobId).toList extranonce2 = some { job with
        jobId := strcpyZeroed 32 jobId
        extranonce2 := strcpyZeroed 65 extranonce2 } := by
  have hmax : MAX_JOB_ID_LEN = 32 := rfl
  have hshort : (jobId.takeWhile (· ≠ 0#8)).length < 32 :=
    Nat.lt_of_le_of_lt (List.takeWhile_prefix _).length_le (hmax ▸ hjobId)
  have hlong : ¬ 65 ≤ extranonce2.length := Nat.not_le.mpr hextranonce2
  have hterminated : strcpyZeroed 32 (jobId ++ [0#8]) = strcpyZeroed 32 jobId := by
    unfold strcpyZeroed
    rw [takeWhile_terminated]
  constructor
  · have hnul : 0#8 ∈ (jobId ++ [0#8]).take 32 := by
      rw [List.take_of_length_le (by rw [List.length_append, List.length_singleton]; omega)]
      exact List.mem_append_right _ List.mem_cons_self
    unfold copyMetadata
    rw [if_neg (not_or.mpr ⟨not_not.mpr hnul, hlong⟩), hterminated]
  · have hnul : 0#8 ∈ (strcpyZeroed 32 jobId).toList.take 32 := by
      rw [List.take_of_length_le (by rw [Vector.length_toList])]
      obtain ⟨zeros, hzeros⟩ := toList_strcpyZeroed hshort
      rw [hzeros]
      exact List.mem_append_right _ List.mem_cons_self
    unfold copyMetadata
    rw [if_neg (not_or.mpr ⟨not_not.mpr hnul, hlong⟩), strcpyZeroed_strcpyZeroed hshort]

section Agreement

variable (doubleSha256Bin : List U8 → Vector U8 32)
variable (canAllocate : Nat → Bool)
variable (memory : Nat → U8)
variable (conn : Sv1Conn) {notify : MiningNotify} {extranonce1 : List U8}

/-- The coinbase that the texts and an extranonce2 stand for. -/
def coinbaseBytes (notify : MiningNotify) (extranonce1 extranonce2 : List U8) : List U8 :=
  decodeHex notify.coinbase1 ++ decodeHex extranonce1 ++ extranonce2 ++ decodeHex notify.coinbase2

/-- The Merkle root over a coinbase hash. -/
def notifyMerkleRoot (notify : MiningNotify) (coinbaseHash : Vector U8 32) : Vector U8 32 :=
  calculateMerkleRootHash doubleSha256Bin coinbaseHash
    (notify.merkleBranch.map fun branch => bytes32 (hexBytes 32 branch))

/-- What both builders fill in. -/
def builtJob (notify : MiningNotify) (version versionMask : U32) (difficulty : U64) (poolId : U8)
    (merkleRoot : Vector U8 32) (extranonce2 : List U8) : AsicJob :=
  { AsicJob.zero with
    version := version
    versionMask := versionMask
    ntime := notify.ntime
    nbits := notify.nbits
    sourceType := .v1
    poolId := poolId
    poolDiff := difficulty
    merkleRoot := merkleRoot
    prevHash := bytes32 (reverseEndiannessPerWord (hexBytes 32 notify.prevHash))
    jobId := strcpyZeroed 32 notify.jobId
    extranonce2 := strcpyZeroed 65 extranonce2 }

/-- The hexadecimal builder always answers; without memory for the coinbase its Merkle
root is over a hash of zeros. -/
theorem miningBuildAsicJobSv1_eq (h : notify.Valid) (he1 : HexText extranonce1)
    {extranonce2Len : U32} (hlength2 : extranonce2Len.toNat ≤ ASIC_JOB_EXTRANONCE2_SIZE)
    (counter : U64) (version versionMask : U32) (difficulty : U64) {coinbase : List U8}
    (hcoinbase : coinbase
      = coinbaseBytes notify extranonce1 (extranonce2Bin extranonce2Len.toNat counter)) :
    miningBuildAsicJobSv1 doubleSha256Bin canAllocate memory (notify.hexNotify version) extranonce1
        extranonce2Len counter versionMask difficulty
      = some (builtJob notify version versionMask difficulty 0
          (notifyMerkleRoot doubleSha256Bin notify
            (if 1024 < coinbase.length ∧ canAllocate coinbase.length = false then
              Vector.replicate 32 0 else doubleSha256Bin coinbase))
          (extranonce2Generate counter extranonce2Len.toNat)) := by
  have hsize : ASIC_JOB_EXTRANONCE2_SIZE = 32 := rfl
  obtain ⟨hprevHex, hprevLength⟩ := h.prevHash
  have hreturned : hex2binReturn 32 notify.prevHash = 32 := by
    obtain ⟨-, hreturned, hhalf⟩ := @hex2bin_hexText _ hprevHex 32
      (List.replicate 32 0) (by omega) (by rw [List.length_replicate]; omega)
    omega
  have hlength : (extranonce2Generate counter extranonce2Len.toNat).length < 65 := by
    rw [extranonce2Generate_eq, length_bin2hex, length_extranonce2Bin]
    omega
  have he2 : HexText (extranonce2Generate counter extranonce2Len.toNat) :=
    (extranonce2Generate_eq counter extranonce2Len.toNat).symm ▸ hexText_bin2hex _
  have hdecoded : coinbase = decodeHex notify.coinbase1 ++ decodeHex extranonce1 ++
      decodeHex (extranonce2Generate counter extranonce2Len.toNat) ++
        decodeHex notify.coinbase2 := by
    rw [hcoinbase, extranonce2Generate_eq, decodeHex_bin2hex]
    rfl
  have hhash := calculateCoinbaseTxHash_hexText doubleSha256Bin canAllocate memory h.coinbase1.1
    h.coinbase2.1 he1 he2 hdecoded
  unfold miningBuildAsicJobSv1 MiningNotify.hexNotify
  dsimp only
  rw [if_neg (Nat.not_lt.mpr hlength2), if_neg (not_not.mpr hreturned), hhash]
  exact (copyMetadata_jobId h.jobId hlength).1

/-- The binary builder fails without memory for the coinbase. -/
theorem miningBuildAsicJob_eq (h : notify.Valid) (he1 : HexText extranonce1)
    (hlength1 : extranonce1.length ≤ 64)
    {extranonce2Len : Nat} (hlength2 : extranonce2Len ≤ ASIC_JOB_EXTRANONCE2_SIZE)
    (counter : U64) {version : U32} (hversion : version ≠ 0) {coinbase : List U8}
    (hcoinbase : coinbase
      = coinbaseBytes notify extranonce1 (extranonce2Bin extranonce2Len counter)) :
    miningBuildAsicJob doubleSha256Bin canAllocate
        (parsedJob conn extranonce1 extranonce2Len notify) counter version
      = if 1024 < coinbase.length ∧ canAllocate coinbase.length = false then none
        else some (builtJob notify version conn.versionMask conn.poolDifficulty conn.poolIdx
          (notifyMerkleRoot doubleSha256Bin notify (doubleSha256Bin coinbase))
          (extranonce2Generate counter extranonce2Len)) := by
  have hsize : ASIC_JOB_EXTRANONCE2_SIZE = 32 := rfl
  have hmax : MAX_JOB_ID_LEN = 32 := rfl
  obtain ⟨hpre, hsuffix, hextranonce1, hlen1, hlen2⟩ :=
    parsedJob_coinbase conn h he1 hlength1 hlength2
  obtain ⟨hcount, hpath⟩ := parsedJob_merklePath conn h he1 hlength1 hlength2
  have hfields : (parsedJob conn extranonce1 extranonce2Len notify).type = .v1 ∧
      (parsedJob conn extranonce1 extranonce2Len notify).jobId = strcpyZeroed 32 notify.jobId ∧
      (parsedJob conn extranonce1 extranonce2Len notify).versionMask = conn.versionMask ∧
      (parsedJob conn extranonce1 extranonce2Len notify).ntime = notify.ntime ∧
      (parsedJob conn extranonce1 extranonce2Len notify).nbits = notify.nbits ∧
      (parsedJob conn extranonce1 extranonce2Len notify).poolId = conn.poolIdx ∧
      (parsedJob conn extranonce1 extranonce2Len notify).poolDiff = conn.poolDifficulty ∧
      (parsedJob conn extranonce1 extranonce2Len notify).prevHash
        = bytes32 (reverseEndiannessPerWord (hexBytes 32 notify.prevHash)) := by
    rw [parsedJob_eq conn he1 hlength1 hlength2]
    exact ⟨rfl, rfl, rfl, rfl, rfl, rfl, rfl, rfl⟩
  obtain ⟨htype, hjobId, hmask, hntime, hnbits, hpool, hdiff, hprev⟩ := hfields
  have hshort : (notify.jobId.takeWhile (· ≠ 0#8)).length < 32 :=
    Nat.lt_of_le_of_lt (List.takeWhile_prefix _).length_le (hmax ▸ h.jobId)
  have hnul : 0#8 ∈ (strcpyZeroed 32 notify.jobId).toList := by
    obtain ⟨zeros, hzeros⟩ := toList_strcpyZeroed hshort
    rw [hzeros]
    exact List.mem_append_right _ List.mem_cons_self
  have hlength : (bin2hex (extranonce2Bin extranonce2Len counter)).length < 65 := by
    rw [length_bin2hex, length_extranonce2Bin]
    omega
  unfold miningBuildAsicJob miningMerkleRoot calculateCoinbaseTxHashBin
  rw [hpre, hsuffix, hextranonce1, hlen2, hpath, htype, hjobId, hmask, hntime, hnbits, hpool,
    hdiff, hprev, if_neg (by
      rintro (hmem | hlarge | hlarge | hlarge)
      · exact hmem hnul
      · omega
      · omega
      · omega), if_neg (by decide), if_pos hversion, extranonce2Generate_eq]
  have hbytes : decodeHex notify.coinbase1 ++ decodeHex extranonce1 ++
      extranonce2Bin extranonce2Len counter ++ decodeHex notify.coinbase2 = coinbase :=
    hcoinbase.symm
  by_cases hmemory : 1024 < coinbase.length ∧ canAllocate coinbase.length = false
  · simp only [hbytes, if_pos hmemory, Option.map_none]
  · simp only [hbytes, if_neg hmemory, Option.map_some]
    exact (copyMetadata_jobId h.jobId hlength).2

theorem writeDestination_failed (built : Option AsicJob) (destination : AsicJob)
    (h : (writeDestination built destination).1 = false) :
    (writeDestination built destination).2 = destination := by
  cases built with
  | none => rfl
  | some built => cases h

/-- Two jobs for the same work: the header, the id and the extranonce2 are equal. -/
def SameWork (built built' : AsicJob) : Prop :=
  built.version = built'.version ∧ built.ntime = built'.ntime ∧ built.nbits = built'.nbits ∧
    built.prevHash = built'.prevHash ∧ built.merkleRoot = built'.merkleRoot ∧
    built.jobId = built'.jobId ∧ built.extranonce2 = built'.extranonce2

/-- Both builders succeed with the same work, and the text of its extranonce2 decodes to
the bytes in the coinbase under its Merkle root. -/
def BuildersAgree (notify : MiningNotify) (extranonce1 : List U8) (extranonce2Len : Nat)
    (hexJob binaryJob : Option AsicJob) : Prop :=
  ∃ built built', hexJob = some built ∧ binaryJob = some built' ∧ SameWork built built' ∧
    built.merkleRoot = notifyMerkleRoot doubleSha256Bin notify
      (doubleSha256Bin (coinbaseBytes notify extranonce1
        (hexBytes extranonce2Len (cString built.extranonce2.toList))))

theorem cString_extranonce2 {counter : U64} {length : Nat} (h : length ≤ 32) :
    cString (strcpyZeroed 65 (extranonce2Generate counter length)).toList
      = extranonce2Generate counter length := by
  have hnul : ∀ digit ∈ extranonce2Generate counter length, decide (digit ≠ 0#8) = true := by
    intro digit hdigit
    rw [extranonce2Generate_eq] at hdigit
    exact decide_eq_true (mem_bin2hex hdigit).2
  have hwhole := List.takeWhile_eq_self_iff.mpr hnul
  rw [cString_strcpyZeroed, hwhole]
  rw [hwhole, extranonce2Generate_eq, length_bin2hex, length_extranonce2Bin]
  omega

theorem hexBytes_extranonce2Generate (counter : U64) (length : Nat) :
    hexBytes length (extranonce2Generate counter length) = extranonce2Bin length counter := by
  have hhex := hexText_bin2hex (extranonce2Bin length counter)
  have hdecoded := hexBytes_hexText hhex
  rwa [length_bin2hex, length_extranonce2Bin, Nat.mul_div_cancel_left _ (by decide),
    decodeHex_bin2hex, ← extranonce2Generate_eq] at hdecoded

/-- The Merkle root over a hash of zeros is that over the hash of the coinbase. -/
def RootOfZeros (notify : MiningNotify) (coinbase : List U8) : Prop :=
  notifyMerkleRoot doubleSha256Bin notify (Vector.replicate 32 0) =
    notifyMerkleRoot doubleSha256Bin notify (doubleSha256Bin coinbase)

/-- **The two job builders agree** just when there is memory for the coinbase: without it
the binary builder fails, while the hexadecimal builder goes on with a hash of zeros,
which can only do by chance.  A builder that fails leaves its destination as it is, and
counters that the extranonce2 can hold give different texts. -/
theorem mining_builders_agree_iff (hexAllocates binaryAllocates : Nat → Bool) (h : notify.Valid)
    (he1 : isHexString extranonce1 0 64 true = true) {extranonce2Len : U32}
    (hlength2 : extranonce2Len.toNat ≤ ASIC_JOB_EXTRANONCE2_SIZE) {version : U32}
    (hversion : version ≠ 0) :
    let hexJob := fun counter => miningBuildAsicJobSv1 doubleSha256Bin hexAllocates memory
      (notify.hexNotify version) extranonce1 extranonce2Len counter conn.versionMask
      conn.poolDifficulty
    let binaryJob := fun counter => miningBuildAsicJob doubleSha256Bin binaryAllocates
      (parsedJob conn extranonce1 extranonce2Len.toNat notify) counter version
    let coinbaseLength := (notify.coinbase1.length + extranonce1.length
      + 2 * extranonce2Len.toNat + notify.coinbase2.length) / 2
    (∀ counter, BuildersAgree doubleSha256Bin notify extranonce1 extranonce2Len.toNat
        (hexJob counter) (binaryJob counter) ↔
      (coinbaseLength ≤ 1024 ∨ binaryAllocates coinbaseLength = true ∧
        (hexAllocates coinbaseLength = true ∨ RootOfZeros doubleSha256Bin notify
          (coinbaseBytes notify extranonce1 (extranonce2Bin extranonce2Len.toNat counter))))) ∧
    (∀ counter destination,
      ((writeDestination (hexJob counter) destination).1 = false →
        (writeDestination (hexJob counter) destination).2 = destination) ∧
      ((writeDestination (binaryJob counter) destination).1 = false →
        (writeDestination (binaryJob counter) destination).2 = destination)) ∧
    ∀ counter counter' built built', hexJob counter = some built → hexJob counter' = some built' →
      counter.toNat < 256 ^ min extranonce2Len.toNat 8 →
      counter'.toNat < 256 ^ min extranonce2Len.toNat 8 → counter ≠ counter' →
      cString built.extranonce2.toList ≠ cString built'.extranonce2.toList := by
  have hsize : ASIC_JOB_EXTRANONCE2_SIZE = 32 := rfl
  obtain ⟨hhexE, -, hlength1⟩ := HexText.of_isHexString he1
  dsimp only
  refine ⟨fun counter => ?_, fun counter destination =>
      ⟨writeDestination_failed _ destination, writeDestination_failed _ destination⟩,
    fun counter counter' built built' hbuilt hbuilt' hlt hlt' hne heq => hne ?_⟩
  · obtain ⟨coinbase, hcoinbase⟩ : ∃ coinbase, coinbase = coinbaseBytes notify extranonce1
      (extranonce2Bin extranonce2Len.toNat counter) := ⟨_, rfl⟩
    have hlength : coinbase.length = (notify.coinbase1.length + extranonce1.length
        + 2 * extranonce2Len.toNat + notify.coinbase2.length) / 2 := by
      rw [← two_mul_length_decodeHex h.coinbase1.1, ← two_mul_length_decodeHex h.coinbase2.1,
        ← two_mul_length_decodeHex hhexE, hcoinbase, coinbaseBytes]
      simp only [List.length_append, length_extranonce2Bin]
      omega
    rw [miningBuildAsicJobSv1_eq doubleSha256Bin hexAllocates memory h hhexE hlength2 counter
      version conn.versionMask conn.poolDifficulty hcoinbase,
      miningBuildAsicJob_eq doubleSha256Bin binaryAllocates conn h hhexE hlength1 hlength2 counter
        hversion hcoinbase, ← hlength, ← hcoinbase]
    by_cases hfails : 1024 < coinbase.length ∧ binaryAllocates coinbase.length = false
    · rw [if_pos hfails]
      constructor
      · rintro ⟨_, _, _, hnone, _⟩
        cases hnone
      · rintro (hshort | ⟨hallocates, -⟩)
        · exact absurd hfails.1 (Nat.not_lt.mpr hshort)
        · rw [hallocates] at hfails
          cases hfails.2
    · rw [if_neg hfails]
      -- both answer, so they agree when their Merkle roots do
      have htext (merkleRoot : Vector U8 32) : hexBytes extranonce2Len.toNat (cString (builtJob
          notify version conn.versionMask conn.poolDifficulty 0 merkleRoot (extranonce2Generate
            counter extranonce2Len.toNat)).extranonce2.toList)
          = extranonce2Bin extranonce2Len.toNat counter :=
        (congrArg _ (cString_extranonce2 (by omega))).trans (hexBytes_extranonce2Generate _ _)
      have hbinary : coinbase.length ≤ 1024 ∨ binaryAllocates coinbase.length = true := by
        rwa [not_and_or, Nat.not_lt, Bool.not_eq_false] at hfails
      trans notifyMerkleRoot doubleSha256Bin notify (if 1024 < coinbase.length ∧
          hexAllocates coinbase.length = false then Vector.replicate 32 0
        else doubleSha256Bin coinbase)
        = notifyMerkleRoot doubleSha256Bin notify (doubleSha256Bin coinbase)
      · constructor
        · rintro ⟨_, _, hbuilt, hbuilt', hsame, -⟩
          obtain rfl := Option.some.inj hbuilt
          obtain rfl := Option.some.inj hbuilt'
          exact hsame.2.2.2.2.1
        · intro hroot
          refine ⟨_, _, rfl, rfl, ⟨rfl, rfl, rfl, rfl, hroot, rfl, rfl⟩, ?_⟩
          rw [htext, ← hcoinbase]
          exact hroot
      · split
        · next hzeros =>
          have hlong := Nat.not_le.mpr hzeros.1
          rw [or_iff_right hlong, hzeros.2, and_iff_right (hbinary.resolve_left hlong)]
          exact (or_iff_right Bool.false_ne_true).symm
        · next hhashed =>
          rw [not_and_or, Nat.not_lt, Bool.not_eq_false] at hhashed
          refine iff_of_true rfl ?_
          rcases hhashed with hshort | hallocates
          · exact .inl hshort
          · exact hbinary.imp_right fun hbinary => ⟨hbinary, .inl hallocates⟩
  · rw [miningBuildAsicJobSv1_eq doubleSha256Bin hexAllocates memory h hhexE hlength2 counter
      version conn.versionMask conn.poolDifficulty rfl] at hbuilt
    rw [miningBuildAsicJobSv1_eq doubleSha256Bin hexAllocates memory h hhexE hlength2 counter'
      version conn.versionMask conn.poolDifficulty rfl] at hbuilt'
    obtain rfl := Option.some.inj hbuilt
    obtain rfl := Option.some.inj hbuilt'
    have htexts : cString (strcpyZeroed 65 (extranonce2Generate counter
          extranonce2Len.toNat)).toList
        = cString (strcpyZeroed 65 (extranonce2Generate counter' extranonce2Len.toNat)).toList :=
      heq
    rw [cString_extranonce2 (by omega), cString_extranonce2 (by omega)] at htexts
    exact extranonce2Generate_injective hlt hlt' htexts

end Agreement

/-! ## A short coinbase, and one that needs memory -/

/-- A notification with a first half of one byte and this second half. -/
def plainNotify (coinbase2 : List U8) : MiningNotify where
  jobId := cText "1"
  prevHash := List.replicate 64 48#8
  coinbase1 := cText "01"
  coinbase2 := coinbase2
  merkleBranch := []
  version := 1
  nbits := 0
  ntime := 0
  cleanJobs := true

theorem plainNotify_valid {coinbase2 : List U8} (hhex : HexText coinbase2)
    (hlength : coinbase2.length ≤ MAX_COINBASE_SUFFIX_LEN * 2) : (plainNotify coinbase2).Valid := by
  have hprev : HexText (List.replicate 64 48#8) := by unfold HexText; decide
  have hcoinbase1 : HexText (cText "01") := by unfold HexText; decide
  exact ⟨(by decide : (cText "1").length < MAX_JOB_ID_LEN),
    ⟨hprev, (by decide : (List.replicate 64 48#8).length = 64)⟩,
    ⟨hcoinbase1, (by decide : (cText "01").length ≤ MAX_COINBASE_PREFIX_LEN * 2)⟩,
    ⟨hhex, hlength⟩, Nat.zero_le _⟩

/-- A coinbase of seven bytes, for which no memory is needed. -/
theorem mining_builders_agree_iff_of_short :
    BuildersAgree (fun _ => Vector.replicate 32 0) (plainNotify (cText "ab")) (cText "0102") 3
      (miningBuildAsicJobSv1 (fun _ => Vector.replicate 32 0) (fun _ => false) (fun _ => 0)
        ((plainNotify (cText "ab")).hexNotify 1) (cText "0102") 3 7
        (StratumV1Client.newConn 0 0).versionMask (StratumV1Client.newConn 0 0).poolDifficulty)
      (miningBuildAsicJob (fun _ => Vector.replicate 32 0) (fun _ => false)
        (parsedJob (StratumV1Client.newConn 0 0) (cText "0102") 3 (plainNotify (cText "ab")))
          7 1) := by
  have hhex : HexText (cText "ab") := by unfold HexText; decide
  exact ((@mining_builders_agree_iff (fun _ => Vector.replicate 32 0) (fun _ => 0)
    (StratumV1Client.newConn 0 0) _ (cText "0102") (fun _ => false) (fun _ => false)
    (plainNotify_valid hhex (by decide)) (by decide) 3 (by decide) 1 (by decide)).1 7).mpr
      (.inl (by decide))

/-- Without memory for 1026 bytes the hexadecimal builder answers all the same. -/
theorem mining_builders_disagree :
    (miningBuildAsicJobSv1 (fun _ => Vector.replicate 32 0) (fun _ => false) (fun _ => 0)
        ((plainNotify (List.replicate 2050 48#8)).hexNotify 1) [] 0 7
        (StratumV1Client.newConn 0 0).versionMask
        (StratumV1Client.newConn 0 0).poolDifficulty).isSome ∧
      miningBuildAsicJob (fun _ => Vector.replicate 32 0) (fun _ => false)
        (parsedJob (StratumV1Client.newConn 0 0) [] 0 (plainNotify (List.replicate 2050 48#8)))
          7 1 = none := by
  have hhex : HexText (List.replicate 2050 48#8) :=
    ⟨by rw [List.length_replicate], fun digit hdigit => by
      rw [List.eq_of_mem_replicate hdigit]; decide⟩
  have hvalid := plainNotify_valid hhex (by rw [List.length_replicate]; decide)
  have hempty : HexText [] := ⟨rfl, nofun⟩
  constructor
  · rw [miningBuildAsicJobSv1_eq _ _ _ hvalid hempty (by decide) 7 1 _ _ rfl]
    rfl
  · rw [miningBuildAsicJob_eq _ _ (StratumV1Client.newConn 0 0) hvalid hempty (by decide)
      (by decide) 7 (by decide) rfl, if_pos]
    refine ⟨?_, rfl⟩
    have hhalf := two_mul_length_decodeHex hhex
    rw [List.length_replicate] at hhalf
    have hcoinbase2 : (plainNotify (List.replicate 2050 48#8)).coinbase2
        = List.replicate 2050 48#8 := rfl
    rw [coinbaseBytes, hcoinbase2, List.length_append]
    omega

end EspMiner
