import EspMiner.Stratum.CoinbaseTransaction
import Mathlib.Data.List.TakeDrop

/-!
# Accepted coinbases

The validator accepts a job exactly when the four parts always make up a coinbase transaction, with
both extranonces in its script, and it reads no byte beside the buffers.  With the reads checked it
is the plain validator; that one accepts a header and a tail, and a header, the extranonces and a
tail are a transaction whatever the extranonces are.
-/

namespace EspMiner

open Library

/-! ## Reads inside the buffers -/

/-- A byte of a buffer; `none` is a read outside it. -/
def byteInside (data : List U8) (length i : Nat) : Option U8 :=
  if i < length then some (data.getD i 0) else none

/-- `read_compact_size` with every read through `read`. -/
def readCompactSizeInside (read : Nat → Option U8) (length offset : Nat) :
    Option (Option (U64 × Nat)) :=
  if length ≤ offset then some none
  else do
    let tag ← read offset
    let offset := offset + 1
    if tag < 0xfd then some (some (tag.setWidth 64, offset))
    else
      let bytes := if tag = 0xfd then 2 else if tag = 0xfe then 4 else 8
      if length - offset < bytes then some none
      else do
        let value ← (List.range bytes).foldlM (fun value i => do
          let byte ← read (offset + i)
          some (value ||| (byte.setWidth 64 <<< (8 * i)))) (0 : U64)
        let least : U64 := if bytes = 2 then 0xfd else if bytes = 4 then 0x10000 else 0x100000000
        if value < least then some none else some (some (value, offset + bytes))

/-- `skipOutputs` with every read through `read`. -/
def skipOutputsInside (read : Nat → Option U8) (length : Nat) : Nat → Nat → Option (Option Nat)
  | 0, offset => some (some offset)
  | outputs + 1, offset =>
      if length - offset < 8 then some none
      else do
        match ← readCompactSizeInside read length (offset + 8) with
        | none => some none
        | some (scriptSize, offset) =>
            if length - offset < scriptSize.toNat then some none
            else skipOutputsInside read length outputs (offset + scriptSize.toNat)

/-- `coinbase_validate_miner_job` with every read of a buffer checked against its
length: `none` when one lies outside. -/
def coinbaseValidateMinerJobInside (buffers : CoinbaseBuffers) (job : MinerJob) : Option Bool :=
  let readPrefix := byteInside job.coinbasePrefix job.coinbasePrefixLen.toNat
  let readSuffix := byteInside job.coinbaseSuffix job.coinbaseSuffixLen.toNat
  if buffers.prefixAllocated = false ∨ buffers.suffixAllocated = false ∨
      job.coinbasePrefixLen < 42 ∨ 32 < job.extranonce1Len ∨ 32 < job.extranonce2Len then
    some false
  else do
    let inputs ← readPrefix 4
    let scriptSize ← readPrefix 41
    if inputs.toNat ≠ 1 ∨ scriptSize.toNat < 2 ∨ 100 < scriptSize.toNat then return false
    let null ← (List.range' 5 36).allM fun i => do
      let byte ← readPrefix i
      some (decide (byte.toNat = if i < 37 then 0 else 0xff))
    if null = false then return false
    let scriptEnd := 42 + scriptSize.toNat
    let insertedEnd := job.coinbasePrefixLen.toNat + job.extranonce1Len.toNat +
      job.extranonce2Len.toNat
    let offset := scriptEnd - insertedEnd
    let length := job.coinbaseSuffixLen.toNat
    if scriptEnd < insertedEnd then return false
    if length < offset ∨ length - offset < 4 then return false
    match ← readCompactSizeInside readSuffix length (offset + 4) with
    | none => return false
    | some (outputs, offset) =>
        if outputs = 0 ∨ (length - offset) / 9 < outputs.toNat then return false
        match ← skipOutputsInside readSuffix length outputs.toNat offset with
        | none => return false
        | some offset => return decide (length - offset = 4)

section Inside

variable {data : List U8} {length offset : Nat}

theorem byteInside_of_lt {i : Nat} (h : i < length) :
    byteInside data length i = some (data.getD i 0) := if_pos h

/-- A loop whose rounds all go through is the loop without the checks. -/
theorem foldlM_eq_some {α β : Type} {step : β → α → Option β} (next : β → α → β) {l : List α}
    (h : ∀ state, ∀ item ∈ l, step state item = some (next state item)) (state : β) :
    l.foldlM step state = some (l.foldl next state) := by
  induction l generalizing state with
  | nil => rfl
  | cons item l ih =>
    rw [List.foldlM_cons, h state item List.mem_cons_self]
    exact ih (fun state item hitem => h state item (List.mem_cons_of_mem _ hitem)) _

theorem allM_eq_some {α : Type} {test : α → Option Bool} (holds : α → Bool) {l : List α}
    (h : ∀ item ∈ l, test item = some (holds item)) : l.allM test = some (l.all holds) := by
  induction l with
  | nil => rfl
  | cons item l ih =>
    rw [List.allM_cons, h item List.mem_cons_self,
      ih fun item hitem => h item (List.mem_cons_of_mem _ hitem), List.all_cons]
    cases holds item <;> rfl

theorem readCompactSizeInside_eq :
    readCompactSizeInside (byteInside data length) length offset =
      some (readCompactSize data length offset) := by
  unfold readCompactSizeInside readCompactSize
  split
  · rfl
  · next hoffset =>
    rw [byteInside_of_lt (Nat.lt_of_not_le hoffset), Option.bind_eq_bind, Option.bind_some]
    dsimp only
    split
    · rfl
    · generalize (if data.getD offset 0 = 0xfd then 2
        else if data.getD offset 0 = 0xfe then 4 else 8) = width
      split
      · rfl
      · next hwidth =>
        rw [foldlM_eq_some (fun value i =>
          value ||| ((data.getD (offset + 1 + i) 0).setWidth 64 <<< (8 * i)))]
        · rw [Option.bind_eq_bind, Option.bind_some, apply_ite some]
        · intro value i hi
          have hlt : i < width := List.mem_range.mp hi
          rw [byteInside_of_lt (by omega)]
          rfl

theorem skipOutputsInside_eq (outputs : Nat) :
    skipOutputsInside (byteInside data length) length outputs offset =
      some (skipOutputs data length outputs offset) := by
  induction outputs generalizing offset with
  | zero => rfl
  | succ outputs ih =>
    rw [skipOutputsInside, skipOutputs, readCompactSizeInside_eq, Option.bind_eq_bind,
      Option.bind_some]
    split
    · rfl
    · cases readCompactSize data length (offset + 8) with
      | none => rfl
      | some size =>
        dsimp only
        split
        · rfl
        · exact ih

theorem coinbaseValidateMinerJobInside_eq {buffers : CoinbaseBuffers} {job : MinerJob} :
    coinbaseValidateMinerJobInside buffers job = some (coinbaseValidateMinerJob buffers job) := by
  unfold coinbaseValidateMinerJobInside coinbaseValidateMinerJob
  dsimp only
  split
  · rfl
  · next hlengths =>
    have hlen : 42 ≤ job.coinbasePrefixLen.toNat := by
      by_contra hshort
      exact hlengths (.inr (.inr (.inl (by bv_omega))))
    rw [byteInside_of_lt (by omega : 4 < _), byteInside_of_lt (by omega : 41 < _),
      allM_eq_some (fun i =>
        decide ((job.coinbasePrefix.getD i 0).toNat = if i < 37 then 0 else 0xff))
        (fun i hi => by
          have := List.mem_range'_1.mp hi
          rw [byteInside_of_lt (by omega)]
          rfl)]
    simp only [Option.bind_eq_bind, Option.bind_some, readCompactSizeInside_eq,
      skipOutputsInside_eq]
    have hnull : ((List.range' 5 36).all fun i =>
        decide ((job.coinbasePrefix.getD i 0).toNat = if i < 37 then 0 else 0xff)) = false ↔
        ((List.range 41).any fun i => decide (5 ≤ i ∧
          (job.coinbasePrefix.getD i 0).toNat ≠ if i < 37 then 0 else 0xff)) = true := by
      rw [List.all_eq_false, List.any_eq_true]
      refine exists_congr fun i => ?_
      rw [List.mem_range'_1, List.mem_range, decide_eq_true_eq, decide_eq_true_eq]
      omega
    simp only [hnull]
    split_ifs
    iterate 4 rfl
    cases readCompactSize job.coinbaseSuffix job.coinbaseSuffixLen.toNat _ with
    | none => rfl
    | some count =>
      dsimp only
      split_ifs
      · rfl
      · cases skipOutputs job.coinbaseSuffix job.coinbaseSuffixLen.toNat _ _ with
        | none => rfl
        | some last => rfl

end Inside

/-! ## What the validator asks for -/

/-- The bytes of the two buffers up to their lengths. -/
def MinerJob.prefixBytes (job : MinerJob) : List U8 :=
  job.coinbasePrefix.takeD job.coinbasePrefixLen.toNat 0

def MinerJob.suffixBytes (job : MinerJob) : List U8 :=
  job.coinbaseSuffix.takeD job.coinbaseSuffixLen.toNat 0

theorem getD_takeD {α : Type} (bytes : List α) (length : Nat) (fill : α) {i : Nat}
    (h : i < length) : (bytes.takeD length fill).getD i fill = bytes.getD i fill := by
  induction length generalizing bytes i with
  | zero => omega
  | succ length ih =>
    cases i with
    | zero => cases bytes <;> rfl
    | succ i =>
      have htail := ih bytes.tail (Nat.lt_of_succ_lt_succ h)
      cases bytes <;> exact htail

/-- Only the bytes up to the length are read. -/
theorem readCompactSize_takeD (data : List U8) (length offset : Nat) :
    readCompactSize data length offset = readCompactSize (data.takeD length 0) length offset := by
  refine Option.some.inj ?_
  rw [← readCompactSizeInside_eq, ← readCompactSizeInside_eq]
  congr 1
  funext i
  unfold byteInside
  split
  · next hi => rw [getD_takeD _ _ _ hi]
  · rfl

@[simp] theorem MinerJob.length_prefixBytes (job : MinerJob) :
    job.prefixBytes.length = job.coinbasePrefixLen.toNat := List.takeD_length _ _ _

@[simp] theorem MinerJob.length_suffixBytes (job : MinerJob) :
    job.suffixBytes.length = job.coinbaseSuffixLen.toNat := List.takeD_length _ _ _

/-- The first 42 bytes are those of a coinbase. -/
structure HeaderAccepted (bytes : List U8) : Prop where
  inputs : (bytes.getD 4 0).toNat = 1
  sized : 2 ≤ (bytes.getD 41 0).toNat ∧ (bytes.getD 41 0).toNat ≤ 100
  outpoint : ∀ i, 5 ≤ i → i < 41 → (bytes.getD i 0).toNat = if i < 37 then 0 else 0xff

/-- From the end of the script on the suffix is that of a coinbase. -/
structure TailAccepted (suffix : List U8) (offset : Nat) : Prop where
  sequence : offset + 4 ≤ suffix.length
  outputs : ∃ outputs next last,
    readCompactSize suffix suffix.length (offset + 4) = some (outputs, next) ∧
    outputs ≠ 0 ∧ outputs.toNat ≤ (suffix.length - next) / 9 ∧
    skipOutputs suffix suffix.length outputs.toNat next = some last ∧
    suffix.length - last = 4

/-- Where the extranonces end. -/
def MinerJob.insertedEnd (job : MinerJob) : Nat :=
  job.coinbasePrefixLen.toNat + job.extranonce1Len.toNat + job.extranonce2Len.toNat

/-- Where the script ends. -/
def MinerJob.scriptEnd (job : MinerJob) : Nat := 42 + (job.prefixBytes.getD 41 0).toNat

section Validator

variable {buffers : CoinbaseBuffers} {job : MinerJob}

theorem readCompactSize_suffixBytes (offset : Nat) :
    readCompactSize job.coinbaseSuffix job.coinbaseSuffixLen.toNat offset =
      readCompactSize job.suffixBytes job.suffixBytes.length offset := by
  rw [job.length_suffixBytes]
  exact readCompactSize_takeD _ _ _

theorem skipOutputs_suffixBytes (outputs offset : Nat) :
    skipOutputs job.coinbaseSuffix job.coinbaseSuffixLen.toNat outputs offset =
      skipOutputs job.suffixBytes job.suffixBytes.length outputs offset := by
  induction outputs generalizing offset with
  | zero => rfl
  | succ outputs ih =>
    rw [skipOutputs, skipOutputs, readCompactSize_suffixBytes, job.length_suffixBytes]
    simp only [ih, job.length_suffixBytes]

theorem coinbaseValidateMinerJob_iff (hpre : buffers.prefixAllocated = true)
    (hsuffix : buffers.suffixAllocated = true) :
    coinbaseValidateMinerJob buffers job = true ↔
      42 ≤ job.coinbasePrefixLen.toNat ∧ job.extranonce1Len.toNat ≤ 32 ∧
      job.extranonce2Len.toNat ≤ 32 ∧ HeaderAccepted job.prefixBytes ∧
      job.insertedEnd ≤ job.scriptEnd ∧
      TailAccepted job.suffixBytes (job.scriptEnd - job.insertedEnd) := by
  unfold coinbaseValidateMinerJob
  dsimp only
  rw [hpre, hsuffix]
  by_cases hlengths : job.coinbasePrefixLen < 42 ∨ 32 < job.extranonce1Len ∨
      32 < job.extranonce2Len
  · rw [if_pos (.inr (.inr hlengths))]
    simp only [Bool.false_eq_true, false_iff]
    rintro ⟨hpre, hone, htwo, -⟩
    bv_omega
  · rw [if_neg (by simpa using hlengths)]
    have hlen : 42 ≤ job.coinbasePrefixLen.toNat := by bv_omega
    have hone : job.extranonce1Len.toNat ≤ 32 := by bv_omega
    have htwo : job.extranonce2Len.toNat ≤ 32 := by bv_omega
    have hget : ∀ i < 42, job.coinbasePrefix.getD i 0 = job.prefixBytes.getD i 0 := by
      intro i hi
      rw [MinerJob.prefixBytes, getD_takeD _ _ _ (by omega)]
    have hany : ((List.range 41).any fun i => decide (5 ≤ i ∧
        (job.coinbasePrefix.getD i 0).toNat ≠ if i < 37 then 0 else 0xff)) = true ↔
        ¬ ∀ i, 5 ≤ i → i < 41 →
          (job.prefixBytes.getD i 0).toNat = if i < 37 then 0 else 0xff := by
      rw [List.any_eq_true]
      push Not
      refine exists_congr fun i => ?_
      rw [List.mem_range, decide_eq_true_eq]
      constructor
      · rintro ⟨hlt, hge, hne⟩
        exact ⟨hge, hlt, hget i (by omega) ▸ hne⟩
      · rintro ⟨hge, hlt, hne⟩
        exact ⟨hlt, hge, (hget i (by omega)).symm ▸ hne⟩
    simp only [hget 4 (by decide), hget 41 (by decide), readCompactSize_suffixBytes,
      skipOutputs_suffixBytes]
    simp only [← job.length_suffixBytes]
    have hend : 42 + (job.prefixBytes.getD 41 0).toNat = job.scriptEnd := rfl
    have hinserted : job.coinbasePrefixLen.toNat + job.extranonce1Len.toNat +
      job.extranonce2Len.toNat = job.insertedEnd := rfl
    simp only [hend, hinserted]
    constructor
    · intro h
      split at h
      · cases h
      · next hsized =>
        split at h
        · cases h
        · next hnull =>
          rw [hany, not_not] at hnull
          split at h
          · cases h
          · next hinside =>
            split at h
            · cases h
            · next hsequence =>
              split at h
              · cases h
              · next outputs next hread =>
                split at h
                · cases h
                · next hcount =>
                  split at h
                  · cases h
                  · next last hskip =>
                    exact ⟨hlen, hone, htwo, ⟨by omega, by omega, hnull⟩, by omega,
                      ⟨by omega, outputs, next, last, hread, fun hzero => hcount (.inl hzero),
                        by omega, hskip, of_decide_eq_true h⟩⟩
    · rintro ⟨-, -, -, hheader, hinside, hsequence, outputs, next, last, hread, hne, hcount,
        hskip, hlast⟩
      have hfirst := hheader.inputs
      have hsized := hheader.sized
      rw [if_neg (by omega), if_neg (by rw [hany, not_not]; exact hheader.outpoint),
        if_neg (by omega), if_neg (by omega), hread]
      dsimp only
      rw [if_neg (not_or.mpr ⟨hne, by omega⟩), hskip]
      exact decide_eq_true hlast

end Validator

/-- An accepted header is the header of a coinbase. -/
theorem HeaderAccepted.exists_header {bytes : List U8} (h : HeaderAccepted bytes)
    (hlength : 42 ≤ bytes.length) :
    ∃ version, bytes = CoinbaseTransaction.header version (bytes.getD 41 0) ++ bytes.drop 42 := by
  have hfour : (bytes.take 4).length = 4 := by
    rw [List.length_take]
    omega
  obtain ⟨version, hversion⟩ := exists_eq_leBytes (w := 32) (bytes.take 4) (by rw [hfour])
  rw [hfour] at hversion
  have hget : ∀ i (hi : i < bytes.length), bytes[i] = bytes.getD i 0 := fun i hi => by
    simp [hi]
  have hinputs : bytes[4] = 1 := by
    rw [hget]
    exact BitVec.eq_of_toNat_eq h.inputs
  have houtpoint : (bytes.drop 5).take 36 = nullOutpoint := by
    refine List.ext_getElem (by simp [nullOutpoint]; omega) fun i hi _ => ?_
    have hlt : i < 36 := by
      rw [List.length_take] at hi
      omega
    have hbyte := h.outpoint (5 + i) (by omega) (by omega)
    have hnull := nullOutpoint_getD i hlt
    rw [List.getElem_take, List.getElem_drop, hget]
    apply BitVec.eq_of_toNat_eq
    rw [hbyte, ← List.getD_eq_getElem _ 0, hnull]
    exact if_congr (by omega) rfl rfl
  refine ⟨version, ?_⟩
  calc bytes = bytes.take 4 ++ (bytes[4] :: ((bytes.drop 5).take 36 ++ bytes[41] ::
        bytes.drop 42)) := by
        rw [← List.drop_eq_getElem_cons, ← List.drop_drop (i := 36) (j := 5)]
        rw [List.take_append_drop, ← List.drop_eq_getElem_cons, List.take_append_drop]
    _ = _ := by
        rw [hversion, hinputs, houtpoint, hget 41 (by omega), CoinbaseTransaction.header]
        simp only [List.append_assoc, List.cons_append, List.nil_append]

/-- The header of a coinbase is accepted. -/
theorem headerAccepted_header {bytes rest : List U8} {version : U32} {scriptSize : U8}
    (h : bytes = CoinbaseTransaction.header version scriptSize ++ rest)
    (hsized : 2 ≤ scriptSize.toNat ∧ scriptSize.toNat ≤ 100) :
    HeaderAccepted bytes ∧ bytes.getD 41 0 = scriptSize := by
  subst h
  refine ⟨⟨rfl, hsized, fun i hge hlt => ?_⟩, rfl⟩
  obtain ⟨i, rfl⟩ : ∃ j, i = j + 5 := ⟨i - 5, by omega⟩
  have hshift : (CoinbaseTransaction.header version scriptSize ++ rest).getD (i + 5) 0 =
      (nullOutpoint ++ ([scriptSize] ++ rest)).getD i 0 := by
    simp only [CoinbaseTransaction.header, List.append_assoc]
    rfl
  have hnull : i < nullOutpoint.length := by
    have : nullOutpoint.length = 36 := rfl
    omega
  rw [hshift, List.getD_append _ _ _ _ hnull, nullOutpoint_getD i (by omega)]
  exact if_congr (by omega) rfl rfl

theorem TailAccepted.exists_tail {suffix : List U8} {offset : Nat}
    (h : TailAccepted suffix offset) :
    ∃ sequence outputs lockTime, outputs ≠ [] ∧ outputs.length < 2 ^ 64 ∧
      suffix.drop offset = CoinbaseTransaction.tail sequence outputs lockTime := by
  obtain ⟨hsequence, count, next, last, hread, hne, -, hskip, hlast⟩ := h
  obtain ⟨hregion, hnext⟩ := drop_of_readCompactSize hread
  have hfits : next ≤ suffix.length := by
    have hstart := lt_length_of_readCompactSize hread
    have := congrArg List.length hregion
    simp only [List.length_drop, List.length_append] at this
    omega
  obtain ⟨outputs, hcount, -, houtputs⟩ := outputs_of_skipOutputs hskip hfits
  have hfour : ((suffix.drop offset).take 4).length = 4 := by
    rw [List.length_take, List.length_drop]
    omega
  obtain ⟨sequence, hseq⟩ := exists_eq_leBytes (w := 32) ((suffix.drop offset).take 4)
    (by rw [hfour])
  have hend : (suffix.drop last).length = 4 := by rw [List.length_drop, hlast]
  obtain ⟨lockTime, hlock⟩ := exists_eq_leBytes (w := 32) (suffix.drop last) (by rw [hend])
  rw [hfour] at hseq
  rw [hend] at hlock
  refine ⟨sequence, outputs, lockTime, ?_, hcount ▸ count.isLt, ?_⟩
  · rintro rfl
    exact hne (BitVec.eq_of_toNat_eq hcount.symm)
  · calc suffix.drop offset
        = (suffix.drop offset).take 4 ++ suffix.drop (offset + 4) := by
          rw [← List.drop_drop, List.take_append_drop]
      _ = _ := by
          rw [hregion, houtputs, hseq, hlock, ← hcount, CoinbaseTransaction.tail]
          simp only [List.append_assoc]

theorem tailAccepted_tail {suffix : List U8} {offset : Nat} {sequence lockTime : U32}
    {outputs : List CoinbaseOutput} (hne : outputs ≠ []) (hcount : outputs.length < 2 ^ 64)
    (hregion : suffix.drop offset = CoinbaseTransaction.tail sequence outputs lockTime) :
    TailAccepted suffix offset := by
  have hlength := congrArg List.length hregion
  simp only [CoinbaseTransaction.tail, List.length_append, length_leBytes,
    List.length_drop] at hlength
  have hsize := length_compactSize_pos outputs.length
  have hcountRegion : suffix.drop (offset + 4) = compactSize outputs.length ++
      (outputs.flatMap CoinbaseOutput.bytes ++ leBytes 4 lockTime.toNat) := by
    rw [← List.drop_drop, hregion, CoinbaseTransaction.tail]
    simp only [List.append_assoc]
    rw [List.drop_left' (length_leBytes _ _)]
  have houtputsRegion : suffix.drop (offset + 4 + (compactSize outputs.length).length) =
      outputs.flatMap CoinbaseOutput.bytes ++ leBytes 4 lockTime.toNat := by
    rw [← List.drop_drop, hcountRegion, List.drop_left]
  have hread := readCompactSize_compactSize hcount hcountRegion
  have hskip := skipOutputs_bytes houtputsRegion
  have hnine : 9 * outputs.length ≤ (outputs.flatMap CoinbaseOutput.bytes).length := by
    clear hregion hne hcount hlength hsize hread hskip hcountRegion houtputsRegion
    induction outputs with
    | nil => rfl
    | cons output outputs ih =>
      have := output.nine_le_length
      simp only [List.flatMap_cons, List.length_append, List.length_cons]
      omega
  have hvalue : (BitVec.ofNat 64 outputs.length).toNat = outputs.length := by
    rw [BitVec.toNat_ofNat, Nat.mod_eq_of_lt hcount]
  have hpos : 0 < outputs.length := List.length_pos_iff.mpr hne
  refine ⟨by omega, _, _, _, hread, fun hzero => ?_, ?_, by rw [hvalue]; exact hskip, by omega⟩
  · have := congrArg BitVec.toNat hzero
    rw [hvalue] at this
    have hz : (0 : U64).toNat = 0 := rfl
    omega
  · rw [hvalue]
    omega

/-! ## Acceptance -/

/-- The transaction that the four parts of a job make up, with the extranonces in its
script and its sequence in the suffix. -/
structure MinerJob.Completes (job : MinerJob) (extranonce1 extranonce2 : List U8)
    (tx : CoinbaseTransaction) : Prop where
  bytes : tx.bytes = job.prefixBytes ++ extranonce1 ++ extranonce2 ++ job.suffixBytes
  inScript : job.insertedEnd ≤ 42 + tx.script.length
  inSuffix : 42 + tx.script.length + 4 ≤ job.insertedEnd + job.coinbaseSuffixLen.toNat

section Acceptance

variable {job : MinerJob} {extranonce1 extranonce2 : List U8} {tx : CoinbaseTransaction}

theorem length_header (version : U32) (scriptSize : U8) :
    (CoinbaseTransaction.header version scriptSize).length = 42 := rfl

/-- What the validator asks for makes up a transaction. -/
theorem exists_completes (hlength : 42 ≤ job.coinbasePrefixLen.toNat)
    (hheader : HeaderAccepted job.prefixBytes) (hinside : job.insertedEnd ≤ job.scriptEnd)
    (htail : TailAccepted job.suffixBytes (job.scriptEnd - job.insertedEnd))
    (hone : extranonce1.length = job.extranonce1Len.toNat)
    (htwo : extranonce2.length = job.extranonce2Len.toNat) :
    ∃ tx, job.Completes extranonce1 extranonce2 tx := by
  obtain ⟨version, hpre⟩ := hheader.exists_header (job.length_prefixBytes ▸ hlength)
  obtain ⟨sequence, outputs, lockTime, hne, hcount, hsuffix⟩ := htail.exists_tail
  have hsequence := htail.sequence
  rw [job.length_suffixBytes] at hsequence
  have hscript : (job.prefixBytes.drop 42 ++ extranonce1 ++ extranonce2 ++
      job.suffixBytes.take (job.scriptEnd - job.insertedEnd)).length =
      (job.prefixBytes.getD 41 0).toNat := by
    simp only [List.length_append, List.length_drop, List.length_take, job.length_prefixBytes,
      job.length_suffixBytes, hone, htwo]
    simp only [MinerJob.scriptEnd, MinerJob.insertedEnd] at hinside hsequence ⊢
    omega
  have hend : job.scriptEnd = 42 + (job.prefixBytes.getD 41 0).toNat := rfl
  refine ⟨⟨version, _, sequence, outputs, lockTime, hscript ▸ hheader.sized, hne, hcount⟩,
    ?_, ?_, ?_⟩
  · rw [CoinbaseTransaction.bytes]
    dsimp only
    rw [hscript, BitVec.ofNat_toNat, BitVec.setWidth_eq, ← hsuffix]
    conv_rhs => rw [hpre]
    simp only [List.append_assoc, List.take_append_drop]
  · rw [hscript]
    omega
  · rw [hscript]
    omega

/-- The transaction's header stands in the prefix. -/
theorem MinerJob.Completes.header (h : job.Completes extranonce1 extranonce2 tx)
    (hlength : 42 ≤ job.coinbasePrefixLen.toNat) :
    HeaderAccepted job.prefixBytes ∧ job.scriptEnd = 42 + tx.script.length := by
  have hsized := tx.scriptSized
  have hsize : (BitVec.ofNat 8 tx.script.length).toNat = tx.script.length := by
    rw [BitVec.toNat_ofNat, Nat.mod_eq_of_lt (by omega)]
  have hpre : job.prefixBytes =
      CoinbaseTransaction.header tx.version (BitVec.ofNat 8 tx.script.length) ++
        job.prefixBytes.drop 42 := by
    have htake := congrArg (List.take 42) h.bytes
    rw [CoinbaseTransaction.bytes, List.append_assoc, List.take_left' (length_header _ _),
      List.append_assoc, List.append_assoc,
      List.take_append_of_le_length (by rw [job.length_prefixBytes]; exact hlength)] at htake
    rw [htake, List.take_append_drop]
  obtain ⟨hheader, hscript⟩ := headerAccepted_header hpre (by rw [hsize]; exact hsized)
  exact ⟨hheader, by rw [MinerJob.scriptEnd, hscript, hsize]⟩

/-- The rest of the transaction stands in the suffix, from the end of the script on. -/
theorem MinerJob.Completes.tail (h : job.Completes extranonce1 extranonce2 tx)
    (hlength : 42 ≤ job.coinbasePrefixLen.toNat)
    (hone : extranonce1.length = job.extranonce1Len.toNat)
    (htwo : extranonce2.length = job.extranonce2Len.toNat) :
    job.suffixBytes.drop (job.scriptEnd - job.insertedEnd) =
      CoinbaseTransaction.tail tx.sequence tx.outputs tx.lockTime := by
  have hend := (h.header hlength).2
  have hinside := h.inScript
  have hbefore : (job.prefixBytes ++ extranonce1 ++ extranonce2).length = job.insertedEnd := by
    simp only [List.length_append, job.length_prefixBytes, hone, htwo, MinerJob.insertedEnd]
  have hdrop := congrArg (List.drop job.scriptEnd) h.bytes
  rw [CoinbaseTransaction.bytes, List.drop_left' (by
      rw [List.length_append, length_header, hend]), List.drop_append,
    List.drop_eq_nil_of_le (by omega), hbefore, List.nil_append] at hdrop
  exact hdrop.symm

/-- **Acceptance is exact, and stays inside the buffers.** -/
theorem coinbase_accepted_iff (buffers : CoinbaseBuffers) (job : MinerJob)
    (hpre : buffers.prefixAllocated = true) (hsuffix : buffers.suffixAllocated = true) :
    (coinbaseValidateMinerJob buffers job = true ↔
      42 ≤ job.coinbasePrefixLen.toNat ∧ job.extranonce1Len.toNat ≤ 32 ∧
      job.extranonce2Len.toNat ≤ 32 ∧
      ∀ extranonce1 extranonce2 : List U8, extranonce1.length = job.extranonce1Len.toNat →
        extranonce2.length = job.extranonce2Len.toNat →
        ∃ tx, job.Completes extranonce1 extranonce2 tx) ∧
    coinbaseValidateMinerJobInside buffers job = some (coinbaseValidateMinerJob buffers job) := by
  refine ⟨?_, coinbaseValidateMinerJobInside_eq⟩
  rw [coinbaseValidateMinerJob_iff hpre hsuffix]
  constructor
  · rintro ⟨hlength, hone, htwo, hheader, hinside, htail⟩
    exact ⟨hlength, hone, htwo, fun _ _ => exists_completes hlength hheader hinside htail⟩
  · rintro ⟨hlength, hone, htwo, hall⟩
    obtain ⟨tx, htx⟩ := hall (List.replicate job.extranonce1Len.toNat 0)
      (List.replicate job.extranonce2Len.toNat 0) List.length_replicate List.length_replicate
    obtain ⟨hheader, hend⟩ := htx.header hlength
    exact ⟨hlength, hone, htwo, hheader, hend ▸ htx.inScript, tailAccepted_tail tx.paid tx.counted
      (htx.tail hlength List.length_replicate List.length_replicate)⟩

/-- A job with one output, three extranonce bytes and a script of six. -/
def singleOutputJob : MinerJob :=
  { MinerJob.zero with
    extranonce1Len := 2
    extranonce2Len := 1
    coinbasePrefix := CoinbaseTransaction.header 1 6 ++ [1, 5]
    coinbasePrefixLen := 44
    coinbaseSuffix := 7 :: List.replicate 4 0xff ++ [1] ++ List.replicate 8 2 ++ [0] ++
      List.replicate 4 0
    coinbaseSuffixLen := 19 }

theorem coinbase_accepted_iff_of_single :
    coinbaseValidateMinerJobInside .full singleOutputJob = some true ∧
      ∃ tx, singleOutputJob.Completes [8, 9] [10] tx := by
  have haccepted : coinbaseValidateMinerJob .full singleOutputJob = true := by decide
  have hexact := coinbase_accepted_iff .full singleOutputJob rfl rfl
  exact ⟨hexact.2.trans (congrArg some haccepted),
    (hexact.1.mp haccepted).2.2.2 [8, 9] [10] rfl rfl⟩

end Acceptance

end EspMiner
