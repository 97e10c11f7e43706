import EspMiner.Library.LittleEndian
import EspMiner.Stratum.Sv1Protocol

/-!
# Building an ASIC job from hexadecimal fields

`components/stratum/mining_job.c` and `mining.c`: the builder that works on the texts of
a notification, and what its texts decode to.  Memory that is not yet written is a
parameter, as are the double SHA-256 and the allocator.
-/

namespace EspMiner

open Library

/-- `mining_notify`: the legacy hexadecimal template input. -/
structure HexMiningNotify where
  jobId : List U8
  prevBlockHash : List U8
  coinbase1 : List U8
  coinbase2 : List U8
  merkleBranches : List (Vector U8 32)
  version : U32
  target : U32
  ntime : U32
  cleanJobs : Bool

/-- The bytes that `hex2bin` writes up to a digit that is none or has no second. -/
def hex2binLength : Nat → List U8 → Option Nat
  | 0, _ => some 0
  | _ + 1, [] => some 0
  | _ + 1, [_] => none
  | count + 1, high :: low :: hex =>
      match hexVal high, hexVal low with
      | some _, some _ => (hex2binLength count hex).map (· + 1)
      | _, _ => none

/-- What `hex2bin` returns. -/
def hex2binReturn (count : Nat) (hex : List U8) : Nat := (hex2binLength count hex).getD 0

/-- `extranonce_2_generate`, without the terminator. -/
def extranonce2Generate (extranonce2 : U64) (length : Nat) : List U8 :=
  (List.range length).flatMap fun i =>
    let byte : U8 := if i < 8 then (extranonce2 >>> (8 * i)).setWidth 8 else 0
    [hexTable (byte.toNat / 16), hexTable (byte.toNat % 16)]

/-- `bin_offset += hex2bin(hex, coinbase_tx_bin + bin_offset, ..)` -/
def appendHex (written : Nat × List U8) (hex : List U8) : Nat × List U8 :=
  let room := written.2.length - written.1
  (written.1 + hex2binReturn room hex,
    written.2.take written.1 ++ hex2bin room hex (written.2.drop written.1))

/-- `*destination = built`, after which the builder returns true. -/
def writeDestination (built : Option AsicJob) (destination : AsicJob) : Bool × AsicJob :=
  match built with
  | none => (false, destination)
  | some built => (true, built)

section Build

variable (doubleSha256Bin : List U8 → Vector U8 32)
variable (canAllocate : Nat → Bool)
variable (memory : Nat → U8)

/-- `calculate_coinbase_tx_hash`: without memory for a long coinbase the hash is zero. -/
def calculateCoinbaseTxHash (coinbase1 coinbase2 extranonce extranonce2 : List U8) :
    Vector U8 32 :=
  let length :=
    (coinbase1.length + extranonce.length + extranonce2.length + coinbase2.length) / 2
  if 1024 < length ∧ canAllocate length = false then Vector.replicate 32 0
  else
    doubleSha256Bin ([coinbase1, extranonce, extranonce2, coinbase2].foldl appendHex
      (0, (List.range length).map memory)).2

/-- `mining_build_asic_job_sv1` -/
def miningBuildAsicJobSv1 (notification : HexMiningNotify) (extranoncePrefix : List U8)
    (extranonce2Len : U32) (extranonce2Counter : U64) (versionMask : U32) (difficulty : U64) :
    Option AsicJob :=
  if ASIC_JOB_EXTRANONCE2_SIZE < extranonce2Len.toNat then none
  else
    let extranonce2 := extranonce2Generate extranonce2Counter extranonce2Len.toNat
    let coinbaseHash := calculateCoinbaseTxHash doubleSha256Bin canAllocate memory
      notification.coinbase1 notification.coinbase2 extranoncePrefix extranonce2
    let merkleRoot :=
      calculateMerkleRootHash doubleSha256Bin coinbaseHash notification.merkleBranches
    if hex2binReturn 32 notification.prevBlockHash ≠ 32 then none
    else
      let template := { AsicJob.zero with
        version := notification.version
        versionMask := versionMask
        ntime := notification.ntime
        nbits := notification.target
        sourceType := .v1
        poolDiff := difficulty
        merkleRoot := merkleRoot
        prevHash := bytes32 (reverseEndiannessPerWord (hexBytes 32 notification.prevBlockHash)) }
      copyMetadata template (notification.jobId ++ [0#8]) extranonce2

end Build

/-! ## What texts decode to -/

/-- An even number of hexadecimal digits. -/
def HexText (text : List U8) : Prop :=
  text.length % 2 = 0 ∧ ∀ digit ∈ text, (hexVal digit).isSome

/-- The bytes that pairs of digits stand for. -/
def decodeHex : List U8 → List U8
  | high :: low :: hex =>
      BitVec.ofNat 8 (16 * (hexVal high).getD 0 + (hexVal low).getD 0) :: decodeHex hex
  | _ => []

/-- An even text is empty or begins with a pair of digits. -/
theorem HexText.cases {text : List U8} (h : HexText text) :
    text = [] ∨ ∃ high low hex h' l', text = high :: low :: hex ∧ HexText hex ∧
      hexVal high = some h' ∧ hexVal low = some l' := by
  obtain ⟨heven, hdigits⟩ := h
  match text, heven, hdigits with
  | [], _, _ => exact .inl rfl
  | [_], heven, _ => exact absurd heven (by simp)
  | high :: low :: hex, heven, hdigits =>
    right
    obtain ⟨h', hhigh⟩ := Option.isSome_iff_exists.mp (hdigits high List.mem_cons_self)
    obtain ⟨l', hlow⟩ := Option.isSome_iff_exists.mp
      (hdigits low (List.mem_cons_of_mem _ List.mem_cons_self))
    refine ⟨high, low, hex, h', l', rfl, ⟨?_, fun digit hdigit => ?_⟩, hhigh, hlow⟩
    · rw [List.length_cons, List.length_cons] at heven
      omega
    · exact hdigits digit (List.mem_cons_of_mem _ (List.mem_cons_of_mem _ hdigit))

theorem HexText.of_isHexString {text : List U8} {minimum maximum : Nat}
    (h : isHexString text minimum maximum true = true) :
    HexText text ∧ minimum ≤ text.length ∧ text.length ≤ maximum := by
  simp only [isHexString, Bool.and_eq_true, decide_eq_true_eq, Bool.not_true, Bool.false_or,
    List.all_eq_true] at h
  exact ⟨⟨h.1.2, h.2⟩, h.1.1.1, h.1.1.2⟩

/-- `hex2bin` on a text that fits writes what the text decodes to, and returns its length. -/
theorem hex2bin_hexText {text : List U8} (h : HexText text) {count : Nat} {bin : List U8}
    (hcount : text.length ≤ 2 * count) (hbin : text.length ≤ 2 * bin.length) :
    hex2bin count text bin = decodeHex text ++ bin.drop (decodeHex text).length ∧
      hex2binReturn count text = (decodeHex text).length ∧
      2 * (decodeHex text).length = text.length := by
  have hlength : hex2bin count text bin = decodeHex text ++ bin.drop (decodeHex text).length ∧
      hex2binLength count text = some (decodeHex text).length ∧
      2 * (decodeHex text).length = text.length := by
    induction count generalizing text bin with
    | zero =>
      have hnil : text = [] := List.length_eq_zero_iff.mp (Nat.le_zero.mp hcount)
      rw [hnil]
      cases bin <;> exact ⟨rfl, rfl, rfl⟩
    | succ count ih =>
      rcases h.cases with rfl | ⟨high, low, hex, h', l', rfl, hhex, hhigh, hlow⟩
      · cases bin <;> exact ⟨rfl, rfl, rfl⟩
      · rw [List.length_cons, List.length_cons] at hcount hbin
        cases bin with
        | nil => exact absurd hbin (by simp)
        | cons byte bin =>
          rw [List.length_cons] at hbin
          have hbin' : hex.length ≤ 2 * bin.length := by omega
          obtain ⟨hwritten, hreturned, hhalf⟩ := ih hhex (by omega) hbin'
          simp only [hex2bin, hex2binLength, decodeHex, hhigh, hlow, hwritten, hreturned,
            Option.getD_some, Option.map_some, List.length_cons, List.cons_append,
            List.drop_succ_cons, true_and]
          omega
  exact ⟨hlength.1, congrArg (Option.getD · 0) hlength.2.1, hlength.2.2⟩

theorem two_mul_length_decodeHex {text : List U8} (h : HexText text) :
    2 * (decodeHex text).length = text.length :=
  (@hex2bin_hexText _ h text.length text (by omega) (by omega)).2.2

/-- Digits at their own length decode over any array. -/
theorem hexBytes_hexText {text : List U8} (h : HexText text) :
    hexBytes (text.length / 2) text = decodeHex text := by
  obtain ⟨hwritten, -, hhalf⟩ := @hex2bin_hexText _ h (text.length / 2)
    (List.replicate (text.length / 2) 0) (by have := h.1; omega)
    (by rw [List.length_replicate]; have := h.1; omega)
  rw [hexBytes, hwritten, List.drop_of_length_le (by rw [List.length_replicate]; omega),
    List.append_nil]

/-- A text behind those already written. -/
theorem appendHex_hexText {written text old : List U8} (h : HexText text)
    (hroom : text.length ≤ 2 * old.length) :
    appendHex (written.length, written ++ old) text
      = ((written ++ decodeHex text).length,
          (written ++ decodeHex text) ++ old.drop (decodeHex text).length) := by
  obtain ⟨hwritten, hreturned, -⟩ := hex2bin_hexText h hroom hroom
  unfold appendHex
  simp only [List.length_append, Nat.add_sub_cancel_left, List.take_left, List.drop_left, hwritten,
    hreturned, List.append_assoc]

/-- Texts that fill the array exactly. -/
theorem foldl_appendHex (texts : List (List U8)) (h : ∀ text ∈ texts, HexText text)
    (written old : List U8) (hroom : (texts.map List.length).sum = 2 * old.length) :
    (texts.foldl appendHex (written.length, written ++ old)).2
      = written ++ texts.flatMap decodeHex := by
  induction texts generalizing written old with
  | nil =>
    have hempty : 0 = 2 * old.length := hroom
    have hnil : old = [] := List.length_eq_zero_iff.mp (by omega)
    rw [hnil]
    rfl
  | cons text texts ih =>
    obtain ⟨htext, htexts⟩ := List.forall_mem_cons.mp h
    rw [List.map_cons, List.sum_cons] at hroom
    have hhalf := two_mul_length_decodeHex htext
    rw [List.foldl_cons, appendHex_hexText htext (by omega),
      ih htexts _ _ (by rw [List.length_drop]; omega), List.flatMap_cons, List.append_assoc]

/-- The hash of the coinbase that the texts decode to, if there is memory for it. -/
theorem calculateCoinbaseTxHash_hexText (doubleSha256Bin : List U8 → Vector U8 32)
    (canAllocate : Nat → Bool) (memory : Nat → U8)
    {coinbase1 coinbase2 extranonce extranonce2 : List U8} (h1 : HexText coinbase1)
    (h2 : HexText coinbase2) (he1 : HexText extranonce) (he2 : HexText extranonce2)
    {coinbase : List U8}
    (hcoinbase : coinbase = decodeHex coinbase1 ++ decodeHex extranonce ++ decodeHex extranonce2
      ++ decodeHex coinbase2) :
    calculateCoinbaseTxHash doubleSha256Bin canAllocate memory coinbase1 coinbase2 extranonce
        extranonce2
      = if 1024 < coinbase.length ∧ canAllocate coinbase.length = false then
          Vector.replicate 32 0
        else doubleSha256Bin coinbase := by
  have hlength : (coinbase1.length + extranonce.length + extranonce2.length
      + coinbase2.length) / 2 = coinbase.length := by
    rw [hcoinbase, ← two_mul_length_decodeHex h1, ← two_mul_length_decodeHex h2,
      ← two_mul_length_decodeHex he1, ← two_mul_length_decodeHex he2]
    simp only [List.length_append]
    omega
  have hwritten := foldl_appendHex [coinbase1, extranonce, extranonce2, coinbase2]
    (by
      simp only [List.mem_cons, List.not_mem_nil, or_false]
      rintro text (rfl | rfl | rfl | rfl)
      · exact h1
      · exact he1
      · exact he2
      · exact h2) [] ((List.range coinbase.length).map memory) (by
      rw [List.length_map, List.length_range, hcoinbase]
      simp only [List.map_cons, List.map_nil, List.sum_cons, List.sum_nil, List.length_append]
      rw [← two_mul_length_decodeHex h1, ← two_mul_length_decodeHex h2,
        ← two_mul_length_decodeHex he1, ← two_mul_length_decodeHex he2]
      omega)
  unfold calculateCoinbaseTxHash
  simp only [hlength]
  split
  · rfl
  · have hall : [coinbase1, extranonce, extranonce2, coinbase2].flatMap decodeHex = coinbase := by
      rw [hcoinbase]
      simp
    rw [List.nil_append, List.nil_append, hall] at hwritten
    exact congrArg doubleSha256Bin hwritten

/-! ## The text of an extranonce2 -/

theorem bin2hex_cons (byte : U8) (bytes : List U8) :
    bin2hex (byte :: bytes)
      = hexTable (byte.toNat / 16) :: hexTable (byte.toNat % 16) :: bin2hex bytes := rfl

/-- What `bin2hex` writes decodes to its bytes. -/
theorem decodeHex_bin2hex (bytes : List U8) : decodeHex (bin2hex bytes) = bytes := by
  induction bytes with
  | nil => rfl
  | cons byte bytes ih =>
    have hbyte : byte.toNat < 256 := byte.isLt
    have hjoined : 16 * (byte.toNat / 16) + byte.toNat % 16 = byte.toNat := by omega
    rw [bin2hex_cons, decodeHex, ih, hexVal_hexTable _ (by omega),
      hexVal_hexTable _ (by omega), Option.getD_some, Option.getD_some, hjoined,
      BitVec.ofNat_toNat, BitVec.setWidth_eq]

theorem length_bin2hex (bytes : List U8) : (bin2hex bytes).length = 2 * bytes.length := by
  induction bytes with
  | nil => rfl
  | cons byte bytes ih =>
    rw [bin2hex_cons, List.length_cons, List.length_cons, List.length_cons, ih]
    omega

theorem mem_bin2hex {bytes : List U8} {digit : U8} (h : digit ∈ bin2hex bytes) :
    (hexVal digit).isSome ∧ digit ≠ 0#8 := by
  induction bytes with
  | nil => cases h
  | cons byte bytes ih =>
    have hbyte : byte.toNat < 256 := byte.isLt
    rw [bin2hex_cons, List.mem_cons, List.mem_cons] at h
    rcases h with rfl | rfl | h
    · exact ⟨by rw [hexVal_hexTable _ (by omega)]; rfl, (hexTable_ne _ (by omega)).2⟩
    · exact ⟨by rw [hexVal_hexTable _ (by omega)]; rfl, (hexTable_ne _ (by omega)).2⟩
    · exact ih h

theorem hexText_bin2hex (bytes : List U8) : HexText (bin2hex bytes) :=
  ⟨by rw [length_bin2hex]; omega, fun _ hdigit => (mem_bin2hex hdigit).1⟩

/-- Both builders write the same text. -/
theorem extranonce2Generate_eq (extranonce2 : U64) (length : Nat) :
    extranonce2Generate extranonce2 length = bin2hex (extranonce2Bin length extranonce2) := by
  rw [extranonce2Generate, bin2hex, extranonce2Bin, List.flatMap_map]

theorem length_extranonce2Bin (length : Nat) (counter : U64) :
    (extranonce2Bin length counter).length = length := by
  rw [extranonce2Bin, List.length_map, List.length_range]

/-- The first bytes are those of the counter. -/
theorem take_extranonce2Bin (length : Nat) (counter : U64) :
    (extranonce2Bin length counter).take (min length 8)
      = leBytes (min length 8) counter.toNat := by
  refine List.ext_getElem ?_ fun i hi hi' => ?_
  · rw [List.length_take, length_extranonce2Bin, length_leBytes]
    omega
  · rw [length_leBytes] at hi'
    have hsmall : i < 8 := by omega
    have hpow : (256 : Nat) ^ i = 2 ^ (8 * i) := by rw [Nat.pow_mul]
    simp only [extranonce2Bin, List.getElem_take, List.getElem_map, List.getElem_range, hsmall,
      if_true, getElem_leBytes, hpow]
    apply BitVec.eq_of_toNat_eq
    rw [BitVec.toNat_setWidth, BitVec.toNat_ushiftRight, Nat.shiftRight_eq_div_pow,
      BitVec.toNat_ofNat]

/-- Counters that the bytes can hold have different texts. -/
theorem extranonce2Generate_injective {length : Nat} {counter counter' : U64}
    (h : counter.toNat < 256 ^ min length 8) (h' : counter'.toNat < 256 ^ min length 8)
    (heq : extranonce2Generate counter length = extranonce2Generate counter' length) :
    counter = counter' := by
  rw [extranonce2Generate_eq, extranonce2Generate_eq] at heq
  have hbytes := congrArg decodeHex heq
  rw [decodeHex_bin2hex, decodeHex_bin2hex] at hbytes
  have hfirst := congrArg (fun bytes => leValue (bytes.take (min length 8))) hbytes
  simp only [take_extranonce2Bin, leValue_leBytes_of_lt h, leValue_leBytes_of_lt h'] at hfirst
  exact BitVec.eq_of_toNat_eq hfirst

end EspMiner
