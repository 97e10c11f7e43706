import EspMiner.Stratum.CoinbaseDecoder
import EspMiner.Library.CompactSize

/-!
# Coinbase transactions

A coinbase transaction as a value and as its bytes, and what the validator's two
readers find in such bytes.
-/

namespace EspMiner

open Library

/-- An output of a transaction. -/
structure CoinbaseOutput where
  value : U64
  script : List U8
  sized : script.length < 2 ^ 64

def CoinbaseOutput.bytes (output : CoinbaseOutput) : List U8 :=
  leBytes 8 output.value.toNat ++ compactSize output.script.length ++ output.script

/-- A complete coinbase transaction without witness data: one input with a null
outpoint and a script of 2 to 100 bytes. -/
structure CoinbaseTransaction where
  version : U32
  script : List U8
  sequence : U32
  outputs : List CoinbaseOutput
  lockTime : U32
  scriptSized : 2 ≤ script.length ∧ script.length ≤ 100
  paid : outputs ≠ []
  counted : outputs.length < 2 ^ 64

/-- The outpoint of an input that spends nothing. -/
def nullOutpoint : List U8 := List.replicate 32 0 ++ List.replicate 4 0xff

theorem nullOutpoint_getD :
    ∀ i < 36, (nullOutpoint.getD i 0).toNat = if i < 32 then 0 else 0xff := by
  decide

namespace CoinbaseTransaction

/-- The 42 bytes up to a script of the given size. -/
def header (version : U32) (scriptSize : U8) : List U8 :=
  leBytes 4 version.toNat ++ 1 :: nullOutpoint ++ [scriptSize]

/-- The bytes behind the script. -/
def tail (sequence : U32) (outputs : List CoinbaseOutput) (lockTime : U32) : List U8 :=
  leBytes 4 sequence.toNat ++ compactSize outputs.length ++
    outputs.flatMap CoinbaseOutput.bytes ++ leBytes 4 lockTime.toNat

def bytes (tx : CoinbaseTransaction) : List U8 :=
  header tx.version (BitVec.ofNat 8 tx.script.length) ++ tx.script ++
    tail tx.sequence tx.outputs tx.lockTime

end CoinbaseTransaction

/-! ## Reading a list of bytes -/

section Reading

variable {bytes : List U8} {offset next : Nat} {value : U64}

/-- What is read behind a tag byte. -/
theorem readCompactSize_of_tag {tag : U8} {payload rest : List U8}
    (hregion : bytes.drop offset = tag :: (payload ++ rest)) (htag : 0xfd ≤ tag)
    (hpayload : payload.length = compactSizeWidth tag) :
    readCompactSize bytes bytes.length offset =
      if leValue payload < (compactSizeLeast (compactSizeWidth tag)).toNat then none
      else some (BitVec.ofNat 64 (leValue payload), offset + 1 + payload.length) := by
  have hlength : bytes.length - offset = 1 + payload.length + rest.length := by
    rw [← List.length_drop, hregion]
    simp only [List.length_cons, List.length_append]
    omega
  have hhead : bytes.getD offset 0 = tag := by
    have := getD_of_drop_eq hregion 0
    rwa [Nat.add_zero] at this
  have hbytes : (if tag = 0xfd then 2 else if tag = 0xfe then 4 else 8) = payload.length :=
    hpayload.symm
  have hwidth : 8 * payload.length ≤ 64 := by
    rw [hpayload]
    unfold compactSizeWidth
    split_ifs <;> decide
  have hfold := toNat_foldl_or_shiftLeft (w := 64) payload
    (fun i => bytes.getD (offset + 1 + i) 0)
    (fun i hi => by
      rw [Nat.add_assoc, getD_of_drop_eq hregion, Nat.add_comm 1 i]
      simp [List.getElem?_append_left hi, hi]) hwidth
  unfold readCompactSize
  dsimp only
  rw [if_neg (by omega), hhead, if_neg (by bv_omega), hbytes, if_neg (by omega)]
  generalize List.foldl _ (0 : U64) _ = value at hfold ⊢
  rw [← hfold, BitVec.ofNat_toNat, BitVec.setWidth_eq, ← hpayload]
  exact if_congr BitVec.lt_def rfl rfl

/-- A one-byte number is the byte. -/
theorem readCompactSize_of_byte {tag : U8} {rest : List U8}
    (hregion : bytes.drop offset = tag :: rest) (htag : tag < 0xfd) :
    readCompactSize bytes bytes.length offset = some (tag.setWidth 64, offset + 1) := by
  have hlength : bytes.length - offset = 1 + rest.length := by
    rw [← List.length_drop, hregion, List.length_cons, Nat.add_comm]
  have hhead : bytes.getD offset 0 = tag := by
    have := getD_of_drop_eq hregion 0
    rwa [Nat.add_zero] at this
  unfold readCompactSize
  dsimp only
  rw [if_neg (by omega), hhead, if_pos htag]

/-- The canonical bytes of a number are read, and the offset is behind them. -/
theorem readCompactSize_compactSize {n : Nat} {rest : List U8} (hn : n < 2 ^ 64)
    (hregion : bytes.drop offset = compactSize n ++ rest) :
    readCompactSize bytes bytes.length offset =
      some (BitVec.ofNat 64 n, offset + (compactSize n).length) := by
  rcases compactSize_cases hn with ⟨hone, heq⟩ | ⟨tag, htag, hlt, hleast, heq⟩
  · rw [heq] at hregion ⊢
    have hbyte : BitVec.ofNat 8 n < 0xfd := by bv_omega
    rw [readCompactSize_of_byte hregion hbyte]
    have hvalue : (BitVec.ofNat 8 n).setWidth 64 = BitVec.ofNat 64 n := by bv_omega
    rw [hvalue]
    rfl
  · rw [heq] at hregion ⊢
    rw [readCompactSize_of_tag hregion htag (length_leBytes _ _), leValue_leBytes_of_lt hlt,
      if_neg (Nat.not_lt.mpr hleast), List.length_cons]
    congr 2
    omega

/-- A tag whose bytes are not all there is not read. -/
theorem readCompactSize_of_short {tag : U8} {rest : List U8}
    (hregion : bytes.drop offset = tag :: rest) (htag : 0xfd ≤ tag)
    (hshort : rest.length < compactSizeWidth tag) :
    readCompactSize bytes bytes.length offset = none := by
  have hlength : bytes.length - offset = 1 + rest.length := by
    rw [← List.length_drop, hregion, List.length_cons, Nat.add_comm]
  have hhead : bytes.getD offset 0 = tag := by
    have := getD_of_drop_eq hregion 0
    rwa [Nat.add_zero] at this
  have hbytes : (if tag = 0xfd then 2 else if tag = 0xfe then 4 else 8) =
      compactSizeWidth tag := rfl
  unfold readCompactSize
  dsimp only
  rw [if_neg (by omega), hhead, if_neg (by bv_omega), hbytes, if_pos (by omega)]

theorem lt_length_of_readCompactSize
    (h : readCompactSize bytes bytes.length offset = some (value, next)) :
    offset < bytes.length := by
  by_contra hend
  rw [readCompactSize, if_pos (Nat.le_of_not_lt hend)] at h
  cases h

/-- What was read is the canonical CompactSize of its value. -/
theorem drop_of_readCompactSize
    (h : readCompactSize bytes bytes.length offset = some (value, next)) :
    bytes.drop offset = compactSize value.toNat ++ bytes.drop next ∧
      next = offset + (compactSize value.toNat).length := by
  have hlt := lt_length_of_readCompactSize h
  obtain ⟨tag, rest, hregion⟩ : ∃ tag rest, bytes.drop offset = tag :: rest :=
    ⟨_, _, List.drop_eq_getElem_cons hlt⟩
  have hrest : bytes.drop (offset + 1) = rest := by
    rw [← List.drop_drop, hregion]
    rfl
  by_cases htag : tag < 0xfd
  · rw [readCompactSize_of_byte hregion htag] at h
    obtain ⟨rfl, rfl⟩ := Prod.mk.inj (Option.some.inj h)
    have hvalue : (tag.setWidth 64).toNat = tag.toNat := by bv_omega
    have hone : compactSize tag.toNat = [tag] := by
      have hlt : tag.toNat < 0xfd := htag
      rw [compactSize, if_pos hlt, BitVec.ofNat_toNat, BitVec.setWidth_eq]
    rw [hvalue, hone, hregion, hrest]
    exact ⟨rfl, rfl⟩
  · have hge : 0xfd ≤ tag := by bv_omega
    by_cases hshort : rest.length < compactSizeWidth tag
    · rw [readCompactSize_of_short hregion hge hshort] at h
      cases h
    · have hpayload : (rest.take (compactSizeWidth tag)).length = compactSizeWidth tag := by
        rw [List.length_take]
        omega
      have hbehind : bytes.drop (offset + 1 + compactSizeWidth tag) =
          rest.drop (compactSizeWidth tag) := by rw [← List.drop_drop, hrest]
      rw [← List.take_append_drop (compactSizeWidth tag) rest] at hregion
      generalize rest.take (compactSizeWidth tag) = payload at hregion hpayload
      rw [readCompactSize_of_tag hregion hge hpayload] at h
      split at h
      · cases h
      · next hleast =>
        obtain ⟨rfl, rfl⟩ := Prod.mk.inj (Option.some.inj h)
        have hlt := leValue_lt payload
        rw [hpayload] at hlt
        have hfit : leValue payload < 2 ^ 64 := by
          refine hlt.trans_le ?_
          unfold compactSizeWidth
          split_ifs <;> decide
        have hcanonical := compactSize_of_tag hge hlt (Nat.le_of_not_lt hleast)
        rw [BitVec.toNat_ofNat, Nat.mod_eq_of_lt hfit, hcanonical, ← hpayload, leBytes_leValue,
          hpayload, hregion, hbehind]
        simp only [List.cons_append, List.length_cons, true_and, hpayload]
        omega

/-! ## Outputs -/

theorem CoinbaseOutput.nine_le_length (output : CoinbaseOutput) : 9 ≤ output.bytes.length := by
  have := length_compactSize_pos output.script.length
  simp only [CoinbaseOutput.bytes, List.length_append, length_leBytes]
  omega

/-- Outputs that stand there are skipped. -/
theorem skipOutputs_bytes {outputs : List CoinbaseOutput} {rest : List U8}
    (hregion : bytes.drop offset = outputs.flatMap CoinbaseOutput.bytes ++ rest) :
    skipOutputs bytes bytes.length outputs.length offset =
      some (offset + (outputs.flatMap CoinbaseOutput.bytes).length) := by
  induction outputs generalizing offset with
  | nil => rfl
  | cons output outputs ih =>
    have hlength : bytes.length - offset =
        output.bytes.length + (outputs.flatMap CoinbaseOutput.bytes).length + rest.length := by
      rw [← List.length_drop, hregion]
      simp only [List.flatMap_cons, List.length_append]
    have hnine := output.nine_le_length
    have hsize : output.bytes.length =
        8 + (compactSize output.script.length).length + output.script.length := by
      simp only [CoinbaseOutput.bytes, List.length_append, length_leBytes]
    have hscript : bytes.drop (offset + 8) = compactSize output.script.length ++
        (output.script ++ (outputs.flatMap CoinbaseOutput.bytes ++ rest)) := by
      rw [← List.drop_drop, hregion]
      simp only [List.flatMap_cons, CoinbaseOutput.bytes, List.append_assoc]
      rw [List.drop_left' (length_leBytes _ _)]
    have hnext : bytes.drop (offset + output.bytes.length) =
        outputs.flatMap CoinbaseOutput.bytes ++ rest := by
      rw [← List.drop_drop, hregion, List.flatMap_cons, List.append_assoc, List.drop_left]
    have hvalue : (BitVec.ofNat 64 output.script.length).toNat = output.script.length := by
      rw [BitVec.toNat_ofNat, Nat.mod_eq_of_lt output.sized]
    rw [List.length_cons, skipOutputs, if_neg (by omega),
      readCompactSize_compactSize output.sized hscript]
    dsimp only
    rw [hvalue, if_neg (by omega)]
    have hbehind : offset + 8 + (compactSize output.script.length).length +
        output.script.length = offset + output.bytes.length := by omega
    rw [hbehind, ih hnext, List.flatMap_cons, List.length_append, Nat.add_assoc]

/-- Outputs that were skipped stand there. -/
theorem outputs_of_skipOutputs {count : Nat}
    (h : skipOutputs bytes bytes.length count offset = some next)
    (hoffset : offset ≤ bytes.length) :
    ∃ outputs : List CoinbaseOutput, outputs.length = count ∧ next ≤ bytes.length ∧
      bytes.drop offset = outputs.flatMap CoinbaseOutput.bytes ++ bytes.drop next := by
  induction count generalizing offset with
  | zero =>
    obtain rfl := Option.some.inj h
    exact ⟨[], rfl, hoffset, rfl⟩
  | succ count ih =>
    rw [skipOutputs] at h
    split at h
    · cases h
    · next hroom =>
      split at h
      · cases h
      · next size scriptOffset hread =>
        split at h
        · cases h
        · next hfits =>
          obtain ⟨hscript, hscriptOffset⟩ := drop_of_readCompactSize hread
          have hstart := lt_length_of_readCompactSize hread
          have hread' : scriptOffset ≤ bytes.length := by
            have := congrArg List.length hscript
            simp only [List.length_drop, List.length_append] at this
            omega
          obtain ⟨outputs, hcount, hnext, hregion⟩ := ih h (by omega)
          have htake : ((bytes.drop scriptOffset).take size.toNat).length = size.toNat := by
            rw [List.length_take, List.length_drop]
            omega
          have height : ((bytes.drop offset).take 8).length = 8 := by
            rw [List.length_take, List.length_drop]
            omega
          obtain ⟨value, hvalue⟩ :=
            exists_eq_leBytes (w := 64) ((bytes.drop offset).take 8) (by rw [height])
          refine ⟨⟨value, (bytes.drop scriptOffset).take size.toNat,
            by rw [htake]; exact size.isLt⟩ :: outputs,
            by rw [List.length_cons, hcount], hnext, ?_⟩
          calc bytes.drop offset
              = (bytes.drop offset).take 8 ++ bytes.drop (offset + 8) := by
                rw [← List.drop_drop, List.take_append_drop]
            _ = leBytes 8 value.toNat ++ (compactSize size.toNat ++
                  ((bytes.drop scriptOffset).take size.toNat ++
                    bytes.drop (scriptOffset + size.toNat))) := by
                rw [height] at hvalue
                rw [hscript, hvalue, ← List.drop_drop, List.take_append_drop]
            _ = _ := by
                rw [hregion, List.flatMap_cons, CoinbaseOutput.bytes]
                simp only [htake, List.append_assoc]

end Reading

end EspMiner
