import EspMiner.Stratum.CoinbaseProcess

/-!
# The validator and the decoder

The decoder reads no byte beside the buffers of any job, and on the jobs that the validator accepts
it finds the same split of the suffix and all the outputs.  An accepted job is a transaction, so by
induction on its outputs the decoder records each of them and ends where they do.
-/

namespace EspMiner

open Library

section Reads

variable {data : List U8} {length offset count : Nat}

theorem byteAt_of_lt {i : Nat} (h : i < length) : byteAt data length i = .ok (data.getD i 0) :=
  if_pos h

theorem sliceAt_of_le (h : offset + count ≤ length) :
    sliceAt data length offset count = .ok (((data.takeD length 0).drop offset).take count) :=
  if_pos h

/-- A loop over reads that all lie inside. -/
theorem littleEndianAt_eq_foldl {w : Nat} (h : offset + count ≤ length) :
    littleEndianAt w data length offset count = .ok ((List.range count).foldl (fun value i =>
      value ||| ((data.getD (offset + i) 0).setWidth w <<< (8 * i))) 0) := by
  unfold littleEndianAt
  have hrange : ∀ i ∈ List.range count, i < count := fun i hi => List.mem_range.mp hi
  generalize List.range count = positions at hrange
  generalize (0 : BitVec w) = value
  induction positions generalizing value with
  | nil => rfl
  | cons i positions ih =>
    have hi : i < count := hrange i List.mem_cons_self
    rw [List.foldlM_cons, byteAt_of_lt (by omega)]
    exact ih (fun i hi => hrange i (List.mem_cons_of_mem _ hi)) _

/-- What the loop reads, as a number. -/
theorem littleEndianAt_of_le {w : Nat} (h : offset + count ≤ length) (hwidth : 8 * count ≤ w) :
    littleEndianAt w data length offset count =
      .ok (BitVec.ofNat w (leValue (((data.takeD length 0).drop offset).take count))) := by
  have hlength : (((data.takeD length 0).drop offset).take count).length = count := by
    rw [List.length_take, List.length_drop, List.takeD_length]
    omega
  have hfold := toNat_foldl_or_shiftLeft (w := w)
    (((data.takeD length 0).drop offset).take count)
    (fun i => data.getD (offset + i) 0) (fun i hi => by
      rw [hlength] at hi
      rw [List.getElem_take, List.getElem_drop, ← List.getD_eq_getElem _ 0,
        getD_takeD _ _ _ (by omega)]) (by rw [hlength]; exact hwidth)
  rw [hlength] at hfold
  rw [littleEndianAt_eq_foldl h, ← hfold, BitVec.ofNat_toNat, BitVec.setWidth_eq]

/-- The decoder's number ends inside the buffer. -/
theorem coinbaseDecodeVarint_ends (hoffset : offset ≤ length) :
    Ends (coinbaseDecodeVarint data length offset) (fun read => read.2 ≤ length)
      (fun _ => False) := by
  unfold coinbaseDecodeVarint
  refine ends_ite.mpr ⟨fun _ => hoffset, fun hinside => ?_⟩
  rw [byteAt_of_lt (by omega), ends_bind, ends_ok]
  dsimp only
  refine ends_ite.mpr ⟨fun _ => ?_, fun _ => ends_ite.mpr ⟨fun _ => ?_, fun hfits => ?_⟩⟩
  · exact Nat.lt_of_not_le hinside
  · exact Nat.le_refl length
  · rw [littleEndianAt_of_le (by omega) (by split_ifs <;> decide), ends_bind, ends_ok]
    exact Nat.le_of_not_lt hfits

/-- The decoder reads a number that the validator accepts. -/
theorem coinbaseDecodeVarint_of_readCompactSize {value : U64} {next : Nat}
    (h : readCompactSize data length offset = some (value, next)) :
    coinbaseDecodeVarint data length offset = .ok (value, next) := by
  unfold readCompactSize at h
  unfold coinbaseDecodeVarint
  split at h
  · cases h
  · next hinside =>
    rw [if_neg hinside, byteAt_of_lt (Nat.lt_of_not_le hinside)]
    show (if data.getD offset 0 < 0xfd then _ else _) = _
    dsimp only at h ⊢
    split at h
    · next hone =>
      rw [if_pos hone]
      exact congrArg Except.ok (Option.some.inj h)
    · next hone =>
      rw [if_neg hone]
      generalize (if data.getD offset 0 = 0xfd then 2
        else if data.getD offset 0 = 0xfe then 4 else 8) = width at h ⊢
      split at h
      · cases h
      · next hfits =>
        generalize (if width = 2 then (0xfd : U64)
          else if width = 4 then 0x10000 else 0x100000000) = least at h
        split at h
        · cases h
        · rw [if_neg (by omega), littleEndianAt_eq_foldl (by omega)]
          exact congrArg Except.ok (Option.some.inj h)

/-! ## Addresses -/

theorem scriptIs_ends {script : List U8} {opcodes : List (Nat × U8)}
    (h : ∀ opcode ∈ opcodes, opcode.1 < length) :
    Ends (scriptIs script length opcodes) (fun same => same = true → script.length = length)
      (fun _ => False) := by
  unfold scriptIs
  refine ends_ite.mpr ⟨fun hlength => ?_, fun _ => nofun⟩
  rw [hlength]
  refine Ends.mono (Q := fun _ => True) ?_ fun _ _ _ => rfl
  induction opcodes with
  | nil => trivial
  | cons opcode opcodes ih =>
    rw [List.allM_cons, byteAt_of_lt (h opcode List.mem_cons_self)]
    simp only [ends_bind, ends_ok, ends_pure, ends_ite]
    exact ⟨fun _ => ih fun opcode hopcode => h opcode (List.mem_cons_of_mem _ hopcode),
      fun _ => trivial⟩

/-- Every script has an address. -/
theorem coinbaseDecodeAddress_ends (encoders : AddressEncoders) (script bech32Hrp : List U8)
    (isTestnet : Bool) :
    Ends (coinbaseDecodeAddressFromScriptpubkey encoders script bech32Hrp isTestnet)
      (fun _ => True) (fun _ => False) := by
  have hslice : ∀ {offset count : Nat} {Q : List U8 → Prop}, offset + count ≤ script.length →
      (∀ text, Q text) → Ends (sliceAt script script.length offset count) Q (fun _ => False) := by
    intro offset count Q hle hQ
    rw [sliceAt_of_le hle]
    exact hQ _
  unfold coinbaseDecodeAddressFromScriptpubkey
  dsimp only
  simp only [ends_bind, ends_ite, ends_pure]
  refine ⟨fun _ => trivial, fun hne => ?_⟩
  -- one test for each kind of script
  iterate 5
    refine (scriptIs_ends (by decide)).mono fun _ hsame => ⟨fun hyes =>
      hslice (by have := hsame hyes; omega) fun _ => trivial, fun _ => ?_⟩
  rw [byteAt_of_lt (by omega), ends_ok]
  refine ⟨fun _ => ⟨fun hlong => ?_, fun hshort => ?_⟩, fun _ => ?_⟩
  · rw [byteAt_of_lt hlong, ends_ok]
    exact hslice (by split_ifs <;> omega) fun _ => trivial
  · exact hslice (by omega) fun _ => trivial
  · exact hslice (by split_ifs <;> omega) fun _ => trivial

end Reads

/-! ## Every job stays inside the buffers -/

namespace CoinbaseView

variable (view : CoinbaseView)

theorem address_ends (script : List U8) :
    Ends (view.address script) (fun _ => True) (fun _ => False) :=
  coinbaseDecodeAddress_ends _ _ _ _

theorem exists_address (script : List U8) : ∃ text, view.address script = .ok text := by
  obtain ⟨text, htext, -⟩ := (view.address_ends script).exists_ok
  exact ⟨text, htext⟩

theorem recordOutput_inside (i : Nat) (valueSatoshis : U64) (script : List U8)
    (result : MiningNotificationResult) :
    Ends (view.recordOutput i valueSatoshis script result) (fun _ => True)
      (· = .invalidArg) := by
  obtain ⟨text, htext⟩ := view.exists_address script
  unfold recordOutput
  rw [htext]
  refine ends_ite.mpr ⟨fun _ => trivial, fun _ => ends_ite.mpr ⟨fun _ => trivial, fun _ => ?_⟩⟩
  trivial

variable {data : List U8} {length : Nat}

/-- The loop reads inside the suffix, and leaves its offset there. -/
theorem parseOutputs_inside (remaining i offset : Nat) (result : MiningNotificationResult)
    (hoffset : offset ≤ length) :
    Ends (view.parseOutputs data length remaining i offset result)
      (fun parsed => parsed.2 ≤ length) (· = .invalidArg) := by
  induction remaining generalizing i offset result with
  | zero => exact hoffset
  | succ remaining ih =>
    unfold parseOutputs
    dsimp only
    simp only [ends_bind, ends_ite, ends_throw]
    refine ⟨fun _ => trivial, fun hroom => ?_⟩
    rw [littleEndianAt_of_le (by omega) (by decide), ends_ok]
    refine ⟨fun _ => trivial, fun _ => ⟨fun _ => trivial, fun hscript => ?_⟩⟩
    refine ((coinbaseDecodeVarint_ends (Nat.le_of_not_le hscript)).weaken
      fun _ hnone => hnone.elim).mono
      fun decoded hsize => ?_
    obtain ⟨scriptLen, next⟩ := decoded
    dsimp only
    refine ⟨fun _ => trivial, fun hfits => ⟨fun _ => ?_, fun _ => ?_⟩⟩
    · rw [sliceAt_of_le (by omega), ends_ok]
      exact (view.recordOutput_inside _ _ _ _).mono fun _ _ => ih _ _ _ (by omega)
    · exact ih _ _ _ (by omega)

/-- Parsing the suffix from any offset reads inside it. -/
theorem parseCoinbaseSuffix_inside (job : MinerJob) (offset : Nat)
    (result : MiningNotificationResult) :
    Ends (view.parseCoinbaseSuffix job offset result) (fun _ => True) (· = .invalidArg) := by
  unfold parseCoinbaseSuffix
  dsimp only
  simp only [ends_bind, ends_ite, ends_throw]
  refine ⟨fun _ => trivial, fun hsequence => ?_⟩
  rw [littleEndianAt_of_le (by omega) (by decide), ends_ok]
  refine ⟨fun _ => trivial, fun hcount => ?_⟩
  refine ((coinbaseDecodeVarint_ends (Nat.le_of_not_le hcount)).weaken
    fun _ hnone => hnone.elim).mono
    fun decoded hlast => ?_
  obtain ⟨count, next⟩ := decoded
  dsimp only
  refine ⟨fun _ => trivial, fun _ => ?_⟩
  refine (view.parseOutputs_inside _ _ _ _ hlast).mono fun decoded hparsed => ?_
  obtain ⟨parsed, last⟩ := decoded
  dsimp only
  refine ⟨fun _ => trivial, fun hend => ?_⟩
  rw [littleEndianAt_of_le (by omega) (by decide), ends_ok]
  trivial

end CoinbaseView

/-- The tag is put together from bytes of the buffers. -/
theorem coinbaseMinerTag_inside (job : MinerJob) {offset : Nat} (scriptsigLength : Nat)
    (hoffset : offset ≤ job.coinbasePrefixLen.toNat) :
    Ends (coinbaseMinerTag job offset scriptsigLength) (fun _ => True) (fun _ => False) := by
  unfold coinbaseMinerTag
  dsimp only
  rw [sliceAt_of_le (by omega), ends_bind, ends_ok]
  refine ends_ite.mpr ⟨fun _ => trivial, fun hsuffix => ?_⟩
  rw [ends_bind, sliceAt_of_le (by omega), ends_ok]
  trivial

/-- **No job makes the decoder read beside a buffer.** -/
theorem coinbaseProcessMinerJob_inside (view : CoinbaseView) (job : MinerJob)
    (result : MiningNotificationResult) :
    Ends (coinbaseProcessMinerJob view job result) (fun _ => True) (· = .invalidArg) := by
  unfold coinbaseProcessMinerJob
  dsimp only
  simp only [ends_bind, ends_ite, ends_throw]
  refine ⟨fun _ => trivial, fun hscript => ?_⟩
  rw [byteAt_of_lt (by omega), ends_ok]
  refine ⟨fun _ => trivial, fun hheight => ?_⟩
  rw [byteAt_of_lt (by omega), ends_ok]
  refine ⟨fun _ => trivial, fun hpush => ?_⟩
  have hfour : (job.coinbasePrefix.getD 42 0).toNat ≤ 4 := by bv_omega
  rw [littleEndianAt_of_le (by omega) (by omega), ends_ok]
  refine ⟨fun _ => ?_, fun _ => ?_⟩
  · refine ((coinbaseMinerTag_inside job _ (by omega)).weaken
      fun _ hnone => hnone.elim).mono fun _ _ => ?_
    exact view.parseCoinbaseSuffix_inside _ _ _
  · exact view.parseCoinbaseSuffix_inside _ _ _

/-! ## Accepted jobs are decoded -/

/-- An entry of the result's table shows an output. -/
structure CoinbaseOutputEntry.Shows (entry : CoinbaseOutputEntry) (view : CoinbaseView)
    (output : CoinbaseOutput) : Prop where
  value : entry.valueSatoshis = output.value
  address : view.address output.script = .ok entry.address
  user : entry.isUserOutput =
    (decide (0 < output.value) && view.isUserAddress entry.address)

/-- The sum of some outputs. -/
def totalSatoshis (outputs : List CoinbaseOutput) : Nat :=
  (outputs.map fun output => output.value.toNat).sum

/-- The result after these outputs. -/
structure MiningNotificationResult.Records (result : MiningNotificationResult)
    (view : CoinbaseView) (outputs : List CoinbaseOutput) : Prop where
  total : result.totalValueSatoshis.toNat = totalSatoshis outputs
  user : result.userValueSatoshis.toNat ≤ result.totalValueSatoshis.toNat
  count : result.outputCount = min outputs.length MAX_COINBASE_TX_OUTPUTS
  entries : ∀ i (hi : i < outputs.length) (hshown : i < MAX_COINBASE_TX_OUTPUTS),
    (result.outputs[i]).Shows view outputs[i]

namespace CoinbaseView

variable {view : CoinbaseView} {result : MiningNotificationResult}
  {done outputs : List CoinbaseOutput} {output : CoinbaseOutput}

theorem putOutput_total (i : Nat) (entry : CoinbaseOutputEntry) :
    (putOutput result i entry).totalValueSatoshis = result.totalValueSatoshis := by
  unfold putOutput
  split <;> rfl

theorem putOutput_user (i : Nat) (entry : CoinbaseOutputEntry) :
    (putOutput result i entry).userValueSatoshis = result.userValueSatoshis := by
  unfold putOutput
  split <;> rfl

/-- The next entry of the table. -/
theorem records_putOutput {entry : CoinbaseOutputEntry}
    (hcount : result.outputCount = min done.length MAX_COINBASE_TX_OUTPUTS)
    (hentries : ∀ i (hi : i < done.length) (hshown : i < MAX_COINBASE_TX_OUTPUTS),
      (result.outputs[i]).Shows view done[i])
    (hentry : entry.Shows view output)
    (htotal : result.totalValueSatoshis.toNat = totalSatoshis (done ++ [output]))
    (huser : result.userValueSatoshis.toNat ≤ result.totalValueSatoshis.toNat) :
    (putOutput result done.length entry).Records view (done ++ [output]) := by
  refine ⟨by rw [putOutput_total]; exact htotal,
    by rw [putOutput_total, putOutput_user]; exact huser, ?_, ?_⟩
  · rw [List.length_append, List.length_singleton]
    unfold putOutput
    split
    · dsimp only
      omega
    · omega
  · intro i hi hshown
    rw [List.length_append, List.length_singleton] at hi
    unfold putOutput
    by_cases hlast : i = done.length
    · subst hlast
      simpa [hshown] using hentry
    · have hold : i < done.length := by omega
      have := hentries i hold hshown
      split
      · simpa [List.getElem_append_left hold, Vector.getElem_set, Ne.symm hlast] using this
      · simpa [List.getElem_append_left hold] using this

theorem recordOutput_records (hrecords : result.Records view done)
    (hsum : totalSatoshis (done ++ [output]) < 2 ^ 64) :
    Ends (view.recordOutput done.length output.value output.script
        { result with totalValueSatoshis := result.totalValueSatoshis + output.value })
      (·.Records view (done ++ [output])) (fun _ => False) := by
  obtain ⟨text, htext⟩ := view.exists_address output.script
  have hsplit : totalSatoshis (done ++ [output]) = totalSatoshis done + output.value.toNat := by
    simp [totalSatoshis]
  have htotal := hrecords.total
  have huser := hrecords.user
  have hadd : (result.totalValueSatoshis + output.value).toNat =
      totalSatoshis (done ++ [output]) := by
    rw [BitVec.toNat_add, Nat.mod_eq_of_lt (by omega), htotal, hsplit]
  unfold recordOutput
  rw [htext]
  refine ends_ite.mpr ⟨fun hpos => ?_, fun hzero =>
    ends_ite.mpr ⟨fun hshown => ?_, fun hfull => ?_⟩⟩
  · rw [ends_bind, ends_ok]
    cases hmine : view.isUserAddress text with
    | true =>
      refine records_putOutput hrecords.count hrecords.entries
        ⟨rfl, htext, by rw [decide_eq_true hpos, Bool.true_and, hmine]⟩ hadd ?_
      simp only [if_true, hadd, BitVec.toNat_add]
      rw [Nat.mod_eq_of_lt (by omega)]
      omega
    | false =>
      refine records_putOutput hrecords.count hrecords.entries
        ⟨rfl, htext, by rw [decide_eq_true hpos, Bool.true_and, hmine]⟩ hadd ?_
      simp only [Bool.false_eq_true, if_false, hadd]
      omega
  · have hvalue : output.value = 0 := by bv_omega
    rw [ends_bind, ends_ok]
    refine records_putOutput hrecords.count hrecords.entries
      ⟨hvalue.symm, htext, by simp [hvalue]⟩ hadd ?_
    simp only [hadd]
    omega
  · have hlength : ¬ done.length < MAX_COINBASE_TX_OUTPUTS := hfull
    refine ⟨hadd, ?_, ?_, fun i hi hi' => ?_⟩
    · simp only [hadd]
      omega
    · have := hrecords.count
      rw [List.length_append, List.length_singleton]
      dsimp only
      omega
    · have hold : i < done.length := by omega
      simpa [List.getElem_append_left hold] using hrecords.entries i hold hi'

variable {data : List U8} {length : Nat}

/-- The loop goes through the outputs that stand there. -/
theorem parseOutputs_records {offset : Nat} {rest : List U8}
    (hregion : (data.takeD length 0).drop offset =
      outputs.flatMap CoinbaseOutput.bytes ++ rest)
    (hrecords : result.Records view done) (hdecode : view.decodeCoinbaseTx = true)
    (hsum : totalSatoshis (done ++ outputs) < 2 ^ 64) :
    Ends (view.parseOutputs data length outputs.length done.length offset result)
      (fun parsed => parsed.1.Records view (done ++ outputs) ∧
        parsed.2 = offset + (outputs.flatMap CoinbaseOutput.bytes).length) (fun _ => False) := by
  induction outputs generalizing done offset result with
  | nil => exact ⟨(List.append_nil done).symm ▸ hrecords, rfl⟩
  | cons output outputs ih =>
    have hlength : length - offset =
        output.bytes.length + (outputs.flatMap CoinbaseOutput.bytes).length + rest.length := by
      have := congrArg List.length hregion
      rw [List.length_drop, List.takeD_length, List.flatMap_cons] at this
      simp only [List.length_append] at this
      omega
    have hnine := output.nine_le_length
    have hsize : output.bytes.length =
        8 + (compactSize output.script.length).length + output.script.length := by
      simp only [CoinbaseOutput.bytes, List.length_append, length_leBytes]
    rw [List.flatMap_cons, CoinbaseOutput.bytes] at hregion
    simp only [List.append_assoc] at hregion
    have hvalue : ((data.takeD length 0).drop offset).take 8 =
        leBytes 8 output.value.toNat := by
      rw [hregion, List.take_left' (length_leBytes _ _)]
    have hscript : (data.takeD length 0).drop (offset + 8) = compactSize output.script.length ++
        (output.script ++ (outputs.flatMap CoinbaseOutput.bytes ++ rest)) := by
      rw [← List.drop_drop, hregion, List.drop_left' (length_leBytes _ _)]
    have hread : readCompactSize data length (offset + 8) =
        some (BitVec.ofNat 64 output.script.length,
          offset + 8 + (compactSize output.script.length).length) := by
      rw [readCompactSize_takeD]
      have := readCompactSize_compactSize output.sized hscript
      rwa [List.takeD_length] at this
    have hbody : (data.takeD length 0).drop
        (offset + 8 + (compactSize output.script.length).length) =
        output.script ++ (outputs.flatMap CoinbaseOutput.bytes ++ rest) := by
      rw [← List.drop_drop, hscript, List.drop_left]
    have hnext : (data.takeD length 0).drop (offset + 8 +
        (compactSize output.script.length).length + output.script.length) =
        outputs.flatMap CoinbaseOutput.bytes ++ rest := by
      rw [← List.drop_drop, hbody, List.drop_left]
    have hscriptLen : (BitVec.ofNat 64 output.script.length).toNat = output.script.length := by
      rw [BitVec.toNat_ofNat, Nat.mod_eq_of_lt output.sized]
    have hsplit : totalSatoshis (done ++ output :: outputs) =
        totalSatoshis (done ++ [output]) + totalSatoshis outputs := by
      simp [totalSatoshis, Nat.add_assoc]
    have hfirst : totalSatoshis (done ++ [output]) =
        totalSatoshis done + output.value.toNat := by simp [totalSatoshis]
    have htotal := hrecords.total
    rw [List.length_cons, parseOutputs]
    dsimp only
    simp only [ends_bind, ends_ite, ends_throw]
    refine ⟨fun hshort => by omega, fun _ => ?_⟩
    rw [littleEndianAt_of_le (by omega) (by decide), hvalue,
      leValue_leBytes_of_lt output.value.isLt, BitVec.ofNat_toNat, BitVec.setWidth_eq, ends_ok]
    refine ⟨fun hover => ?_, fun _ => ⟨fun hend => by omega, fun _ => ?_⟩⟩
    · rw [BitVec.allOnes_sub_eq_not, BitVec.lt_def, BitVec.toNat_not] at hover
      omega
    · rw [coinbaseDecodeVarint_of_readCompactSize hread, ends_ok]
      dsimp only
      rw [hscriptLen]
      refine ⟨fun hlong => by omega, fun _ => ⟨fun _ => ?_, fun hoff => absurd hdecode hoff⟩⟩
      rw [sliceAt_of_le (by omega), hbody, List.take_left, ends_ok]
      refine (recordOutput_records hrecords (by omega)).mono fun recorded hrecorded => ?_
      have hrest := ih hnext hrecorded (by rwa [List.append_assoc])
      rw [List.length_append, List.length_singleton, List.append_assoc] at hrest
      refine hrest.mono fun parsed hparsed => ⟨hparsed.1, ?_⟩
      rw [hparsed.2, List.flatMap_cons, List.length_append]
      omega

/-- The suffix of a coinbase is parsed from its sequence to its lock time. -/
theorem parseCoinbaseSuffix_records {job : MinerJob} {offset : Nat} {sequence lockTime : U32}
    (hregion : job.suffixBytes.drop offset = CoinbaseTransaction.tail sequence outputs lockTime)
    (hne : outputs ≠ []) (hcount : outputs.length < 2 ^ 64)
    (hdecode : view.decodeCoinbaseTx = true) (hsum : totalSatoshis outputs < 2 ^ 64)
    (htotal : result.totalValueSatoshis = 0) (huser : result.userValueSatoshis = 0) :
    Ends (view.parseCoinbaseSuffix job offset result) (·.Records view outputs)
      (fun _ => False) := by
  have hlength : job.coinbaseSuffixLen.toNat - offset = 4 + (compactSize outputs.length).length +
      (outputs.flatMap CoinbaseOutput.bytes).length + 4 := by
    have := congrArg List.length hregion
    simp only [CoinbaseTransaction.tail, List.length_append, length_leBytes, List.length_drop,
      job.length_suffixBytes] at this
    exact this
  have hbehind : job.suffixBytes.drop (offset + 4) = compactSize outputs.length ++
      (outputs.flatMap CoinbaseOutput.bytes ++ leBytes 4 lockTime.toNat) := by
    rw [← List.drop_drop, hregion, CoinbaseTransaction.tail]
    simp only [List.append_assoc]
    rw [List.drop_left' (length_leBytes _ _)]
  have hread : readCompactSize job.coinbaseSuffix job.coinbaseSuffixLen.toNat (offset + 4) =
      some (BitVec.ofNat 64 outputs.length,
        offset + 4 + (compactSize outputs.length).length) := by
    rw [readCompactSize_suffixBytes]
    exact readCompactSize_compactSize hcount hbehind
  have hfirst : job.suffixBytes.drop (offset + 4 + (compactSize outputs.length).length) =
      outputs.flatMap CoinbaseOutput.bytes ++ leBytes 4 lockTime.toNat := by
    rw [← List.drop_drop, hbehind, List.drop_left]
  have hvalue : (BitVec.ofNat 64 outputs.length).toNat = outputs.length := by
    rw [BitVec.toNat_ofNat, Nat.mod_eq_of_lt hcount]
  have hpos : 0 < outputs.length := List.length_pos_iff.mpr hne
  have hempty : ({ result with outputCount := 0 } : MiningNotificationResult).Records view [] :=
    ⟨by rw [htotal]; rfl, by rw [htotal, huser], rfl, fun _ hi => by simp at hi⟩
  unfold parseCoinbaseSuffix
  dsimp only
  simp only [ends_bind, ends_ite, ends_throw]
  refine ⟨fun hshort => by omega, fun _ => ?_⟩
  rw [littleEndianAt_of_le (by omega) (by decide), ends_ok]
  refine ⟨fun hshort => by omega, fun _ => ?_⟩
  rw [coinbaseDecodeVarint_of_readCompactSize hread, ends_ok]
  dsimp only
  refine ⟨fun hzero => ?_, fun _ => ?_⟩
  · rw [hzero] at hvalue
    have hz : (0 : U64).toNat = 0 := rfl
    omega
  · rw [hvalue]
    have hparse := parseOutputs_records hfirst hempty hdecode hsum
    refine hparse.mono
      fun decoded hparsed => ?_
    obtain ⟨parsed, last⟩ := decoded
    dsimp only at hparsed ⊢
    obtain ⟨hrecords, rfl⟩ := hparsed
    refine ⟨fun hshort => by omega, fun _ => ?_⟩
    rw [littleEndianAt_of_le (by omega) (by decide), ends_ok]
    exact ⟨hrecords.total, hrecords.user, hrecords.count, hrecords.entries⟩

end CoinbaseView

/-- Both parsers split the suffix at the same place. -/
theorem coinbaseSuffixOffset_eq {job : MinerJob}
    (hpush : 43 + (job.coinbasePrefix.getD 42 0).toNat ≤ job.coinbasePrefixLen.toNat) :
    coinbaseSuffixOffset job (job.coinbasePrefix.getD 41 0) (job.coinbasePrefix.getD 42 0) =
      job.scriptEnd - job.insertedEnd := by
  have hscript : (job.prefixBytes.getD 41 0).toNat = (job.coinbasePrefix.getD 41 0).toNat := by
    rw [MinerJob.prefixBytes, getD_takeD _ _ _ (by omega)]
  unfold coinbaseSuffixOffset MinerJob.scriptEnd MinerJob.insertedEnd
  rw [hscript]
  dsimp only
  split_ifs <;> omega

section Agreement

variable {job : MinerJob} {tx : CoinbaseTransaction}

theorem coinbaseProcessMinerJob_records (view : CoinbaseView)
    (hregion : job.suffixBytes.drop (job.scriptEnd - job.insertedEnd) =
      CoinbaseTransaction.tail tx.sequence tx.outputs tx.lockTime)
    (hheight : 1 ≤ (job.coinbasePrefix.getD 42 0).toNat ∧
      (job.coinbasePrefix.getD 42 0).toNat ≤ 4)
    (hpush : 43 + (job.coinbasePrefix.getD 42 0).toNat ≤ job.coinbasePrefixLen.toNat)
    (hdecode : view.decodeCoinbaseTx = true) (hsum : totalSatoshis tx.outputs < 2 ^ 64)
    (result : MiningNotificationResult) :
    Ends (coinbaseProcessMinerJob view job result) (·.Records view tx.outputs)
      (fun _ => False) := by
  unfold coinbaseProcessMinerJob
  dsimp only
  simp only [ends_bind, ends_ite, ends_throw]
  refine ⟨fun hshort => by omega, fun _ => ?_⟩
  rw [byteAt_of_lt (by omega), ends_ok]
  refine ⟨fun hshort => by omega, fun _ => ?_⟩
  rw [byteAt_of_lt (by omega), ends_ok]
  refine ⟨fun hbad => by bv_omega, fun _ => ?_⟩
  rw [littleEndianAt_of_le (by omega) (by omega), ends_ok, coinbaseSuffixOffset_eq hpush]
  refine ⟨fun _ => (coinbaseMinerTag_inside job _ hpush).mono fun tag _ => ?_, fun _ => ?_⟩
  · exact CoinbaseView.parseCoinbaseSuffix_records hregion tx.paid tx.counted hdecode hsum rfl rfl
  · exact CoinbaseView.parseCoinbaseSuffix_records hregion tx.paid tx.counted hdecode hsum rfl rfl

/-- **The validator and the decoder agree**: the decoder stays inside the buffers of every
job, and on an accepted job it splits the suffix where the validator does and gives all
the outputs of the transaction. -/
theorem coinbase_decoded (view : CoinbaseView) (job : MinerJob) :
    (∀ result, coinbaseProcessMinerJob view job result ≠ .error .outOfBounds) ∧
    ∀ (buffers : CoinbaseBuffers) (extranonce1 extranonce2 : List U8),
      buffers.prefixAllocated = true → buffers.suffixAllocated = true →
      coinbaseValidateMinerJob buffers job = true →
      1 ≤ (job.coinbasePrefix.getD 42 0).toNat → (job.coinbasePrefix.getD 42 0).toNat ≤ 4 →
      43 + (job.coinbasePrefix.getD 42 0).toNat ≤ job.coinbasePrefixLen.toNat →
      view.decodeCoinbaseTx = true →
      extranonce1.length = job.extranonce1Len.toNat →
      extranonce2.length = job.extranonce2Len.toNat →
      (∃ tx, job.Completes extranonce1 extranonce2 tx) ∧
      ∀ tx, job.Completes extranonce1 extranonce2 tx → totalSatoshis tx.outputs < 2 ^ 64 →
        ∃ result, coinbaseProcessMinerJob view job .zero = .ok result ∧
          coinbaseSuffixOffset job (job.coinbasePrefix.getD 41 0) (job.coinbasePrefix.getD 42 0) =
            job.scriptEnd - job.insertedEnd ∧
          result.totalValueSatoshis.toNat = totalSatoshis tx.outputs ∧
          result.userValueSatoshis.toNat ≤ result.totalValueSatoshis.toNat ∧
          result.outputCount = min tx.outputs.length MAX_COINBASE_TX_OUTPUTS ∧
          ∀ i (hi : i < tx.outputs.length) (hshown : i < MAX_COINBASE_TX_OUTPUTS),
            (result.outputs[i]).Shows view tx.outputs[i] := by
  constructor
  · intro result hfault
    have hinside := coinbaseProcessMinerJob_inside view job result
    rw [hfault] at hinside
    cases hinside
  · intro buffers extranonce1 extranonce2 hpre hsuffix haccepted hone hfour hpush hdecode
      hlength1 hlength2
    obtain ⟨hlength, -, -, hheader, hend, htail⟩ :=
      (coinbaseValidateMinerJob_iff hpre hsuffix).mp haccepted
    refine ⟨exists_completes hlength hheader hend htail hlength1 hlength2, fun tx htx hsum => ?_⟩
    obtain ⟨result, hresult, hrecords⟩ := (coinbaseProcessMinerJob_records view
      (htx.tail hlength hlength1 hlength2) ⟨hone, hfour⟩ hpush hdecode hsum .zero).exists_ok
    exact ⟨result, hresult, coinbaseSuffixOffset_eq hpush, hrecords.total, hrecords.user,
      hrecords.count, hrecords.entries⟩

/-- A view without encoders. -/
def plainView : CoinbaseView := ⟨⟨fun _ _ => none, fun _ _ _ => none⟩, none, true⟩

theorem coinbase_decoded_of_single :
    coinbaseProcessMinerJob plainView singleOutputJob .zero ≠ .error .outOfBounds ∧
      ∃ result, coinbaseProcessMinerJob plainView singleOutputJob .zero = .ok result ∧
        result.outputCount = 1 ∧ result.totalValueSatoshis.toNat = 0x0202020202020202 := by
  have hdecoded := coinbase_decoded plainView singleOutputJob
  refine ⟨hdecoded.1 _, ?_⟩
  have htx := (hdecoded.2 .full [8, 9] [10] rfl rfl (by decide) (by decide) (by decide) (by decide)
    rfl rfl rfl).2
    ⟨1, [1, 5, 8, 9, 10, 7], 0xffffffff, [⟨0x0202020202020202, [], by decide⟩], 0, by decide,
      by decide, by decide⟩
    ⟨by decide, by decide, by decide⟩ (by decide)
  obtain ⟨result, hresult, -, htotal, -, hcount, -⟩ := htx
  exact ⟨result, hresult, hcount, htotal⟩

end Agreement

end EspMiner
