import EspMiner.Stratum.Sv2Builders

/-!
# The payloads that are parsed

Every parser stays inside its payload, reads a message as it was encoded and refuses every proper
part of one.  The client's model reads without checks; that its parsers are the checked ones comes
first, and the exactness of each then follows from what its fields read at their places.
-/

namespace EspMiner

open Library

/-! ## Fields of a payload -/

section Fields

variable {payload : List U8} {pos : Nat}

theorem readU16Le_of_le (h : pos + 2 ≤ payload.length) :
    Checked.readU16Le payload pos = .ok (readU16Le payload pos) := by
  rw [Checked.readU16Le, readElem_of_lt (by omega) 0, readElem_of_lt (by omega) 0]
  rfl

theorem readU32Le_of_le (h : pos + 4 ≤ payload.length) :
    Checked.readU32Le payload pos = .ok (readU32Le payload pos) := by
  rw [Checked.readU32Le, readElem_of_lt (by omega) 0, readElem_of_lt (by omega) 0,
    readElem_of_lt (by omega) 0, readElem_of_lt (by omega) 0]
  rfl

theorem readHash_of_le (h : pos + 32 ≤ payload.length) :
    Checked.readHash payload pos = .ok (readHash payload pos) := by
  have hbytes (i : Fin 32) : ((payload.drop pos).take 32).getD i 0 = payload.getD (pos + i) 0 := by
    rw [List.getD_eq_getElem?_getD, List.getD_eq_getElem?_getD, List.getElem?_take_of_lt i.isLt,
      List.getElem?_drop]
  rw [Checked.readHash, readSpan_of_le h]
  show Except.ok (Vector.ofFn fun i : Fin 32 => ((payload.drop pos).take 32).getD i 0) = _
  simp only [hbytes, readHash]

theorem readU16Le_field {value : U16} (h : FieldAt payload pos (leBytes 2 value.toNat)) :
    readU16Le payload pos = value := by
  obtain ⟨rest, hrest⟩ := h
  apply BitVec.eq_of_toNat_eq
  rw [readU16Le_of_region hrest (length_leBytes _ _), leValue_leBytes_of_lt value.isLt]

theorem readU32Le_field {value : U32} (h : FieldAt payload pos (leBytes 4 value.toNat)) :
    readU32Le payload pos = value := by
  obtain ⟨rest, hrest⟩ := h
  exact readU32Le_leBytes hrest

theorem readHash_field {hash : Vector U8 32} (h : FieldAt payload pos hash.toList) :
    readHash payload pos = hash := by
  obtain ⟨rest, hrest⟩ := h
  exact readHash_of_region hrest

end Fields

/-- The string at `pos`, cut to what the array holds before its terminator. -/
theorem readStr0255_eq {payload : List U8} {pos : Nat} (h : pos < payload.length) (room : Nat) :
    Checked.readStr0255 payload pos (room + 1) =
      if payload.length - pos < 1 + (payload.getD pos 0).toNat then .error .refused
      else .ok ((payload.drop (pos + 1)).take (min (payload.getD pos 0).toNat room)) := by
  have hslen := (payload.getD pos 0).isLt
  have hcopy : (if room + 1 ≤ (payload.getD pos 0).toNat then
      (room + 1 + (2 ^ 32 - 1)) % 2 ^ 32 else (payload.getD pos 0).toNat) =
        min (payload.getD pos 0).toNat room := by
    split
    · rw [Nat.add_assoc, Nat.add_sub_cancel' (by decide), Nat.add_mod_right,
        Nat.mod_eq_of_lt (by omega)]
      omega
    · omega
  unfold Checked.readStr0255
  dsimp only
  rw [if_neg (by omega), readElem_of_lt h 0]
  show (if payload.length - pos < 1 + (payload.getD pos 0).toNat then _ else _) = _
  split
  · rfl
  · next hwhole =>
    rw [hcopy]
    exact readSpan_of_le (by omega)

/-! ## The parsers as the client uses them -/

/-- `plain` reads without a check what `parse` reads within the payload. -/
def Unchecked {α : Type} (parse : List U8 → Except Stop α) (plain : List U8 → Option α) : Prop :=
  ∀ payload, parse payload = (plain payload).elim (.error .refused) .ok

/-- The parsers of the client's model are those that stay inside every payload.  The
client gives the text of an error 64 bytes. -/
theorem client_parsers_unchecked :
    Unchecked Checked.sv2ParseNewMiningJob sv2ParseNewMiningJob ∧
    Unchecked Checked.sv2ParseSetNewPrevHash sv2ParseSetNewPrevHash ∧
    Unchecked Checked.sv2ParseSetTarget sv2ParseSetTarget ∧
    Unchecked Checked.sv2ParseSubmitSharesSuccess sv2ParseSubmitSharesSuccess ∧
    Unchecked (Checked.sv2ParseSubmitSharesError 64) sv2ParseSubmitSharesError := by
  refine ⟨fun payload => ?_, fun payload => ?_, fun payload => ?_, fun payload => ?_,
    fun payload => ?_⟩
  · unfold Checked.sv2ParseNewMiningJob sv2ParseNewMiningJob
    split
    · rfl
    · rw [readU32Le_of_le (by omega), readU32Le_of_le (by omega), readElem_of_lt (by omega) 0]
      show (if payload.getD 8 0 = 0x01 then _ else _) = _
      split
      · split
        · rfl
        · rw [readU32Le_of_le (by omega), readU32Le_of_le (by omega), readHash_of_le (by omega)]
          rfl
      · rw [readU32Le_of_le (by omega), readHash_of_le (by omega)]
        rfl
  · unfold Checked.sv2ParseSetNewPrevHash sv2ParseSetNewPrevHash
    split
    · rfl
    · rw [readU32Le_of_le (by omega), readU32Le_of_le (by omega), readHash_of_le (by omega),
        readU32Le_of_le (by omega), readU32Le_of_le (by omega)]
      rfl
  · unfold Checked.sv2ParseSetTarget sv2ParseSetTarget
    split
    · rfl
    · rw [readU32Le_of_le (by omega), readHash_of_le (by omega)]
      rfl
  · unfold Checked.sv2ParseSubmitSharesSuccess sv2ParseSubmitSharesSuccess
    split
    · rfl
    · rw [readU32Le_of_le (by omega), readU32Le_of_le (by omega), readU32Le_of_le (by omega)]
      rfl
  · unfold Checked.sv2ParseSubmitSharesError sv2ParseSubmitSharesError readStr0255
    split
    · rfl
    · dsimp only
      rw [readU32Le_of_le (by omega), readU32Le_of_le (by omega), readStr0255_eq (by omega)]
      by_cases hwhole : payload.length - 8 < 1 + (payload.getD 8 0).toNat
      · rw [if_pos hwhole, if_pos (by omega)]
        rfl
      · rw [if_neg hwhole, if_neg (by omega)]
        rfl

/-! ## Parsers -/

/-- `parse` stays inside every payload, reads the encoding of a message as `fields` says,
and refuses each of its proper parts. -/
def ParsesExactly {α β : Type} (parse : List U8 → Except Stop α) (format : Codec β)
    (fields : β → α) : Prop :=
  (∀ payload, InBounds (parse payload)) ∧
  ∀ message, format.valid message →
    parse (format.encode message) = .ok (fields message) ∧
    ∀ part, part <+: format.encode message → part ≠ format.encode message →
      parse part = .error .refused

section ParsesExactly

variable {α β : Type} {parse : List U8 → Except Stop α} {format : Codec β} {fields : β → α}

theorem parsesExactly_of (hbounds : ∀ payload, InBounds (parse payload))
    (hread : ∀ message payload, format.valid message →
      FieldAt payload 0 (format.encode message) →
      payload.length = (format.encode message).length →
      parse payload = .ok (fields message) ∧
      ∀ part, part <+: payload → part.length < payload.length → parse part = .error .refused) :
    ParsesExactly parse format fields := by
  refine ⟨hbounds, fun message hvalid => ?_⟩
  obtain ⟨hwhole, hpart⟩ := hread message _ hvalid (fieldAt_zero _) rfl
  refine ⟨hwhole, fun part hwithin hne => hpart part hwithin ?_⟩
  exact lt_of_le_of_ne hwithin.length_le fun hlength => hne (hwithin.eq_of_length hlength)

/-- It is enough to read without checks. -/
theorem Unchecked.parsesExactly {plain : List U8 → Option α} (h : Unchecked parse plain)
    (hread : ∀ message payload, format.valid message →
      FieldAt payload 0 (format.encode message) →
      payload.length = (format.encode message).length →
      plain payload = some (fields message) ∧
      ∀ part, part <+: payload → part.length < payload.length → plain part = none) :
    ParsesExactly parse format fields := by
  refine parsesExactly_of (fun payload => ?_) fun message payload hvalid hfields hlength => ?_
  · rw [h payload]
    cases plain payload <;> trivial
  · obtain ⟨hwhole, hpart⟩ := hread message payload hvalid hfields hlength
    refine ⟨by rw [h, hwhole]; rfl, fun part hwithin hshort => ?_⟩
    rw [h, hpart part hwithin hshort]
    rfl

end ParsesExactly

/-! ### Messages of one size -/

theorem setupConnectionSuccess_parsesExactly :
    ParsesExactly Checked.sv2ParseSetupConnectionSuccess Sv2Format.setupConnectionSuccess id := by
  apply parsesExactly_of
  · intro payload
    unfold Checked.sv2ParseSetupConnectionSuccess
    split
    · exact rfl
    · rw [readU16Le_of_le (by omega), readU32Le_of_le (by omega)]
      trivial
  · intro message payload _ hfields hlength
    simp [Sv2Format.setupConnectionSuccess, Sv2Format.u16, Sv2Format.u32, fieldAt_append]
      at hfields hlength
    refine ⟨?_, fun part _ hshort => if_pos (hshort.trans_eq hlength)⟩
    rw [Checked.sv2ParseSetupConnectionSuccess, if_neg (by omega), readU16Le_of_le (by omega),
      readU32Le_of_le (by omega), readU16Le_field hfields.1, readU32Le_field hfields.2]
    rfl

theorem setNewPrevHash_parsesExactly :
    ParsesExactly Checked.sv2ParseSetNewPrevHash Sv2Format.setNewPrevHash id := by
  refine client_parsers_unchecked.2.1.parsesExactly fun message payload _ hfields hlength => ?_
  simp [Sv2Format.setNewPrevHash, Sv2Format.u32, Sv2Format.u256, fieldAt_append]
    at hfields hlength
  obtain ⟨hchannelId, hjobId, hprevHash, hminNtime, hnbits⟩ := hfields
  refine ⟨?_, fun part _ hshort => if_pos (hshort.trans_eq hlength)⟩
  rw [sv2ParseSetNewPrevHash, if_neg (by omega), readU32Le_field hchannelId,
    readU32Le_field hjobId, readHash_field hprevHash, readU32Le_field hminNtime,
    readU32Le_field hnbits]
  rfl

theorem setTarget_parsesExactly :
    ParsesExactly Checked.sv2ParseSetTarget Sv2Format.setTarget id := by
  refine client_parsers_unchecked.2.2.1.parsesExactly fun message payload _ hfields hlength => ?_
  simp [Sv2Format.setTarget, Sv2Format.u32, Sv2Format.u256, fieldAt_append] at hfields hlength
  refine ⟨?_, fun part _ hshort => if_pos (hshort.trans_eq hlength)⟩
  rw [sv2ParseSetTarget, if_neg (by omega), readU32Le_field hfields.1, readHash_field hfields.2]
  rfl

theorem submitSharesSuccess_parsesExactly :
    ParsesExactly Checked.sv2ParseSubmitSharesSuccess Sv2Format.submitSharesSuccess Prod.fst := by
  refine client_parsers_unchecked.2.2.2.1.parsesExactly
    fun message payload _ hfields hlength => ?_
  simp [Sv2Format.submitSharesSuccess, Sv2Format.u32, Sv2Format.u64, fieldAt_append]
    at hfields hlength
  obtain ⟨hchannelId, hlast, haccepted, _⟩ := hfields
  refine ⟨?_, fun part _ hshort => if_pos (hshort.trans_eq hlength)⟩
  rw [sv2ParseSubmitSharesSuccess, if_neg (by omega), readU32Le_field hchannelId,
    readU32Le_field hlast, readU32Le_field haccepted]

/-! ### An optional field -/

theorem newMiningJob_parsesExactly :
    ParsesExactly Checked.sv2ParseNewMiningJob Sv2Format.newMiningJob id := by
  refine client_parsers_unchecked.1.parsesExactly fun message payload _ hfields hlength => ?_
  obtain ⟨channelId, jobId, minNtime, version, merkleRoot⟩ := message
  cases minNtime with
  | none =>
    simp [Sv2Format.newMiningJob, Sv2Format.u32, Sv2Format.u256] at hlength
    simp only [Sv2Format.newMiningJob, Sv2Format.u32, Sv2Format.u256, Codec.record_encode,
      Codec.seq_encode, Codec.optional_encode_none, Codec.word_encode, Codec.fixed_encode,
      fieldAt_append, length_leBytes, List.length_singleton, Nat.zero_add, Nat.reduceAdd]
      at hfields
    obtain ⟨hchannelId, hjobId, hflag, hversion, hroot⟩ := hfields
    refine ⟨?_, fun part _ hshort => if_pos (hshort.trans_eq hlength)⟩
    rw [sv2ParseNewMiningJob, if_neg (by omega), hflag.getD, if_neg (by decide),
      readU32Le_field hchannelId, readU32Le_field hjobId, readU32Le_field hversion,
      readHash_field hroot]
    rfl
  | some ntime =>
    simp [Sv2Format.newMiningJob, Sv2Format.u32, Sv2Format.u256] at hlength
    simp only [Sv2Format.newMiningJob, Sv2Format.u32, Sv2Format.u256, Codec.record_encode,
      Codec.seq_encode, Codec.optional_encode_some, Codec.word_encode, Codec.fixed_encode,
      fieldAt_append, List.length_append, length_leBytes, List.length_singleton, Nat.zero_add,
      Nat.reduceAdd] at hfields
    obtain ⟨hchannelId, hjobId, ⟨hflag, hminNtime⟩, hversion, hroot⟩ := hfields
    refine ⟨?_, fun part hpart hshort => ?_⟩
    · rw [sv2ParseNewMiningJob, if_neg (by omega), hflag.getD, if_pos rfl, if_neg (by omega),
        readU32Le_field hchannelId, readU32Le_field hjobId, readU32Le_field hminNtime,
        readU32Le_field hversion, readHash_field hroot]
      rfl
    · by_cases hflagless : part.length < 45
      · exact if_pos hflagless
      · have hflag : FieldAt part 8 [1] := hflag.of_isPrefix hpart (by
          rw [List.length_singleton]
          omega)
        rw [sv2ParseNewMiningJob, if_neg hflagless, hflag.getD, if_pos rfl]
        exact if_pos (hshort.trans_eq hlength)

/-! ### Counted fields -/

theorem toNat_count {bytes : List U8} {most : Nat} (hmost : most < 256)
    (h : bytes.length ≤ most) : (BitVec.ofNat 8 bytes.length).toNat = bytes.length := by
  rw [BitVec.toNat_ofNat, Nat.mod_eq_of_lt (by omega)]

theorem openChannelSuccess_parsesExactly :
    ParsesExactly Checked.sv2ParseOpenChannelSuccess Sv2Format.openChannelSuccess id := by
  have hsize (message) : (Sv2Format.openChannelSuccess.encode message).length =
      45 + message.extranoncePrefix.length := by
    simp [Sv2Format.openChannelSuccess, Sv2Format.u32, Sv2Format.u256, Sv2Format.b032]
    omega
  apply parsesExactly_of
  · intro payload
    unfold Checked.sv2ParseOpenChannelSuccess
    split
    · exact rfl
    · rw [readU32Le_of_le (by omega), readU32Le_of_le (by omega), readHash_of_le (by omega),
        readElem_of_lt (by omega) 0]
      generalize payload.getD 40 0 = prefixLen
      show InBounds (if 32 < prefixLen.toNat then _ else _)
      split
      · exact rfl
      · split
        · exact rfl
        · rw [readSpan_of_le (by omega), readU32Le_of_le (by omega)]
          trivial
  · intro message payload hvalid hfields hlength
    have hmost : message.extranoncePrefix.length ≤ 32 := hvalid.2.2.2.1
    have hcount := toNat_count (by decide) hmost
    rw [hsize] at hlength
    simp only [Sv2Format.openChannelSuccess, Sv2Format.u32, Sv2Format.u256, Sv2Format.b032,
      Codec.record_encode, Codec.seq_encode, Codec.word_encode, Codec.fixed_encode,
      Codec.counted_encode, fieldAt_append, List.length_append, length_leBytes,
      List.length_singleton, Vector.length_toList, Nat.zero_add, Nat.reduceAdd] at hfields
    obtain ⟨hrequestId, hchannelId, htarget, ⟨hcounted, hbytes⟩, hgroup⟩ := hfields
    refine ⟨?_, fun part hpart hshort => ?_⟩
    · rw [Checked.sv2ParseOpenChannelSuccess, if_neg (by omega), readU32Le_of_le (by omega),
        readU32Le_of_le (by omega), readHash_of_le (by omega), hcounted.readElem]
      show (if 32 < (BitVec.ofNat 8 message.extranoncePrefix.length).toNat then _ else _) = _
      rw [hcount, if_neg (by omega), if_neg (by omega), readSpan_of_le (by omega),
        hbytes.take_drop, readU32Le_of_le (by omega), readU32Le_field hrequestId,
        readU32Le_field hchannelId, readHash_field htarget,
        readU32Le_field (by convert hgroup using 1; omega)]
      rfl
    · by_cases hcountless : part.length < 45
      · exact if_pos hcountless
      · have hcounted := hcounted.of_isPrefix hpart (by
          rw [List.length_singleton]
          omega)
        rw [Checked.sv2ParseOpenChannelSuccess, if_neg hcountless, readU32Le_of_le (by omega),
          readU32Le_of_le (by omega), readHash_of_le (by omega), hcounted.readElem]
        show (if 32 < (BitVec.ofNat 8 message.extranoncePrefix.length).toNat then _ else _) = _
        rw [hcount, if_neg (by omega), if_pos (by omega)]

theorem openExtendedChannelSuccess_parsesExactly :
    ParsesExactly Checked.sv2ParseOpenExtendedChannelSuccess
      Sv2Format.openExtendedChannelSuccess id := by
  have hsize (message) : (Sv2Format.openExtendedChannelSuccess.encode message).length =
      47 + message.extranoncePrefix.length := by
    simp [Sv2Format.openExtendedChannelSuccess, Sv2Format.u16, Sv2Format.u32, Sv2Format.u256,
      Sv2Format.b032]
    omega
  apply parsesExactly_of
  · intro payload
    unfold Checked.sv2ParseOpenExtendedChannelSuccess
    split
    · exact rfl
    · rw [readU32Le_of_le (by omega), readU32Le_of_le (by omega), readHash_of_le (by omega),
        readU16Le_of_le (by omega), readElem_of_lt (by omega) 0]
      generalize payload.getD 42 0 = prefixLen
      generalize readU16Le payload 40 = extranonceSize
      show InBounds (if 32 < prefixLen.toNat ∨ extranonceSize.toNat < 2 ∨
        32 < extranonceSize.toNat ∨ 32 < prefixLen.toNat + extranonceSize.toNat then _ else _)
      split
      · exact rfl
      · split
        · exact rfl
        · rw [readSpan_of_le (by omega), readU32Le_of_le (by omega)]
          trivial
  · intro message payload hvalid hfields hlength
    obtain ⟨⟨_, _, _, _, hmost, _⟩, hleast, hsum⟩ := hvalid
    have hcount := toNat_count (by decide) hmost
    rw [hsize] at hlength
    simp only [Sv2Format.openExtendedChannelSuccess, Sv2Format.u16, Sv2Format.u32, Sv2Format.u256,
      Sv2Format.b032, Codec.restrict_encode, Codec.record_encode, Codec.seq_encode,
      Codec.word_encode, Codec.fixed_encode, Codec.counted_encode, fieldAt_append,
      List.length_append, length_leBytes, List.length_singleton, Vector.length_toList,
      Nat.zero_add, Nat.reduceAdd] at hfields
    obtain ⟨hrequestId, hchannelId, htarget, hextranonce, ⟨hcounted, hbytes⟩, hgroup⟩ := hfields
    dsimp only at hcount
    -- what is read up to the count, of the message or of a part of it
    have hcounts {part : List U8} (h : 47 ≤ part.length)
        (hextranonce : FieldAt part 40 (leBytes 2 message.extranonceSize.toNat))
        (hcounted : FieldAt part 42 [BitVec.ofNat 8 message.extranoncePrefix.length]) :
        Checked.sv2ParseOpenExtendedChannelSuccess part =
          if 43 + message.extranoncePrefix.length + 4 ≠ part.length then .error .refused else do
            let extranoncePrefix ← readSpan part 43 message.extranoncePrefix.length
            let groupChannelId ← Checked.readU32Le part (43 + message.extranoncePrefix.length)
            return ⟨readU32Le part 0, readU32Le part 4, readHash part 8, message.extranonceSize,
              extranoncePrefix, groupChannelId⟩ := by
      rw [Checked.sv2ParseOpenExtendedChannelSuccess, if_neg (by omega),
        readU32Le_of_le (by omega), readU32Le_of_le (by omega), readHash_of_le (by omega),
        readU16Le_of_le (by omega), readU16Le_field hextranonce, hcounted.readElem]
      show (if 32 < (BitVec.ofNat 8 message.extranoncePrefix.length).toNat ∨
        message.extranonceSize.toNat < 2 ∨ 32 < message.extranonceSize.toNat ∨
        32 < (BitVec.ofNat 8 message.extranoncePrefix.length).toNat +
          message.extranonceSize.toNat then _ else _) = _
      rw [hcount, if_neg (by omega)]
    refine ⟨?_, fun part hpart hshort => ?_⟩
    · rw [hcounts (by omega) hextranonce hcounted, if_neg (by omega), readSpan_of_le (by omega),
        hbytes.take_drop, readU32Le_of_le (by omega), readU32Le_field hrequestId,
        readU32Le_field hchannelId, readHash_field htarget,
        readU32Le_field (by convert hgroup using 1; omega)]
      rfl
    · by_cases hcountless : part.length < 47
      · exact if_pos hcountless
      · have hextranonce := hextranonce.of_isPrefix hpart (by
          rw [length_leBytes]
          omega)
        have hcounted := hcounted.of_isPrefix hpart (by
          rw [List.length_singleton]
          omega)
        rw [hcounts (by omega) hextranonce hcounted, if_pos (by omega)]

/-- The text of an error is cut to what the caller's array holds before its terminator. -/
theorem submitSharesError_parsesExactly (room : Nat) :
    ParsesExactly (Checked.sv2ParseSubmitSharesError (room + 1)) Sv2Format.submitSharesError
      fun message => { message with errorCode := message.errorCode.take room } := by
  have hsize (message) : (Sv2Format.submitSharesError.encode message).length =
      9 + message.errorCode.length := by
    simp [Sv2Format.submitSharesError, Sv2Format.u32, Sv2Format.str0255]
    omega
  apply parsesExactly_of
  · intro payload
    unfold Checked.sv2ParseSubmitSharesError
    split
    · exact rfl
    · rw [readU32Le_of_le (by omega), readU32Le_of_le (by omega), readStr0255_eq (by omega)]
      show InBounds ((if _ then _ else _) >>= fun errorCode => _)
      split
      · exact rfl
      · trivial
  · intro message payload hvalid hfields hlength
    have hmost : message.errorCode.length ≤ 255 := hvalid.2.2
    have hcount := toNat_count (by decide) hmost
    rw [hsize] at hlength
    simp only [Sv2Format.submitSharesError, Sv2Format.u32, Sv2Format.str0255, Codec.record_encode,
      Codec.seq_encode, Codec.word_encode, Codec.counted_encode, fieldAt_append, length_leBytes,
      List.length_singleton, Nat.zero_add, Nat.reduceAdd] at hfields
    obtain ⟨hchannelId, hseqNum, hcounted, hbytes⟩ := hfields
    have htext : (payload.drop 9).take (min message.errorCode.length room) =
        message.errorCode.take room := by
      rw [Nat.min_comm, ← List.take_take, hbytes.take_drop]
    refine ⟨?_, fun part hpart hshort => ?_⟩
    · rw [Checked.sv2ParseSubmitSharesError, if_neg (by omega), readU32Le_of_le (by omega),
        readU32Le_of_le (by omega), readStr0255_eq (by omega), hcounted.getD, hcount,
        if_neg (by omega), htext, readU32Le_field hchannelId, readU32Le_field hseqNum]
      rfl
    · by_cases hcountless : part.length < 9
      · exact if_pos hcountless
      · have hcounted := hcounted.of_isPrefix hpart (by
          rw [List.length_singleton]
          omega)
        rw [Checked.sv2ParseSubmitSharesError, if_neg hcountless, readU32Le_of_le (by omega),
          readU32Le_of_le (by omega), readStr0255_eq (by omega), hcounted.getD, hcount,
          if_pos (by omega)]
        rfl

/-! ## All messages -/

/-- **Stratum V2 messages are encoded and decoded exactly.**  The four builders write the
frame of their arguments or refuse it for want of room, and the eight parsers read a
message from its encoding, from no part of it, and without leaving the payload. -/
theorem sv2_messages_exact :
    (∀ stack host port vendor hwVersion firmware deviceId flags,
      BuildsFrame
        (fun buf => sv2BuildSetupConnection stack buf host port vendor hwVersion firmware
          deviceId flags)
        (some SV2_STAGING_SIZE) 0x0000#16 SV2_MSG_SETUP_CONNECTION Sv2Format.setupConnection
        ⟨0, 2, 2, flags, Sv2Format.cut host, port, Sv2Format.cut vendor,
          Sv2Format.cut hwVersion, Sv2Format.cut firmware, Sv2Format.cut deviceId⟩) ∧
    (∀ stack requestId userIdentity nominalHashRate,
      BuildsFrame
        (fun buf => sv2BuildOpenStandardMiningChannel stack buf requestId userIdentity
          nominalHashRate)
        (some SV2_STAGING_SIZE) 0x0000#16 SV2_MSG_OPEN_STANDARD_MINING_CHANNEL
        Sv2Format.openStandardMiningChannel
        ⟨requestId, Sv2Format.cut userIdentity, nominalHashRate, Vector.replicate 32 0xFF⟩) ∧
    (∀ stack requestId userIdentity nominalHashRate minExtranonceSize,
      BuildsFrame
        (fun buf => sv2BuildOpenExtendedMiningChannel stack buf requestId userIdentity
          nominalHashRate minExtranonceSize)
        (some SV2_STAGING_SIZE) 0x0000#16 SV2_MSG_OPEN_EXTENDED_MINING_CHANNEL
        Sv2Format.openExtendedMiningChannel
        ⟨⟨requestId, Sv2Format.cut userIdentity, nominalHashRate, Vector.replicate 32 0xFF⟩,
          minExtranonceSize⟩) ∧
    (∀ (share : Sv2Format.SubmitShares) extranonce,
      if sv2ExtranonceBytes extranonce = [] then
        BuildsFrame
          (fun buf => sv2BuildSubmitSharesInto buf share.channelId share.sequenceNumber
            share.jobId share.nonce share.ntime share.version extranonce)
          none SV2_CHANNEL_MSG_FLAG SV2_MSG_SUBMIT_SHARES_STANDARD
          Sv2Format.submitSharesStandard share
      else
        BuildsFrame
          (fun buf => sv2BuildSubmitSharesInto buf share.channelId share.sequenceNumber
            share.jobId share.nonce share.ntime share.version extranonce)
          none SV2_CHANNEL_MSG_FLAG SV2_MSG_SUBMIT_SHARES_EXTENDED
          Sv2Format.submitSharesExtended (share, sv2ExtranonceBytes extranonce)) ∧
    ParsesExactly Checked.sv2ParseSetupConnectionSuccess Sv2Format.setupConnectionSuccess id ∧
    ParsesExactly Checked.sv2ParseOpenChannelSuccess Sv2Format.openChannelSuccess id ∧
    ParsesExactly Checked.sv2ParseOpenExtendedChannelSuccess
      Sv2Format.openExtendedChannelSuccess id ∧
    ParsesExactly Checked.sv2ParseNewMiningJob Sv2Format.newMiningJob id ∧
    ParsesExactly Checked.sv2ParseSetNewPrevHash Sv2Format.setNewPrevHash id ∧
    ParsesExactly Checked.sv2ParseSetTarget Sv2Format.setTarget id ∧
    ParsesExactly Checked.sv2ParseSubmitSharesSuccess Sv2Format.submitSharesSuccess Prod.fst ∧
    ∀ room, ParsesExactly (Checked.sv2ParseSubmitSharesError (room + 1))
      Sv2Format.submitSharesError
        fun message => { message with errorCode := message.errorCode.take room } := by
  refine ⟨?_, ?_, ?_, ?_, setupConnectionSuccess_parsesExactly, openChannelSuccess_parsesExactly,
    openExtendedChannelSuccess_parsesExactly, newMiningJob_parsesExactly,
    setNewPrevHash_parsesExactly, setTarget_parsesExactly, submitSharesSuccess_parsesExactly,
    submitSharesError_parsesExactly⟩
  · intro stack host port vendor hwVersion firmware deviceId flags
    exact buildsFrame_setupConnection stack host port vendor hwVersion firmware deviceId flags
  · intro stack requestId userIdentity nominalHashRate
    exact buildsFrame_openStandardMiningChannel stack requestId userIdentity nominalHashRate
  · intro stack requestId userIdentity nominalHashRate minExtranonceSize
    exact buildsFrame_openExtendedMiningChannel stack requestId userIdentity nominalHashRate
      minExtranonceSize
  · intro share extranonce
    split
    · next hextranonce => exact buildsFrame_submitSharesStandard share hextranonce
    · next hextranonce => exact buildsFrame_submitSharesExtended share hextranonce

end EspMiner
