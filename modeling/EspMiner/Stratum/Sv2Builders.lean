import EspMiner.Stratum.Sv2ExtendedJob
import EspMiner.Stratum.Sv2Formats

/-!
# The frames that are built

Every builder writes the frame of its message, or refuses where the frame does not fit.
-/

namespace EspMiner

open Library

/-! ## Frame headers -/

theorem writeU16Le_eq_leBytes (value : U16) : writeU16Le value = leBytes 2 value.toNat := by
  simp only [writeU16Le, leBytes, List.cons.injEq, and_true]
  constructor
  · rfl
  · apply BitVec.eq_of_toNat_eq
    simp [Nat.shiftRight_eq_div_pow]

theorem writeLe32_eq_leBytes (value : U32) : writeLe32 value = leBytes 4 value.toNat := by
  simp only [writeLe32, leBytes, List.range_succ, List.range_zero, List.nil_append,
    List.map_cons, List.map_nil, List.cons_append, List.cons.injEq, and_true]
  refine ⟨rfl, ?_, ?_, ?_⟩
  all_goals
    apply BitVec.eq_of_toNat_eq
    simp [Nat.shiftRight_eq_div_pow, Nat.div_div_eq_div_mul]

@[simp] theorem length_sv2EncodeFrameHeader (extensionType : U16) (msgType : U8)
    (msgLength : U32) :
    (sv2EncodeFrameHeader extensionType msgType msgLength).length = SV2_FRAME_HEADER_SIZE := rfl

/-- A header is read as it was written, as far as 24 bits can say the length. -/
theorem sv2ParseFrameHeader_encode (extensionType : U16) (msgType : U8) {msgLength : U32}
    (h : msgLength.toNat < 2 ^ 24) (rest : List U8) :
    Checked.sv2ParseFrameHeader (sv2EncodeFrameHeader extensionType msgType msgLength ++ rest) =
      .ok ⟨extensionType, msgType, msgLength⟩ := by
  have hextension : (extensionType.setWidth 8).setWidth 16 |||
      (((extensionType >>> 8).setWidth 8).setWidth 16 <<< 8) = extensionType := by
    apply BitVec.eq_of_getLsbD_eq
    intro i hi
    simp
    grind
  have hlength : (msgLength.setWidth 8).setWidth 32 |||
      (((msgLength >>> 8).setWidth 8).setWidth 32 <<< 8) |||
      (((msgLength >>> 16).setWidth 8).setWidth 32 <<< 16) = msgLength := by
    apply BitVec.eq_of_getLsbD_eq
    intro i hi
    have hhigh (hlarge : 24 ≤ i) : msgLength.getLsbD i = false :=
      Nat.testBit_lt_two_pow (h.trans_le (Nat.pow_le_pow_right (by decide) hlarge))
    simp
    grind
  show Except.ok _ = _
  rw [hextension, hlength]

/-! ## The staging area -/

/-- A string is taken to its 255th byte, where it fits. -/
theorem grows_writeStr0255 (dest : Filling U8) (str : Option (List U8)) :
    dest.Grows (writeStr0255 dest str) (Sv2Format.str0255.encode (Sv2Format.cut str)) .ok := by
  have hslen : (if 255 < (str.getD []).length then 255 else (str.getD []).length) =
      (Sv2Format.cut str).length := by
    rw [Sv2Format.cut, List.length_take]
    split <;> omega
  have htext : (str.getD []).take (Sv2Format.cut str).length = Sv2Format.cut str := by
    rw [Sv2Format.cut, List.length_take, ← List.take_eq_take_min]
  have hencode : Sv2Format.str0255.encode (Sv2Format.cut str) =
      BitVec.ofNat 8 (Sv2Format.cut str).length :: Sv2Format.cut str := rfl
  unfold writeStr0255
  dsimp only
  rw [hslen, htext, hencode]
  by_cases hfits : dest.untouched.length < 1 + (Sv2Format.cut str).length
  · rw [if_pos hfits, Filling.Grows, if_neg (by rw [List.length_cons]; omega)]
  · rw [if_neg hfits]
    exact Filling.grows_put (by rw [List.length_cons]; omega)

theorem sv2WriteFrame_eq (buf : List U8) (msgType : U8) (payload : Filling U8) :
    sv2WriteFrame buf msgType payload =
      if buf.length < SV2_FRAME_HEADER_SIZE + payload.written.length then .error .refused
      else .ok (SV2_FRAME_HEADER_SIZE + payload.written.length,
        (sv2EncodeFrameHeader 0x0000#16 msgType (BitVec.ofNat 32 payload.written.length) ++
          payload.written) ++
            buf.drop (SV2_FRAME_HEADER_SIZE + payload.written.length)) := by
  unfold sv2WriteFrame
  dsimp only
  split
  · rfl
  · next hroom =>
    have hfits := Nat.not_lt.mp hroom
    have hframe : (Filling.intoArray buf).Grows (do
        let frame ← (Filling.intoArray buf).put
          (sv2EncodeFrameHeader 0x0000#16 msgType (BitVec.ofNat 32 payload.written.length))
        let frame ← frame.put payload.written
        return (SV2_FRAME_HEADER_SIZE + payload.written.length, frame.contents))
        (sv2EncodeFrameHeader 0x0000#16 msgType (BitVec.ofNat 32 payload.written.length) ++
          (payload.written ++ []))
        fun frame => .ok (SV2_FRAME_HEADER_SIZE + payload.written.length, frame.contents) := by
      refine (Filling.grows_put ?_).bind fun _ => (Filling.grows_put ?_).bind fun _ =>
        Filling.grows_last _ fun frame => .ok (_, frame.contents)
      · simp only [length_sv2EncodeFrameHeader, Filling.intoArray_untouched]
        omega
      · simp only [Filling.length_extend_untouched, length_sv2EncodeFrameHeader,
          Filling.intoArray_untouched]
        omega
    rw [List.append_nil] at hframe
    rw [hframe.of_le (by simpa using hfits), Filling.contents_extend_intoArray, List.length_append,
      length_sv2EncodeFrameHeader]

/-! ## Frames -/

/-- `build` puts the frame of `message` at the start of a buffer, or refuses: exactly
where the payload has no room in the staging area or the frame none in the buffer. -/
def BuildsFrame {α : Type} (build : List U8 → Except Stop (Nat × List U8)) (staging : Option Nat)
    (extensionType : U16) (msgType : U8) (payload : Codec α) (message : α) : Prop :=
  ∀ buf : List U8,
    InBounds (build buf) ∧
    (build buf = .error .refused ↔
      (∃ room ∈ staging, room < (payload.encode message).length) ∨
        buf.length < SV2_FRAME_HEADER_SIZE + (payload.encode message).length) ∧
    ∀ total after, build buf = .ok (total, after) →
      ∃ frame header, total = frame.length ∧ frame.length ≤ buf.length ∧
        after = frame ++ buf.drop frame.length ∧
        Checked.sv2ParseFrameHeader frame = .ok header ∧
        header.extensionType = extensionType ∧ header.msgType = msgType ∧
        SV2_FRAME_HEADER_SIZE + header.msgLength.toNat = frame.length ∧
        payload.decode (frame.drop SV2_FRAME_HEADER_SIZE) = some (message, [])

/-- A builder that comes down to its header and the bytes of its message. -/
theorem buildsFrame_of_eq {α : Type} {build : List U8 → Except Stop (Nat × List U8)}
    {staging : Option Nat} {extensionType : U16} {msgType : U8} {payload : Codec α} {message : α}
    (hvalid : payload.valid message) (hsize : (payload.encode message).length < 2 ^ 24)
    (hbuild : ∀ buf, build buf =
      if (∃ room ∈ staging, room < (payload.encode message).length) ∨
          buf.length < SV2_FRAME_HEADER_SIZE + (payload.encode message).length
      then .error .refused
      else .ok (SV2_FRAME_HEADER_SIZE + (payload.encode message).length,
        (sv2EncodeFrameHeader extensionType msgType
          (BitVec.ofNat 32 (payload.encode message).length) ++ payload.encode message) ++
            buf.drop (SV2_FRAME_HEADER_SIZE + (payload.encode message).length))) :
    BuildsFrame build staging extensionType msgType payload message := by
  intro buf
  rw [hbuild buf]
  split
  · next hrefused => exact ⟨rfl, iff_of_true rfl hrefused, fun _ _ h => by cases h⟩
  · next hroom =>
    refine ⟨trivial, iff_of_false (fun h => by cases h) hroom, ?_⟩
    intro total after h
    obtain ⟨rfl, rfl⟩ := Prod.mk.inj (Except.ok.inj h)
    have hlength : (BitVec.ofNat 32 (payload.encode message).length).toNat =
        (payload.encode message).length := by
      rw [BitVec.toNat_ofNat, Nat.mod_eq_of_lt (by omega)]
    have hframe : (sv2EncodeFrameHeader extensionType msgType
        (BitVec.ofNat 32 (payload.encode message).length) ++ payload.encode message).length =
          SV2_FRAME_HEADER_SIZE + (payload.encode message).length := by
      rw [List.length_append, length_sv2EncodeFrameHeader]
    refine ⟨_, _, hframe.symm, ?_, by rw [hframe],
      sv2ParseFrameHeader_encode extensionType msgType (by rw [hlength]; exact hsize) _, rfl, rfl,
      ?_, ?_⟩
    · rw [hframe]
      exact Nat.not_lt.mp (not_or.mp hroom).2
    · rw [hframe, hlength]
    · rw [List.drop_left' (length_sv2EncodeFrameHeader _ _ _)]
      exact payload.decode_encode hvalid

/-- A builder that lays out its message in the staging area. -/
theorem buildsFrame_of_grows {α : Type} {build : List U8 → Except Stop (Nat × List U8)}
    {msgType : U8} {payload : Codec α} {message : α} (stack : Vector U8 SV2_STAGING_SIZE)
    (hvalid : payload.valid message) (hsize : (payload.encode message).length < 2 ^ 24)
    (hgrows : ∀ buf, (Filling.intoArray stack.toList).Grows (build buf) (payload.encode message)
      (sv2WriteFrame buf msgType)) :
    BuildsFrame build (some SV2_STAGING_SIZE) 0x0000#16 msgType payload message := by
  apply buildsFrame_of_eq hvalid hsize
  intro buf
  have hstack : (Filling.intoArray stack.toList).untouched.length = SV2_STAGING_SIZE :=
    stack.length_toList
  have hbuild := hgrows buf
  rw [Filling.Grows, hstack] at hbuild
  rw [hbuild]
  by_cases hfits : (payload.encode message).length ≤ SV2_STAGING_SIZE
  · have hstaged : ¬ ∃ room ∈ some SV2_STAGING_SIZE, room < (payload.encode message).length := by
      rintro ⟨room, hroom, hlt⟩
      cases hroom
      omega
    rw [if_pos hfits, sv2WriteFrame_eq, Filling.extend_written, Filling.intoArray_written,
      List.nil_append]
    by_cases hroom : buf.length < SV2_FRAME_HEADER_SIZE + (payload.encode message).length
    · rw [if_pos hroom, if_pos (Or.inr hroom)]
    · rw [if_neg hroom, if_neg (not_or.mpr ⟨hstaged, hroom⟩)]
  · rw [if_neg hfits, if_pos (Or.inl ⟨_, rfl, Nat.not_le.mp hfits⟩)]

/-! ## Builders -/

section Builders

variable (stack : Vector U8 SV2_STAGING_SIZE)

theorem buildsFrame_setupConnection (host : Option (List U8)) (port : U16)
    (vendor hwVersion firmware deviceId : Option (List U8)) (flags : U32) :
    BuildsFrame
      (fun buf => sv2BuildSetupConnection stack buf host port vendor hwVersion firmware deviceId
        flags)
      (some SV2_STAGING_SIZE) 0x0000#16 SV2_MSG_SETUP_CONNECTION Sv2Format.setupConnection
      ⟨0, 2, 2, flags, Sv2Format.cut host, port, Sv2Format.cut vendor, Sv2Format.cut hwVersion,
        Sv2Format.cut firmware, Sv2Format.cut deviceId⟩ := by
  have hhost := Sv2Format.length_cut_le host
  have hvendor := Sv2Format.length_cut_le vendor
  have hhwVersion := Sv2Format.length_cut_le hwVersion
  have hfirmware := Sv2Format.length_cut_le firmware
  have hdeviceId := Sv2Format.length_cut_le deviceId
  apply buildsFrame_of_grows stack
  · exact ⟨trivial, trivial, trivial, trivial, hhost, trivial, hvendor, hhwVersion, hfirmware,
      hdeviceId⟩
  · simp [Sv2Format.setupConnection, Sv2Format.u8, Sv2Format.u16, Sv2Format.u32, Sv2Format.str0255]
    omega
  · intro buf
    have hstack : stack.toList.length = 512 := stack.length_toList
    have hgrows : (Filling.intoArray stack.toList).Grows
        (sv2BuildSetupConnection stack buf host port vendor hwVersion firmware deviceId flags)
        ([0x00#8] ++ (writeU16Le 2 ++ (writeU16Le 2 ++ (writeLe32 flags ++
          (Sv2Format.str0255.encode (Sv2Format.cut host) ++ (writeU16Le port ++
            (Sv2Format.str0255.encode (Sv2Format.cut vendor) ++
              (Sv2Format.str0255.encode (Sv2Format.cut hwVersion) ++
                (Sv2Format.str0255.encode (Sv2Format.cut firmware) ++
                  (Sv2Format.str0255.encode (Sv2Format.cut deviceId) ++ []))))))))))
        (sv2WriteFrame buf SV2_MSG_SETUP_CONNECTION) := by
      refine (Filling.grows_put ?_).bind fun _ => (Filling.grows_put ?_).bind fun _ =>
        (Filling.grows_put ?_).bind fun _ => (Filling.grows_put ?_).bind fun _ =>
        (grows_writeStr0255 _ _).bind fun _ => (Filling.grows_put ?_).bind fun _ =>
        (grows_writeStr0255 _ _).bind fun _ => (grows_writeStr0255 _ _).bind fun _ =>
        (grows_writeStr0255 _ _).bind fun _ => (grows_writeStr0255 _ _).bind fun _ =>
        Filling.grows_last _ _
      all_goals
        simp only [Filling.length_extend_untouched, Filling.intoArray_untouched, hstack,
          length_writeLe32, writeU16Le_eq_leBytes, length_leBytes, Sv2Format.str0255,
          Codec.counted_encode, List.length_append, List.length_cons, List.length_nil]
        omega
    simpa [Sv2Format.setupConnection, Sv2Format.u8, Sv2Format.u16, Sv2Format.u32,
      writeU16Le_eq_leBytes, writeLe32_eq_leBytes] using hgrows

theorem buildsFrame_openStandardMiningChannel (requestId : U32) (userIdentity : Option (List U8))
    (nominalHashRate : U32) :
    BuildsFrame
      (fun buf => sv2BuildOpenStandardMiningChannel stack buf requestId userIdentity
        nominalHashRate)
      (some SV2_STAGING_SIZE) 0x0000#16 SV2_MSG_OPEN_STANDARD_MINING_CHANNEL
      Sv2Format.openStandardMiningChannel
      ⟨requestId, Sv2Format.cut userIdentity, nominalHashRate, Vector.replicate 32 0xFF⟩ := by
  have huser := Sv2Format.length_cut_le userIdentity
  apply buildsFrame_of_grows stack
  · exact ⟨trivial, huser, trivial, trivial⟩
  · simp [Sv2Format.openStandardMiningChannel, Sv2Format.u32, Sv2Format.u256, Sv2Format.str0255]
    omega
  · intro buf
    have hstack : stack.toList.length = 512 := stack.length_toList
    have hgrows : (Filling.intoArray stack.toList).Grows
        (sv2BuildOpenStandardMiningChannel stack buf requestId userIdentity nominalHashRate)
        (writeLe32 requestId ++ (Sv2Format.str0255.encode (Sv2Format.cut userIdentity) ++
          (writeLe32 nominalHashRate ++ (List.replicate 32 0xFF#8 ++ []))))
        (sv2WriteFrame buf SV2_MSG_OPEN_STANDARD_MINING_CHANNEL) := by
      refine (Filling.grows_put ?_).bind fun _ => (grows_writeStr0255 _ _).bind fun _ =>
        (Filling.grows_put ?_).bind fun _ => (Filling.grows_put ?_).bind fun _ =>
        Filling.grows_last _ _
      all_goals
        simp only [Filling.length_extend_untouched, Filling.intoArray_untouched, hstack,
          length_writeLe32, List.length_replicate, Sv2Format.str0255, Codec.counted_encode,
          List.length_append, List.length_singleton]
        omega
    simpa [Sv2Format.openStandardMiningChannel, Sv2Format.u32, Sv2Format.u256,
      writeLe32_eq_leBytes] using hgrows

theorem buildsFrame_openExtendedMiningChannel (requestId : U32) (userIdentity : Option (List U8))
    (nominalHashRate : U32) (minExtranonceSize : U16) :
    BuildsFrame
      (fun buf => sv2BuildOpenExtendedMiningChannel stack buf requestId userIdentity
        nominalHashRate minExtranonceSize)
      (some SV2_STAGING_SIZE) 0x0000#16 SV2_MSG_OPEN_EXTENDED_MINING_CHANNEL
      Sv2Format.openExtendedMiningChannel
      ⟨⟨requestId, Sv2Format.cut userIdentity, nominalHashRate, Vector.replicate 32 0xFF⟩,
        minExtranonceSize⟩ := by
  have huser := Sv2Format.length_cut_le userIdentity
  apply buildsFrame_of_grows stack
  · exact ⟨⟨trivial, huser, trivial, trivial⟩, trivial⟩
  · simp [Sv2Format.openExtendedMiningChannel, Sv2Format.openStandardMiningChannel, Sv2Format.u16,
      Sv2Format.u32, Sv2Format.u256, Sv2Format.str0255]
    omega
  · intro buf
    have hstack : stack.toList.length = 512 := stack.length_toList
    have hgrows : (Filling.intoArray stack.toList).Grows
        (sv2BuildOpenExtendedMiningChannel stack buf requestId userIdentity nominalHashRate
          minExtranonceSize)
        (writeLe32 requestId ++ (Sv2Format.str0255.encode (Sv2Format.cut userIdentity) ++
          (writeLe32 nominalHashRate ++ (List.replicate 32 0xFF#8 ++
            (writeU16Le minExtranonceSize ++ [])))))
        (sv2WriteFrame buf SV2_MSG_OPEN_EXTENDED_MINING_CHANNEL) := by
      refine (Filling.grows_put ?_).bind fun _ => (grows_writeStr0255 _ _).bind fun _ =>
        (Filling.grows_put ?_).bind fun _ => (Filling.grows_put ?_).bind fun _ =>
        (Filling.grows_put ?_).bind fun _ => Filling.grows_last _ _
      all_goals
        simp only [Filling.length_extend_untouched, Filling.intoArray_untouched, hstack,
          length_writeLe32, writeU16Le_eq_leBytes, length_leBytes, List.length_replicate,
          Sv2Format.str0255, Codec.counted_encode, List.length_append, List.length_singleton]
        omega
    simpa [Sv2Format.openExtendedMiningChannel, Sv2Format.openStandardMiningChannel, Sv2Format.u16,
      Sv2Format.u32, Sv2Format.u256, writeU16Le_eq_leBytes, writeLe32_eq_leBytes] using hgrows

end Builders

/-! ## Shares -/

/-- The header and the numbers of a share, and what is written behind them. -/
theorem grows_share {β : Type} {buf header tail : List U8}
    (channelId sequenceNumber jobId nonce ntime version : U32)
    {k last : Filling U8 → Except Stop β} (hheader : header.length = SV2_FRAME_HEADER_SIZE)
    (hroom : 30 ≤ buf.length)
    (hk : ∀ frame : Filling U8, frame.untouched.length = buf.length - 30 →
      frame.Grows (k frame) tail last) :
    (Filling.intoArray buf).Grows
      (do
        let frame ← (Filling.intoArray buf).put header
        let frame ← frame.put (writeLe32 channelId)
        let frame ← frame.put (writeLe32 sequenceNumber)
        let frame ← frame.put (writeLe32 jobId)
        let frame ← frame.put (writeLe32 nonce)
        let frame ← frame.put (writeLe32 ntime)
        let frame ← frame.put (writeLe32 version)
        k frame)
      (header ++ ([channelId, sequenceNumber, jobId, nonce, ntime, version].flatMap writeLe32 ++
        tail)) last := by
  have hsix : header.length = 6 := hheader
  simp only [List.flatMap_cons, List.flatMap_nil, List.append_assoc, List.nil_append]
  refine (Filling.grows_put ?_).bind fun _ => (Filling.grows_put ?_).bind fun _ =>
    (Filling.grows_put ?_).bind fun _ => (Filling.grows_put ?_).bind fun _ =>
    (Filling.grows_put ?_).bind fun _ => (Filling.grows_put ?_).bind fun _ =>
    (Filling.grows_put ?_).bind fun _ => hk _ ?_
  all_goals
    simp only [Filling.length_extend_untouched, Filling.intoArray_untouched, length_writeLe32, hsix]
    omega

/-- The extranonce behind its length. -/
theorem grows_extranonce {frame : Filling U8} {bytes : List U8} (total : Nat)
    (hroom : 1 + bytes.length ≤ frame.untouched.length) :
    frame.Grows
      (do
        let frame ← frame.put [BitVec.ofNat 8 bytes.length]
        let frame ← frame.put bytes
        return (total, frame.contents))
      (BitVec.ofNat 8 bytes.length :: bytes) fun frame => .ok (total, frame.contents) := by
  have hcount : [BitVec.ofNat 8 bytes.length].length ≤ frame.untouched.length := by
    rw [List.length_singleton]
    omega
  have hbytes : bytes.length ≤ (frame.extend [BitVec.ofNat 8 bytes.length]).untouched.length := by
    rw [Filling.length_extend_untouched, List.length_singleton]
    omega
  have htail : (frame.extend [BitVec.ofNat 8 bytes.length]).Grows
      (do
        let frame ← (frame.extend [BitVec.ofNat 8 bytes.length]).put bytes
        return (total, frame.contents))
      (bytes ++ []) fun frame => .ok (total, frame.contents) :=
    (Filling.grows_put hbytes).bind fun _ =>
      Filling.grows_last _ fun frame => .ok (total, frame.contents)
  rw [List.append_nil] at htail
  exact (Filling.grows_put hcount).bind fun _ => htail

theorem length_share (channelId sequenceNumber jobId nonce ntime version : U32) :
    ([channelId, sequenceNumber, jobId, nonce, ntime, version].flatMap writeLe32).length =
      SV2_SUBMIT_SHARES_PAYLOAD_SIZE := by
  simp [SV2_SUBMIT_SHARES_PAYLOAD_SIZE]

/-- The share that the client sends is the frame that is written. -/
theorem sv2BuildSubmitSharesInto_eq (buf : List U8)
    (channelId sequenceNumber jobId nonce ntime version : U32) (extranonce : Option ByteCounted) :
    sv2BuildSubmitSharesInto buf channelId sequenceNumber jobId nonce ntime version extranonce =
      match sv2BuildSubmitShares buf.length channelId sequenceNumber jobId nonce ntime version
        (sv2ExtranonceBytes extranonce) with
      | none => .error .refused
      | some frame => .ok (frame.length, frame ++ buf.drop frame.length) := by
  have hextended : (extranonce.isSome && decide (0 < (sv2ExtranonceBytes extranonce).length)) =
      decide (sv2ExtranonceBytes extranonce ≠ []) := by
    cases extranonce with
    | none => rfl
    | some bytes => simp [List.length_pos_iff]
  have hshare := length_share channelId sequenceNumber jobId nonce ntime version
  have hsize : SV2_FRAME_HEADER_SIZE + SV2_SUBMIT_SHARES_PAYLOAD_SIZE = 30 := rfl
  unfold sv2BuildSubmitSharesInto sv2BuildSubmitShares
  dsimp only
  rw [hextended]
  generalize sv2ExtranonceBytes extranonce = bytes
  by_cases hbytes : bytes = []
  · subst hbytes
    simp only [ne_eq, not_true_eq_false, decide_false, Bool.false_eq_true, if_false, if_true,
      Nat.add_zero, List.append_nil]
    split
    · rfl
    · next hroom =>
      have hgrows := grows_share (k := fun frame => .ok (_, frame.contents)) channelId
        sequenceNumber jobId nonce ntime version
        (length_sv2EncodeFrameHeader SV2_CHANNEL_MSG_FLAG SV2_MSG_SUBMIT_SHARES_STANDARD
          (BitVec.ofNat 32 SV2_SUBMIT_SHARES_PAYLOAD_SIZE)) (Nat.not_lt.mp hroom)
        fun frame _ => Filling.grows_last frame fun frame =>
          .ok (SV2_FRAME_HEADER_SIZE + SV2_SUBMIT_SHARES_PAYLOAD_SIZE, frame.contents)
      refine (hgrows.of_le ?_).trans ?_
      · rw [List.append_nil, List.length_append, hshare, length_sv2EncodeFrameHeader,
          Filling.intoArray_untouched]
        omega
      · dsimp only
        rw [Filling.contents_extend_intoArray, List.append_nil, List.length_append, hshare,
          length_sv2EncodeFrameHeader]
  · simp only [ne_eq, hbytes, not_false_eq_true, decide_true, if_true, if_false]
    split
    · rfl
    · next hroom =>
      have hfits := Nat.not_lt.mp hroom
      have hshares : 30 ≤ buf.length := by omega
      have hgrows := grows_share channelId sequenceNumber jobId nonce ntime version
        (length_sv2EncodeFrameHeader SV2_CHANNEL_MSG_FLAG SV2_MSG_SUBMIT_SHARES_EXTENDED
          (BitVec.ofNat 32 (SV2_SUBMIT_SHARES_PAYLOAD_SIZE + (1 + bytes.length))))
        hshares fun frame hframe => @grows_extranonce frame bytes
          (SV2_FRAME_HEADER_SIZE + (SV2_SUBMIT_SHARES_PAYLOAD_SIZE + (1 + bytes.length)))
          (by omega)
      refine (hgrows.of_le ?_).trans ?_
      · rw [List.length_append, List.length_append, hshare, length_sv2EncodeFrameHeader,
          Filling.intoArray_untouched, List.length_cons]
        omega
      · dsimp only
        have htotal : SV2_FRAME_HEADER_SIZE + (SV2_SUBMIT_SHARES_PAYLOAD_SIZE +
            (1 + bytes.length)) = SV2_FRAME_HEADER_SIZE + SV2_SUBMIT_SHARES_PAYLOAD_SIZE +
              (bytes.length + 1) := by omega
        rw [Filling.contents_extend_intoArray, ← List.append_assoc, List.length_append,
          List.length_append, List.length_cons, hshare, length_sv2EncodeFrameHeader, htotal]

theorem submitSharesStandard_encode (share : Sv2Format.SubmitShares) :
    Sv2Format.submitSharesStandard.encode share =
      [share.channelId, share.sequenceNumber, share.jobId, share.nonce, share.ntime,
        share.version].flatMap writeLe32 := by
  simp [Sv2Format.submitSharesStandard, Sv2Format.u32, writeLe32_eq_leBytes]

/-- A share without an extranonce. -/
theorem buildsFrame_submitSharesStandard (share : Sv2Format.SubmitShares)
    {extranonce : Option ByteCounted} (hextranonce : sv2ExtranonceBytes extranonce = []) :
    BuildsFrame
      (fun buf => sv2BuildSubmitSharesInto buf share.channelId share.sequenceNumber share.jobId
        share.nonce share.ntime share.version extranonce)
      none SV2_CHANNEL_MSG_FLAG SV2_MSG_SUBMIT_SHARES_STANDARD Sv2Format.submitSharesStandard
      share := by
  have hshare : (Sv2Format.submitSharesStandard.encode share).length =
      SV2_SUBMIT_SHARES_PAYLOAD_SIZE := by
    rw [submitSharesStandard_encode, length_share]
  have hbytes := submitSharesStandard_encode share
  apply buildsFrame_of_eq
  · exact ⟨trivial, trivial, trivial, trivial, trivial, trivial⟩
  · rw [hshare]
    decide
  · intro buf
    rw [sv2BuildSubmitSharesInto_eq, hextranonce, sv2BuildSubmitShares, hshare]
    simp only [if_true, Nat.add_zero, List.append_nil, ← hbytes]
    by_cases hroom : buf.length < SV2_FRAME_HEADER_SIZE + SV2_SUBMIT_SHARES_PAYLOAD_SIZE
    · rw [if_pos hroom, if_pos (Or.inr hroom)]
    · have hstaged : ¬ ∃ room ∈ (none : Option Nat), room < SV2_SUBMIT_SHARES_PAYLOAD_SIZE := by
        simp
      rw [if_neg hroom, if_neg (not_or.mpr ⟨hstaged, hroom⟩)]
      dsimp only
      rw [List.length_append, length_sv2EncodeFrameHeader, hshare]

/-- A share and its extranonce. -/
theorem buildsFrame_submitSharesExtended (share : Sv2Format.SubmitShares)
    {extranonce : Option ByteCounted} (hextranonce : sv2ExtranonceBytes extranonce ≠ []) :
    BuildsFrame
      (fun buf => sv2BuildSubmitSharesInto buf share.channelId share.sequenceNumber share.jobId
        share.nonce share.ntime share.version extranonce)
      none SV2_CHANNEL_MSG_FLAG SV2_MSG_SUBMIT_SHARES_EXTENDED Sv2Format.submitSharesExtended
      (share, sv2ExtranonceBytes extranonce) := by
  have hcounted : (sv2ExtranonceBytes extranonce).length < 256 := by
    cases extranonce with
    | none => exact absurd rfl hextranonce
    | some bytes => exact bytes.property
  have hbytes : Sv2Format.submitSharesExtended.encode (share, sv2ExtranonceBytes extranonce) =
      [share.channelId, share.sequenceNumber, share.jobId, share.nonce, share.ntime,
        share.version].flatMap writeLe32 ++
          (BitVec.ofNat 8 (sv2ExtranonceBytes extranonce).length ::
            sv2ExtranonceBytes extranonce) := by
    rw [← submitSharesStandard_encode]
    rfl
  have hsize : (Sv2Format.submitSharesExtended.encode
      (share, sv2ExtranonceBytes extranonce)).length =
        SV2_SUBMIT_SHARES_PAYLOAD_SIZE + (1 + (sv2ExtranonceBytes extranonce).length) := by
    rw [hbytes, List.length_append, length_share, List.length_cons, Nat.add_comm 1]
  apply buildsFrame_of_eq
  · exact ⟨⟨trivial, trivial, trivial, trivial, trivial, trivial⟩, Nat.le_of_lt_succ hcounted⟩
  · rw [hsize, SV2_SUBMIT_SHARES_PAYLOAD_SIZE]
    omega
  · intro buf
    rw [sv2BuildSubmitSharesInto_eq, sv2BuildSubmitShares, hsize]
    simp only [if_neg hextranonce, List.append_assoc, ← hbytes]
    by_cases hroom : buf.length < SV2_FRAME_HEADER_SIZE +
        (SV2_SUBMIT_SHARES_PAYLOAD_SIZE + (1 + (sv2ExtranonceBytes extranonce).length))
    · rw [if_pos hroom, if_pos (Or.inr hroom)]
    · have hstaged : ¬ ∃ room ∈ (none : Option Nat), room < SV2_SUBMIT_SHARES_PAYLOAD_SIZE +
          (1 + (sv2ExtranonceBytes extranonce).length) := by
        simp
      rw [if_neg hroom, if_neg (not_or.mpr ⟨hstaged, hroom⟩)]
      dsimp only
      rw [List.length_append, length_sv2EncodeFrameHeader, hsize, List.append_assoc]

end EspMiner
