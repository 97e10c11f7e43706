import EspMiner.Stratum.Sv2Noise

/-!
# The encrypted transport is a channel

What the receiving calls return is what was sent, in order and up to the first difference of
the stream, and no nonce is ever used twice, whatever fails on the way.  A record that opens was
sealed at its nonce, as none is forged, so by induction on the frames the counter of the receiver
keeps up with that of the sender.
-/

namespace EspMiner

variable {send : List U8 × NoiseSendOutcome}

open Library

/-! ## Nonces -/

theorem buildNonce_toList (counter : U64) :
    (buildNonce counter).toList = List.replicate 4 0#8 ++ leBytes 8 counter.toNat := by
  rw [buildNonce, Vector.toList_append, Vector.toList_ofFn]
  congr 1
  apply List.ext_getElem
  · simp
  · intro i h h'
    rw [getElem_leBytes, List.getElem_ofFn]
    apply BitVec.eq_of_toNat_eq
    rw [BitVec.toNat_setWidth, BitVec.toNat_ushiftRight, BitVec.toNat_ofNat,
      Nat.shiftRight_eq_div_pow, Nat.mul_comm i 8, Nat.pow_mul]

theorem buildNonce_injective {a b : U64} (h : buildNonce a = buildNonce b) : a = b := by
  have hlist := congrArg Vector.toList h
  rw [buildNonce_toList, buildNonce_toList] at hlist
  exact leBytes_toNat_inj (by decide) (List.append_cancel_left hlist)

/-- The nonce of a counter that is known as a number -/
def nonceOf (counter : Nat) : NoiseNonce := buildNonce (BitVec.ofNat 64 counter)

theorem nonceOf_injective {m n : Nat} (hm : m < 2 ^ 64) (hn : n < 2 ^ 64)
    (h : nonceOf m = nonceOf n) : m = n := by
  have heq := congrArg BitVec.toNat (buildNonce_injective h)
  rwa [BitVec.toNat_ofNat, BitVec.toNat_ofNat, Nat.mod_eq_of_lt hm, Nat.mod_eq_of_lt hn] at heq

/-! ## What is sent -/

/-- The header of a frame and its payload -/
def frameParts (frame : List U8) : List U8 × List U8 :=
  (frame.take SV2_FRAME_HEADER_SIZE, frame.drop SV2_FRAME_HEADER_SIZE)

/-- The frame is whole: its header says how long its payload is. -/
def WholeFrame (frame : List U8) : Prop :=
  ∃ header, Checked.sv2ParseFrameHeader frame = .ok header ∧
    SV2_FRAME_HEADER_SIZE + header.msgLength.toNat = frame.length

/-- What the ciphertexts of a frame are on the wire, from a counter on -/
def frameWire (aead : Aead) (key : NoiseKey) (n : Nat) (frame : List U8) : List U8 :=
  aead.encrypt key (nonceOf n) [] (frameParts frame).1
    ++ if (frameParts frame).2 = [] then []
      else aead.encrypt key (nonceOf (n + 1)) [] (frameParts frame).2

theorem frameWire_of_header {frame : List U8} (h : (frameParts frame).2 = []) (aead : Aead)
    (key : NoiseKey) (n : Nat) :
    frameWire aead key n frame = aead.encrypt key (nonceOf n) [] (frameParts frame).1 := by
  rw [frameWire, if_pos h, List.append_nil]

theorem frameWire_of_payload {frame : List U8} (h : (frameParts frame).2 ≠ []) (aead : Aead)
    (key : NoiseKey) (n : Nat) :
    frameWire aead key n frame = aead.encrypt key (nonceOf n) [] (frameParts frame).1
      ++ aead.encrypt key (nonceOf (n + 1)) [] (frameParts frame).2 := by
  rw [frameWire, if_neg h]

/-- How many nonces a frame uses -/
def frameNonces (frame : List U8) : Nat := if (frameParts frame).2 = [] then 1 else 2

def framesWire (aead : Aead) (key : NoiseKey) : Nat → List (List U8) → List U8
  | _, [] => []
  | n, frame :: frames =>
      frameWire aead key n frame ++ framesWire aead key (n + frameNonces frame) frames

/-- A call gives up before it encrypts anything. -/
def IsRefused (send : List U8 × NoiseSendOutcome) : Prop :=
  send.1.length < SV2_FRAME_HEADER_SIZE ∨
    (frameParts send.1).2 ≠ [] ∧ send.2.allocates = false

instance (send : List U8 × NoiseSendOutcome) : Decidable (IsRefused send) :=
  inferInstanceAs (Decidable (_ ∨ _))

/-- A call encrypts the whole frame. -/
def IsSealed (send : List U8 × NoiseSendOutcome) : Prop :=
  send.2.headerEncrypts = true ∧ ((frameParts send.1).2 = [] ∨ send.2.payloadEncrypts = true)

instance (send : List U8 × NoiseSendOutcome) : Decidable (IsSealed send) :=
  inferInstanceAs (Decidable (_ ∧ _))

/-- The frames that were encrypted, up to the first that was not encrypted whole -/
def sealedFrames : List (List U8 × NoiseSendOutcome) → List (List U8)
  | [] => []
  | send :: sends =>
      if IsRefused send then sealedFrames sends
      else if IsSealed send then send.1 :: sealedFrames sends
      else []

theorem sealedFrames_sublist (sends : List (List U8 × NoiseSendOutcome)) :
    List.Sublist (sealedFrames sends) (sends.map Prod.fst) := by
  induction sends with
  | nil => exact .slnil
  | cons send sends ih =>
    rw [sealedFrames, List.map_cons]
    split
    · exact ih.cons _
    · split
      · exact ih.cons_cons _
      · exact List.nil_sublist _

/-- A call that encrypts, by its counter -/
structure NoiseRecord where
  counter : Nat
  plaintext : List U8
  succeeds : Bool

def NoiseRecord.sealing (record : NoiseRecord) : NoiseSealing :=
  ⟨nonceOf record.counter, record.plaintext, record.succeeds⟩

/-- The calls that encrypt for a frame, from a counter on -/
def frameRecords (n : Nat) (send : List U8 × NoiseSendOutcome) : List NoiseRecord :=
  let (header, payload) := frameParts send.1
  let first : NoiseRecord := ⟨n, header, send.2.headerEncrypts⟩
  if IsRefused send then []
  else if payload = [] ∨ send.2.headerEncrypts = false then [first]
  else [first, ⟨n + 1, payload, send.2.payloadEncrypts⟩]

def sendRecords : Nat → List (List U8 × NoiseSendOutcome) → List NoiseRecord
  | _, [] => []
  | n, send :: sends =>
      frameRecords n send ++ sendRecords (n + (frameRecords n send).length) sends

theorem frameRecords_of_refused (h : IsRefused send) (n : Nat) :
    frameRecords n send = [] := if_pos h

theorem frameRecords_of_header (h : ¬ IsRefused send)
    (hheader : (frameParts send.1).2 = [] ∨ send.2.headerEncrypts = false) (n : Nat) :
    frameRecords n send = [⟨n, (frameParts send.1).1, send.2.headerEncrypts⟩] := by
  simp only [frameRecords, if_neg h, if_pos hheader]

theorem frameRecords_of_payload (h : ¬ IsRefused send) (hpayload : (frameParts send.1).2 ≠ [])
    (hheader : send.2.headerEncrypts = true) (n : Nat) :
    frameRecords n send = [⟨n, (frameParts send.1).1, true⟩,
      ⟨n + 1, (frameParts send.1).2, send.2.payloadEncrypts⟩] := by
  simp [frameRecords, if_neg h, hpayload, hheader]

theorem frameRecords_length (hrefused : ¬ IsRefused send) (hsealed : IsSealed send) (n : Nat) :
    (frameRecords n send).length = frameNonces send.1 := by
  unfold frameNonces
  split
  next hpayload => rw [frameRecords_of_header hrefused (.inl hpayload)]; rfl
  next hpayload => rw [frameRecords_of_payload hrefused hpayload hsealed.1]; rfl

/-- A call encrypts nothing, one plaintext or two, with the next counters. -/
theorem frameRecords_cases (n : Nat) (send : List U8 × NoiseSendOutcome) :
    frameRecords n send = [] ∨ (∃ header succeeds, frameRecords n send = [⟨n, header, succeeds⟩]) ∨
      ∃ header payload succeeds,
        frameRecords n send = [⟨n, header, true⟩, ⟨n + 1, payload, succeeds⟩] := by
  by_cases hrefused : IsRefused send
  · exact .inl (frameRecords_of_refused hrefused n)
  by_cases hheader : (frameParts send.1).2 = [] ∨ send.2.headerEncrypts = false
  · exact .inr (.inl ⟨_, _, frameRecords_of_header hrefused hheader n⟩)
  · obtain ⟨hpayload, hencrypts⟩ := not_or.mp hheader
    exact .inr (.inr ⟨_, _, _,
      frameRecords_of_payload hrefused hpayload (by simpa using hencrypts) n⟩)

theorem sendRecords_counter {n : Nat} {sends : List (List U8 × NoiseSendOutcome)}
    {record : NoiseRecord} (h : record ∈ sendRecords n sends) :
    n ≤ record.counter ∧ record.counter < n + 2 * sends.length := by
  induction sends generalizing n with
  | nil => exact absurd h List.not_mem_nil
  | cons send sends ih =>
    rw [sendRecords] at h
    rw [List.length_cons]
    rcases frameRecords_cases n send with hnone | ⟨header, succeeds, hone⟩ |
        ⟨header, payload, succeeds, htwo⟩
    · rw [hnone, List.nil_append] at h
      have hrest := ih h
      simp only [List.length_nil] at hrest
      omega
    · rw [hone, List.singleton_append] at h
      rcases List.mem_cons.mp h with rfl | h
      · exact ⟨Nat.le_refl n, by dsimp only; omega⟩
      · have hrest := ih h
        simp only [List.length_singleton] at hrest
        omega
    · rw [htwo, List.cons_append, List.singleton_append] at h
      rcases List.mem_cons.mp h with rfl | h
      · exact ⟨Nat.le_refl n, by dsimp only; omega⟩
      · rcases List.mem_cons.mp h with rfl | h
        · exact ⟨Nat.le_succ n, by dsimp only; omega⟩
        · have hrest := ih h
          simp only [List.length_cons, List.length_nil] at hrest
          omega

/-- The counters of the calls go up. -/
theorem sendRecords_pairwise (n : Nat) (sends : List (List U8 × NoiseSendOutcome)) :
    (sendRecords n sends).Pairwise fun first second => first.counter < second.counter := by
  induction sends generalizing n with
  | nil => exact List.Pairwise.nil
  | cons send sends ih =>
    rw [sendRecords]
    rcases frameRecords_cases n send with hnone | ⟨header, succeeds, hone⟩ |
        ⟨header, payload, succeeds, htwo⟩
    · rw [hnone]
      exact ih _
    · rw [hone]
      refine List.pairwise_cons.mpr ⟨?_, ih _⟩
      intro record hrecord
      exact (sendRecords_counter hrecord).1
    · rw [htwo]
      refine List.pairwise_cons.mpr ⟨?_, List.pairwise_cons.mpr ⟨?_, ih _⟩⟩
      · intro record hrecord
        rcases List.mem_cons.mp hrecord with rfl | hrest
        · exact Nat.lt_succ_self n
        · exact (Nat.lt_add_of_pos_right Nat.two_pos).trans_le (sendRecords_counter hrest).1
      · intro record hrecord
        exact (sendRecords_counter hrecord).1

section Sender

variable {aead : Aead} {ctx : Sv2NoiseCtx} {n : Nat}

/-- What one call leaves, where the handshake is over -/
structure SendsFrame (aead : Aead) (ctx : Sv2NoiseCtx) (n : Nat)
    (send : List U8 × NoiseSendOutcome) (left : NoiseSend) : Prop where
  key : left.ctx.sendKey = ctx.sendKey
  complete : left.ctx.handshakeComplete = true
  counter : left.ctx.sendNonce = BitVec.ofNat 64 (n + (frameRecords n send).length)
  sealings : left.sealings = (frameRecords n send).map NoiseRecord.sealing
  wire : left.result = true →
    ¬ IsRefused send ∧ IsSealed send ∧ left.wire = frameWire aead ctx.sendKey n send.1

theorem countSend_sendNonce (h : ctx.sendNonce = BitVec.ofNat 64 n) :
    ctx.countSend.sendNonce = BitVec.ofNat 64 (n + 1) := by
  show ctx.sendNonce + 1 = _
  rw [h, BitVec.ofNat_add]
  rfl

theorem noiseSendAll_complete {bytes : List U8} {written : Nat}
    (h : (noiseSendAll bytes written).1 = true) : (noiseSendAll bytes written).2 = bytes :=
  List.take_of_length_le (of_decide_eq_true h)

theorem SendsFrame.of_refused (h : IsRefused send) (hcomplete : ctx.handshakeComplete = true)
    (hcounter : ctx.sendNonce = BitVec.ofNat 64 n) :
    SendsFrame aead ctx n send ⟨false, ctx, [], []⟩ where
  key := rfl
  complete := hcomplete
  counter := by rw [frameRecords_of_refused h]; exact hcounter
  sealings := by rw [frameRecords_of_refused h]; rfl
  wire hresult := by cases hresult

theorem sendsFrame (hcomplete : ctx.handshakeComplete = true)
    (hcounter : ctx.sendNonce = BitVec.ofNat 64 n) (send : List U8 × NoiseSendOutcome) :
    SendsFrame aead ctx n send (sv2NoiseSend aead ctx send.1 send.2) := by
  obtain ⟨frame, outcome⟩ := send
  unfold sv2NoiseSend
  rw [hcomplete]
  simp only [Bool.true_eq_false, false_or]
  by_cases hshort : frame.length < SV2_FRAME_HEADER_SIZE
  · rw [if_pos hshort]
    exact .of_refused (.inl hshort) hcomplete hcounter
  rw [if_neg hshort]
  by_cases hpayload : frame.drop SV2_FRAME_HEADER_SIZE = []
  · -- the frame is a header only
    have hrefused : ¬ IsRefused (frame, outcome) := by
      rintro (h | ⟨h, -⟩)
      · exact hshort h
      · exact h hpayload
    have hrecords := frameRecords_of_header hrefused (.inl hpayload) n
    rw [if_pos hpayload, noiseEncrypt]
    cases hheader : outcome.headerEncrypts with
    | false =>
      rw [if_neg Bool.false_ne_true]
      refine ⟨rfl, hcomplete, ?_, ?_, fun h => by cases h⟩
      · rw [hrecords]
        exact countSend_sendNonce hcounter
      · rw [hrecords]
        simp [NoiseRecord.sealing, nonceOf, hcounter, hheader, frameParts]
    | true =>
      rw [if_pos rfl]
      refine ⟨rfl, hcomplete, ?_, ?_, ?_⟩
      · rw [hrecords]
        exact countSend_sendNonce hcounter
      · rw [hrecords]
        simp [NoiseRecord.sealing, nonceOf, hcounter, hheader, frameParts]
      · intro hresult
        refine ⟨hrefused, ⟨hheader, .inl hpayload⟩, ?_⟩
        refine (noiseSendAll_complete hresult).trans ?_
        rw [frameWire_of_header hpayload, hcounter]
        rfl
  rw [if_neg hpayload]
  cases hallocates : outcome.allocates with
  | false =>
    rw [if_pos rfl]
    exact .of_refused (.inr ⟨hpayload, hallocates⟩) hcomplete hcounter
  | true =>
    rw [if_neg (by decide)]
    have hrefused : ¬ IsRefused (frame, outcome) := by
      rintro (h | ⟨-, h⟩)
      · exact hshort h
      · exact Bool.noConfusion (h.symm.trans hallocates)
    cases hheader : outcome.headerEncrypts with
    | false =>
      have hrecords := frameRecords_of_header hrefused (.inr hheader) n
      rw [noiseEncrypt, if_neg Bool.false_ne_true]
      refine ⟨rfl, hcomplete, ?_, ?_, fun h => by cases h⟩
      · rw [hrecords]
        exact countSend_sendNonce hcounter
      · rw [hrecords]
        simp [NoiseRecord.sealing, nonceOf, hcounter, hheader, frameParts]
    | true =>
      have hrecords := frameRecords_of_payload hrefused hpayload hheader n
      have hsecond := countSend_sendNonce hcounter
      rw [noiseEncrypt, noiseEncrypt, if_pos rfl]
      cases hsealed : outcome.payloadEncrypts with
      | false =>
        rw [if_neg Bool.false_ne_true]
        refine ⟨rfl, hcomplete, ?_, ?_, fun h => by cases h⟩
        · rw [hrecords]
          exact countSend_sendNonce hsecond
        · rw [hrecords]
          simp [NoiseRecord.sealing, nonceOf, hcounter, hsecond, hsealed, frameParts]
      | true =>
        rw [if_pos rfl]
        refine ⟨rfl, hcomplete, ?_, ?_, ?_⟩
        · rw [hrecords]
          exact countSend_sendNonce hsecond
        · rw [hrecords]
          simp [NoiseRecord.sealing, nonceOf, hcounter, hsecond, hsealed, frameParts]
        · intro hresult
          refine ⟨hrefused, ⟨hheader, .inr hsealed⟩, ?_⟩
          refine (noiseSendAll_complete hresult).trans ?_
          rw [frameWire_of_payload hpayload, hcounter, hsecond]
          rfl

theorem sendFrames_sealings (hcomplete : ctx.handshakeComplete = true)
    (hcounter : ctx.sendNonce = BitVec.ofNat 64 n) (sends : List (List U8 × NoiseSendOutcome)) :
    (sendFrames aead ctx sends).sealings = (sendRecords n sends).map NoiseRecord.sealing := by
  induction sends generalizing ctx n with
  | nil => rfl
  | cons send sends ih =>
    have hsend := @sendsFrame aead ctx n hcomplete hcounter send
    rw [sendFrames, sendRecords, List.map_append, ← hsend.sealings,
      ← ih hsend.complete hsend.counter]

/-- Calls that all return 0 put the ciphertexts of all frames on the wire. -/
theorem sendFrames_wire (hcomplete : ctx.handshakeComplete = true)
    (hcounter : ctx.sendNonce = BitVec.ofNat 64 n) {sends : List (List U8 × NoiseSendOutcome)}
    (hresult : (sendFrames aead ctx sends).result = true) :
    sealedFrames sends = sends.map Prod.fst ∧
      (sendFrames aead ctx sends).wire = framesWire aead ctx.sendKey n (sends.map Prod.fst) := by
  induction sends generalizing ctx n with
  | nil => exact ⟨rfl, rfl⟩
  | cons send sends ih =>
    have hsend := @sendsFrame aead ctx n hcomplete hcounter send
    simp only [sendFrames, Bool.and_eq_true] at hresult
    obtain ⟨hrefused, hsealed, hwire⟩ := hsend.wire hresult.1
    obtain ⟨hframes, hrest⟩ := ih hsend.complete hsend.counter hresult.2
    constructor
    · rw [sealedFrames, if_neg hrefused, if_pos hsealed, hframes, List.map_cons]
    · rw [hsend.key, frameRecords_length hrefused hsealed] at hrest
      rw [List.map_cons, framesWire, ← hwire, ← hrest]
      rfl

end Sender

/-! ## What is received -/

/-- No part of the stream is forged: what decrypts with the key was encrypted by the sender, with
the nonce. -/
def Unforged (aead : Aead) (key : NoiseKey) (sealings : List NoiseSealing) (stream : List U8) :
    Prop :=
  ∀ nonce ciphertext plaintext, ciphertext <:+: stream →
    aead.decrypt key nonce [] ciphertext = some plaintext →
      ⟨nonce, plaintext, true⟩ ∈ sealings ∧ ciphertext = aead.encrypt key nonce [] plaintext

/-- The same with the calls that encrypt from a counter on. -/
def UnforgedFrom (aead : Aead) (key : NoiseKey) (n : Nat) (records : List NoiseRecord)
    (stream : List U8) : Prop :=
  ∀ counter ciphertext plaintext, n ≤ counter → counter < 2 ^ 64 → ciphertext <:+: stream →
    aead.decrypt key (nonceOf counter) [] ciphertext = some plaintext →
      ⟨counter, plaintext, true⟩ ∈ records ∧
        ciphertext = aead.encrypt key (nonceOf counter) [] plaintext

theorem Unforged.from {aead : Aead} {key : NoiseKey} {n : Nat} {stream : List U8}
    {sends : List (List U8 × NoiseSendOutcome)} (hroom : n + 2 * sends.length < 2 ^ 64)
    (h : Unforged aead key ((sendRecords n sends).map NoiseRecord.sealing) stream) :
    UnforgedFrom aead key n (sendRecords n sends) stream := by
  intro counter ciphertext plaintext hn hlt hwithin hdecrypt
  obtain ⟨hmem, hciphertext⟩ := h _ _ _ hwithin hdecrypt
  refine ⟨?_, hciphertext⟩
  obtain ⟨record, hrecord, heq⟩ := List.mem_map.mp hmem
  have hcounter := (sendRecords_counter hrecord).2
  simp only [NoiseRecord.sealing, NoiseSealing.mk.injEq] at heq
  obtain ⟨hnonce, rfl, hsucceeds⟩ := heq
  obtain rfl := nonceOf_injective (hcounter.trans hroom) hlt hnonce
  rwa [← hsucceeds]

theorem UnforgedFrom.mono {aead : Aead} {key : NoiseKey} {n : Nat} {records : List NoiseRecord}
    {stream stream' : List U8} (h : UnforgedFrom aead key n records stream)
    (hwithin : stream' <:+: stream) : UnforgedFrom aead key n records stream' :=
  fun counter ciphertext plaintext hn hlt hpart =>
    h counter ciphertext plaintext hn hlt (hpart.trans hwithin)

/-- The calls behind a frame account for the counters behind it. -/
theorem UnforgedFrom.tail {aead : Aead} {key : NoiseKey} {n : Nat} {stream : List U8}
    {sends : List (List U8 × NoiseSendOutcome)}
    (h : UnforgedFrom aead key n (sendRecords n (send :: sends)) stream) :
    UnforgedFrom aead key (n + (frameRecords n send).length)
      (sendRecords (n + (frameRecords n send).length) sends) stream := by
  intro counter ciphertext plaintext hn hlt hwithin hdecrypt
  obtain ⟨hmem, hciphertext⟩ := h counter ciphertext plaintext (by omega) hlt hwithin hdecrypt
  refine ⟨?_, hciphertext⟩
  rcases List.mem_append.mp hmem with hfirst | hrest
  · -- the calls of the frame have smaller counters
    rcases frameRecords_cases n send with hnone | ⟨header, succeeds, hone⟩ |
        ⟨header, payload, succeeds, htwo⟩
    · rw [hnone] at hfirst
      exact absurd hfirst List.not_mem_nil
    · rw [hone] at hfirst hn
      simp only [List.mem_singleton, NoiseRecord.mk.injEq, List.length_singleton] at hfirst hn
      omega
    · rw [htwo] at hfirst hn
      simp only [List.mem_cons, List.not_mem_nil, or_false, NoiseRecord.mk.injEq,
        List.length_cons, List.length_nil] at hfirst hn
      omega
  · exact hrest

theorem parse_take {frame : List U8} (h : SV2_FRAME_HEADER_SIZE ≤ frame.length) :
    Checked.sv2ParseFrameHeader (frame.take SV2_FRAME_HEADER_SIZE) =
      Checked.sv2ParseFrameHeader frame := by
  match frame, h with
  | _ :: _ :: _ :: _ :: _ :: _ :: _, _ => rfl

/-- The header of a whole frame tells the length of its payload. -/
theorem WholeFrame.parts {frame : List U8} (h : WholeFrame frame) :
    ∃ header, Checked.sv2ParseFrameHeader (frameParts frame).1 = .ok header ∧
      (frameParts frame).1.length = SV2_FRAME_HEADER_SIZE ∧
      header.msgLength.toNat = (frameParts frame).2.length := by
  obtain ⟨header, hparse, hlength⟩ := h
  refine ⟨header, ?_, ?_, ?_⟩
  · rw [← hparse]
    exact parse_take (by omega)
  · rw [frameParts, List.length_take]
    omega
  · rw [frameParts, List.length_drop]
    omega

theorem frameParts_join (frame : List U8) : (frameParts frame).1 ++ (frameParts frame).2 = frame :=
  List.take_append_drop _ _

section Receiver

variable {aead : Aead} {maxPayloadLen : Nat} {ctx ctx' : Sv2NoiseCtx} {n : Nat}
  {transport transport' : Incoming U8} {outcome : NoiseRecvOutcome}

theorem noiseDecrypt_eq_some {succeeds : Bool} {key : NoiseKey} {counter : U64}
    {aad ciphertext plaintext : List U8}
    (h : noiseDecrypt aead succeeds key counter aad ciphertext = some plaintext) :
    aead.decrypt key (buildNonce counter) aad ciphertext = some plaintext := by
  unfold noiseDecrypt at h
  split at h
  · cases h
  · split at h
    · exact h
    · cases h

theorem countRecv_recvNonce (h : ctx.recvNonce = BitVec.ofNat 64 n) :
    ctx.countRecv.recvNonce = BitVec.ofNat 64 (n + 1) := by
  show ctx.recvNonce + 1 = _
  rw [h, BitVec.ofNat_add]
  rfl

/-- What a call that returns a frame has read and decrypted -/
structure ReceivesFrame (aead : Aead) (ctx : Sv2NoiseCtx) (n : Nat) (stream : List U8)
    (hdr payload : List U8) (ctx' : Sv2NoiseCtx) (left : List U8) (header : Sv2FrameHeader)
    (encHdr encPayload : List U8) : Prop where
  key : ctx'.recvKey = ctx.recvKey
  parsed : Checked.sv2ParseFrameHeader hdr = .ok header
  decrypted : aead.decrypt ctx.recvKey (nonceOf n) [] encHdr = some hdr
  stream : stream = encHdr ++ encPayload ++ left
  payload : (header.msgLength.toNat = 0 ∧ payload = [] ∧ encPayload = [] ∧
      ctx'.recvNonce = BitVec.ofNat 64 (n + 1)) ∨
    (header.msgLength.toNat ≠ 0 ∧ encPayload.length = header.msgLength.toNat + 16 ∧
      aead.decrypt ctx.recvKey (nonceOf (n + 1)) [] encPayload = some payload ∧
      ctx'.recvNonce = BitVec.ofNat 64 (n + 2))

section Parts

variable {stream left hdr payload encHdr encPayload : List U8} {header : Sv2FrameHeader}

theorem ReceivesFrame.encHdr_infix
    (h : ReceivesFrame aead ctx n stream hdr payload ctx' left header encHdr encPayload) :
    encHdr <:+: stream := by
  refine ⟨[], encPayload ++ left, ?_⟩
  rw [h.stream, List.nil_append, List.append_assoc]

theorem ReceivesFrame.encPayload_infix
    (h : ReceivesFrame aead ctx n stream hdr payload ctx' left header encHdr encPayload) :
    encPayload <:+: stream :=
  ⟨encHdr, left, h.stream.symm⟩

theorem ReceivesFrame.left_infix
    (h : ReceivesFrame aead ctx n stream hdr payload ctx' left header encHdr encPayload) :
    left <:+: stream := by
  refine ⟨encHdr ++ encPayload, [], ?_⟩
  rw [h.stream, List.append_nil]

end Parts

theorem exists_receivesFrame {hdr payload : List U8} (hcounter : ctx.recvNonce = BitVec.ofNat 64 n)
    (h : sv2NoiseRecv aead maxPayloadLen ctx transport outcome =
      (some (hdr, payload), ctx', transport')) :
    ∃ header encHdr encPayload, ReceivesFrame aead ctx n transport.stream hdr payload ctx'
      transport'.stream header encHdr encPayload := by
  have hsecond := countRecv_recvNonce hcounter
  unfold sv2NoiseRecv at h
  split at h
  · cases h
  split at h
  · cases h
  next encHdr rest hread =>
    obtain ⟨hstream, -⟩ := Incoming.readExact_eq_some hread
    split at h
    · cases h
    next decrypted hdecrypt =>
      have hheader := noiseDecrypt_eq_some hdecrypt
      rw [hcounter] at hheader
      split at h
      · cases h
      next header hparse =>
        dsimp only at h
        split at h
        next hzero =>
          simp only [Prod.mk.injEq, Option.some.injEq] at h
          obtain ⟨⟨rfl, rfl⟩, rfl, rfl⟩ := h
          refine ⟨header, encHdr, [], rfl, hparse, hheader, ?_, .inl ⟨hzero, rfl, rfl, hsecond⟩⟩
          rw [List.append_nil, hstream]
        next hnonzero =>
          split at h
          · cases h
          split at h
          · cases h
          split at h
          · cases h
          next encPayload rest' hread' =>
            obtain ⟨hstream', hlength⟩ := Incoming.readExact_eq_some hread'
            split at h
            · cases h
            next plaintext hdecrypt' =>
              have hpayload := noiseDecrypt_eq_some hdecrypt'
              rw [hsecond] at hpayload
              simp only [Prod.mk.injEq, Option.some.injEq] at h
              obtain ⟨⟨rfl, rfl⟩, rfl, rfl⟩ := h
              refine ⟨header, encHdr, encPayload, rfl, hparse, hheader, ?_,
                .inr ⟨hnonzero, hlength, hpayload, countRecv_recvNonce hsecond⟩⟩
              rw [hstream, hstream', List.append_assoc]

/-- A call fails where the sender encrypted nothing with the next counter. -/
theorem recvFrames_eq_nil (hcounter : ctx.recvNonce = BitVec.ofNat 64 n) (hn : n < 2 ^ 64)
    {records : List NoiseRecord}
    (hunforged : UnforgedFrom aead ctx.recvKey n records transport.stream)
    (hnone : ∀ plaintext, ⟨n, plaintext, true⟩ ∉ records) (outcomes : List NoiseRecvOutcome) :
    recvFrames aead maxPayloadLen ctx transport outcomes = [] := by
  cases outcomes with
  | nil => rfl
  | cons outcome outcomes =>
    rw [recvFrames]
    split
    next => rfl
    next frame ctx' transport' hrecv =>
      obtain ⟨header, encHdr, encPayload, hreceived⟩ := exists_receivesFrame hcounter hrecv
      obtain ⟨hmem, -⟩ := hunforged n _ _ (Nat.le_refl n) hn hreceived.encHdr_infix
        hreceived.decrypted
      exact absurd hmem (hnone _)

theorem not_mem_sendRecords {m : Nat} (h : n < m) (sends : List (List U8 × NoiseSendOutcome))
    (plaintext : List U8) (succeeds : Bool) : ⟨n, plaintext, succeeds⟩ ∉ sendRecords m sends :=
  fun hmem => absurd (sendRecords_counter hmem).1 (Nat.not_le.mpr h)

/-- The first counter of a call was used for the header of its frame. -/
theorem record_first {sends : List (List U8 × NoiseSendOutcome)} (hrefused : ¬ IsRefused send)
    {plaintext : List U8} (h : ⟨n, plaintext, true⟩ ∈ sendRecords n (send :: sends)) :
    send.2.headerEncrypts = true ∧ plaintext = (frameParts send.1).1 := by
  rw [sendRecords] at h
  by_cases hheader : (frameParts send.1).2 = [] ∨ send.2.headerEncrypts = false
  · rw [frameRecords_of_header hrefused hheader] at h
    rcases List.mem_cons.mp h with hrecord | hrest
    · obtain ⟨-, hplaintext, hencrypts⟩ := (NoiseRecord.mk.injEq ..).mp hrecord
      exact ⟨hencrypts.symm, hplaintext⟩
    · exact absurd hrest (not_mem_sendRecords (Nat.lt_succ_self n) _ _ _)
  · obtain ⟨hpayload, hencrypts⟩ := not_or.mp hheader
    have hencrypts : send.2.headerEncrypts = true := by simpa using hencrypts
    rw [frameRecords_of_payload hrefused hpayload hencrypts] at h
    rcases List.mem_cons.mp h with hrecord | hrest
    · obtain ⟨-, hplaintext, -⟩ := (NoiseRecord.mk.injEq ..).mp hrecord
      exact ⟨hencrypts, hplaintext⟩
    · rcases List.mem_cons.mp hrest with hrecord | hrest
      · have hcontra := ((NoiseRecord.mk.injEq ..).mp hrecord).1
        omega
      · exact absurd hrest (not_mem_sendRecords (Nat.lt_add_of_pos_right Nat.two_pos) _ _ _)

/-- The second one was used for its payload. -/
theorem record_second {sends : List (List U8 × NoiseSendOutcome)} (hrefused : ¬ IsRefused send)
    (hpayload : (frameParts send.1).2 ≠ []) (hheader : send.2.headerEncrypts = true)
    {plaintext : List U8} (h : ⟨n + 1, plaintext, true⟩ ∈ sendRecords n (send :: sends)) :
    send.2.payloadEncrypts = true ∧ plaintext = (frameParts send.1).2 := by
  rw [sendRecords, frameRecords_of_payload hrefused hpayload hheader] at h
  rcases List.mem_cons.mp h with hrecord | hrest
  · have hcontra := ((NoiseRecord.mk.injEq ..).mp hrecord).1
    omega
  · rcases List.mem_cons.mp hrest with hrecord | hrest
    · obtain ⟨-, hplaintext, hencrypts⟩ := (NoiseRecord.mk.injEq ..).mp hrecord
      exact ⟨hencrypts.symm, hplaintext⟩
    · exact absurd hrest (not_mem_sendRecords (Nat.lt_succ_self (n + 1)) _ _ _)

/-- The frames of a receiver, header and payload together -/
def joinFrame (frame : List U8 × List U8) : List U8 := frame.1 ++ frame.2

/-- What is received are frames that were encrypted, in their order, and their ciphertexts are
the stream as far as it was read. -/
theorem recvFrames_sealed {sends : List (List U8 × NoiseSendOutcome)}
    (hcounter : ctx.recvNonce = BitVec.ofNat 64 n) (hroom : n + 2 * sends.length < 2 ^ 64)
    (hwhole : ∀ send ∈ sends, WholeFrame send.1)
    (hunforged : UnforgedFrom aead ctx.recvKey n (sendRecords n sends) transport.stream)
    (outcomes : List NoiseRecvOutcome) :
    (recvFrames aead maxPayloadLen ctx transport outcomes).map joinFrame <+: sealedFrames sends ∧
      framesWire aead ctx.recvKey n
        ((recvFrames aead maxPayloadLen ctx transport outcomes).map joinFrame)
          <+: transport.stream := by
  induction sends generalizing ctx n transport outcomes with
  | nil =>
    rw [recvFrames_eq_nil hcounter hroom hunforged fun _ => List.not_mem_nil]
    exact ⟨List.nil_prefix, List.nil_prefix⟩
  | cons send sends ih =>
    have hsends := fun other hother => hwhole other (List.mem_cons_of_mem send hother)
    rw [List.length_cons] at hroom
    have htail := hunforged.tail
    by_cases hrefused : IsRefused send
    · rw [frameRecords_of_refused hrefused] at htail
      rw [sealedFrames, if_pos hrefused]
      exact ih hcounter (by omega) hsends htail outcomes
    rw [sealedFrames, if_neg hrefused]
    by_cases hheader : send.2.headerEncrypts = true
    swap
    · rw [recvFrames_eq_nil hcounter (by omega) hunforged
        fun plaintext hmem => hheader (record_first hrefused hmem).1]
      exact ⟨List.nil_prefix, List.nil_prefix⟩
    obtain ⟨parsed, hparsed, hsize, hlength⟩ := (hwhole send List.mem_cons_self).parts
    cases outcomes with
    | nil => exact ⟨List.nil_prefix, List.nil_prefix⟩
    | cons outcome outcomes =>
      rw [recvFrames]
      split
      next => exact ⟨List.nil_prefix, List.nil_prefix⟩
      next frame ctx' transport' hrecv =>
        obtain ⟨hdr, payload⟩ := frame
        obtain ⟨header, encHdr, encPayload, hreceived⟩ := exists_receivesFrame hcounter hrecv
        obtain ⟨hmem, hencHdr⟩ := hunforged n _ _ (Nat.le_refl n) (by omega)
          hreceived.encHdr_infix hreceived.decrypted
        obtain ⟨-, rfl⟩ := record_first hrefused hmem
        obtain rfl := Except.ok.inj (hreceived.parsed.symm.trans hparsed)
        rcases hreceived.payload with ⟨hzero, rfl, rfl, hnext⟩ | ⟨hnonzero, hsize', hpayload, hnext⟩
        · -- a header only
          have hempty : (frameParts send.1).2 = [] := List.eq_nil_of_length_eq_zero (by omega)
          have hframe : joinFrame ((frameParts send.1).1, []) = send.1 := by
            rw [joinFrame, ← hempty, frameParts_join]
          rw [frameRecords_of_header hrefused (.inl hempty), List.length_singleton,
            ← hreceived.key] at htail
          obtain ⟨hshorter, hwire⟩ := @ih ctx' (n + 1) transport' hnext (by omega) hsends
            (htail.mono hreceived.left_infix) outcomes
          have hsealed : IsSealed send := ⟨hheader, .inl hempty⟩
          rw [List.map_cons, hframe, if_pos hsealed, framesWire,
            frameWire_of_header hempty, frameNonces, if_pos hempty, hreceived.stream,
            List.append_nil, ← hencHdr, ← hreceived.key]
          exact ⟨(List.prefix_cons_inj _).mpr hshorter, (List.prefix_append_right_inj _).mpr hwire⟩
        · have hne : (frameParts send.1).2 ≠ [] := by
            intro hempty
            rw [hempty] at hlength
            exact hnonzero hlength
          obtain ⟨hmem', hencPayload⟩ := hunforged (n + 1) _ _ (Nat.le_succ n) (by omega)
            hreceived.encPayload_infix hpayload
          obtain ⟨hencrypts, rfl⟩ := record_second hrefused hne hheader hmem'
          have hsealed : IsSealed send := ⟨hheader, .inr hencrypts⟩
          rw [frameRecords_of_payload hrefused hne hheader] at htail
          rw [← hreceived.key] at htail
          obtain ⟨hshorter, hwire⟩ := @ih ctx' (n + 2) transport' hnext (by omega) hsends
            (htail.mono hreceived.left_infix) outcomes
          rw [List.map_cons, joinFrame, frameParts_join,
            if_pos hsealed, framesWire,
            frameWire_of_payload hne, frameNonces, if_neg hne, hreceived.stream, ← hencHdr,
            ← hencPayload, ← hreceived.key]
          exact ⟨(List.prefix_cons_inj _).mpr hshorter, (List.prefix_append_right_inj _).mpr hwire⟩

/-- Nothing fails during a call. -/
def NoiseRecvOutcome.smooth : NoiseRecvOutcome := ⟨true, true, true⟩

theorem noiseDecrypt_encrypt {succeeds : Bool} {key : NoiseKey} {counter : U64}
    (hsucceeds : succeeds = true) (hcounter : counter = BitVec.ofNat 64 n)
    (plaintext : List U8) :
    noiseDecrypt aead succeeds key counter [] (aead.encrypt key (nonceOf n) [] plaintext)
      = some plaintext := by
  have hlength := aead.length_encrypt key (nonceOf n) [] plaintext
  rw [noiseDecrypt, if_neg (by omega), if_pos hsucceeds, hcounter]
  exact aead.decrypt_encrypt _ _ _ _

/-- The ciphertext of a whole frame is received where the stream goes on with it. -/
theorem exists_sv2NoiseRecv {frame rest : List U8} (hcomplete : ctx.handshakeComplete = true)
    (hcounter : ctx.recvNonce = BitVec.ofNat 64 n) (hwhole : WholeFrame frame)
    (hmax : (frameParts frame).2.length ≤ maxPayloadLen) (hsteady : transport.Steady)
    (hstream : transport.stream = frameWire aead ctx.recvKey n frame ++ rest) :
    ∃ ctx' transport',
      sv2NoiseRecv aead maxPayloadLen ctx transport .smooth
        = (some (frameParts frame), ctx', transport') ∧
      ctx'.recvKey = ctx.recvKey ∧ ctx'.handshakeComplete = true ∧
      ctx'.recvNonce = BitVec.ofNat 64 (n + frameNonces frame) ∧
      transport'.Steady ∧ transport'.stream = rest := by
  obtain ⟨header, hparsed, hsize, hlength⟩ := hwhole.parts
  have hencHdr : (aead.encrypt ctx.recvKey (nonceOf n) [] (frameParts frame).1).length = 22 := by
    rw [aead.length_encrypt, hsize]
    rfl
  have hsecond := countRecv_recvNonce hcounter
  unfold sv2NoiseRecv
  rw [if_neg (by rw [hcomplete]; decide)]
  by_cases hempty : (frameParts frame).2 = []
  · rw [frameWire_of_header hempty] at hstream
    obtain ⟨left, hread, hleft, hsteady'⟩ := hsteady.exists_readExact
      (by rw [hstream, List.length_append, hencHdr]; omega : 22 ≤ transport.stream.length)
    rw [hstream, ← hencHdr, List.take_left] at hread
    rw [hstream, ← hencHdr, List.drop_left] at hleft
    rw [← hencHdr, hread]
    dsimp only
    rw [noiseDecrypt_encrypt (rfl : NoiseRecvOutcome.smooth.headerDecrypts = true) hcounter]
    dsimp only
    rw [hparsed]
    dsimp only
    rw [if_pos (by rw [hlength, hempty]; rfl)]
    refine ⟨ctx.countRecv, left, ?_, rfl, hcomplete, ?_, hsteady', hleft⟩
    · rw [← hempty]
    · rw [frameNonces, if_pos hempty]
      exact hsecond
  · have hencPayload : (aead.encrypt ctx.recvKey (nonceOf (n + 1)) [] (frameParts frame).2).length
        = header.msgLength.toNat + 16 := by
      rw [aead.length_encrypt, hlength]
    have hnonzero : header.msgLength.toNat ≠ 0 := by
      rw [hlength]
      exact fun h => hempty (List.eq_nil_of_length_eq_zero h)
    rw [frameWire_of_payload hempty, List.append_assoc] at hstream
    obtain ⟨left, hread, hleft, hsteady'⟩ := hsteady.exists_readExact
      (by rw [hstream, List.length_append, hencHdr]; omega : 22 ≤ transport.stream.length)
    rw [hstream, ← hencHdr, List.take_left] at hread
    rw [hstream, ← hencHdr, List.drop_left] at hleft
    obtain ⟨left', hread', hleft', hsteady''⟩ := hsteady'.exists_readExact
      (by rw [hleft, List.length_append, hencPayload]; omega :
        header.msgLength.toNat + 16 ≤ left.stream.length)
    rw [hleft, ← hencPayload, List.take_left] at hread'
    rw [hleft, ← hencPayload, List.drop_left] at hleft'
    rw [← hencHdr, hread]
    dsimp only
    rw [noiseDecrypt_encrypt (rfl : NoiseRecvOutcome.smooth.headerDecrypts = true) hcounter]
    dsimp only
    rw [hparsed]
    dsimp only
    rw [if_neg hnonzero, if_neg (by omega), if_neg (by decide), ← hencPayload, hread']
    dsimp only
    rw [noiseDecrypt_encrypt (rfl : NoiseRecvOutcome.smooth.payloadDecrypts = true) hsecond]
    refine ⟨ctx.countRecv.countRecv, left', rfl, rfl, hcomplete, ?_, hsteady'', hleft'⟩
    rw [frameNonces, if_neg hempty]
    exact countRecv_recvNonce hsecond

/-- Whole frames whose ciphertexts begin the stream are received, however they arrive. -/
theorem recvFrames_delivers {frames : List (List U8)} (hcomplete : ctx.handshakeComplete = true)
    (hcounter : ctx.recvNonce = BitVec.ofNat 64 n)
    (hwhole : ∀ frame ∈ frames, WholeFrame frame ∧ (frameParts frame).2.length ≤ maxPayloadLen)
    (hsteady : transport.Steady) (hwire : framesWire aead ctx.recvKey n frames <+: transport.stream)
    {outcomes : List NoiseRecvOutcome} (hsmooth : ∀ outcome ∈ outcomes, outcome = .smooth)
    (hcalls : frames.length ≤ outcomes.length) :
    frames <+: (recvFrames aead maxPayloadLen ctx transport outcomes).map joinFrame := by
  induction frames generalizing ctx n transport outcomes with
  | nil => exact List.nil_prefix
  | cons frame frames ih =>
    cases outcomes with
    | nil => exact absurd hcalls (Nat.not_succ_le_zero _)
    | cons outcome outcomes =>
      obtain rfl := hsmooth outcome List.mem_cons_self
      obtain ⟨rest, hrest⟩ := hwire
      rw [framesWire, List.append_assoc] at hrest
      obtain ⟨hframe, hmax⟩ := hwhole frame List.mem_cons_self
      obtain ⟨ctx', transport', hrecv, hkey, hcomplete', hnext, hsteady', hstream⟩ :=
        exists_sv2NoiseRecv hcomplete hcounter hframe hmax hsteady hrest.symm
      have hdelivers := @ih ctx' (n + frameNonces frame) transport' hcomplete' hnext
        (fun other hother => hwhole other (List.mem_cons_of_mem frame hother)) hsteady'
        (by rw [hkey, hstream]; exact List.prefix_append _ _) outcomes
        (fun other hother => hsmooth other (List.mem_cons_of_mem _ hother))
        (Nat.le_of_succ_le_succ hcalls)
      rw [recvFrames, hrecv, List.map_cons, joinFrame, frameParts_join]
      exact (List.prefix_cons_inj frame).mpr hdelivers

end Receiver

/-- **The encrypted transport is a faithful channel.**  No nonce is used for two encryptions,
whatever fails.  Whatever the stream is made to be, as long as no part of it is a forgery, the
calls that receive return frames that were encrypted, in order and without a gap, and their
ciphertexts are the beginning of the stream.  Conversely every frame whose ciphertext the stream
still shows, in its place, is returned, however the bytes arrive; and calls that all return 0
put exactly the ciphertexts of their frames on the wire. -/
theorem noiseChannel_faithful (aead : Aead) (maxPayloadLen : Nat) (sender receiver : Sv2NoiseCtx)
    (sends : List (List U8 × NoiseSendOutcome)) (transport : Incoming U8)
    (outcomes : List NoiseRecvOutcome) (hkey : receiver.recvKey = sender.sendKey)
    (hnonce : receiver.recvNonce = sender.sendNonce)
    (hcomplete : sender.handshakeComplete = true ∧ receiver.handshakeComplete = true)
    (hroom : sender.sendNonce.toNat + 2 * sends.length < 2 ^ 64)
    (hwhole : ∀ send ∈ sends, WholeFrame send.1)
    (hideal : Unforged aead sender.sendKey (sendFrames aead sender sends).sealings
      transport.stream) :
    let received := (recvFrames aead maxPayloadLen receiver transport outcomes).map joinFrame
    let wire := framesWire aead sender.sendKey sender.sendNonce.toNat
    (((sendFrames aead sender sends).sealings.map NoiseSealing.nonce).Nodup) ∧
      (received <+: sealedFrames sends ∧ wire received <+: transport.stream) ∧
      (∀ count ≤ outcomes.length, transport.Steady →
        (∀ outcome ∈ outcomes, outcome = .smooth) →
        (∀ frame ∈ (sealedFrames sends).take count,
          (frameParts frame).2.length ≤ maxPayloadLen) →
        wire ((sealedFrames sends).take count) <+: transport.stream →
        (sealedFrames sends).take count <+: received) ∧
      ((sendFrames aead sender sends).result = true →
        sealedFrames sends = sends.map Prod.fst ∧
          (sendFrames aead sender sends).wire = wire (sends.map Prod.fst)) := by
  have hcounter : sender.sendNonce = BitVec.ofNat 64 sender.sendNonce.toNat := by
    rw [BitVec.ofNat_toNat, BitVec.setWidth_eq]
  generalize sender.sendNonce.toNat = n at *
  have hsealings := @sendFrames_sealings aead sender n hcomplete.1 hcounter sends
  have hsealed : ∀ frame ∈ sealedFrames sends, WholeFrame frame := by
    intro frame hframe
    obtain ⟨send, hsend, rfl⟩ := List.mem_map.mp (sealedFrames_sublist sends |>.subset hframe)
    exact hwhole send hsend
  rw [hsealings] at hideal
  refine ⟨?_, ?_, ?_, sendFrames_wire hcomplete.1 hcounter⟩
  · rw [hsealings, List.map_map]
    apply List.pairwise_map.mpr
    apply (sendRecords_pairwise n sends).imp_of_mem
    intro first second hfirst hsecond hlt heq
    have hcounters := nonceOf_injective ((sendRecords_counter hfirst).2.trans hroom)
      ((sendRecords_counter hsecond).2.trans hroom) heq
    exact absurd hcounters hlt.ne
  · have hreceived := @recvFrames_sealed aead maxPayloadLen receiver n transport sends
      (hnonce.trans hcounter) hroom hwhole (hkey ▸ hideal.from hroom) outcomes
    rw [hkey] at hreceived
    exact hreceived
  · intro count hcount hsteady hsmooth hmax hwire
    refine recvFrames_delivers hcomplete.2 (hnonce.trans hcounter) ?_ hsteady (hkey ▸ hwire) hsmooth
      ((List.length_take_le _ _).trans hcount)
    exact fun frame hframe => ⟨hsealed frame (List.mem_of_mem_take hframe), hmax frame hframe⟩

/-! ### A frame on its way -/

/-- What a toy cipher puts behind a plaintext -/
def toyTag (length : Nat) (nonce : NoiseNonce) : List U8 :=
  [0xaa#8, 0xaa#8, 0xaa#8, BitVec.ofNat 8 length] ++ nonce.toList

theorem length_toyTag (length : Nat) (nonce : NoiseNonce) : (toyTag length nonce).length = 16 := by
  simp [toyTag]

/-- A cipher that marks plaintexts with their length and the nonce. -/
def toyAead : Aead where
  encrypt _ nonce _ plaintext := plaintext ++ toyTag plaintext.length nonce
  decrypt _ nonce _ ciphertext :=
    let length := ciphertext.length - 16
    if ciphertext.drop length = toyTag length nonce then some (ciphertext.take length) else none
  length_encrypt _ nonce _ plaintext := by rw [List.length_append, length_toyTag]
  decrypt_encrypt _ nonce _ plaintext := by
    have hlength : (plaintext ++ toyTag plaintext.length nonce).length - 16 = plaintext.length := by
      rw [List.length_append, length_toyTag, Nat.add_sub_cancel]
    dsimp only
    rw [hlength, List.drop_left, if_pos rfl, List.take_left]
  length_decrypt _ nonce _ ciphertext plaintext h := by
    dsimp only at h
    split at h
    next htag =>
      have hlength := congrArg List.length htag
      rw [List.length_drop, length_toyTag] at hlength
      rw [← Option.some.inj h, List.length_take]
      omega
    next => cases h

def toyCtx : Sv2NoiseCtx where
  sendKey := Vector.replicate 32 0
  recvKey := Vector.replicate 32 0
  sendNonce := 0
  recvNonce := 0
  handshakeComplete := true

def toyFrame : List U8 := [0#8, 0#8, 0x1c#8, 1#8, 0#8, 0#8, 7#8]

def toySends : List (List U8 × NoiseSendOutcome) := [(toyFrame, ⟨true, true, true, 100⟩)]

/-- The stream that the frame is sent in, which arrives byte by byte. -/
def toyTransport : Incoming U8 :=
  ⟨(sendFrames toyAead toyCtx toySends).wire, List.replicate 40 1⟩

/-- Only the two ciphertexts of the stream end like one. -/
theorem toyTransport_parts : ∀ start ≤ 39, ∀ length ≤ 39,
    let part := (toyTransport.stream.drop start).take length
    (part.drop (part.length - 16)).take 4 =
        [0xaa#8, 0xaa#8, 0xaa#8, BitVec.ofNat 8 (part.length - 16)] →
      part = toyTransport.stream.take 22 ∨ part = toyTransport.stream.drop 22 := by
  decide +kernel

theorem toyTransport_unforged :
    Unforged toyAead toyCtx.sendKey (sendFrames toyAead toyCtx toySends).sealings
      toyTransport.stream := by
  rintro nonce ciphertext plaintext ⟨before, after, hstream⟩ hdecrypt
  have hlength : before.length + ciphertext.length + after.length = 39 := by
    rw [← List.length_append, ← List.length_append, hstream]
    decide
  have hpart : (toyTransport.stream.drop before.length).take ciphertext.length = ciphertext := by
    rw [← hstream, List.append_assoc, List.drop_left, List.take_left]
  have hparts := toyTransport_parts before.length (by omega) ciphertext.length (by omega)
  rw [hpart] at hparts
  simp only [toyAead] at hdecrypt
  split at hdecrypt
  next htag =>
    obtain rfl := Option.some.inj hdecrypt
    rcases hparts (by rw [htag, toyTag]; rfl) with rfl | rfl
    · have hnonce : nonce.toList = List.replicate 12 0#8 :=
        (@List.append_cancel_left _ [0xaa#8, 0xaa#8, 0xaa#8, 6#8] _ _ htag).symm
      obtain rfl : nonce = Vector.replicate 12 0#8 := Vector.toList_inj.mp hnonce
      decide
    · have hnonce : nonce.toList = List.replicate 4 0#8 ++ 1#8 :: List.replicate 7 0#8 :=
        (@List.append_cancel_left _ [0xaa#8, 0xaa#8, 0xaa#8, 1#8] _ _ htag).symm
      obtain rfl : nonce = buildNonce 1 := Vector.toList_inj.mp hnonce
      decide
  next => cases hdecrypt

/-- A frame that arrives byte by byte is received. -/
theorem noiseChannel_faithful_of_toyFrame :
    [toyFrame] <+: (recvFrames toyAead 1024 toyCtx toyTransport [.smooth]).map joinFrame :=
  (noiseChannel_faithful toyAead 1024 toyCtx toyCtx toySends toyTransport [.smooth] rfl rfl
    ⟨rfl, rfl⟩ (by decide) (List.forall_mem_singleton.mpr ⟨⟨0, 0x1c, 1⟩, rfl, rfl⟩)
    toyTransport_unforged).2.2.1 1 (by decide) ⟨by decide, by decide⟩ (by decide) (by decide)
    (by decide)

end EspMiner
