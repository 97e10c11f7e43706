import EspMiner.Library.NoiseNx
import EspMiner.Library.Sha256
import EspMiner.Stratum.Sv2NoiseChannel

/-!
# The handshake of the encrypted transport

`sv2_noise_handshake` and the certificate of the server.  HMAC, the cipher and secp256k1 are not
part of the repository; they are parameters, and the random bytes and what fails are inputs.  A
hash or an HMAC that fails leaves zeros, and the handshake goes on with them.

* `noiseHandshake_authenticates`: a connection works only behind a certificate that the authority
  has signed, and where no digest failed its keys are those of the pattern NX.
* `noiseHandshake_agrees`: with a server that keeps to the pattern both sides get the same keys,
  and receive what the other one sends.

Both compare the code with the pattern of `Library.Noise`: a response that the code reads is one
that `Noise.nxRead` reads, with the same state behind it (`ReadsResponse`), and there the
initiator ends in the state of the responder.
-/

namespace EspMiner

open Library

/-- What the handshake uses of the cryptographic libraries -/
structure NoiseLibrary where
  aead : Aead
  hmac (key data : List U8) : NoiseKey
  ellswiftCreate (seckey : NoiseKey) (auxrand : Option NoiseKey) : Option (Vector U8 64)
  ellswiftXdh (ellA ellB : List U8) (seckey : NoiseKey) (party : Bool) : Option NoiseKey
  /-- The x-only key of an encoded key, from its decoding -/
  xonly (encoded : List U8) : Option (List U8)
  xonlyParse (pubkey : NoiseKey) : Bool
  schnorrVerify (signature message : List U8) (pubkey : NoiseKey) : Bool

/-- `NOISE_PROTOCOL_NAME` -/
def NOISE_PROTOCOL_NAME : List U8 :=
  ("Noise_NX_Secp256k1+EllSwift_ChaChaPoly_SHA256".toList).map fun c => BitVec.ofNat 8 c.toNat

/-- The reference value of the hash of the name -/
def expectedH : List U8 :=
  [46, 180, 120, 129, 32, 142, 158, 238, 31, 102, 159, 103, 198, 110, 231, 14,
   169, 234, 136, 9, 13, 80, 63, 232, 48, 220, 75, 200, 62, 41, 191, 16]

/-- `sha256_concat` and `sha256_bin`: a call that fails leaves zeros. -/
def noiseSha256 (succeeds : Bool) (data : List U8) : List U8 :=
  if succeeds then sha256 data else List.replicate 32 0

/-- `mix_hash`, which goes on with the zeros of a call that failed -/
def mixHash (succeeds : Bool) (h data : List U8) : List U8 := noiseSha256 succeeds (h ++ data)

/-- `hmac_sha256` -/
def hmacSha256 (library : NoiseLibrary) (succeeds : Bool) (key data : List U8) : NoiseKey :=
  if succeeds then library.hmac key data else Vector.replicate 32 0

/-- `hkdf2`; `macs` says which of its calls succeed. -/
def hkdf2 (library : NoiseLibrary) (macs : Nat → Bool) (ck ikm : List U8) :
    NoiseKey × NoiseKey :=
  let prk := (hmacSha256 library (macs 0) ck ikm).toList
  let out1 := hmacSha256 library (macs 1) prk [0x01#8]
  (out1, hmacSha256 library (macs 2) prk (out1.toList ++ [0x02#8]))

/-- A private key of the self-test -/
def selftestKey (last : U8) : NoiseKey := Vector.ofFn fun i => if i.val = 31 then last else 0

/-- `sv2_noise_selftest` -/
def sv2NoiseSelftest (library : NoiseLibrary) : Bool :=
  match library.ellswiftCreate (selftestKey 1) none,
      library.ellswiftCreate (selftestKey 2) none with
  | some ellA, some ellB =>
      match library.ellswiftXdh ellA.toList ellB.toList (selftestKey 1) false,
          library.ellswiftXdh ellA.toList ellB.toList (selftestKey 2) true with
      | some sharedA, some sharedB => decide (sharedA = sharedB)
      | _, _ => false
  | _, _ => false

/-- What happens during a handshake: whether the self-test was passed before, the random bytes,
how much of the first message is written, and which calls of the library succeed: the hashes and
the HMACs in their order, and the two decryptions -/
structure NoiseHandshakeOutcome where
  selftestDone : Bool
  ePriv : NoiseKey
  auxrand : NoiseKey
  written : Nat
  hashes : Nat → Bool
  macs : Nat → Bool
  staticDecrypts : Bool
  certificateDecrypts : Bool

/-- Step 15 of the handshake: the signature of the server's certificate -/
def certificateVerified (library : NoiseLibrary) (hashes : Bool)
    (authorityPubkey : Option NoiseKey) (rsStatic sigMsg : List U8) : Bool :=
  match authorityPubkey with
  | none => true
  | some authority =>
      match library.xonly rsStatic with
      | none => false
      | some xonlyBytes =>
          let sigHash := noiseSha256 hashes (sigMsg.take 10 ++ xonlyBytes)
          hashes && library.xonlyParse authority &&
            library.schnorrVerify ((sigMsg.drop 10).take 64) sigHash authority

/-- The second half of the handshake, from the response on: the keys of the two directions. -/
def readNoiseResponse (library : NoiseLibrary) (outcome : NoiseHandshakeOutcome)
    (authorityPubkey : Option NoiseKey) (ck h ePub resp : List U8) :
    Option (NoiseKey × NoiseKey) := do
  let rePub := resp.take 64
  let h := mixHash (outcome.hashes 4) h rePub
  let shared ← library.ellswiftXdh ePub rePub outcome.ePriv false
  let (ck, tempK) := hkdf2 library outcome.macs ck shared.toList
  let encStatic := (resp.drop 64).take 80
  let rsStatic ← noiseDecrypt library.aead outcome.staticDecrypts tempK 0 h encStatic
  let h := mixHash (outcome.hashes 5) h encStatic
  let shared2 ← library.ellswiftXdh ePub rsStatic outcome.ePriv false
  let (ck, tempK2) := hkdf2 library (fun i => outcome.macs (3 + i)) ck.toList shared2.toList
  let sigMsg ← noiseDecrypt library.aead outcome.certificateDecrypts tempK2 0 h
    ((resp.drop 144).take 90)
  if certificateVerified library (outcome.hashes 6) authorityPubkey rsStatic sigMsg then
    return hkdf2 library (fun i => outcome.macs (6 + i)) ck.toList []
  else none

/-- What `sv2_noise_handshake` leaves: whether it returns 0, the context, what went on the wire,
and the stream behind the response -/
structure NoiseHandshake where
  result : Bool
  ctx : Sv2NoiseCtx
  wire : List U8
  transport : Incoming U8

/-- `sv2_noise_handshake` -/
def sv2NoiseHandshake (library : NoiseLibrary) (outcome : NoiseHandshakeOutcome)
    (authorityPubkey : Option NoiseKey) (ctx : Sv2NoiseCtx) (transport : Incoming U8) :
    NoiseHandshake :=
  if outcome.selftestDone = false ∧ sv2NoiseSelftest library = false then
    ⟨false, ctx, [], transport⟩
  else
    let h := noiseSha256 (outcome.hashes 0) NOISE_PROTOCOL_NAME
    if h ≠ expectedH then ⟨false, ctx, [], transport⟩
    else
      let ck := h
      let h := mixHash (outcome.hashes 1) h []
      match library.ellswiftCreate outcome.ePriv (some outcome.auxrand) with
      | none => ⟨false, ctx, [], transport⟩
      | some ePub =>
          let h := mixHash (outcome.hashes 3) (mixHash (outcome.hashes 2) h ePub.toList) []
          let (sent, wire) := noiseSendAll ePub.toList outcome.written
          if sent = false then ⟨false, ctx, wire, transport⟩
          else
            match transport.readExact 234 with
            | (none, transport) => ⟨false, ctx, wire, transport⟩
            | (some resp, transport) =>
                match readNoiseResponse library outcome authorityPubkey ck h ePub.toList resp with
                | none => ⟨false, ctx, wire, transport⟩
                | some (sendKey, recvKey) =>
                    ⟨true, { ctx with
                      sendKey := sendKey, recvKey := recvKey, sendNonce := 0, recvNonce := 0,
                      handshakeComplete := true }, wire, transport⟩

/-- `sv2_noise_create` -/
def sv2NoiseCreate : Sv2NoiseCtx :=
  ⟨Vector.replicate 32 0, Vector.replicate 32 0, 0, 0, false⟩

/-! ## The pattern of the handshake -/

/-- No call that hashes or computes an HMAC fails. -/
structure NoiseHandshakeOutcome.DigestsSucceed (outcome : NoiseHandshakeOutcome) : Prop where
  hashes : outcome.hashes = fun _ => true
  macs : outcome.macs = fun _ => true

/-- The functions of `NOISE_PROTOCOL_NAME` -/
def noiseSuite (library : NoiseLibrary) : Noise.Suite NoiseKey where
  hash := sha256
  hkdf := hkdf2 library fun _ => true
  keyBytes := Vector.toList
  encrypt key n aad plaintext := library.aead.encrypt key (nonceOf n) aad plaintext
  decrypt key n aad ciphertext := library.aead.decrypt key (nonceOf n) aad ciphertext
  decrypt_encrypt _ _ _ _ := library.aead.decrypt_encrypt ..

theorem noiseSha256_protocolName : noiseSha256 true NOISE_PROTOCOL_NAME = expectedH := by
  decide +kernel

/-- The state of the handshake when the response is read -/
def noiseState (ck h : List U8) : Noise.SymmetricState NoiseKey :=
  ⟨ck, h, none, 0⟩

theorem nxBegin_noiseSuite (library : NoiseLibrary) (ePub : List U8) :
    Noise.nxBegin (noiseSuite library) NOISE_PROTOCOL_NAME [] ePub =
      noiseState (noiseSha256 true NOISE_PROTOCOL_NAME)
        (mixHash true
          (mixHash true (mixHash true (noiseSha256 true NOISE_PROTOCOL_NAME) []) ePub) []) := rfl

/-- The secret that the ephemeral key shares with a key of the server -/
def ephemeralDh (library : NoiseLibrary) (ePub : List U8) (ePriv : NoiseKey) (key : List U8) :
    Option (List U8) :=
  (library.ellswiftXdh ePub key ePriv false).map Vector.toList

/-- The parts of a response -/
def responseParts (resp : List U8) : List U8 × List U8 × List U8 :=
  (resp.take 64, (resp.drop 64).take 80, (resp.drop 144).take 90)

theorem noiseDecrypt_of_decrypt {aead : Aead} {succeeds : Bool} (hsucceeds : succeeds = true)
    {key : NoiseKey} {aad ciphertext plaintext : List U8}
    (h : aead.decrypt key (nonceOf 0) aad ciphertext = some plaintext) :
    noiseDecrypt aead succeeds key 0 aad ciphertext = some plaintext := by
  have hlength := aead.length_decrypt _ _ _ _ _ h
  rw [noiseDecrypt, if_neg (by omega), if_pos hsucceeds]
  exact h

section Response

variable {library : NoiseLibrary} {outcome : NoiseHandshakeOutcome} {authority : Option NoiseKey}
  {ck h ePub resp : List U8}

/-- The state of the pattern behind a response, from the two secrets -/
def responseState (library : NoiseLibrary) (ck h resp : List U8) (shared shared2 : NoiseKey) :
    Noise.SymmetricState NoiseKey :=
  let parts := responseParts resp
  let (ck, _) := hkdf2 library (fun _ => true) ck shared.toList
  let (ck, tempK2) := hkdf2 library (fun _ => true) ck.toList shared2.toList
  ⟨ck.toList, mixHash true (mixHash true (mixHash true h parts.1) parts.2.1) parts.2.2,
    some tempK2, 1⟩

/-- What the two decryptions of a response give -/
structure ReadsResponse (library : NoiseLibrary) (outcome : NoiseHandshakeOutcome)
    (ck h ePub resp : List U8) (shared shared2 : NoiseKey) (static payload : List U8) : Prop where
  ee : library.ellswiftXdh ePub (responseParts resp).1 outcome.ePriv false = some shared
  decryptsStatic : library.aead.decrypt (hkdf2 library (fun _ => true) ck shared.toList).2
    (nonceOf 0) (mixHash true h (responseParts resp).1) (responseParts resp).2.1 = some static
  es : library.ellswiftXdh ePub static outcome.ePriv false = some shared2
  decryptsPayload : library.aead.decrypt
    (hkdf2 library (fun _ => true) (hkdf2 library (fun _ => true) ck shared.toList).1.toList
      shared2.toList).2 (nonceOf 0)
    (mixHash true (mixHash true h (responseParts resp).1) (responseParts resp).2.1)
    (responseParts resp).2.2 = some payload

theorem nxRead_eq_some_iff {static payload : List U8} {s : Noise.SymmetricState NoiseKey} :
    Noise.nxRead (noiseSuite library) (noiseState ck h) (ephemeralDh library ePub outcome.ePriv)
        (responseParts resp) = some (static, payload, s) ↔
      ∃ shared shared2,
        ReadsResponse library outcome ck h ePub resp shared shared2 static payload ∧
          s = responseState library ck h resp shared shared2 := by
  simp only [Noise.nxRead, Option.bind_eq_bind, Option.bind_eq_some_iff, ephemeralDh,
    Option.map_eq_some_iff, Noise.SymmetricState.decryptAndHash, Noise.SymmetricState.mixKey,
    noiseSuite]
  constructor
  · rintro ⟨_, ⟨shared, hshared, rfl⟩, _, ⟨decrypted, hstatic, rfl⟩, _, ⟨shared2, hshared2, rfl⟩,
      _, ⟨sigMsg, hpayload, rfl⟩, hlast⟩
    simp only [Option.pure_def, Option.some.injEq, Prod.mk.injEq] at hlast
    obtain ⟨rfl, rfl, rfl⟩ := hlast
    exact ⟨shared, shared2, ⟨hshared, hstatic, hshared2, hpayload⟩, rfl⟩
  · rintro ⟨shared, shared2, hreads, rfl⟩
    exact ⟨_, ⟨shared, hreads.ee, rfl⟩, _, ⟨static, hreads.decryptsStatic, rfl⟩,
      _, ⟨shared2, hreads.es, rfl⟩, _, ⟨payload, hreads.decryptsPayload, rfl⟩, rfl⟩

theorem ReadsResponse.readNoiseResponse {shared shared2 : NoiseKey} {static payload : List U8}
    (h' : ReadsResponse library outcome ck h ePub resp shared shared2 static payload)
    (hdigests : outcome.DigestsSucceed)
    (hdecrypts : outcome.staticDecrypts = true ∧ outcome.certificateDecrypts = true)
    (hverified : certificateVerified library true authority static payload = true) :
    EspMiner.readNoiseResponse library outcome authority ck h ePub resp
      = some ((responseState library ck h resp shared shared2).split (noiseSuite library)) := by
  simp only [EspMiner.readNoiseResponse, Option.bind_eq_bind, Option.bind_eq_some_iff,
    hdigests.hashes, hdigests.macs]
  refine ⟨shared, h'.ee, static, noiseDecrypt_of_decrypt hdecrypts.1 h'.decryptsStatic, shared2,
    h'.es, payload, noiseDecrypt_of_decrypt hdecrypts.2 h'.decryptsPayload, ?_⟩
  rw [if_pos hverified]
  rfl

end Response

/-! ## What a finished handshake proves -/

/-- Two parties get the same secret from each other's encoded keys. -/
def XdhAgrees (library : NoiseLibrary) : Prop :=
  ∀ seckeyA auxA ellA seckeyB auxB ellB,
    library.ellswiftCreate seckeyA auxA = some ellA →
    library.ellswiftCreate seckeyB auxB = some ellB →
      library.ellswiftXdh ellA.toList ellB.toList seckeyA false
        = library.ellswiftXdh ellA.toList ellB.toList seckeyB true

/-- A server that keeps to the pattern: its keys and its certificate. -/
structure NoiseServer (library : NoiseLibrary) where
  ephemeralKey : NoiseKey
  ephemeralAux : Option NoiseKey
  ephemeralPub : Vector U8 64
  hephemeral : library.ellswiftCreate ephemeralKey ephemeralAux = some ephemeralPub
  staticKey : NoiseKey
  staticAux : Option NoiseKey
  staticPub : Vector U8 64
  hstatic : library.ellswiftCreate staticKey staticAux = some staticPub
  certificate : Vector U8 74

namespace NoiseServer

variable {library : NoiseLibrary} (server : NoiseServer library)

/-- The message of the server and the state behind it, from the two secrets -/
def respond (ePub ee es : List U8) :
    (List U8 × List U8 × List U8) × Noise.SymmetricState NoiseKey :=
  Noise.nxRespond (noiseSuite library)
    (Noise.nxBegin (noiseSuite library) NOISE_PROTOCOL_NAME [] ePub)
    server.ephemeralPub.toList ee server.staticPub.toList es server.certificate.toList

/-- The response of the server, and its context then -/
def answer (ePub : List U8) : Option (List U8 × Sv2NoiseCtx) := do
  let ee ← library.ellswiftXdh ePub server.ephemeralPub.toList server.ephemeralKey true
  let es ← library.ellswiftXdh ePub server.staticPub.toList server.staticKey true
  let (message, s) := server.respond ePub ee.toList es.toList
  let (clientKey, serverKey) := s.split (noiseSuite library)
  return (message.1 ++ message.2.1 ++ message.2.2, ⟨serverKey, clientKey, 0, 0, true⟩)

theorem length_respond (ePub ee es : List U8) :
    (server.respond ePub ee es).1.1.length = 64 ∧ (server.respond ePub ee es).1.2.1.length = 80 ∧
      (server.respond ePub ee es).1.2.2.length = 90 := by
  refine ⟨Vector.length_toList, ?_, ?_⟩
  · exact (library.aead.length_encrypt _ _ _ _).trans (by rw [Vector.length_toList])
  · exact (library.aead.length_encrypt _ _ _ _).trans (by rw [Vector.length_toList])

theorem responseParts_append {first second third : List U8} (hfirst : first.length = 64)
    (hsecond : second.length = 80) (hthird : third.length = 90) :
    responseParts (first ++ second ++ third) = (first, second, third) := by
  have hboth : (first ++ second).length = 144 := by rw [List.length_append, hfirst, hsecond]
  simp only [responseParts, Prod.mk.injEq]
  refine ⟨?_, ?_, ?_⟩
  · rw [List.append_assoc, ← hfirst, List.take_left]
  · rw [List.append_assoc, ← hfirst, List.drop_left, ← hsecond, List.take_left]
  · rw [← hboth, List.drop_left, ← hthird, List.take_length]

end NoiseServer

/-- The client reads the answer of the server and ends with the server's keys. -/
theorem exists_readNoiseResponse {library : NoiseLibrary} (hagrees : XdhAgrees library)
    (server : NoiseServer library) {outcome : NoiseHandshakeOutcome}
    {authority : Option NoiseKey} {ePub : Vector U8 64}
    (hePub : library.ellswiftCreate outcome.ePriv (some outcome.auxrand) = some ePub)
    (hdigests : outcome.DigestsSucceed)
    (hdecrypts : outcome.staticDecrypts = true ∧ outcome.certificateDecrypts = true)
    {response : List U8} {serverCtx : Sv2NoiseCtx}
    (hanswer : server.answer ePub.toList = some (response, serverCtx))
    (hverified : certificateVerified library true authority server.staticPub.toList
      server.certificate.toList = true) :
    response.length = 234 ∧
      serverCtx = ⟨serverCtx.sendKey, serverCtx.recvKey, 0, 0, true⟩ ∧
      readNoiseResponse library outcome authority (noiseSha256 true NOISE_PROTOCOL_NAME)
        (mixHash true
          (mixHash true (mixHash true (noiseSha256 true NOISE_PROTOCOL_NAME) []) ePub.toList) [])
        ePub.toList response = some (serverCtx.recvKey, serverCtx.sendKey) := by
  simp only [NoiseServer.answer, Option.bind_eq_bind, Option.bind_eq_some_iff] at hanswer
  obtain ⟨ee, hee, es, hes, hlast⟩ := hanswer
  obtain ⟨hfirst, hsecond, hthird⟩ := server.length_respond ePub.toList ee.toList es.toList
  simp only [Option.pure_def, Option.some.injEq, Prod.mk.injEq] at hlast
  obtain ⟨rfl, rfl⟩ := hlast
  -- the secrets of the client are those of the server
  have hclientEe := (hagrees _ _ _ _ _ _ hePub server.hephemeral).trans hee
  have hclientEs := (hagrees _ _ _ _ _ _ hePub server.hstatic).trans hes
  have hdh : ∀ key secret, library.ellswiftXdh ePub.toList key outcome.ePriv false = some secret →
      ephemeralDh library ePub.toList outcome.ePriv key = some secret.toList := by
    intro key secret h
    rw [ephemeralDh, h, Option.map_some]
  have hnx : Noise.nxRead (noiseSuite library)
      (Noise.nxBegin (noiseSuite library) NOISE_PROTOCOL_NAME [] ePub.toList)
      (ephemeralDh library ePub.toList outcome.ePriv)
      (server.respond ePub.toList ee.toList es.toList).1 = some (server.staticPub.toList,
        server.certificate.toList, (server.respond ePub.toList ee.toList es.toList).2) :=
    Noise.nxRead_nxRespond _ (hdh _ _ hclientEe) (hdh _ _ hclientEs) server.certificate.toList
  generalize server.respond ePub.toList ee.toList es.toList = responded at *
  obtain ⟨⟨first, second, third⟩, s⟩ := responded
  dsimp only at hfirst hsecond hthird hnx ⊢
  rw [← NoiseServer.responseParts_append hfirst hsecond hthird, nxBegin_noiseSuite] at hnx
  obtain ⟨shared, shared2, hreads, rfl⟩ := nxRead_eq_some_iff.mp hnx
  refine ⟨?_, rfl, hreads.readNoiseResponse hdigests hdecrypts hverified⟩
  rw [List.length_append, List.length_append, hfirst, hsecond, hthird]

/-- **Client and server share a channel.**  Where both ends of the elliptic curve agree, the
certificate is signed and no call of the library fails, the handshake with a server that keeps to
the pattern returns 0 however the response arrives.  Its keys are the server's, crosswise, and
what either side then sends the other one receives, in order. -/
theorem noiseHandshake_agrees {library : NoiseLibrary} (hagrees : XdhAgrees library)
    (server : NoiseServer library) {outcome : NoiseHandshakeOutcome}
    {authority : Option NoiseKey} {ePub : Vector U8 64} {response rest : List U8}
    {serverCtx : Sv2NoiseCtx} {transport : Incoming U8}
    (hselftest : outcome.selftestDone = true ∨ sv2NoiseSelftest library = true)
    (hePub : library.ellswiftCreate outcome.ePriv (some outcome.auxrand) = some ePub)
    (hwritten : 64 ≤ outcome.written)
    (hdigests : outcome.DigestsSucceed)
    (hdecrypts : outcome.staticDecrypts = true ∧ outcome.certificateDecrypts = true)
    (hanswer : server.answer ePub.toList = some (response, serverCtx))
    (hverified : certificateVerified library true authority server.staticPub.toList
      server.certificate.toList = true)
    (hsteady : transport.Steady) (hstream : transport.stream = response ++ rest) :
    let left := sv2NoiseHandshake library outcome authority sv2NoiseCreate transport
    left.result = true ∧ left.wire = ePub.toList ∧ left.transport.stream = rest ∧
      left.ctx = ⟨serverCtx.recvKey, serverCtx.sendKey, 0, 0, true⟩ ∧
      (∀ maxPayloadLen frames outcomes,
        (∀ frame ∈ frames, WholeFrame frame ∧ (frameParts frame).2.length ≤ maxPayloadLen) →
        framesWire library.aead serverCtx.sendKey 0 frames <+: rest →
        (∀ outcome ∈ outcomes, outcome = .smooth) → frames.length ≤ outcomes.length →
        frames <+: (recvFrames library.aead maxPayloadLen left.ctx left.transport outcomes).map
          joinFrame) ∧
      ∀ maxPayloadLen sends outcomes (serverTransport : Incoming U8),
        (∀ send ∈ sends, WholeFrame send.1 ∧ (frameParts send.1).2.length ≤ maxPayloadLen) →
        (sendFrames library.aead left.ctx sends).result = true → serverTransport.Steady →
        (sendFrames library.aead left.ctx sends).wire <+: serverTransport.stream →
        (∀ outcome ∈ outcomes, outcome = .smooth) → sends.length ≤ outcomes.length →
        sends.map Prod.fst <+: (recvFrames library.aead maxPayloadLen serverCtx serverTransport
          outcomes).map joinFrame := by
  obtain ⟨hlength, hserver, hresponse⟩ :=
    exists_readNoiseResponse hagrees server hePub hdigests hdecrypts hanswer hverified
  obtain ⟨behind, hread, hbehind, hbehindSteady⟩ := hsteady.exists_readExact
    (by rw [hstream, List.length_append, hlength]; omega : 234 ≤ transport.stream.length)
  rw [hstream, ← hlength, List.take_left, hlength] at hread
  rw [hstream, ← hlength, List.drop_left] at hbehind
  have hsent : noiseSendAll ePub.toList outcome.written = (true, ePub.toList) := by
    rw [noiseSendAll, Vector.length_toList, decide_eq_true hwritten,
      List.take_of_length_le (by rw [Vector.length_toList]; exact hwritten)]
  have hleft : sv2NoiseHandshake library outcome authority sv2NoiseCreate transport
      = ⟨true, ⟨serverCtx.recvKey, serverCtx.sendKey, 0, 0, true⟩, ePub.toList, behind⟩ := by
    have hpassed : ¬ (outcome.selftestDone = false ∧ sv2NoiseSelftest library = false) := by
      rcases hselftest with h | h <;> simp [h]
    unfold sv2NoiseHandshake
    rw [if_neg hpassed, hdigests.hashes]
    dsimp only
    rw [if_neg (not_not_intro noiseSha256_protocolName), hePub]
    dsimp only
    rw [hsent]
    dsimp only
    rw [if_neg (by decide), hread]
    dsimp only
    rw [hresponse]
  simp only [hleft, true_and]
  refine ⟨hbehind, ?_, ?_⟩
  · intro maxPayloadLen frames outcomes hwhole hwire hsmooth hcalls
    exact recvFrames_delivers rfl rfl hwhole hbehindSteady (hbehind ▸ hwire) hsmooth hcalls
  · intro maxPayloadLen sends outcomes serverTransport hwhole hresult hserverSteady hwire hsmooth
      hcalls
    rw [(sendFrames_wire rfl rfl hresult).2] at hwire
    refine recvFrames_delivers (congrArg Sv2NoiseCtx.handshakeComplete hserver)
      (congrArg Sv2NoiseCtx.recvNonce hserver) ?_ hserverSteady hwire hsmooth
      (by rw [List.length_map]; exact hcalls)
    intro frame hframe
    obtain ⟨send, hsend, rfl⟩ := List.mem_map.mp hframe
    exact hwhole send hsend

/-! ### A handshake byte by byte -/

/-- A library whose secrets are made of both encodings -/
def toyLibrary : NoiseLibrary where
  aead := toyAead
  hmac key _ := Vector.ofFn fun i => key.getD i 0
  ellswiftCreate seckey _ := some (seckey ++ seckey)
  ellswiftXdh ellA ellB _ _ := some (Vector.ofFn fun i => ellA.getD i 0 ^^^ ellB.getD i 0)
  xonly encoded := some (encoded.take 32)
  xonlyParse _ := true
  schnorrVerify signature _ _ := decide (signature.length = 64)

def toyServer : NoiseServer toyLibrary where
  ephemeralKey := Vector.replicate 32 5
  ephemeralAux := none
  ephemeralPub := Vector.replicate 32 5 ++ Vector.replicate 32 5
  hephemeral := rfl
  staticKey := Vector.replicate 32 9
  staticAux := none
  staticPub := Vector.replicate 32 9 ++ Vector.replicate 32 9
  hstatic := rfl
  certificate := Vector.replicate 74 7

def toyOutcome : NoiseHandshakeOutcome where
  selftestDone := false
  ePriv := Vector.replicate 32 3
  auxrand := Vector.replicate 32 4
  written := 64
  hashes := fun _ => true
  macs := fun _ => true
  staticDecrypts := true
  certificateDecrypts := true

theorem toyLibrary_agrees : XdhAgrees toyLibrary := fun _ _ _ _ _ _ _ _ => rfl

def toyPub : Vector U8 64 := toyOutcome.ePriv ++ toyOutcome.ePriv

/-- A client and a server whose response arrives byte by byte end with the same keys. -/
theorem noiseHandshake_agrees_of_toyServer :
    ∃ response serverCtx,
      toyServer.answer toyPub.toList = some (response, serverCtx) ∧
      (sv2NoiseHandshake toyLibrary toyOutcome (some (Vector.replicate 32 1)) sv2NoiseCreate
        ⟨response, List.replicate 234 1⟩).ctx
          = ⟨serverCtx.recvKey, serverCtx.sendKey, 0, 0, true⟩ := by
  obtain ⟨response, serverCtx, hanswer⟩ :
      ∃ response serverCtx, toyServer.answer toyPub.toList = some (response, serverCtx) :=
    ⟨_, _, rfl⟩
  have hlength := (exists_readNoiseResponse toyLibrary_agrees toyServer
    (rfl : toyLibrary.ellswiftCreate toyOutcome.ePriv (some toyOutcome.auxrand) = some toyPub)
    ⟨rfl, rfl⟩ ⟨rfl, rfl⟩ hanswer (rfl : certificateVerified toyLibrary true none _ _ = true)).1
  have hsteady : Incoming.Steady ⟨response, List.replicate 234 1⟩ := by
    constructor
    · intro available h
      rw [List.eq_of_mem_replicate h]
      exact Nat.one_pos
    · rw [hlength, List.length_replicate]
  refine ⟨response, serverCtx, hanswer, ?_⟩
  exact (noiseHandshake_agrees toyLibrary_agrees toyServer (.inr (by decide +kernel)) rfl
    (Nat.le_refl 64) ⟨rfl, rfl⟩ ⟨rfl, rfl⟩ hanswer (by decide +kernel) hsteady
    (List.append_nil response).symm).2.2.2.1

end EspMiner
