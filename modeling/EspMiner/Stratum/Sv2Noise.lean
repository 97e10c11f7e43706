import EspMiner.Library.ExactRead
import EspMiner.Stratum.Sv2Builders

/-!
# The encrypted transport of Stratum V2

`components/stratum_v2/sv2_noise.c`: frames are sent and received with ChaCha20-Poly1305, one
nonce for the header and one for the payload.  The cipher is not part of the repository; which
of its calls and which allocations succeed, and how many bytes a write puts on the wire, are
inputs.
-/

namespace EspMiner

open Library

abbrev NoiseKey : Type := Vector U8 32
abbrev NoiseNonce : Type := Vector U8 12

/-- An authenticated cipher with tags of 16 bytes -/
structure Aead where
  encrypt (key : NoiseKey) (nonce : NoiseNonce) (aad plaintext : List U8) : List U8
  decrypt (key : NoiseKey) (nonce : NoiseNonce) (aad ciphertext : List U8) : Option (List U8)
  length_encrypt : ∀ key nonce aad plaintext,
    (encrypt key nonce aad plaintext).length = plaintext.length + 16
  decrypt_encrypt : ∀ key nonce aad plaintext,
    decrypt key nonce aad (encrypt key nonce aad plaintext) = some plaintext
  length_decrypt : ∀ key nonce aad ciphertext plaintext,
    decrypt key nonce aad ciphertext = some plaintext →
      plaintext.length + 16 = ciphertext.length

/-- A call that encrypts with the sending key, and whether it succeeds -/
structure NoiseSealing where
  nonce : NoiseNonce
  plaintext : List U8
  succeeds : Bool
deriving DecidableEq

/-- `sv2_noise_ctx_t`, as far as it is used once the handshake is over -/
structure Sv2NoiseCtx where
  sendKey : NoiseKey
  recvKey : NoiseKey
  sendNonce : U64
  recvNonce : U64
  handshakeComplete : Bool

/-- `build_nonce` -/
def buildNonce (counter : U64) : NoiseNonce :=
  Vector.replicate 4 0#8 ++ Vector.ofFn fun i : Fin 8 => (counter >>> (i.val * 8)).setWidth 8

/-- `noise_encrypt`; the library may fail. -/
def noiseEncrypt (aead : Aead) (succeeds : Bool) (key : NoiseKey) (nonceCounter : U64)
    (aad plaintext : List U8) : Option (List U8) :=
  if succeeds then some (aead.encrypt key (buildNonce nonceCounter) aad plaintext) else none

/-- `noise_decrypt`; the library may fail. -/
def noiseDecrypt (aead : Aead) (succeeds : Bool) (key : NoiseKey) (nonceCounter : U64)
    (aad ciphertext : List U8) : Option (List U8) :=
  if ciphertext.length < 16 then none
  else if succeeds then aead.decrypt key (buildNonce nonceCounter) aad ciphertext
  else none

/-! ## Sending -/

/-- What happens during a call of `sv2_noise_send`. -/
structure NoiseSendOutcome where
  allocates : Bool
  headerEncrypts : Bool
  payloadEncrypts : Bool
  written : Nat
deriving DecidableEq

/-- What a call of `sv2_noise_send` leaves: whether it returns 0, the context, what went on the
wire, and the calls that encrypted. -/
structure NoiseSend where
  result : Bool
  ctx : Sv2NoiseCtx
  wire : List U8
  sealings : List NoiseSealing

/-- `noise_send_all` -/
def noiseSendAll (bytes : List U8) (written : Nat) : Bool × List U8 :=
  (decide (bytes.length ≤ written), bytes.take written)

namespace Sv2NoiseCtx

/-- `ctx->send_nonce++` -/
def countSend (ctx : Sv2NoiseCtx) : Sv2NoiseCtx := { ctx with sendNonce := ctx.sendNonce + 1 }

/-- `ctx->recv_nonce++` -/
def countRecv (ctx : Sv2NoiseCtx) : Sv2NoiseCtx := { ctx with recvNonce := ctx.recvNonce + 1 }

end Sv2NoiseCtx

/-- `sv2_noise_send` -/
def sv2NoiseSend (aead : Aead) (ctx : Sv2NoiseCtx) (frame : List U8)
    (outcome : NoiseSendOutcome) : NoiseSend :=
  if ctx.handshakeComplete = false ∨ frame.length < SV2_FRAME_HEADER_SIZE then
    ⟨false, ctx, [], []⟩
  else
    let header := frame.take SV2_FRAME_HEADER_SIZE
    let payload := frame.drop SV2_FRAME_HEADER_SIZE
    let headerSealing : NoiseSealing :=
      ⟨buildNonce ctx.sendNonce, header, outcome.headerEncrypts⟩
    if payload = [] then
      match noiseEncrypt aead outcome.headerEncrypts ctx.sendKey ctx.sendNonce [] header with
      | none => ⟨false, ctx.countSend, [], [headerSealing]⟩
      | some encHdr =>
          let (result, wire) := noiseSendAll encHdr outcome.written
          ⟨result, ctx.countSend, wire, [headerSealing]⟩
    else if outcome.allocates = false then ⟨false, ctx, [], []⟩
    else
      match noiseEncrypt aead outcome.headerEncrypts ctx.sendKey ctx.sendNonce [] header with
      | none => ⟨false, ctx.countSend, [], [headerSealing]⟩
      | some encHdr =>
          let payloadNonce := ctx.countSend.sendNonce
          let payloadSealing : NoiseSealing :=
            ⟨buildNonce payloadNonce, payload, outcome.payloadEncrypts⟩
          match noiseEncrypt aead outcome.payloadEncrypts ctx.sendKey payloadNonce [] payload with
          | none => ⟨false, ctx.countSend.countSend, [], [headerSealing, payloadSealing]⟩
          | some encPayload =>
              let (result, wire) := noiseSendAll (encHdr ++ encPayload) outcome.written
              ⟨result, ctx.countSend.countSend, wire, [headerSealing, payloadSealing]⟩

/-- Calls one after the other: whether all return 0, and what they leave together. -/
def sendFrames (aead : Aead) (ctx : Sv2NoiseCtx) :
    List (List U8 × NoiseSendOutcome) → NoiseSend
  | [] => ⟨true, ctx, [], []⟩
  | (frame, outcome) :: sends =>
      let first := sv2NoiseSend aead ctx frame outcome
      let rest := sendFrames aead first.ctx sends
      ⟨first.result && rest.result, rest.ctx, first.wire ++ rest.wire,
        first.sealings ++ rest.sealings⟩

/-! ## Receiving -/

/-- What happens during a call of `sv2_noise_recv`. -/
structure NoiseRecvOutcome where
  allocates : Bool
  headerDecrypts : Bool
  payloadDecrypts : Bool
deriving DecidableEq

/-- `sv2_noise_recv`: the header and the payload, where the call returns 0. -/
def sv2NoiseRecv (aead : Aead) (maxPayloadLen : Nat) (ctx : Sv2NoiseCtx)
    (transport : Incoming U8) (outcome : NoiseRecvOutcome) :
    Option (List U8 × List U8) × Sv2NoiseCtx × Incoming U8 :=
  if ctx.handshakeComplete = false then (none, ctx, transport)
  else
    match transport.readExact 22 with
    | (none, transport) => (none, ctx, transport)
    | (some encHdr, transport) =>
        match noiseDecrypt aead outcome.headerDecrypts ctx.recvKey ctx.recvNonce [] encHdr with
        | none => (none, ctx.countRecv, transport)
        | some hdr =>
            match Checked.sv2ParseFrameHeader hdr with
            | .error _ => (none, ctx.countRecv, transport)
            | .ok header =>
                let msgLength := header.msgLength.toNat
                if msgLength = 0 then (some (hdr, []), ctx.countRecv, transport)
                else if maxPayloadLen < msgLength then (none, ctx.countRecv, transport)
                else if outcome.allocates = false then (none, ctx.countRecv, transport)
                else
                  match transport.readExact (msgLength + 16) with
                  | (none, transport) => (none, ctx.countRecv, transport)
                  | (some encPayload, transport) =>
                      match noiseDecrypt aead outcome.payloadDecrypts ctx.recvKey
                          ctx.countRecv.recvNonce [] encPayload with
                      | none => (none, ctx.countRecv.countRecv, transport)
                      | some payload => (some (hdr, payload), ctx.countRecv.countRecv, transport)

/-- The frames of calls one after the other, up to the first that fails: the client gives the
connection up there. -/
def recvFrames (aead : Aead) (maxPayloadLen : Nat) (ctx : Sv2NoiseCtx)
    (transport : Incoming U8) : List NoiseRecvOutcome → List (List U8 × List U8)
  | [] => []
  | outcome :: outcomes =>
      match sv2NoiseRecv aead maxPayloadLen ctx transport outcome with
      | (none, _, _) => []
      | (some frame, ctx, transport) =>
          frame :: recvFrames aead maxPayloadLen ctx transport outcomes

end EspMiner
