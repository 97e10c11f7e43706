import EspMiner.Library.CheckedAccess
import EspMiner.Stratum.Sv2Protocol

/-!
# Stratum V2 messages within their arrays

`components/stratum_v2/sv2_protocol.c` once more, access by access: the builders with
their staging area, and the parsers with every read of the payload.  A call that
returns -1 is `refused` here and has written nothing to the caller's buffer; a read or a
write past the end of an array is `outside`.
-/

namespace EspMiner

open Library

def SV2_MSG_SETUP_CONNECTION : U8 := 0x00#8
def SV2_MSG_OPEN_STANDARD_MINING_CHANNEL : U8 := 0x10#8
def SV2_MSG_OPEN_EXTENDED_MINING_CHANNEL : U8 := 0x13#8

/-- `sv2_frame_header_t` -/
structure Sv2FrameHeader where
  extensionType : U16
  msgType : U8
  msgLength : U32
deriving DecidableEq, Repr

/-- What `sv2_parse_setup_connection_success` reads. -/
structure Sv2SetupConnectionSuccess where
  usedVersion : U16
  flags : U32
deriving DecidableEq

/-- What `sv2_parse_open_channel_success` reads. -/
structure Sv2OpenChannelSuccess where
  requestId : U32
  channelId : U32
  target : Vector U8 32
  extranoncePrefix : List U8
  groupChannelId : U32
deriving DecidableEq

/-- What `sv2_parse_open_extended_channel_success` reads. -/
structure Sv2OpenExtendedChannelSuccess where
  requestId : U32
  channelId : U32
  target : Vector U8 32
  extranonceSize : U16
  extranoncePrefix : List U8
  groupChannelId : U32
deriving DecidableEq

/-! ## Parsers -/

namespace Checked

/-- `read_u16_le` -/
def readU16Le (payload : List U8) (pos : Nat) : Except Stop U16 := do
  let low ← readElem payload pos
  let high ← readElem payload (pos + 1)
  return low.setWidth 16 ||| (high.setWidth 16 <<< 8)

/-- `read_u32_le` -/
def readU32Le (payload : List U8) (pos : Nat) : Except Stop U32 := do
  let b0 ← readElem payload pos
  let b1 ← readElem payload (pos + 1)
  let b2 ← readElem payload (pos + 2)
  let b3 ← readElem payload (pos + 3)
  return b0.setWidth 32 ||| (b1.setWidth 32 <<< 8) ||| (b2.setWidth 32 <<< 16) |||
    (b3.setWidth 32 <<< 24)

/-- The 32 bytes of a `memcpy` from the payload -/
def readHash (payload : List U8) (pos : Nat) : Except Stop (Vector U8 32) := do
  let bytes ← readSpan payload pos 32
  return Vector.ofFn fun i => bytes.getD i 0

/-- `read_str0255` at a position of the payload, into an array of `destSize` bytes: what is
copied there. -/
def readStr0255 (payload : List U8) (pos destSize : Nat) : Except Stop (List U8) :=
  let srcLen := payload.length - pos
  if srcLen < 1 then .error .refused
  else do
    let slen ← readElem payload pos
    if srcLen < 1 + slen.toNat then .error .refused
    else
      -- `dest_size - 1` is a `size_t`, and wraps for an array without bytes
      let copy := if destSize ≤ slen.toNat then (destSize + (2 ^ 32 - 1)) % 2 ^ 32 else slen.toNat
      readSpan payload (pos + 1) copy

/-- `sv2_parse_frame_header` -/
def sv2ParseFrameHeader (data : List U8) : Except Stop Sv2FrameHeader := do
  let extensionType ← readU16Le data 0
  let msgType ← readElem data 2
  let b3 ← readElem data 3
  let b4 ← readElem data 4
  let b5 ← readElem data 5
  return ⟨extensionType, msgType,
    b3.setWidth 32 ||| (b4.setWidth 32 <<< 8) ||| (b5.setWidth 32 <<< 16)⟩

/-- `sv2_parse_setup_connection_success` -/
def sv2ParseSetupConnectionSuccess (payload : List U8) : Except Stop Sv2SetupConnectionSuccess :=
  if payload.length < 6 then .error .refused
  else do
    let usedVersion ← readU16Le payload 0
    let flags ← readU32Le payload 2
    return ⟨usedVersion, flags⟩

/-- `sv2_parse_open_channel_success` -/
def sv2ParseOpenChannelSuccess (payload : List U8) : Except Stop Sv2OpenChannelSuccess :=
  if payload.length < 45 then .error .refused
  else do
    let requestId ← readU32Le payload 0
    let channelId ← readU32Le payload 4
    let target ← readHash payload 8
    let prefixLen ← readElem payload 40
    if 32 < prefixLen.toNat then .error .refused
    else if payload.length < 41 + prefixLen.toNat + 4 then .error .refused
    else
      let extranoncePrefix ← readSpan payload 41 prefixLen.toNat
      let groupChannelId ← readU32Le payload (41 + prefixLen.toNat)
      return ⟨requestId, channelId, target, extranoncePrefix, groupChannelId⟩

/-- `sv2_parse_new_mining_job` -/
def sv2ParseNewMiningJob (payload : List U8) : Except Stop Sv2NewMiningJob :=
  if payload.length < 45 then .error .refused
  else do
    let channelId ← readU32Le payload 0
    let jobId ← readU32Le payload 4
    let optionFlag ← readElem payload 8
    if optionFlag = 0x01 then
      if payload.length < 49 then .error .refused
      else
        let minNtime ← readU32Le payload 9
        let version ← readU32Le payload 13
        let merkleRoot ← readHash payload 17
        return ⟨channelId, jobId, some minNtime, version, merkleRoot⟩
    else
      let version ← readU32Le payload 9
      let merkleRoot ← readHash payload 13
      return ⟨channelId, jobId, none, version, merkleRoot⟩

/-- `sv2_parse_set_new_prev_hash` -/
def sv2ParseSetNewPrevHash (payload : List U8) : Except Stop Sv2SetNewPrevHash :=
  if payload.length < 48 then .error .refused
  else do
    let channelId ← readU32Le payload 0
    let jobId ← readU32Le payload 4
    let prevHash ← readHash payload 8
    let minNtime ← readU32Le payload 40
    let nbits ← readU32Le payload 44
    return ⟨channelId, jobId, prevHash, minNtime, nbits⟩

/-- `sv2_parse_set_target` -/
def sv2ParseSetTarget (payload : List U8) : Except Stop Sv2SetTarget :=
  if payload.length < 36 then .error .refused
  else do
    let channelId ← readU32Le payload 0
    let maxTarget ← readHash payload 4
    return ⟨channelId, maxTarget⟩

/-- `sv2_parse_submit_shares_success` -/
def sv2ParseSubmitSharesSuccess (payload : List U8) : Except Stop Sv2SubmitSharesSuccess :=
  if payload.length < 20 then .error .refused
  else do
    let channelId ← readU32Le payload 0
    let lastSequenceNumber ← readU32Le payload 4
    let acceptedCount ← readU32Le payload 8
    return ⟨channelId, lastSequenceNumber, acceptedCount⟩

/-- `sv2_parse_submit_shares_error` with an array of `errorCodeSize` bytes -/
def sv2ParseSubmitSharesError (errorCodeSize : Nat) (payload : List U8) :
    Except Stop Sv2SubmitSharesError :=
  if payload.length < 9 then .error .refused
  else do
    let channelId ← readU32Le payload 0
    let seqNum ← readU32Le payload 4
    let errorCode ← readStr0255 payload 8 errorCodeSize
    return ⟨channelId, seqNum, errorCode⟩

/-- `sv2_parse_open_extended_channel_success` -/
def sv2ParseOpenExtendedChannelSuccess (payload : List U8) :
    Except Stop Sv2OpenExtendedChannelSuccess :=
  if payload.length < 47 then .error .refused
  else do
    let requestId ← readU32Le payload 0
    let channelId ← readU32Le payload 4
    let target ← readHash payload 8
    let extranonceSize ← readU16Le payload 40
    let prefixLen ← readElem payload 42
    if 32 < prefixLen.toNat ∨ extranonceSize.toNat < 2 ∨ 32 < extranonceSize.toNat ∨
        32 < prefixLen.toNat + extranonceSize.toNat then .error .refused
    else if 43 + prefixLen.toNat + 4 ≠ payload.length then .error .refused
    else
      let extranoncePrefix ← readSpan payload 43 prefixLen.toNat
      let groupChannelId ← readU32Le payload (43 + prefixLen.toNat)
      return ⟨requestId, channelId, target, extranonceSize, extranoncePrefix, groupChannelId⟩

end Checked

/-! ## Builders -/

/-- `sizeof(payload)` in the builders -/
def SV2_STAGING_SIZE : Nat := 512

/-- `write_str0255` into the rest of an array; the string may be `NULL`. -/
def writeStr0255 (dest : Filling U8) (str : Option (List U8)) : Except Stop (Filling U8) :=
  let text := str.getD []
  let slen := if 255 < text.length then 255 else text.length
  if dest.untouched.length < 1 + slen then .error .refused
  else dest.put (BitVec.ofNat 8 slen :: text.take slen)

/-- The end of every builder with a staging area: the frame goes to the caller's buffer.
The number that is returned, and the buffer. -/
def sv2WriteFrame (buf : List U8) (msgType : U8) (payload : Filling U8) :
    Except Stop (Nat × List U8) :=
  let pos := payload.written.length
  let total := SV2_FRAME_HEADER_SIZE + pos
  if buf.length < total then .error .refused
  else do
    let frame ← (Filling.intoArray buf).put
      (sv2EncodeFrameHeader 0x0000#16 msgType (BitVec.ofNat 32 pos))
    let frame ← frame.put payload.written
    return (total, frame.contents)

/-- `sv2_build_setup_connection`; `stack` is what the staging area holds before. -/
def sv2BuildSetupConnection (stack : Vector U8 SV2_STAGING_SIZE) (buf : List U8)
    (host : Option (List U8)) (port : U16)
    (vendor hwVersion firmware deviceId : Option (List U8)) (flags : U32) :
    Except Stop (Nat × List U8) := do
  let payload ← (Filling.intoArray stack.toList).put [0x00#8]
  let payload ← payload.put (writeU16Le 2)
  let payload ← payload.put (writeU16Le 2)
  let payload ← payload.put (writeLe32 flags)
  let payload ← writeStr0255 payload host
  let payload ← payload.put (writeU16Le port)
  let payload ← writeStr0255 payload vendor
  let payload ← writeStr0255 payload hwVersion
  let payload ← writeStr0255 payload firmware
  let payload ← writeStr0255 payload deviceId
  sv2WriteFrame buf SV2_MSG_SETUP_CONNECTION payload

/-- `sv2_build_open_standard_mining_channel`; the hash rate is given by the bits of the
`float`. -/
def sv2BuildOpenStandardMiningChannel (stack : Vector U8 SV2_STAGING_SIZE) (buf : List U8)
    (requestId : U32) (userIdentity : Option (List U8)) (nominalHashRate : U32) :
    Except Stop (Nat × List U8) := do
  let payload ← (Filling.intoArray stack.toList).put (writeLe32 requestId)
  let payload ← writeStr0255 payload userIdentity
  let payload ← payload.put (writeLe32 nominalHashRate)
  let payload ← payload.put (List.replicate 32 0xFF#8)
  sv2WriteFrame buf SV2_MSG_OPEN_STANDARD_MINING_CHANNEL payload

/-- `sv2_build_open_extended_mining_channel` -/
def sv2BuildOpenExtendedMiningChannel (stack : Vector U8 SV2_STAGING_SIZE) (buf : List U8)
    (requestId : U32) (userIdentity : Option (List U8)) (nominalHashRate : U32)
    (minExtranonceSize : U16) : Except Stop (Nat × List U8) := do
  let payload ← (Filling.intoArray stack.toList).put (writeLe32 requestId)
  let payload ← writeStr0255 payload userIdentity
  let payload ← payload.put (writeLe32 nominalHashRate)
  let payload ← payload.put (List.replicate 32 0xFF#8)
  let payload ← payload.put (writeU16Le minExtranonceSize)
  sv2WriteFrame buf SV2_MSG_OPEN_EXTENDED_MINING_CHANNEL payload

/-- Bytes that a `uint8_t` counts. -/
abbrev ByteCounted := { bytes : List U8 // bytes.length < 256 }

/-- The bytes behind an extranonce, which may be `NULL`. -/
def sv2ExtranonceBytes : Option ByteCounted → List U8
  | none => []
  | some bytes => bytes.val

/-- `sv2_build_submit_shares`, which fills the caller's buffer directly. -/
def sv2BuildSubmitSharesInto (buf : List U8)
    (channelId sequenceNumber jobId nonce ntime version : U32)
    (extranonce : Option ByteCounted) : Except Stop (Nat × List U8) :=
  let bytes := sv2ExtranonceBytes extranonce
  let isExtended := extranonce.isSome && decide (0 < bytes.length)
  let payloadLen := SV2_SUBMIT_SHARES_PAYLOAD_SIZE + if isExtended then 1 + bytes.length else 0
  let total := SV2_FRAME_HEADER_SIZE + payloadLen
  if buf.length < total then .error .refused
  else do
    let msgType := if isExtended then SV2_MSG_SUBMIT_SHARES_EXTENDED
      else SV2_MSG_SUBMIT_SHARES_STANDARD
    let frame ← (Filling.intoArray buf).put
      (sv2EncodeFrameHeader SV2_CHANNEL_MSG_FLAG msgType (BitVec.ofNat 32 payloadLen))
    let frame ← frame.put (writeLe32 channelId)
    let frame ← frame.put (writeLe32 sequenceNumber)
    let frame ← frame.put (writeLe32 jobId)
    let frame ← frame.put (writeLe32 nonce)
    let frame ← frame.put (writeLe32 ntime)
    let frame ← frame.put (writeLe32 version)
    if isExtended then
      let frame ← frame.put [BitVec.ofNat 8 bytes.length]
      let frame ← frame.put bytes
      return (total, frame.contents)
    else return (total, frame.contents)

end EspMiner
