import EspMiner.Library.Decimal
import EspMiner.Stratum.MiningJob

/-!
# Stratum V2 messages

`components/stratum_v2/sv2_protocol.c`: the messages of the mining channel that
the client receives once the channel is open, and the share it sends.  A payload
is the list of its bytes; a parser that returns -1 is `none` here.
-/

namespace EspMiner

open Library

def SV2_FRAME_HEADER_SIZE : Nat := 6
def SV2_MSG_NEW_MINING_JOB : U8 := 0x15#8
def SV2_MSG_NEW_EXTENDED_MINING_JOB : U8 := 0x1f#8
def SV2_MSG_SUBMIT_SHARES_STANDARD : U8 := 0x1a#8
def SV2_MSG_SUBMIT_SHARES_EXTENDED : U8 := 0x1b#8
def SV2_MSG_SUBMIT_SHARES_SUCCESS : U8 := 0x1c#8
def SV2_MSG_SUBMIT_SHARES_ERROR : U8 := 0x1d#8
def SV2_MSG_SET_NEW_PREV_HASH : U8 := 0x20#8
def SV2_MSG_SET_TARGET : U8 := 0x21#8
def SV2_SUBMIT_SHARES_PAYLOAD_SIZE : Nat := 24
def SV2_SUBMIT_SHARES_MAX_FRAME_SIZE : Nat :=
  SV2_FRAME_HEADER_SIZE + SV2_SUBMIT_SHARES_PAYLOAD_SIZE + 1 + 32
def SV2_CHANNEL_MSG_FLAG : U16 := 0x8000#16

/-- `sv2_channel_type_t` -/
inductive Sv2ChannelType where
  | unknown
  | standard
  | extended
deriving DecidableEq, Repr

/-! ## Little-endian helpers -/

/-- `read_u16_le` at a position of the payload -/
def readU16Le (payload : List U8) (pos : Nat) : U16 :=
  (payload.getD pos 0).setWidth 16 ||| ((payload.getD (pos + 1) 0).setWidth 16 <<< 8)

/-- `read_u32_le` at a position of the payload -/
def readU32Le (payload : List U8) (pos : Nat) : U32 :=
  (payload.getD pos 0).setWidth 32 ||| ((payload.getD (pos + 1) 0).setWidth 32 <<< 8) |||
    ((payload.getD (pos + 2) 0).setWidth 32 <<< 16) |||
    ((payload.getD (pos + 3) 0).setWidth 32 <<< 24)

/-- `write_u16_le` -/
def writeU16Le (value : U16) : List U8 := [value.setWidth 8, (value >>> 8).setWidth 8]

/-- The 32 bytes at a position of the payload. -/
def readHash (payload : List U8) (pos : Nat) : Vector U8 32 :=
  Vector.ofFn fun i => payload.getD (pos + i) 0

/-- `read_str0255` into an array of `size` bytes: the string that ends up there. -/
def readStr0255 (payload : List U8) (pos size : Nat) : Option (List U8) :=
  if payload.length < pos + 1 then none
  else
    let slen := (payload.getD pos 0).toNat
    if payload.length < pos + 1 + slen then none
    else some ((payload.drop (pos + 1)).take (min slen (size - 1)))

/-! ## Messages of the mining channel -/

/-- What `sv2_parse_new_mining_job` reads. -/
structure Sv2NewMiningJob where
  channelId : U32
  jobId : U32
  minNtime : Option U32
  version : U32
  merkleRoot : Vector U8 32
deriving DecidableEq

/-- `sv2_parse_new_mining_job` -/
def sv2ParseNewMiningJob (payload : List U8) : Option Sv2NewMiningJob :=
  if payload.length < 45 then none
  else if payload.getD 8 0 = 1 then
    if payload.length < 49 then none
    else some ⟨readU32Le payload 0, readU32Le payload 4, some (readU32Le payload 9),
      readU32Le payload 13, readHash payload 17⟩
  else some ⟨readU32Le payload 0, readU32Le payload 4, none, readU32Le payload 9,
    readHash payload 13⟩

/-- What `sv2_parse_set_new_prev_hash` reads. -/
structure Sv2SetNewPrevHash where
  channelId : U32
  jobId : U32
  prevHash : Vector U8 32
  minNtime : U32
  nbits : U32
deriving DecidableEq

/-- `sv2_parse_set_new_prev_hash` -/
def sv2ParseSetNewPrevHash (payload : List U8) : Option Sv2SetNewPrevHash :=
  if payload.length < 48 then none
  else some ⟨readU32Le payload 0, readU32Le payload 4, readHash payload 8, readU32Le payload 40,
    readU32Le payload 44⟩

/-- What `sv2_parse_set_target` reads. -/
structure Sv2SetTarget where
  channelId : U32
  maxTarget : Vector U8 32
deriving DecidableEq

/-- `sv2_parse_set_target` -/
def sv2ParseSetTarget (payload : List U8) : Option Sv2SetTarget :=
  if payload.length < 36 then none
  else some ⟨readU32Le payload 0, readHash payload 4⟩

/-- What `sv2_parse_submit_shares_success` reads. -/
structure Sv2SubmitSharesSuccess where
  channelId : U32
  lastSequenceNumber : U32
  acceptedCount : U32
deriving DecidableEq

/-- `sv2_parse_submit_shares_success` -/
def sv2ParseSubmitSharesSuccess (payload : List U8) : Option Sv2SubmitSharesSuccess :=
  if payload.length < 20 then none
  else some ⟨readU32Le payload 0, readU32Le payload 4, readU32Le payload 8⟩

/-- What `sv2_parse_submit_shares_error` reads. -/
structure Sv2SubmitSharesError where
  channelId : U32
  seqNum : U32
  errorCode : List U8
deriving DecidableEq

/-- `sv2_parse_submit_shares_error` with the 64 bytes that its caller provides. -/
def sv2ParseSubmitSharesError (payload : List U8) : Option Sv2SubmitSharesError :=
  if payload.length < 9 then none
  else (readStr0255 payload 8 64).map fun errorCode =>
    ⟨readU32Le payload 0, readU32Le payload 4, errorCode⟩

/-- The fields of a NewExtendedMiningJob. -/
structure Sv2NewExtendedMiningJob where
  channelId : U32
  jobId : U32
  minNtime : Option U32
  version : U32
  versionRollingAllowed : Bool
  merklePath : List (Vector U8 32)
  coinbasePrefix : List U8
  coinbaseSuffix : List U8
deriving DecidableEq

/-- A `B0_64K` field and the position after it. -/
def readB064K (payload : List U8) (pos : Nat) : Option (List U8 × Nat) :=
  if payload.length < pos + 2 then none
  else
    let len := (readU16Le payload pos).toNat
    if payload.length < pos + 2 + len then none
    else some ((payload.drop (pos + 2)).take len, pos + 2 + len)

/-- The reading half of `sv2_parse_new_extended_mining_job`, before it touches the
job. -/
def sv2ReadNewExtendedMiningJob (payload : List U8) : Option Sv2NewExtendedMiningJob :=
  if payload.length < 19 then none
  else
    let hasMinNtime := payload.getD 8 0 = 1
    -- `pos` after the option
    let pos := if hasMinNtime then 13 else 9
    if payload.length < pos + 4 + 1 then none
    else if payload.length < pos + 5 + 1 then none
    else
      let merkleCount := (payload.getD (pos + 5) 0).toNat
      if MAX_MERKLE_BRANCHES < merkleCount then none
      else if payload.length < pos + 6 + merkleCount * 32 then none
      else
        match readB064K payload (pos + 6 + merkleCount * 32) with
        | none => none
        | some (coinbasePrefix, suffixPos) =>
          match readB064K payload suffixPos with
          | none => none
          | some (coinbaseSuffix, _) => some {
              channelId := readU32Le payload 0
              jobId := readU32Le payload 4
              minNtime := if hasMinNtime then some (readU32Le payload 9) else none
              version := readU32Le payload pos
              versionRollingAllowed := decide (payload.getD (pos + 4) 0 ≠ 0)
              merklePath := (List.range merkleCount).map fun i =>
                readHash payload (pos + 6 + i * 32)
              coinbasePrefix := coinbasePrefix
              coinbaseSuffix := coinbaseSuffix }

/-- The job id stands where the client reads it before it parses the message. -/
theorem sv2ReadNewExtendedMiningJob_jobId {payload : List U8} {message : Sv2NewExtendedMiningJob}
    (h : sv2ReadNewExtendedMiningJob payload = some message) :
    message.jobId = readU32Le payload 4 := by
  unfold sv2ReadNewExtendedMiningJob at h
  dsimp only at h
  generalize (if payload.getD 8 0 = 1 then 13 else 9) = pos at h
  generalize (if payload.getD 8 0 = 1 then some (readU32Le payload 9) else none) = minNtime at h
  iterate 5
    rw [ite_eq_iff] at h
    replace h := (h.resolve_left fun hnone => nomatch hnone.2).2
  split at h
  · cases h
  · split at h
    · cases h
    · obtain rfl := Option.some.inj h
      rfl

/-- A buffer has room for `length` bytes. -/
def fitsBuffer (length maximum capacity : Nat) (allocated : Bool) : Bool :=
  decide (length ≤ maximum) && decide (length ≤ capacity) && (decide (length = 0) || allocated)

/-- The job as far as it is written before the coinbase. -/
def Sv2NewExtendedMiningJob.withoutCoinbase (message : Sv2NewExtendedMiningJob) : MinerJob :=
  { MinerJob.zero with
    type := .sv2Extended
    jobId := strcpyZeroed 32 (decimalText message.jobId.toNat)
    version := message.version
    ntime := message.minNtime.getD 0
    cleanJobs := message.minNtime.isSome
    merklePathCount := BitVec.ofNat 8 message.merklePath.length
    merklePath := Vector.ofFn fun i => message.merklePath.getD i (Vector.replicate 32 0) }

/-- `sv2_parse_new_extended_mining_job`: the message, if it was parsed, and the
job as it was left.  A coinbase that does not fit is found out after the job was
reset. -/
def sv2ParseNewExtendedMiningJob (payload : List U8) (buffers : CoinbaseBuffers) (job : MinerJob) :
    Option Sv2NewExtendedMiningJob × MinerJob :=
  match sv2ReadNewExtendedMiningJob payload with
  | none => (none, job)
  | some message =>
      let job := message.withoutCoinbase
      if fitsBuffer message.coinbasePrefix.length MAX_COINBASE_PREFIX_LEN buffers.prefixCapacity
          buffers.prefixAllocated = false then (none, job)
      else
        let job := { job with
          coinbasePrefix := message.coinbasePrefix
          coinbasePrefixLen := BitVec.ofNat 16 message.coinbasePrefix.length }
        if fitsBuffer message.coinbaseSuffix.length MAX_COINBASE_SUFFIX_LEN buffers.suffixCapacity
            buffers.suffixAllocated = false then (none, job)
        else (some message, { job with
          coinbaseSuffix := message.coinbaseSuffix
          coinbaseSuffixLen := BitVec.ofNat 16 message.coinbaseSuffix.length })

/-- `sv2_channel_or_group_matches` -/
def sv2ChannelOrGroupMatches (receivedChannelId channelId groupChannelId : U32) : Bool :=
  decide (receivedChannelId = channelId) ||
    (decide (groupChannelId ≠ 0) && decide (receivedChannelId = groupChannelId))

/-! ## Shares -/

/-- `sv2_encode_frame_header` -/
def sv2EncodeFrameHeader (extensionType : U16) (msgType : U8) (msgLength : U32) : List U8 :=
  writeU16Le extensionType ++ [msgType, msgLength.setWidth 8, (msgLength >>> 8).setWidth 8,
    (msgLength >>> 16).setWidth 8]

/-- `sv2_build_submit_shares`; the extranonce is empty on a standard channel. -/
def sv2BuildSubmitShares (bufLen : Nat) (channelId sequenceNumber jobId nonce ntime version : U32)
    (extranonce : List U8) : Option (List U8) :=
  let payloadLen := SV2_SUBMIT_SHARES_PAYLOAD_SIZE +
    if extranonce = [] then 0 else 1 + extranonce.length
  if bufLen < SV2_FRAME_HEADER_SIZE + payloadLen then none
  else
    let msgType := if extranonce = [] then SV2_MSG_SUBMIT_SHARES_STANDARD
      else SV2_MSG_SUBMIT_SHARES_EXTENDED
    some (sv2EncodeFrameHeader SV2_CHANNEL_MSG_FLAG msgType (BitVec.ofNat 32 payloadLen) ++
      [channelId, sequenceNumber, jobId, nonce, ntime, version].flatMap writeLe32 ++
      if extranonce = [] then [] else BitVec.ofNat 8 extranonce.length :: extranonce)

end EspMiner
