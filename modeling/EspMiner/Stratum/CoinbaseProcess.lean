import EspMiner.Library.CheckedAccess
import EspMiner.Stratum.CoinbaseAcceptance
import EspMiner.Stratum.Sv1Protocol

/-!
# Decoding a coinbase

`components/stratum/coinbase_decoder.c`: the block height, the miner tag and the
outputs that are shown for a job.  Every read of a buffer is checked here, and one
that lies outside is an error of its own.  The base58 and the bech32 encoder are
parameters, and the tag finds memory.
-/

namespace EspMiner

open Library

def MAX_ADDRESS_STRING_LEN : Nat := 128
def MAX_COINBASE_TX_OUTPUTS : Nat := 6
def OP_0 : U8 := 0x00#8
def OP_PUSHDATA_20 : U8 := 0x14#8
def OP_PUSHDATA_32 : U8 := 0x20#8
def OP_1 : U8 := 0x51#8
def OP_RETURN : U8 := 0x6a#8
def OP_DUP : U8 := 0x76#8
def OP_EQUAL : U8 := 0x87#8
def OP_EQUALVERIFY : U8 := 0x88#8
def OP_HASH160 : U8 := 0xa9#8
def OP_CHECKSIG : U8 := 0xac#8
def BIP110_SIGNAL_BIT : Nat := 4
def BIP110_SIGNAL_EXPIRY_BLOCK : Nat := 965664

/-- How decoding ends without a result: `ESP_ERR_INVALID_ARG`, or a read outside a
buffer. -/
inductive CoinbaseFault where
  | invalidArg
  | outOfBounds
deriving DecidableEq, Repr

/-- `coinbase_output_t` -/
structure CoinbaseOutputEntry where
  valueSatoshis : U64
  address : List U8
  isUserOutput : Bool
deriving DecidableEq, Repr

/-- `mining_notification_result_t` -/
structure MiningNotificationResult where
  blockHeight : U32
  scriptsig : Option (List U8)
  outputs : Vector CoinbaseOutputEntry MAX_COINBASE_TX_OUTPUTS
  outputCount : Nat
  totalValueSatoshis : U64
  userValueSatoshis : U64
  decodeCoinbaseTx : Bool
  bip54Signaling : Bool
  bip110Signaling : Bool

/-- The record that `calloc` gives. -/
def MiningNotificationResult.zero : MiningNotificationResult where
  blockHeight := 0
  scriptsig := none
  outputs := Vector.replicate _ ⟨0, [], false⟩
  outputCount := 0
  totalValueSatoshis := 0
  userValueSatoshis := 0
  decodeCoinbaseTx := false
  bip54Signaling := false
  bip110Signaling := false

/-! ## Reading the buffers -/

/-- A byte of a buffer. -/
def byteAt (data : List U8) (length i : Nat) : Except CoinbaseFault U8 :=
  if i < length then .ok (data.getD i 0) else .error .outOfBounds

/-- `memcpy` out of a buffer. -/
def sliceAt (data : List U8) (length offset count : Nat) : Except CoinbaseFault (List U8) :=
  if offset + count ≤ length then .ok (((data.takeD length 0).drop offset).take count)
  else .error .outOfBounds

/-- The loop that puts little-endian bytes together. -/
def littleEndianAt (w : Nat) (data : List U8) (length offset count : Nat) :
    Except CoinbaseFault (BitVec w) :=
  (List.range count).foldlM (fun value i => do
    let byte ← byteAt data length (offset + i)
    return value ||| (byte.setWidth w <<< (8 * i))) 0

/-- `coinbase_decode_varint`: the value and the offset after it. -/
def coinbaseDecodeVarint (data : List U8) (length offset : Nat) :
    Except CoinbaseFault (U64 × Nat) :=
  if length ≤ offset then return (0, offset)
  else do
    let firstByte ← byteAt data length offset
    let offset := offset + 1
    if firstByte < 0xfd then return (firstByte.setWidth 64, offset)
    else
      let bytes := if firstByte = 0xfd then 2 else if firstByte = 0xfe then 4 else 8
      if length < offset + bytes then return (0, length)
      else do
        let value ← littleEndianAt 64 data length offset bytes
        return (value, offset + bytes)

/-! ## Addresses -/

/-- `b58check_enc` and `segwit_addr_encode`. -/
structure AddressEncoders where
  b58check : U8 → List U8 → Option (List U8)
  segwit : List U8 → Nat → List U8 → Option (List U8)

/-- `isprint` in the C locale, with a dot in the place of other bytes. -/
def printable (byte : U8) : U8 := if 0x20 ≤ byte.toNat ∧ byte.toNat ≤ 0x7e then byte else 46#8

/-- The script has this length and these opcodes; they are compared one by one. -/
def scriptIs (script : List U8) (length : Nat) (opcodes : List (Nat × U8)) :
    Except CoinbaseFault Bool :=
  if script.length = length then
    opcodes.allM fun opcode => do
      let byte ← byteAt script script.length opcode.1
      return decide (byte = opcode.2)
  else return false

/-- An encoded program, or the kind and the digits of one that is not encoded. -/
def addressOr (address : Option (List U8)) (kind : String) (program : List U8) : List U8 :=
  address.getD (cText kind ++ bin2hex program)

/-- `coinbase_decode_address_from_scriptpubkey` into `MAX_ADDRESS_STRING_LEN` bytes. -/
def coinbaseDecodeAddressFromScriptpubkey (encoders : AddressEncoders) (script : List U8)
    (bech32Hrp : List U8) (isTestnet : Bool) : Except CoinbaseFault (List U8) := do
  if script.length = 0 then return cText "unknown"
  let p2pkhVersion := if isTestnet then 0x6f#8 else 0x00#8
  let p2shVersion := if isTestnet then 0xc4#8 else 0x05#8
  let program (offset count : Nat) := sliceAt script script.length offset count
  if ← scriptIs script 25 [(0, OP_DUP), (1, OP_HASH160), (2, OP_PUSHDATA_20),
      (23, OP_EQUALVERIFY), (24, OP_CHECKSIG)] then
    let hash ← program 3 20
    return addressOr (encoders.b58check p2pkhVersion hash) "P2PKH:" hash
  if ← scriptIs script 23 [(0, OP_HASH160), (1, OP_PUSHDATA_20), (22, OP_EQUAL)] then
    let hash ← program 2 20
    return addressOr (encoders.b58check p2shVersion hash) "P2SH:" hash
  if ← scriptIs script 22 [(0, OP_0), (1, OP_PUSHDATA_20)] then
    let hash ← program 2 20
    return addressOr (encoders.segwit bech32Hrp 0 hash) "P2WPKH:" hash
  if ← scriptIs script 34 [(0, OP_0), (1, OP_PUSHDATA_32)] then
    let hash ← program 2 32
    return addressOr (encoders.segwit bech32Hrp 0 hash) "P2WSH:" hash
  if ← scriptIs script 34 [(0, OP_1), (1, OP_PUSHDATA_32)] then
    let key ← program 2 32
    return addressOr (encoders.segwit bech32Hrp 1 key) "P2TR:" key
  let first ← byteAt script script.length 0
  if first = OP_RETURN then
    -- a push of all that follows is skipped over
    let offset ← if 1 < script.length then do
        let push ← byteAt script script.length 1
        pure (if 0 < push ∧ push ≤ 0x4b ∧ push.toNat + 2 = script.length then 2 else 1)
      else pure 1
    let text ← program offset (script.length - offset)
    return (cText "OP_RETURN: " ++ text.map printable).take (MAX_ADDRESS_STRING_LEN - 1)
  let shown ← program 0 (if script.length < 32 then script.length else 32)
  return cText "UNKNOWN:" ++ bin2hex shown

/-- The network of the user's address: the bech32 prefix, and whether it is a test
network. -/
def coinbaseNetwork (userAddress : Option (List U8)) : List U8 × Bool :=
  match userAddress with
  | none => (cText "bc", false)
  | some user =>
      if user.take 4 = cText "bcrt" then (cText "bcrt", true)
      else if user.take 3 = cText "tb1" then (cText "tb", true)
      else if user.head? = some 109#8 ∨ user.head? = some 110#8 ∨ user.head? = some 50#8 then
        (cText "tb", true)
      else (cText "bc", false)

/-! ## The suffix -/

/-- What `parse_coinbase_suffix` is given beside the job. -/
structure CoinbaseView where
  encoders : AddressEncoders
  userAddress : Option (List U8)
  decodeCoinbaseTx : Bool

namespace CoinbaseView

variable (view : CoinbaseView)

/-- The address of a script. -/
def address (script : List U8) : Except CoinbaseFault (List U8) :=
  let network := coinbaseNetwork view.userAddress
  coinbaseDecodeAddressFromScriptpubkey view.encoders script network.1 network.2

/-- `strncmp` of the user's address with all of the decoded one. -/
def isUserAddress (address : List U8) : Bool :=
  match view.userAddress with
  | none => false
  | some user => address.isPrefixOf user

/-- One output of the result's table. -/
def putOutput (result : MiningNotificationResult) (i : Nat) (entry : CoinbaseOutputEntry) :
    MiningNotificationResult :=
  if h : i < MAX_COINBASE_TX_OUTPUTS then
    { result with
      outputs := result.outputs.set i entry
      outputCount := result.outputCount + 1 }
  else result

/-- What the result takes from an output. -/
def recordOutput (i : Nat) (valueSatoshis : U64) (script : List U8)
    (result : MiningNotificationResult) : Except CoinbaseFault MiningNotificationResult :=
  if 0 < valueSatoshis then do
    let outputAddress ← view.address script
    let isUser := view.isUserAddress outputAddress
    let result := if isUser then
        { result with userValueSatoshis := result.userValueSatoshis + valueSatoshis }
      else result
    return putOutput result i ⟨valueSatoshis, outputAddress, isUser⟩
  else if i < MAX_COINBASE_TX_OUTPUTS then do
    let outputAddress ← view.address script
    return putOutput result i ⟨0, outputAddress, false⟩
  else return result

/-- The outputs from the `i`-th on: the result and the offset after the last. -/
def parseOutputs (suffix : List U8) (length : Nat) :
    Nat → Nat → Nat → MiningNotificationResult →
      Except CoinbaseFault (MiningNotificationResult × Nat)
  | 0, _, offset, result => return (result, offset)
  | remaining + 1, i, offset, result => do
      if length < offset ∨ length - offset < 8 then throw .invalidArg
      let valueSatoshis ← littleEndianAt 64 suffix length offset 8
      let offset := offset + 8
      if BitVec.allOnes 64 - result.totalValueSatoshis < valueSatoshis then throw .invalidArg
      let result :=
        { result with totalValueSatoshis := result.totalValueSatoshis + valueSatoshis }
      if length ≤ offset then throw .invalidArg
      let (scriptLen, offset) ← coinbaseDecodeVarint suffix length offset
      if length < offset ∨ length - offset < scriptLen.toNat then throw .invalidArg
      let result ← if view.decodeCoinbaseTx then do
          let script ← sliceAt suffix length offset scriptLen.toNat
          view.recordOutput i valueSatoshis script result
        else pure result
      parseOutputs suffix length remaining (i + 1) (offset + scriptLen.toNat) result

/-- `parse_coinbase_suffix` -/
def parseCoinbaseSuffix (job : MinerJob) (offset : Nat) (result : MiningNotificationResult) :
    Except CoinbaseFault MiningNotificationResult := do
  let suffix := job.coinbaseSuffix
  let length := job.coinbaseSuffixLen.toNat
  if length < offset + 4 then throw .invalidArg
  let nSequence ← littleEndianAt 32 suffix length offset 4
  let offset := offset + 4
  if length ≤ offset then throw .invalidArg
  let (numOutputs, offset) ← coinbaseDecodeVarint suffix length offset
  if numOutputs = 0 then throw .invalidArg
  let (result, offset) ← view.parseOutputs suffix length numOutputs.toNat 0 offset
    { result with outputCount := 0 }
  if length < offset ∨ length - offset ≠ 4 then throw .invalidArg
  let nLockTime ← littleEndianAt 32 suffix length offset 4
  return { result with
    bip54Signaling := view.decodeCoinbaseTx && decide (0 < result.blockHeight) &&
      decide (nLockTime = result.blockHeight - 1) && decide (nSequence ≠ 0xffffffff) }

end CoinbaseView

/-! ## The prefix -/

/-- The tag of `scriptsigLength` bytes that starts in the prefix and goes on in the
suffix, if the suffix is long enough. -/
def coinbaseMinerTag (job : MinerJob) (offset scriptsigLength : Nat) :
    Except CoinbaseFault (Option (List U8)) := do
  let prefixTagLen := min (job.coinbasePrefixLen.toNat - offset) scriptsigLength
  let first ← sliceAt job.coinbasePrefix job.coinbasePrefixLen.toNat offset prefixTagLen
  let suffixTagLen := scriptsigLength - prefixTagLen
  if job.coinbaseSuffixLen.toNat < suffixTagLen then return none
  let second ← sliceAt job.coinbaseSuffix job.coinbaseSuffixLen.toNat 0 suffixTagLen
  return some ((first ++ second).map printable)

/-- `coinbase_2_offset`: where the script ends in the suffix. -/
def coinbaseSuffixOffset (job : MinerJob) (scriptsigLen blockHeightLen : U8) : Nat :=
  let rawScriptsigRemainder : Int := (scriptsigLen.toNat - 1 - blockHeightLen.toNat) -
    (job.coinbasePrefixLen.toNat - (43 + blockHeightLen.toNat))
  if 0 < rawScriptsigRemainder then
    let remainder := rawScriptsigRemainder -
      (job.extranonce1Len.toNat + job.extranonce2Len.toNat)
    if 0 < remainder then remainder.toNat else 0
  else 0

/-- `coinbase_process_miner_job` -/
def coinbaseProcessMinerJob (view : CoinbaseView) (job : MinerJob)
    (result : MiningNotificationResult) : Except CoinbaseFault MiningNotificationResult := do
  let result := { result with
    totalValueSatoshis := 0
    userValueSatoshis := 0
    decodeCoinbaseTx := view.decodeCoinbaseTx }
  let data := job.coinbasePrefix
  let length := job.coinbasePrefixLen.toNat
  if length < 41 + 1 then throw .invalidArg
  let scriptsigLen ← byteAt data length 41
  if length < 42 + 1 then throw .invalidArg
  let blockHeightLen ← byteAt data length 42
  if blockHeightLen = 0 ∨ 4 < blockHeightLen ∨ length < 43 + blockHeightLen.toNat then
    throw .invalidArg
  let blockHeight ← littleEndianAt 32 data length 43 blockHeightLen.toNat
  let offset := 43 + blockHeightLen.toNat
  let result := { result with
    blockHeight := blockHeight
    bip110Signaling := view.decodeCoinbaseTx &&
      decide (blockHeight.toNat < BIP110_SIGNAL_EXPIRY_BLOCK) &&
      job.version.getLsbD BIP110_SIGNAL_BIT }
  let remaining : Int := scriptsigLen.toNat - 1 - blockHeightLen.toNat
  -- the extranonces are no part of the tag
  let scriptsigLength := if (length - offset : Int) < remaining then
      remaining - (job.extranonce1Len.toNat + job.extranonce2Len.toNat)
    else remaining
  let tag ← if 0 < scriptsigLength then coinbaseMinerTag job offset scriptsigLength.toNat
    else pure none
  let result := { result with scriptsig := tag.or result.scriptsig }
  view.parseCoinbaseSuffix job (coinbaseSuffixOffset job scriptsigLen blockHeightLen) result

end EspMiner
