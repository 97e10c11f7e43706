import EspMiner.Bzm.Work

/-!
# The serial transport: commands and nonce ranges

`components/asic/bzm_transport.c`: the three commands as streams of nine-bit
words, two bytes a word, and the share of a nonce range that each ASIC gets.
-/

namespace EspMiner

/-! ### Commands -/

/-- `append_word`; `encoded` are the bytes before `*offset`. -/
def appendWord (encodedCapacity : Nat) (encoded : List U8) (word : U16) : Option (List U8) :=
  if encodedCapacity < encoded.length + 2 then none
  else some (encoded ++ [(word &&& 0xff#16).setWidth 8, ((word >>> 8) &&& 0x01#16).setWidth 8])

/-- `bzm_transport_encode_write`; `none` is a length of zero. -/
def bzmTransportEncodeWrite (asicId : U8) (engineId : U16) (offset : U8) (data : List U8)
    (encodedCapacity : Nat) : Option (List U8) :=
  if data.length = 0 ∨ 256 < data.length ∨ BZM_MAX_ENGINE_COUNT ≤ engineId.toNat then none
  else do
    let encoded ← appendWord encodedCapacity [] (0x100#16 ||| asicId.setWidth 16)
    let encoded ← appendWord encodedCapacity encoded
      (0x020#16 ||| ((engineId >>> 8) &&& 0x0f#16))
    let encoded ← appendWord encodedCapacity encoded (engineId &&& 0xff#16)
    let encoded ← appendWord encodedCapacity encoded (offset.setWidth 16)
    let encoded ← appendWord encodedCapacity encoded (BitVec.ofNat 16 (data.length - 1))
    let encoded ← data.foldlM (fun encoded byte =>
      appendWord encodedCapacity encoded (byte.setWidth 16)) encoded
    appendWord encodedCapacity encoded 0#16

/-- `bzm_transport_encode_read` -/
def bzmTransportEncodeRead (asicId : U8) (engineId : U16) (offset : U8) (dataLen : Nat)
    (encodedCapacity : Nat) : Option (List U8) :=
  if dataLen = 0 ∨ 256 < dataLen ∨ BZM_MAX_ENGINE_COUNT ≤ engineId.toNat then none
  else do
    let encoded ← appendWord encodedCapacity [] (0x100#16 ||| asicId.setWidth 16)
    let encoded ← appendWord encodedCapacity encoded
      (0x030#16 ||| ((engineId >>> 8) &&& 0x0f#16))
    let encoded ← appendWord encodedCapacity encoded (engineId &&& 0xff#16)
    let encoded ← appendWord encodedCapacity encoded (offset.setWidth 16)
    let encoded ← appendWord encodedCapacity encoded (BitVec.ofNat 16 (dataLen - 1))
    appendWord encodedCapacity encoded 0#16

/-- `bzm_transport_encode_noop` -/
def bzmTransportEncodeNoop (asicId : U8) (encodedCapacity : Nat) : Option (List U8) := do
  let encoded ← appendWord encodedCapacity [] (0x100#16 ||| asicId.setWidth 16)
  appendWord encodedCapacity encoded 0x0f0#16

/-- The arguments of the three encoders. -/
inductive BzmCommand where
  | write (asicId : U8) (engineId : U16) (offset : U8) (data : List U8)
  | read (asicId : U8) (engineId : U16) (offset : U8) (dataLen : Nat)
  | noop (asicId : U8)
deriving DecidableEq

/-- The encoder of a command, with a buffer of `encodedCapacity` bytes. -/
def BzmCommand.encode (encodedCapacity : Nat) : BzmCommand → Option (List U8)
  | .write asicId engineId offset data =>
      bzmTransportEncodeWrite asicId engineId offset data encodedCapacity
  | .read asicId engineId offset dataLen =>
      bzmTransportEncodeRead asicId engineId offset dataLen encodedCapacity
  | .noop asicId => bzmTransportEncodeNoop asicId encodedCapacity

/-! ### Nonce ranges -/

/-- `bzm_partition_nonce_range`: the first and the last nonce of one partition.
`size_t` is taken with 64 bits; one of 32 bits embeds. -/
def bzmPartitionNonceRange (startingNonce endNonce : U32) (part partitionCount : U64) :
    Option (U32 × U32) :=
  if partitionCount = 0 ∨ partitionCount ≤ part ∨ endNonce < startingNonce then none
  else
    let nonceCount : U64 := endNonce.setWidth 64 - startingNonce.setWidth 64 + 1
    let nonceStep := nonceCount / partitionCount
    if nonceStep = 0 then none
    else
      some ((startingNonce.setWidth 64 + nonceStep * part).setWidth 32,
        if part + 1 = partitionCount then endNonce
        else (startingNonce.setWidth 64 + nonceStep * (part + 1) - 1).setWidth 32)

def BZM_ALL_ASICS : U8 := 0xff#8

end EspMiner
