import EspMiner.Stratum.MinerJob

/-!
# Coinbase validation

`components/stratum/coinbase_decoder.c`: the check that a pool job must pass
before it is published.  The extranonces belong inside the script of the one
input, and the outputs fill the suffix up to the lock time.
-/

namespace EspMiner

/-- `read_compact_size`: the value and the offset after it. -/
def readCompactSize (data : List U8) (length offset : Nat) : Option (U64 × Nat) :=
  if length ≤ offset then none
  else
    let tag := data.getD offset 0
    let offset := offset + 1
    if tag < 0xfd then some (tag.setWidth 64, offset)
    else
      let bytes := if tag = 0xfd then 2 else if tag = 0xfe then 4 else 8
      if length - offset < bytes then none
      else
        let value := (List.range bytes).foldl
          (fun value i => value ||| ((data.getD (offset + i) 0).setWidth 64 <<< (8 * i))) (0 : U64)
        let least : U64 := if bytes = 2 then 0xfd else if bytes = 4 then 0x10000 else 0x100000000
        if value < least then none else some (value, offset + bytes)

/-- The offset after a number of outputs, if they are all there. -/
def skipOutputs (suffix : List U8) (length : Nat) : Nat → Nat → Option Nat
  | 0, offset => some offset
  | outputs + 1, offset =>
      if length - offset < 8 then none
      else
        match readCompactSize suffix length (offset + 8) with
        | none => none
        | some (scriptSize, offset) =>
            if length - offset < scriptSize.toNat then none
            else skipOutputs suffix length outputs (offset + scriptSize.toNat)

/-- `coinbase_validate_miner_job` -/
def coinbaseValidateMinerJob (buffers : CoinbaseBuffers) (job : MinerJob) : Bool :=
  let byte (i : Nat) := (job.coinbasePrefix.getD i 0).toNat
  if buffers.prefixAllocated = false ∨ buffers.suffixAllocated = false ∨
      job.coinbasePrefixLen < 42 ∨ 32 < job.extranonce1Len ∨ 32 < job.extranonce2Len then false
  else if byte 4 ≠ 1 ∨ byte 41 < 2 ∨ 100 < byte 41 then false
  else if (List.range 41).any fun i => decide (5 ≤ i ∧ byte i ≠ if i < 37 then 0 else 0xff) then
    false
  else
    let scriptEnd := 42 + byte 41
    let insertedEnd := job.coinbasePrefixLen.toNat + job.extranonce1Len.toNat +
      job.extranonce2Len.toNat
    let offset := scriptEnd - insertedEnd
    let length := job.coinbaseSuffixLen.toNat
    if scriptEnd < insertedEnd then false
    else if length < offset ∨ length - offset < 4 then false
    else
      match readCompactSize job.coinbaseSuffix length (offset + 4) with  -- after nSequence
      | none => false
      | some (outputs, offset) =>
          if outputs = 0 ∨ (length - offset) / 9 < outputs.toNat then false
          else
            match skipOutputs job.coinbaseSuffix length outputs.toNat offset with
            | none => false
            | some offset => decide (length - offset = 4)  -- nLockTime and nothing more

end EspMiner
