import EspMiner.Asic.JobStore
import EspMiner.Bzm.Work

/-!
# What the Bitmain drivers share

`components/asic/crc.c`, `asic_common.c` and the response layouts at the head of every
`bm13xx.c`: the checksum of a response, its reception, the count of the chips that
answer, and the register maps.
-/

namespace EspMiner

/-! ## Checksum and reception -/

/-- The inner loop's body in `crc5`, for one bit of the data. -/
def crc5Bit (crc bit : U8) : U8 :=
  let newBit := ((crc >>> 4) ^^^ bit) &&& 1#8
  (((crc <<< 1) ||| newBit) ^^^ (newBit <<< 2)) &&& 0x1f#8

/-- One byte of the data, its highest bit first. -/
def crc5Byte (crc byte : U8) : U8 :=
  (List.range 8).foldl (fun crc (i : Nat) => crc5Bit crc ((byte <<< i) >>> 7)) crc

/-- `crc5` -/
def crc5 (data : List U8) : U8 := data.foldl crc5Byte 0x1f#8

/-- What `SERIAL_rx` comes back with: an error, or the bytes that arrived in time. -/
inductive SerialRx where
  | error
  | bytes (received : List U8)
deriving DecidableEq

def PREAMBLE : U16 := 0xaa55#16

/-- `(buffer[i] << 8) | buffer[i + 1]` -/
def loadBe16 (buffer : List U8) (i : Nat) : U16 :=
  ((buffer.getD i 0).setWidth 16 <<< 8) ||| (buffer.getD (i + 1) 0).setWidth 16

/-- `receive_work`; `none` is `ESP_FAIL`. -/
def receiveWork (bufferSize : Nat) : SerialRx → Option (List U8)
  | .error => none
  | .bytes received =>
      if received.length = 0 then none
      else if received.length ≠ bufferSize then none
      else if loadBe16 received 0 ≠ PREAMBLE then none
      else if crc5 (received.drop 2) ≠ 0#8 then none
      else some received

/-- The loop of `count_asic_chips_with_id_alias` over what `SERIAL_rx` comes back with.
Nothing, an error and a wrong length end it; a response that fails a check is skipped. -/
def countChipResponses (chipId chipIdAlias : U16) (responseLength : Nat) : List SerialRx → Nat
  | [] => 0
  | .error :: _ => 0
  | .bytes received :: rest =>
      if received.length = 0 then 0
      else if received.length ≠ responseLength then 0
      else if loadBe16 received 0 ≠ PREAMBLE then
        countChipResponses chipId chipIdAlias responseLength rest
      else if loadBe16 received 2 ≠ chipId ∧ loadBe16 received 2 ≠ chipIdAlias then
        countChipResponses chipId chipIdAlias responseLength rest
      else if crc5 (received.drop 2) ≠ 0#8 then
        countChipResponses chipId chipIdAlias responseLength rest
      else countChipResponses chipId chipIdAlias responseLength rest + 1

/-- `count_asic_chips_with_id_alias` -/
def countAsicChipsWithIdAlias (asicCount : U8) (chipId chipIdAlias : U16) (responseLength : Nat)
    (rx : List SerialRx) : Nat :=
  let chipCounter := countChipResponses chipId chipIdAlias responseLength rx
  if chipCounter ≠ asicCount.toNat then 0 else chipCounter

/-- `count_asic_chips` -/
def countAsicChips (asicCount : U8) (chipId : U16) (responseLength : Nat) (rx : List SerialRx) :
    Nat :=
  countAsicChipsWithIdAlias asicCount chipId chipId responseLength rx

/-- Only the expected count is returned, or zero. -/
theorem countAsicChipsWithIdAlias_le (asicCount : U8) (chipId chipIdAlias : U16)
    (responseLength : Nat) (rx : List SerialRx) :
    countAsicChipsWithIdAlias asicCount chipId chipIdAlias responseLength rx ≤ asicCount.toNat := by
  unfold countAsicChipsWithIdAlias
  simp only
  split
  · exact Nat.zero_le _
  · next h => exact (not_not.mp h).le

/-! ## Registers -/

/-- `register_type_t` -/
inductive RegisterType where
  | invalid
  | hashrate
  | totalCount
  | domain0Count
  | domain1Count
  | domain2Count
  | domain3Count
  | errorCount
  | pllParam
deriving DecidableEq, Repr

/-- An array with designated initialisers: it ends behind the last index named, and what
is not named is zero, which is `REGISTER_INVALID`. -/
def designated (named : List (Nat × RegisterType)) : List RegisterType :=
  (List.range (named.foldl (fun size entry => max size (entry.1 + 1)) 0)).map fun i =>
    (named.lookup i).getD .invalid

/-- `REGISTER_MAP` of `bm1397.c` -/
def bm1397RegisterMap : List RegisterType := designated [(0x04, .hashrate), (0x4C, .errorCount)]

/-- `REGISTER_MAP` of the four other drivers, each with its own copy. -/
def bm13xxRegisterMap : List RegisterType :=
  designated [(0x4C, .errorCount), (0x88, .domain0Count), (0x89, .domain1Count),
    (0x8A, .domain2Count), (0x8B, .domain3Count), (0x8C, .totalCount)]

@[simp] theorem length_bm1397RegisterMap : bm1397RegisterMap.length = 0x4D := by
  simp [bm1397RegisterMap, designated]

@[simp] theorem length_bm13xxRegisterMap : bm13xxRegisterMap.length = 0x8D := by
  simp [bm13xxRegisterMap, designated]

/-! ## Responses

The packed response overlays two readings of the same bytes: a register's value, address
and chip, or a nonce, its job id and its version bits. -/

namespace BitmainFrame

variable (frame : List U8)

/-- Bytes 2 to 5 as the little-endian CPU loads them: `job.nonce` and `cmd.value`. -/
def word : U32 :=
  (frame.getD 2 0).setWidth 32 ||| (frame.getD 3 0).setWidth 32 <<< 8 |||
    (frame.getD 4 0).setWidth 32 <<< 16 ||| (frame.getD 5 0).setWidth 32 <<< 24

/-- `cmd.asic_address` -/
def asicAddress : U8 := frame.getD 6 0

/-- `cmd.register_address` -/
def registerAddress : U8 := frame.getD 7 0

/-- `job.id` -/
def id : U8 := frame.getD 7 0

/-- `ntohs(job.version)` -/
def version : U16 := loadBe16 frame 8

/-- The highest bit of the last byte. -/
def isJobResponse : Bool := (frame.getLastD 0).msb

/-- `ntohs(asic_result.job.version) << 13` -/
def hardwareVersionBits : U32 := (version frame).setWidth 32 <<< 13

/-- `(uint8_t)((nonce_h >> 17) & 0xff)` -/
def nonceAddress : U8 := (bswap32 (word frame) >>> 17).setWidth 8

/-- `(uint8_t)((nonce_h >> 25) & 0x7f)` -/
def coreId : U8 := ((bswap32 (word frame) >>> 25) &&& 0x7f#32).setWidth 8

end BitmainFrame

end EspMiner
