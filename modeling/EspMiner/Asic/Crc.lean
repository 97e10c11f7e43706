import EspMiner.Asic.BitmainCommon
import EspMiner.Library.Crc

/-!
# The checksums of the frames

The two table-driven checksums of `components/asic/crc.c`, and what all three are: the check with
polynomial `x^16 + x^12 + x^5 + 1` on jobs and commands, and the one with `x^5 + x^2 + 1` on short
commands and responses.  A step of each over a byte is eight steps of the check over its bits.
-/

namespace EspMiner

open Library

/-- `crc16_table` -/
def crc16Table : List U16 := [
    0x0000, 0x1021, 0x2042, 0x3063, 0x4084, 0x50a5, 0x60c6, 0x70e7, 0x8108, 0x9129, 0xa14a, 0xb16b,
    0xc18c, 0xd1ad, 0xe1ce, 0xf1ef, 0x1231, 0x0210, 0x3273, 0x2252, 0x52b5, 0x4294, 0x72f7, 0x62d6,
    0x9339, 0x8318, 0xb37b, 0xa35a, 0xd3bd, 0xc39c, 0xf3ff, 0xe3de, 0x2462, 0x3443, 0x0420, 0x1401,
    0x64e6, 0x74c7, 0x44a4, 0x5485, 0xa56a, 0xb54b, 0x8528, 0x9509, 0xe5ee, 0xf5cf, 0xc5ac, 0xd58d,
    0x3653, 0x2672, 0x1611, 0x0630, 0x76d7, 0x66f6, 0x5695, 0x46b4, 0xb75b, 0xa77a, 0x9719, 0x8738,
    0xf7df, 0xe7fe, 0xd79d, 0xc7bc, 0x48c4, 0x58e5, 0x6886, 0x78a7, 0x0840, 0x1861, 0x2802, 0x3823,
    0xc9cc, 0xd9ed, 0xe98e, 0xf9af, 0x8948, 0x9969, 0xa90a, 0xb92b, 0x5af5, 0x4ad4, 0x7ab7, 0x6a96,
    0x1a71, 0x0a50, 0x3a33, 0x2a12, 0xdbfd, 0xcbdc, 0xfbbf, 0xeb9e, 0x9b79, 0x8b58, 0xbb3b, 0xab1a,
    0x6ca6, 0x7c87, 0x4ce4, 0x5cc5, 0x2c22, 0x3c03, 0x0c60, 0x1c41, 0xedae, 0xfd8f, 0xcdec, 0xddcd,
    0xad2a, 0xbd0b, 0x8d68, 0x9d49, 0x7e97, 0x6eb6, 0x5ed5, 0x4ef4, 0x3e13, 0x2e32, 0x1e51, 0x0e70,
    0xff9f, 0xefbe, 0xdfdd, 0xcffc, 0xbf1b, 0xaf3a, 0x9f59, 0x8f78, 0x9188, 0x81a9, 0xb1ca, 0xa1eb,
    0xd10c, 0xc12d, 0xf14e, 0xe16f, 0x1080, 0x00a1, 0x30c2, 0x20e3, 0x5004, 0x4025, 0x7046, 0x6067,
    0x83b9, 0x9398, 0xa3fb, 0xb3da, 0xc33d, 0xd31c, 0xe37f, 0xf35e, 0x02b1, 0x1290, 0x22f3, 0x32d2,
    0x4235, 0x5214, 0x6277, 0x7256, 0xb5ea, 0xa5cb, 0x95a8, 0x8589, 0xf56e, 0xe54f, 0xd52c, 0xc50d,
    0x34e2, 0x24c3, 0x14a0, 0x0481, 0x7466, 0x6447, 0x5424, 0x4405, 0xa7db, 0xb7fa, 0x8799, 0x97b8,
    0xe75f, 0xf77e, 0xc71d, 0xd73c, 0x26d3, 0x36f2, 0x0691, 0x16b0, 0x6657, 0x7676, 0x4615, 0x5634,
    0xd94c, 0xc96d, 0xf90e, 0xe92f, 0x99c8, 0x89e9, 0xb98a, 0xa9ab, 0x5844, 0x4865, 0x7806, 0x6827,
    0x18c0, 0x08e1, 0x3882, 0x28a3, 0xcb7d, 0xdb5c, 0xeb3f, 0xfb1e, 0x8bf9, 0x9bd8, 0xabbb, 0xbb9a,
    0x4a75, 0x5a54, 0x6a37, 0x7a16, 0x0af1, 0x1ad0, 0x2ab3, 0x3a92, 0xfd2e, 0xed0f, 0xdd6c, 0xcd4d,
    0xbdaa, 0xad8b, 0x9de8, 0x8dc9, 0x7c26, 0x6c07, 0x5c64, 0x4c45, 0x3ca2, 0x2c83, 0x1ce0, 0x0cc1,
    0xef1f, 0xff3e, 0xcf5d, 0xdf7c, 0xaf9b, 0xbfba, 0x8fd9, 0x9ff8, 0x6e17, 0x7e36, 0x4e55, 0x5e74,
    0x2e93, 0x3eb2, 0x0ed1, 0x1ef0]

/-- One byte of either loop -/
def crc16Byte (crc : U16) (byte : U8) : U16 :=
  crc16Table.getD ((crc >>> 8).toNat ^^^ byte.toNat) 0 ^^^ (crc <<< 8)

/-- The loops of `crc16`: four bytes at a time, and the rest one by one -/
def crc16Loop (crc : U16) : List U8 → U16
  | a :: b :: c :: d :: data =>
      crc16Loop (crc16Byte (crc16Byte (crc16Byte (crc16Byte crc a) b) c) d) data
  | data => data.foldl crc16Byte crc

/-- `crc16` -/
def crc16 (data : List U8) : U16 := crc16Loop 0 data

/-- `crc16_false` -/
def crc16False (data : List U8) : U16 := data.foldl crc16Byte 0xffff#16

/-! ## The table -/

/-- `x^12 + x^5 + 1` under the leading power -/
def crc16Poly : BitVec 16 := 0x1021#16

/-- An entry of the table is its index, taken in by an empty register. -/
theorem crc16Table_entry (index : BitVec 8) :
    crc16Table.getD index.toNat 0 = crcBits crc16Poly 0#16 (wordBits index) := by
  have hall : ∀ index : BitVec 8,
      crc16Table.getD index.toNat 0 = crcBits crc16Poly 0#16 (wordBits index) := by
    decide +kernel
  exact hall index

theorem crc16Byte_eq (crc : U16) (byte : U8) :
    crc16Byte crc byte = crcBits crc16Poly crc (wordBits byte) := by
  have hleading : ∀ i < 8, ((crc >>> 8).setWidth 8).getMsbD i = crc.getMsbD i := by
    intro i hi
    interval_cases i <;> simp [BitVec.getMsbD]
  have hindex : (crc >>> 8).toNat ^^^ byte.toNat = ((crc >>> 8).setWidth 8 ^^^ byte).toNat := by
    have hsmall : (crc >>> 8).toNat < 2 ^ 8 := by
      rw [BitVec.toNat_ushiftRight, Nat.shiftRight_eq_div_pow]
      have := crc.isLt
      omega
    rw [BitVec.toNat_xor, BitVec.toNat_setWidth, Nat.mod_eq_of_lt hsmall]
  rw [crc16Byte, hindex, crc16Table_entry, ← crcBits_byte crc16Poly crc _ byte hleading]

theorem foldl_crc16Byte (crc : U16) (data : List U8) :
    data.foldl crc16Byte crc = crcBits crc16Poly crc (messageBits data) := by
  induction data generalizing crc with
  | nil => rfl
  | cons byte data ih =>
    rw [List.foldl_cons, ih, crc16Byte_eq, messageBits_cons, crcBits_append]

/-- Unrolled or not, the loop takes in the bytes one by one. -/
theorem crc16Loop_eq (crc : U16) (data : List U8) :
    crc16Loop crc data = data.foldl crc16Byte crc := by
  induction crc, data using crc16Loop.induct with
  | case1 crc a b c d data ih => rw [crc16Loop, ih]; rfl
  | case2 crc data h => rw [crc16Loop]; exact h

/-! ## The short checksum -/

/-- `x^2 + 1` under the leading power -/
def crc5Poly : BitVec 5 := 0x05#5

/-- A bit as the code holds it -/
def bitByte (bit : Bool) : U8 := (BitVec.ofBool bit).setWidth 8

/-- The register of `crc5` after the flag bits in front of a checksum -/
def crc5Flags (crc : U8) (flags : BitVec 3) : U8 :=
  (wordBits flags).foldl (fun crc bit => crc5Bit crc (bitByte bit)) crc

/-- The last byte of a frame: three flag bits over the checksum -/
def crc5Last (flags : BitVec 3) (crc : U8) : U8 := (flags.setWidth 8 <<< 5) ||| crc

theorem crc5Bit_eq (crc : BitVec 5) (bit : Bool) :
    crc5Bit (crc.setWidth 8) (bitByte bit) = (crcBit crc5Poly crc bit).setWidth 8 := by
  have hall : ∀ (crc : BitVec 5) (bit : Bool),
      crc5Bit (crc.setWidth 8) (bitByte bit) = (crcBit crc5Poly crc bit).setWidth 8 := by
    decide +kernel
  exact hall crc bit

theorem foldl_crc5Bit (crc : BitVec 5) (bits : List Bool) :
    bits.foldl (fun crc bit => crc5Bit crc (bitByte bit)) (crc.setWidth 8) =
      (crcBits crc5Poly crc bits).setWidth 8 := by
  induction bits generalizing crc with
  | nil => rfl
  | cons bit bits ih => rw [List.foldl_cons, crc5Bit_eq, ih, crcBits_cons]

theorem crc5Byte_eq (crc : BitVec 5) (byte : U8) :
    crc5Byte (crc.setWidth 8) byte = (crcBits crc5Poly crc (wordBits byte)).setWidth 8 := by
  have hbit : ∀ i : Nat, i < 8 → ∀ byte : BitVec 8,
      (byte <<< i) >>> 7 = bitByte (byte.getMsbD i) := by
    decide +kernel
  rw [← foldl_crc5Bit, wordBits, List.foldl_map, crc5Byte]
  apply List.foldl_ext
  intro crc i hi
  rw [hbit i (List.mem_range.mp hi) byte]

/-- `crc5` takes in the bits of its bytes. -/
theorem crc5_eq (data : List U8) :
    crc5 data = (crcBits crc5Poly 0x1f#5 (messageBits data)).setWidth 8 := by
  have hloop : ∀ crc : BitVec 5, data.foldl crc5Byte (crc.setWidth 8) =
      (crcBits crc5Poly crc (messageBits data)).setWidth 8 := by
    induction data with
    | nil => exact fun _ => rfl
    | cons byte data ih =>
      intro crc
      rw [List.foldl_cons, crc5Byte_eq, ih, messageBits_cons, crcBits_append]
  exact hloop 0x1f#5

theorem crc5_eq_zero {data : List U8} :
    crc5 data = 0 ↔ crcBits crc5Poly 0x1f#5 (messageBits data) = 0#5 := by
  rw [crc5_eq]
  constructor
  · intro h
    have hbits := congrArg (BitVec.setWidth 5) h
    rw [BitVec.setWidth_setWidth_of_le _ (by decide), BitVec.setWidth_eq] at hbits
    exact hbits
  · intro h
    rw [h]
    rfl

/-- With its own register as the last five bits a frame passes. -/
theorem crc5_residue (data : List U8) (flags : BitVec 3) :
    crc5 (data ++ [crc5Last flags (crc5Flags (crc5 data) flags)]) = 0 := by
  have hlast : ∀ (flags : BitVec 3) (crc : BitVec 5),
      wordBits (crc5Last flags (crc.setWidth 8)) = wordBits flags ++ wordBits crc := by
    decide +kernel
  have hcrc : crc5Flags (crc5 data) flags =
      (crcBits crc5Poly 0x1f#5 (messageBits data ++ wordBits flags)).setWidth 8 := by
    rw [crc5Flags, crc5_eq, foldl_crc5Bit, crcBits_append]
  have hnil : messageBits [] = [] := rfl
  rw [crc5_eq_zero, hcrc, messageBits_append, messageBits_cons, hlast, hnil, List.append_nil,
    ← List.append_assoc]
  exact crcBits_residue _ _ _

/-- A burst of up to five bits is found. -/
theorem crc5_burst {frame other : List U8} (hne : frame ≠ other)
    (h : DifferWithin 5 (messageBits frame) (messageBits other)) :
    ¬ (crc5 frame = 0 ∧ crc5 other = 0) := by
  rw [crc5_eq_zero, crc5_eq_zero]
  rintro ⟨hframe, hother⟩
  obtain ⟨front, part, otherPart, back, hbits, hothers, hlength, hshort⟩ := h.split
  have hparts : part ≠ otherPart := by
    rintro rfl
    exact hne (messageBits_injective (hbits.trans hothers.symm))
  have hdiffer := @crcBits_ne_of_burst 5 crc5Poly (by decide) 0x1f#5 front part otherPart back
    hlength hshort hparts
  rw [← hbits, ← hothers, hframe, hother] at hdiffer
  exact hdiffer rfl

/-! ## Reception -/

theorem preamble_bytes {first second : U8}
    (h : (first.setWidth 16 <<< 8) ||| second.setWidth 16 = PREAMBLE) :
    first = 0xaa#8 ∧ second = 0x55#8 := by
  constructor
  · apply BitVec.eq_of_getLsbD_eq
    intro i hi
    have hbit := congrArg (BitVec.getLsbD · (i + 8)) h
    interval_cases i <;> simpa [PREAMBLE] using hbit
  · apply BitVec.eq_of_getLsbD_eq
    intro i hi
    have hbit := congrArg (BitVec.getLsbD · i) h
    interval_cases i <;> simpa [PREAMBLE] using hbit

/-- What is received has the preamble, and passes the check behind it. -/
theorem receiveWork_eq_some {size : Nat} {frame received : List U8}
    (h : receiveWork size (.bytes frame) = some received) :
    ∃ rest, frame = 0xaa#8 :: 0x55#8 :: rest ∧ crc5 rest = 0 := by
  rw [receiveWork] at h
  split at h
  · cases h
  split at h
  · cases h
  split at h
  · cases h
  · next hpreamble =>
    obtain ⟨hfirst, hsecond⟩ := preamble_bytes (not_not.mp hpreamble)
    split at h
    · cases h
    · next hcrc =>
      match frame, hfirst, hsecond, hcrc with
      | [], hfirst, _, _ => exact absurd hfirst (by decide)
      | [_], _, hsecond, _ => exact absurd hsecond (show (0#8 : U8) ≠ 0x55#8 by decide)
      | first :: second :: rest, hfirst, hsecond, hcrc =>
        obtain rfl : first = 0xaa#8 := hfirst
        obtain rfl : second = 0x55#8 := hsecond
        exact ⟨rest, rfl, not_not.mp hcrc⟩

/-- **The checksums are the checks they are meant to be.**  Both table-driven ones take in
their bytes bit by bit; the short one is empty over a frame that ends with it; and of two
frames that differ only within five consecutive bits at most one is accepted. -/
theorem crc_exact :
    (∀ data : List U8, crc16False data = crcBits crc16Poly 0xffff#16 (messageBits data)) ∧
    (∀ data : List U8, crc16 data = crcBits crc16Poly 0#16 (messageBits data)) ∧
    (∀ (data : List U8) (flags : BitVec 3),
      crc5 (data ++ [crc5Last flags (crc5Flags (crc5 data) flags)]) = 0) ∧
    (∀ frame other : List U8, frame.length ≤ 255 → frame ≠ other →
      DifferWithin 5 (messageBits frame) (messageBits other) →
        ¬ (crc5 frame = 0 ∧ crc5 other = 0)) ∧
    (∀ (size : Nat) (frame other : List U8), frame.length ≤ 255 → frame ≠ other →
      DifferWithin 5 (messageBits frame) (messageBits other) →
        ¬ (receiveWork size (.bytes frame) = some frame ∧
          receiveWork size (.bytes other) = some other)) := by
  refine ⟨?_, ?_, ?_, ?_, ?_⟩
  · intro data
    exact foldl_crc16Byte _ _
  · intro data
    rw [crc16, crc16Loop_eq]
    exact foldl_crc16Byte 0#16 data
  · intro data flags
    exact crc5_residue data flags
  · intro frame other _ hne hwithin
    exact crc5_burst hne hwithin
  · rintro size frame other _ hne hwithin ⟨hframe, hother⟩
    obtain ⟨rest, rfl, hrest⟩ := receiveWork_eq_some hframe
    obtain ⟨otherRest, rfl, hotherRest⟩ := receiveWork_eq_some hother
    have hrests : rest ≠ otherRest := by
      rintro rfl
      exact hne rfl
    have hbehind : DifferWithin 5 (messageBits rest) (messageBits otherRest) := hwithin.drop 16
    exact crc5_burst hrests hbehind ⟨hrest, hotherRest⟩

/-- A result frame as the chips send it. -/
def resultFrame : List U8 :=
  [0xaa, 0x55, 0x12, 0x34, 0x56, 0x78, 0x01, 0x5a, 0x2f, 0xe0, 0x97]

/-- The same with four bits turned over where two bytes of the nonce meet. -/
def damagedFrame : List U8 :=
  [0xaa, 0x55, 0x12, 0x34, 0x55, 0xb8, 0x01, 0x5a, 0x2f, 0xe0, 0x97]

theorem crc_exact_frame :
    receiveWork 11 (.bytes resultFrame) = some resultFrame ∧
      receiveWork 11 (.bytes damagedFrame) ≠ some damagedFrame := by
  have hframe : receiveWork 11 (.bytes resultFrame) = some resultFrame := by decide +kernel
  refine ⟨hframe, fun hdamaged => crc_exact.2.2.2.2 11 resultFrame damagedFrame (by decide)
    (by decide) ⟨by decide, 38, fun i hi => ?_⟩ ⟨hframe, hdamaged⟩⟩
  have hplaces : ∀ i < 88, (messageBits resultFrame)[i]? ≠ (messageBits damagedFrame)[i]? →
      38 ≤ i ∧ i < 38 + 5 := by
    decide +kernel
  rcases Nat.lt_or_ge i 88 with hlt | hge
  · exact hplaces i hlt hi
  · exact absurd ((List.getElem?_eq_none hge).trans (List.getElem?_eq_none hge).symm) hi

end EspMiner
