import EspMiner.Bzm.BridgeSwd
import EspMiner.Bzm.BridgeUpdate
import EspMiner.Bzm.SafetyStatusCoherence
import EspMiner.Library.CheckedAccess
import EspMiner.Library.Crc
import EspMiner.Library.Json

/-!
# The manifest of a bridge image

The validators of `components/asic/bzm_bridge_update.c`: what they read of an image that is
handed over, and the encoding that a manifest is meant to have.  An image is an object of the
machine, so that a sum of its size and a small offset does not wrap.
-/

namespace EspMiner

open Library

def RP2040_FLASH_VECTOR_OFFSET : Nat := 0x100
def RP2040_SRAM_START : Nat := 0x20000000
def RP2040_SRAM_END : Nat := 0x20042000
def RP2040_XIP_START : Nat := 0x10000100
def RP2040_XIP_END : Nat := 0x10200000
def BZM_BRIDGE_IMAGE_MANIFEST_SIZE : Nat := 96
def BZM_BRIDGE_IMAGE_TARGET_BOARD_VERSION : U16 := 1002
def BZM_BRIDGE_IMAGE_MANIFEST_SCHEMA_VERSION : U8 := 1
def BZM_BRIDGE_IMAGE_FIRMWARE_KIND : U8 := 1
def BZM_BRIDGE_IMAGE_MANIFEST_CRC_OFFSET : Nat := 92
def BZM_BRIDGE_IMAGE_MANIFEST_VERSION_OFFSET : Nat := 24
def BZM_BRIDGE_VERSION_MAX_LENGTH : Nat := 63
def BZM_BRIDGE_IMAGE_PROTOCOL_MAJOR : U8 := 1

/-- `BZM_BRIDGE_IMAGE_MANIFEST_MAGIC` -/
def BZM_BRIDGE_IMAGE_MANIFEST_MAGIC : List U8 := cText "BZM-BRIDGE-FW" ++ [0, 0, 0]

/-- The errors of the validators -/
inductive ImageErr where
  | invalidSize
  | invalidResponse
  | invalidCrc
  | notFound
deriving DecidableEq, Repr

/-- `bzm_bridge_image_manifest_t` -/
structure LocatedManifest extends BzmBridgeImageManifest where
  offset : Nat
  targetBoardVersion : U16
deriving DecidableEq, Repr

/-! ## The validators -/

/-- The inner loop's body in `manifest_crc32` -/
def manifestCrcBit (crc : U32) : U32 := (crc >>> 1) ^^^ (0xedb88320#32 &&& (0#32 - (crc &&& 1#32)))

/-- `manifest_crc32` -/
def manifestCrc32 (bytes : List U8) : U32 :=
  ~~~(bytes.foldl (fun crc byte => manifestCrcBit^[8] (crc ^^^ byte.setWidth 32)) 0xffffffff#32)

/-- `bzm_bridge_update_validate_image` -/
def bzmBridgeUpdateValidateImage (image : List U8) : Except Stop (Option ImageErr) :=
  if image.length < RP2040_FLASH_VECTOR_OFFSET + 8 ∨ BZM_BRIDGE_FLASH_CAPACITY < image.length then
    .ok (some .invalidSize)
  else do
    let boot2 ← readSpan image 0 RP2040_FLASH_VECTOR_OFFSET
    if boot2.all (fun byte => byte == 0x00#8 || byte == 0xff#8) = true then
      return some .invalidResponse
    else
      let stackPointer := readLe32 (← readSpan image RP2040_FLASH_VECTOR_OFFSET 4)
      let resetVector := readLe32 (← readSpan image (RP2040_FLASH_VECTOR_OFFSET + 4) 4)
      let resetAddress := (resetVector &&& ~~~1#32).toNat
      if stackPointer &&& 0x3#32 ≠ 0#32 ∨ stackPointer.toNat < RP2040_SRAM_START ∨
          RP2040_SRAM_END < stackPointer.toNat ∨ resetVector &&& 1#32 = 0#32 ∨
          resetAddress < RP2040_XIP_START ∨ RP2040_XIP_END ≤ resetAddress ∨
          0x10000000 + image.length ≤ resetAddress then
        return some .invalidResponse
      else return none

/-- The scan for the magic over the offsets that leave room for a manifest; a second one
ends it. -/
def manifestScan (image : List U8) :
    (remaining index : Nat) → Option Nat → Except Stop (Except ImageErr (Option Nat))
  | 0, _, found => .ok (.ok found)
  | remaining + 1, index, found => do
      let bytes ← readSpan image index BZM_BRIDGE_IMAGE_MANIFEST_MAGIC.length
      if bytes ≠ BZM_BRIDGE_IMAGE_MANIFEST_MAGIC then
        manifestScan image remaining (index + 1) found
      else
        match found with
        | some _ => return .error .invalidResponse
        | none => manifestScan image remaining (index + 1) (some index)

/-- The checks of what stands behind the magic -/
def manifestAt (image : List U8) (offset : Nat) :
    Except Stop (Except ImageErr LocatedManifest) := do
  let versionLength ← readElem image (offset + (BZM_BRIDGE_IMAGE_MANIFEST_VERSION_OFFSET - 1))
  let schema ← readElem image (offset + 16)
  let size ← readElem image (offset + 17)
  let board := readLe16 (← readSpan image (offset + 18) 2)
  let kind ← readElem image (offset + 20)
  let major ← readElem image (offset + 21)
  if schema ≠ BZM_BRIDGE_IMAGE_MANIFEST_SCHEMA_VERSION ∨
      size.toNat ≠ BZM_BRIDGE_IMAGE_MANIFEST_SIZE ∨
      board ≠ BZM_BRIDGE_IMAGE_TARGET_BOARD_VERSION ∨ kind ≠ BZM_BRIDGE_IMAGE_FIRMWARE_KIND ∨
      major ≠ BZM_BRIDGE_IMAGE_PROTOCOL_MAJOR ∨ versionLength.toNat = 0 ∨
      BZM_BRIDGE_VERSION_MAX_LENGTH < versionLength.toNat then
    return .error .invalidResponse
  else
    let version ← readSpan image (offset + BZM_BRIDGE_IMAGE_MANIFEST_VERSION_OFFSET)
      versionLength.toNat
    if version.any (fun byte => decide (byte.toNat < 0x20 ∨ 0x7e < byte.toNat)) = true then
      return .error .invalidResponse
    else
      let padding ← readSpan image
        (offset + (BZM_BRIDGE_IMAGE_MANIFEST_VERSION_OFFSET + versionLength.toNat))
        (BZM_BRIDGE_IMAGE_MANIFEST_CRC_OFFSET -
          (BZM_BRIDGE_IMAGE_MANIFEST_VERSION_OFFSET + versionLength.toNat))
      if padding.any (· != 0#8) = true then return .error .invalidResponse
      else
        let crc := readLe32 (← readSpan image (offset + BZM_BRIDGE_IMAGE_MANIFEST_CRC_OFFSET) 4)
        let encoded ← readSpan image offset BZM_BRIDGE_IMAGE_MANIFEST_CRC_OFFSET
        if crc ≠ manifestCrc32 encoded then return .error .invalidCrc
        else
          let minor ← readElem image (offset + 22)
          return .ok ⟨⟨major, minor, version⟩, offset, board⟩

/-- `bzm_bridge_update_validate_manifest` -/
def bzmBridgeUpdateValidateManifest (image : List U8) :
    Except Stop (Except ImageErr LocatedManifest) :=
  if image.length < BZM_BRIDGE_IMAGE_MANIFEST_SIZE then .ok (.error .notFound)
  else do
    match ← manifestScan image (image.length + 1 - BZM_BRIDGE_IMAGE_MANIFEST_SIZE) 0 none with
    | .error err => return .error err
    | .ok none => return .error .notFound
    | .ok (some offset) => manifestAt image offset

/-- What `bzm_bridge_update_validate_upload` returns, `none` for `ESP_OK`, and the manifest
where it set `manifest_validated` -/
structure UploadVerdict where
  err : Option ImageErr
  manifest : Option LocatedManifest
deriving DecidableEq, Repr

/-- `bzm_bridge_update_validate_upload` -/
def bzmBridgeUpdateValidateUpload (image : List U8) (force : Bool) : Except Stop UploadVerdict := do
  match ← bzmBridgeUpdateValidateImage image with
  | some err => return ⟨some err, none⟩
  | none =>
      match ← bzmBridgeUpdateValidateManifest image with
      | .ok manifest => return ⟨none, some manifest⟩
      | .error err => return ⟨if force = true then none else some err, none⟩

/-! ## The encoding -/

/-- CRC-32: lowest bit first, from all ones, and turned over -/
def crc32 (bytes : List U8) : U32 :=
  ~~~(crcBits 0x04c11db7#32 0xffffffff#32
    (bytes.flatMap fun byte => (wordBits byte).reverse)).reverse

/-- A version that a manifest can hold -/
def VersionText (version : List U8) : Prop :=
  1 ≤ version.length ∧ version.length ≤ BZM_BRIDGE_VERSION_MAX_LENGTH ∧
    ∀ byte ∈ version, 0x20 ≤ byte.toNat ∧ byte.toNat ≤ 0x7e

/-- A manifest in front of its checksum -/
def manifestBody (minor : U8) (version : List U8) : List U8 :=
  BZM_BRIDGE_IMAGE_MANIFEST_MAGIC ++
    ([1, 96] ++ leBytes 2 1002 ++ [1, 1, minor, BitVec.ofNat 8 version.length] ++
      (version ++ List.replicate (68 - version.length) 0))

/-- The 96 bytes of a manifest -/
def manifestEncoding (minor : U8) (version : List U8) : List U8 :=
  manifestBody minor version ++ leBytes 4 (crc32 (manifestBody minor version)).toNat

/-- The magic stands at an offset that leaves room for a manifest. -/
def MagicAt (image : List U8) (offset : Nat) : Prop :=
  offset + BZM_BRIDGE_IMAGE_MANIFEST_SIZE ≤ image.length ∧
    FieldAt image offset BZM_BRIDGE_IMAGE_MANIFEST_MAGIC

/-- The one place of the magic has the encoding of this manifest. -/
def HoldsManifest (image : List U8) (m : LocatedManifest) : Prop :=
  (∀ offset, MagicAt image offset ↔ offset = m.offset) ∧ VersionText m.version ∧
    FieldAt image m.offset (manifestEncoding m.protocolMinor m.version) ∧
    m.protocolMajor = BZM_BRIDGE_IMAGE_PROTOCOL_MAJOR ∧
    m.targetBoardVersion = BZM_BRIDGE_IMAGE_TARGET_BOARD_VERSION

/-! ## The checksum -/

theorem manifestCrcBit_eq (crc : U32) : manifestCrcBit crc = reflectedStep 0xedb88320#32 crc := by
  have hmask : 0#32 - (crc &&& 1#32) = if crc.getLsbD 0 = true then 0xffffffff#32 else 0#32 := by
    rw [BitVec.and_one_eq_setWidth_ofBool_getLsbD]
    cases crc.getLsbD 0 <;> rfl
  rw [manifestCrcBit, reflectedStep, hmask]
  split
  · rfl
  · rfl

/-- `manifest_crc32` is CRC-32. -/
theorem manifestCrc32_eq (bytes : List U8) : manifestCrc32 bytes = crc32 bytes := by
  have hstep : manifestCrcBit = reflectedStep 0xedb88320#32 := funext manifestCrcBit_eq
  have hpoly : (0xedb88320#32).reverse = 0x04c11db7#32 := by decide +kernel
  have hloop : ∀ crc : U32,
      (bytes.foldl (fun crc byte => manifestCrcBit^[8] (crc ^^^ byte.setWidth 32)) crc).reverse =
        crcBits 0x04c11db7#32 crc.reverse (bytes.flatMap fun byte => (wordBits byte).reverse) := by
    induction bytes with
    | nil => exact fun _ => rfl
    | cons byte bytes ih =>
      intro crc
      rw [List.foldl_cons, ih, List.flatMap_cons, crcBits_append, hstep,
        reverse_reflectedByte (by decide), hpoly]
  have hones : (0xffffffff#32).reverse = 0xffffffff#32 := by decide +kernel
  rw [manifestCrc32, crc32, ← hones, ← hloop, BitVec.reverse_reverse_eq, hones]

end EspMiner
