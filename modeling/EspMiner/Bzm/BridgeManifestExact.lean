import EspMiner.Bzm.BridgeManifest

/-!
# Which images have a manifest

An image is accepted exactly when it holds the magic at one place and an encoding of a manifest
stands there, and the result is that manifest.  The scan finds the one place of the magic, or
none, by induction on what is left of the image; the ninety-six bytes at the place are then named
one by one, so that the checks on them and the encoding are compared as they stand.
-/

namespace EspMiner

open Library

/-! ## The scan -/

section Scan

variable {image : List U8}

theorem readSpan_field {pos : Nat} {field : List U8} (h : FieldAt image pos field)
    (hfits : pos + field.length ≤ image.length) :
    readSpan image pos field.length = .ok field := by
  rw [readSpan_of_le hfits, h.take_drop]

/-- The bytes at a place, where there are enough. -/
theorem fieldAt_take {pos count : Nat} :
    FieldAt image pos ((image.drop pos).take count) :=
  ⟨(image.drop pos).drop count, (List.take_append_drop ..).symm⟩

theorem readSpan_magic {index : Nat} (hfits : index + 96 ≤ image.length) :
    ∃ bytes, readSpan image index BZM_BRIDGE_IMAGE_MANIFEST_MAGIC.length = .ok bytes ∧
      (bytes = BZM_BRIDGE_IMAGE_MANIFEST_MAGIC ↔
        FieldAt image index BZM_BRIDGE_IMAGE_MANIFEST_MAGIC) := by
  have hlength : BZM_BRIDGE_IMAGE_MANIFEST_MAGIC.length = 16 := rfl
  refine ⟨_, readSpan_of_le (by rw [hlength]; omega), ?_⟩
  constructor
  · intro h
    rw [← h]
    exact fieldAt_take
  · exact FieldAt.take_drop

/-- What the scan over some offsets finds: without an earlier place the only one, and with one
no other. -/
def ScanFinds (image : List U8) (remaining index : Nat) (found : Option Nat) (offset : Nat) :
    Prop :=
  match found with
  | none => ∀ i, (index ≤ i ∧ i < index + remaining ∧
      FieldAt image i BZM_BRIDGE_IMAGE_MANIFEST_MAGIC) ↔ i = offset
  | some place => place = offset ∧ ∀ i, index ≤ i → i < index + remaining →
      ¬ FieldAt image i BZM_BRIDGE_IMAGE_MANIFEST_MAGIC

theorem scanFinds_skip {remaining index offset : Nat} {found : Option Nat}
    (h : ¬ FieldAt image index BZM_BRIDGE_IMAGE_MANIFEST_MAGIC) :
    ScanFinds image remaining (index + 1) found offset ↔
      ScanFinds image (remaining + 1) index found offset := by
  have hpast : ∀ i, FieldAt image i BZM_BRIDGE_IMAGE_MANIFEST_MAGIC → i ≠ index := by
    rintro i hi rfl
    exact h hi
  cases found with
  | none =>
    refine forall_congr' fun i => iff_congr ?_ Iff.rfl
    constructor
    · rintro ⟨hle, hlt, hi⟩
      exact ⟨by omega, by omega, hi⟩
    · rintro ⟨hle, hlt, hi⟩
      have := hpast i hi
      exact ⟨by omega, by omega, hi⟩
  | some place =>
    refine and_congr_right fun _ => forall_congr' fun i => ?_
    constructor
    · intro hi hle hlt hfield
      have := hpast i hfield
      exact hi (by omega) (by omega) hfield
    · intro hi hle hlt
      exact hi (by omega) (by omega)

theorem scanFinds_hit {remaining index offset : Nat}
    (h : FieldAt image index BZM_BRIDGE_IMAGE_MANIFEST_MAGIC) :
    ScanFinds image remaining (index + 1) (some index) offset ↔
      ScanFinds image (remaining + 1) index none offset := by
  constructor
  · rintro ⟨rfl, hno⟩ i
    constructor
    · rintro ⟨hle, hlt, hi⟩
      by_contra hne
      exact hno i (by omega) (by omega) hi
    · rintro rfl
      exact ⟨le_rfl, by omega, h⟩
  · intro hall
    have hindex := (hall index).mp ⟨le_rfl, by omega, h⟩
    refine ⟨hindex, ?_⟩
    intro i hle hlt hi
    have := (hall i).mp ⟨by omega, by omega, hi⟩
    omega

theorem manifestScan_skip {remaining index : Nat} {found : Option Nat} {bytes : List U8}
    (hread : readSpan image index BZM_BRIDGE_IMAGE_MANIFEST_MAGIC.length = .ok bytes)
    (h : bytes ≠ BZM_BRIDGE_IMAGE_MANIFEST_MAGIC) :
    manifestScan image (remaining + 1) index found =
      manifestScan image remaining (index + 1) found := by
  rw [manifestScan.eq_def]
  simp only [hread, Bind.bind, Except.bind, if_pos h]

theorem manifestScan_hit {remaining index : Nat} {found : Option Nat} {bytes : List U8}
    (hread : readSpan image index BZM_BRIDGE_IMAGE_MANIFEST_MAGIC.length = .ok bytes)
    (h : bytes = BZM_BRIDGE_IMAGE_MANIFEST_MAGIC) :
    manifestScan image (remaining + 1) index found =
      match found with
      | some _ => .ok (.error .invalidResponse)
      | none => manifestScan image remaining (index + 1) (some index) := by
  rw [manifestScan.eq_def]
  simp only [hread, Bind.bind, Except.bind, if_neg (not_not.mpr h)]
  rfl

/-- The scan stays within the image, and tells the one place of the magic. -/
theorem exists_manifestScan {remaining index : Nat} {found : Option Nat}
    (hfits : remaining = 0 ∨ index + remaining + 95 ≤ image.length) :
    ∃ result, manifestScan image remaining index found = .ok result ∧
      ∀ offset, result = .ok (some offset) ↔ ScanFinds image remaining index found offset := by
  induction remaining generalizing index found with
  | zero =>
    refine ⟨.ok found, rfl, ?_⟩
    intro offset
    cases found with
    | none =>
      constructor
      · intro h
        cases h
      · intro h
        have := (h offset).mpr rfl
        omega
    | some place =>
      constructor
      · intro h
        cases h
        refine ⟨rfl, ?_⟩
        intro i hle hlt
        omega
      · rintro ⟨rfl, -⟩
        rfl
  | succ remaining ih =>
    obtain ⟨bytes, hread, hbytes⟩ := @readSpan_magic image index (by omega)
    by_cases hmagic : FieldAt image index BZM_BRIDGE_IMAGE_MANIFEST_MAGIC
    · rw [manifestScan_hit hread (hbytes.mpr hmagic)]
      cases found with
      | none =>
        obtain ⟨result, hscan, hresult⟩ := @ih (index + 1) (some index) (by omega)
        refine ⟨result, hscan, ?_⟩
        intro offset
        rw [hresult, scanFinds_hit hmagic]
      | some place =>
        refine ⟨.error .invalidResponse, rfl, ?_⟩
        intro offset
        constructor
        · intro h
          cases h
        · rintro ⟨-, hno⟩
          exact absurd hmagic (hno index le_rfl (by omega))
    · rw [manifestScan_skip hread (mt hbytes.mp hmagic)]
      obtain ⟨result, hscan, hresult⟩ := @ih (index + 1) found (by omega)
      refine ⟨result, hscan, ?_⟩
      intro offset
      rw [hresult, scanFinds_skip hmagic]

end Scan

/-! ## The bytes behind the magic -/

section Layout

variable {image : List U8} {offset : Nat}
variable {schema size board₀ board₁ kind major minor count : U8} {text crc : List U8}

/-- The 96 bytes of a place by their parts -/
def manifestBytes (schema size board₀ board₁ kind major minor count : U8) (text crc : List U8) :
    List U8 :=
  BZM_BRIDGE_IMAGE_MANIFEST_MAGIC ++
    ([schema, size, board₀, board₁, kind, major, minor, count] ++ (text ++ crc))

theorem exists_cons_of_le {α : Type} {xs : List α} {k : Nat} (h : k + 1 ≤ xs.length) :
    ∃ x rest, xs = x :: rest ∧ k ≤ rest.length := by
  cases xs with
  | nil => exact absurd h (Nat.not_succ_le_zero k)
  | cons x rest => exact ⟨x, rest, rfl, Nat.le_of_succ_le_succ h⟩

theorem exists_manifestBytes (h : MagicAt image offset) :
    ∃ (schema size board₀ board₁ kind major minor count : U8) (text crc : List U8),
      text.length = 68 ∧ crc.length = 4 ∧ FieldAt image offset
        (manifestBytes schema size board₀ board₁ kind major minor count text crc) := by
  obtain ⟨hfits, rest, hrest⟩ := h
  have hlength := congrArg List.length hrest
  have hmagic : BZM_BRIDGE_IMAGE_MANIFEST_MAGIC.length = 16 := rfl
  have hsize : BZM_BRIDGE_IMAGE_MANIFEST_SIZE = 96 := rfl
  rw [List.length_drop, List.length_append, hmagic] at hlength
  obtain ⟨schema, rest, rfl, h₁⟩ := @exists_cons_of_le _ rest 79 (by omega)
  obtain ⟨size, rest, rfl, h₂⟩ := exists_cons_of_le h₁
  obtain ⟨board₀, rest, rfl, h₃⟩ := exists_cons_of_le h₂
  obtain ⟨board₁, rest, rfl, h₄⟩ := exists_cons_of_le h₃
  obtain ⟨kind, rest, rfl, h₅⟩ := exists_cons_of_le h₄
  obtain ⟨major, rest, rfl, h₆⟩ := exists_cons_of_le h₅
  obtain ⟨minor, rest, rfl, h₇⟩ := exists_cons_of_le h₆
  obtain ⟨count, rest, rfl, h₈⟩ := exists_cons_of_le h₇
  refine ⟨schema, size, board₀, board₁, kind, major, minor, count, rest.take 68,
    (rest.drop 68).take 4, ?_, ?_, (rest.drop 68).drop 4, ?_⟩
  · rw [List.length_take]
    omega
  · rw [List.length_take, List.length_drop]
    omega
  · rw [hrest, manifestBytes]
    simp only [List.append_assoc, List.take_append_drop]
    rfl

/-- The bytes are an encoding when each part is that of it. -/
theorem manifestBytes_eq_encoding {minor' : U8} {version : List U8} (htext : text.length = 68)
    (hversion : version.length ≤ 63) :
    manifestBytes schema size board₀ board₁ kind major minor count text crc =
        manifestEncoding minor' version ↔
      (schema = 1 ∧ size = 96 ∧ [board₀, board₁] = leBytes 2 1002 ∧ kind = 1 ∧ major = 1 ∧
        minor = minor' ∧ count = BitVec.ofNat 8 version.length) ∧
      text = version ++ List.replicate (68 - version.length) 0 ∧
      crc = leBytes 4 (crc32 (manifestBody minor' version)).toNat := by
  have hpadded : (version ++ List.replicate (68 - version.length) (0 : U8)).length = 68 := by
    rw [List.length_append, List.length_replicate]
    omega
  have hsplit : manifestEncoding minor' version =
      manifestBytes 1 96 (BitVec.ofNat 8 1002) (BitVec.ofNat 8 (1002 / 256)) 1 1 minor'
        (BitVec.ofNat 8 version.length) (version ++ List.replicate (68 - version.length) 0)
        (leBytes 4 (crc32 (manifestBody minor' version)).toNat) := by
    rw [manifestEncoding, manifestBytes, manifestBody, List.append_assoc, List.append_assoc]
    rfl
  rw [hsplit, manifestBytes, manifestBytes, List.append_cancel_left_eq]
  constructor
  · intro h
    obtain ⟨hhead, htail⟩ := List.append_inj h rfl
    obtain ⟨htext', hcrc⟩ := List.append_inj htail (htext.trans hpadded.symm)
    simp only [List.cons.injEq, and_true] at hhead
    obtain ⟨rfl, rfl, rfl, rfl, rfl, rfl, rfl, rfl⟩ := hhead
    exact ⟨⟨rfl, rfl, rfl, rfl, rfl, rfl, rfl⟩, htext', hcrc⟩
  · rintro ⟨⟨rfl, rfl, hboard, rfl, rfl, rfl, rfl⟩, rfl, rfl⟩
    have hboard' : [board₀, board₁] = [BitVec.ofNat 8 1002, BitVec.ofNat 8 (1002 / 256)] := hboard
    simp only [List.cons.injEq, and_true] at hboard'
    rw [hboard'.1, hboard'.2]

/-- What the checks read of the parts -/
def manifestFields (offset : Nat)
    (schema size board₀ board₁ kind major minor count : U8) (text crc : List U8) :
    Except ImageErr LocatedManifest :=
  if schema ≠ BZM_BRIDGE_IMAGE_MANIFEST_SCHEMA_VERSION ∨
      size.toNat ≠ BZM_BRIDGE_IMAGE_MANIFEST_SIZE ∨
      readLe16 [board₀, board₁] ≠ BZM_BRIDGE_IMAGE_TARGET_BOARD_VERSION ∨
      kind ≠ BZM_BRIDGE_IMAGE_FIRMWARE_KIND ∨ major ≠ BZM_BRIDGE_IMAGE_PROTOCOL_MAJOR ∨
      count.toNat = 0 ∨ BZM_BRIDGE_VERSION_MAX_LENGTH < count.toNat then .error .invalidResponse
  else if (text.take count.toNat).any (fun byte =>
      decide (byte.toNat < 0x20 ∨ 0x7e < byte.toNat)) = true then .error .invalidResponse
  else if (text.drop count.toNat).any (· != 0#8) = true then .error .invalidResponse
  else if readLe32 crc ≠ manifestCrc32 (BZM_BRIDGE_IMAGE_MANIFEST_MAGIC ++
      ([schema, size, board₀, board₁, kind, major, minor, count] ++ text)) then .error .invalidCrc
  else .ok ⟨⟨major, minor, text.take count.toNat⟩, offset, readLe16 [board₀, board₁]⟩

/-- The checks stay within the manifest. -/
theorem manifestAt_eq (hfits : offset + 96 ≤ image.length) (htext : text.length = 68)
    (hcrc : crc.length = 4) (h : FieldAt image offset
      (manifestBytes schema size board₀ board₁ kind major minor count text crc)) :
    manifestAt image offset =
      .ok (manifestFields offset schema size board₀ board₁ kind major minor count text crc) := by
  have hmagic : BZM_BRIDGE_IMAGE_MANIFEST_MAGIC.length = 16 := rfl
  rw [manifestBytes, fieldAt_append, hmagic, fieldAt_append] at h
  obtain ⟨hfront, hhead, htail⟩ := h
  obtain ⟨htext', hcrc'⟩ := fieldAt_append.mp htail
  have hbody : readSpan image offset 92 = .ok (BZM_BRIDGE_IMAGE_MANIFEST_MAGIC ++
      ([schema, size, board₀, board₁, kind, major, minor, count] ++ text)) := by
    have hlength : (BZM_BRIDGE_IMAGE_MANIFEST_MAGIC ++
        ([schema, size, board₀, board₁, kind, major, minor, count] ++ text)).length = 92 := by
      rw [List.length_append, List.length_append, htext]
      rfl
    have hread := readSpan_field (fieldAt_append.mpr ⟨hfront, fieldAt_append.mpr ⟨hhead, htext'⟩⟩)
      (by omega)
    rwa [hlength] at hread
  have hchecksum : readSpan image (offset + 92) 4 = .ok crc := by
    rw [htext] at hcrc'
    have hread := readSpan_field hcrc' (by rw [hcrc, List.length_cons]; simp; omega)
    rwa [hcrc] at hread
  have hboard : readSpan image (offset + 18) 2 = .ok [board₀, board₁] :=
    hhead.readSpan_part (i := 2) (by simp; omega) (by simp)
  have helem : ∀ i (hi : i < 8), readElem image (offset + 16 + i) =
      .ok ([schema, size, board₀, board₁, kind, major, minor, count].get ⟨i, hi⟩) := by
    intro i hi
    exact hhead.readElem_getElem hi
  have hversion : count.toNat ≤ 63 → readSpan image (offset + 24) count.toNat =
      .ok (text.take count.toNat) := by
    intro hcount
    exact htext'.readSpan_part (i := 0) (by simp; omega) (by omega)
  have hpadding : count.toNat ≤ 63 → readSpan image (offset + (24 + count.toNat))
      (92 - (24 + count.toNat)) = .ok (text.drop count.toNat) := by
    intro hcount
    have hall : (text.drop count.toNat).take (92 - (24 + count.toNat)) = text.drop count.toNat := by
      apply List.take_of_length_le
      rw [List.length_drop]
      omega
    rw [← hall, ← Nat.add_assoc]
    exact htext'.readSpan_part (by simp; omega) (by omega)
  have h16 : readElem image (offset + 16) = .ok schema := helem 0 (by decide)
  have h17 : readElem image (offset + 17) = .ok size := helem 1 (by decide)
  have h20 : readElem image (offset + 20) = .ok kind := helem 4 (by decide)
  have h21 : readElem image (offset + 21) = .ok major := helem 5 (by decide)
  have h22 : readElem image (offset + 22) = .ok minor := helem 6 (by decide)
  have h23 : readElem image (offset + (BZM_BRIDGE_IMAGE_MANIFEST_VERSION_OFFSET - 1)) =
      .ok count := helem 7 (by decide)
  rw [manifestAt, manifestFields, h16, h17, h20, h21, h22, h23, hboard]
  dsimp only [Bind.bind, Except.bind]
  split
  · rfl
  · rename_i hheader
    have hcount : count.toNat ≤ 63 := by
      simp only [not_or, not_lt] at hheader
      exact hheader.2.2.2.2.2.2
    rw [BZM_BRIDGE_IMAGE_MANIFEST_VERSION_OFFSET, BZM_BRIDGE_IMAGE_MANIFEST_CRC_OFFSET,
      hversion hcount]
    dsimp only
    split
    · rfl
    · rw [hpadding hcount]
      dsimp only
      split
      · rfl
      · rw [hchecksum, hbody]
        dsimp only
        split
        · rfl
        · rfl

/-- A passed check of the version -/
theorem versionText_iff {version : List U8} : VersionText version ↔
    (1 ≤ version.length ∧ version.length ≤ 63) ∧
      version.any (fun byte => decide (byte.toNat < 0x20 ∨ 0x7e < byte.toNat)) = false := by
  rw [VersionText, List.any_eq_false, and_assoc]
  refine and_congr_right fun _ => and_congr_right fun _ => forall₂_congr fun byte _ => ?_
  rw [decide_eq_true_iff, not_or, not_lt, not_lt]

/-- Zero padding -/
theorem padded_iff {n : Nat} (htext : text.length = 68) :
    (text.drop n).any (· != 0#8) = false ↔
      text = text.take n ++ List.replicate (68 - (text.take n).length) 0 := by
  have hlength : 68 - (text.take n).length = (text.drop n).length := by
    rw [List.length_take, List.length_drop]
    omega
  rw [hlength]
  constructor
  · intro h
    have hzero : text.drop n = List.replicate (text.drop n).length 0 := by
      rw [List.eq_replicate_iff]
      refine ⟨rfl, ?_⟩
      intro byte hbyte
      have := List.any_eq_false.mp h byte hbyte
      simpa using this
    rw [← hzero, List.take_append_drop]
  · intro h
    have hzero : text.drop n = List.replicate (text.drop n).length 0 := by
      conv_lhs at h => rw [← List.take_append_drop n text]
      exact List.append_cancel_left h
    rw [hzero]
    simp

theorem manifestBody_eq {version : List U8} (hboard : [board₀, board₁] = leBytes 2 1002)
    (hcount : count = BitVec.ofNat 8 version.length)
    (htext : text = version ++ List.replicate (68 - version.length) 0) :
    BZM_BRIDGE_IMAGE_MANIFEST_MAGIC ++ ([1, 96, board₀, board₁, 1, 1, minor, count] ++ text) =
      manifestBody minor version := by
  rw [manifestBody, ← hboard, hcount, htext]
  rfl

/-- **The checks accept the parts of an encoding.** -/
theorem manifestFields_eq_ok (htext : text.length = 68) (hcrc : crc.length = 4)
    {m : LocatedManifest} :
    manifestFields offset schema size board₀ board₁ kind major minor count text crc = .ok m ↔
      m.offset = offset ∧ VersionText m.version ∧
        manifestBytes schema size board₀ board₁ kind major minor count text crc =
          manifestEncoding m.protocolMinor m.version ∧
        m.protocolMajor = BZM_BRIDGE_IMAGE_PROTOCOL_MAJOR ∧
        m.targetBoardVersion = BZM_BRIDGE_IMAGE_TARGET_BOARD_VERSION := by
  constructor
  · rw [manifestFields]
    split
    · intro h
      cases h
    split
    · intro h
      cases h
    split
    · intro h
      cases h
    split
    · intro h
      cases h
    rename_i hheader hprintable hzero hchecksum
    intro h
    cases h
    simp only [not_or, not_not, not_lt] at hheader hchecksum
    obtain ⟨rfl, hsize, hboard, rfl, rfl, hpos, hmax⟩ := hheader
    have hmax' : count.toNat ≤ 63 := hmax
    have hsize' : size = 96 := BitVec.eq_of_toNat_eq hsize
    have hlength : (text.take count.toNat).length = count.toNat := by
      rw [List.length_take]
      omega
    have hboard' : [board₀, board₁] = leBytes 2 1002 := by
      have := leBytes_readLe16 board₀ board₁ []
      rw [hboard] at this
      exact this.symm
    have hcount : count = BitVec.ofNat 8 (text.take count.toNat).length := by
      rw [hlength, BitVec.ofNat_toNat, BitVec.setWidth_eq]
    have htext' := (padded_iff htext).mp (Bool.eq_false_iff.mpr hzero)
    have hcrc' : crc = leBytes 4 (crc32 (manifestBody minor (text.take count.toNat))).toNat := by
      obtain ⟨a, b, c, d, rfl⟩ : ∃ a b c d, crc = [a, b, c, d] := List.length_eq_four.mp hcrc
      have hword := leBytes_readLe32 a b c d []
      rw [hchecksum, manifestCrc32_eq, hsize'] at hword
      rw [← manifestBody_eq hboard' hcount htext']
      exact hword.symm
    refine ⟨rfl, versionText_iff.mpr ⟨?_, Bool.eq_false_iff.mpr hprintable⟩, ?_, rfl, hboard⟩
    · rw [hlength]
      omega
    · exact (manifestBytes_eq_encoding htext (hlength.trans_le hmax')).mpr
        ⟨⟨rfl, hsize', hboard', rfl, rfl, rfl, hcount⟩, htext', hcrc'⟩
  · obtain ⟨⟨major', minor', version⟩, offset', board⟩ := m
    rintro ⟨rfl, hversion, hbytes, rfl, rfl⟩
    obtain ⟨⟨hpos, hmax⟩, hprintable⟩ := versionText_iff.mp hversion
    obtain ⟨⟨rfl, rfl, hboard', rfl, rfl, rfl, hcount⟩, htext', hcrc'⟩ :=
      (manifestBytes_eq_encoding htext hmax).mp hbytes
    have hcount' : count.toNat = version.length := by
      rw [hcount, BitVec.toNat_ofNat, Nat.mod_eq_of_lt (by omega)]
    have htake : text.take count.toNat = version := by
      rw [hcount', htext', List.take_left]
    have hword : readLe16 [board₀, board₁] = BZM_BRIDGE_IMAGE_TARGET_BOARD_VERSION := by
      rw [hboard']
      exact readLe16_leBytes 1002 []
    have hzero : (text.drop count.toNat).any (· != 0#8) = false := by
      rw [padded_iff htext, htake]
      exact htext'
    have hchecksum : readLe32 crc = manifestCrc32 (BZM_BRIDGE_IMAGE_MANIFEST_MAGIC ++
        ([1, 96, board₀, board₁, 1, 1, minor, count] ++ text)) := by
      rw [manifestBody_eq hboard' hcount htext', manifestCrc32_eq, hcrc']
      simpa using readLe32_leBytes (crc32 (manifestBody minor version)) []
    have hheader : ¬ ((1 : U8) ≠ BZM_BRIDGE_IMAGE_MANIFEST_SCHEMA_VERSION ∨
        (96 : U8).toNat ≠ BZM_BRIDGE_IMAGE_MANIFEST_SIZE ∨
        readLe16 [board₀, board₁] ≠ BZM_BRIDGE_IMAGE_TARGET_BOARD_VERSION ∨
        (1 : U8) ≠ BZM_BRIDGE_IMAGE_FIRMWARE_KIND ∨ (1 : U8) ≠ BZM_BRIDGE_IMAGE_PROTOCOL_MAJOR ∨
        count.toNat = 0 ∨ BZM_BRIDGE_VERSION_MAX_LENGTH < count.toNat) := by
      rintro (h | h | h | h | h | h | h)
      · exact h rfl
      · exact h rfl
      · exact h hword
      · exact h rfl
      · exact h rfl
      · exact absurd (hcount'.symm.trans h) (Nat.ne_of_gt hpos)
      · exact absurd hmax (not_le.mpr (hcount' ▸ h))
    rw [manifestFields, if_neg hheader, htake, if_neg (Bool.eq_false_iff.mp hprintable),
      if_neg (Bool.eq_false_iff.mp hzero), if_neg (not_not.mpr hchecksum), hword]
    rfl

end Layout

/-! ## The validators -/

section Validate

variable {image : List U8}

theorem length_manifestEncoding {minor : U8} {version : List U8} (h : VersionText version) :
    (manifestEncoding minor version).length = 96 := by
  obtain ⟨-, hmax, -⟩ := h
  have hmax' : version.length ≤ 63 := hmax
  have hmagic : BZM_BRIDGE_IMAGE_MANIFEST_MAGIC.length = 16 := rfl
  simp only [manifestEncoding, manifestBody, List.length_append, List.length_cons,
    List.length_nil, List.length_replicate, length_leBytes, hmagic]
  omega

/-- Two fields of a place that have one length are the same. -/
theorem fieldAt_unique {pos : Nat} {field field' : List U8} (h : FieldAt image pos field)
    (h' : FieldAt image pos field') (hlength : field.length = field'.length) : field = field' := by
  rw [← h.take_drop, hlength, h'.take_drop]

/-- At the place of a magic, the checks accept an encoding and nothing else. -/
theorem exists_manifestAt {offset : Nat} (h : MagicAt image offset) :
    ∃ result, manifestAt image offset = .ok result ∧ ∀ m, result = .ok m ↔
      m.offset = offset ∧ VersionText m.version ∧
        FieldAt image offset (manifestEncoding m.protocolMinor m.version) ∧
        m.protocolMajor = BZM_BRIDGE_IMAGE_PROTOCOL_MAJOR ∧
        m.targetBoardVersion = BZM_BRIDGE_IMAGE_TARGET_BOARD_VERSION := by
  obtain ⟨schema, size, board₀, board₁, kind, major, minor, count, text, crc, htext, hcrc,
    hbytes⟩ := exists_manifestBytes h
  refine ⟨_, manifestAt_eq h.1 htext hcrc hbytes, ?_⟩
  intro m
  rw [manifestFields_eq_ok htext hcrc]
  refine and_congr_right fun _ => and_congr_right fun hversion => and_congr_left fun _ => ?_
  constructor
  · intro hencoding
    rw [← hencoding]
    exact hbytes
  · intro hencoding
    refine fieldAt_unique hbytes hencoding ?_
    rw [length_manifestEncoding hversion, manifestBytes, List.length_append, List.length_append,
      List.length_append, htext, hcrc]
    rfl

/-- The magic at the offsets that the scan visits -/
theorem magicAt_iff {offset : Nat} (hsize : BZM_BRIDGE_IMAGE_MANIFEST_SIZE ≤ image.length) :
    MagicAt image offset ↔
      0 ≤ offset ∧ offset < 0 + (image.length + 1 - BZM_BRIDGE_IMAGE_MANIFEST_SIZE) ∧
        FieldAt image offset BZM_BRIDGE_IMAGE_MANIFEST_MAGIC := by
  rw [MagicAt, and_iff_right (Nat.zero_le _)]
  refine and_congr_left fun _ => ?_
  omega

/-- **The manifest validator stays within the image and accepts the image of a manifest.** -/
theorem exists_validateManifest (image : List U8) :
    ∃ result, bzmBridgeUpdateValidateManifest image = .ok result ∧
      ∀ m, result = .ok m ↔ HoldsManifest image m := by
  rw [bzmBridgeUpdateValidateManifest]
  by_cases hsize : image.length < BZM_BRIDGE_IMAGE_MANIFEST_SIZE
  · rw [if_pos hsize]
    refine ⟨_, rfl, ?_⟩
    intro m
    constructor
    · intro h
      cases h
    · rintro ⟨hmagic, -⟩
      have := ((hmagic m.offset).mpr rfl).1
      omega
  · rw [if_neg hsize]
    have hsize' := not_lt.mp hsize
    have h96 : BZM_BRIDGE_IMAGE_MANIFEST_SIZE = 96 := rfl
    obtain ⟨scanned, hscan, hfound⟩ := @exists_manifestScan image
      (image.length + 1 - BZM_BRIDGE_IMAGE_MANIFEST_SIZE) 0 none (by omega)
    have hplace : ∀ offset, scanned = .ok (some offset) ↔
        ∀ i, MagicAt image i ↔ i = offset := by
      intro offset
      rw [hfound]
      exact forall_congr' fun i => iff_congr (magicAt_iff hsize').symm Iff.rfl
    rw [hscan]
    dsimp only [Bind.bind, Except.bind]
    match scanned, hplace with
    | .error err, hplace =>
      refine ⟨_, rfl, ?_⟩
      intro m
      constructor
      · intro h
        cases h
      · rintro ⟨hmagic, -⟩
        cases (hplace m.offset).mpr hmagic
    | .ok none, hplace =>
      refine ⟨_, rfl, ?_⟩
      intro m
      constructor
      · intro h
        cases h
      · rintro ⟨hmagic, -⟩
        cases (hplace m.offset).mpr hmagic
    | .ok (some offset), hplace =>
      have hmagic := (hplace offset).mp rfl
      obtain ⟨result, hat, hresult⟩ := exists_manifestAt ((hmagic offset).mpr rfl)
      refine ⟨result, hat, ?_⟩
      intro m
      rw [hresult, HoldsManifest]
      constructor
      · rintro ⟨rfl, hrest⟩
        exact ⟨hmagic, hrest⟩
      · rintro ⟨hmagic', hrest⟩
        have hoffset : m.offset = offset := (hmagic m.offset).mp ((hmagic' m.offset).mpr rfl)
        rw [hoffset] at hrest
        exact ⟨hoffset, hrest⟩

/-- An encoding in the middle of an image is its manifest when the magic stands nowhere else. -/
theorem holdsManifest_splice {front back : List U8} {minor : U8} {version : List U8}
    (hversion : VersionText version)
    (honly : ∀ offset, MagicAt (front ++ manifestEncoding minor version ++ back) offset →
      offset = front.length) :
    HoldsManifest (front ++ manifestEncoding minor version ++ back)
      ⟨⟨BZM_BRIDGE_IMAGE_PROTOCOL_MAJOR, minor, version⟩, front.length,
        BZM_BRIDGE_IMAGE_TARGET_BOARD_VERSION⟩ := by
  have hfield : FieldAt (front ++ manifestEncoding minor version ++ back) front.length
      (manifestEncoding minor version) := by
    refine ⟨back, ?_⟩
    rw [List.append_assoc, List.drop_left]
  have hmagic : MagicAt (front ++ manifestEncoding minor version ++ back) front.length := by
    constructor
    · rw [List.length_append, List.length_append, length_manifestEncoding hversion,
        BZM_BRIDGE_IMAGE_MANIFEST_SIZE]
      omega
    · have hbody := (fieldAt_append.mp hfield).1
      exact (fieldAt_append.mp hbody).1
  refine ⟨?_, hversion, hfield, rfl, rfl⟩
  intro offset
  constructor
  · exact honly offset
  · rintro rfl
    exact hmagic

theorem exists_validateImage (image : List U8) :
    ∃ verdict, bzmBridgeUpdateValidateImage image = .ok verdict := by
  rw [bzmBridgeUpdateValidateImage]
  split
  · exact ⟨_, rfl⟩
  · rename_i hsize
    have hoffset : RP2040_FLASH_VECTOR_OFFSET = 256 := rfl
    rw [hoffset] at hsize ⊢
    rw [readSpan_of_le (by omega), readSpan_of_le (by omega), readSpan_of_le (by omega)]
    dsimp only [Bind.bind, Except.bind]
    split
    · exact ⟨_, rfl⟩
    · split
      · exact ⟨_, rfl⟩
      · exact ⟨_, rfl⟩

/-- The upload takes what both validators take. -/
theorem exists_validateUpload (image : List U8) (force : Bool) :
    ∃ verdict, bzmBridgeUpdateValidateUpload image force = .ok verdict ∧
      (force = false → (verdict.err = none ↔ bzmBridgeUpdateValidateImage image = .ok none ∧
        ∃ m, bzmBridgeUpdateValidateManifest image = .ok (.ok m))) ∧
      ∀ m, verdict.manifest = some m ↔ bzmBridgeUpdateValidateImage image = .ok none ∧
        bzmBridgeUpdateValidateManifest image = .ok (.ok m) := by
  obtain ⟨checked, hchecked⟩ := exists_validateImage image
  obtain ⟨result, hresult, -⟩ := exists_validateManifest image
  rw [bzmBridgeUpdateValidateUpload, hchecked]
  dsimp only [Bind.bind, Except.bind]
  cases checked with
  | some err =>
    refine ⟨_, rfl, ?_, ?_⟩
    · intro _
      simp
    · intro m
      simp
  | none =>
    rw [hresult]
    cases result with
    | ok manifest =>
      refine ⟨_, rfl, ?_, ?_⟩
      · intro _
        simp
      · intro m
        simp
    | error err =>
      refine ⟨_, rfl, ?_, ?_⟩
      · rintro rfl
        simp
      · intro m
        simp

end Validate

/-- **Bridge manifests are recognised exactly.**  The validator reads within the image and
accepts it for the manifest whose encoding stands at the one place of the magic; an encoding
that is put into an image is accepted with its fields, and an upload is one of a manifest
when both validators say so. -/
theorem bridgeManifest_exact (image : List U8) :
    (∃ result, bzmBridgeUpdateValidateManifest image = .ok result ∧
      ∀ m, result = .ok m ↔ HoldsManifest image m) ∧
    (∀ front back minor version, image = front ++ manifestEncoding minor version ++ back →
      VersionText version → (∀ offset, MagicAt image offset → offset = front.length) →
      bzmBridgeUpdateValidateManifest image =
        .ok (.ok ⟨⟨BZM_BRIDGE_IMAGE_PROTOCOL_MAJOR, minor, version⟩, front.length,
          BZM_BRIDGE_IMAGE_TARGET_BOARD_VERSION⟩)) ∧
    ∀ force, ∃ verdict, bzmBridgeUpdateValidateUpload image force = .ok verdict ∧
      (force = false → (verdict.err = none ↔ bzmBridgeUpdateValidateImage image = .ok none ∧
        ∃ m, bzmBridgeUpdateValidateManifest image = .ok (.ok m))) ∧
      ∀ m, verdict.manifest = some m ↔ bzmBridgeUpdateValidateImage image = .ok none ∧
        bzmBridgeUpdateValidateManifest image = .ok (.ok m) := by
  refine ⟨exists_validateManifest image, ?_, exists_validateUpload image⟩
  rintro front back minor version rfl hversion honly
  obtain ⟨result, hvalidate, hresult⟩ :=
    exists_validateManifest (front ++ manifestEncoding minor version ++ back)
  rw [hvalidate, (hresult _).mpr (holdsManifest_splice hversion honly)]

theorem bridgeManifest_exact_bare :
    bzmBridgeUpdateValidateManifest (manifestEncoding 3 (cText "1.2")) =
      .ok (.ok ⟨⟨1, 3, cText "1.2"⟩, 0, 1002⟩) := by
  have hversion : VersionText (cText "1.2") := by
    refine ⟨by decide, by decide, ?_⟩
    decide
  refine (bridgeManifest_exact (manifestEncoding 3 (cText "1.2"))).2.1 [] [] 3 (cText "1.2")
    (by rw [List.nil_append, List.append_nil]) hversion ?_
  rintro offset ⟨hfits, -⟩
  rw [length_manifestEncoding hversion, BZM_BRIDGE_IMAGE_MANIFEST_SIZE] at hfits
  rw [List.length_nil]
  omega

end EspMiner
