import EspMiner.Library.LittleEndian

/-!
# CompactSize

The count prefix of transaction data: one byte below 0xfd, else a tag byte and
the shortest of two, four or eight little-endian bytes.
-/

namespace EspMiner.Library

/-- The little-endian bytes that follow a tag byte. -/
def compactSizeWidth (tag : BitVec 8) : Nat :=
  if tag = 0xfd then 2 else if tag = 0xfe then 4 else 8

/-- The least number that needs so many bytes. -/
def compactSizeLeast (width : Nat) : BitVec 64 :=
  if width = 2 then 0xfd else if width = 4 then 0x10000 else 0x100000000

/-- The canonical CompactSize of a number below `2 ^ 64`. -/
def compactSize (n : Nat) : List (BitVec 8) :=
  if n < 0xfd then [BitVec.ofNat 8 n]
  else if n < 0x10000 then 0xfd#8 :: leBytes 2 n
  else if n < 0x100000000 then 0xfe#8 :: leBytes 4 n
  else 0xff#8 :: leBytes 8 n

theorem length_compactSize_pos (n : Nat) : 0 < (compactSize n).length := by
  unfold compactSize
  split_ifs <;> simp

/-- A number is encoded by one byte, or by a tag and a width that it needs. -/
theorem compactSize_cases {n : Nat} (h : n < 2 ^ 64) :
    (n < 0xfd ∧ compactSize n = [BitVec.ofNat 8 n]) ∨
    ∃ tag : BitVec 8, 0xfd ≤ tag ∧ n < 256 ^ compactSizeWidth tag ∧
      (compactSizeLeast (compactSizeWidth tag)).toNat ≤ n ∧
      compactSize n = tag :: leBytes (compactSizeWidth tag) n := by
  unfold compactSize
  by_cases hone : n < 0xfd
  · exact .inl ⟨hone, if_pos hone⟩
  · refine .inr ?_
    rw [if_neg hone]
    by_cases htwo : n < 0x10000
    · exact ⟨0xfd, by decide, htwo, Nat.le_of_not_lt hone, if_pos htwo⟩
    · rw [if_neg htwo]
      by_cases hfour : n < 0x100000000
      · exact ⟨0xfe, by decide, hfour, Nat.le_of_not_lt htwo, if_pos hfour⟩
      · exact ⟨0xff, by decide, h, Nat.le_of_not_lt hfour, if_neg hfour⟩

/-- A tag with a number that needs its width is canonical. -/
theorem compactSize_of_tag {tag : BitVec 8} {n : Nat} (htag : 0xfd ≤ tag)
    (hlt : n < 256 ^ compactSizeWidth tag)
    (hleast : (compactSizeLeast (compactSizeWidth tag)).toNat ≤ n) :
    compactSize n = tag :: leBytes (compactSizeWidth tag) n := by
  have hcases : tag = 0xfd ∨ tag = 0xfe ∨ tag = 0xff := by bv_omega
  unfold compactSize
  rcases hcases with rfl | rfl | rfl
  · have hone : ¬ n < 0xfd := Nat.not_lt.mpr hleast
    have htwo : n < 0x10000 := hlt
    rw [if_neg hone, if_pos htwo]
    rfl
  · have htwo : ¬ n < 0x10000 := Nat.not_lt.mpr hleast
    have hfour : n < 0x100000000 := hlt
    rw [if_neg (by omega), if_neg htwo, if_pos hfour]
    rfl
  · have hfour : ¬ n < 0x100000000 := Nat.not_lt.mpr hleast
    rw [if_neg (by omega), if_neg (by omega), if_neg hfour]
    rfl

end EspMiner.Library
