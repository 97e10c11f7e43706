import EspMiner.Bzm.Transport
import EspMiner.Library.Tiling

/-!
# The nonce ranges of the ASICs tile the range of a job

The step of `bzm_partition_nonce_range` is the quotient of the number of nonces
and the number of partitions, computed with 64 bits: the product of the step and
a partition stays within the range, and the last partition takes the remainder.
-/

namespace EspMiner

open Library

/-- The number of nonces from `startingNonce` to `endNonce`. -/
def nonceCount (startingNonce endNonce : U32) : Nat := endNonce.toNat - startingNonce.toNat + 1

/-- The first nonce of a partition. -/
def partitionStart (startingNonce endNonce : U32) (partitionCount part : Nat) : Nat :=
  startingNonce.toNat + nonceCount startingNonce endNonce / partitionCount * part

/-- The last nonce of a partition. -/
def partitionStop (startingNonce endNonce : U32) (partitionCount part : Nat) : Nat :=
  if part + 1 = partitionCount then endNonce.toNat
  else partitionStart startingNonce endNonce partitionCount (part + 1) - 1

section

variable {startingNonce endNonce : U32} {partitionCount : Nat}

/-- All partitions start inside the range, and each takes a whole step of it. -/
theorem partitionStart_le (hrange : startingNonce ≤ endNonce) {part : Nat}
    (hpart : part ≤ partitionCount) :
    partitionStart startingNonce endNonce partitionCount part ≤ endNonce.toNat + 1 := by
  have hproduct : nonceCount startingNonce endNonce / partitionCount * part ≤
      nonceCount startingNonce endNonce :=
    (Nat.mul_le_mul_left _ hpart).trans (Nat.div_mul_le_self _ _)
  have hle : startingNonce.toNat ≤ endNonce.toNat := hrange
  have hcount : nonceCount startingNonce endNonce = endNonce.toNat - startingNonce.toNat + 1 := rfl
  have hstart : partitionStart startingNonce endNonce partitionCount part =
      startingNonce.toNat + nonceCount startingNonce endNonce / partitionCount * part := rfl
  omega

theorem partitionStart_succ (startingNonce endNonce : U32) (partitionCount part : Nat) :
    partitionStart startingNonce endNonce partitionCount (part + 1) =
      partitionStart startingNonce endNonce partitionCount part +
        nonceCount startingNonce endNonce / partitionCount := by
  rw [partitionStart, partitionStart, Nat.mul_succ, Nat.add_assoc]

theorem step_pos (hpos : 0 < partitionCount)
    (hfits : partitionCount ≤ nonceCount startingNonce endNonce) :
    0 < nonceCount startingNonce endNonce / partitionCount :=
  Nat.div_pos hfits hpos

/-- The partitions tile the range. -/
theorem partition_tiles (hrange : startingNonce ≤ endNonce) (hpos : 0 < partitionCount)
    (hfits : partitionCount ≤ nonceCount startingNonce endNonce) :
    Tiles startingNonce.toNat endNonce.toNat partitionCount
      (partitionStart startingNonce endNonce partitionCount)
      (partitionStop startingNonce endNonce partitionCount) := by
  have hstep := step_pos hpos hfits
  constructor
  · simp [partitionStart]
  · rw [partitionStop, if_pos (by omega)]
  · intro part hpart
    have hnext := partitionStart_succ startingNonce endNonce partitionCount part
    have hbound : partitionStart startingNonce endNonce partitionCount (part + 1) ≤
        endNonce.toNat + 1 := partitionStart_le hrange hpart
    rw [partitionStop]
    split
    · omega
    · omega
  · intro part hpart
    have hnext := partitionStart_succ startingNonce endNonce partitionCount part
    rw [partitionStop, if_neg (by omega)]
    omega

end

/-! ### The code computes these partitions -/

theorem toNat_nonceCount {startingNonce endNonce : U32} (hrange : startingNonce ≤ endNonce) :
    (endNonce.setWidth 64 - startingNonce.setWidth 64 + 1 : U64).toNat =
      nonceCount startingNonce endNonce := by
  have hle : startingNonce.toNat ≤ endNonce.toNat := hrange
  have hend := endNonce.isLt
  have hwide : (startingNonce.setWidth 64).toNat = startingNonce.toNat := by
    rw [BitVec.toNat_setWidth]
    omega
  have hwide' : (endNonce.setWidth 64).toNat = endNonce.toNat := by
    rw [BitVec.toNat_setWidth]
    omega
  rw [BitVec.toNat_add, BitVec.toNat_sub_of_le (by rw [BitVec.le_def, hwide, hwide']; exact hle),
    hwide, hwide', nonceCount]
  change (endNonce.toNat - startingNonce.toNat + 1) % 2 ^ 64 = _
  omega

/-- The 64-bit arithmetic of the code does not wrap. -/
theorem toNat_partitionStart {startingNonce endNonce : U32} (hrange : startingNonce ≤ endNonce)
    {nonceStep factor partitionCount : U64} (hfactor : factor ≤ partitionCount)
    (hstep : nonceStep.toNat = nonceCount startingNonce endNonce / partitionCount.toNat) :
    (startingNonce.setWidth 64 + nonceStep * factor : U64).toNat =
      partitionStart startingNonce endNonce partitionCount.toNat factor.toNat := by
  have hbound : partitionStart startingNonce endNonce partitionCount.toNat factor.toNat ≤
      endNonce.toNat + 1 := partitionStart_le hrange hfactor
  have hend := endNonce.isLt
  have hwide : (startingNonce.setWidth 64).toNat = startingNonce.toNat := by
    rw [BitVec.toNat_setWidth]
    omega
  rw [partitionStart] at hbound ⊢
  rw [BitVec.toNat_add, BitVec.toNat_mul, hwide, hstep]
  generalize nonceCount startingNonce endNonce / partitionCount.toNat * factor.toNat = product
    at hbound ⊢
  omega

theorem bzmPartitionNonceRange_eq {startingNonce endNonce : U32} (hrange : startingNonce ≤ endNonce)
    {part partitionCount : U64} (hpart : part < partitionCount) :
    bzmPartitionNonceRange startingNonce endNonce part partitionCount =
      if nonceCount startingNonce endNonce < partitionCount.toNat then none
      else some (
        BitVec.ofNat 32
          (partitionStart startingNonce endNonce partitionCount.toNat part.toNat),
        BitVec.ofNat 32
          (partitionStop startingNonce endNonce partitionCount.toNat part.toNat)) := by
  have hpartNat : part.toNat < partitionCount.toNat := hpart
  have hsize := partitionCount.isLt
  rw [bzmPartitionNonceRange, if_neg]
  · dsimp only
    have hcount := toNat_nonceCount hrange
    generalize (endNonce.setWidth 64 - startingNonce.setWidth 64 + 1 : U64) = count at hcount ⊢
    have hstep : (count / partitionCount).toNat =
        nonceCount startingNonce endNonce / partitionCount.toNat := by
      rw [BitVec.toNat_udiv, hcount]
    generalize count / partitionCount = nonceStep at hstep ⊢
    have hzero : nonceStep = 0 ↔ nonceCount startingNonce endNonce < partitionCount.toNat := by
      rw [← BitVec.toNat_inj, hstep]
      exact Nat.div_eq_zero_iff_lt (by omega)
    by_cases hfits : nonceCount startingNonce endNonce < partitionCount.toNat
    · rw [if_pos hfits, if_pos (hzero.mpr hfits)]
    · rw [if_neg hfits, if_neg fun h => hfits (hzero.mp h)]
      have hnext : (part + 1).toNat = part.toNat + 1 := by
        rw [BitVec.toNat_add]
        change (part.toNat + 1) % 2 ^ 64 = _
        omega
      have hlast : part + 1 = partitionCount ↔ part.toNat + 1 = partitionCount.toNat := by
        rw [← BitVec.toNat_inj, hnext]
      congr 2
      · apply BitVec.eq_of_toNat_eq
        rw [BitVec.toNat_setWidth, BitVec.toNat_ofNat,
          toNat_partitionStart hrange (BitVec.le_of_lt hpart) hstep]
      · rw [partitionStop]
        by_cases hend : part.toNat + 1 = partitionCount.toNat
        · rw [if_pos hend, if_pos (hlast.mpr hend), BitVec.ofNat_toNat, BitVec.setWidth_eq]
        · rw [if_neg hend, if_neg fun h => hend (hlast.mp h)]
          have hbelow : part + 1 ≤ partitionCount := by
            rw [BitVec.le_def, hnext]
            exact hpartNat
          have hstart := toNat_partitionStart hrange hbelow hstep
          rw [hnext] at hstart
          have hpos := step_pos (by omega) (Nat.le_of_not_lt hfits)
          have hsucc := partitionStart_succ startingNonce endNonce partitionCount.toNat part.toNat
          apply BitVec.eq_of_toNat_eq
          rw [BitVec.toNat_setWidth, BitVec.toNat_ofNat, BitVec.toNat_sub_of_le, hstart]
          · rfl
          · rw [BitVec.le_def, hstart]
            change 1 ≤ _
            omega
  · rintro (hzero | hle | hlt)
    · rw [hzero] at hpartNat
      exact Nat.not_lt_zero _ hpartNat
    · exact BitVec.not_lt.mpr hle hpart
    · exact BitVec.not_lt.mpr hrange hlt

/-- The answers of the code, as numbers. -/
theorem bzmPartitionNonceRange_toNat {startingNonce endNonce : U32}
    (hrange : startingNonce ≤ endNonce) {part partitionCount : U64} (hpart : part < partitionCount)
    (hfits : partitionCount.toNat ≤ nonceCount startingNonce endNonce) :
    ∃ first last, bzmPartitionNonceRange startingNonce endNonce part partitionCount =
        some (first, last) ∧
      first.toNat = partitionStart startingNonce endNonce partitionCount.toNat part.toNat ∧
      last.toNat = partitionStop startingNonce endNonce partitionCount.toNat part.toNat := by
  have hpartNat : part.toNat < partitionCount.toNat := hpart
  have htiles := partition_tiles hrange (by omega) hfits
  have hnonempty := htiles.nonempty part.toNat hpartNat
  have hinside := (htiles.bounds hpartNat ⟨hnonempty, le_rfl⟩).2
  have hend := endNonce.isLt
  refine ⟨_, _, by rw [bzmPartitionNonceRange_eq hrange hpart, if_neg (by omega)], ?_, ?_⟩
  · rw [BitVec.toNat_ofNat]
    omega
  · rw [BitVec.toNat_ofNat]
    omega

/-- **The partition is exact.**  For as many partitions as there are nonces or
fewer, the answers tile the range from its first to its last nonce, each nonce of
it lies in exactly one, and all but the last have one size; for more partitions
every answer is a failure. -/
theorem bzmPartitionNonceRange_exact (startingNonce endNonce : U32)
    (hrange : startingNonce ≤ endNonce) (partitionCount : U64) (hpos : 0 < partitionCount) :
    (partitionCount.toNat ≤ endNonce.toNat - startingNonce.toNat + 1 →
      ∃ start stop : Nat → Nat,
        (∀ part < partitionCount, ∃ first last : U32,
          bzmPartitionNonceRange startingNonce endNonce part partitionCount =
              some (first, last) ∧
            first.toNat = start part.toNat ∧ last.toNat = stop part.toNat) ∧
        start 0 = startingNonce.toNat ∧
        stop (partitionCount.toNat - 1) = endNonce.toNat ∧
        (∀ part < partitionCount.toNat, start part ≤ stop part) ∧
        (∀ part, part + 1 < partitionCount.toNat → start (part + 1) = stop part + 1) ∧
        (∀ nonce : Nat, (∃! part, part < partitionCount.toNat ∧
            start part ≤ nonce ∧ nonce ≤ stop part) ↔
          startingNonce.toNat ≤ nonce ∧ nonce ≤ endNonce.toNat) ∧
        ∃ size, ∀ part, part + 1 < partitionCount.toNat → stop part + 1 = start part + size) ∧
    (endNonce.toNat - startingNonce.toNat + 1 < partitionCount.toNat →
      ∀ part, bzmPartitionNonceRange startingNonce endNonce part partitionCount = none) := by
  have hposNat : 0 < partitionCount.toNat := hpos
  constructor
  · intro hfits
    have htiles := partition_tiles hrange hposNat hfits
    refine ⟨partitionStart startingNonce endNonce partitionCount.toNat,
      partitionStop startingNonce endNonce partitionCount.toNat,
      fun part hpart => bzmPartitionNonceRange_toNat hrange hpart hfits, htiles.first, htiles.last,
      htiles.nonempty, htiles.adjacent, htiles.existsUnique_iff hposNat,
      nonceCount startingNonce endNonce / partitionCount.toNat, ?_⟩
    intro part hpart
    rw [← htiles.adjacent part hpart, partitionStart_succ]
  · intro hmany part
    by_cases hpart : part < partitionCount
    · exact (bzmPartitionNonceRange_eq hrange hpart).trans (if_pos hmany)
    · rw [bzmPartitionNonceRange, if_pos (.inr (.inl (BitVec.not_lt.mp hpart)))]

theorem bzmPartitionNonceRange_exact_full :
    (0#32 ≤ 0xffffffff#32 ∧ 0 < 4#64) ∧ ∃ start stop : Nat → Nat,
      start 0 = 0 ∧ stop 3 = 0xffffffff ∧
        ∀ part, part + 1 < 4 → start (part + 1) = stop part + 1 := by
  refine ⟨by decide, ?_⟩
  obtain ⟨start, stop, -, hfirst, hlast, -, hadjacent, -⟩ :=
    (bzmPartitionNonceRange_exact 0#32 0xffffffff#32 (by decide) 4#64 (by decide)).1 (by decide)
  exact ⟨start, stop, hfirst, hlast, hadjacent⟩

end EspMiner
