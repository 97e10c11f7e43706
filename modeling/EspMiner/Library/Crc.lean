import Mathlib.Data.List.Basic
import Mathlib.Data.List.GetD
import Mathlib.Logic.Function.Iterate
import Mathlib.Tactic.IntervalCases

/-!
# Cyclic redundancy checks

A checksum register that takes in a message bit by bit, highest bit first.  A step is linear
in the register and the bit together; a register that takes in its own leading bits is only
shifted; and where the polynomial is odd a step loses nothing.
-/

namespace EspMiner.Library

variable {w : Nat} (poly crc : BitVec w)

/-- One step: the register is shifted, and the polynomial is added where the bit that leaves
it is not the one that comes in. -/
def crcBit (poly crc : BitVec w) (bit : Bool) : BitVec w :=
  if (crc.msb ^^ bit) = true then (crc <<< 1) ^^^ poly else crc <<< 1

/-- The register after a string of bits -/
def crcBits (poly crc : BitVec w) (bits : List Bool) : BitVec w := bits.foldl (crcBit poly) crc

/-- The bits of a word, the highest first -/
def wordBits {v : Nat} (word : BitVec v) : List Bool := (List.range v).map word.getMsbD

/-- The bits of a string of bytes -/
def messageBits (bytes : List (BitVec 8)) : List Bool := bytes.flatMap wordBits

@[simp] theorem length_wordBits {v : Nat} (word : BitVec v) : (wordBits word).length = v := by
  rw [wordBits, List.length_map, List.length_range]

theorem messageBits_cons (byte : BitVec 8) (bytes : List (BitVec 8)) :
    messageBits (byte :: bytes) = wordBits byte ++ messageBits bytes := rfl

theorem messageBits_append (bytes more : List (BitVec 8)) :
    messageBits (bytes ++ more) = messageBits bytes ++ messageBits more :=
  List.flatMap_append

theorem wordBits_injective {v : Nat} {a b : BitVec v} (h : wordBits a = wordBits b) : a = b := by
  apply BitVec.eq_of_getMsbD_eq
  intro i hi
  have hbit := List.getElem_of_eq h (by rw [length_wordBits]; exact hi : i < (wordBits a).length)
  simpa [wordBits] using hbit

/-- A message is told by its bits. -/
theorem messageBits_injective {bytes others : List (BitVec 8)}
    (h : messageBits bytes = messageBits others) : bytes = others := by
  induction bytes generalizing others with
  | nil =>
    cases others with
    | nil => rfl
    | cons other others =>
      have hlength := congrArg List.length h
      simp [messageBits] at hlength
      omega
  | cons byte bytes ih =>
    cases others with
    | nil =>
      have hlength := congrArg List.length h
      simp [messageBits] at hlength
    | cons other others =>
      rw [messageBits_cons, messageBits_cons] at h
      obtain ⟨hfirst, hrest⟩ := List.append_inj h (by simp)
      rw [wordBits_injective hfirst, ih hrest]

@[simp] theorem crcBits_nil : crcBits poly crc [] = crc := rfl

theorem crcBits_cons (bit : Bool) (bits : List Bool) :
    crcBits poly crc (bit :: bits) = crcBits poly (crcBit poly crc bit) bits := rfl

theorem crcBits_append (bits more : List Bool) :
    crcBits poly crc (bits ++ more) = crcBits poly (crcBits poly crc bits) more :=
  List.foldl_append

/-! ## Linearity -/

theorem crcBit_xor (poly a b : BitVec w) (x y : Bool) :
    crcBit poly (a ^^^ b) (x ^^ y) = crcBit poly a x ^^^ crcBit poly b y := by
  have hcancel : ∀ c d : BitVec w, (c ^^^ poly) ^^^ (d ^^^ poly) = c ^^^ d := by
    intro c d
    rw [BitVec.xor_assoc, BitVec.xor_comm d poly, ← BitVec.xor_assoc poly, BitVec.xor_self,
      BitVec.zero_xor]
  have hcomm : ∀ c d : BitVec w, (c ^^^ poly) ^^^ d = c ^^^ d ^^^ poly := by
    intro c d
    rw [BitVec.xor_assoc, BitVec.xor_comm poly d, ← BitVec.xor_assoc]
  unfold crcBit
  rw [BitVec.msb_xor, BitVec.shiftLeft_xor_distrib]
  cases a.msb <;> cases b.msb <;> cases x <;> cases y <;>
    simp [hcancel, hcomm, BitVec.xor_assoc]

/-- The register of a sum is the sum of the registers. -/
theorem crcBits_xor (poly a b : BitVec w) {bits others : List Bool}
    (h : bits.length = others.length) :
    crcBits poly (a ^^^ b) (bits.zipWith (· ^^ ·) others) =
      crcBits poly a bits ^^^ crcBits poly b others := by
  induction bits generalizing a b others with
  | nil =>
    obtain rfl := List.length_eq_zero_iff.mp h.symm
    rfl
  | cons bit bits ih =>
    obtain ⟨other, others, rfl⟩ := List.exists_cons_of_length_eq_add_one h.symm
    rw [List.length_cons, List.length_cons, Nat.add_right_cancel_iff] at h
    rw [List.zipWith_cons_cons, crcBits_cons, crcBits_cons, crcBits_cons, crcBit_xor, ih _ _ h]

/-! ## Leading bits -/

theorem crcBit_msb : crcBit poly crc crc.msb = crc <<< 1 := by
  unfold crcBit
  rw [Bool.xor_self]
  rfl

/-- A register that takes in its own leading bits is shifted by them. -/
theorem crcBits_leading (count : Nat) :
    crcBits poly crc ((List.range count).map crc.getMsbD) = crc <<< count := by
  induction count with
  | zero => simp
  | succ count ih =>
    rw [List.range_succ, List.map_append, crcBits_append, ih, List.map_singleton, crcBits_cons,
      crcBits_nil]
    have hmsb : crc.getMsbD count = (crc <<< count).msb := by
      rw [BitVec.msb_eq_getMsbD_zero, BitVec.getMsbD_shiftLeft, Nat.zero_add]
    rw [hmsb, crcBit_msb, BitVec.shiftLeft_add]

/-- With its own bits behind it a message leaves the register empty. -/
theorem crcBits_residue (bits : List Bool) :
    crcBits poly crc (bits ++ wordBits (crcBits poly crc bits)) = 0 := by
  rw [crcBits_append, wordBits, crcBits_leading]
  exact BitVec.shiftLeft_eq_zero le_rfl

/-! ## Bytes at a time -/

theorem zipWith_wordBits {v : Nat} (a b : BitVec v) :
    (wordBits a).zipWith (· ^^ ·) (wordBits b) = wordBits (a ^^^ b) := by
  unfold wordBits
  rw [List.zipWith_map, List.zipWith_self]
  simp

/-- **A byte at a time.**  What a byte does to a register is what its sum with the leading
byte does to an empty one, and a shift. -/
theorem crcBits_byte (leading byte : BitVec 8) (h : ∀ i < 8, leading.getMsbD i = crc.getMsbD i) :
    crcBits poly crc (wordBits byte) =
      crcBits poly 0#w (wordBits (leading ^^^ byte)) ^^^ crc <<< 8 := by
  have hleading : wordBits leading = (List.range 8).map crc.getMsbD := by
    unfold wordBits
    exact List.map_congr_left fun i hi => h i (List.mem_range.mp hi)
  have hbyte : byte = (leading ^^^ byte) ^^^ leading := by
    rw [BitVec.xor_comm leading, BitVec.xor_assoc, BitVec.xor_self, BitVec.xor_zero]
  calc crcBits poly crc (wordBits byte)
      = crcBits poly (0#w ^^^ crc)
          ((wordBits (leading ^^^ byte)).zipWith (· ^^ ·) (wordBits leading)) := by
        rw [zipWith_wordBits, ← hbyte, BitVec.zero_xor]
    _ = crcBits poly 0#w (wordBits (leading ^^^ byte)) ^^^ crc <<< 8 := by
        rw [crcBits_xor _ _ _ (by simp), hleading, crcBits_leading]

/-! ## Bursts -/

section Burst

variable {poly : BitVec w}

theorem crcBit_eq_zero (hodd : poly.getLsbD 0 = true) {crc : BitVec w}
    (h : crcBit poly crc false = 0#w) : crc = 0#w := by
  unfold crcBit at h
  rw [Bool.xor_false] at h
  cases hmsb : crc.msb with
  | true =>
    rw [hmsb, if_pos rfl] at h
    have hbit := congrArg (BitVec.getLsbD · 0) h
    simp [hodd] at hbit
  | false =>
    rw [hmsb, if_neg Bool.false_ne_true] at h
    apply BitVec.eq_of_getLsbD_eq
    intro i hi
    have hbit := congrArg (BitVec.getLsbD · (i + 1)) h
    by_cases hlast : i + 1 < w
    · rw [BitVec.getLsbD_eq_getElem hi]
      simpa [hlast] using hbit
    · have hmost : i = w - 1 := by omega
      rw [hmost, ← BitVec.msb_eq_getLsbD_last, hmsb, BitVec.getLsbD_zero]

theorem crcBits_zeros (hodd : poly.getLsbD 0 = true) (count : Nat) {crc : BitVec w}
    (h : crcBits poly crc (List.replicate count false) = 0#w) : crc = 0#w := by
  induction count generalizing crc with
  | zero => exact h
  | succ count ih => exact crcBit_eq_zero hodd (ih h)

/-- A step loses nothing of the register. -/
theorem crcBits_injective (hodd : poly.getLsbD 0 = true) (bits : List Bool) {a b : BitVec w}
    (h : crcBits poly a bits = crcBits poly b bits) : a = b := by
  have hzero : bits.zipWith (· ^^ ·) bits = List.replicate bits.length false := by
    rw [List.zipWith_self]
    simp
  have hsum := @crcBits_xor w poly a b bits bits rfl
  rw [hzero, h, BitVec.xor_self] at hsum
  exact BitVec.xor_eq_zero_iff.mp (crcBits_zeros hodd _ hsum)

/-- A register with these leading bits and no others -/
theorem exists_leading {bits : List Bool} (h : bits.length ≤ w) :
    ∃ crc : BitVec w, (List.range bits.length).map crc.getMsbD = bits ∧
      crc <<< bits.length = 0#w := by
  have hlength : (bits ++ List.replicate (w - bits.length) false).length = w := by
    rw [List.length_append, List.length_replicate]
    omega
  refine ⟨(BitVec.ofBoolListBE (bits ++ List.replicate (w - bits.length) false)).cast hlength,
    ?_, ?_⟩
  · apply List.ext_getElem
    · simp
    · intro i hi hbits
      rw [List.getElem_map, List.getElem_range, BitVec.getMsbD_cast, BitVec.getMsbD_ofBoolListBE,
        List.getD_append _ _ _ _ hbits, List.getD_eq_getElem _ _ hbits]
  · apply BitVec.eq_of_getMsbD_eq
    intro i hi
    rw [BitVec.getMsbD_shiftLeft, BitVec.getMsbD_cast, BitVec.getMsbD_ofBoolListBE,
      List.getD_append_right _ _ _ _ (Nat.le_add_left ..)]
    simp

/-- What up to `w` bits do to an empty register tells them. -/
theorem crcBits_burst (hodd : poly.getLsbD 0 = true) {bits : List Bool} (hshort : bits.length ≤ w)
    (h : crcBits poly 0#w bits = 0#w) : bits = List.replicate bits.length false := by
  obtain ⟨crc, hleading, hshift⟩ := exists_leading hshort
  have hzero : bits.zipWith (· ^^ ·) bits = List.replicate bits.length false := by
    rw [List.zipWith_self]
    simp
  have hsum := @crcBits_xor w poly 0#w crc bits bits rfl
  have hown : crcBits poly crc bits = 0#w := by
    rw [← hshift, ← crcBits_leading poly, hleading]
  rw [hzero, h, hown, BitVec.xor_self, BitVec.zero_xor] at hsum
  have hcrc := crcBits_zeros hodd _ hsum
  rw [hcrc] at hleading
  rw [← hleading, List.eq_replicate_iff]
  constructor
  · simp
  · intro bit hbit
    simp only [BitVec.getMsbD_zero, List.mem_map] at hbit
    obtain ⟨-, -, hbit⟩ := hbit
    exact hbit.symm

/-- Strings that differ, and no longer than the register, leave different registers. -/
theorem crcBits_burst_eq (hodd : poly.getLsbD 0 = true) {crc : BitVec w} {bits others : List Bool}
    (hlength : bits.length = others.length) (hshort : bits.length ≤ w)
    (h : crcBits poly crc bits = crcBits poly crc others) : bits = others := by
  have hsum := @crcBits_xor w poly crc crc bits others hlength
  rw [BitVec.xor_self, h, BitVec.xor_self] at hsum
  have hsame := crcBits_burst hodd (by rw [List.length_zipWith]; omega) hsum
  apply List.ext_getElem hlength
  intro i hi hothers
  have hbit := List.getElem_of_eq hsame (by rw [List.length_zipWith]; omega : i < _)
  rw [List.getElem_zipWith, List.getElem_replicate] at hbit
  simpa using hbit

/-- **Bursts are found.**  Two messages that differ only within as many consecutive bits as the
register has leave different registers. -/
theorem crcBits_ne_of_burst (hodd : poly.getLsbD 0 = true) {crc : BitVec w}
    {front bits others back : List Bool} (hlength : bits.length = others.length)
    (hshort : bits.length ≤ w) (hne : bits ≠ others) :
    crcBits poly crc (front ++ (bits ++ back)) ≠ crcBits poly crc (front ++ (others ++ back)) := by
  intro h
  rw [crcBits_append, crcBits_append, crcBits_append, crcBits_append] at h
  exact hne (crcBits_burst_eq hodd hlength hshort (crcBits_injective hodd back h))

end Burst

/-! ## Lowest bit first -/

section Reflected

/-- A step on the register with its bits in the other order, once the next bits are added -/
def reflectedStep (poly crc : BitVec w) : BitVec w :=
  (crc >>> 1) ^^^ (if crc.getLsbD 0 = true then poly else 0#w)

theorem reverse_xor (a b : BitVec w) : (a ^^^ b).reverse = a.reverse ^^^ b.reverse := by
  apply BitVec.eq_of_getLsbD_eq
  intro i hi
  simp [BitVec.getLsbD_reverse]

theorem reverse_ushiftRight_one (crc : BitVec w) : (crc >>> 1).reverse = crc.reverse <<< 1 := by
  apply BitVec.eq_of_getMsbD_eq
  intro i hi
  rw [BitVec.getMsbD_reverse, BitVec.getLsbD_ushiftRight, BitVec.getMsbD_shiftLeft,
    BitVec.getMsbD_reverse, Nat.add_comm]

theorem reverse_reflectedStep :
    (reflectedStep poly crc).reverse = crcBit poly.reverse crc.reverse false := by
  have hzero : (0#w).reverse = 0#w := BitVec.reverse_eq_zero_iff.mpr rfl
  rw [reflectedStep, reverse_xor, reverse_ushiftRight_one, crcBit, Bool.xor_false,
    BitVec.msb_reverse]
  split
  · rfl
  · rw [hzero, BitVec.xor_zero]

theorem reverse_iterate_reflectedStep (count : Nat) :
    ((reflectedStep poly)^[count] crc).reverse =
      crcBits poly.reverse crc.reverse (List.replicate count false) := by
  induction count generalizing crc with
  | zero => rfl
  | succ count ih =>
    rw [Function.iterate_succ_apply, ih, reverse_reflectedStep, List.replicate_succ, crcBits_cons]

/-- Bits that are added to the register in advance need not come in later. -/
theorem crcBits_advance (poly crc leading : BitVec w) {bits : List Bool}
    (hbits : (List.range bits.length).map leading.getMsbD = bits)
    (hshift : leading <<< bits.length = 0#w) :
    crcBits poly (crc ^^^ leading) (List.replicate bits.length false) = crcBits poly crc bits := by
  have hzero : bits.zipWith (· ^^ ·) bits = List.replicate bits.length false := by
    rw [List.zipWith_self]
    simp
  have hown : crcBits poly leading bits = 0#w := by
    rw [← hshift, ← crcBits_leading poly, hbits]
  rw [← hzero, crcBits_xor _ _ _ rfl, hown, BitVec.xor_zero]

/-- A byte that is added to the low end comes in lowest bit first. -/
theorem reverse_reflectedByte (hw : 8 ≤ w) (poly crc : BitVec w) (byte : BitVec 8) :
    ((reflectedStep poly)^[8] (crc ^^^ byte.setWidth w)).reverse =
      crcBits poly.reverse crc.reverse (wordBits byte).reverse := by
  have hlength : (wordBits byte).reverse.length = 8 := by simp
  have hbits : (List.range (wordBits byte).reverse.length).map
      ((byte.setWidth w).reverse.getMsbD) = (wordBits byte).reverse := by
    apply List.ext_getElem
    · simp
    · intro i hi hbyte
      rw [hlength] at hbyte
      have hplace : 8 - 1 - (8 - 1 - i) = i := by omega
      rw [List.getElem_map, List.getElem_range, BitVec.getMsbD_reverse, BitVec.getLsbD_setWidth,
        List.getElem_reverse]
      simp only [wordBits, List.getElem_map, List.getElem_range, List.length_map,
        List.length_range, BitVec.getMsbD_eq_getLsbD, hplace]
      rw [decide_eq_true (by omega : i < w), decide_eq_true (by omega : 8 - 1 - i < 8)]
  have hshift : (byte.setWidth w).reverse <<< (wordBits byte).reverse.length = 0#w := by
    apply BitVec.eq_of_getMsbD_eq
    intro i hi
    rw [BitVec.getMsbD_shiftLeft, BitVec.getMsbD_reverse, BitVec.getLsbD_setWidth, hlength,
      BitVec.getLsbD_of_ge _ _ (Nat.le_add_left ..)]
    simp
  rw [reverse_iterate_reflectedStep, reverse_xor, ← crcBits_advance _ _ _ hbits hshift, hlength]

end Reflected

/-! ## Where strings differ -/

/-- Strings of one length that differ at most within `count` consecutive places -/
def DifferWithin {α : Type} (count : Nat) (xs ys : List α) : Prop :=
  xs.length = ys.length ∧ ∃ start, ∀ i, xs[i]? ≠ ys[i]? → start ≤ i ∧ i < start + count

section DifferWithin

variable {α : Type} {count : Nat} {xs ys : List α}

theorem DifferWithin.drop (h : DifferWithin count xs ys) (k : Nat) :
    DifferWithin count (xs.drop k) (ys.drop k) := by
  obtain ⟨hlength, start, hplaces⟩ := h
  refine ⟨by rw [List.length_drop, List.length_drop, hlength], start - k, ?_⟩
  intro i hi
  rw [List.getElem?_drop, List.getElem?_drop] at hi
  have := hplaces (k + i) hi
  omega

/-- What stands before and behind the places is common. -/
theorem DifferWithin.split (h : DifferWithin count xs ys) :
    ∃ front part other back, xs = front ++ (part ++ back) ∧ ys = front ++ (other ++ back) ∧
      part.length = other.length ∧ part.length ≤ count := by
  obtain ⟨hlength, start, hplaces⟩ := h
  have hsame : ∀ i, ¬ (start ≤ i ∧ i < start + count) → xs[i]? = ys[i]? := by
    intro i hi
    by_contra hne
    exact hi (hplaces i hne)
  have hfront : xs.take start = ys.take start := by
    apply List.ext_getElem?
    intro i
    rw [List.getElem?_take, List.getElem?_take]
    split
    · exact hsame i (by omega)
    · rfl
  have hback : xs.drop (start + count) = ys.drop (start + count) := by
    apply List.ext_getElem?
    intro i
    rw [List.getElem?_drop, List.getElem?_drop]
    exact hsame _ (by omega)
  refine ⟨xs.take start, (xs.drop start).take count, (ys.drop start).take count,
    xs.drop (start + count), ?_, ?_, ?_, ?_⟩
  · rw [← List.drop_drop, List.take_append_drop, List.take_append_drop]
  · rw [hfront, hback, ← List.drop_drop, List.take_append_drop, List.take_append_drop]
  · simp [hlength]
  · rw [List.length_take]
    exact Nat.min_le_left ..

end DifferWithin

end EspMiner.Library
