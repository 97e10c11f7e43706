import Mathlib.Data.Nat.Bitwise
import Mathlib.Tactic.Ring

/-!
# Little-endian numbers

Numbers as their bytes, least significant first, and the loop that puts them
together with shifts.
-/

namespace EspMiner.Library

/-- The bytes of a region by their position. -/
theorem getD_of_drop_eq {bytes region : List (BitVec 8)} {offset : Nat}
    (h : bytes.drop offset = region) (i : Nat) : bytes.getD (offset + i) 0 = region.getD i 0 := by
  rw [← h]
  simp

/-- The low bytes of a number, least significant first. -/
def leBytes : Nat → Nat → List (BitVec 8)
  | 0, _ => []
  | count + 1, n => BitVec.ofNat 8 n :: leBytes count (n / 256)

/-- The number that little-endian bytes stand for. -/
def leValue : List (BitVec 8) → Nat
  | [] => 0
  | byte :: bytes => byte.toNat + 256 * leValue bytes

@[simp] theorem length_leBytes (count n : Nat) : (leBytes count n).length = count := by
  induction count generalizing n with
  | zero => rfl
  | succ count ih => simp only [leBytes, List.length_cons, ih]

theorem getElem_leBytes {count n i : Nat} (h : i < (leBytes count n).length) :
    (leBytes count n)[i] = BitVec.ofNat 8 (n / 256 ^ i) := by
  induction count generalizing n i with
  | zero => exact absurd h (Nat.not_lt_zero _)
  | succ count ih =>
    cases i with
    | zero => rw [Nat.pow_zero, Nat.div_one]; rfl
    | succ i =>
      have hnext := @ih (n / 256) i (by simpa using h)
      rw [Nat.div_div_eq_div_mul, ← Nat.pow_succ'] at hnext
      exact hnext

theorem leValue_lt (bytes : List (BitVec 8)) : leValue bytes < 256 ^ bytes.length := by
  induction bytes with
  | nil => simp [leValue]
  | cons byte bytes ih =>
    have hbyte : byte.toNat < 256 := byte.isLt
    simp only [leValue, List.length_cons, Nat.pow_succ]
    omega

theorem leValue_leBytes (count n : Nat) : leValue (leBytes count n) = n % 256 ^ count := by
  induction count generalizing n with
  | zero => simp [leBytes, leValue, Nat.mod_one]
  | succ count ih =>
    have hsplit : n % (256 * 256 ^ count) = n % 256 + 256 * (n / 256 % 256 ^ count) := Nat.mod_mul
    rw [leBytes, leValue, ih, Nat.pow_succ, Nat.mul_comm (256 ^ count), hsplit]
    rfl

/-- A number that fits is read back. -/
theorem leValue_leBytes_of_lt {count n : Nat} (h : n < 256 ^ count) :
    leValue (leBytes count n) = n := by
  rw [leValue_leBytes, Nat.mod_eq_of_lt h]

/-- A word is given by its bytes. -/
theorem leBytes_toNat_inj {w count : Nat} {a b : BitVec w} (hwidth : 2 ^ w = 256 ^ count)
    (h : leBytes count a.toNat = leBytes count b.toNat) : a = b := by
  apply BitVec.eq_of_toNat_eq
  calc a.toNat = leValue (leBytes count a.toNat) := (leValue_leBytes_of_lt (hwidth ▸ a.isLt)).symm
    _ = leValue (leBytes count b.toNat) := by rw [h]
    _ = b.toNat := leValue_leBytes_of_lt (hwidth ▸ b.isLt)

/-- Bytes are the bytes of their value. -/
theorem leBytes_leValue (bytes : List (BitVec 8)) :
    leBytes bytes.length (leValue bytes) = bytes := by
  induction bytes with
  | nil => rfl
  | cons byte bytes ih =>
    have hbyte : byte.toNat < 256 := byte.isLt
    have hhead : BitVec.ofNat 8 (byte.toNat + 256 * leValue bytes) = byte := by
      apply BitVec.eq_of_toNat_eq
      rw [BitVec.toNat_ofNat]
      omega
    have htail : (byte.toNat + 256 * leValue bytes) / 256 = leValue bytes := by omega
    rw [List.length_cons, leValue, leBytes, hhead, htail, ih]

/-- Bytes that fill a word are those of a word. -/
theorem exists_eq_leBytes {w : Nat} (bytes : List (BitVec 8)) (hwidth : w = 8 * bytes.length) :
    ∃ value : BitVec w, bytes = leBytes bytes.length value.toNat := by
  refine ⟨BitVec.ofNat w (leValue bytes), ?_⟩
  have hlt := leValue_lt bytes
  have hpow : (256 : Nat) ^ bytes.length = 2 ^ w := by rw [hwidth, Nat.pow_mul]
  rw [BitVec.toNat_ofNat, Nat.mod_eq_of_lt (hpow ▸ hlt), leBytes_leValue]

theorem leValue_append (bytes more : List (BitVec 8)) :
    leValue (bytes ++ more) = leValue bytes + 256 ^ bytes.length * leValue more := by
  induction bytes with
  | nil => simp [leValue]
  | cons byte bytes ih =>
    simp only [List.cons_append, leValue, ih, List.length_cons, Nat.pow_succ]
    ring

/-- One round of the loop: the next byte is put above those already read. -/
theorem toNat_or_shiftLeft {w count : Nat} {value : BitVec w} {byte : BitVec 8}
    (hvalue : value.toNat < 256 ^ count) (hwidth : 8 * (count + 1) ≤ w) :
    (value ||| byte.setWidth w <<< (8 * count)).toNat =
      value.toNat + 256 ^ count * byte.toNat := by
  have hpow : (256 : Nat) ^ count = 2 ^ (8 * count) := by rw [Nat.pow_mul]
  have hbyte : byte.toNat < 2 ^ 8 := byte.isLt
  have hsmall : byte.toNat * 2 ^ (8 * count) < 2 ^ w := by
    calc byte.toNat * 2 ^ (8 * count) < 2 ^ 8 * 2 ^ (8 * count) :=
          Nat.mul_lt_mul_of_pos_right hbyte (Nat.two_pow_pos _)
      _ = 2 ^ (8 * (count + 1)) := by rw [← Nat.pow_add]; congr 1; ring
      _ ≤ 2 ^ w := Nat.pow_le_pow_right (by decide) hwidth
  have hfit : byte.toNat < 2 ^ w :=
    hbyte.trans_le (Nat.pow_le_pow_right (by decide) (by omega))
  rw [BitVec.toNat_or, BitVec.toNat_shiftLeft, BitVec.toNat_setWidth, Nat.mod_eq_of_lt hfit,
    Nat.shiftLeft_eq, Nat.mod_eq_of_lt hsmall, ← Nat.shiftLeft_eq, Nat.lor_comm,
    ← Nat.shiftLeft_add_eq_or_of_lt (hpow ▸ hvalue), Nat.shiftLeft_eq, hpow]
  ring

/-- The loop over the bytes at the positions of a list. -/
theorem toNat_foldl_or_shiftLeft {w : Nat} (bytes : List (BitVec 8)) (byte : Nat → BitVec 8)
    (hbyte : ∀ i (h : i < bytes.length), byte i = bytes[i]) (hwidth : 8 * bytes.length ≤ w) :
    ((List.range bytes.length).foldl
      (fun value i => value ||| (byte i).setWidth w <<< (8 * i)) (0 : BitVec w)).toNat =
      leValue bytes := by
  have htake : ∀ count ≤ bytes.length, ((List.range count).foldl
      (fun value i => value ||| (byte i).setWidth w <<< (8 * i)) (0 : BitVec w)).toNat =
      leValue (bytes.take count) := by
    intro count hcount
    induction count with
    | zero => simp [leValue]
    | succ count ih =>
      have hlt : count < bytes.length := by omega
      have hpre := ih (by omega)
      have hlength : (bytes.take count).length = count := by
        rw [List.length_take]
        omega
      have hbelow := leValue_lt (bytes.take count)
      rw [hlength, ← hpre] at hbelow
      rw [List.range_succ, List.foldl_append, List.foldl_cons, List.foldl_nil,
        toNat_or_shiftLeft hbelow (by omega), hpre, hbyte count hlt,
        List.take_add_one, List.getElem?_eq_getElem hlt, leValue_append, hlength]
      simp [leValue]
  have hall := htake bytes.length (Nat.le_refl _)
  rwa [List.take_length] at hall

end EspMiner.Library
