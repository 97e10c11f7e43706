import EspMiner.Library.LittleEndian
import Mathlib.Data.List.TakeDrop

/-!
# Codecs

A `Codec` writes a value as bytes and reads it back from the front of a byte string.
Codecs of fields are put together to codecs of messages, and the law that a written
value is read back goes with them.
-/

namespace EspMiner.Library

/-- A format: the values it can carry, and how they stand in bytes. -/
structure Codec (α : Type) where
  valid : α → Prop
  encode : α → List (BitVec 8)
  decode : List (BitVec 8) → Option (α × List (BitVec 8))
  decode_append : ∀ a, valid a → ∀ rest, decode (encode a ++ rest) = some (a, rest)

namespace Codec

variable {α β : Type}

/-- A value that is all there is to read. -/
theorem decode_encode (c : Codec α) {a : α} (ha : c.valid a) :
    c.decode (c.encode a) = some (a, []) := by
  simpa using c.decode_append a ha []

/-! ## Fields -/

/-- A little-endian number of `count` bytes. -/
def word (w count : Nat) (hwidth : w = 8 * count) : Codec (BitVec w) where
  valid _ := True
  encode a := leBytes count a.toNat
  decode bytes :=
    if bytes.length < count then none
    else some (BitVec.ofNat w (leValue (bytes.take count)), bytes.drop count)
  decode_append a _ rest := by
    have hpow : 2 ^ w = 256 ^ count := by rw [hwidth, Nat.pow_mul]
    have hlt : a.toNat < 256 ^ count := by
      rw [← hpow]
      exact a.isLt
    have htake : (leBytes count a.toNat ++ rest).take count = leBytes count a.toNat :=
      List.take_left' (length_leBytes _ _)
    rw [if_neg (by simp), htake, leValue_leBytes_of_lt hlt, BitVec.ofNat_toNat,
      BitVec.setWidth_eq, List.drop_left' (length_leBytes _ _)]

/-- A byte. -/
def byte : Codec (BitVec 8) where
  valid _ := True
  encode a := [a]
  decode bytes :=
    match bytes with
    | [] => none
    | a :: rest => some (a, rest)
  decode_append _ _ _ := rfl

/-- A given number of bytes. -/
def fixed (n : Nat) : Codec (Vector (BitVec 8) n) where
  valid _ := True
  encode a := a.toList
  decode bytes :=
    if bytes.length < n then none
    else some (Vector.ofFn fun i => bytes.getD i 0, bytes.drop n)
  decode_append a _ rest := by
    have hlength : a.toList.length = n := a.length_toList
    have hvector : (Vector.ofFn fun i : Fin n => (a.toList ++ rest).getD i 0) = a := by
      ext i hi
      have hlt : i < a.toList.length := by rwa [hlength]
      rw [Vector.getElem_ofFn, List.getD_append _ _ _ _ hlt, List.getD_eq_getElem _ _ hlt,
        Vector.getElem_toList]
    rw [if_neg (by simp), hvector, List.drop_left' hlength]

/-- Up to `most` bytes behind the byte that counts them. -/
def counted (most : Nat) (hmost : most < 256) : Codec (List (BitVec 8)) where
  valid a := a.length ≤ most
  encode a := BitVec.ofNat 8 a.length :: a
  decode bytes :=
    match bytes with
    | [] => none
    | count :: rest =>
      if most < count.toNat ∨ rest.length < count.toNat then none
      else some (rest.take count.toNat, rest.drop count.toNat)
  decode_append a ha rest := by
    have hcount : (BitVec.ofNat 8 a.length).toNat = a.length := by
      rw [BitVec.toNat_ofNat, Nat.mod_eq_of_lt (by omega)]
    have hroom : ¬ (most < a.length ∨ (a ++ rest).length < a.length) := by
      rw [List.length_append]
      omega
    simp only [List.cons_append, hcount]
    rw [if_neg hroom, List.take_left, List.drop_left]

/-! ## Composition -/

/-- One field behind another. -/
def seq (c : Codec α) (d : Codec β) : Codec (α × β) where
  valid a := c.valid a.1 ∧ d.valid a.2
  encode a := c.encode a.1 ++ d.encode a.2
  decode bytes :=
    match c.decode bytes with
    | none => none
    | some (a, rest) =>
      match d.decode rest with
      | none => none
      | some (b, rest) => some ((a, b), rest)
  decode_append a ha rest := by
    simp only [List.append_assoc, c.decode_append a.1 ha.1, d.decode_append a.2 ha.2]

/-- The byte 1 and a value, or the byte 0. -/
def optional (c : Codec α) : Codec (Option α) where
  valid a := ∀ value ∈ a, c.valid value
  encode a :=
    match a with
    | none => [0]
    | some value => 1 :: c.encode value
  decode bytes :=
    match bytes with
    | [] => none
    | flag :: rest =>
      if flag = 1 then
        match c.decode rest with
        | none => none
        | some (value, rest) => some (some value, rest)
      else some (none, rest)
  decode_append a ha rest := by
    cases a with
    | none => simp
    | some value => simp [c.decode_append value (ha value rfl)]

/-- The values of another type that are made of the same fields. -/
def record (c : Codec α) (make : α → β) (fields : β → α) (h : ∀ b, make (fields b) = b) :
    Codec β where
  valid b := c.valid (fields b)
  encode b := c.encode (fields b)
  decode bytes :=
    match c.decode bytes with
    | none => none
    | some (a, rest) => some (make a, rest)
  decode_append b hb rest := by
    simp only [c.decode_append (fields b) hb, h]

/-- The values that also meet `p`. -/
def restrict (c : Codec α) (p : α → Prop) : Codec α where
  valid a := c.valid a ∧ p a
  encode := c.encode
  decode := c.decode
  decode_append a ha rest := c.decode_append a ha.1 rest

/-! ## What is written -/

section Encode

variable {c : Codec α} {d : Codec β}

@[simp] theorem word_encode {w count : Nat} {hwidth : w = 8 * count} (a : BitVec w) :
    (word w count hwidth).encode a = leBytes count a.toNat := rfl

@[simp] theorem byte_encode (a : BitVec 8) : byte.encode a = [a] := rfl

@[simp] theorem fixed_encode {n : Nat} (a : Vector (BitVec 8) n) :
    (fixed n).encode a = a.toList := rfl

@[simp] theorem counted_encode {most : Nat} {hmost : most < 256} (a : List (BitVec 8)) :
    (counted most hmost).encode a = [BitVec.ofNat 8 a.length] ++ a := rfl

@[simp] theorem seq_encode (a : α) (b : β) :
    (c.seq d).encode (a, b) = c.encode a ++ d.encode b := rfl

@[simp] theorem optional_encode_none : c.optional.encode none = [0] := rfl

@[simp] theorem optional_encode_some (a : α) :
    c.optional.encode (some a) = [1] ++ c.encode a := rfl

@[simp] theorem record_encode {make : α → β} {fields : β → α} {h : ∀ b, make (fields b) = b}
    (b : β) : (c.record make fields h).encode b = c.encode (fields b) := rfl

@[simp] theorem restrict_encode {p : α → Prop} (a : α) :
    (c.restrict p).encode a = c.encode a := rfl

end Encode

/-! ## What can be written -/

section Valid

variable {c : Codec α} {d : Codec β}

@[simp] theorem word_valid {w count : Nat} {hwidth : w = 8 * count} (a : BitVec w) :
    (word w count hwidth).valid a := trivial

@[simp] theorem byte_valid (a : BitVec 8) : byte.valid a := trivial

@[simp] theorem fixed_valid {n : Nat} (a : Vector (BitVec 8) n) : (fixed n).valid a := trivial

@[simp] theorem counted_valid {most : Nat} {hmost : most < 256} (a : List (BitVec 8)) :
    (counted most hmost).valid a ↔ a.length ≤ most := Iff.rfl

@[simp] theorem seq_valid (a : α) (b : β) : (c.seq d).valid (a, b) ↔ c.valid a ∧ d.valid b :=
  Iff.rfl

@[simp] theorem optional_valid (a : Option α) :
    c.optional.valid a ↔ ∀ value ∈ a, c.valid value := Iff.rfl

@[simp] theorem record_valid {make : α → β} {fields : β → α} {h : ∀ b, make (fields b) = b}
    (b : β) : (c.record make fields h).valid b ↔ c.valid (fields b) := Iff.rfl

@[simp] theorem restrict_valid {p : α → Prop} (a : α) :
    (c.restrict p).valid a ↔ c.valid a ∧ p a := Iff.rfl

end Valid

end Codec

end EspMiner.Library
