import Mathlib.Algebra.Ring.Nat
import Mathlib.Data.List.GetD
import Mathlib.Data.List.Pairwise
import Mathlib.Logic.Function.Iterate

/-!
# SHA-256

The Secure Hash Standard's SHA-256 on messages of bytes: the functions on words,
the message schedule, the compression of one block, the padding and the digest.
A hash may be finished from the state behind the first blocks of its message.
-/

namespace EspMiner.Library.Sha256

abbrev Word := BitVec 32

/-! ### Functions on words -/

def ch (x y z : Word) : Word := (x &&& y) ^^^ (~~~x &&& z)

def maj (x y z : Word) : Word := (x &&& y) ^^^ (x &&& z) ^^^ (y &&& z)

def bigSigma0 (x : Word) : Word := x.rotateRight 2 ^^^ x.rotateRight 13 ^^^ x.rotateRight 22

def bigSigma1 (x : Word) : Word := x.rotateRight 6 ^^^ x.rotateRight 11 ^^^ x.rotateRight 25

def smallSigma0 (x : Word) : Word := x.rotateRight 7 ^^^ x.rotateRight 18 ^^^ x >>> 3

def smallSigma1 (x : Word) : Word := x.rotateRight 17 ^^^ x.rotateRight 19 ^^^ x >>> 10

/-- The first 32 bits of the fractional parts of the cube roots of the first 64
primes. -/
def constants : List Word :=
  [0x428a2f98, 0x71374491, 0xb5c0fbcf, 0xe9b5dba5, 0x3956c25b, 0x59f111f1, 0x923f82a4, 0xab1c5ed5,
    0xd807aa98, 0x12835b01, 0x243185be, 0x550c7dc3, 0x72be5d74, 0x80deb1fe, 0x9bdc06a7, 0xc19bf174,
    0xe49b69c1, 0xefbe4786, 0x0fc19dc6, 0x240ca1cc, 0x2de92c6f, 0x4a7484aa, 0x5cb0a9dc, 0x76f988da,
    0x983e5152, 0xa831c66d, 0xb00327c8, 0xbf597fc7, 0xc6e00bf3, 0xd5a79147, 0x06ca6351, 0x14292967,
    0x27b70a85, 0x2e1b2138, 0x4d2c6dfc, 0x53380d13, 0x650a7354, 0x766a0abb, 0x81c2c92e, 0x92722c85,
    0xa2bfe8a1, 0xa81a664b, 0xc24b8b70, 0xc76c51a3, 0xd192e819, 0xd6990624, 0xf40e3585, 0x106aa070,
    0x19a4c116, 0x1e376c08, 0x2748774c, 0x34b0bcb5, 0x391c0cb3, 0x4ed8aa4a, 0x5b9cca4f, 0x682e6ff3,
    0x748f82ee, 0x78a5636f, 0x84c87814, 0x8cc70208, 0x90befffa, 0xa4506ceb, 0xbef9a3f7, 0xc67178f2]

/-! ### One block -/

/-- A hash value, or the working variables of a compression. -/
structure State where
  a : Word
  b : Word
  c : Word
  d : Word
  e : Word
  f : Word
  g : Word
  h : Word
deriving DecidableEq

/-- The first 32 bits of the fractional parts of the square roots of the first
eight primes. -/
def initialState : State :=
  ⟨0x6a09e667, 0xbb67ae85, 0x3c6ef372, 0xa54ff53a, 0x510e527f, 0x9b05688c, 0x1f83d9ab, 0x5be0cd19⟩

namespace State

def words (s : State) : List Word := [s.a, s.b, s.c, s.d, s.e, s.f, s.g, s.h]

/-- The state with these eight words. -/
def ofWords (words : List Word) : State :=
  ⟨words.getD 0 0, words.getD 1 0, words.getD 2 0, words.getD 3 0, words.getD 4 0, words.getD 5 0,
    words.getD 6 0, words.getD 7 0⟩

theorem ofWords_words (s : State) : ofWords s.words = s := rfl

/-- One round, with its constant and its word of the message schedule. -/
def round (s : State) (constant scheduled : Word) : State :=
  let t1 := s.h + bigSigma1 s.e + ch s.e s.f s.g + constant + scheduled
  let t2 := bigSigma0 s.a + maj s.a s.b s.c
  ⟨t1 + t2, s.a, s.b, s.c, s.d + t1, s.e, s.f, s.g⟩

/-- Word by word addition. -/
def add (s t : State) : State :=
  ⟨s.a + t.a, s.b + t.b, s.c + t.c, s.d + t.d, s.e + t.e, s.f + t.f, s.g + t.g, s.h + t.h⟩

end State

/-- One more word of a message schedule. -/
def extend (schedule : List Word) : List Word :=
  let back (count : Nat) : Word := schedule.getD (schedule.length - count) 0
  schedule ++ [smallSigma1 (back 2) + back 7 + smallSigma0 (back 15) + back 16]

/-- The message schedule of the 16 words of a block. -/
def messageSchedule (block : List Word) : List Word := extend^[48] block

theorem length_extend (schedule : List Word) : (extend schedule).length = schedule.length + 1 := by
  simp [extend]

theorem length_iterate_extend (count : Nat) (schedule : List Word) :
    (extend^[count] schedule).length = schedule.length + count := by
  induction count with
  | zero => rfl
  | succ count ih => rw [Function.iterate_succ_apply', length_extend, ih, Nat.add_assoc]

/-- The hash value behind one more block. -/
def compress (s : State) (block : List Word) : State :=
  s.add ((constants.zip (messageSchedule block)).foldl (fun v step => v.round step.1 step.2) s)

/-! ### Bytes -/

/-- The big-endian word at the start of some bytes. -/
def beWord (bytes : List (BitVec 8)) : Word :=
  bytes.getD 0 0 ++ bytes.getD 1 0 ++ bytes.getD 2 0 ++ bytes.getD 3 0

/-- The bytes of a word, most significant first. -/
def wordBytes (word : Word) : List (BitVec 8) :=
  [word.extractLsb' 24 8, word.extractLsb' 16 8, word.extractLsb' 8 8, word.extractLsb' 0 8]

theorem beWord_wordBytes (word : Word) (rest : List (BitVec 8)) :
    beWord (wordBytes word ++ rest) = word := by
  apply BitVec.eq_of_getLsbD_eq
  intro i hi
  simp only [beWord, wordBytes, List.cons_append, List.nil_append, List.getD_cons_zero,
    List.getD_cons_succ]
  grind

/-- The big-endian words at the start of some bytes. -/
def beWords (count : Nat) (bytes : List (BitVec 8)) : List Word :=
  (List.range count).map fun i => beWord (bytes.drop (4 * i))

theorem drop_flatMap_wordBytes (words : List Word) (i : Nat) :
    (words.flatMap wordBytes).drop (4 * i) = (words.drop i).flatMap wordBytes := by
  induction words generalizing i with
  | nil => simp
  | cons word words ih =>
    cases i with
    | zero => rfl
    | succ i => exact ih i

/-- Words are read from their own bytes. -/
theorem beWords_flatMap_wordBytes (words : List Word) :
    beWords words.length (words.flatMap wordBytes) = words := by
  apply List.ext_getElem
  · simp [beWords]
  · intro i _ hi
    simp only [beWords, List.getElem_map, List.getElem_range]
    rw [drop_flatMap_wordBytes, List.drop_eq_getElem_cons hi, List.flatMap_cons, beWord_wordBytes]

/-- What follows the words does not matter. -/
theorem beWords_append {count : Nat} {bytes : List (BitVec 8)} (h : 4 * count ≤ bytes.length)
    (rest : List (BitVec 8)) : beWords count (bytes ++ rest) = beWords count bytes := by
  apply List.map_congr_left
  intro i hi
  have hlt := List.mem_range.mp hi
  have hword : 4 ≤ (bytes.drop (4 * i)).length := by
    rw [List.length_drop]
    omega
  have hbyte : ∀ k < 4, (bytes.drop (4 * i) ++ rest).getD k 0 = (bytes.drop (4 * i)).getD k 0 :=
    fun k hk => List.getD_append _ _ _ _ (Nat.lt_of_lt_of_le hk hword)
  rw [List.drop_append_of_le_length (by omega), beWord, hbyte 0 (by decide), hbyte 1 (by decide),
    hbyte 2 (by decide), hbyte 3 (by decide), beWord]

/-- The words of the block of 64 bytes at the start of some bytes. -/
def blockWords (bytes : List (BitVec 8)) : List Word := beWords 16 bytes

/-- The hash value behind some whole blocks. -/
def absorb (s : State) (bytes : List (BitVec 8)) : State :=
  (List.range (bytes.length / 64)).foldl
    (fun s i => compress s (blockWords (bytes.drop (64 * i)))) s

/-- The first block comes first. -/
theorem absorb_of_le {bytes : List (BitVec 8)} (h : 64 ≤ bytes.length) (s : State) :
    absorb s bytes = absorb (compress s (blockWords bytes)) (bytes.drop 64) := by
  obtain ⟨count, hcount⟩ : ∃ count, bytes.length / 64 = count + 1 :=
    ⟨bytes.length / 64 - 1, by omega⟩
  have hlater : (bytes.drop 64).length / 64 = count := by
    rw [List.length_drop]
    omega
  have hblock : ∀ i, bytes.drop (64 * (i + 1)) = (bytes.drop 64).drop (64 * i) := by
    intro i
    rw [List.drop_drop, Nat.mul_succ, Nat.add_comm]
  rw [absorb, absorb, hcount, hlater, List.range_succ_eq_map, List.foldl_cons, List.foldl_map]
  simp only [Nat.succ_eq_add_one, hblock, Nat.mul_zero, List.drop_zero]

/-- A rest that is no whole block is left over. -/
theorem absorb_of_lt {bytes : List (BitVec 8)} (h : bytes.length < 64) (s : State) :
    absorb s bytes = s := by
  rw [absorb, Nat.div_eq_of_lt h]
  rfl

/-- What is appended to a message of some length: a one bit, zeros, and the length
in bits. -/
def padding (length : Nat) : List (BitVec 8) :=
  [0x80] ++ List.replicate ((119 - length % 64) % 64) 0 ++
    (List.range 8).map fun i => BitVec.ofNat 8 (8 * length / 256 ^ (7 - i))

/-- The bytes of a hash value. -/
def State.digest (s : State) : List (BitVec 8) := s.words.flatMap wordBytes

/-- The hash value with these bytes. -/
def State.ofDigest (bytes : List (BitVec 8)) : State := .ofWords (beWords 8 bytes)

theorem State.ofDigest_digest (s : State) : State.ofDigest s.digest = s := by
  calc ofDigest s.digest = ofWords s.words :=
        congrArg ofWords (beWords_flatMap_wordBytes s.words)
    _ = s := ofWords_words s

theorem State.length_digest (s : State) : s.digest.length = 32 := rfl

end EspMiner.Library.Sha256

namespace EspMiner.Library

/-- SHA-256 -/
def sha256 (message : List (BitVec 8)) : List (BitVec 8) :=
  (Sha256.absorb Sha256.initialState (message ++ Sha256.padding message.length)).digest

open Sha256 in
/-- **A hash is finished from its midstate**, the state behind the first block. -/
theorem sha256_of_midstate {message : List (BitVec 8)} (h : 64 ≤ message.length) :
    sha256 message = (absorb (compress initialState (blockWords message))
      (message.drop 64 ++ padding message.length)).digest := by
  have hfirst : blockWords (message ++ padding message.length) = blockWords message :=
    beWords_append h _
  rw [sha256, absorb_of_le (by rw [List.length_append]; omega), hfirst,
    List.drop_append_of_le_length h]

example : sha256 [0x61, 0x62, 0x63] =
    [0xba, 0x78, 0x16, 0xbf, 0x8f, 0x01, 0xcf, 0xea, 0x41, 0x41, 0x40, 0xde, 0x5d, 0xae,
      0x22, 0x23, 0xb0, 0x03, 0x61, 0xa3, 0x96, 0x17, 0x7a, 0x9c, 0xb4, 0x10, 0xff, 0x61,
      0xf2, 0x00, 0x15, 0xad] := by
  decide +kernel

end EspMiner.Library
