import EspMiner.Asic.Job

/-!
# SHA-256 midstates

`components/stratum/utils.c`: the SHA-256 state after the first 64 bytes of a
block header, the hash of a whole header, and the byte swap that the Bonanza work
registers want.
-/

namespace EspMiner

/-- `sha256_rotr` -/
def sha256Rotr (value : U32) (shift : Nat) : U32 := (value >>> shift) ||| (value <<< (32 - shift))

/-- `sha256_load_be32` at byte offset `offset`. -/
def sha256LoadBe32 (data : List U8) (offset : Nat) : U32 :=
  let byte (i : Nat) : U32 := (data.getD (offset + i) 0).setWidth 32
  (byte 0 <<< 24) ||| (byte 1 <<< 16) ||| (byte 2 <<< 8) ||| byte 3

/-- `sha256_store_be32` -/
def sha256StoreBe32 (value : U32) : List U8 :=
  [(value >>> 24).setWidth 8, (value >>> 16).setWidth 8, (value >>> 8).setWidth 8,
    value.setWidth 8]

/-- `sha256_round_constants` -/
def sha256RoundConstants : List U32 :=
  [0x428a2f98, 0x71374491, 0xb5c0fbcf, 0xe9b5dba5,
    0x3956c25b, 0x59f111f1, 0x923f82a4, 0xab1c5ed5,
    0xd807aa98, 0x12835b01, 0x243185be, 0x550c7dc3,
    0x72be5d74, 0x80deb1fe, 0x9bdc06a7, 0xc19bf174,
    0xe49b69c1, 0xefbe4786, 0x0fc19dc6, 0x240ca1cc,
    0x2de92c6f, 0x4a7484aa, 0x5cb0a9dc, 0x76f988da,
    0x983e5152, 0xa831c66d, 0xb00327c8, 0xbf597fc7,
    0xc6e00bf3, 0xd5a79147, 0x06ca6351, 0x14292967,
    0x27b70a85, 0x2e1b2138, 0x4d2c6dfc, 0x53380d13,
    0x650a7354, 0x766a0abb, 0x81c2c92e, 0x92722c85,
    0xa2bfe8a1, 0xa81a664b, 0xc24b8b70, 0xc76c51a3,
    0xd192e819, 0xd6990624, 0xf40e3585, 0x106aa070,
    0x19a4c116, 0x1e376c08, 0x2748774c, 0x34b0bcb5,
    0x391c0cb3, 0x4ed8aa4a, 0x5b9cca4f, 0x682e6ff3,
    0x748f82ee, 0x78a5636f, 0x84c87814, 0x8cc70208,
    0x90befffa, 0xa4506ceb, 0xbef9a3f7, 0xc67178f2]

/-- `sha256_initial_state` -/
def sha256InitialState : List U32 :=
  [0x6a09e667, 0xbb67ae85, 0x3c6ef372, 0xa54ff53a,
    0x510e527f, 0x9b05688c, 0x1f83d9ab, 0x5be0cd19]

/-- The message schedule of one 64-byte block. -/
def sha256Schedule (data : List U8) : Array U32 :=
  let loaded : Array U32 := ((List.range 16).map fun i => sha256LoadBe32 data (i * 4)).toArray
  (List.range' 16 48).foldl (fun schedule i =>
    let word (back : Nat) : U32 := schedule.getD (i - back) 0
    let s0 := sha256Rotr (word 15) 7 ^^^ sha256Rotr (word 15) 18 ^^^ (word 15 >>> 3)
    let s1 := sha256Rotr (word 2) 17 ^^^ sha256Rotr (word 2) 19 ^^^ (word 2 >>> 10)
    schedule.push (word 16 + s0 + word 7 + s1)) loaded

/-- The eight working variables of the compression loop. -/
structure Sha256Working where
  a : U32
  b : U32
  c : U32
  d : U32
  e : U32
  f : U32
  g : U32
  h : U32

/-- One round of the compression loop. -/
def Sha256Working.round (w : Sha256Working) (constant scheduled : U32) : Sha256Working :=
  let sum1 := sha256Rotr w.e 6 ^^^ sha256Rotr w.e 11 ^^^ sha256Rotr w.e 25
  let choose := (w.e &&& w.f) ^^^ (~~~w.e &&& w.g)
  let temp1 := w.h + sum1 + choose + constant + scheduled
  let sum0 := sha256Rotr w.a 2 ^^^ sha256Rotr w.a 13 ^^^ sha256Rotr w.a 22
  let majority := (w.a &&& w.b) ^^^ (w.a &&& w.c) ^^^ (w.b &&& w.c)
  let temp2 := sum0 + majority
  { a := temp1 + temp2, b := w.a, c := w.b, d := w.c, e := w.d + temp1, f := w.e, g := w.f,
    h := w.g }

/-- `midstate_sha256_bin` -/
def midstateSha256Bin (data : List U8) : List U8 :=
  if data.length ≠ 64 then List.replicate 32 0
  else
    let schedule := sha256Schedule data
    let initial (i : Nat) : U32 := sha256InitialState.getD i 0
    let start : Sha256Working := ⟨initial 0, initial 1, initial 2, initial 3, initial 4, initial 5,
      initial 6, initial 7⟩
    let w := (List.range 64).foldl (fun w i =>
      w.round (sha256RoundConstants.getD i 0) (schedule.getD i 0)) start
    (List.zipWith (fun initial working => sha256StoreBe32 (initial + working)) sha256InitialState
      [w.a, w.b, w.c, w.d, w.e, w.f, w.g, w.h]).flatten

/-- `sha256_bin`.  `psa_hash_compute` is a parameter; `none` is a status other than
PSA_SUCCESS. -/
def sha256Bin (psaHashCompute : List U8 → Option (List U8)) (data : List U8) : List U8 :=
  match psaHashCompute data with
  | some digest => if digest.length = 32 then digest else List.replicate 32 0
  | none => List.replicate 32 0

/-- `double_sha256_bin` -/
def doubleSha256Bin (psaHashCompute : List U8 → Option (List U8)) (data : List U8) : List U8 :=
  sha256Bin psaHashCompute (sha256Bin psaHashCompute data)

/-- `reverse_endianness_per_word` on 32 bytes. -/
def reverseEndiannessPerWord (data : List U8) : List U8 :=
  (List.range 8).flatMap fun word =>
    (List.range 4).map fun byte => data.getD (4 * word + (3 - byte)) 0

end EspMiner
