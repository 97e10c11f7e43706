import Mathlib.Algebra.Group.Nat.Defs
import Mathlib.Data.List.Basic

/-!
# JSON trees as a C reader sees them

The tree of a parsed JSON text, with the accessors of a C library: strings are
the bytes before the terminator, names are looked up without regard to case and
the first match counts, and a number is the bit pattern of a `double`.
-/

namespace EspMiner.Library

/-- The bytes of an ASCII text. -/
def cText (text : String) : List (BitVec 8) := text.toList.map fun c => BitVec.ofNat 8 c.toNat

inductive Json where
  | null
  | bool (value : Bool)
  | number (valuedouble : BitVec 64)
  | string (valuestring : List (BitVec 8))
  | array (items : List Json)
  | object (members : List (List (BitVec 8) × Json))

/-- `tolower` in the C locale. -/
def lowerByte (byte : BitVec 8) : BitVec 8 :=
  if 65 ≤ byte.toNat ∧ byte.toNat ≤ 90 then byte + 32 else byte

namespace Json

/-- The value under a name of an object. -/
def getObjectItem (json : Json) (name : String) : Option Json :=
  match json with
  | object members =>
      (members.find? fun member =>
        decide (member.1.map lowerByte = (cText name).map lowerByte)).map Prod.snd
  | _ => none

/-- The items of an array. -/
def arrayItems : Json → Option (List Json)
  | array items => some items
  | _ => none

def valuestring : Json → Option (List (BitVec 8))
  | string text => some text
  | _ => none

def boolValue : Json → Option Bool
  | bool value => some value
  | _ => none

def valuedouble : Json → Option (BitVec 64)
  | number value => some value
  | _ => none

def isObject : Json → Bool
  | object _ => true
  | _ => false

end Json

/-! ## Doubles that are integers -/

/-- The integer that a double is, if it is finite and has no fraction. -/
def doubleToInt (bits : BitVec 64) : Option Int :=
  let fraction := bits.toNat % 2 ^ 52
  let exponent := bits.toNat / 2 ^ 52 % 2 ^ 11
  let significand := if exponent = 0 then fraction else 2 ^ 52 + fraction
  -- the value is `significand * 2 ^ (scale - 1075)`
  let scale := max exponent 1
  let magnitude : Option Nat :=
    if exponent = 2047 then none
    else if 1075 ≤ scale then some (significand * 2 ^ (scale - 1075))
    else if significand % 2 ^ (1075 - scale) = 0 then some (significand / 2 ^ (1075 - scale))
    else none
  magnitude.map fun value => if bits.msb then -(value : Int) else (value : Int)

/-- Two is an integer, a half and the infinities are none. -/
example : doubleToInt 0x4000000000000000 = some 2 ∧ doubleToInt 0x3fe0000000000000 = none ∧
    doubleToInt 0x7ff0000000000000 = none := by decide +kernel

end EspMiner.Library
