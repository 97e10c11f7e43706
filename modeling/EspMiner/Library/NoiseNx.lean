import Mathlib.Data.List.Basic

/-!
# Handshakes of the Noise framework

The symmetric state of the framework and the pattern NX: the initiator sends an ephemeral key,
the responder answers with an ephemeral key of its own, its static key and a payload, the last
two encrypted.  An initiator that reads the answer of a responder ends in the responder's state.
-/

namespace EspMiner.Library.Noise

abbrev Bytes : Type := List (BitVec 8)

/-- The functions of a protocol name: the hash, the key derivation with two outputs and the
cipher, whose nonces are numbers. -/
structure Suite (κ : Type) where
  hash : Bytes → Bytes
  hkdf : Bytes → Bytes → κ × κ
  keyBytes : κ → Bytes
  encrypt : κ → Nat → Bytes → Bytes → Bytes
  decrypt : κ → Nat → Bytes → Bytes → Option Bytes
  decrypt_encrypt : ∀ key n aad plaintext,
    decrypt key n aad (encrypt key n aad plaintext) = some plaintext

structure SymmetricState (κ : Type) where
  ck : Bytes
  h : Bytes
  k : Option κ
  n : Nat

namespace SymmetricState

variable {κ : Type} (suite : Suite κ)

/-- The state for a protocol name that is longer than a hash -/
def start (name : Bytes) : SymmetricState κ := ⟨suite.hash name, suite.hash name, none, 0⟩

def mixHash (s : SymmetricState κ) (data : Bytes) : SymmetricState κ :=
  { s with h := suite.hash (s.h ++ data) }

def mixKey (s : SymmetricState κ) (ikm : Bytes) : SymmetricState κ :=
  let (ck, k) := suite.hkdf s.ck ikm
  { s with ck := suite.keyBytes ck, k := some k, n := 0 }

def encryptAndHash (s : SymmetricState κ) (plaintext : Bytes) : Bytes × SymmetricState κ :=
  match s.k with
  | none => (plaintext, s.mixHash suite plaintext)
  | some k =>
      let ciphertext := suite.encrypt k s.n s.h plaintext
      (ciphertext, { s.mixHash suite ciphertext with n := s.n + 1 })

def decryptAndHash (s : SymmetricState κ) (ciphertext : Bytes) :
    Option (Bytes × SymmetricState κ) :=
  match s.k with
  | none => some (ciphertext, s.mixHash suite ciphertext)
  | some k =>
      (suite.decrypt k s.n s.h ciphertext).map fun plaintext =>
        (plaintext, { s.mixHash suite ciphertext with n := s.n + 1 })

/-- The keys of the two directions, the initiator's first -/
def split (s : SymmetricState κ) : κ × κ := suite.hkdf s.ck []

/-- Both sides of an encryption end in the same state. -/
theorem decryptAndHash_encryptAndHash (s : SymmetricState κ) (plaintext : Bytes) :
    s.decryptAndHash suite (s.encryptAndHash suite plaintext).1
      = some (plaintext, (s.encryptAndHash suite plaintext).2) := by
  unfold decryptAndHash encryptAndHash
  cases s.k with
  | none => rfl
  | some k => simp only [suite.decrypt_encrypt, Option.map_some]

end SymmetricState

/-! ## The pattern NX -/

section Nx

variable {κ : Type} (suite : Suite κ)

/-- The state of both sides behind the first message, the ephemeral key of the initiator -/
def nxBegin (name prologue ephemeral : Bytes) : SymmetricState κ :=
  let s := (SymmetricState.start suite name).mixHash suite prologue
  ((s.mixHash suite ephemeral).encryptAndHash suite []).2

/-- The answer of a responder: its ephemeral key, its static key and the payload, encrypted,
and the state behind it.  `ee` and `es` are the secrets that its keys share with the initiator's
ephemeral key. -/
def nxRespond (s : SymmetricState κ) (ephemeral ee static es payload : Bytes) :
    (Bytes × Bytes × Bytes) × SymmetricState κ :=
  let s := (s.mixHash suite ephemeral).mixKey suite ee
  let (encStatic, s) := s.encryptAndHash suite static
  let (encPayload, s) := (s.mixKey suite es).encryptAndHash suite payload
  ((ephemeral, encStatic, encPayload), s)

/-- The initiator reads an answer; `dh` gives the secret that it shares with a key. -/
def nxRead (s : SymmetricState κ) (dh : Bytes → Option Bytes) (message : Bytes × Bytes × Bytes) :
    Option (Bytes × Bytes × SymmetricState κ) := do
  let ee ← dh message.1
  let s := (s.mixHash suite message.1).mixKey suite ee
  let (static, s) ← s.decryptAndHash suite message.2.1
  let es ← dh static
  let (payload, s) ← (s.mixKey suite es).decryptAndHash suite message.2.2
  return (static, payload, s)

/-- Where both sides have the same secrets, the initiator gets the static key and the payload
and ends in the state of the responder. -/
theorem nxRead_nxRespond {s : SymmetricState κ} {dh : Bytes → Option Bytes}
    {ephemeral ee static es : Bytes} (hee : dh ephemeral = some ee) (hes : dh static = some es)
    (payload : Bytes) :
    nxRead suite s dh (nxRespond suite s ephemeral ee static es payload).1
      = some (static, payload, (nxRespond suite s ephemeral ee static es payload).2) := by
  simp only [nxRead, nxRespond, hee, hes, Option.bind_eq_bind, Option.bind_some,
    SymmetricState.decryptAndHash_encryptAndHash, Option.pure_def]

end Nx

end EspMiner.Library.Noise
