import VorCommander.Crypto.Sha256

/-!
The cryptographic operations a program takes from libraries.

`Primitives` packages a hash function and a signature scheme over byte
strings. What a user may rely on beyond their types is a separate hypothesis,
so that a result says which law it needs.
-/

namespace VorCommander.Crypto

/-- A hash of 32 bytes. -/
abbrev Hash := Vector UInt8 32

/-- A public or secret key of 32 bytes. -/
abbrev Key := Vector UInt8 32

/-- A signature of 64 bytes. -/
abbrev Signature := Vector UInt8 64

/-- A hash function and a signature scheme. `isVerifyingKey` says which byte
strings are public keys. -/
structure Primitives where
  sha256 : List UInt8 → Hash
  isVerifyingKey : Key → Bool
  publicKey : Key → Key
  sign : Key → List UInt8 → Signature
  verify : Key → List UInt8 → Signature → Bool

/-- What a secret key signs is accepted by its public key, which is one. -/
structure Primitives.Correct (P : Primitives) : Prop where
  isVerifyingKey_publicKey : ∀ k, P.isVerifyingKey (P.publicKey k) = true
  verify_sign : ∀ k message, P.verify (P.publicKey k) message (P.sign k message) = true

/-- The keyed hash that stands for a signature where a concrete scheme is
needed: the tag of the message under the key, twice. -/
def keyedHash (k : Key) (message : List UInt8) : Signature :=
  Sha256.digest (k.toList ++ message) ++ Sha256.digest (message ++ k.toList)

/-- SHA-256 with the keyed-hash scheme. -/
def reference : Primitives where
  sha256 := Sha256.digest
  isVerifyingKey _ := true
  publicKey k := k
  sign := keyedHash
  verify k message signature := decide (signature = keyedHash k message)

theorem reference_correct : reference.Correct where
  isVerifyingKey_publicKey _ := rfl
  verify_sign k message := by simp [reference]

end VorCommander.Crypto
