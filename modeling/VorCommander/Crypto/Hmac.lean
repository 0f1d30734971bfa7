import Mathlib.Data.List.Basic

/-!
Keyed hashing, as RFC 2104 defines it.

The key is hashed if it is longer than a block and filled up with zeros to one.
The hash of the text under the key with one padding is hashed again under the key
with the other.
-/

namespace VorCommander.Crypto

/-- The bytes of a block and of a padding combined. -/
def xorWith (pad : UInt8) (block : List UInt8) : List UInt8 := block.map (· ^^^ pad)

/-- A key of the length of a block. -/
def blockKey (hash : List UInt8 → List UInt8) (blockLength : ℕ) (key : List UInt8) : List UInt8 :=
  (if blockLength < key.length then hash key else key).rightpad blockLength 0

/-- `H(K XOR opad, H(K XOR ipad, text))`. -/
def hmac (hash : List UInt8 → List UInt8) (blockLength : ℕ) (key text : List UInt8) : List UInt8 :=
  let K := blockKey hash blockLength key
  hash (xorWith 0x5c K ++ hash (xorWith 0x36 K ++ text))

theorem length_blockKey {hash : List UInt8 → List UInt8} {blockLength : ℕ} {key : List UInt8}
    (h : (hash key).length ≤ blockLength) :
    (blockKey hash blockLength key).length = blockLength := by
  rw [blockKey, List.length_rightpad]
  split <;> omega

end VorCommander.Crypto
