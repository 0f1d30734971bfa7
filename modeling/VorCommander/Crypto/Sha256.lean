import Mathlib.Algebra.BigOperators.Group.Finset.Basic
import Mathlib.Algebra.Order.Ring.Nat
import Mathlib.Data.List.Basic

/-!
SHA-256 over lists of bytes.

Rotations and additions are those of 32-bit words; the message is padded with
a one bit, zeros and its length in bits, and compressed in blocks of sixteen
words.
-/

namespace VorCommander.Crypto.Sha256

/-- The round constants. -/
def roundConstants : List UInt32 :=
  [0x428a2f98, 0x71374491, 0xb5c0fbcf, 0xe9b5dba5, 0x3956c25b, 0x59f111f1, 0x923f82a4, 0xab1c5ed5,
   0xd807aa98, 0x12835b01, 0x243185be, 0x550c7dc3, 0x72be5d74, 0x80deb1fe, 0x9bdc06a7, 0xc19bf174,
   0xe49b69c1, 0xefbe4786, 0x0fc19dc6, 0x240ca1cc, 0x2de92c6f, 0x4a7484aa, 0x5cb0a9dc, 0x76f988da,
   0x983e5152, 0xa831c66d, 0xb00327c8, 0xbf597fc7, 0xc6e00bf3, 0xd5a79147, 0x06ca6351, 0x14292967,
   0x27b70a85, 0x2e1b2138, 0x4d2c6dfc, 0x53380d13, 0x650a7354, 0x766a0abb, 0x81c2c92e, 0x92722c85,
   0xa2bfe8a1, 0xa81a664b, 0xc24b8b70, 0xc76c51a3, 0xd192e819, 0xd6990624, 0xf40e3585, 0x106aa070,
   0x19a4c116, 0x1e376c08, 0x2748774c, 0x34b0bcb5, 0x391c0cb3, 0x4ed8aa4a, 0x5b9cca4f, 0x682e6ff3,
   0x748f82ee, 0x78a5636f, 0x84c87814, 0x8cc70208, 0x90befffa, 0xa4506ceb, 0xbef9a3f7, 0xc67178f2]

/-- The chaining state: eight words. -/
structure Words where
  (a b c d e f g h : UInt32)

/-- The initial chaining state. -/
def initialWords : Words :=
  ⟨0x6a09e667, 0xbb67ae85, 0x3c6ef372, 0xa54ff53a, 0x510e527f, 0x9b05688c, 0x1f83d9ab, 0x5be0cd19⟩

/-- Rotation to the right. -/
def rotateRight (x : UInt32) (n : UInt32) : UInt32 := (x >>> n) ||| (x <<< (32 - n))

/-- One more word of the message schedule; the schedule is kept newest first. -/
def nextWord (schedule : List UInt32) : UInt32 :=
  let w15 := schedule.getD 14 0
  let w2 := schedule.getD 1 0
  let s0 := rotateRight w15 7 ^^^ rotateRight w15 18 ^^^ (w15 >>> 3)
  let s1 := rotateRight w2 17 ^^^ rotateRight w2 19 ^^^ (w2 >>> 10)
  schedule.getD 15 0 + s0 + schedule.getD 6 0 + s1

/-- The schedule extended by `n` words, newest first. -/
def extendSchedule : ℕ → List UInt32 → List UInt32
  | 0, schedule => schedule
  | n + 1, schedule => extendSchedule n (nextWord schedule :: schedule)

/-- One round. -/
def round (s : Words) (k w : UInt32) : Words :=
  let s1 := rotateRight s.e 6 ^^^ rotateRight s.e 11 ^^^ rotateRight s.e 25
  let ch := (s.e &&& s.f) ^^^ ((~~~ s.e) &&& s.g)
  let t1 := s.h + s1 + ch + k + w
  let s0 := rotateRight s.a 2 ^^^ rotateRight s.a 13 ^^^ rotateRight s.a 22
  let maj := (s.a &&& s.b) ^^^ (s.a &&& s.c) ^^^ (s.b &&& s.c)
  ⟨t1 + (s0 + maj), s.a, s.b, s.c, s.d + t1, s.e, s.f, s.g⟩

/-- The compression of one block of sixteen words. -/
def compress (s : Words) (block : List UInt32) : Words :=
  let schedule := (extendSchedule 48 block.reverse).reverse
  let t := (roundConstants.zip schedule).foldl (fun s kw => round s kw.1 kw.2) s
  ⟨s.a + t.a, s.b + t.b, s.c + t.c, s.d + t.d, s.e + t.e, s.f + t.f, s.g + t.g, s.h + t.h⟩

/-- The big-endian word of four bytes. -/
def wordOfBytes (a b c d : UInt8) : UInt32 :=
  (a.toUInt32 <<< 24) ||| (b.toUInt32 <<< 16) ||| (c.toUInt32 <<< 8) ||| d.toUInt32

/-- Big-endian words of a message whose length is a multiple of four. -/
def toWords : List UInt8 → List UInt32
  | a :: b :: c :: d :: rest => wordOfBytes a b c d :: toWords rest
  | _ => []

/-- The bytes of a word, the most significant first. -/
def bytesOfWord (w : UInt32) : List UInt8 :=
  [(w >>> 24).toUInt8, (w >>> 16).toUInt8, (w >>> 8).toUInt8, w.toUInt8]

/-- The big-endian bytes of a 64-bit length. -/
def lengthBytes (n : ℕ) : List UInt8 :=
  (List.range 8).map fun i => UInt8.ofNat (n / 256 ^ (7 - i))

/-- The padded message. -/
def pad (message : List UInt8) : List UInt8 :=
  message ++ 0x80 :: List.replicate ((119 - message.length % 64) % 64) 0 ++
    lengthBytes (8 * message.length)

/-- The state after `n` blocks. -/
def compressBlocks : ℕ → Words → List UInt32 → Words
  | 0, s, _ => s
  | n + 1, s, words => compressBlocks n (compress s (words.take 16)) (words.drop 16)

/-- The digest of a message. Proofs never look inside it. -/
@[irreducible] def digest (message : List UInt8) : Vector UInt8 32 :=
  let words := toWords (pad message)
  let s := compressBlocks (words.length / 16) initialWords words
  let bytes := [s.a, s.b, s.c, s.d, s.e, s.f, s.g, s.h].flatMap bytesOfWord
  ⟨bytes.toArray, by simp [bytes, bytesOfWord]⟩

end VorCommander.Crypto.Sha256
