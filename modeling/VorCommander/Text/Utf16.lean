import Mathlib.Data.List.Basic

/-!
UTF-16.

A character is one unit, or a pair of units of two ranges that no other character
uses. Units are bytes in one of two orders. What can be decoded is encoded again
to what it was.
-/

namespace VorCommander.Text

/-! ### Units -/

/-- `char::encode_utf16`. -/
def units (c : Char) : List UInt16 :=
  if c.toNat < 0x10000 then [UInt16.ofNat c.toNat]
  else [UInt16.ofNat (0xd800 + (c.toNat - 0x10000) / 0x400),
    UInt16.ofNat (0xdc00 + (c.toNat - 0x10000) % 0x400)]

/-- The first unit of a pair. -/
def isHighSurrogate (u : UInt16) : Bool := 0xd800 ≤ u.toNat && u.toNat < 0xdc00

/-- The second unit of a pair. -/
def isLowSurrogate (u : UInt16) : Bool := 0xdc00 ≤ u.toNat && u.toNat < 0xe000

/-- The character of a pair. -/
def pairChar (high low : UInt16) : Char :=
  Char.ofNat (0x10000 + (high.toNat - 0xd800) * 0x400 + (low.toNat - 0xdc00))

/-- `char::decode_utf16`, if no unit is left over. -/
def decodeUnits : List UInt16 → Option (List Char)
  | [] => some []
  | u :: rest =>
      if isHighSurrogate u then
        match rest with
        | [] => none
        | low :: rest =>
            if isLowSurrogate low then (decodeUnits rest).map (pairChar u low :: ·) else none
      else if isLowSurrogate u then none
      else (decodeUnits rest).map (Char.ofNat u.toNat :: ·)

theorem toNat_char {n : ℕ} (hvalid : n < 0xd800 ∨ 0xdfff < n ∧ n < 0x110000) :
    (Char.ofNat n).toNat = n := by
  rw [Char.ofNat, dif_pos hvalid]
  rfl

theorem decodeUnits_single {u : UInt16} (hhigh : isHighSurrogate u = false)
    (hlow : isLowSurrogate u = false) (rest : List UInt16) :
    decodeUnits (u :: rest) = (decodeUnits rest).map (Char.ofNat u.toNat :: ·) := by
  rw [decodeUnits.eq_def]
  simp [hhigh, hlow]

theorem decodeUnits_pair {high low : UInt16} (hhigh : isHighSurrogate high = true)
    (hlow : isLowSurrogate low = true) (rest : List UInt16) :
    decodeUnits (high :: low :: rest) = (decodeUnits rest).map (pairChar high low :: ·) := by
  simp only [decodeUnits, hhigh, hlow, if_true]

/-- A character is read from its units. -/
theorem decodeUnits_units_append (c : Char) (rest : List UInt16) :
    decodeUnits (units c ++ rest) = (decodeUnits rest).map (c :: ·) := by
  have hvalid : c.toNat < 0xd800 ∨ 0xdfff < c.toNat ∧ c.toNat < 0x110000 := c.valid
  rw [units]
  split_ifs with hsingle
  · have hunit : (UInt16.ofNat c.toNat).toNat = c.toNat := UInt16.toNat_ofNat_of_lt' hsingle
    have hhigh : isHighSurrogate (UInt16.ofNat c.toNat) = false := by
      simp only [isHighSurrogate, hunit, Bool.and_eq_false_iff, decide_eq_false_iff_not]
      omega
    have hlow : isLowSurrogate (UInt16.ofNat c.toNat) = false := by
      simp only [isLowSurrogate, hunit, Bool.and_eq_false_iff, decide_eq_false_iff_not]
      omega
    rw [List.singleton_append, decodeUnits_single hhigh hlow, hunit, Char.ofNat_toNat]
  · have hfirst : (UInt16.ofNat (0xd800 + (c.toNat - 0x10000) / 0x400)).toNat =
        0xd800 + (c.toNat - 0x10000) / 0x400 :=
          UInt16.toNat_ofNat_of_lt' (by rw [UInt16.size]; omega)
    have hsecond : (UInt16.ofNat (0xdc00 + (c.toNat - 0x10000) % 0x400)).toNat =
        0xdc00 + (c.toNat - 0x10000) % 0x400 :=
          UInt16.toNat_ofNat_of_lt' (by rw [UInt16.size]; omega)
    rw [List.cons_append, List.singleton_append, decodeUnits_pair, pairChar, hfirst, hsecond]
    · have hvalue : 0x10000 + (0xd800 + (c.toNat - 0x10000) / 0x400 - 0xd800) * 0x400 +
          (0xdc00 + (c.toNat - 0x10000) % 0x400 - 0xdc00) = c.toNat := by omega
      rw [hvalue, Char.ofNat_toNat]
    · simp only [isHighSurrogate, hfirst, Bool.and_eq_true, decide_eq_true_eq]
      omega
    · simp only [isLowSurrogate, hsecond, Bool.and_eq_true, decide_eq_true_eq]
      omega

/-- Encoded characters are decoded to themselves. -/
theorem decodeUnits_flatMap_units (cs : List Char) : decodeUnits (cs.flatMap units) = some cs := by
  induction cs with
  | nil => rfl
  | cons c cs ih => rw [List.flatMap_cons, decodeUnits_units_append, ih, Option.map_some]

/-! ### Bytes -/

inductive ByteOrder
  | little
  | big
  deriving DecidableEq

namespace ByteOrder

/-- `u16::from_le_bytes` and `u16::from_be_bytes`. -/
def unit : ByteOrder → UInt8 → UInt8 → UInt16
  | little, first, second => UInt16.ofNat (first.toNat + 256 * second.toNat)
  | big, first, second => UInt16.ofNat (256 * first.toNat + second.toNat)

/-- `u16::to_le_bytes` and `u16::to_be_bytes`. -/
def bytes : ByteOrder → UInt16 → List UInt8
  | little, u => [UInt8.ofNat (u.toNat % 256), UInt8.ofNat (u.toNat / 256)]
  | big, u => [UInt8.ofNat (u.toNat / 256), UInt8.ofNat (u.toNat % 256)]

/-- The units of an even number of bytes. -/
def chunks (order : ByteOrder) : List UInt8 → Option (List UInt16)
  | [] => some []
  | [_] => none
  | first :: second :: rest => (order.chunks rest).map (order.unit first second :: ·)

theorem chunks_bytes_append (order : ByteOrder) (u : UInt16) (rest : List UInt8) :
    order.chunks (order.bytes u ++ rest) = (order.chunks rest).map (u :: ·) := by
  have hbound := u.toNat_lt
  have hlow : (UInt8.ofNat (u.toNat % 256)).toNat = u.toNat % 256 :=
    UInt8.toNat_ofNat_of_lt' (by rw [UInt8.size]; omega)
  have hhigh : (UInt8.ofNat (u.toNat / 256)).toNat = u.toNat / 256 :=
    UInt8.toNat_ofNat_of_lt' (by rw [UInt8.size]; omega)
  cases order with
  | little =>
      have hvalue : u.toNat % 256 + 256 * (u.toNat / 256) = u.toNat := by omega
      rw [bytes, List.cons_append, List.singleton_append, chunks, unit, hlow, hhigh, hvalue,
        UInt16.ofNat_toNat]
  | big =>
      have hvalue : 256 * (u.toNat / 256) + u.toNat % 256 = u.toNat := by omega
      rw [bytes, List.cons_append, List.singleton_append, chunks, unit, hlow, hhigh, hvalue,
        UInt16.ofNat_toNat]

theorem chunks_flatMap_bytes (order : ByteOrder) (us : List UInt16) :
    order.chunks (us.flatMap order.bytes) = some us := by
  induction us with
  | nil => rfl
  | cons u us ih => rw [List.flatMap_cons, chunks_bytes_append, ih, Option.map_some]

end ByteOrder

end VorCommander.Text
