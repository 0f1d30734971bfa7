import VorCommander.Text.Base64
import VorCommander.Text.Delimited

/-!
How many bytes a JSON text has.

The characters of a string may be escaped, digits and what Base64 writes never are.
An object has the bytes of its names and values and the marks between them.
-/

namespace VorCommander.Text

/-! ### Strings -/

/-- The characters that a JSON string keeps as they are, in one byte. -/
def PlainJson (cs : List Char) : Prop := ∀ c ∈ cs, escapeChar c = [c] ∧ c.utf8Size = 1

-- character by character, since there are finitely many characters to decide it for otherwise
instance (cs : List Char) : Decidable (PlainJson cs) :=
  decidable_of_iff (cs.all fun c => decide (escapeChar c = [c] ∧ c.utf8Size = 1) = true)
    (by simp [PlainJson])

/-- The bytes of a JSON string, with its quotes. -/
def quotedLength (s : String) : ℕ := (s.toList.map fun c => String.utf8Len (escapeChar c)).sum + 2

theorem utf8Len_flatMap_escapeChar (cs : List Char) :
    String.utf8Len (cs.flatMap escapeChar) =
      (cs.map fun c => String.utf8Len (escapeChar c)).sum := by
  induction cs with
  | nil => rfl
  | cons c cs ih => rw [List.flatMap_cons, String.utf8Len_append, ih, List.map_cons, List.sum_cons]

theorem utf8Len_encodeString (s : String) :
    String.utf8Len (encodeString s) = quotedLength s := by
  have hquote : '"'.utf8Size = 1 := by decide
  rw [encodeString, String.utf8Len_append, String.utf8Len_cons, utf8Len_flatMap_escapeChar,
    String.utf8Len_cons, String.utf8Len_nil, hquote, quotedLength]

theorem quotedLength_of_plain {s : String} (h : PlainJson s.toList) :
    quotedLength s = s.toList.length + 2 := by
  have hone : s.toList.map (fun c => String.utf8Len (escapeChar c)) =
      s.toList.map fun _ => 1 := by
    apply List.map_congr_left
    intro c hc
    obtain ⟨hescape, hsize⟩ := h c hc
    rw [hescape, String.utf8Len_cons, hsize, String.utf8Len_nil]
  rw [quotedLength, hone, List.map_const', List.sum_replicate_nat, mul_one]

theorem plainJson_encode (bytes : List UInt8) : PlainJson (Base64.encode bytes).toList := by
  have hplain : PlainJson ('=' :: Base64.alphabet) := by decide
  exact fun c hc => hplain c (Base64.mem_encode hc)

theorem plainJson_hexEncode (bytes : List UInt8) : PlainJson (hexEncode bytes).toList := by
  have hdigit : ∀ n < 16, escapeChar (hexDigit n) = [hexDigit n] ∧ (hexDigit n).utf8Size = 1 := by
    decide
  intro c hc
  rw [hexEncode, String.toList_ofList] at hc
  obtain ⟨b, -, hb⟩ := List.mem_flatMap.mp hc
  have hlt := b.toNat_lt
  rcases List.mem_pair.mp hb with rfl | rfl
  · exact hdigit _ (by omega)
  · exact hdigit _ (by omega)

theorem quotedLength_encode (bytes : List UInt8) :
    quotedLength (Base64.encode bytes) = 4 * ((bytes.length + 2) / 3) + 2 := by
  rw [quotedLength_of_plain (plainJson_encode bytes), Base64.length_encode]

theorem quotedLength_hexEncode (bytes : List UInt8) :
    quotedLength (hexEncode bytes) = 2 * bytes.length + 2 := by
  have hlength := byteLength_of_narrow fun c hc => (plainJson_hexEncode bytes c hc).2
  rw [String.ofList_toList, byteLength_hexEncode] at hlength
  rw [quotedLength_of_plain (plainJson_hexEncode bytes), ← hlength]

/-! ### Values -/

/-- A number has a byte for each digit. -/
theorem utf8Len_encodeNat (n : ℕ) : String.utf8Len (encodeNat n) = (encodeNat n).length := by
  rw [← String.utf8ByteSize_ofList]
  refine byteLength_of_narrow fun c hc => ?_
  have hrange := (isDigit_iff c).mp (isDigit_of_mem_encodeNat hc)
  refine Char.utf8Size_eq_one_iff.mpr (UInt32.le_iff_toNat_le.mpr ?_)
  change c.toNat ≤ 127
  omega

theorem length_encodeNat_le {n e : ℕ} (he : 0 < e) (hn : n < 10 ^ e) : (encodeNat n).length ≤ e :=
  (Nat.length_toDigits_le_iff (by omega) he).mpr hn

theorem utf8Len_commaSeparated {pieces : List (List Char)} (h : pieces ≠ []) :
    String.utf8Len (commaSeparated pieces) + 1 =
      (pieces.map fun piece => String.utf8Len piece + 1).sum := by
  have hcomma : ','.utf8Size = 1 := by decide
  induction pieces with
  | nil => exact absurd rfl h
  | cons piece pieces ih =>
      cases pieces with
      | nil => rfl
      | cons next pieces =>
          rw [commaSeparated, String.utf8Len_append, String.utf8Len_cons, hcomma, List.map_cons,
            List.sum_cons, ← ih (by simp)]
          omega
          simp

namespace Value

/-- The bytes of a value. -/
def length (v : Value) : ℕ := String.utf8Len v.encode

theorem length_toBytes (v : Value) : v.toBytes.length = v.length := by
  rw [length, ← String.utf8ByteSize_ofList]
  rfl

@[simp] theorem length_string (s : String) : (string s).length = quotedLength s := by
  rw [length, encode, utf8Len_encodeString]

@[simp] theorem length_posInt (n : ℕ) : (posInt n).length = (encodeNat n).length := by
  rw [length, encode, utf8Len_encodeNat]

theorem encodeMembers_eq_map (members : List (String × Value)) :
    encodeMembers members = members.map fun m => (m.1, m.2.encode) := by
  induction members with
  | nil => rfl
  | cons member members ih => rw [encodeMembers, ih, List.map_cons]

/-- Two marks for each member, and one more for the object. -/
theorem length_object {members : List (String × Value)} (h : members ≠ []) :
    (object members).length =
      (members.map fun m => quotedLength m.1 + m.2.length + 2).sum + 1 := by
  have hmarks : ':'.utf8Size = 1 ∧ '\x7b'.utf8Size = 1 ∧ '\x7d'.utf8Size = 1 := by decide
  have hpiece : ∀ m : String × Value,
      String.utf8Len (encodeString m.1 ++ ':' :: m.2.encode) + 1 =
        quotedLength m.1 + m.2.length + 2 := by
    intro m
    rw [String.utf8Len_append, utf8Len_encodeString, String.utf8Len_cons, hmarks.1, length]
    omega
  have hmembers : (encodeMembers members).map (fun m => encodeString m.1 ++ ':' :: m.2) =
      members.map fun m => encodeString m.1 ++ ':' :: m.2.encode := by
    rw [encodeMembers_eq_map, List.map_map]
    rfl
  have hsum := utf8Len_commaSeparated
    (mt List.map_eq_nil_iff.mp h : members.map
      (fun m => encodeString m.1 ++ ':' :: m.2.encode) ≠ [])
  simp only [List.map_map, Function.comp_def, hpiece] at hsum
  rw [length, encode, encodeObject, hmembers, String.utf8Len_append, String.utf8Len_cons,
    String.utf8Len_cons, String.utf8Len_nil, hmarks.2.1, hmarks.2.2, ← hsum]

end Value

end VorCommander.Text
