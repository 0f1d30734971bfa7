import Mathlib.Algebra.Order.Ring.Nat
import Mathlib.Data.List.GetD
import Mathlib.Data.List.Infix
import Mathlib.Data.List.TakeWhile
import Mathlib.Data.String.Basic

/-!
The string operations of the Rust standard library that the program uses,
over Lean strings. A Rust `str` is a sequence of Unicode scalar values stored
as UTF-8, and so is a Lean `String`; lengths are lengths in bytes, as in Rust.
-/

namespace VorCommander.Text

/-- `char::is_whitespace`, the Unicode property `White_Space`. -/
def isWhitespace (c : Char) : Bool :=
  ('\t' ≤ c && c ≤ '\r') || c = ' ' || c = '\u0085' || c = '\u00a0' || c = '\u1680' ||
    ('\u2000' ≤ c && c ≤ '\u200a') || c = '\u2028' || c = '\u2029' || c = '\u202f' ||
    c = '\u205f' || c = '\u3000'

/-- `char::is_control`. -/
def isControl (c : Char) : Bool := c ≤ '\x1f' || ('\x7f' ≤ c && c ≤ '\u009f')

/-- `str::trim`. -/
def trim (s : String) : String :=
  String.ofList ((s.toList.dropWhile isWhitespace).reverse.dropWhile isWhitespace).reverse

/-- `s.trim().is_empty()`. -/
def isBlank (s : String) : Bool := (trim s).isEmpty

/-- What begins with something else than white space is not blank. -/
theorem isBlank_of_head {c : Char} (hc : isWhitespace c = false) (rest : List Char) :
    isBlank (String.ofList (c :: rest)) = false := by
  have hne : List.dropWhile isWhitespace (rest.reverse ++ [c]) ≠ [] := by
    intro h
    have hall := List.dropWhile_eq_nil_iff.mp h c (by simp)
    simp [hc] at hall
  simp [isBlank, trim, hc, hne]

/-- `str::len`, in bytes. -/
def byteLength (s : String) : ℕ := s.utf8ByteSize

/-- A character takes at least one byte. -/
theorem length_le_byteLength (cs : List Char) : cs.length ≤ byteLength (String.ofList cs) := by
  rw [byteLength, String.utf8ByteSize_ofList]
  induction cs with
  | nil => simp
  | cons c cs ih =>
      have hpos := c.utf8Size_pos
      rw [List.length_cons, String.utf8Len_cons]
      omega

/-- A text of characters of one byte each. -/
theorem byteLength_of_narrow {cs : List Char} (h : ∀ c ∈ cs, c.utf8Size = 1) :
    byteLength (String.ofList cs) = cs.length := by
  rw [byteLength, String.utf8ByteSize_ofList]
  induction cs with
  | nil => rfl
  | cons c cs ih =>
      rw [String.utf8Len_cons, ih fun c hc => h c (List.mem_cons_of_mem _ hc),
        h c List.mem_cons_self, List.length_cons]

/-- `str::as_bytes`. -/
def utf8 (s : String) : List UInt8 := s.toUTF8.data.toList

theorem utf8_eq_nil_iff {s : String} : utf8 s = [] ↔ s = "" := by
  rw [← String.utf8ByteSize_eq_zero_iff, ← List.length_eq_zero_iff]
  rfl

/-- `to_be_bytes` of an unsigned integer of `width` bytes. -/
def bigEndian (width n : ℕ) : List UInt8 :=
  (List.range width).map fun i => UInt8.ofNat (n / 256 ^ (width - 1 - i))

/-! ### Letters -/

theorem toNat_toLower (c : Char) :
    c.toLower.toNat = if 65 ≤ c.toNat ∧ c.toNat ≤ 90 then c.toNat + 32 else c.toNat := by
  have hcond : (c.val ≥ 'A'.val ∧ c.val ≤ 'Z'.val) ↔ 65 ≤ c.toNat ∧ c.toNat ≤ 90 := by
    rw [ge_iff_le, UInt32.le_iff_toNat_le, UInt32.le_iff_toNat_le]
    rfl
  unfold Char.toLower
  by_cases h : c.val ≥ 'A'.val ∧ c.val ≤ 'Z'.val
  · rw [dif_pos h, if_pos (hcond.mp h)]
    have hletter : c.val.toNat ≤ 90 := (hcond.mp h).2
    have hdiff : ('a'.val - 'A'.val).toNat = 32 := rfl
    change (c.val + ('a'.val - 'A'.val)).toNat = c.val.toNat + 32
    rw [UInt32.toNat_add]
    omega
  · rw [dif_neg h, if_neg (mt hcond.mpr h)]

theorem toNat_toUpper (c : Char) :
    c.toUpper.toNat = if 97 ≤ c.toNat ∧ c.toNat ≤ 122 then c.toNat - 32 else c.toNat := by
  have hcond : ('a'.val ≤ c.val ∧ c.val ≤ 'z'.val) ↔ 97 ≤ c.toNat ∧ c.toNat ≤ 122 := by
    rw [UInt32.le_iff_toNat_le, UInt32.le_iff_toNat_le]
    rfl
  unfold Char.toUpper
  by_cases h : 'a'.val ≤ c.val ∧ c.val ≤ 'z'.val
  · rw [dif_pos h, if_pos (hcond.mp h)]
    obtain ⟨hge, hle⟩ : 97 ≤ c.val.toNat ∧ c.val.toNat ≤ 122 := hcond.mp h
    have hdiff : ('A'.val - 'a'.val).toNat = 2 ^ 32 - 32 := rfl
    change (c.val + ('A'.val - 'a'.val)).toNat = c.val.toNat - 32
    rw [UInt32.toNat_add]
    omega
  · rw [dif_neg h, if_neg (mt hcond.mpr h)]

theorem isAlpha_iff (c : Char) : c.isAlpha = true ↔
    (65 ≤ c.toNat ∧ c.toNat ≤ 90) ∨ (97 ≤ c.toNat ∧ c.toNat ≤ 122) := by
  have hcases : c.isAlpha = (decide (c.val ≥ 'A'.val ∧ c.val ≤ 'Z'.val) ||
      (decide (c.val ≥ 'a'.val) && decide (c.val ≤ 'z'.val))) := rfl
  rw [hcases, Bool.or_eq_true, Bool.and_eq_true]
  simp only [decide_eq_true_eq, ge_iff_le, UInt32.le_iff_toNat_le]
  rfl

theorem isDigit_iff (c : Char) : c.isDigit = true ↔ 48 ≤ c.toNat ∧ c.toNat ≤ 57 := by
  have hcases : c.isDigit = (decide (c.val ≥ '0'.val) && decide (c.val ≤ '9'.val)) := rfl
  rw [hcases, Bool.and_eq_true]
  simp only [decide_eq_true_eq, ge_iff_le, UInt32.le_iff_toNat_le]
  rfl

theorem isWhitespace_of_isAlphanum {c : Char} (h : c.isAlphanum = true) :
    isWhitespace c = false := by
  have hrange : 48 ≤ c.toNat ∧ c.toNat ≤ 122 := by
    rw [Char.isAlphanum, Bool.or_eq_true, isAlpha_iff, isDigit_iff] at h
    omega
  have hne : ∀ d : Char, 122 < d.toNat ∨ d.toNat < 48 → c ≠ d := by
    rintro d hd rfl
    omega
  have hle : ∀ d : Char, d.toNat < 48 → ¬ c ≤ d := by
    intro d hd h
    have : c.toNat ≤ d.toNat := h
    omega
  have hge : ∀ d : Char, 122 < d.toNat → ¬ d ≤ c := by
    intro d hd h
    have : d.toNat ≤ c.toNat := h
    omega
  simp [isWhitespace, hne, hle, hge]

/-- `to_ascii_lowercase` on a sequence of characters. -/
def asciiLower (s : List Char) : List Char := s.map Char.toLower

theorem asciiLower_asciiLower (s : List Char) : asciiLower (asciiLower s) = asciiLower s := by
  rw [asciiLower, asciiLower, List.map_map]
  refine List.map_congr_left fun c _ => ?_
  apply Char.toNat_inj.mp
  rw [Function.comp_apply, toNat_toLower, toNat_toLower]
  split_ifs <;> omega

@[simp] theorem length_asciiLower (s : List Char) : (asciiLower s).length = s.length :=
  List.length_map _

/-- `str::to_ascii_lowercase`. -/
def toAsciiLowercase (s : String) : String := String.ofList (asciiLower s.toList)

/-- `str::eq_ignore_ascii_case`. -/
def eqIgnoreAsciiCase (s t : String) : Bool := asciiLower s.toList = asciiLower t.toList

/-- `str::contains` of a string. -/
def containsString (s t : String) : Bool := decide (t.toList <:+: s.toList)

/-- `str::starts_with`. -/
def startsWith (s t : String) : Bool := t.toList.isPrefixOf s.toList

/-- `str::ends_with`. -/
def endsWith (s t : String) : Bool := t.toList.isSuffixOf s.toList

/-- `str::strip_prefix`. -/
def stripPrefix (s t : String) : Option String :=
  if startsWith s t then some (String.ofList (s.toList.drop t.toList.length)) else none

/-- `str::split` at every character satisfying `p`. -/
def splitChars (p : Char → Bool) (s : String) : List String :=
  (s.toList.splitOnP p).map String.ofList

/-- `str::split_once` at the first occurrence of `c`. -/
def splitOnce (c : Char) (s : String) : Option (String × String) :=
  let before := s.toList.takeWhile (· ≠ c)
  match s.toList.drop before.length with
  | [] => none
  | _ :: rest => some (String.ofList before, String.ofList rest)

theorem drop_length_takeWhile {α : Type*} (p : α → Bool) (l : List α) :
    l.drop (l.takeWhile p).length = l.dropWhile p := by
  induction l with
  | nil => rfl
  | cons a l ih => by_cases h : p a <;> simp [h, ih]

/-- What `split_once` finds stands around the first occurrence of the character. -/
theorem splitOnce_eq_some_iff {c : Char} {s before after : String} :
    splitOnce c s = some (before, after) ↔
      s.toList = before.toList ++ c :: after.toList ∧ c ∉ before.toList := by
  rw [splitOnce, drop_length_takeWhile]
  constructor
  · intro h
    split at h
    case h_1 => cases h
    case h_2 d rest hrest =>
      obtain ⟨rfl, rfl⟩ := Prod.mk.inj (Option.some.inj h)
      have hd : d = c := by
        have hhead := List.head?_dropWhile_not (· ≠ c) s.toList
        rw [hrest] at hhead
        simpa using hhead
      rw [String.toList_ofList, String.toList_ofList, ← hd, ← hrest, hd,
        List.takeWhile_append_dropWhile]
      exact ⟨rfl, fun hmem => by simpa using List.mem_takeWhile_imp hmem⟩
  · rintro ⟨hs, hbefore⟩
    have hall : ∀ d ∈ before.toList, decide (d ≠ c) = true := by
      intro d hd
      rw [decide_eq_true_eq]
      rintro rfl
      exact hbefore hd
    rw [hs, List.takeWhile_append_of_pos hall, List.dropWhile_append_of_pos hall]
    simp

theorem splitOnce_eq_none_iff {c : Char} {s : String} : splitOnce c s = none ↔ c ∉ s.toList := by
  rw [splitOnce, drop_length_takeWhile]
  constructor
  · intro h hc
    split at h
    case h_1 hrest =>
      have hall := List.dropWhile_eq_nil_iff.mp hrest c hc
      simp at hall
    case h_2 => cases h
  · intro hc
    have hall : ∀ d ∈ s.toList, decide (d ≠ c) = true := by
      intro d hd
      rw [decide_eq_true_eq]
      rintro rfl
      exact hc hd
    rw [List.dropWhile_eq_nil_iff.mpr hall]

/-- `rsplit(p).next()`: what follows the last character satisfying `p`. -/
def lastSegment (p : Char → Bool) (s : String) : String :=
  String.ofList (s.toList.reverse.takeWhile fun c => !p c).reverse

/-- `str::replace` of one character by another. -/
def replaceChar (c d : Char) (s : String) : String :=
  String.ofList (s.toList.map fun x => if x = c then d else x)

/-- The lower-case hexadecimal digit of a number below 16. -/
def hexDigit (n : ℕ) : Char := "0123456789abcdef".toList.getD n '0'

/-- `hex::encode`. -/
def hexEncode (bytes : List UInt8) : String :=
  String.ofList (bytes.flatMap fun b => [hexDigit (b.toNat / 16), hexDigit (b.toNat % 16)])

theorem utf8Size_hexDigit (n : ℕ) : (hexDigit n).utf8Size = 1 := by
  have hdigits : ∀ m < 16, (hexDigit m).utf8Size = 1 := by decide
  by_cases h : n < 16
  · exact hdigits n h
  · rw [hexDigit, List.getD_eq_default _ _ (by simpa using h)]
    rfl

/-- Hexadecimal text has two characters for a byte. -/
theorem byteLength_hexEncode (bytes : List UInt8) :
    byteLength (hexEncode bytes) = 2 * bytes.length := by
  rw [byteLength, hexEncode, String.utf8ByteSize_ofList]
  induction bytes with
  | nil => rfl
  | cons b bytes ih =>
      rw [List.flatMap_cons, String.utf8Len_append, ih]
      simp only [String.utf8Len_cons, utf8Size_hexDigit, String.utf8Len_nil, List.length_cons]
      omega

/-- The value of a hexadecimal digit of either case. -/
def hexValue (c : Char) : Option ℕ :=
  if '0' ≤ c ∧ c ≤ '9' then some (c.toNat - '0'.toNat)
  else if 'a' ≤ c ∧ c ≤ 'f' then some (c.toNat - 'a'.toNat + 10)
  else if 'A' ≤ c ∧ c ≤ 'F' then some (c.toNat - 'A'.toNat + 10)
  else none

/-- The bytes a list of hexadecimal digits stands for. -/
def hexPairs : List Char → Option (List UInt8)
  | [] => some []
  | [_] => none
  | c :: d :: rest => do
      let high ← hexValue c
      let low ← hexValue d
      return UInt8.ofNat (16 * high + low) :: (← hexPairs rest)

/-- `hex::decode`. -/
def hexDecode (s : String) : Option (List UInt8) := hexPairs s.toList

/-- The number of bytes hexadecimal text stands for is half its length. -/
theorem length_of_hexPairs {cs : List Char} {bytes : List UInt8} (h : hexPairs cs = some bytes) :
    cs.length = 2 * bytes.length := by
  induction cs using hexPairs.induct generalizing bytes with
  | case1 => simp_all [hexPairs]
  | case2 c => simp [hexPairs] at h
  | case3 c d rest ih =>
      simp only [hexPairs, Option.bind_eq_bind, Option.bind_eq_some_iff, Option.pure_def,
        Option.some.injEq] at h
      obtain ⟨_, _, _, _, tail, htail, rfl⟩ := h
      have := ih htail
      simp only [List.length_cons]
      omega

end VorCommander.Text
