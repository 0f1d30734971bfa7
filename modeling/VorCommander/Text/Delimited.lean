import VorCommander.Text.Json

/-!
Reading back what has been written.

Two values have the same shape if they differ in nothing but numbers, strings
and truth values. Then the text of a value cannot be taken for the text of the
other, and not for the beginning of it either, whatever comes after the two. So
where a program knows which shape to expect, a text stands for one value, and a
text that was cut off stands for none.
-/

namespace VorCommander.Text

/-! ### Integers of a fixed width -/

@[simp] theorem length_bigEndian (width n : ℕ) : (bigEndian width n).length = width := by
  simp [bigEndian]

theorem bigEndian_succ (width n : ℕ) :
    bigEndian (width + 1) n = UInt8.ofNat (n / 256 ^ width) :: bigEndian width n := by
  rw [bigEndian, List.range_succ_eq_map, List.map_cons, List.map_map, bigEndian]
  congr 1
  apply List.map_congr_left
  intro i hi
  rw [List.mem_range] at hi
  have hexponent : width + 1 - 1 - (i + 1) = width - 1 - i := by omega
  rw [Function.comp_apply, Nat.succ_eq_add_one, hexponent]

/-- The bytes determine the number as far as it fits. -/
theorem mod_eq_of_bigEndian_eq {width m n : ℕ} (h : bigEndian width m = bigEndian width n) :
    m % 256 ^ width = n % 256 ^ width := by
  induction width with
  | zero => rw [pow_zero, Nat.mod_one, Nat.mod_one]
  | succ width ih =>
      rw [bigEndian_succ, bigEndian_succ] at h
      obtain ⟨hfirst, hrest⟩ := List.cons.inj h
      have hdigit := congrArg UInt8.toNat hfirst
      rw [UInt8.toNat_ofNat', UInt8.toNat_ofNat'] at hdigit
      rw [Nat.mod_pow_succ, Nat.mod_pow_succ, ih hrest, hdigit]

theorem bigEndian_inj {width m n : ℕ} (hm : m < 256 ^ width) (hn : n < 256 ^ width)
    (h : bigEndian width m = bigEndian width n) : m = n := by
  have hmod := mod_eq_of_bigEndian_eq h
  rwa [Nat.mod_eq_of_lt hm, Nat.mod_eq_of_lt hn] at hmod

/-! ### Numbers -/

/-- Text that does not go on with a digit. -/
def EndsNumber (rest : List Char) : Prop := ∀ c ∈ rest.head?, c.isDigit = false

theorem endsNumber_cons {c : Char} {rest : List Char} (hc : c.isDigit = false) :
    EndsNumber (c :: rest) := by
  intro d hd
  obtain rfl : c = d := by simpa using hd
  exact hc

theorem toList_toString (n : ℕ) : (toString n).toList = encodeNat n := Nat.toList_repr

theorem isDigit_of_mem_encodeNat {n : ℕ} {c : Char} (hc : c ∈ encodeNat n) : c.isDigit = true :=
  Nat.isDigit_of_mem_toDigits (by omega) (by omega) hc

theorem encodeNat_injective : Function.Injective encodeNat := by
  intro m n h
  have hdigits := congrArg (Nat.ofDigitChars 10 · 0) h
  simpa [encodeNat] using hdigits

/-- The digits at the beginning of a text that starts with a number. -/
theorem takeWhile_encodeNat_append (n : ℕ) {rest : List Char} (hrest : EndsNumber rest) :
    (encodeNat n ++ rest).takeWhile Char.isDigit = encodeNat n := by
  rw [List.takeWhile_append_of_pos fun c hc => isDigit_of_mem_encodeNat hc]
  cases rest with
  | nil => simp
  | cons c rest => simp [hrest c (by simp)]

theorem encodeNat_append_inj {m n : ℕ} {rest rest' : List Char} (hrest : EndsNumber rest)
    (hrest' : EndsNumber rest') (h : encodeNat m ++ rest = encodeNat n ++ rest') :
    m = n ∧ rest = rest' := by
  have hdigits : encodeNat m = encodeNat n := by
    rw [← takeWhile_encodeNat_append m hrest, h, takeWhile_encodeNat_append n hrest']
  rw [hdigits] at h
  exact ⟨encodeNat_injective hdigits, List.append_cancel_left h⟩

theorem encodeNat_ne_nil (n : ℕ) : encodeNat n ≠ [] := Nat.toDigits_ne_nil

/-- `str::parse::<u64>`. -/
def parseU64 (s : String) : Option ℕ :=
  let digits :=
    match s.toList with
    | '+' :: rest => rest
    | cs => cs
  if digits ≠ [] ∧ digits.all Char.isDigit ∧ Nat.ofDigitChars 10 digits 0 < 2 ^ 64 then
    some (Nat.ofDigitChars 10 digits 0)
  else none

theorem isWhitespace_of_isDigit {c : Char} (h : c.isDigit = true) : isWhitespace c = false := by
  have hrange : 48 ≤ c.toNat ∧ c.toNat ≤ 57 := by
    simpa [Char.isDigit, UInt32.le_iff_toNat_le] using h
  have hall : ∀ n < 58, 48 ≤ n → isWhitespace (Char.ofNat n) = false := by decide
  rw [← Char.ofNat_toNat c]
  exact hall c.toNat (by omega) hrange.1

theorem dropWhile_isWhitespace_of_isDigit {cs : List Char} (hcs : ∀ c ∈ cs, c.isDigit = true) :
    cs.dropWhile isWhitespace = cs := by
  cases cs with
  | nil => rfl
  | cons c cs =>
      rw [List.dropWhile_cons, isWhitespace_of_isDigit (hcs c List.mem_cons_self)]
      rfl

/-- A blank after a number does not belong to it. -/
theorem trim_encodeNat_append (n : ℕ) {blank : Char} (hblank : isWhitespace blank = true) :
    trim (String.ofList (encodeNat n ++ [blank])) = String.ofList (encodeNat n) := by
  have hdigits : ∀ c ∈ encodeNat n, c.isDigit = true := fun c hc => isDigit_of_mem_encodeNat hc
  have hreverse : ∀ c ∈ (encodeNat n).reverse, c.isDigit = true := by simpa using hdigits
  obtain ⟨first, rest, hfirst⟩ := List.exists_cons_of_ne_nil (encodeNat_ne_nil n)
  have hdrop : (encodeNat n ++ [blank]).dropWhile isWhitespace = encodeNat n ++ [blank] := by
    rw [hfirst] at hdigits ⊢
    rw [List.cons_append, List.dropWhile_cons,
      isWhitespace_of_isDigit (hdigits first List.mem_cons_self)]
    rfl
  rw [trim, String.toList_ofList, hdrop, List.reverse_append, List.reverse_singleton,
    List.singleton_append, List.dropWhile_cons, hblank, if_pos rfl,
    dropWhile_isWhitespace_of_isDigit hreverse, List.reverse_reverse]

/-- The digits of a number are read as this number, or are too many. -/
theorem parseU64_encodeNat (n : ℕ) :
    parseU64 (String.ofList (encodeNat n)) = if n < 2 ^ 64 then some n else none := by
  have hall : (encodeNat n).all Char.isDigit = true := by
    rw [List.all_eq_true]
    exact fun c hc => isDigit_of_mem_encodeNat hc
  have hvalue : Nat.ofDigitChars 10 (encodeNat n) 0 = n := Nat.ofDigitChars_ten_toDigits
  have hplain : (match encodeNat n with
      | '+' :: rest => rest
      | cs => cs) = encodeNat n := by
    split
    case h_1 rest hplus =>
      have hdigit := isDigit_of_mem_encodeNat (n := n) (c := '+') (by rw [hplus]; simp)
      exact absurd hdigit (by decide)
    case h_2 => rfl
  have hne := encodeNat_ne_nil n
  simp only [parseU64, String.toList_ofList, hplain, hvalue, hall, true_and, ne_eq, hne,
    not_false_eq_true]

/-! ### Strings -/

/-- The character that a JSON string goes on with, and the text after it. -/
def readChar : List Char → Option (Char × List Char)
  | '\\' :: '"' :: rest => some ('"', rest)
  | '\\' :: '\\' :: rest => some ('\\', rest)
  | '\\' :: 'b' :: rest => some ('\u0008', rest)
  | '\\' :: 'f' :: rest => some ('\u000c', rest)
  | '\\' :: 'n' :: rest => some ('\n', rest)
  | '\\' :: 'r' :: rest => some ('\r', rest)
  | '\\' :: 't' :: rest => some ('\t', rest)
  | '\\' :: 'u' :: '0' :: '0' :: high :: low :: rest => do
      let high ← hexValue high
      let low ← hexValue low
      return (Char.ofNat (16 * high + low), rest)
  | '"' :: _ => none
  | c :: rest => some (c, rest)
  | [] => none

theorem hexValue_hexDigit : ∀ n < 16, hexValue (hexDigit n) = some n := by decide

/-- `hex::decode` undoes `hex::encode`. -/
theorem hexDecode_hexEncode (bytes : List UInt8) : hexDecode (hexEncode bytes) = some bytes := by
  rw [hexDecode, hexEncode, String.toList_ofList]
  induction bytes with
  | nil => rfl
  | cons b bytes ih =>
      have hb := b.toNat_lt
      have hhigh := hexValue_hexDigit (b.toNat / 16) (by omega)
      have hlow := hexValue_hexDigit (b.toNat % 16) (by omega)
      have hbyte : UInt8.ofNat (16 * (b.toNat / 16) + b.toNat % 16) = b := by
        rw [Nat.div_add_mod, UInt8.ofNat_toNat]
      simp only [List.flatMap_cons, List.cons_append, List.nil_append, hexPairs, hhigh, hlow, ih,
        Option.bind_eq_bind, Option.bind_some, hbyte]
      rfl

theorem hexEncode_injective : Function.Injective hexEncode := by
  intro bytes bytes' h
  have hdecode := congrArg hexDecode h
  rw [hexDecode_hexEncode, hexDecode_hexEncode] at hdecode
  exact Option.some.inj hdecode

theorem toLower_hexDigit : ∀ n < 16, (hexDigit n).toLower = hexDigit n := by decide

/-- `hex::encode` writes small letters only. -/
theorem asciiLower_hexEncode (bytes : List UInt8) :
    asciiLower (hexEncode bytes).toList = (hexEncode bytes).toList := by
  rw [hexEncode, String.toList_ofList, asciiLower]
  induction bytes with
  | nil => rfl
  | cons b bytes ih =>
      have hb := b.toNat_lt
      have hhigh := toLower_hexDigit (b.toNat / 16) (by omega)
      have hlow := toLower_hexDigit (b.toNat % 16) (by omega)
      simp only [List.flatMap_cons, List.cons_append, List.nil_append, List.map_cons, hhigh, hlow,
        ih]

/-- A character is read back as it was escaped. -/
theorem readChar_escapeChar (c : Char) (rest : List Char) :
    readChar (escapeChar c ++ rest) = some (c, rest) := by
  rw [escapeChar]
  split_ifs with hquote hslash hb hf hn hr ht hcontrol
  · simp [readChar, hquote]
  · simp [readChar, hslash]
  · simp [readChar, hb]
  · simp [readChar, hf]
  · simp [readChar, hn]
  · simp [readChar, hr]
  · simp [readChar, ht]
  · have hhigh := hexValue_hexDigit (c.toNat / 16) (by omega)
    have hlow := hexValue_hexDigit (c.toNat % 16) (by omega)
    have hnat : 16 * (c.toNat / 16) + c.toNat % 16 = c.toNat := by omega
    simp [readChar, hhigh, hlow, hnat]
  · simp [readChar, hslash]

@[simp] theorem readChar_quote (rest : List Char) : readChar ('"' :: rest) = none := by
  simp [readChar]

theorem escaped_append_inj {s t rest rest' : List Char}
    (h : s.flatMap escapeChar ++ '"' :: rest = t.flatMap escapeChar ++ '"' :: rest') :
    s = t ∧ rest = rest' := by
  induction s generalizing t with
  | nil =>
      cases t with
      | nil => simpa using h
      | cons d t =>
          have hread := congrArg readChar h
          simp [readChar_escapeChar] at hread
  | cons c s ih =>
      cases t with
      | nil =>
          have hread := congrArg readChar h
          simp [readChar_escapeChar] at hread
      | cons d t =>
          simp only [List.flatMap_cons, List.append_assoc] at h
          have hread := congrArg readChar h
          rw [readChar_escapeChar, readChar_escapeChar] at hread
          obtain ⟨rfl, htail⟩ := Prod.mk.inj (Option.some.inj hread)
          obtain ⟨rfl, rfl⟩ := ih htail
          exact ⟨rfl, rfl⟩

theorem encodeString_append_inj {s t : String} {rest rest' : List Char}
    (h : encodeString s ++ rest = encodeString t ++ rest') : s = t ∧ rest = rest' := by
  simp only [encodeString, List.cons_append, List.append_assoc, List.cons.injEq, true_and,
    List.nil_append] at h
  obtain ⟨hchars, hrest⟩ := escaped_append_inj h
  exact ⟨String.toList_inj.mp hchars, hrest⟩

/-! ### Values of one shape -/

namespace Value

mutual

/-- What is left of a value when its numbers, strings and truth values are
forgotten. -/
def shape : Value → Value
  | .null => .null
  | .bool _ => .bool false
  | .posInt _ => .posInt 0
  | .negInt _ => .negInt 0
  | .float text => .float text
  | .string _ => .string ""
  | .array items => .array (shapeItems items)
  | .object members => .object (shapeMembers members)

def shapeItems : List Value → List Value
  | [] => []
  | item :: rest => item.shape :: shapeItems rest

def shapeMembers : List (String × Value) → List (String × Value)
  | [] => []
  | (name, value) :: rest => (name, value.shape) :: shapeMembers rest

end

theorem endsNumber_comma (rest : List Char) : EndsNumber (',' :: rest) :=
  endsNumber_cons (by decide)

theorem endsNumber_bracket (rest : List Char) : EndsNumber (']' :: rest) :=
  endsNumber_cons (by decide)

theorem endsNumber_brace (rest : List Char) : EndsNumber ('}' :: rest) :=
  endsNumber_cons (by decide)

mutual

/-- Two texts of values of one shape that agree as far as the values go are of
the same value. -/
theorem encode_append_inj (v w : Value) (rest rest' : List Char) (hshape : v.shape = w.shape)
    (hrest : EndsNumber rest) (hrest' : EndsNumber rest')
    (h : v.encode ++ rest = w.encode ++ rest') : v = w ∧ rest = rest' := by
  cases v with
  | null =>
      cases w <;> simp [shape] at hshape
      simpa [encode] using h
  | bool b =>
      cases w <;> simp [shape] at hshape
      next b' => cases b <;> cases b' <;> simp_all [encode]
  | posInt n =>
      cases w <;> simp [shape] at hshape
      obtain ⟨rfl, rfl⟩ := encodeNat_append_inj hrest hrest' (by simpa [encode] using h)
      exact ⟨rfl, rfl⟩
  | negInt n =>
      cases w <;> simp [shape] at hshape
      obtain ⟨rfl, rfl⟩ := encodeNat_append_inj hrest hrest' (by simpa [encode] using h)
      exact ⟨rfl, rfl⟩
  | float text =>
      cases w <;> simp [shape] at hshape
      subst hshape
      exact ⟨rfl, List.append_cancel_left h⟩
  | string s =>
      cases w <;> simp [shape] at hshape
      obtain ⟨rfl, rfl⟩ := encodeString_append_inj (by simpa [encode] using h)
      exact ⟨rfl, rfl⟩
  | array items =>
      cases w <;> simp [shape] at hshape
      next items' =>
        have htext : commaSeparated (encodeItems items) ++ ']' :: rest =
            commaSeparated (encodeItems items') ++ ']' :: rest' := by
          simpa [encode, encodeArray] using h
        obtain ⟨rfl, rfl⟩ := encodeItems_append_inj items items' rest rest' hshape htext
        exact ⟨rfl, rfl⟩
  | object members =>
      cases w <;> simp [shape] at hshape
      next members' =>
        have htext : commaSeparated ((encodeMembers members).map
              fun m => encodeString m.1 ++ ':' :: m.2) ++ '}' :: rest =
            commaSeparated ((encodeMembers members').map
              fun m => encodeString m.1 ++ ':' :: m.2) ++ '}' :: rest' := by
          simpa [encode, encodeObject] using h
        obtain ⟨rfl, rfl⟩ := encodeMembers_append_inj members members' rest rest' hshape htext
        exact ⟨rfl, rfl⟩

theorem encodeItems_append_inj (items items' : List Value) (rest rest' : List Char)
    (hshape : shapeItems items = shapeItems items')
    (h : commaSeparated (encodeItems items) ++ ']' :: rest =
      commaSeparated (encodeItems items') ++ ']' :: rest') : items = items' ∧ rest = rest' := by
  match items, items' with
  | [], [] => simpa [encodeItems, commaSeparated] using h
  | [], _ :: _ => simp [shapeItems] at hshape
  | _ :: _, [] => simp [shapeItems] at hshape
  | [v], [w] =>
      simp only [shapeItems, List.cons.injEq, and_true] at hshape
      obtain ⟨rfl, htail⟩ := encode_append_inj v w _ _ hshape (endsNumber_bracket rest)
        (endsNumber_bracket rest') h
      exact ⟨rfl, (List.cons.inj htail).2⟩
  | [_], _ :: _ :: _ => simp [shapeItems] at hshape
  | _ :: _ :: _, [_] => simp [shapeItems] at hshape
  | v :: v' :: vs, w :: w' :: ws =>
      have hcons : v.shape :: shapeItems (v' :: vs) = w.shape :: shapeItems (w' :: ws) := hshape
      obtain ⟨hhead, htail⟩ := List.cons.inj hcons
      simp only [encodeItems, commaSeparated, List.append_assoc, List.cons_append] at h
      obtain ⟨rfl, hnext⟩ := encode_append_inj v w _ _ hhead (endsNumber_comma _)
        (endsNumber_comma _) h
      obtain ⟨hrest, rfl⟩ := encodeItems_append_inj (v' :: vs) (w' :: ws) rest rest' htail
        (List.cons.inj hnext).2
      exact ⟨by rw [hrest], rfl⟩

theorem encodeMembers_append_inj (members members' : List (String × Value)) (rest rest' : List Char)
    (hshape : shapeMembers members = shapeMembers members')
    (h : commaSeparated ((encodeMembers members).map fun m => encodeString m.1 ++ ':' :: m.2) ++
        '}' :: rest =
      commaSeparated ((encodeMembers members').map fun m => encodeString m.1 ++ ':' :: m.2) ++
        '}' :: rest') : members = members' ∧ rest = rest' := by
  match members, members' with
  | [], [] => simpa [encodeMembers, commaSeparated] using h
  | [], _ :: _ => simp [shapeMembers] at hshape
  | _ :: _, [] => simp [shapeMembers] at hshape
  | [(name, v)], [(name', w)] =>
      simp only [shapeMembers, List.cons.injEq, Prod.mk.injEq, and_true] at hshape
      obtain ⟨rfl, hshape⟩ := hshape
      simp only [encodeMembers, List.map_cons, List.map_nil, commaSeparated, List.append_assoc,
        List.cons_append] at h
      obtain ⟨rfl, htail⟩ := encode_append_inj v w _ _ hshape (endsNumber_brace rest)
        (endsNumber_brace rest') (List.cons.inj (List.append_cancel_left h)).2
      exact ⟨rfl, (List.cons.inj htail).2⟩
  | [_], _ :: _ :: _ => simp [shapeMembers] at hshape
  | _ :: _ :: _, [_] => simp [shapeMembers] at hshape
  | (name, v) :: m :: ms, (name', w) :: m' :: ms' =>
      have hcons : (name, v.shape) :: shapeMembers (m :: ms) =
          (name', w.shape) :: shapeMembers (m' :: ms') := hshape
      obtain ⟨hfirst, htail⟩ := List.cons.inj hcons
      obtain ⟨rfl, hhead⟩ := Prod.mk.inj hfirst
      simp only [encodeMembers, List.map_cons, commaSeparated, List.append_assoc,
        List.cons_append] at h
      obtain ⟨rfl, hnext⟩ := encode_append_inj v w _ _ hhead (endsNumber_comma _)
        (endsNumber_comma _) (List.cons.inj (List.append_cancel_left h)).2
      obtain ⟨hrest, rfl⟩ := encodeMembers_append_inj (m :: ms) (m' :: ms') rest rest' htail
        (by simpa only [encodeMembers, List.map_cons] using (List.cons.inj hnext).2)
      exact ⟨by rw [hrest], rfl⟩

end

/-- A text that begins with an object goes on with nothing else. -/
theorem encode_object_append_inj {members members' : List (String × Value)} {rest rest' : List Char}
    (hshape : (object members).shape = (object members').shape)
    (h : (object members).encode ++ rest = (object members').encode ++ rest') :
    members = members' ∧ rest = rest' := by
  apply encodeMembers_append_inj
  · simpa [shape] using hshape
  · simpa [encode, encodeObject] using h

end Value

end VorCommander.Text
