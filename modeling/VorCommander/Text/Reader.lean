import VorCommander.Text.Delimited
import VorCommander.Text.Lines

/-!
A reader of JSON texts.

The reader takes the texts that the serialiser writes, and gives back what was
written. A number that is not an integer is kept as its text, so such a text has
to be told from the text of an integer: it has a fraction or an exponent.
-/

namespace VorCommander.Text

/-! ### Numbers -/

/-- The characters of a number. -/
def isNumberChar (c : Char) : Bool :=
  c.isDigit || c = '-' || c = '+' || c = '.' || c = 'e' || c = 'E'

/-- Text that does not go on with a number. -/
def EndsToken (rest : List Char) : Prop := ∀ c ∈ rest.head?, isNumberChar c = false

/-- A number begins with a digit or a sign. -/
def startsNumber (cs : List Char) : Bool := cs.head?.any fun c => c.isDigit || c = '-'

/-- The text of a number that is not an integer. -/
def isFraction (cs : List Char) : Bool :=
  startsNumber cs && cs.all isNumberChar && cs.any fun c => c = '.' || c = 'e' || c = 'E'

/-- The digits of a natural number. -/
def isNatural (cs : List Char) : Bool := !cs.isEmpty && cs.all Char.isDigit

/-- The number that a token stands for. -/
def numberOf (token : List Char) : Option Value :=
  if isNatural token then some (.posInt (Nat.ofDigitChars 10 token 0))
  else if token.head? = some '-' ∧ isNatural token.tail then
    some (.negInt (Nat.ofDigitChars 10 token.tail 0))
  else if isFraction token then some (.float (String.ofList token))
  else none

theorem endsToken_nil : EndsToken [] := by
  intro c hc
  cases hc

theorem endsToken_cons {c : Char} {rest : List Char} (hc : isNumberChar c = false) :
    EndsToken (c :: rest) := by
  intro d hd
  obtain rfl : c = d := by simpa using hd
  exact hc

theorem takeWhile_token {token rest : List Char} (htoken : token.all isNumberChar = true)
    (hrest : EndsToken rest) : (token ++ rest).takeWhile isNumberChar = token := by
  rw [List.takeWhile_append_of_pos fun c hc => List.all_eq_true.mp htoken c hc]
  cases rest with
  | nil => simp
  | cons c rest => simp [hrest c (by simp)]

theorem isNatural_encodeNat (n : ℕ) : isNatural (encodeNat n) = true := by
  rw [isNatural, Bool.and_eq_true, List.all_eq_true]
  refine ⟨?_, fun c hc => isDigit_of_mem_encodeNat hc⟩
  simpa using encodeNat_ne_nil n

theorem isNumberChar_of_isDigit {c : Char} (h : c.isDigit = true) : isNumberChar c = true := by
  simp [isNumberChar, h]

theorem all_isNumberChar_encodeNat (n : ℕ) : (encodeNat n).all isNumberChar = true := by
  rw [List.all_eq_true]
  intro c hc
  exact isNumberChar_of_isDigit (isDigit_of_mem_encodeNat hc)

theorem numberOf_encodeNat (n : ℕ) : numberOf (encodeNat n) = some (.posInt n) := by
  rw [numberOf, if_pos (isNatural_encodeNat n)]
  exact congrArg (fun n => some (Value.posInt n)) Nat.ofDigitChars_ten_toDigits

theorem numberOf_negative (n : ℕ) : numberOf ('-' :: encodeNat n) = some (.negInt n) := by
  have hsign : isNatural ('-' :: encodeNat n) = false := by simp [isNatural]
  rw [numberOf, hsign, if_neg Bool.false_ne_true, if_pos ⟨rfl, isNatural_encodeNat n⟩]
  exact congrArg (fun n => some (Value.negInt n)) Nat.ofDigitChars_ten_toDigits

theorem not_isNatural_of_isFraction {cs : List Char} (h : isFraction cs = true) :
    isNatural cs = false ∧ isNatural cs.tail = false := by
  simp only [isFraction, Bool.and_eq_true, List.any_eq_true] at h
  obtain ⟨⟨hstarts, -⟩, c, hc, hmark⟩ := h
  have hdigit : c.isDigit = false ∧ c ≠ '-' := by
    simp only [Bool.or_eq_true, decide_eq_true_eq] at hmark
    rcases hmark with (rfl | rfl) | rfl <;> decide
  have hnatural : ∀ ds : List Char, c ∈ ds → isNatural ds = false := by
    intro ds hds
    rw [isNatural, Bool.and_eq_false_iff]
    right
    rw [List.all_eq_false]
    exact ⟨c, hds, by simp [hdigit.1]⟩
  refine ⟨hnatural cs hc, hnatural cs.tail ?_⟩
  cases cs with
  | nil => simp at hc
  | cons d ds =>
      -- the mark is not the first character, which is a digit or a sign
      rcases List.mem_cons.mp hc with rfl | hc
      · simp [startsNumber, hdigit] at hstarts
      · exact hc

theorem numberOf_fraction {cs : List Char} (h : isFraction cs = true) :
    numberOf cs = some (.float (String.ofList cs)) := by
  obtain ⟨hnatural, htail⟩ := not_isNatural_of_isFraction h
  simp [numberOf, hnatural, htail, h]

theorem startsNumber_of_isFraction {cs : List Char} (h : isFraction cs = true) :
    startsNumber cs = true := by
  simp only [isFraction, Bool.and_eq_true] at h
  exact h.1.1

theorem all_isNumberChar_of_isFraction {cs : List Char} (h : isFraction cs = true) :
    cs.all isNumberChar = true := by
  simp only [isFraction, Bool.and_eq_true] at h
  exact h.1.2

theorem startsNumber_encodeNat (n : ℕ) : startsNumber (encodeNat n) = true := by
  cases hcs : encodeNat n with
  | nil => exact absurd hcs (encodeNat_ne_nil n)
  | cons c cs =>
      have hc : c.isDigit = true := isDigit_of_mem_encodeNat (by rw [hcs]; exact List.mem_cons_self)
      simp [startsNumber, hc]

/-! ### Strings -/

/-- The characters of a string up to the quote that ends it. -/
def readChars : ℕ → List Char → Option (List Char × List Char)
  | 0, _ => none
  | n + 1, cs =>
      match readChar cs with
      | some (c, rest) => (readChars n rest).map fun read => (c :: read.1, read.2)
      | none =>
          match cs with
          | '"' :: rest => some ([], rest)
          | _ => none

theorem readChars_escaped (s rest : List Char) {n : ℕ} (hn : s.length < n) :
    readChars n (s.flatMap escapeChar ++ '"' :: rest) = some (s, rest) := by
  induction s generalizing n with
  | nil =>
      cases n with
      | zero => simp at hn
      | succ n => simp [readChars]
  | cons c s ih =>
      cases n with
      | zero => simp at hn
      | succ n =>
          rw [List.length_cons] at hn
          unfold readChars
          rw [List.flatMap_cons, List.append_assoc, readChar_escapeChar]
          simp only []
          rw [ih (by omega)]
          rfl

/-- A string literal, without the quote in front of it. -/
def readString (cs : List Char) : Option (String × List Char) :=
  (readChars (cs.length + 1) cs).map fun read => (String.ofList read.1, read.2)

theorem length_flatMap_escapeChar (s : List Char) : s.length ≤ (s.flatMap escapeChar).length := by
  induction s with
  | nil => simp
  | cons c s ih =>
      have hpos : 0 < (escapeChar c).length := by
        unfold escapeChar
        split_ifs <;> simp
      rw [List.flatMap_cons, List.length_append, List.length_cons]
      omega

theorem readString_encodeString (s : String) (rest : List Char) :
    readString ((encodeString s).tail ++ rest) = some (s, rest) := by
  have hlength := length_flatMap_escapeChar s.toList
  rw [readString, encodeString, List.cons_append, List.tail_cons, List.append_assoc,
    List.singleton_append, readChars_escaped]
  · simp
  · simp only [List.length_append, List.length_cons]
    omega

/-! ### Values -/

namespace Value

/-- A number at the beginning of a text. -/
def readNumber (cs : List Char) : Option (Value × List Char) :=
  (numberOf (cs.takeWhile isNumberChar)).map fun v => (v, cs.dropWhile isNumberChar)

mutual

/-- The value at the beginning of a text, and the text after it. The number bounds how
deep the value is nested and how many items it has. -/
def read : ℕ → List Char → Option (Value × List Char)
  | 0, _ => none
  | n + 1, cs =>
      match cs with
      | 'n' :: 'u' :: 'l' :: 'l' :: rest => some (.null, rest)
      | 't' :: 'r' :: 'u' :: 'e' :: rest => some (.bool true, rest)
      | 'f' :: 'a' :: 'l' :: 's' :: 'e' :: rest => some (.bool false, rest)
      | '"' :: rest => (readString rest).map fun read => (.string read.1, read.2)
      | '[' :: ']' :: rest => some (.array [], rest)
      | '[' :: rest => (readItems n rest).map fun read => (.array read.1, read.2)
      | '{' :: '}' :: rest => some (.object [], rest)
      | '{' :: rest => (readMembers n rest).map fun read => (.object read.1, read.2)
      | _ => readNumber cs

/-- The items of an array that is not empty, up to its end. -/
def readItems : ℕ → List Char → Option (List Value × List Char)
  | 0, _ => none
  | n + 1, cs =>
      match read n cs with
      | some (v, ']' :: rest) => some ([v], rest)
      | some (v, ',' :: rest) => (readItems n rest).map fun read => (v :: read.1, read.2)
      | _ => none

/-- The members of an object that is not empty, up to its end. -/
def readMembers : ℕ → List Char → Option (List (String × Value) × List Char)
  | 0, _ => none
  | n + 1, cs =>
      match cs with
      | '"' :: rest =>
          match readString rest with
          | some (name, ':' :: rest) =>
              match read n rest with
              | some (v, '}' :: rest) => some ([(name, v)], rest)
              | some (v, ',' :: rest) =>
                  (readMembers n rest).map fun read => ((name, v) :: read.1, read.2)
              | _ => none
          | _ => none
      | _ => none

end

mutual

/-- The numbers of a value that are not integers are written as such. -/
def Written : Value → Prop
  | .float text => isFraction text.toList = true
  | .array items => WrittenItems items
  | .object members => WrittenMembers members
  | _ => True

def WrittenItems : List Value → Prop
  | [] => True
  | item :: rest => item.Written ∧ WrittenItems rest

def WrittenMembers : List (String × Value) → Prop
  | [] => True
  | (_, value) :: rest => value.Written ∧ WrittenMembers rest

end

theorem writtenItems_iff {items : List Value} :
    WrittenItems items ↔ ∀ item ∈ items, item.Written := by
  induction items with
  | nil => simp [WrittenItems]
  | cons item items ih => simp [WrittenItems, ih]

theorem writtenMembers_iff {members : List (String × Value)} :
    WrittenMembers members ↔ ∀ m ∈ members, m.2.Written := by
  induction members with
  | nil => simp [WrittenMembers]
  | cons m members ih => simp [WrittenMembers, ih]

theorem endsToken_comma (rest : List Char) : EndsToken (',' :: rest) := endsToken_cons (by decide)

theorem endsToken_bracket (rest : List Char) : EndsToken (']' :: rest) := endsToken_cons (by decide)

theorem endsToken_brace (rest : List Char) : EndsToken ('}' :: rest) := endsToken_cons (by decide)

/-- A text that begins with a token is read as a number. -/
theorem read_token {token rest : List Char} {v : Value} {n : ℕ}
    (hstarts : startsNumber token = true) (htoken : token.all isNumberChar = true)
    (hv : numberOf token = some v) (hrest : EndsToken rest) :
    read (n + 1) (token ++ rest) = some (v, rest) := by
  have hnumber : readNumber (token ++ rest) = some (v, rest) := by
    have htake := takeWhile_token htoken hrest
    have hsplit := List.takeWhile_append_dropWhile (p := isNumberChar) (l := token ++ rest)
    rw [htake] at hsplit
    rw [readNumber, htake, hv, List.append_cancel_left hsplit]
    rfl
  cases token with
  | nil => simp [startsNumber] at hstarts
  | cons c token =>
      have hc : c.isDigit = true ∨ c = '-' := by simpa [startsNumber] using hstarts
      rw [← hnumber, List.cons_append]
      unfold read
      split
      case h_9 => rfl
      all_goals
        rename_i heq
        obtain ⟨rfl, -⟩ := List.cons.inj heq
        exact absurd hc (by decide)

/-- What a value is written as does not begin with the end of an array. -/
theorem head?_encode_ne {v : Value} (hv : v.Written) (rest : List Char) :
    (v.encode ++ rest).head? ≠ some ']' := by
  have htoken : ∀ {token : List Char}, startsNumber token = true →
      (token ++ rest).head? ≠ some ']' := by
    intro token hstarts hhead
    cases token with
    | nil => simp [startsNumber] at hstarts
    | cons c token =>
        obtain rfl : c = ']' := by simpa using hhead
        exact absurd hstarts (by simp [startsNumber])
  cases v with
  | null => simp [encode]
  | bool b => cases b <;> simp [encode]
  | posInt n => exact htoken (startsNumber_encodeNat n)
  | negInt n => simp [encode]
  | float text => exact htoken (startsNumber_of_isFraction hv)
  | string s => simp [encode, encodeString]
  | array items => simp [encode, encodeArray]
  | object members => simp [encode, encodeObject]

/-- An array that is not empty is read item by item. -/
theorem read_array {n : ℕ} {cs : List Char} (hcs : cs.head? ≠ some ']') :
    read (n + 1) ('[' :: cs) = (readItems n cs).map fun read => (.array read.1, read.2) := by
  cases cs with
  | nil => rfl
  | cons c cs =>
      unfold read
      split <;> simp_all

/-- An object that is not empty is read member by member. -/
theorem read_object {n : ℕ} {cs : List Char} (hcs : cs.head? ≠ some '}') :
    read (n + 1) ('{' :: cs) = (readMembers n cs).map fun read => (.object read.1, read.2) := by
  cases cs with
  | nil => rfl
  | cons c cs =>
      unfold read
      split <;> simp_all

theorem read_string (n : ℕ) (cs : List Char) :
    read (n + 1) ('"' :: cs) = (readString cs).map fun read => (.string read.1, read.2) := rfl

theorem length_commaSeparated_cons (piece next : List Char) (rest : List (List Char)) :
    (commaSeparated (piece :: next :: rest)).length
      = piece.length + 1 + (commaSeparated (next :: rest)).length := by
  rw [commaSeparated, List.length_append, List.length_cons]
  · omega
  · simp

/-- The serialisation of a member of an object. -/
def encodeMember (m : String × List Char) : List Char := encodeString m.1 ++ ':' :: m.2

theorem encodeObject_eq (members : List (String × List Char)) :
    encodeObject members = '{' :: commaSeparated (members.map encodeMember) ++ ['}'] := rfl

/-- After a member there is the end of the object or the next member. -/
theorem readMembers_member {n : ℕ} {name : String} {value : Value} {rest : List Char}
    {members : List (String × Value)} {left : List Char}
    (hread : read n (value.encode ++ rest) = some (value, rest))
    (hrest : rest = '}' :: left ∧ members = []
      ∨ ∃ next, rest = ',' :: next ∧ readMembers n next = some (members, left)) :
    readMembers (n + 1) (encodeMember (name, value.encode) ++ rest)
      = some ((name, value) :: members, left) := by
  have hname := readString_encodeString name (':' :: value.encode ++ rest)
  rw [encodeString, List.cons_append, List.tail_cons] at hname
  rw [encodeMember, List.append_assoc, encodeString, List.cons_append,
    List.cons_append, readMembers, hname]
  simp only [List.cons_append, hread]
  obtain ⟨rfl, rfl⟩ | ⟨next, rfl, hnext⟩ := hrest
  · rfl
  · simp [hnext]

theorem length_encodeMember (name : String) (cs : List Char) :
    cs.length < (encodeMember (name, cs)).length := by
  simp only [encodeMember, List.length_append, List.length_cons]
  omega

mutual

/-- A value that is written is read back, and the text after it is left. -/
theorem read_encode : ∀ (v : Value) {n : ℕ} {r : List Char}, v.Written → EndsToken r →
    v.encode.length < n → read n (v.encode ++ r) = some (v, r)
  | _, 0, _, _, _, hn => absurd hn (Nat.not_lt_zero _)
  | .null, n + 1, rest, _, _, _ => rfl
  | .bool true, n + 1, rest, _, _, _ => rfl
  | .bool false, n + 1, rest, _, _, _ => rfl
  | .posInt k, n + 1, rest, _, hrest, _ =>
      read_token (startsNumber_encodeNat k) (all_isNumberChar_encodeNat k) (numberOf_encodeNat k)
        hrest
  | .negInt k, n + 1, rest, _, hrest, _ =>
      read_token rfl (all_isNumberChar_encodeNat k) (numberOf_negative k) hrest
  | .float text, n + 1, rest, hv, hrest, _ => by
      have hread := read_token (n := n) (startsNumber_of_isFraction hv)
        (all_isNumberChar_of_isFraction hv) (numberOf_fraction hv) hrest
      rwa [String.ofList_toList] at hread
  | .string s, n + 1, rest, _, _, _ => by
      have hread := readString_encodeString s rest
      rw [encodeString, List.cons_append, List.tail_cons] at hread
      rw [encode, encodeString, List.cons_append, List.cons_append, read_string, hread]
      rfl
  | .array [], n + 1, rest, _, _, _ => rfl
  | .array (item :: items), n + 1, rest, hv, _, hn => by
      rw [encode, encodeArray, List.length_append, List.length_cons, List.length_singleton] at hn
      have hread := readItems_encode item items (r := rest) hv (n := n) (by omega)
      have hhead : (commaSeparated (encodeItems (item :: items)) ++ ']' :: rest).head?
          ≠ some ']' := by
        cases items with
        | nil => exact head?_encode_ne hv.1 _
        | cons next items =>
            rw [encodeItems, encodeItems, commaSeparated, List.append_assoc]
            · exact head?_encode_ne hv.1 _
            · simp
      rw [encode, encodeArray, List.cons_append, List.cons_append, List.append_assoc,
        List.singleton_append, read_array hhead, hread]
      rfl
  | .object [], n + 1, rest, _, _, _ => rfl
  | .object ((name, value) :: members), n + 1, rest, hv, _, hn => by
      rw [encode, encodeObject_eq, List.length_append, List.length_cons,
        List.length_singleton] at hn
      have hread := readMembers_encode name value members (r := rest) hv (n := n) (by omega)
      have hhead : (commaSeparated ((encodeMembers ((name, value) :: members)).map encodeMember)
          ++ '}' :: rest).head? ≠ some '}' := by
        cases members with
        | nil => simp [encodeMembers, encodeMember, commaSeparated, encodeString]
        | cons next members => simp [encodeMembers, encodeMember, commaSeparated, encodeString]
      rw [encode, encodeObject_eq, List.cons_append, List.cons_append, List.append_assoc,
        List.singleton_append, read_object hhead, hread]
      rfl

theorem readItems_encode : ∀ (item : Value) (items : List Value) {n : ℕ} {r : List Char},
    WrittenItems (item :: items) →
    (commaSeparated (encodeItems (item :: items))).length + 1 < n →
    readItems n (commaSeparated (encodeItems (item :: items)) ++ ']' :: r)
      = some (item :: items, r)
  | _, _, 0, _, _, hn => absurd hn (Nat.not_lt_zero _)
  | item, [], n + 1, rest, hv, hn => by
      have hread := read_encode item (n := n) hv.1 (endsToken_bracket rest)
        (Nat.lt_of_succ_lt_succ hn)
      rw [encodeItems, encodeItems, commaSeparated, readItems, hread]
      rfl
  | item, next :: items, n + 1, rest, hv, hn => by
      rw [encodeItems, encodeItems, length_commaSeparated_cons] at hn
      have hlast := readItems_encode next items (n := n) (r := rest) hv.2 (by
        rw [encodeItems]
        omega)
      have hread := read_encode item (n := n)
        (r := ',' :: (commaSeparated (encodeItems (next :: items)) ++ ']' :: rest)) hv.1
        (endsToken_comma _) (by omega)
      rw [encodeItems, encodeItems, commaSeparated, List.append_assoc, List.cons_append,
        ← encodeItems, readItems, hread]
      · simp [hlast]
      · simp

theorem readMembers_encode : ∀ (name : String) (value : Value) (members : List (String × Value))
    {n : ℕ} {r : List Char}, WrittenMembers ((name, value) :: members) →
    (commaSeparated ((encodeMembers ((name, value) :: members)).map encodeMember)).length + 1 < n →
    readMembers n (commaSeparated ((encodeMembers ((name, value) :: members)).map encodeMember)
        ++ '}' :: r)
      = some ((name, value) :: members, r)
  | _, _, _, 0, _, _, hn => absurd hn (Nat.not_lt_zero _)
  | name, value, [], n + 1, rest, hv, hn => by
      have hlength := length_encodeMember name value.encode
      rw [encodeMembers, encodeMembers, List.map_cons, List.map_nil, commaSeparated] at hn ⊢
      exact readMembers_member (read_encode value hv.1 (endsToken_brace rest) (by omega))
        (.inl ⟨rfl, rfl⟩)
  | name, value, (nextName, nextValue) :: members, n + 1, rest, hv, hn => by
      have hlength := length_encodeMember name value.encode
      rw [encodeMembers, encodeMembers, List.map_cons, List.map_cons,
        length_commaSeparated_cons, ← List.map_cons, ← encodeMembers] at hn
      have hlast := readMembers_encode nextName nextValue members (n := n) (r := rest) hv.2
        (by omega)
      have hread := read_encode value (n := n)
        (r := ',' :: (commaSeparated ((encodeMembers ((nextName, nextValue) :: members)).map
          encodeMember) ++ '}' :: rest)) hv.1 (endsToken_comma _) (by omega)
      rw [encodeMembers, encodeMembers, List.map_cons, List.map_cons, commaSeparated,
        List.append_assoc, List.cons_append, ← List.map_cons, ← encodeMembers]
      · exact readMembers_member hread (.inr ⟨_, rfl, hlast⟩)
      · simp

end

theorem written_of_numberOf {token : List Char} {v : Value} (h : numberOf token = some v) :
    v.Written := by
  unfold numberOf at h
  split_ifs at h with hnatural hnegative hfraction <;> obtain rfl := Option.some.inj h
  · trivial
  · trivial
  · rwa [Written, String.toList_ofList]

/-- Only values that can be written are read. The induction is on the bound, which the
three readers share. -/
theorem written_of_reads (n : ℕ) :
    (∀ cs v rest, read n cs = some (v, rest) → v.Written) ∧
    (∀ cs items rest, readItems n cs = some (items, rest) → WrittenItems items) ∧
    ∀ cs members rest, readMembers n cs = some (members, rest) → WrittenMembers members := by
  induction n with
  | zero =>
      refine ⟨?_, ?_, ?_⟩
      · intro cs v rest h
        simp [read] at h
      · intro cs items rest h
        simp [readItems] at h
      · intro cs members rest h
        simp [readMembers] at h
  | succ n ih =>
      obtain ⟨ihvalue, ihitems, ihmembers⟩ := ih
      refine ⟨?_, ?_, ?_⟩
      -- a value: only what is nested has been read before, with less fuel
      · intro cs v rest h
        unfold read at h
        split at h
        · obtain ⟨rfl, -⟩ := Prod.mk.inj (Option.some.inj h)
          trivial
        · obtain ⟨rfl, -⟩ := Prod.mk.inj (Option.some.inj h)
          trivial
        · obtain ⟨rfl, -⟩ := Prod.mk.inj (Option.some.inj h)
          trivial
        · obtain ⟨text, -, hv⟩ := Option.map_eq_some_iff.mp h
          obtain ⟨rfl, -⟩ := Prod.mk.inj hv
          trivial
        · obtain ⟨rfl, -⟩ := Prod.mk.inj (Option.some.inj h)
          trivial
        · obtain ⟨items, hitems, hv⟩ := Option.map_eq_some_iff.mp h
          obtain ⟨rfl, -⟩ := Prod.mk.inj hv
          exact ihitems _ _ _ hitems
        · obtain ⟨rfl, -⟩ := Prod.mk.inj (Option.some.inj h)
          trivial
        · obtain ⟨members, hmembers, hv⟩ := Option.map_eq_some_iff.mp h
          obtain ⟨rfl, -⟩ := Prod.mk.inj hv
          exact ihmembers _ _ _ hmembers
        · obtain ⟨number, hnumber, hv⟩ := Option.map_eq_some_iff.mp h
          obtain ⟨rfl, -⟩ := Prod.mk.inj hv
          exact written_of_numberOf hnumber
      -- the items of an array
      · intro cs items rest h
        unfold readItems at h
        split at h
        next v _ hread =>
          obtain ⟨rfl, -⟩ := Prod.mk.inj (Option.some.inj h)
          exact ⟨ihvalue _ _ _ hread, trivial⟩
        next v _ hread =>
          obtain ⟨more, hmore, hitems⟩ := Option.map_eq_some_iff.mp h
          obtain ⟨rfl, -⟩ := Prod.mk.inj hitems
          exact ⟨ihvalue _ _ _ hread, ihitems _ _ _ hmore⟩
        next => cases h
      -- the members of an object
      · intro cs members rest h
        unfold readMembers at h
        split at h
        next =>
          split at h
          next name _ _ =>
            split at h
            next v _ hread =>
              obtain ⟨rfl, -⟩ := Prod.mk.inj (Option.some.inj h)
              exact ⟨ihvalue _ _ _ hread, trivial⟩
            next v _ hread =>
              obtain ⟨more, hmore, hmembers⟩ := Option.map_eq_some_iff.mp h
              obtain ⟨rfl, -⟩ := Prod.mk.inj hmembers
              exact ⟨ihvalue _ _ _ hread, ihmembers _ _ _ hmore⟩
            next => cases h
          next => cases h
        next => cases h

/-! ### Documents -/

/-- The value of a text that holds nothing else. -/
def fromBytes (bytes : List UInt8) : Option Value :=
  match (fromUtf8 bytes).bind fun text => read (text.toList.length + 1) text.toList with
  | some (v, []) => some v
  | _ => none

theorem fromBytes_toBytes {v : Value} (hv : v.Written) : fromBytes v.toBytes = some v := by
  have hread := read_encode v (n := v.encode.length + 1) hv endsToken_nil (Nat.lt_succ_self _)
  rw [List.append_nil] at hread
  rw [fromBytes, toBytes, fromUtf8_utf8, Option.bind_some, String.toList_ofList, hread]

theorem written_of_fromBytes {bytes : List UInt8} {v : Value} (h : fromBytes bytes = some v) :
    v.Written := by
  unfold fromBytes at h
  split at h
  next v hread =>
    obtain rfl := Option.some.inj h
    obtain ⟨text, -, hread⟩ := Option.bind_eq_some_iff.mp hread
    exact (written_of_reads _).1 _ _ _ hread
  next => cases h

/-- Values that are written alike are the same. -/
theorem eq_of_toBytes {v w : Value} (hv : v.Written) (hw : w.Written)
    (h : v.toBytes = w.toBytes) : v = w := by
  have hread := fromBytes_toBytes hv
  rw [h, fromBytes_toBytes hw] at hread
  exact (Option.some.inj hread).symm

end Value

end VorCommander.Text
