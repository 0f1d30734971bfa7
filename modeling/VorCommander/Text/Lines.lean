import VorCommander.Text.Delimited

/-!
Files of lines.

A file is a sequence of bytes. What a program gets of it line by line depends
on where the line feeds are and on which pieces between them are UTF-8. Text
that was written as lines comes back as these lines, since a line feed is never
part of the encoding of another character.
-/

namespace VorCommander.Text

/-! ### UTF-8 -/

theorem utf8_eq_flatMap (s : String) : utf8 s = s.toList.flatMap String.utf8EncodeChar := by
  have hbytes : s.toByteArray = (s.toList.flatMap String.utf8EncodeChar).toByteArray :=
    String.utf8Encode_toList.symm
  change s.toByteArray.data.toList = _
  rw [hbytes, List.toList_data_toByteArray]

theorem utf8_ofList (cs : List Char) :
    utf8 (String.ofList cs) = cs.flatMap String.utf8EncodeChar := by
  rw [utf8_eq_flatMap, String.toList_ofList]

theorem utf8_injective : Function.Injective utf8 := by
  intro s t h
  apply String.toByteArray_inj.mp
  apply ByteArray.ext
  exact Array.toList_inj.mp h

/-- `String::from_utf8`, or `str::from_utf8`. -/
def fromUtf8 (bytes : List UInt8) : Option String := String.fromUTF8? ⟨bytes.toArray⟩

@[simp] theorem fromUtf8_utf8 (s : String) : fromUtf8 (utf8 s) = some s := by
  have hbytes : (⟨(utf8 s).toArray⟩ : ByteArray) = s.toByteArray := by
    apply ByteArray.ext
    rfl
  rw [fromUtf8, hbytes, String.fromUTF8?, dif_pos s.isValidUTF8]
  rfl

/-- The line feed. -/
def lineFeed : UInt8 := 10

theorem lineFeed_ne_ofNat {n : ℕ} (hlow : 128 ≤ n) (hhigh : n < 256) :
    lineFeed ≠ UInt8.ofNat n := by
  intro heq
  have hnat := congrArg UInt8.toNat heq
  simp only [lineFeed, UInt8.reduceToNat, UInt8.toNat_ofNat'] at hnat
  omega

/-- No other character has a line feed in its encoding. -/
theorem eq_of_lineFeed_mem_utf8EncodeChar {c : Char} (h : lineFeed ∈ String.utf8EncodeChar c) :
    c = '\n' := by
  rw [String.utf8EncodeChar] at h
  split_ifs at h with hone
  · -- a character of one byte is that byte
    have heq : lineFeed = UInt8.ofNat c.val.toNat := List.mem_singleton.mp h
    have hnat := congrArg UInt8.toNat heq
    simp only [lineFeed, UInt8.reduceToNat, UInt8.toNat_ofNat'] at hnat
    apply Char.ext
    apply UInt32.toNat_inj.mp
    change c.val.toNat = 10
    omega
  all_goals
    refine absurd h ?_
    simp only [List.mem_cons, List.not_mem_nil, or_false, not_or]
    and_intros <;> exact lineFeed_ne_ofNat (by omega) (by omega)

/-- No byte of an encoding is as large as those of the marks of UTF-16. -/
theorem toNat_lt_of_mem_utf8EncodeChar (c : Char) :
    ∀ b ∈ String.utf8EncodeChar c, b.toNat < 0xf8 := by
  rw [String.utf8EncodeChar]
  split_ifs
  all_goals
    simp only [List.forall_mem_cons, List.not_mem_nil, false_imp_iff, implies_true, and_true,
      UInt8.toNat_ofNat']
    omega

/-- Three bytes are the encoding of one character only. -/
theorem eq_of_byteOrderMark {c : Char} {rest payload : List UInt8}
    (h : String.utf8EncodeChar c ++ rest = [0xef, 0xbb, 0xbf] ++ payload) : c = '\ufeff' := by
  have hbyte : ∀ {n : ℕ} {b : UInt8}, UInt8.ofNat n = b → n % 256 = b.toNat := by
    rintro n b rfl
    exact UInt8.toNat_ofNat'.symm
  have hvalid : c.val.toNat < 0xd800 ∨ 0xdfff < c.val.toNat ∧ c.val.toNat < 0x110000 := c.valid
  rw [String.utf8EncodeChar] at h
  apply Char.ext
  apply UInt32.toNat_inj.mp
  change c.val.toNat = 0xfeff
  split_ifs at h
  all_goals
    simp only [List.cons_append, List.nil_append, List.cons.injEq] at h
  -- the first byte tells how many there are
  · have hfirst : c.val.toNat % 256 = 0xef := hbyte h.1
    omega
  · have hfirst : (c.val.toNat / 64 % 0x20 + 0xc0) % 256 = 0xef := hbyte h.1
    omega
  · obtain ⟨hfirst, hsecond, hthird, _⟩ := h
    have hfirst : (c.val.toNat / 4096 % 0x10 + 0xe0) % 256 = 0xef := hbyte hfirst
    have hsecond : (c.val.toNat / 64 % 0x40 + 0x80) % 256 = 0xbb := hbyte hsecond
    have hthird : (c.val.toNat % 0x40 + 0x80) % 256 = 0xbf := hbyte hthird
    omega
  · have hfirst : (c.val.toNat / 262144 % 0x08 + 0xf0) % 256 = 0xef := hbyte h.1
    omega

theorem lineFeed_notMem_utf8 {s : String} (h : '\n' ∉ s.toList) : lineFeed ∉ utf8 s := by
  rw [utf8_eq_flatMap, List.mem_flatMap]
  rintro ⟨c, hc, hmem⟩
  obtain rfl := eq_of_lineFeed_mem_utf8EncodeChar hmem
  exact h hc

/-! ### Lines -/

/-- The pieces of a file, each up to a line feed, which is part of it; what comes
after the last one is a piece if it is not empty. -/
def rawLines : List UInt8 → List (List UInt8)
  | [] => []
  | b :: rest =>
      if b = lineFeed then [b] :: rawLines rest
      else
        match rawLines rest with
        | [] => [[b]]
        | line :: more => (b :: line) :: more

theorem rawLines_line_append {line : List UInt8} (hline : lineFeed ∉ line) (rest : List UInt8) :
    rawLines (line ++ lineFeed :: rest) = (line ++ [lineFeed]) :: rawLines rest := by
  induction line with
  | nil => simp [rawLines]
  | cons b line ih =>
      obtain ⟨hb, hline⟩ : lineFeed ≠ b ∧ lineFeed ∉ line := by simpa using hline
      rw [List.cons_append, rawLines, if_neg (Ne.symm hb), ih hline]
      rfl

theorem rawLines_of_notMem {line : List UInt8} (hline : lineFeed ∉ line) (hne : line ≠ []) :
    rawLines line = [line] := by
  induction line with
  | nil => exact absurd rfl hne
  | cons b line ih =>
      obtain ⟨hb, hline⟩ : lineFeed ≠ b ∧ lineFeed ∉ line := by simpa using hline
      rw [rawLines, if_neg (Ne.symm hb)]
      cases line with
      | nil => simp [rawLines]
      | cons b' line => rw [ih hline (by simp)]

/-- A file that begins with complete lines. -/
theorem rawLines_flatMap_append {α : Type} {line : α → List UInt8}
    (hline : ∀ a, lineFeed ∉ line a) (items : List α) (rest : List UInt8) :
    rawLines (items.flatMap (fun a => line a ++ [lineFeed]) ++ rest) =
      items.map (fun a => line a ++ [lineFeed]) ++ rawLines rest := by
  induction items with
  | nil => rfl
  | cons a items ih =>
      rw [List.flatMap_cons, List.append_assoc, List.append_assoc, List.singleton_append,
        rawLines_line_append (hline a), ih]
      rfl

/-- A line without its line feed and the carriage return before it. -/
def stripLineEnd (s : String) : String :=
  let cs := s.toList
  if cs.getLast? = some '\n' then
    let cs := cs.dropLast
    if cs.getLast? = some '\r' then String.ofList cs.dropLast else String.ofList cs
  else s

/-- What `BufRead::lines` makes of one piece: an error unless it is UTF-8. -/
def readLine (raw : List UInt8) : Option String := (fromUtf8 raw).map stripLineEnd

theorem utf8_append (s t : String) : utf8 (s ++ t) = utf8 s ++ utf8 t := by
  rw [utf8_eq_flatMap, String.toList_append, List.flatMap_append, ← utf8_eq_flatMap,
    ← utf8_eq_flatMap]

/-- A line that was written is read back. -/
theorem readLine_utf8 {s : String} (hs : s.toList.getLast? ≠ some '\r') :
    readLine (utf8 s ++ [lineFeed]) = some s := by
  have hfeed : utf8 s ++ [lineFeed] = utf8 (s ++ "\n") := by
    rw [utf8_append]
    rfl
  simp [hfeed, readLine, stripLineEnd, hs]

/-- So is one that was not ended. -/
theorem readLine_unended {s : String} (hs : s.toList.getLast? ≠ some '\n') :
    readLine (utf8 s) = some s := by
  simp [readLine, stripLineEnd, hs]

/-! ### Texts of one line -/

theorem mem_commaSeparated {c : Char} {pieces : List (List Char)} (h : c ∈ commaSeparated pieces) :
    c = ',' ∨ ∃ piece ∈ pieces, c ∈ piece := by
  induction pieces with
  | nil => cases h
  | cons piece rest ih =>
      cases rest with
      | nil => exact .inr ⟨piece, by simp, h⟩
      | cons next rest =>
          change c ∈ piece ++ ',' :: commaSeparated (next :: rest) at h
          rw [List.mem_append, List.mem_cons] at h
          rcases h with h | h | h
          · exact .inr ⟨piece, by simp, h⟩
          · exact .inl h
          · rcases ih h with h | ⟨piece', hmem, h⟩
            · exact .inl h
            · exact .inr ⟨piece', List.mem_cons_of_mem _ hmem, h⟩

theorem hexDigit_ne_lineFeed : ∀ n < 16, '\n' ≠ hexDigit n := by decide

theorem lineFeed_notMem_escapeChar (c : Char) : '\n' ∉ escapeChar c := by
  rw [escapeChar]
  split_ifs with _ _ _ _ hn _ _ hcontrol
  any_goals decide
  · have hhigh := hexDigit_ne_lineFeed (c.toNat / 16) (by omega)
    have hlow := hexDigit_ne_lineFeed (c.toNat % 16) (by omega)
    simp [hhigh, hlow]
  · simpa using Ne.symm hn

theorem lineFeed_notMem_encodeString (s : String) : '\n' ∉ encodeString s := by
  simp only [encodeString, List.mem_cons, List.cons_append, List.mem_append, List.mem_flatMap,
    List.not_mem_nil, or_false, not_or, not_exists, not_and]
  exact ⟨by decide, fun c _ => lineFeed_notMem_escapeChar c, by decide⟩

theorem lineFeed_notMem_encodeNat (n : ℕ) : '\n' ∉ encodeNat n := fun h =>
  absurd (isDigit_of_mem_encodeNat h) (by decide)

namespace Value

mutual

/-- The numbers that are kept as text have no line feed in it. -/
def oneLine : Value → Prop
  | .float text => '\n' ∉ text.toList
  | .array items => oneLineItems items
  | .object members => oneLineMembers members
  | _ => True

def oneLineItems : List Value → Prop
  | [] => True
  | item :: rest => item.oneLine ∧ oneLineItems rest

def oneLineMembers : List (String × Value) → Prop
  | [] => True
  | (_, value) :: rest => value.oneLine ∧ oneLineMembers rest

end

mutual

/-- Line feeds inside of strings are escaped, and nothing else has one. -/
theorem lineFeed_notMem_encode (v : Value) (hv : v.oneLine) : '\n' ∉ v.encode := by
  cases v with
  | null => decide
  | bool b => cases b <;> decide
  | posInt n => exact lineFeed_notMem_encodeNat n
  | negInt n =>
      rw [encode, List.mem_cons, not_or]
      exact ⟨by decide, lineFeed_notMem_encodeNat n⟩
  | float text => exact hv
  | string s => exact lineFeed_notMem_encodeString s
  | array items =>
      have hitems := lineFeed_notMem_encodeItems items hv
      simp only [encode, encodeArray, List.mem_cons, List.cons_append, List.mem_append,
        List.not_mem_nil, or_false, not_or]
      refine ⟨by decide, fun h => ?_, by decide⟩
      rcases mem_commaSeparated h with h | ⟨piece, hmem, h⟩
      · exact absurd h (by decide)
      · exact hitems piece hmem h
  | object members =>
      have hmembers := lineFeed_notMem_encodeMembers members hv
      simp only [encode, encodeObject, List.mem_cons, List.cons_append, List.mem_append,
        List.not_mem_nil, or_false, not_or]
      refine ⟨by decide, fun h => ?_, by decide⟩
      rcases mem_commaSeparated h with h | ⟨piece, hmem, h⟩
      · exact absurd h (by decide)
      · obtain ⟨m, hm, rfl⟩ := List.mem_map.mp hmem
        rcases List.mem_append.mp h with h | h
        · exact lineFeed_notMem_encodeString m.1 h
        · rcases List.mem_cons.mp h with h | h
          · exact absurd h (by decide)
          · exact hmembers m hm h

theorem lineFeed_notMem_encodeItems (items : List Value) (hitems : oneLineItems items) :
    ∀ piece ∈ encodeItems items, '\n' ∉ piece := by
  match items with
  | [] => simp [encodeItems]
  | item :: rest =>
      obtain ⟨hitem, hrest⟩ := hitems
      rw [encodeItems, List.forall_mem_cons]
      exact ⟨lineFeed_notMem_encode item hitem, lineFeed_notMem_encodeItems rest hrest⟩

theorem lineFeed_notMem_encodeMembers (members : List (String × Value))
    (hmembers : oneLineMembers members) : ∀ m ∈ encodeMembers members, '\n' ∉ m.2 := by
  match members with
  | [] => simp [encodeMembers]
  | (name, value) :: rest =>
      obtain ⟨hvalue, hrest⟩ := hmembers
      rw [encodeMembers, List.forall_mem_cons]
      exact ⟨lineFeed_notMem_encode value hvalue, lineFeed_notMem_encodeMembers rest hrest⟩

end

end Value

end VorCommander.Text
