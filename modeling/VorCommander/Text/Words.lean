import Mathlib.Data.List.Infix

/-!
The words of a sequence.

A predicate tells which members of a sequence separate its words. Words are
the longest runs without a separator, so it does not matter how many
separators stand between two of them, nor which.
-/

namespace VorCommander.Text

variable {α β : Type}

theorem mem_splitOnP {p : α → Bool} {l part : List α} (hpart : part ∈ l.splitOnP p) :
    ∀ a ∈ part, a ∈ l ∧ p a = false := by
  induction l generalizing part with
  | nil =>
      rw [List.splitOnP_nil, List.mem_singleton] at hpart
      rw [hpart]
      simp
  | cons b l ih =>
      rw [List.splitOnP_cons_eq_if_modifyHead] at hpart
      split at hpart
      case isTrue hb =>
          rcases List.mem_cons.mp hpart with rfl | hpart
          · simp
          · exact fun a ha => ⟨List.mem_cons_of_mem b (ih hpart a ha).1, (ih hpart a ha).2⟩
      case isFalse hb =>
          cases hparts : l.splitOnP p with
          | nil => exact absurd hparts (List.splitOnP_ne_nil p l)
          | cons first rest =>
              rw [hparts, List.modifyHead_cons] at hpart
              have hsub : ∀ part ∈ first :: rest, ∀ a ∈ part, a ∈ l ∧ p a = false := by
                intro part hmem
                exact ih (hparts ▸ hmem)
              intro a ha
              rcases List.mem_cons.mp hpart with rfl | hmem
              · rcases List.mem_cons.mp ha with rfl | ha
                · exact ⟨List.mem_cons_self, Bool.eq_false_iff.mpr hb⟩
                · obtain ⟨hl, hp⟩ := hsub first List.mem_cons_self a ha
                  exact ⟨List.mem_cons_of_mem b hl, hp⟩
              · obtain ⟨hl, hp⟩ := hsub part (List.mem_cons_of_mem _ hmem) a ha
                exact ⟨List.mem_cons_of_mem b hl, hp⟩

/-- The words of a sequence between members satisfying `p`. -/
def words (p : α → Bool) (l : List α) : List (List α) :=
  (l.splitOnP p).filter fun word => !word.isEmpty

theorem mem_words {p : α → Bool} {l word : List α} (h : word ∈ words p l) :
    word ≠ [] ∧ ∀ a ∈ word, a ∈ l ∧ p a = false := by
  obtain ⟨hsplit, hnonempty⟩ := List.mem_filter.mp h
  refine ⟨?_, mem_splitOnP hsplit⟩
  rintro rfl
  cases hnonempty

@[simp] theorem words_nil (p : α → Bool) : words p [] = [] := by
  simp [words]

/-- The words before a separator, and those after it. -/
theorem words_append_cons {p : α → Bool} {separator : α} (hseparator : p separator = true)
    (l l' : List α) : words p (l ++ separator :: l') = words p l ++ words p l' := by
  rw [words, List.splitOnP_append_cons l l' hseparator, List.filter_append]
  rfl

theorem words_cons {p : α → Bool} {separator : α} (hseparator : p separator = true) (l : List α) :
    words p (separator :: l) = words p l :=
  words_append_cons hseparator [] l

/-- A sequence without separators is a word, if it has any members. -/
theorem words_of_forall {p : α → Bool} {word : List α} (hword : word ≠ [])
    (h : ∀ a ∈ word, p a = false) : words p word = [word] := by
  rw [words, List.splitOnP_eq_singleton h]
  simp [hword]

/-- Words put together with separators between them are found again. -/
theorem words_intercalate {p : α → Bool} {separator : α} (hseparator : p separator = true)
    {parts : List (List α)} (h : ∀ part ∈ parts, part ≠ [] ∧ ∀ a ∈ part, p a = false) :
    words p (List.intercalate [separator] parts) = parts := by
  induction parts with
  | nil => exact words_nil p
  | cons part parts ih =>
      obtain ⟨⟨hnonempty, hpart⟩, hparts⟩ := List.forall_mem_cons.mp h
      cases parts with
      | nil =>
          rw [List.intercalate_singleton]
          exact words_of_forall hnonempty hpart
      | cons next parts =>
          rw [List.intercalate_cons_cons, List.append_assoc, List.singleton_append,
            words_append_cons hseparator, ih hparts, words_of_forall hnonempty hpart]
          rfl

/-- A separator before each part, where otherwise one stands between any two. -/
theorem cons_intercalate {parts : List (List α)} (h : parts ≠ []) (separator : α) :
    separator :: List.intercalate [separator] parts =
      parts.flatMap fun part => separator :: part := by
  induction parts with
  | nil => exact absurd rfl h
  | cons part parts ih =>
      cases parts with
      | nil => simp
      | cons next parts =>
          rw [List.flatMap_cons, ← ih (List.cons_ne_nil _ _), List.intercalate_cons_cons,
            List.append_assoc, List.singleton_append, List.cons_append]

theorem words_flatMap {p : α → Bool} {separator : α} (hseparator : p separator = true)
    {parts : List (List α)} (h : ∀ part ∈ parts, part ≠ [] ∧ ∀ a ∈ part, p a = false) :
    words p (parts.flatMap fun part => separator :: part) = parts := by
  by_cases hparts : parts = []
  · subst hparts
    exact words_nil p
  · rw [← cons_intercalate hparts, words_cons hseparator, words_intercalate hseparator h]

theorem map_intercalate (f : α → β) (separator : List α) (parts : List (List α)) :
    (List.intercalate separator parts).map f =
      List.intercalate (separator.map f) (parts.map (List.map f)) := by
  induction parts with
  | nil => rfl
  | cons part parts ih =>
      cases parts with
      | nil => simp
      | cons next parts =>
          rw [List.intercalate_cons_cons, List.map_append, List.map_append, ih, List.map_cons,
            List.map_cons, List.map_cons, List.intercalate_cons_cons]

theorem splitOnP_map {p : β → Bool} {q : α → Bool} {f : α → β} (hf : ∀ a, p (f a) = q a)
    (l : List α) : (l.map f).splitOnP p = (l.splitOnP q).map (List.map f) := by
  induction l with
  | nil => simp
  | cons a l ih =>
      rw [List.map_cons, List.splitOnP_cons_eq_if_modifyHead, List.splitOnP_cons_eq_if_modifyHead,
        hf, ih]
      cases hqa : q a with
      | true => rfl
      | false =>
          obtain ⟨first, rest, hsplit⟩ := List.exists_cons_of_ne_nil (List.splitOnP_ne_nil q l)
          rw [hsplit]
          rfl

/-- A change of the members that keeps separators apart from others changes
the words alike. -/
theorem words_map {p : β → Bool} {q : α → Bool} {f : α → β} (hf : ∀ a, p (f a) = q a) (l : List α) :
    words p (l.map f) = (words q l).map (List.map f) := by
  rw [words, splitOnP_map hf, List.filter_map, words]
  congr 1
  apply List.filter_congr
  intro part _
  cases part <;> rfl

/-- A sequence with one `separator` for each run of separators, and with every
other member changed by `f`; `after` says that it begins after a separator. -/
def squeeze (p : α → Bool) (separator : β) (f : α → β) (after : Bool) : List α → List β
  | [] => []
  | a :: l =>
      if p a then
        if after then squeeze p separator f true l
        else separator :: squeeze p separator f true l
      else f a :: squeeze p separator f false l

/-- How a squeezed sequence that does not begin after a separator begins. -/
theorem squeeze_eq_cons {p : α → Bool} {separator b : β} {f : α → β} {l : List α} {rest : List β}
    (h : squeeze p separator f false l = b :: rest) :
    ∃ a l', l = a :: l' ∧ ((p a = true ∧ b = separator ∧ rest = squeeze p separator f true l') ∨
      (p a = false ∧ b = f a ∧ rest = squeeze p separator f false l')) := by
  cases l with
  | nil => cases h
  | cons a l =>
      refine ⟨a, l, rfl, ?_⟩
      cases ha : p a with
      | true =>
          simp only [squeeze, ha, if_true, Bool.false_eq_true, if_false] at h
          obtain ⟨rfl, rfl⟩ := List.cons.inj h
          exact Or.inl ⟨rfl, rfl, rfl⟩
      | false =>
          simp only [squeeze, ha, Bool.false_eq_true, if_false] at h
          obtain ⟨rfl, rfl⟩ := List.cons.inj h
          exact Or.inr ⟨rfl, rfl, rfl⟩

/-- What `f` makes of its own values and of separators does not show in a
squeezed sequence. -/
theorem squeeze_map {p : α → Bool} {separator : α} {f : α → α} (hf : ∀ a, p (f a) = p a)
    (hff : ∀ a, f (f a) = f a) (after : Bool) (l : List α) :
    squeeze p separator f after (l.map f) = squeeze p separator f after l := by
  induction l generalizing after with
  | nil => rfl
  | cons a l ih => simp only [List.map_cons, squeeze, hf, hff, ih]

/-- Runs of separators separate the words that one separator does. -/
theorem words_squeeze {p : α → Bool} {q : β → Bool} {separator : β} {f : α → β}
    (hseparator : q separator = true) (hf : ∀ a, q (f a) = p a) (l : List α) :
    (∀ before, words q (before ++ squeeze p separator f false l) = words q (before ++ l.map f)) ∧
      words q (squeeze p separator f true l) = words q (l.map f) := by
  induction l with
  | nil => exact ⟨fun _ => rfl, rfl⟩
  | cons a l ih =>
      obtain ⟨ihfalse, ihtrue⟩ := ih
      cases ha : p a with
      | true =>
          have hfa : q (f a) = true := (hf a).trans ha
          simp only [squeeze, ha, if_true, Bool.false_eq_true, if_false, List.map_cons]
          constructor
          · intro before
            rw [words_append_cons hseparator, words_append_cons hfa, ihtrue]
          · rw [words_cons hfa, ihtrue]
      | false =>
          simp only [squeeze, ha, Bool.false_eq_true, if_false, List.map_cons]
          constructor
          · intro before
            have hafter := ihfalse (before ++ [f a])
            rwa [List.append_assoc, List.append_assoc] at hafter
          · exact ihfalse [f a]

end VorCommander.Text
