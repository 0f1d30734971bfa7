import Mathlib.Data.List.Infix
import Mathlib.Tactic.Common

/-!
Replacing the occurrences of a pattern.

The occurrences are those found from the left, each after the end of the one
before. They cut a list into pieces, in a way that is given here apart from the
function that finds them; replacing them puts something else between the pieces.
What a property says of the pieces and of what is put between them, it says of the
whole.
-/

namespace VorCommander.Text

section Cut

variable {α : Type}

/-- The pieces between the occurrences of a pattern: each but the last is ended by
the first occurrence that there is. -/
inductive Cut (pattern : List α) : List α → List (List α) → Prop
  | last {text : List α} (hnone : ¬ pattern <:+: text) : Cut pattern text [text]
  | next {before after : List α} {pieces : List (List α)}
      (hfirst : ∀ before' after', before ++ pattern ++ after = before' ++ pattern ++ after' →
        before.length ≤ before'.length)
      (hrest : Cut pattern after pieces) :
      Cut pattern (before ++ pattern ++ after) (before :: pieces)

/-- An element before the first piece. -/
def consHead (a : α) : List (List α) → List (List α)
  | [] => [[a]]
  | piece :: pieces => (a :: piece) :: pieces

/-- A property of lists that a part of one has if its other parts have it. -/
structure Separable (pattern : List α) (U : List α → Prop) : Prop where
  before : ∀ before after, U (before ++ pattern ++ after) → U before
  after : ∀ before after, U (before ++ pattern ++ after) → U after
  append : ∀ front back, U front → U back → U (front ++ back)

namespace Cut

variable {pattern new text : List α} {pieces : List (List α)}

theorem ne_nil (h : Cut pattern text pieces) : pieces ≠ [] := by
  cases h with
  | last => exact List.cons_ne_nil _ _
  | next => exact List.cons_ne_nil _ _

/-- There is one way to cut a list. -/
theorem unique {pieces' : List (List α)} (h : Cut pattern text pieces)
    (h' : Cut pattern text pieces') : pieces = pieces' := by
  induction h generalizing pieces' with
  | @last text hnone =>
      cases h' with
      | last => rfl
      | @next before after _ _ _ => exact absurd ⟨before, after, rfl⟩ hnone
  | @next before after pieces hfirst hrest ih =>
      generalize htext : before ++ pattern ++ after = text at h'
      cases h' with
      | last hnone => exact absurd ⟨before, after, htext⟩ hnone
      | @next before' after' pieces' hfirst' hrest' =>
          have hlength : before.length = before'.length :=
            le_antisymm (hfirst before' after' htext) (hfirst' before after htext.symm)
          rw [List.append_assoc, List.append_assoc] at htext
          obtain ⟨rfl, hafter⟩ := List.append_inj htext hlength
          obtain rfl := List.append_cancel_left hafter
          rw [ih hrest']

/-- Putting the pattern between the pieces gives the list again. -/
theorem intercalate_self (h : Cut pattern text pieces) : pattern.intercalate pieces = text := by
  induction h with
  | last => exact List.intercalate_singleton
  | @next before after pieces _ hrest ih =>
      obtain ⟨piece, more, rfl⟩ := List.exists_cons_of_ne_nil hrest.ne_nil
      rw [List.intercalate_cons_cons, ih]

/-- What is preserved where an occurrence is replaced is preserved where all are. -/
theorem replaced {U : List α → Prop} (hU : Separable pattern U) (hnew : U new)
    (h : Cut pattern text pieces) (htext : U text) : U (new.intercalate pieces) := by
  induction h with
  | last => rwa [List.intercalate_singleton]
  | @next before after pieces _ hrest ih =>
      obtain ⟨piece, more, rfl⟩ := List.exists_cons_of_ne_nil hrest.ne_nil
      rw [List.intercalate_cons_cons]
      exact hU.append _ _ (hU.append _ _ (hU.before _ _ htext) hnew) (ih (hU.after _ _ htext))

/-- Something is left of a text if something is put between its pieces. -/
theorem intercalate_eq_nil (hnew : new ≠ []) (h : Cut pattern text pieces)
    (hnil : new.intercalate pieces = []) : text = [] := by
  cases h with
  | last => rwa [List.intercalate_singleton] at hnil
  | @next before after pieces _ hrest =>
      obtain ⟨piece, more, rfl⟩ := List.exists_cons_of_ne_nil hrest.ne_nil
      rw [List.intercalate_cons_cons, List.append_eq_nil_iff, List.append_eq_nil_iff] at hnil
      exact absurd hnil.1.2 hnew

/-- An element where no occurrence begins belongs to the piece after it. -/
theorem cons {a : α} {rest : List α} (hnot : ¬ pattern <+: a :: rest)
    (h : Cut pattern rest pieces) : Cut pattern (a :: rest) (consHead a pieces) := by
  cases h with
  | last hnone =>
      refine last fun hinfix => ?_
      exact (List.infix_cons_iff.mp hinfix).elim hnot hnone
  | @next before after pieces hfirst hrest =>
      change Cut pattern ((a :: before) ++ pattern ++ after) _
      refine next (fun before' after' heq => ?_) hrest
      cases before' with
      | nil => exact absurd ⟨after', heq.symm⟩ hnot
      | cons b before' =>
          have htail := (List.cons.inj heq).2
          exact Nat.succ_le_succ (hfirst before' after' htail)

end Cut

theorem intercalate_consHead (new : List α) (a : α) {pieces : List (List α)} (hne : pieces ≠ []) :
    new.intercalate (consHead a pieces) = a :: new.intercalate pieces := by
  obtain ⟨piece, more, rfl⟩ := List.exists_cons_of_ne_nil hne
  cases more with
  | nil => rw [consHead, List.intercalate_singleton, List.intercalate_singleton]
  | cons piece' more =>
      rw [consHead, List.intercalate_cons_cons, List.intercalate_cons_cons]
      rfl

end Cut

section Split

variable {α : Type} [DecidableEq α]

/-- The pieces of what is left of a text, some elements of which belong to an
occurrence. -/
def splitFrom (pattern : List α) : ℕ → List α → List (List α)
  | _, [] => [[]]
  | 0, a :: rest =>
      if pattern.isPrefixOf (a :: rest) then [] :: splitFrom pattern (pattern.length - 1) rest
      else consHead a (splitFrom pattern 0 rest)
  | skip + 1, _ :: rest => splitFrom pattern skip rest

/-- `str::split`, by a pattern that is not empty. -/
def split (pattern text : List α) : List (List α) := splitFrom pattern 0 text

theorem splitFrom_eq_split (pattern : List α) (skip : ℕ) (text : List α) :
    splitFrom pattern skip text = split pattern (text.drop skip) := by
  induction text generalizing skip with
  | nil => cases skip <;> simp [split, splitFrom]
  | cons a rest ih =>
      cases skip with
      | zero => rfl
      | succ skip => rw [splitFrom, ih, List.drop_succ_cons]

theorem split_append {pattern : List α} (hne : pattern ≠ []) (after : List α) :
    split pattern (pattern ++ after) = [] :: split pattern after := by
  obtain ⟨a, pattern, rfl⟩ := List.exists_cons_of_ne_nil hne
  have hprefix : (a :: pattern).isPrefixOf (a :: (pattern ++ after)) = true :=
    List.isPrefixOf_iff_prefix.mpr ⟨after, rfl⟩
  rw [List.cons_append, split, splitFrom, if_pos hprefix, splitFrom_eq_split, List.length_cons,
    Nat.add_sub_cancel, List.drop_left]

/-- The pieces of a text are those between the occurrences. -/
theorem cut_split {pattern : List α} (hne : pattern ≠ []) (text : List α) :
    Cut pattern text (split pattern text) := by
  induction hlength : text.length using Nat.strong_induction_on generalizing text with
  | _ n ih =>
      by_cases hprefix : pattern <+: text
      · obtain ⟨after, rfl⟩ := hprefix
        have hshorter : after.length < n := by
          rw [← hlength, List.length_append]
          exact Nat.lt_add_of_pos_left (List.length_pos_iff.mpr hne)
        rw [split_append hne]
        change Cut pattern ([] ++ pattern ++ after) _
        exact Cut.next (fun _ _ _ => Nat.zero_le _) (ih _ hshorter after rfl)
      · cases text with
        | nil => exact Cut.last fun hinfix => hne (List.infix_nil.mp hinfix)
        | cons a rest =>
            have hnot : ¬ pattern.isPrefixOf (a :: rest) = true :=
              fun h => hprefix (List.isPrefixOf_iff_prefix.mp h)
            rw [split, splitFrom, if_neg hnot]
            exact (ih _
              (by rw [← hlength, List.length_cons]; exact Nat.lt_succ_self _) rest rfl).cons
              hprefix

theorem cut_iff {pattern text : List α} (hne : pattern ≠ []) {pieces : List (List α)} :
    Cut pattern text pieces ↔ pieces = split pattern text := by
  constructor
  · exact fun h => h.unique (cut_split hne text)
  · rintro rfl
    exact cut_split hne text

/-- `text.matches(pattern).count()`, for a pattern that is not empty. -/
def occurrences (pattern text : List α) : ℕ := (split pattern text).length - 1

/-- `str::replace`, of a pattern that is not empty. -/
def replace (pattern new text : List α) : List α := new.intercalate (split pattern text)

theorem replace_eq_nil {pattern new text : List α} (hne : pattern ≠ []) (hnew : new ≠ [])
    (hnil : replace pattern new text = []) : text = [] :=
  (cut_split hne text).intercalate_eq_nil hnew hnil

/-- Replacing a single element. -/
theorem replace_singleton (a : α) (new text : List α) :
    replace [a] new text = text.flatMap fun b => if b = a then new else [b] := by
  induction text with
  | nil => rfl
  | cons b rest ih =>
      have hne : split [a] rest ≠ [] := (cut_split (List.cons_ne_nil a []) rest).ne_nil
      rw [List.flatMap_cons, ← ih]
      by_cases hb : b = a
      · subst hb
        obtain ⟨piece, more, hpieces⟩ := List.exists_cons_of_ne_nil hne
        have hsplit : split [b] (b :: rest) = [] :: split [b] rest :=
          split_append (List.cons_ne_nil b []) rest
        rw [if_pos rfl, replace, hsplit, replace, hpieces, List.intercalate_cons_cons]
        rfl
      · have hnot : ¬ [a].isPrefixOf (b :: rest) = true := by
          simpa using fun h : a = b => hb h.symm
        rw [if_neg hb, replace, split, splitFrom, if_neg hnot]
        exact intercalate_consHead new b hne

end Split

end VorCommander.Text
