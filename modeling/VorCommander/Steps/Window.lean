import Mathlib.Algebra.BigOperators.Group.Finset.Basic
import Mathlib.Algebra.Order.BigOperators.Group.List
import Mathlib.Algebra.Order.Ring.Nat
import Mathlib.Data.Finset.Card

/-!
Limits over a sliding window.

Entries with a time and a weight are admitted one after the other. An entry
is within the limit if its weight, together with the weights of the older
entries that are not further back than the length of the window, does not
exceed the limit. The entries older than one may well carry later times; what
counts is the order of admission. Then the limit holds for every position of
the window.
-/

namespace VorCommander.Steps

variable {α : Type} (span limit : ℕ) (time weight : α → ℕ)

/-- The weight of the entries with times in a range. -/
def windowWeight (entries : List α) (first last : ℕ) : ℕ :=
  ((entries.filter fun x => first ≤ time x ∧ time x ≤ last).map weight).sum

/-- The weight of the entries from a time on. -/
def weightSince (entries : List α) (first : ℕ) : ℕ :=
  ((entries.filter fun x => first ≤ time x).map weight).sum

/-- Every entry was within the limit when it was admitted; the newest entry
is the first. -/
def WithinLimit : List α → Prop
  | [] => True
  | x :: older =>
      weightSince time weight older (time x - span) + weight x ≤ limit ∧ WithinLimit older

variable {span limit time weight}

theorem windowWeight_le_weightSince {entries : List α} {first last first' : ℕ}
    (h : first' ≤ first) :
    windowWeight time weight entries first last ≤ weightSince time weight entries first' := by
  unfold windowWeight weightSince
  refine (List.Sublist.map weight (List.monotone_filter_right entries ?_)).sum_le_sum (by simp)
  intro x hx
  simp only [decide_eq_true_eq] at hx ⊢
  omega

/-- The limit holds wherever the window is placed. -/
theorem WithinLimit.windowWeight_le {entries : List α}
    (h : WithinLimit span limit time weight entries)
    (first : ℕ) : windowWeight time weight entries first (first + span) ≤ limit := by
  induction entries with
  | nil => simp [windowWeight]
  | cons x older ih =>
      by_cases hx : first ≤ time x ∧ time x ≤ first + span
      · -- the newest entry of the window was admitted with all others in view
        have hview : time x - span ≤ first := by omega
        have hold : windowWeight time weight older first (first + span) ≤
            weightSince time weight older (time x - span) := windowWeight_le_weightSince hview
        have hnew := h.1
        simp only [windowWeight, List.filter_cons, hx, and_self, decide_true, if_true,
          List.map_cons, List.sum_cons] at hold ⊢
        omega
      · simpa [windowWeight, hx] using ih h.2

/-- A sum over a set is bounded by the sum over a list that has an entry for
each of its members. -/
theorem sum_le_of_entries {β : Type} {f : ℕ → ℕ} {g : β → ℕ} {entries : List (ℕ × β)}
    {members : Finset ℕ} (h : ∀ i ∈ members, ∃ b, (i, b) ∈ entries ∧ f i ≤ g b) :
    ∑ i ∈ members, f i ≤ (entries.map fun entry => g entry.2).sum := by
  induction entries generalizing members with
  | nil =>
      have hempty : members = ∅ :=
        Finset.eq_empty_of_forall_notMem fun i hi => by simpa using h i hi
      simp [hempty]
  | cons entry entries ih =>
      obtain ⟨j, b⟩ := entry
      have hrest : ∑ i ∈ members.erase j, f i ≤ (entries.map fun entry => g entry.2).sum := by
        refine ih fun i hi => ?_
        obtain ⟨hne, hi⟩ := Finset.mem_erase.mp hi
        obtain ⟨b', hmem, hle⟩ := h i hi
        exact ⟨b', by simpa [hne] using hmem, hle⟩
      by_cases hj : j ∈ members
      · obtain ⟨b', hmem, hle⟩ := h j hj
        rcases List.mem_cons.mp hmem with heq | hmem
        · obtain rfl := (Prod.mk.inj heq).2
          rw [← Finset.add_sum_erase _ _ hj, List.map_cons, List.sum_cons]
          exact Nat.add_le_add hle hrest
        · -- the entry of `j` is further back, so the first one is not needed
          have hall : ∑ i ∈ members, f i ≤ (entries.map fun entry => g entry.2).sum := by
            refine ih fun i hi => ?_
            by_cases hij : i = j
            · exact ⟨b', hij ▸ hmem, hij ▸ hle⟩
            · obtain ⟨b'', hmem'', hle''⟩ := h i hi
              exact ⟨b'', by simpa [hij] using hmem'', hle''⟩
          rw [List.map_cons, List.sum_cons]
          omega
      · rw [Finset.erase_eq_of_notMem hj] at hrest
        rw [List.map_cons, List.sum_cons]
        omega

end VorCommander.Steps
