import Mathlib.Data.List.Sort
import Mathlib.Data.List.Destutter
import Mathlib.Data.List.Perm.Basic

/-!
Canonical forms of lists.

A list that stands for a set has a canonical form, sorted and without repetition,
and a list that stands for a multiset has its sorted form. Two lists have the same
form if and only if they stand for the same set or the same multiset.
-/

namespace VorCommander.Text

/-! ### Sets -/

section Sets

variable {α : Type*} [LinearOrder α]

/-- The elements of a list, sorted and without repetition. -/
def sortedSet (l : List α) : List α := (l.insertionSort (· ≤ ·)).destutter (· ≠ ·)

theorem mem_destutter'_ne {a b : α} {l : List α} :
    b ∈ l.destutter' (· ≠ ·) a ↔ b = a ∨ b ∈ l := by
  induction l generalizing a with
  | nil => simp
  | cons c l ih =>
      rw [List.destutter'_cons]
      split_ifs with hac
      · simp [ih]
      · obtain rfl : a = c := not_not.mp hac
        simp [ih]

theorem mem_sortedSet {a : α} {l : List α} : a ∈ sortedSet l ↔ a ∈ l := by
  rw [← List.mem_insertionSort (· ≤ ·) (l := l), sortedSet]
  cases l.insertionSort (· ≤ ·) with
  | nil => simp
  | cons b l => rw [List.destutter_cons', mem_destutter'_ne, List.mem_cons]

theorem pairwise_sortedSet (l : List α) : (sortedSet l).Pairwise (· < ·) := by
  have hle : (sortedSet l).Pairwise (· ≤ ·) :=
    (List.pairwise_insertionSort (· ≤ ·) l).sublist (List.destutter_sublist _ _)
  have hne : (sortedSet l).IsChain (· ≠ ·) := List.isChain_destutter _ _
  -- neighbours are in order and differ, and so are the others behind them
  rw [← List.isChain_iff_pairwise] at hle ⊢
  rw [List.isChain_iff_getElem] at hle hne ⊢
  intro i hi
  exact lt_of_le_of_ne (hle i hi) (hne i hi)

/-- A set has one canonical form. -/
theorem sortedSet_eq_iff {l l' : List α} : sortedSet l = sortedSet l' ↔ ∀ a, a ∈ l ↔ a ∈ l' := by
  constructor
  · intro h a
    rw [← mem_sortedSet, h, mem_sortedSet]
  · intro h
    have hnodup : ∀ l : List α, (sortedSet l).Nodup := fun l =>
      (pairwise_sortedSet l).imp fun h => ne_of_lt h
    have hperm : (sortedSet l).Perm (sortedSet l') := by
      rw [List.perm_ext_iff_of_nodup (hnodup l) (hnodup l')]
      intro a
      rw [mem_sortedSet, mem_sortedSet, h]
    exact hperm.eq_of_pairwise (fun a b _ _ hab hba => absurd hab (not_lt_of_gt hba))
      (pairwise_sortedSet l) (pairwise_sortedSet l')

theorem sortedSet_sortedSet (l : List α) : sortedSet (sortedSet l) = sortedSet l :=
  sortedSet_eq_iff.mpr fun _ => mem_sortedSet

end Sets

/-! ### Multisets -/

section Multisets

variable {α β : Type*} {r : β → β → Prop} [DecidableRel r] [Std.Total r] [IsTrans β r]
  [Std.Antisymm r]

/-- Lists that are sorted alike have the same elements. -/
theorem insertionSort_eq_iff {l l' : List β} :
    l.insertionSort r = l'.insertionSort r ↔ l.Perm l' := by
  constructor
  · intro h
    calc l.Perm (l.insertionSort r) := (List.perm_insertionSort r l).symm
      _ = l'.insertionSort r := h
      _ |>.Perm l' := List.perm_insertionSort r l'
  · intro h
    have hperm := ((List.perm_insertionSort r l).trans h).trans (List.perm_insertionSort r l').symm
    exact hperm.eq_of_pairwise (fun a b _ _ hab hba => antisymm hab hba)
      (List.pairwise_insertionSort r l) (List.pairwise_insertionSort r l')

/-- Lists whose images have the same elements are the same, up to their order and up to
what the images do not tell apart. -/
theorem map_perm_map_iff {f : α → β} {l l' : List α} :
    (l.map f).Perm (l'.map f) ↔
      ∃ order, l.Perm order ∧ List.Forall₂ (fun a b => f a = f b) order l' := by
  constructor
  · intro h
    have hcomp : Relation.Comp (List.Forall₂ fun a b => f a = b) List.Perm l (l'.map f) := by
      refine ⟨l.map f, ?_, h⟩
      rw [List.forall₂_map_right_iff]
      exact List.forall₂_same.mpr fun _ _ => rfl
    rw [List.forall₂_comp_perm_eq_perm_comp_forall₂] at hcomp
    obtain ⟨order, hperm, hsame⟩ := hcomp
    exact ⟨order, hperm, List.forall₂_map_right_iff.mp hsame⟩
  · rintro ⟨order, hperm, hsame⟩
    have hmap : List.Forall₂ (· = ·) (order.map f) (l'.map f) := by
      rw [List.forall₂_map_left_iff, List.forall₂_map_right_iff]
      exact hsame
    rw [List.forall₂_eq_eq_eq] at hmap
    rw [← hmap]
    exact hperm.map f

end Multisets

end VorCommander.Text
