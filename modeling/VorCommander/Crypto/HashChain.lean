import Mathlib.Data.Set.Function
import VorCommander.Text.Strings

/-!
Chains of hashes.

The head of a chain comes from a start by hashing in one item after the other.
If no two links of two chains collide and none comes back to the start, equal
heads mean equal chains: nothing in the history behind a head can be changed,
left out, added or moved.
-/

namespace VorCommander.Crypto

variable {H α : Type} {link : H → α → H} {start : H} {items items' : List α}

/-- The links of a chain: each item with the head it was hashed after. -/
def links (link : H → α → H) : H → List α → List (H × α)
  | _, [] => []
  | h, a :: rest => (h, a) :: links link (link h a) rest

theorem links_append_singleton (start : H) (items : List α) (a : α) :
    links link start (items ++ [a]) = links link start items ++ [(items.foldl link start, a)] := by
  induction items generalizing start with
  | nil => rfl
  | cons b items ih => rw [List.cons_append, links, ih, links, List.foldl_cons, List.cons_append]

theorem item_mem_of_mem_links {p : H × α} (h : p ∈ links link start items) : p.2 ∈ items := by
  induction items generalizing start with
  | nil => cases h
  | cons a items ih =>
      rw [links, List.mem_cons] at h
      rcases h with rfl | h
      · exact List.mem_cons_self
      · exact List.mem_cons_of_mem a (ih h)

/-- No two of these links have the same hash, and none has the hash of the
start. -/
structure Collisionless (link : H → α → H) (start : H) (pairs : List (H × α)) : Prop where
  injective : Set.InjOn (fun p : H × α => link p.1 p.2) {p | p ∈ pairs}
  neverStart : ∀ p ∈ pairs, link p.1 p.2 ≠ start

theorem Collisionless.mono {pairs pairs' : List (H × α)} (h : Collisionless link start pairs)
    (hsub : pairs' ⊆ pairs) : Collisionless link start pairs' where
  injective := h.injective.mono fun _ hp => hsub hp
  neverStart p hp := h.neverStart p (hsub hp)

/-- The head of a chain commits to all of it. -/
theorem eq_of_head_eq
    (h : Collisionless link start (links link start items ++ links link start items'))
    (hhead : items.foldl link start = items'.foldl link start) : items = items' := by
  induction items using List.reverseRecOn generalizing items' with
  | nil =>
      rcases List.eq_nil_or_concat items' with rfl | ⟨items', b, rfl⟩
      · rfl
      · rw [List.concat_eq_append, List.foldl_append] at hhead
        refine absurd hhead.symm (h.neverStart (items'.foldl link start, b) ?_)
        simp [links_append_singleton]
  | append_singleton items a ih =>
      rw [List.foldl_append] at hhead
      rcases List.eq_nil_or_concat items' with rfl | ⟨items', b, rfl⟩
      · refine absurd hhead (h.neverStart (items.foldl link start, a) ?_)
        simp [links_append_singleton]
      · rw [List.concat_eq_append] at hhead h ⊢
        rw [List.foldl_append] at hhead
        -- the last links have the same hash, so they are the same
        have hlast : (items.foldl link start, a) = (items'.foldl link start, b) := by
          refine h.injective ?_ ?_ hhead
          · simp [links_append_singleton]
          · simp [links_append_singleton]
        obtain ⟨hbefore, rfl⟩ := Prod.mk.inj hlast
        have hsub : links link start items ++ links link start items' ⊆
            links link start (items ++ [a]) ++ links link start (items' ++ [a]) := by
          intro p hp
          simp only [links_append_singleton, List.mem_append] at hp ⊢
          tauto
        rw [ih (h.mono hsub) hbefore]

end VorCommander.Crypto
