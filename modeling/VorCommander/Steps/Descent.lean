import Mathlib.Data.List.Nodup
import Mathlib.Tactic.Common

/-!
Walks over a tree.

A node has items, and some items lead to a node below. A walk shows the items of a node
in their order, then those of the nodes below it, the last one first, as a stack gives
them back. It goes down a bounded number of levels. Whoever is shown the items may stop
the walk, or fail, after each of them.
-/

namespace VorCommander.Steps

variable {ν ι ε : Type} {items : ν → List ι} {enter : ι → Option ν}

/-- The items of the nodes down to a depth, in the order of the walk. -/
def descent (items : ν → List ι) (enter : ι → Option ν) : ℕ → ν → List ι
  | 0, _ => []
  | depth + 1, node =>
      items node ++ ((items node).filterMap enter).reverse.flatMap (descent items enter depth)

/-- A node is below another by a number of levels. -/
inductive Descends (items : ν → List ι) (enter : ι → Option ν) (root : ν) : ν → ℕ → Prop
  | refl : Descends items enter root root 0
  | step {node next : ν} {level : ℕ} {item : ι} : Descends items enter root node level →
      item ∈ items node → enter item = some next →
      Descends items enter root next (level + 1)

/-! ### What is shown -/

theorem mem_descent_succ {depth : ℕ} {node : ν} {item : ι} :
    item ∈ descent items enter (depth + 1) node ↔ item ∈ items node ∨
      ∃ via ∈ items node, ∃ next, enter via = some next ∧
        item ∈ descent items enter depth next := by
  simp only [descent, List.mem_append, List.mem_flatMap, List.mem_reverse, List.mem_filterMap]
  refine or_congr_right ⟨?_, ?_⟩
  · rintro ⟨next, ⟨via, hvia, henter⟩, hmem⟩
    exact ⟨via, hvia, next, henter, hmem⟩
  · rintro ⟨via, hvia, next, henter, hmem⟩
    exact ⟨next, ⟨via, hvia, henter⟩, hmem⟩

theorem descends_of_mem {root node : ν} {level depth : ℕ} {item : ι}
    (hnode : Descends items enter root node level)
    (hmem : item ∈ descent items enter depth node) :
    ∃ holder below, Descends items enter root holder (level + below) ∧ below < depth ∧
      item ∈ items holder := by
  induction depth generalizing node level with
  | zero => cases hmem
  | succ depth ih =>
      rcases mem_descent_succ.mp hmem with hitem | ⟨via, hvia, next, henter, hdeep⟩
      · exact ⟨node, 0, hnode, Nat.succ_pos depth, hitem⟩
      · obtain ⟨holder, below, hholder, hlt, hitem⟩ := ih (hnode.step hvia henter) hdeep
        exact ⟨holder, below + 1, by rwa [Nat.add_right_comm] at hholder,
          Nat.succ_lt_succ hlt, hitem⟩

theorem descent_subset {root node : ν} {level depth : ℕ}
    (hnode : Descends items enter root node level) (hle : level ≤ depth) :
    descent items enter (depth - level) node ⊆ descent items enter depth root := by
  induction hnode with
  | refl => exact fun _ hmem => hmem
  | @step node next level item _ hitem henter ih =>
      intro shown hmem
      refine ih (by omega) ?_
      have hdepth : depth - level = (depth - (level + 1)) + 1 := by omega
      rw [hdepth]
      exact mem_descent_succ.mpr (.inr ⟨item, hitem, next, henter, hmem⟩)

/-- The items of a walk are those of the nodes that are not too deep. -/
theorem mem_descent_iff {root : ν} {depth : ℕ} {item : ι} :
    item ∈ descent items enter depth root ↔
      ∃ node level, Descends items enter root node level ∧ level < depth ∧
        item ∈ items node := by
  constructor
  · intro hmem
    obtain ⟨holder, below, hholder, hlt, hitem⟩ := descends_of_mem .refl hmem
    exact ⟨holder, 0 + below, hholder, by omega, hitem⟩
  · rintro ⟨node, level, hnode, hlt, hitem⟩
    refine descent_subset hnode (Nat.le_of_lt hlt) ?_
    obtain ⟨depth', hdepth⟩ : ∃ depth', depth - level = depth' + 1 :=
      ⟨depth - level - 1, by omega⟩
    rw [hdepth]
    exact mem_descent_succ.mpr (.inl hitem)

/-- What belongs to the nodes of a tree above a level: the items of a node differ and belong
to it, what belongs to a node below it belongs to it too, and nothing belongs to two nodes
below it, or to one of them and is also an item of its own. -/
structure Territories (items : ν → List ι) (enter : ι → Option ν) (root : ν) (bound : ℕ)
    (belongs : ν → ι → Prop) : Prop where
  nodup : ∀ {node level}, Descends items enter root node level → level < bound →
    (items node).Nodup
  own : ∀ {node level item}, Descends items enter root node level → level < bound →
    item ∈ items node → belongs node item
  below : ∀ {node level via next item}, Descends items enter root node level → level < bound →
    via ∈ items node → enter via = some next → belongs next item → belongs node item
  apart_own : ∀ {node level via next item}, Descends items enter root node level →
    level < bound → via ∈ items node → enter via = some next → item ∈ items node →
      ¬ belongs next item
  apart : ∀ {node level via next via' next' item}, Descends items enter root node level →
    level < bound → via ∈ items node → enter via = some next → via' ∈ items node →
      enter via' = some next' → belongs next item → belongs next' item → via = via'

/-- Nothing is shown twice. -/
theorem nodup_descent {root node : ν} {level bound depth : ℕ} {belongs : ν → ι → Prop}
    (h : Territories items enter root bound belongs)
    (hnode : Descends items enter root node level) (hdepth : level + depth ≤ bound) :
    (descent items enter depth node).Nodup ∧
      ∀ item ∈ descent items enter depth node, belongs node item := by
  induction depth generalizing node level with
  | zero => exact ⟨List.nodup_nil, fun _ hmem => absurd hmem List.not_mem_nil⟩
  | succ depth ih =>
      have hlt : level < bound := by omega
      have hbelow : ∀ {via next}, via ∈ items node → enter via = some next →
          (descent items enter depth next).Nodup ∧
            ∀ item ∈ descent items enter depth next, belongs next item :=
        fun hvia henter => ih (hnode.step hvia henter) (by omega)
      have hnext : ∀ next ∈ (items node).filterMap enter, ∃ via ∈ items node,
          enter via = some next := fun _ hmem => List.mem_filterMap.mp hmem
      constructor
      · rw [descent, List.nodup_append']
        refine ⟨h.nodup hnode hlt, List.nodup_flatMap.mpr ⟨?_, ?_⟩, ?_⟩
        · intro next hmem
          obtain ⟨via, hvia, henter⟩ := hnext next (List.mem_reverse.mp hmem)
          exact (hbelow hvia henter).1
        · rw [List.pairwise_reverse, List.pairwise_filterMap]
          refine List.Pairwise.imp_of_mem ?_ (h.nodup hnode hlt)
          intro via via' hvia hvia' hne next henter next' henter' item hitem' hitem
          exact hne (h.apart hnode hlt hvia henter hvia' henter'
            ((hbelow hvia henter).2 item hitem) ((hbelow hvia' henter').2 item hitem'))
        · intro item hitem hdeep
          obtain ⟨next, hmem, hdeep⟩ := List.mem_flatMap.mp hdeep
          obtain ⟨via, hvia, henter⟩ := hnext next (List.mem_reverse.mp hmem)
          exact h.apart_own hnode hlt hvia henter hitem ((hbelow hvia henter).2 item hdeep)
      · intro item hmem
        rcases mem_descent_succ.mp hmem with hitem | ⟨via, hvia, next, henter, hdeep⟩
        · exact h.own hnode hlt hitem
        · exact h.below hnode hlt hvia henter ((hbelow hvia henter).2 item hdeep)

/-! ### Who is shown the items -/

/-- Items are shown one after another, after some that were shown before. The answer to
each says whether to go on. -/
def showItems (answer : List ι → Except ε Bool) : List ι → List ι → Except ε Bool × List ι
  | seen, [] => (.ok true, seen)
  | seen, item :: rest =>
      match answer (seen ++ [item]) with
      | .ok true => showItems answer (seen ++ [item]) rest
      | stopped => (stopped, seen ++ [item])

section

variable {answer : List ι → Except ε Bool} {seen first second rest : List ι} {item : ι}

theorem showItems_cons_of_go (h : answer (seen ++ [item]) = .ok true) :
    showItems answer seen (item :: rest) = showItems answer (seen ++ [item]) rest := by
  rw [showItems, h]

theorem showItems_cons_of_stop (h : answer (seen ++ [item]) ≠ .ok true) :
    showItems answer seen (item :: rest) = (answer (seen ++ [item]), seen ++ [item]) := by
  rw [showItems]
  split
  case h_1 hgo => exact absurd hgo h
  case h_2 => rfl

theorem showItems_append_of_go (h : (showItems answer seen first).1 = .ok true) :
    showItems answer seen (first ++ second) = showItems answer (seen ++ first) second := by
  induction first generalizing seen with
  | nil => rw [List.nil_append, List.append_nil]
  | cons item first ih =>
      by_cases hgo : answer (seen ++ [item]) = .ok true
      · rw [showItems_cons_of_go hgo] at h
        rw [List.cons_append, showItems_cons_of_go hgo, ih h, List.append_assoc]
        rfl
      · rw [showItems_cons_of_stop hgo] at h
        exact absurd h hgo

theorem showItems_append_of_stop (h : (showItems answer seen first).1 ≠ .ok true) :
    showItems answer seen (first ++ second) = showItems answer seen first := by
  induction first generalizing seen with
  | nil => exact absurd rfl h
  | cons item first ih =>
      by_cases hgo : answer (seen ++ [item]) = .ok true
      · rw [showItems_cons_of_go hgo] at h
        rw [List.cons_append, showItems_cons_of_go hgo, showItems_cons_of_go hgo, ih h]
      · rw [List.cons_append, showItems_cons_of_stop hgo, showItems_cons_of_stop hgo]

theorem showItems_eq_of_go (h : (showItems answer seen first).1 = .ok true) :
    showItems answer seen first = (.ok true, seen ++ first) := by
  have happend : showItems answer seen (first ++ []) = showItems answer (seen ++ first) [] :=
    showItems_append_of_go h
  rwa [List.append_nil] at happend

/-- The items that were shown are the first ones. If there are more, the last answer was
not to go on. -/
theorem showItems_prefix (answer : List ι → Except ε Bool) (seen rest : List ι) :
    ∃ shown, (showItems answer seen rest).2 = seen ++ shown ∧ shown <+: rest ∧
      ((showItems answer seen rest).1 = .ok true ∧ shown = rest ∨
        (showItems answer seen rest).1 = answer (seen ++ shown) ∧
          answer (seen ++ shown) ≠ .ok true) := by
  induction rest generalizing seen with
  | nil => exact ⟨[], (List.append_nil seen).symm, List.nil_prefix, .inl ⟨rfl, rfl⟩⟩
  | cons item rest ih =>
      by_cases hgo : answer (seen ++ [item]) = .ok true
      · rw [showItems_cons_of_go hgo]
        obtain ⟨shown, hshown, hprefix, hanswer⟩ := ih (seen ++ [item])
        rw [List.append_assoc, List.singleton_append] at hshown hanswer
        refine ⟨item :: shown, hshown, (List.prefix_cons_inj item).mpr hprefix, ?_⟩
        rcases hanswer with ⟨hanswer, rfl⟩ | hanswer
        · exact .inl ⟨hanswer, rfl⟩
        · exact .inr hanswer
      · rw [showItems_cons_of_stop hgo]
        exact ⟨[item], rfl, ⟨rest, rfl⟩, .inr ⟨rfl, hgo⟩⟩

end

end VorCommander.Steps
