import Mathlib.Data.List.Forall2
import Mathlib.Data.List.Infix
import Mathlib.Data.Set.Defs

/-!
Fields with separators between them.

A text is a field, and then separators with a field after each. Which separators may
stand in a place is fixed, what the fields are is not. Then a text has its fields in one
way only if and only if, at each place, what may stand there is found only there in the
separator and the two fields next to it.
-/

namespace VorCommander.Text

variable {α : Type}

/-- A field, then separators with a field after each. -/
def joinFields (first : List α) (rest : List (List α × List α)) : List α :=
  first ++ rest.flatMap fun entry => entry.1 ++ entry.2

theorem joinFields_cons (first : List α) (entry : List α × List α)
    (rest : List (List α × List α)) :
    joinFields first (entry :: rest) = first ++ (entry.1 ++ joinFields entry.2 rest) := by
  rw [joinFields, List.flatMap_cons, joinFields, List.append_assoc]

/-- The separators are of those that may stand in their places. -/
def Fits (places : List (Set (List α))) (rest : List (List α × List α)) : Prop :=
  List.Forall₂ (fun separators entry => entry.1 ∈ separators) places rest

/-- At each place, the two fields and the separator between them have none of what may
stand there in another place. -/
def Clean : List (Set (List α)) → List α → List (List α × List α) → Prop
  | separators :: places, first, entry :: rest =>
      (∀ front, ∀ s ∈ separators, ∀ back, first ++ (entry.1 ++ entry.2) = front ++ (s ++ back) →
        front.length = first.length) ∧ Clean places entry.2 rest
  | _, _, _ => True

/-- Separators of which no two begin in one place, and none is within another. -/
structure Separates (separators : Set (List α)) : Prop where
  eq_of_same : ∀ {s s' v v' : List α}, s ∈ separators → s' ∈ separators →
    s ++ v = s' ++ v' → s = s'
  within : ∀ {s s' g v v' : List α}, s ∈ separators → s' ∈ separators → g ≠ [] →
    s ++ v = g ++ (s' ++ v') → s.length ≤ g.length + s'.length

theorem separates_singleton (s : List α) : Separates {s} where
  eq_of_same := by
    rintro _ _ _ _ rfl rfl _
    rfl
  within := by
    rintro _ _ g _ _ rfl rfl _ _
    exact Nat.le_add_left _ _

/-! ### One separator -/

theorem append_cons_inj {a : α} {front front' back back' : List α} (hfront : a ∉ front)
    (hfront' : a ∉ front') (h : front ++ a :: back = front' ++ a :: back') :
    front = front' ∧ back = back' := by
  induction front generalizing front' with
  | nil =>
      cases front' with
      | nil => exact ⟨rfl, (List.cons.inj h).2⟩
      | cons b front' => exact absurd (List.cons.inj h).1 (List.ne_of_not_mem_cons hfront')
  | cons b front ih =>
      cases front' with
      | nil => exact absurd (List.cons.inj h).1.symm (List.ne_of_not_mem_cons hfront)
      | cons c front' =>
          obtain ⟨rfl, htail⟩ := List.cons.inj h
          obtain ⟨rfl, hback⟩ := ih (List.not_mem_of_not_mem_cons hfront)
            (List.not_mem_of_not_mem_cons hfront') htail
          exact ⟨rfl, hback⟩

theorem append_cons_inj_right {a : α} {front front' back back' : List α} (hback : a ∉ back)
    (hback' : a ∉ back') (h : front ++ a :: back = front' ++ a :: back') :
    front = front' ∧ back = back' := by
  have hreverse := congrArg List.reverse h
  simp only [List.reverse_append, List.reverse_cons, List.append_assoc, List.singleton_append]
    at hreverse
  obtain ⟨hends, hfronts⟩ := append_cons_inj (by simpa using hback) (by simpa using hback') hreverse
  exact ⟨List.reverse_injective hfronts, List.reverse_injective hends⟩

/-! ### One way only -/

section Unique

variable {places : List (Set (List α))} {separators : Set (List α)} {first first' : List α}
  {rest rest' : List (List α × List α)}

theorem fits_nil_iff : Fits ([] : List (Set (List α))) rest ↔ rest = [] :=
  List.forall₂_nil_left_iff

theorem fits_cons_iff : Fits (separators :: places) rest ↔
    ∃ entry more, entry.1 ∈ separators ∧ Fits places more ∧ rest = entry :: more :=
  List.forall₂_cons_left_iff

theorem exists_of_fits_singleton {s : List α} (h : Fits ({s} :: places) rest) :
    ∃ field more, Fits places more ∧ rest = (s, field) :: more := by
  obtain ⟨⟨_, field⟩, more, rfl, hmore, rfl⟩ := fits_cons_iff.mp h
  exact ⟨field, more, hmore, rfl⟩

/-- A text that is two texts, of which one goes on where the other ends. -/
theorem exists_of_append_eq {front front' back back' : List α} (h : front ++ back = front' ++ back')
    (hlength : front.length ≤ front'.length) :
    ∃ gap, front' = front ++ gap ∧ back = gap ++ back' := by
  rcases List.append_eq_append_iff.mp h with hgap | ⟨gap, rfl, hback⟩
  · exact hgap
  · obtain rfl : gap = [] := by
      rw [List.length_append] at hlength
      exact List.length_eq_zero_iff.mp (by omega)
    exact ⟨[], by simp, hback.symm⟩

/-- The first field of a text does not end later. -/
theorem Clean.not_longer {s field s' field' : List α}
    (hfits : Fits (separators :: places) ((s, field) :: rest))
    (hclean : Clean (separators :: places) first ((s, field) :: rest))
    (hfits' : Fits (separators :: places) ((s', field') :: rest'))
    (htext : first ++ (s ++ joinFields field rest) = first' ++ (s' ++ joinFields field' rest')) :
    first'.length ≤ first.length := by
  by_contra hlonger
  induction places generalizing separators first first' rest rest' s field s' field' with
  | nil =>
      obtain rfl := fits_nil_iff.mp (List.forall₂_cons.mp hfits).2
      have hs' : s' ∈ separators := (List.forall₂_cons.mp hfits').1
      have hfield : joinFields field [] = field := by simp [joinFields]
      rw [hfield] at htext
      exact hlonger (hclean.1 first' s' hs' _ htext).le
  | cons next places ih =>
      obtain ⟨_, hnext⟩ := List.forall₂_cons.mp hfits
      obtain ⟨hs', hnext'⟩ := List.forall₂_cons.mp hfits'
      obtain ⟨⟨t, g⟩, more, _, _, rfl⟩ := fits_cons_iff.mp hnext
      obtain ⟨⟨t', g'⟩, more', _, _, rfl⟩ := fits_cons_iff.mp hnext'
      obtain ⟨honly, hclean⟩ := hclean
      rw [joinFields_cons, joinFields_cons] at htext
      rcases Nat.lt_or_ge (first ++ (s ++ field)).length (first' ++ s').length with hover | hwithin
      · -- the separator goes on after the field, so the next one stands later, too
        have hskip : (first ++ s) ++ (field ++ (t ++ joinFields g more)) =
            (first' ++ (s' ++ field')) ++ (t' ++ joinFields g' more') := by
          simpa only [List.append_assoc] using htext
        simp only [List.length_append] at hover
        obtain ⟨gap, hgap, hrest⟩ := exists_of_append_eq hskip
          (by simp only [List.length_append]; omega)
        refine ih hnext hclean hnext' hrest ?_
        have hlength := congrArg List.length hgap
        change ¬ gap.length ≤ field.length
        simp only [List.length_append] at hlength
        omega
      · have hjoined : (first' ++ s') ++ (field' ++ (t' ++ joinFields g' more')) =
            (first ++ (s ++ field)) ++ (t ++ joinFields g more) := by
          simpa only [List.append_assoc] using htext.symm
        obtain ⟨back, hback, _⟩ := exists_of_append_eq hjoined hwithin
        exact hlonger (honly first' s' hs' back (by rw [hback, List.append_assoc])).le

theorem Clean.unique (hplaces : ∀ separators ∈ places, Separates separators)
    (hfits : Fits places rest) (hclean : Clean places first rest) (hfits' : Fits places rest')
    (htext : joinFields first' rest' = joinFields first rest) : first' = first ∧ rest' = rest := by
  induction places generalizing first first' rest rest' with
  | nil =>
      obtain rfl := fits_nil_iff.mp hfits
      obtain rfl := fits_nil_iff.mp hfits'
      simpa [joinFields] using htext
  | cons separators places ih =>
      obtain ⟨hseparates, hplaces⟩ := List.forall_mem_cons.mp hplaces
      obtain ⟨⟨s, field⟩, more, hs, hmore, rfl⟩ := fits_cons_iff.mp hfits
      obtain ⟨⟨s', field'⟩, more', hs', hmore', rfl⟩ := fits_cons_iff.mp hfits'
      rw [joinFields_cons, joinFields_cons] at htext
      have hle := hclean.not_longer hfits hfits' htext.symm
      obtain ⟨gap, rfl, hrest⟩ := exists_of_append_eq htext hle
      rcases eq_or_ne gap [] with rfl | hne
      · obtain rfl := hseparates.eq_of_same hs' hs hrest
        obtain ⟨rfl, rfl⟩ := ih hplaces hmore hclean.2 hmore' (List.append_cancel_left hrest)
        simp
      · -- a separator that stands earlier ends before the end of the next field
        have hwithin : s'.length ≤ gap.length + s.length := hseparates.within hs' hs hne hrest
        have hjoined : s' ++ joinFields field' more' = (gap ++ (s ++ field)) ++
            more.flatMap fun entry => entry.1 ++ entry.2 := by
          rw [hrest, joinFields]
          simp only [List.append_assoc]
        obtain ⟨back, hback, _⟩ := exists_of_append_eq hjoined
          (by simp only [List.length_append]; omega)
        have hsame := hclean.1 first' s' hs' back (by rw [List.append_assoc, hback])
        rw [List.length_append] at hsame
        exact absurd (List.length_eq_zero_iff.mp (by omega)) hne

/-- Where a separator may stand in another place, the text has other fields. -/
theorem clean_of_unique (hfits : Fits places rest)
    (hunique : ∀ first' rest', Fits places rest' → joinFields first' rest' = joinFields first rest →
      first' = first ∧ rest' = rest) : Clean places first rest := by
  induction places generalizing first rest with
  | nil => exact trivial
  | cons separators places ih =>
      obtain ⟨⟨s, field⟩, more, hs, hmore, rfl⟩ := fits_cons_iff.mp hfits
      refine ⟨fun front s' hs' back hplace => ?_, ih hmore fun first' rest' hfits' htext => ?_⟩
      · have hother := hunique front ((s', back) :: more) (.cons hs' hmore) (by
          have hjoined : ∀ first s field : List α, joinFields first ((s, field) :: more) =
              (first ++ (s ++ field)) ++ more.flatMap fun entry => entry.1 ++ entry.2 := by
            simp [joinFields]
          rw [hjoined, hjoined, hplace])
        rw [hother.1]
      · have hother := hunique first ((s, first') :: rest') (.cons hs hfits')
          (by rw [joinFields_cons, joinFields_cons, htext])
        simpa using hother.2

/-- Fields are told apart where none has a character that the separators of a place begin
with, and have in them as often as one another. -/
theorem clean_of_notMem [DecidableEq α] {a : α}
    (hplaces : ∀ separators ∈ places, ∃ n, ∀ s ∈ separators, s.head? = some a ∧ s.count a = n)
    (hfits : Fits places rest) (hfirst : a ∉ first) (hrest : ∀ entry ∈ rest, a ∉ entry.2) :
    Clean places first rest := by
  induction places generalizing first rest with
  | nil => exact trivial
  | cons separators places ih =>
      obtain ⟨⟨n, hseparators⟩, hplaces⟩ := List.forall_mem_cons.mp hplaces
      obtain ⟨⟨s, field⟩, more, hs, hmore, rfl⟩ := fits_cons_iff.mp hfits
      obtain ⟨hfield, hrest⟩ := List.forall_mem_cons.mp hrest
      refine ⟨fun front s' hs' back htext => ?_, ih hplaces hmore hfield hrest⟩
      obtain ⟨hhead, hcount⟩ := hseparators s hs
      obtain ⟨hhead', hcount'⟩ := hseparators s' hs'
      -- as often in the whole, so not in what is before
      have hfront : a ∉ front := by
        have hcounts := congrArg (List.count a) htext
        simp only [List.count_append, hcount, hcount', List.count_eq_zero.mpr hfirst,
          List.count_eq_zero.mpr hfield] at hcounts
        exact List.count_eq_zero.mp (by omega)
      obtain ⟨t, rfl⟩ := List.head?_eq_some_iff.mp hhead
      obtain ⟨t', rfl⟩ := List.head?_eq_some_iff.mp hhead'
      rw [(append_cons_inj hfirst hfront htext).1]

end Unique

/-! ### Separators that begin alike -/

section Marker

variable [DecidableEq α]

/-- Two lists differ in a place that both have. -/
def clashes : List α → List α → Bool
  | a :: as, b :: bs => if a = b then clashes as bs else true
  | _, _ => false

theorem clashes_append {as bs : List α} (h : clashes as bs = true) (as' bs' : List α) :
    as ++ as' ≠ bs ++ bs' := by
  induction as generalizing bs with
  | nil => cases h
  | cons a as ih =>
      cases bs with
      | nil => cases h
      | cons b bs =>
          intro happend
          obtain ⟨rfl, htail⟩ := List.cons.inj happend
          rw [clashes, if_pos rfl] at h
          exact ih h htail

theorem clashes_append_left {as bs : List α} (h : clashes as bs = true) (as' : List α) :
    clashes (as ++ as') bs = true := by
  induction as generalizing bs with
  | nil => cases h
  | cons a as ih =>
      cases bs with
      | nil => cases h
      | cons b bs =>
          rw [List.cons_append, clashes]
          rw [clashes] at h
          split_ifs at h ⊢ with hab
          · exact ih h
          · rfl

/-- A marker begins nowhere in a list, whatever comes after it. -/
def NoStart (marker list : List α) : Prop :=
  ∀ i < list.length, clashes (list.drop i) marker = true

instance (marker list : List α) : Decidable (NoStart marker list) :=
  inferInstanceAs (Decidable (∀ i < list.length, clashes (list.drop i) marker = true))

theorem NoStart.append {marker front back : List α} (hfront : NoStart marker front)
    (hback : NoStart marker back) : NoStart marker (front ++ back) := by
  intro i hi
  rw [List.drop_append]
  rcases Nat.lt_or_ge i front.length with hlt | hge
  · exact clashes_append_left (hfront i hlt) _
  · rw [List.drop_eq_nil_of_le hge, List.nil_append]
    rw [List.length_append] at hi
    exact hback _ (by omega)

theorem noStart_of_notMem {c : α} {marker list : List α} (h : c ∉ list) :
    NoStart (c :: marker) list := by
  intro i hi
  rw [List.drop_eq_getElem_cons hi, clashes, if_neg]
  rintro rfl
  exact h (List.getElem_mem hi)

/-- Separators that begin with a marker which begins nowhere else in them. -/
theorem separates_of_marker {marker : List α} {separators : Set (List α)}
    (hmarker : ∀ s ∈ separators, marker <+: s ∧ NoStart marker s.tail)
    (hsame : ∀ {s s' v v' : List α}, s ∈ separators → s' ∈ separators →
      s ++ v = s' ++ v' → s = s') : Separates separators where
  eq_of_same := hsame
  within {s s' g v v'} hs hs' hg htext := by
    rcases Nat.lt_or_ge g.length s.length with hlt | hge
    · -- the marker would begin within the first separator
      obtain ⟨back, rfl, hback⟩ := exists_of_append_eq htext.symm hlt.le
      obtain ⟨c, g, rfl⟩ := List.exists_cons_of_ne_nil hg
      obtain ⟨more, rfl⟩ := (hmarker s' hs').1
      have hclash := (hmarker _ hs).2 g.length (by
        simpa only [List.cons_append, List.tail_cons, List.length_cons, Nat.add_lt_add_iff_right]
          using hlt)
      rw [List.cons_append, List.tail_cons, List.drop_left] at hclash
      rw [List.append_assoc] at hback
      exact absurd hback.symm (clashes_append hclash v _)
    · exact hge.trans (Nat.le_add_right _ _)

end Marker

end VorCommander.Text
