import VorCommander.Policy.Components
import VorCommander.Worker.Write

/-!
Paths of the entries of a directory.

The path of an entry is that of its directory, a separator and the name. Different names
give different paths, what lies below two entries is different, and a root that contains a
directory contains its entries.
-/

namespace VorCommander

open Text

namespace WindowsPath

/-- What the names of the entries of a directory are written after. -/
def entryPrefix (directory : String) : List Char :=
  if directory.toList.getLast?.any isSeparator then directory.toList
  else directory.toList ++ ['\\']

theorem toList_join (directory name : String) :
    (join directory name).toList = entryPrefix directory ++ name.toList := by
  rw [join, entryPrefix]
  split
  · exact String.toList_append
  · rw [String.toList_append, String.toList_append]
    rfl

/-- A name of an entry. -/
def PlainName (name : String) : Prop :=
  name.toList ≠ [] ∧ ∀ c ∈ name.toList, isSeparator c = false

instance (name : String) : Decidable (PlainName name) :=
  decidable_of_iff (name.toList ≠ [] ∧ name.toList.all (isSeparator · = false) = true)
    (by simp [PlainName])

theorem entryPrefix_join {directory name : String} (hname : PlainName name) :
    entryPrefix (join directory name) = entryPrefix directory ++ name.toList ++ ['\\'] := by
  have hlast : (join directory name).toList.getLast?.any isSeparator = false := by
    rw [toList_join, List.getLast?_append_of_ne_nil _ hname.1, Option.any_eq_false]
    exact fun c hc => by simpa using hname.2 c (List.mem_of_getLast? hc)
  rw [entryPrefix, hlast, if_neg Bool.false_ne_true, toList_join]

theorem join_injective {directory name name' : String}
    (h : join directory name = join directory name') : name = name' := by
  have htext := congrArg String.toList h
  rw [toList_join, toList_join] at htext
  exact String.toList_injective (List.append_cancel_left htext)

/-- A name before a separator is known from the text. -/
theorem plainName_inj {name name' : String} {rest rest' : List Char} (hname : PlainName name)
    (hname' : PlainName name')
    (h : name.toList ++ '\\' :: rest = name'.toList ++ '\\' :: rest') : name = name' := by
  have hseparator : isSeparator '\\' = true := by decide
  have hwords := congrArg (words isSeparator) h
  rw [words_append_cons hseparator, words_append_cons hseparator,
    words_of_forall hname.1 hname.2, words_of_forall hname'.1 hname'.2] at hwords
  exact String.toList_injective (List.cons.inj hwords).1

theorem trimSeparators_append_plain {name : String} (hname : PlainName name) (text : List Char) :
    trimSeparators ((text ++ name.toList).map backslash) =
      text.map backslash ++ name.toList.map backslash := by
  rw [List.map_append]
  refine trimSeparators_of_ended fun c hc => ?_
  have hnonempty : name.toList.map backslash ≠ [] := mt List.map_eq_nil_iff.mp hname.1
  rw [List.getLast?_append_of_ne_nil _ hnonempty] at hc
  obtain ⟨d, hd, rfl⟩ := List.mem_map.mp (List.mem_of_getLast? hc)
  rw [backslash_of_not_separator (hname.2 d hd)]
  exact hname.2 d hd

/-- A directory without separators at its end is followed by one before each entry. -/
theorem exists_separators (directory : String) :
    ∃ first rest, isSeparator first = true ∧ (entryPrefix directory).map backslash =
      trimSeparators (directory.toList.map backslash) ++ first :: rest := by
  rw [entryPrefix]
  split
  case isTrue hlast =>
      obtain ⟨c, hc, hseparator⟩ := (Option.any_eq_true _ _).mp hlast
      obtain ⟨front, hfront⟩ := List.getLast?_eq_some_iff.mp hc
      have hback : isSeparator (backslash c) = true := by
        rw [backslash_eq_iff.mpr hseparator]
        decide
      have hreverse : (directory.toList.map backslash).reverse =
          backslash c :: (front.map backslash).reverse := by
        rw [hfront, List.map_append, List.reverse_append]
        rfl
      have hsplit := congrArg List.reverse (List.takeWhile_append_dropWhile
        (p := isSeparator) (l := (directory.toList.map backslash).reverse))
      rw [List.reverse_append, List.reverse_reverse] at hsplit
      have hnonempty :
          ((directory.toList.map backslash).reverse.takeWhile isSeparator).reverse ≠ [] := by
        rw [hreverse, List.takeWhile_cons_of_pos hback]
        simp
      obtain ⟨first, rest, hfirst⟩ := List.exists_cons_of_ne_nil hnonempty
      refine ⟨first, rest, ?_, ?_⟩
      · have hmem : first ∈ (directory.toList.map backslash).reverse.takeWhile isSeparator := by
          rw [← List.mem_reverse, hfirst]
          exact List.mem_cons_self
        exact List.mem_takeWhile_imp hmem
      · rw [← hfirst]
        exact hsplit.symm
  case isFalse hlast =>
      refine ⟨'\\', [], by decide, ?_⟩
      rw [trimSeparators_of_ended, List.map_append]
      · rfl
      · intro c hc
        rw [List.getLast?_map] at hc
        obtain ⟨d, hd, rfl⟩ := Option.map_eq_some_iff.mp hc
        have hd' : isSeparator d = false := by
          rw [Bool.not_eq_true, Option.any_eq_false] at hlast
          simpa using hlast d hd
        rwa [backslash_of_not_separator hd']

/-- What lies within a root keeps its entries there. -/
theorem pathWithin_join {directory name root : String} (hname : PlainName name)
    (h : pathWithin directory root = true) : pathWithin (join directory name) root = true := by
  obtain ⟨first, rest, hfirst, hprefix⟩ := exists_separators directory
  simp only [pathWithin, windowsPathWithin, toList_replaceChar, toList_join,
    trimSeparators_append_plain hname, hprefix, Bool.or_eq_true, Bool.and_eq_true,
    decide_eq_true_eq] at h ⊢
  generalize trimSeparators (directory.toList.map backslash) = path at *
  generalize trimSeparators (root.toList.map backslash) = root at *
  right
  rcases h with hsame | ⟨htake, hdrop⟩
  · have hlength : root.length = path.length := by
      simpa using (congrArg List.length hsame).symm
    rw [hlength, List.append_assoc, List.take_left, List.drop_left]
    exact ⟨hsame, by simpa using hfirst⟩
  · have hlt : root.length < path.length := by
      by_contra hge
      rw [List.drop_of_length_le (by omega)] at hdrop
      cases hdrop
    rw [List.append_assoc, List.take_append_of_le_length hlt.le,
      List.drop_append_of_le_length hlt.le, List.head?_append]
    refine ⟨htake, ?_⟩
    cases hhead : (path.drop root.length).head? with
    | none => rw [hhead] at hdrop; cases hdrop
    | some c => rw [hhead] at hdrop; exact hdrop

end WindowsPath

end VorCommander
