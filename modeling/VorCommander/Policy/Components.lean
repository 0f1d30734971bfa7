import VorCommander.Policy.Spelling
import VorCommander.Text.Words

/-!
Normal forms of paths in components.

What a path is normalised to is a drive letter of upper case and components of
lower case, none of which is ambiguous or looks like a short name. A normal
form is its own normal form. Of two normal forms one contains the other exactly
if it has the same drive and its components begin with those of the other.
-/

namespace VorCommander.WindowsPath

open Text

/-! ### Letters -/

/-- Lowering a character leads to a character that is no letter from that
character only. -/
theorem toLower_eq_iff {c d : Char} (hd : d.isAlpha = false) :
    c.toLower = d ↔ c = d := by
  have hletter := mt (isAlpha_iff d).mpr (Bool.eq_false_iff.mp hd)
  rw [← Char.toNat_inj, ← Char.toNat_inj, toNat_toLower]
  split <;> omega

theorem isDigit_toLower (c : Char) : c.toLower.isDigit = c.isDigit := by
  apply Bool.eq_iff_iff.mpr
  rw [isDigit_iff, isDigit_iff, toNat_toLower]
  split <;> omega

theorem toUpper_of_toLower_eq {c d : Char} (h : c.toLower = d.toLower) : c.toUpper = d.toUpper := by
  have hcode := congrArg Char.toNat h
  rw [toNat_toLower, toNat_toLower] at hcode
  apply Char.toNat_inj.mp
  rw [toNat_toUpper, toNat_toUpper]
  split at hcode <;> split at hcode <;> split <;> split <;> omega

theorem isAlpha_of_toLower_eq {c d : Char} (h : c.toLower = d.toLower) : c.isAlpha = d.isAlpha := by
  have hcode := congrArg Char.toNat h
  rw [toNat_toLower, toNat_toLower] at hcode
  apply Bool.eq_iff_iff.mpr
  rw [isAlpha_iff, isAlpha_iff]
  split at hcode <;> split at hcode <;> omega

theorem mem_asciiLower_iff {d : Char} (hd : d.isAlpha = false)
    (text : List Char) : d ∈ asciiLower text ↔ d ∈ text := by
  rw [asciiLower, List.mem_map]
  constructor
  · rintro ⟨c, hmem, hc⟩
    rwa [← (toLower_eq_iff hd).mp hc]
  · exact fun hmem => ⟨d, hmem, (toLower_eq_iff hd).mpr rfl⟩

@[simp] theorem toList_toAsciiLowercase (s : String) :
    (toAsciiLowercase s).toList = asciiLower s.toList := String.toList_ofList

theorem asciiLower_eq_replicate {d : Char} (hd : d.isAlpha = false)
    {text : List Char} {n : ℕ} :
    asciiLower text = List.replicate n d ↔ text = List.replicate n d := by
  rw [List.eq_replicate_iff, List.eq_replicate_iff, length_asciiLower, asciiLower,
    List.forall_mem_map]
  simp only [toLower_eq_iff hd]

theorem toAsciiLowercase_eq_replicate {d : Char} (hd : d.isAlpha = false) (part : String) (n : ℕ) :
    toAsciiLowercase part = String.ofList (List.replicate n d) ↔
      part = String.ofList (List.replicate n d) := by
  rw [← String.toList_inj, toList_toAsciiLowercase, String.toList_ofList,
    asciiLower_eq_replicate hd, ← String.toList_inj, String.toList_ofList]

theorem getLast?_asciiLower_iff {d : Char} (hd : d.isAlpha = false)
    (text : List Char) : (asciiLower text).getLast? = some d ↔ text.getLast? = some d := by
  rw [asciiLower, List.getLast?_map, Option.map_eq_some_iff]
  constructor
  · rintro ⟨c, hlast, hc⟩
    rwa [← (toLower_eq_iff hd).mp hc]
  · exact fun hlast => ⟨d, hlast, (toLower_eq_iff hd).mpr rfl⟩

@[simp] theorem toAsciiLowercase_toAsciiLowercase (s : String) :
    toAsciiLowercase (toAsciiLowercase s) = toAsciiLowercase s := by
  apply String.toList_injective
  simp [asciiLower_asciiLower]

theorem toAsciiLowercase_eq_iff {s t : String} :
    toAsciiLowercase s = toAsciiLowercase t ↔ asciiLower s.toList = asciiLower t.toList := by
  rw [← String.toList_inj, toList_toAsciiLowercase, toList_toAsciiLowercase]

/-! ### Ambiguous components and short names -/

theorem endsWith_singleton (s : String) (d : Char) :
    endsWith s (String.ofList [d]) = true ↔ s.toList.getLast? = some d := by
  rw [endsWith, String.toList_ofList, List.isSuffixOf_iff_suffix]
  constructor
  · rintro ⟨front, hfront⟩
    rw [← hfront, List.getLast?_append_cons]
    rfl
  · intro hlast
    obtain ⟨front, hfront⟩ := List.getLast?_eq_some_iff.mp hlast
    exact ⟨front, hfront.symm⟩

/-- The text up to the first `c`, which is the whole text where there is
none. -/
theorem splitOnce_elim (c : Char) (s : String) :
    (splitOnce c s).elim s (·.1) = String.ofList (s.toList.takeWhile (· ≠ c)) := by
  rw [splitOnce]
  cases hdrop : s.toList.drop (s.toList.takeWhile (· ≠ c)).length with
  | nil =>
      have hall : s.toList.takeWhile (· ≠ c) = s.toList :=
        (List.takeWhile_prefix _).eq_of_length_le (List.drop_eq_nil_iff.mp hdrop)
      rw [hall, String.ofList_toList]
      rfl
  | cons _ _ => rfl

theorem takeWhile_asciiLower {d : Char} (hd : d.isAlpha = false)
    (text : List Char) :
    (asciiLower text).takeWhile (· ≠ d) = asciiLower (text.takeWhile (· ≠ d)) := by
  have hkeeps : (fun c => decide (c ≠ d)) ∘ Char.toLower = fun c => decide (c ≠ d) := by
    funext c
    simp [toLower_eq_iff hd]
  rw [asciiLower, List.takeWhile_map, hkeeps, asciiLower]

theorem isReservedWindowsName_toAsciiLowercase (part : String) :
    isReservedWindowsName (toAsciiLowercase part) = isReservedWindowsName part := by
  have hstem : toAsciiLowercase
    ((splitOnce '.' (toAsciiLowercase part)).elim (toAsciiLowercase part) (·.1)) =
      toAsciiLowercase ((splitOnce '.' part).elim part (·.1)) := by
    rw [splitOnce_elim, splitOnce_elim, toAsciiLowercase_eq_iff, String.toList_ofList,
      String.toList_ofList, toList_toAsciiLowercase, takeWhile_asciiLower (by decide),
      asciiLower_asciiLower]
  rw [isReservedWindowsName, isReservedWindowsName, hstem]

/-- The case of its letters does not make a component ambiguous. -/
theorem ambiguousPart_toAsciiLowercase (part : String) :
    ambiguousPart (toAsciiLowercase part) = ambiguousPart part := by
  have hends : ∀ d : Char,
    d.isAlpha = false → endsWith (toAsciiLowercase part) (String.ofList [d]) =
      endsWith part (String.ofList [d]) := by
    intro d hd
    apply Bool.eq_iff_iff.mpr
    rw [endsWith_singleton, endsWith_singleton, toList_toAsciiLowercase,
      getLast?_asciiLower_iff hd]
  have hcontains : ∀ d : Char, d.isAlpha = false → (toAsciiLowercase part).toList.contains d =
      part.toList.contains d := by
    intro d hd
    apply Bool.eq_iff_iff.mpr
    rw [List.contains_iff_mem, List.contains_iff_mem, toList_toAsciiLowercase,
      mem_asciiLower_iff hd]
  have hdot : toAsciiLowercase part = "." ↔ part = "." := toAsciiLowercase_eq_replicate rfl part 1
  have hdotdot : toAsciiLowercase part = ".." ↔ part = ".." :=
    toAsciiLowercase_eq_replicate rfl part 2
  have hends' := hends '.' (by decide)
  have hends'' := hends ' ' (by decide)
  rw [ambiguousPart, ambiguousPart, isReservedWindowsName_toAsciiLowercase,
    hcontains ':' (by decide), hcontains '\x00' (by decide)]
  simp only [show (String.ofList ['.']) = "." from rfl] at hends'
  simp only [show (String.ofList [' ']) = " " from rfl] at hends''
  simp only [hdot, hdotdot, hends', hends'']

theorem hasTildeDigit_asciiLower (text : List Char) :
    hasTildeDigit (asciiLower text) = hasTildeDigit text := by
  induction text with
  | nil => rfl
  | cons c text ih =>
      cases text with
      | nil => rfl
      | cons d text =>
          have htilde : decide (c.toLower = '~') = decide (c = '~') :=
            decide_eq_decide.mpr (toLower_eq_iff (by decide))
          rw [asciiLower, List.map_cons, List.map_cons, hasTildeDigit, hasTildeDigit, ← ih, htilde,
            isDigit_toLower]
          rfl

theorem hasShortNameAlias_toAsciiLowercase (part : String) :
    hasShortNameAlias (toAsciiLowercase part) = hasShortNameAlias part := by
  rw [hasShortNameAlias, toList_toAsciiLowercase, hasTildeDigit_asciiLower, hasShortNameAlias]

/-! ### Slashes -/

/-- The backslash for a slash of either kind. -/
def backslash (c : Char) : Char := if c = '/' then '\\' else c

theorem toList_replaceChar (input : String) :
    (replaceChar '/' '\\' input).toList = input.toList.map backslash := String.toList_ofList

theorem replaceChar_of_slash_notMem {path : String} (h : '/' ∉ path.toList) :
    replaceChar '/' '\\' path = path := by
  apply String.toList_injective
  rw [toList_replaceChar]
  refine (List.map_congr_left fun c hc => ?_).trans (List.map_id _)
  have hne : c ≠ '/' := by
    rintro rfl
    exact h hc
  rw [backslash, if_neg hne, id]

/-! ### Canonical paths -/

theorem components_eq (path : String) :
    components path = (words (· = '\\') path.toList).map String.ofList := by
  rw [components, splitChars, List.filter_map, words]
  congr 1
  apply List.filter_congr
  intro part _
  cases part <;> simp

section Named

variable {parts : List String}
  (h : ∀ part ∈ parts, part.toList ≠ [] ∧ ∀ c ∈ part.toList, isSeparator c = false)

include h

/-- Names without separators are found again in the path they make. -/
theorem components_joinParts : components (joinParts parts) = parts := by
  rw [components_eq, joinParts, String.toList_ofList, words_intercalate (by decide) ?_,
    List.map_map, List.map_id'']
  · exact fun _ => String.ofList_toList
  · rw [List.forall_mem_map]
    intro part hpart
    obtain ⟨hnonempty, hchars⟩ := h part hpart
    refine ⟨hnonempty, fun c hc => ?_⟩
    have hkeeps := hchars c hc
    rw [isSeparator, Bool.or_eq_false_iff] at hkeeps
    exact hkeeps.1

theorem slash_notMem_joinParts : '/' ∉ (joinParts parts).toList := by
  intro hmem
  rw [joinParts, String.toList_ofList] at hmem
  have hslash : '/' ∈ '\\' :: List.intercalate ['\\'] (parts.map String.toList) :=
    List.mem_cons_of_mem _ hmem
  have hnonempty : parts.map String.toList ≠ [] := by
    intro hnil
    rw [hnil] at hmem
    cases hmem
  rw [cons_intercalate hnonempty, List.mem_flatMap] at hslash
  obtain ⟨word, hword, hmem⟩ := hslash
  obtain ⟨part, hpart, rfl⟩ := List.mem_map.mp hword
  rcases List.mem_cons.mp hmem with heq | hmem
  · exact absurd heq (by decide)
  · exact absurd ((h part hpart).2 '/' hmem) (by decide)

end Named

/-- A drive of upper case and plain components of lower case. -/
structure Canonical (drive : Char) (parts : List String) : Prop where
  letter : 65 ≤ drive.toNat ∧ drive.toNat ≤ 90
  named : ∀ part ∈ parts, part.toList ≠ [] ∧ ∀ c ∈ part.toList, isSeparator c = false
  lower : ∀ part ∈ parts, toAsciiLowercase part = part
  plain : ∀ part ∈ parts, ambiguousPart part = false ∧ hasShortNameAlias part = false

/-- The components of a path as the normal form has them. -/
def lowered (parts : List String) : List String := parts.map toAsciiLowercase

theorem lowered_lowered (parts : List String) : lowered (lowered parts) = lowered parts := by
  rw [lowered, lowered, List.map_map]
  apply List.map_congr_left
  intro part _
  exact toAsciiLowercase_toAsciiLowercase part

theorem asciiLower_joinParts (parts : List String) :
    asciiLower (joinParts parts).toList = (joinParts (lowered parts)).toList := by
  rw [joinParts, joinParts, String.toList_ofList, String.toList_ofList, asciiLower, map_intercalate,
    lowered, List.map_map, List.map_map]
  congr 1
  apply List.map_congr_left
  intro part _
  exact (toList_toAsciiLowercase part).symm

theorem joinWindowsPath_lowered (drive : Char) (parts : List String) :
    joinWindowsPath drive (lowered parts) = joinWindowsPath drive parts := by
  rw [joinWindowsPath, joinWindowsPath, asciiLower_joinParts, asciiLower_joinParts, lowered_lowered]

/-- What a path without slashes is split into is canonical in lower case, if
none of it looks like a short name. -/
theorem canonical_of_split {path : String} {drive : Char} {parts : List String}
    (h : splitWindowsPath path = some (drive, parts)) (hslash : '/' ∉ path.toList)
    (halias : parts.any hasShortNameAlias = false) : Canonical drive (lowered parts) := by
  obtain ⟨letter, rest, htext, halpha, rfl, rfl⟩ := splitWindowsPath_eq_some h
  have hplain : (components (String.ofList rest)).any ambiguousPart = false := by
    rw [splitWindowsPath, htext] at h
    by_contra hambiguous
    simp [hambiguous] at h
  have hform := normalForm_join h hslash
  refine ⟨hform.letter, ?_, ?_, ?_⟩
  · intro part hpart
    obtain ⟨component, hcomponent, rfl⟩ := List.mem_map.mp hpart
    obtain ⟨hnonempty, hchars⟩ := mem_components hcomponent
    rw [toList_toAsciiLowercase]
    refine ⟨fun hnil => hnonempty (List.map_eq_nil_iff.mp hnil), ?_⟩
    rw [asciiLower, List.forall_mem_map]
    intro c hc
    obtain ⟨hmem, hbackslash⟩ := hchars c hc
    rw [String.toList_ofList] at hmem
    -- the path was split at its backslashes and has no slash
    have hslash' : c ≠ '/' := by
      rintro rfl
      refine hslash ?_
      rw [htext]
      exact List.mem_cons_of_mem _ (List.mem_cons_of_mem _ (List.mem_cons_of_mem _ hmem))
    rw [isSeparator_toLower, isSeparator, decide_eq_false hbackslash, decide_eq_false hslash']
    rfl
  · intro part hpart
    obtain ⟨component, _, rfl⟩ := List.mem_map.mp hpart
    exact toAsciiLowercase_toAsciiLowercase component
  · intro part hpart
    obtain ⟨component, hcomponent, rfl⟩ := List.mem_map.mp hpart
    rw [ambiguousPart_toAsciiLowercase, hasShortNameAlias_toAsciiLowercase]
    exact ⟨by simpa using List.any_eq_false.mp hplain component hcomponent,
      by simpa using List.any_eq_false.mp halias component hcomponent⟩

/-- What normalisation does with a drive and components: it lets the host expand
them if one looks like a short name. -/
def resolve (host : Host) (drive : Char) (parts : List String) : Option String :=
  if parts.any hasShortNameAlias then
    ((expandShortNames host drive parts).bind splitWindowsPath).bind fun expanded =>
      if expanded.2.any hasShortNameAlias then none
      else some (joinWindowsPath expanded.1 expanded.2)
  else some (joinWindowsPath drive parts)

theorem normalizeWindowsPath_eq (host : Host) (input : String) :
    normalizeWindowsPath host input =
      (splitWindowsPath (replaceChar '/' '\\' input)).bind fun split =>
        resolve host split.1 split.2 := by
  rw [normalizeWindowsPath]
  cases splitWindowsPath (replaceChar '/' '\\' input) with
  | none => rfl
  | some split =>
      obtain ⟨drive, parts⟩ := split
      simp only [Option.bind_eq_bind, Option.bind_some, resolve]
      cases parts.any hasShortNameAlias with
      | false => rfl
      | true =>
          cases expandShortNames host drive parts with
          | none => rfl
          | some expanded => rfl

theorem resolve_plain {host : Host} {drive : Char} {parts : List String}
    (h : parts.any hasShortNameAlias = false) :
    resolve host drive parts = some (joinWindowsPath drive parts) := by
  rw [resolve, h]
  rfl

namespace Canonical

variable {drive drive' : Char} {parts parts' : List String}

/-- The characters of the components. -/
theorem words_of (h : Canonical drive parts) :
    ∀ word ∈ parts.map String.toList, word ≠ [] ∧ ∀ c ∈ word, isSeparator c = false :=
  List.forall_mem_map.mpr h.named

theorem lowered_eq (h : Canonical drive parts) : lowered parts = parts := by
  rw [lowered, List.map_congr_left h.lower, List.map_id'']
  exact fun _ => rfl

theorem toList_join (h : Canonical drive parts) :
    (joinWindowsPath drive parts).toList = drive :: ':' :: '\\' :: (joinParts parts).toList := by
  rw [joinWindowsPath, String.toList_ofList, asciiLower_joinParts, h.lowered_eq]

/-- A canonical path has its own drive and components. -/
theorem split_join (h : Canonical drive parts) :
    splitWindowsPath (joinWindowsPath drive parts) = some (drive, parts) := by
  have hparts : components (String.ofList (joinParts parts).toList) = parts := by
    rw [String.ofList_toList, components_joinParts h.named]
  have halpha : drive.isAlpha = true := (isAlpha_iff drive).mpr (Or.inl h.letter)
  have hupper : drive.toUpper = drive := by
    apply Char.toNat_inj.mp
    have hletter := h.letter
    rw [toNat_toUpper, if_neg (by omega)]
  have hplain : parts.any ambiguousPart = false := by
    rw [List.any_eq_false]
    intro part hpart
    rw [(h.plain part hpart).1]
    exact Bool.false_ne_true
  rw [splitWindowsPath, h.toList_join]
  simp only [hparts, halpha, hplain, hupper, Bool.not_false, Bool.and_self, if_true]

theorem slash_notMem_join (h : Canonical drive parts) :
    '/' ∉ (joinWindowsPath drive parts).toList := by
  have hparts := slash_notMem_joinParts h.named
  rw [h.toList_join]
  intro hmem
  simp only [List.mem_cons, hparts, or_false] at hmem
  rcases hmem with rfl | hmem | hmem
  · exact absurd h.letter.1 (by decide)
  · exact absurd hmem (by decide)
  · exact absurd hmem (by decide)

/-- A canonical path is its own normal form. -/
theorem normalize_join (h : Canonical drive parts) (host : Host) :
    normalizeWindowsPath host (joinWindowsPath drive parts) =
      some (joinWindowsPath drive parts) := by
  have hreplace := replaceChar_of_slash_notMem h.slash_notMem_join
  have halias : parts.any hasShortNameAlias = false := by
    rw [List.any_eq_false]
    intro part hpart
    rw [(h.plain part hpart).2]
    exact Bool.false_ne_true
  rw [normalizeWindowsPath_eq, hreplace, h.split_join, Option.bind_some, resolve_plain halias]

/-! #### Containment -/

/-- What is left of a canonical path without separators at its end. -/
theorem trimSeparators_join (h : Canonical drive parts) :
    trimSeparators (joinWindowsPath drive parts).toList =
      drive :: ':' :: (parts.map String.toList).flatMap fun word => '\\' :: word := by
  rw [h.toList_join]
  by_cases hparts : parts.map String.toList = []
  · rw [joinParts, hparts]
    rfl
  · have hended : Ended (joinParts parts).toList := by
      rw [joinParts, String.toList_ofList]
      refine ended_intercalate fun word hword => ?_
      obtain ⟨hnonempty, hchars⟩ := h.words_of word hword
      exact ⟨hnonempty, fun c hc => hchars c (List.mem_of_getLast? hc)⟩
    rw [← cons_intercalate hparts, joinParts, String.toList_ofList]
    rw [joinParts, String.toList_ofList] at hended
    apply trimSeparators_of_ended
    intro c hc
    have hnonempty : List.intercalate ['\\'] (parts.map String.toList) ≠ [] := by
      intro hnil
      have hwords := words_intercalate (by decide : isSeparator '\\' = true) h.words_of
      rw [hnil, words_nil] at hwords
      exact hparts hwords.symm
    obtain ⟨first, more, hfirst⟩ := List.exists_cons_of_ne_nil hnonempty
    rw [hfirst, List.getLast?_cons_cons, List.getLast?_cons_cons, List.getLast?_cons_cons] at hc
    rw [hfirst] at hended
    exact hended c hc

/-- Lowering changes nothing in a canonical path but its drive. -/
theorem asciiLower_flatMap (h : Canonical drive parts) :
    asciiLower ((parts.map String.toList).flatMap fun word => '\\' :: word) =
      (parts.map String.toList).flatMap fun word => '\\' :: word := by
  rw [asciiLower, List.map_flatMap, List.flatMap_map, List.flatMap_map]
  apply List.flatMap_congr
  intro part hpart
  have hlower := congrArg String.toList (h.lower part hpart)
  rw [toList_toAsciiLowercase, asciiLower] at hlower
  rw [List.map_cons, hlower]
  rfl

theorem drive_of_toLower (h : Canonical drive parts) (h' : Canonical drive' parts')
    (hdrive : drive.toLower = drive'.toLower) : drive = drive' := by
  have hcode := congrArg Char.toNat hdrive
  rw [toNat_toLower, toNat_toLower, if_pos h.letter, if_pos h'.letter] at hcode
  apply Char.toNat_inj.mp
  omega

/-- A canonical path contains another on the same drive exactly if its
components are the first of the other's. -/
theorem within_join (h : Canonical drive parts) (h' : Canonical drive' parts') :
    windowsPathWithin (joinWindowsPath drive parts) (joinWindowsPath drive' parts') = true ↔
      drive = drive' ∧ parts' <+: parts := by
  have hseparator : isSeparator '\\' = true := by decide
  have hwords := words_flatMap hseparator h.words_of
  have hwords' := words_flatMap hseparator h'.words_of
  have hinj : Function.Injective (List.map String.toList) :=
    List.map_injective_iff.mpr fun _ _ hsame => String.toList_injective hsame
  have hlower := h.asciiLower_flatMap
  have hlower' := h'.asciiLower_flatMap
  simp only [windowsPathWithin, h.trimSeparators_join, h'.trimSeparators_join, Bool.or_eq_true,
    Bool.and_eq_true, decide_eq_true_eq]
  generalize htext : ((parts.map String.toList).flatMap fun word => '\\' :: word) = text at *
  generalize htext' : ((parts'.map String.toList).flatMap fun word => '\\' :: word) = text' at *
  constructor
  · rintro (hsame | ⟨htake, hdrop⟩)
    · obtain ⟨hdrive, hsame⟩ := List.cons.inj hsame
      have hsame : asciiLower text = asciiLower text' := (List.cons.inj hsame).2
      rw [hlower, hlower'] at hsame
      refine ⟨h.drive_of_toLower h' hdrive, ?_⟩
      rw [hsame, hwords'] at hwords
      rw [hinj hwords]
    · obtain ⟨hdrive, htake⟩ := List.cons.inj htake
      have htake : asciiLower (text.take text'.length) = asciiLower text' := (List.cons.inj htake).2
      rw [asciiLower, List.map_take, ← asciiLower, hlower, hlower'] at htake
      refine ⟨h.drive_of_toLower h' hdrive, ?_⟩
      change (text.drop text'.length).head?.any isSeparator = true at hdrop
      obtain ⟨separator, hhead, hsep⟩ := (Option.any_eq_true _ _).mp hdrop
      obtain ⟨after, hafter⟩ := List.head?_eq_some_iff.mp hhead
      -- what follows the smaller path begins with a separator
      have hdivide := List.take_append_drop text'.length text
      rw [htake, hafter] at hdivide
      rw [← hdivide, words_append_cons hsep, hwords'] at hwords
      obtain ⟨first, rest, rfl, hfirst, _⟩ := List.map_eq_append_iff.mp hwords.symm
      rw [hinj hfirst]
      exact List.prefix_append parts' rest
  · rintro ⟨rfl, rest, rfl⟩
    rw [List.map_append, List.flatMap_append, htext'] at htext
    subst htext
    cases rest with
    | nil =>
        left
        rw [List.map_nil, List.flatMap_nil, List.append_nil]
    | cons part rest =>
        right
        constructor
        · simp
        · simp [isSeparator]

/-! #### Lengths -/

theorem toList_join_of_ne_nil (h : Canonical drive parts) (hparts : parts ≠ []) :
    (joinWindowsPath drive parts).toList =
      drive :: ':' :: (parts.map String.toList).flatMap fun word => '\\' :: word := by
  have hwords : parts.map String.toList ≠ [] := fun hnil => hparts (List.map_eq_nil_iff.mp hnil)
  rw [h.toList_join, joinParts, String.toList_ofList, ← cons_intercalate hwords]

/-- A path with more components than another that contains it is longer. -/
theorem byteLength_lt (h : Canonical drive parts) (h' : Canonical drive parts')
    (hinit : parts' <+: parts) (hlength : parts'.length < parts.length) :
    byteLength (joinWindowsPath drive parts') < byteLength (joinWindowsPath drive parts) := by
  obtain ⟨rest, rfl⟩ := hinit
  have hlonger : ∃ first more, (joinWindowsPath drive (parts' ++ rest)).toList =
      (joinWindowsPath drive parts').toList ++ first :: more := by
    have hrest : rest ≠ [] := by
      rintro rfl
      simp at hlength
    rw [h.toList_join_of_ne_nil (List.append_ne_nil_of_right_ne_nil _ hrest)]
    by_cases hparts : parts' = []
    · obtain ⟨part, more, rfl⟩ := List.exists_cons_of_ne_nil hrest
      subst hparts
      obtain ⟨c, part', hpart⟩ := List.exists_cons_of_ne_nil (h.named part (by simp)).1
      rw [h'.toList_join, List.nil_append, List.map_cons, List.flatMap_cons, hpart]
      exact ⟨c, _, rfl⟩
    · obtain ⟨part, more, rfl⟩ := List.exists_cons_of_ne_nil hrest
      rw [h'.toList_join_of_ne_nil hparts, List.map_append, List.flatMap_append, List.map_cons,
        List.flatMap_cons]
      exact ⟨'\\', _, rfl⟩
  obtain ⟨first, more, hlonger⟩ := hlonger
  have hpos := first.utf8Size_pos
  rw [byteLength, byteLength, ← String.ofList_toList (s := joinWindowsPath drive (parts' ++ rest)),
    hlonger, String.utf8ByteSize_ofList, String.utf8Len_append, String.utf8Len_cons,
    ← String.utf8ByteSize_ofList, String.ofList_toList]
  omega

/-- Among the paths that contain one path, those with fewer components are the
shorter ones. -/
theorem byteLength_lt_iff {drive : Char} {parts roots roots' : List String}
    (h : Canonical drive roots) (h' : Canonical drive roots') (hinit : roots <+: parts)
    (hinit' : roots' <+: parts) :
    byteLength (joinWindowsPath drive roots) < byteLength (joinWindowsPath drive roots') ↔
      roots.length < roots'.length := by
  constructor
  · intro hlt
    by_contra hle
    rw [not_lt] at hle
    have hback := List.prefix_of_prefix_length_le hinit' hinit hle
    rcases Nat.lt_or_eq_of_le hle with hlength | hlength
    · have hgt := h.byteLength_lt h' hback hlength
      omega
    · rw [hback.eq_of_length hlength] at hlt
      exact lt_irrefl _ hlt
  · intro hlength
    exact h'.byteLength_lt h (List.prefix_of_prefix_length_le hinit hinit' hlength.le) hlength

end Canonical

/-- Normalisation ends in a canonical path. -/
theorem canonical_of_normalize {host : Host} (hhost : SlashFree host) {input path : String}
    (h : normalizeWindowsPath host input = some path) :
    ∃ drive parts, Canonical drive parts ∧ path = joinWindowsPath drive parts := by
  have hinput := slash_notMem_replaceChar input
  rw [normalizeWindowsPath_eq, Option.bind_eq_some_iff] at h
  obtain ⟨⟨drive, parts⟩, hsplit, h⟩ := h
  rw [resolve] at h
  split at h
  case isTrue =>
      rw [Option.bind_eq_some_iff] at h
      obtain ⟨⟨drive', parts'⟩, hsplit', h⟩ := h
      rw [Option.bind_eq_some_iff] at hsplit'
      obtain ⟨expanded, hexpanded, hsplit'⟩ := hsplit'
      have hslash :=
        slash_notMem_expandShortNames hhost (slash_notMem_of_split hsplit hinput) hexpanded
      split at h
      case isTrue => cases h
      case isFalse hplain =>
          obtain rfl := Option.some.inj h
          exact ⟨drive', _, canonical_of_split hsplit' hslash (Bool.eq_false_iff.mpr hplain),
            (joinWindowsPath_lowered drive' parts').symm⟩
  case isFalse hplain =>
      obtain rfl := Option.some.inj h
      exact ⟨drive, _, canonical_of_split hsplit hinput (Bool.eq_false_iff.mpr hplain),
        (joinWindowsPath_lowered drive parts).symm⟩

/-! ### Spellings -/

/-- A spelling of a path with one backslash for each run of slashes of either
kind, in lower case. -/
def plainSpelling (target : String) : List Char :=
  squeeze isSeparator '\\' Char.toLower false target.toList

/-- Two spellings that differ only in the kind of slashes, in how often they are
repeated and in the case of ASCII letters. -/
def SameSpelling (target target' : String) : Prop := plainSpelling target = plainSpelling target'

instance (target target' : String) : Decidable (SameSpelling target target') :=
  inferInstanceAs (Decidable (plainSpelling target = plainSpelling target'))

/-- For the host the case of ASCII letters in a path makes no difference but for
the case of letters in its answer. -/
def CaseBlind (host : Host) : Prop := ∀ path path', toAsciiLowercase path = toAsciiLowercase path' →
  (host.longPathName path).map toAsciiLowercase = (host.longPathName path').map toAsciiLowercase

theorem toLower_toLower (c : Char) : c.toLower.toLower = c.toLower := by
  apply Char.toNat_inj.mp
  rw [toNat_toLower, toNat_toLower]
  split_ifs <;> omega

theorem sameSpelling_of_lower {target target' : String}
    (h : toAsciiLowercase target = toAsciiLowercase target') : SameSpelling target target' := by
  rw [toAsciiLowercase_eq_iff] at h
  rw [SameSpelling, plainSpelling, plainSpelling,
    ← squeeze_map isSeparator_toLower toLower_toLower false target.toList, ← asciiLower, h,
    asciiLower, squeeze_map isSeparator_toLower toLower_toLower]

/-- A path with a drive and a root, split. -/
theorem splitWindowsPath_of_text {path : String} {letter : Char} {rest : List Char}
    (htext : path.toList = letter :: ':' :: '\\' :: rest) :
    splitWindowsPath path =
      if letter.isAlpha && !(components (String.ofList rest)).any ambiguousPart then
        some (letter.toUpper, components (String.ofList rest))
      else none := by
  rw [splitWindowsPath, htext]
  rfl

theorem backslash_eq_iff {c : Char} : backslash c = '\\' ↔ isSeparator c = true := by
  rw [backslash, isSeparator, Bool.or_eq_true, decide_eq_true_eq, decide_eq_true_eq]
  split_ifs with hc
  · exact iff_of_true rfl (Or.inr hc)
  · exact ⟨Or.inl, fun h => h.resolve_right hc⟩

theorem backslash_of_not_separator {c : Char} (hc : isSeparator c = false) : backslash c = c := by
  rw [isSeparator, Bool.or_eq_false_iff] at hc
  rw [backslash, if_neg (of_decide_eq_false hc.2)]

theorem eq_of_backslash {c d : Char} (h : backslash c = d) (hd : d ≠ '\\') : c = d := by
  rw [backslash] at h
  split_ifs at h
  · exact absurd h.symm hd
  · exact h

theorem isSeparator_of_isAlpha {c : Char} (hc : c.isAlpha = true) : isSeparator c = false := by
  have hne : ∀ d : Char, d.isAlpha = false → c ≠ d := by
    rintro d hd rfl
    rw [hd] at hc
    cases hc
  rw [isSeparator, decide_eq_false (hne '\\' (by decide)), decide_eq_false (hne '/' (by decide))]
  rfl

/-- Which targets have a drive and components, with slashes of either kind. -/
theorem split_replaceChar_iff {target : String} {drive : Char} {parts : List String} :
    splitWindowsPath (replaceChar '/' '\\' target) = some (drive, parts) ↔
      ∃ letter separator text, target.toList = letter :: ':' :: separator :: text ∧
        letter.isAlpha = true ∧ isSeparator separator = true ∧ drive = letter.toUpper ∧
          parts = components (String.ofList (text.map backslash)) ∧
            parts.any ambiguousPart = false := by
  constructor
  · intro hsplit
    obtain ⟨letter, rest, htext, halpha, rfl, rfl⟩ := splitWindowsPath_eq_some hsplit
    rw [splitWindowsPath_of_text htext, halpha, Bool.true_and] at hsplit
    obtain ⟨hplain, _⟩ := Option.ite_none_right_eq_some.mp hsplit
    rw [toList_replaceChar] at htext
    obtain ⟨a, text, htarget, ha, htext⟩ := List.map_eq_cons_iff.mp htext
    obtain ⟨b, text, rfl, hb, htext⟩ := List.map_eq_cons_iff.mp htext
    obtain ⟨c, text, rfl, hc, rfl⟩ := List.map_eq_cons_iff.mp htext
    -- a letter and a colon are no separators, so they stand in the target itself
    have hletter : letter ≠ '\\' := by
      rintro rfl
      cases halpha
    obtain rfl := eq_of_backslash ha hletter
    obtain rfl := eq_of_backslash hb (by decide)
    exact ⟨a, c, text, htarget, halpha, backslash_eq_iff.mp hc, rfl, rfl,
      by simpa using hplain⟩
  · rintro ⟨letter, separator, text, htarget, halpha, hseparator, rfl, rfl, hplain⟩
    have htext : (replaceChar '/' '\\' target).toList =
        letter :: ':' :: '\\' :: text.map backslash := by
      rw [toList_replaceChar, htarget, List.map_cons, List.map_cons, List.map_cons,
        backslash_of_not_separator (isSeparator_of_isAlpha halpha), backslash_eq_iff.mpr hseparator]
      rfl
    rw [splitWindowsPath_of_text htext, halpha, hplain]
    rfl

theorem lowered_components (text : List Char) :
    lowered (components (String.ofList (text.map backslash))) =
      (words isSeparator (squeeze isSeparator '\\' Char.toLower true text)).map String.ofList := by
  have hbackslash : ∀ c, decide (backslash c = '\\') = isSeparator c := by
    intro c
    apply Bool.eq_iff_iff.mpr
    rw [decide_eq_true_eq, backslash_eq_iff]
  rw [(words_squeeze (by decide) isSeparator_toLower text).2, words_map isSeparator_toLower,
    components_eq, String.toList_ofList, words_map hbackslash, lowered, List.map_map, List.map_map,
    List.map_map]
  apply List.map_congr_left
  intro word hword
  have hword : word.map backslash = word := by
    refine (List.map_congr_left fun c hc => ?_).trans (List.map_id word)
    have hkeeps := ((mem_words hword).2 c hc).2
    rw [backslash_of_not_separator hkeeps, id]
  rw [Function.comp_apply, Function.comp_apply, hword, Function.comp_apply, toAsciiLowercase,
    String.toList_ofList, asciiLower]

theorem any_ambiguousPart_lowered (parts : List String) :
    (lowered parts).any ambiguousPart = parts.any ambiguousPart := by
  rw [lowered, List.any_map]
  congr 1
  funext part
  exact ambiguousPart_toAsciiLowercase part

theorem any_hasShortNameAlias_lowered (parts : List String) :
    (lowered parts).any hasShortNameAlias = parts.any hasShortNameAlias := by
  rw [lowered, List.any_map]
  congr 1
  funext part
  exact hasShortNameAlias_toAsciiLowercase part

/-- Two spellings of a path are split alike but for the case of letters. -/
theorem split_of_sameSpelling {target target' : String} (h : SameSpelling target target')
    {drive : Char} {parts : List String}
    (hsplit : splitWindowsPath (replaceChar '/' '\\' target) = some (drive, parts)) :
    ∃ parts', splitWindowsPath (replaceChar '/' '\\' target') = some (drive, parts') ∧
      lowered parts' = lowered parts := by
  obtain ⟨letter, separator, text, htarget, halpha, hseparator, rfl, rfl, hplain⟩ :=
    split_replaceChar_iff.mp hsplit
  have hletter := isSeparator_of_isAlpha halpha
  have hcolon : isSeparator ':' = false := by decide
  have hsqueezed : plainSpelling target' =
      letter.toLower :: ':' :: '\\' :: squeeze isSeparator '\\' Char.toLower true text := by
    rw [← h, plainSpelling, htarget]
    simp only [squeeze, hletter, hcolon, hseparator, Bool.false_eq_true, if_false, if_true]
    rfl
  have hback : letter.toLower ≠ '\\' := by
    intro heq
    have hsep := isSeparator_toLower letter
    rw [heq, hletter] at hsep
    cases hsep
  -- the other spelling begins with a letter, a colon and a separator as well
  obtain ⟨a, rest, htarget', (⟨_, hfirst, _⟩ | ⟨_, hfirst, hcolons⟩)⟩ := squeeze_eq_cons hsqueezed
  · exact absurd hfirst hback
  obtain ⟨b, rest, rfl, (⟨_, hsecond, _⟩ | ⟨_, hsecond, hroots⟩)⟩ :=
    squeeze_eq_cons hcolons.symm
  · exact absurd hsecond (by decide)
  obtain ⟨c, rest, rfl, (⟨hc, _, hrests⟩ | ⟨hc, hthird, _⟩)⟩ := squeeze_eq_cons hroots.symm
  case inr =>
      rw [← isSeparator_toLower, ← hthird] at hc
      cases hc
  obtain rfl := (toLower_eq_iff (by decide)).mp hsecond.symm
  have hlowered : lowered (components (String.ofList (rest.map backslash))) =
      lowered (components (String.ofList (text.map backslash))) := by
    rw [lowered_components, lowered_components, hrests]
  refine ⟨_, split_replaceChar_iff.mpr ⟨a, c, rest, htarget', ?_, hc, ?_, rfl, ?_⟩, hlowered⟩
  · rwa [← isAlpha_of_toLower_eq hfirst]
  · exact toUpper_of_toLower_eq hfirst
  · rwa [← any_ambiguousPart_lowered, hlowered, any_ambiguousPart_lowered]

/-- What is made of the drive and the components, whatever their case, is the
same for two spellings. -/
theorem bind_split_congr {target target' : String} (h : SameSpelling target target')
    {f : Char × List String → Option String}
    (hf : ∀ drive parts parts', splitWindowsPath (replaceChar '/' '\\' target) =
      some (drive, parts) →
      splitWindowsPath (replaceChar '/' '\\' target') = some (drive, parts') →
        lowered parts' = lowered parts → f (drive, parts) = f (drive, parts')) :
    (splitWindowsPath (replaceChar '/' '\\' target)).bind f =
      (splitWindowsPath (replaceChar '/' '\\' target')).bind f := by
  cases hsplit : splitWindowsPath (replaceChar '/' '\\' target) with
  | some split =>
      obtain ⟨drive, parts⟩ := split
      obtain ⟨parts', hsplit', hlowered⟩ := split_of_sameSpelling h hsplit
      rw [hsplit', Option.bind_some, Option.bind_some]
      exact hf drive parts parts' hsplit hsplit' hlowered
  | none =>
      cases hsplit' : splitWindowsPath (replaceChar '/' '\\' target') with
      | none => rfl
      | some split =>
          obtain ⟨parts, hsome, _⟩ := split_of_sameSpelling h.symm hsplit'
          rw [hsplit] at hsome
          cases hsome

/-! ### Long forms -/

theorem asciiLower_append (text text' : List Char) :
    asciiLower (text ++ text') = asciiLower text ++ asciiLower text' := List.map_append

theorem asciiLower_dropBackslashes (text : List Char) :
    asciiLower ((text.reverse.dropWhile (· = '\\')).reverse) =
      ((asciiLower text).reverse.dropWhile (· = '\\')).reverse := by
  have hkeeps : (fun c => decide (c = '\\')) ∘ Char.toLower = fun c => decide (c = '\\') := by
    funext c
    simp [toLower_eq_iff]
  have hreverse : (text.map Char.toLower).reverse = text.reverse.map Char.toLower :=
    List.map_reverse.symm
  rw [asciiLower, asciiLower, hreverse, List.dropWhile_map, hkeeps, List.map_reverse]

/-- An expanded path that ends in a colon ends in a backslash after it. -/
theorem asciiLower_closed {text text' : List Char} (h : asciiLower text = asciiLower text') :
    asciiLower (if text.getLast? = some ':' then text ++ ['\\'] else text) =
      asciiLower (if text'.getLast? = some ':' then text' ++ ['\\'] else text') := by
  have hcolon : text.getLast? = some ':' ↔ text'.getLast? = some ':' := by
    rw [← getLast?_asciiLower_iff (by decide), h, getLast?_asciiLower_iff (by decide)]
  by_cases hlast : text.getLast? = some ':'
  · rw [if_pos hlast, if_pos (hcolon.mp hlast), asciiLower_append, asciiLower_append, h]
  · rw [if_neg hlast, if_neg (mt hcolon.mpr hlast), h]

/-- The host's answers for two spellings of a path differ in the case of
letters only. -/
theorem expandPrefix_congr {host : Host} (hcase : CaseBlind host) {drive : Char}
    {parts parts' : List String} (h : lowered parts = lowered parts') (existing : ℕ) :
    (expandPrefix host drive parts existing).map toAsciiLowercase =
      (expandPrefix host drive parts' existing).map toAsciiLowercase := by
  have htake : lowered (parts.take existing) = lowered (parts'.take existing) := by
    rw [lowered, lowered, List.map_take, List.map_take, ← lowered, h, lowered]
  have hdrop : lowered (parts.drop existing) = lowered (parts'.drop existing) := by
    rw [lowered, lowered, List.map_drop, List.map_drop, ← lowered, h, lowered]
  have hinit : toAsciiLowercase
      (String.ofList (drive :: ':' :: '\\' :: (joinParts (parts.take existing)).toList)) =
      toAsciiLowercase
        (String.ofList (drive :: ':' :: '\\' :: (joinParts (parts'.take existing)).toList)) := by
    rw [toAsciiLowercase_eq_iff, String.toList_ofList, String.toList_ofList]
    simp only [asciiLower, List.map_cons]
    rw [← asciiLower, ← asciiLower, asciiLower_joinParts, asciiLower_joinParts, htake]
  have htail : ∀ parts : List String,
      asciiLower (parts.flatMap fun part => '\\' :: part.toList) =
        (lowered parts).flatMap fun part => '\\' :: part.toList := by
    intro parts
    rw [asciiLower, List.map_flatMap, lowered, List.flatMap_map]
    apply List.flatMap_congr
    intro part _
    rw [List.map_cons, toList_toAsciiLowercase, asciiLower]
    rfl
  -- the host is asked for prefixes that differ in case only
  have hlong := hcase _ _ hinit
  rw [expandPrefix, expandPrefix]
  cases hanswer : host.longPathName
      (String.ofList (drive :: ':' :: '\\' :: (joinParts (parts.take existing)).toList)) with
  | none =>
      rw [hanswer] at hlong
      rw [Option.map_eq_none_iff.mp hlong.symm]
      rfl
  | some long =>
      rw [hanswer] at hlong
      obtain ⟨long', hanswer', hlong'⟩ := Option.map_eq_some_iff.mp hlong.symm
      rw [hanswer']
      have hlong'' := toAsciiLowercase_eq_iff.mp hlong'
      have hexpanded : asciiLower ((long.toList.reverse.dropWhile (· = '\\')).reverse ++
            (parts.drop existing).flatMap fun part => '\\' :: part.toList) =
          asciiLower ((long'.toList.reverse.dropWhile (· = '\\')).reverse ++
            (parts'.drop existing).flatMap fun part => '\\' :: part.toList) := by
        rw [asciiLower_append, asciiLower_append, asciiLower_dropBackslashes,
          asciiLower_dropBackslashes, hlong'', htail, htail, hdrop]
      simp only [Option.bind_eq_bind, Option.bind_some, Option.pure_def, Option.map_some,
        Option.some.injEq]
      rw [toAsciiLowercase_eq_iff, String.toList_ofList, String.toList_ofList]
      exact asciiLower_closed hexpanded

theorem expandShortNames_congr {host : Host} (hcase : CaseBlind host) {drive : Char}
    {parts parts' : List String} (h : lowered parts = lowered parts') :
    (expandShortNames host drive parts).map toAsciiLowercase =
      (expandShortNames host drive parts').map toAsciiLowercase := by
  have hlength : parts.length = parts'.length := by
    have hlengths := congrArg List.length h
    rwa [lowered, lowered, List.length_map, List.length_map] at hlengths
  rw [expandShortNames, expandShortNames, List.map_findSome?, List.map_findSome?, hlength]
  congr 1
  funext existing
  exact expandPrefix_congr hcase h existing

theorem resolve_congr {host : Host} (hhost : SlashFree host) (hcase : CaseBlind host) {drive : Char}
    {parts parts' : List String} (h : lowered parts = lowered parts')
    (hslash : ∀ part ∈ parts, '/' ∉ part.toList) (hslash' : ∀ part ∈ parts', '/' ∉ part.toList) :
    resolve host drive parts = resolve host drive parts' := by
  have halias : parts.any hasShortNameAlias = parts'.any hasShortNameAlias := by
    rw [← any_hasShortNameAlias_lowered, h, any_hasShortNameAlias_lowered]
  have hjoin : joinWindowsPath drive parts = joinWindowsPath drive parts' := by
    rw [← joinWindowsPath_lowered, h, joinWindowsPath_lowered]
  have hexpand : (expandShortNames host drive parts).map toAsciiLowercase =
      (expandShortNames host drive parts').map toAsciiLowercase := expandShortNames_congr hcase h
  rw [resolve, resolve, halias, hjoin]
  cases hexpanded : expandShortNames host drive parts with
  | none =>
      rw [hexpanded] at hexpand
      rw [Option.map_eq_none_iff.mp hexpand.symm]
  | some expanded =>
      rw [hexpanded] at hexpand
      obtain ⟨expanded', hexpanded', hlower⟩ := Option.map_eq_some_iff.mp hexpand.symm
      -- what the host answers has no slash, so it is split as it stands
      have hfree :=
        replaceChar_of_slash_notMem (slash_notMem_expandShortNames hhost hslash hexpanded)
      have hfree' :=
        replaceChar_of_slash_notMem (slash_notMem_expandShortNames hhost hslash' hexpanded')
      rw [hexpanded', Option.bind_some, Option.bind_some]
      congr 1
      rw [← hfree, ← hfree']
      refine bind_split_congr (sameSpelling_of_lower hlower.symm)
        fun drive parts parts' _ _ hsame => ?_
      simp only [← any_hasShortNameAlias_lowered parts, ← any_hasShortNameAlias_lowered parts',
        ← joinWindowsPath_lowered drive parts, ← joinWindowsPath_lowered drive parts', hsame]

/-- Two spellings of a path have one normal form. -/
theorem normalize_of_sameSpelling {host : Host} (hhost : SlashFree host) (hcase : CaseBlind host)
    {target target' : String} (h : SameSpelling target target') :
    normalizeWindowsPath host target = normalizeWindowsPath host target' := by
  rw [normalizeWindowsPath_eq, normalizeWindowsPath_eq]
  refine bind_split_congr h fun drive parts parts' hsplit hsplit' hsame => ?_
  exact resolve_congr hhost hcase hsame.symm
    (slash_notMem_of_split hsplit (slash_notMem_replaceChar target))
    (slash_notMem_of_split hsplit' (slash_notMem_replaceChar target'))

/-- A normal form is its own normal form. -/
theorem normalize_normalize {host : Host} (hhost : SlashFree host) {input path : String}
    (h : normalizeWindowsPath host input = some path) :
    normalizeWindowsPath host path = some path := by
  obtain ⟨drive, parts, hcanonical, rfl⟩ := canonical_of_normalize hhost h
  exact hcanonical.normalize_join host

end VorCommander.WindowsPath
