import VorCommander.Fs.Types
import VorCommander.Steps.Checks
import VorCommander.Text.Regex
import VorCommander.Text.Strings

/-!
Patterns of paths.

A pattern is translated into a regular expression, from left to right with a look at the
next two characters. What the expression matches is what the pattern says: `**/` stands
for any number of directories, `**` for any text, `*` for text within a component and `?`
for one character of it.
-/

namespace VorCommander

open Steps Text

namespace Fs

/-- The loop of `glob_regex`. -/
def globText (escape : String → String) : List Char → String
  | [] => ""
  | '*' :: '*' :: '/' :: rest => "(?:.*/)?" ++ globText escape rest
  | '*' :: '*' :: rest => ".*" ++ globText escape rest
  | '*' :: rest => "[^/]*" ++ globText escape rest
  | '?' :: rest => "[^/]" ++ globText escape rest
  | value :: rest => escape (String.singleton value) ++ globText escape rest

/-- `glob_regex`. -/
def globRegex (crate : RegexCrate) (pattern : String) : Except FsError crate.Compiled := do
  failIf (pattern = "" ∨ '\x00' ∈ pattern.toList) .invalidPattern
  let result := "^" ++ globText crate.escape (replaceChar '\\' '/' pattern).toList ++ "$"
  match crate.new result with
  | some regex => return regex
  | none => throw .invalidPattern

/-! ### What a pattern says -/

/-- Directories, each with the separator after it. -/
def directoryPath (directories : List (List Char)) : List Char :=
  directories.flatMap fun directory => directory ++ ['/']

/-- A pattern with `/` as its separator matches a path. -/
def GlobMatches : List Char → List Char → Prop
  | [], path => path = []
  | '*' :: '*' :: '/' :: rest, path =>
      ∃ directories tail, (∀ directory ∈ directories, '/' ∉ directory) ∧
        GlobMatches rest tail ∧ path = directoryPath directories ++ tail
  | '*' :: '*' :: rest, path => ∃ skipped tail, GlobMatches rest tail ∧ path = skipped ++ tail
  | '*' :: rest, path =>
      ∃ skipped tail, '/' ∉ skipped ∧ GlobMatches rest tail ∧ path = skipped ++ tail
  | '?' :: rest, path => ∃ c tail, c ≠ '/' ∧ GlobMatches rest tail ∧ path = c :: tail
  | c :: rest, path => ∃ tail, GlobMatches rest tail ∧ path = c :: tail

/-! ### The translation -/

/-- The expression of a pattern. -/
def globExpression : List Char → Regex
  | [] => .nil
  | '*' :: '*' :: '/' :: rest =>
      .maybe (.many .any (.one .slash .nil)) (globExpression rest)
  | '*' :: '*' :: rest => .many .any (globExpression rest)
  | '*' :: rest => .many .notSlash (globExpression rest)
  | '?' :: rest => .one .notSlash (globExpression rest)
  | c :: rest => .one (.literal c) (globExpression rest)

theorem globText_eq (escape : String → String) (pattern : List Char) :
    globText escape pattern = (globExpression pattern).text escape := by
  fun_induction globExpression pattern with
  | case1 => rfl
  | case2 rest ih => rw [globText, ih]; rfl
  | case3 rest hnot ih => rw [globText, ih] <;> first | rfl | assumption
  | case4 rest hnot hnot' ih => rw [globText, ih] <;> first | rfl | assumption
  | case5 rest ih => rw [globText, ih]; rfl
  | case6 c rest hslash hdouble hstar hmark ih =>
      rw [globText, ih] <;> first | rfl | assumption

/-- A text is a sequence of directories if it is empty or ends with a separator. -/
theorem exists_directories {w : List Char} :
    (∃ directories, (∀ directory ∈ directories, '/' ∉ directory) ∧
        w = directoryPath directories) ↔ w = [] ∨ ∃ u, w = u ++ ['/'] := by
  constructor
  · rintro ⟨directories, -, rfl⟩
    rcases List.eq_nil_or_concat directories with rfl | ⟨first, last, rfl⟩
    · exact .inl rfl
    · exact .inr ⟨directoryPath first ++ last, by simp [directoryPath]⟩
  · rintro (rfl | ⟨u, rfl⟩)
    · exact ⟨[], by simp, rfl⟩
    · induction u with
      | nil => exact ⟨[[]], by simp, rfl⟩
      | cons c u ih =>
          obtain ⟨directories, hmem, hpath⟩ := ih
          by_cases hc : c = '/'
          · exact ⟨[] :: directories, by simpa using hmem, by simp [directoryPath, hc, hpath]⟩
          · cases directories with
            | nil => simp [directoryPath] at hpath
            | cons directory directories =>
                refine ⟨(c :: directory) :: directories, ?_, ?_⟩
                · simpa [Ne.symm hc] using hmem
                · simpa [directoryPath] using hpath

/-- Without line feeds, an optional text before a separator is a sequence of directories. -/
theorem mem_directoryExpression {u : List Char} (hu : '\n' ∉ u) :
    (u = [] ∨ u ∈ (Regex.many .any (.one .slash .nil)).language) ↔
      ∃ directories, (∀ directory ∈ directories, '/' ∉ directory) ∧
        u = directoryPath directories := by
  rw [exists_directories]
  refine or_congr_right ?_
  rw [Regex.mem_many]
  constructor
  · rintro ⟨first, last, -, hlast, rfl⟩
    obtain ⟨c, v, hc, hv, rfl⟩ := Regex.mem_one.mp hlast
    rw [Regex.mem_nil.mp hv, of_decide_eq_true hc]
    exact ⟨first, rfl⟩
  · rintro ⟨first, rfl⟩
    have hfirst : ∀ c ∈ first, RegexChar.any.accepts c = true := by
      intro c hc
      exact decide_eq_true fun heq => hu (List.mem_append_left _ (heq ▸ hc))
    have hslash : ['/'] ∈ (Regex.one .slash .nil).language :=
      Regex.mem_one.mpr ⟨'/', [], rfl, Regex.mem_nil.mpr rfl, rfl⟩
    exact ⟨first, ['/'], hfirst, hslash, rfl⟩

theorem not_mem_right {c : Char} {u v : List Char} (h : c ∉ u ++ v) : c ∉ v :=
  mt (List.mem_append_right u) h

/-- The expression of a pattern matches what the pattern does. -/
theorem mem_globExpression {pattern path : List Char} (hpath : '\n' ∉ path) :
    path ∈ (globExpression pattern).language ↔ GlobMatches pattern path := by
  fun_induction GlobMatches pattern path with
  | case1 path => exact Regex.mem_nil
  | case2 rest path ih =>
      rw [globExpression, Regex.mem_maybe]
      constructor
      · rintro ⟨u, v, hu, hv, rfl⟩
        obtain ⟨hnotu, hnotv⟩ := not_or.mp (mt List.mem_append.mpr hpath)
        obtain ⟨directories, hmem, rfl⟩ := (mem_directoryExpression hnotu).mp hu
        exact ⟨directories, v, hmem, (ih v hnotv).mp hv, rfl⟩
      · rintro ⟨directories, v, hmem, hv, rfl⟩
        obtain ⟨hnotu, hnotv⟩ := not_or.mp (mt List.mem_append.mpr hpath)
        exact ⟨_, v, (mem_directoryExpression hnotu).mpr ⟨directories, hmem, rfl⟩,
          (ih v hnotv).mpr hv, rfl⟩
  | case3 rest path hnot ih =>
      rw [globExpression, Regex.mem_many]
      · constructor
        · rintro ⟨u, v, -, hv, rfl⟩
          exact ⟨u, v, (ih v (not_mem_right hpath)).mp hv, rfl⟩
        · rintro ⟨u, v, hv, rfl⟩
          obtain ⟨hnotu, hnotv⟩ := not_or.mp (mt List.mem_append.mpr hpath)
          have hu : ∀ c ∈ u, RegexChar.any.accepts c = true := by
            intro c hc
            exact decide_eq_true fun heq => hnotu (heq ▸ hc)
          exact ⟨u, v, hu, (ih v hnotv).mpr hv, rfl⟩
      · exact hnot
  | case4 rest path hslash hstar ih =>
      rw [globExpression, Regex.mem_many]
      · constructor
        · rintro ⟨u, v, hu, hv, rfl⟩
          refine ⟨u, v, fun hmem => ?_, (ih v (not_mem_right hpath)).mp hv, rfl⟩
          exact absurd (hu _ hmem) (by decide)
        · rintro ⟨u, v, hu, hv, rfl⟩
          refine ⟨u, v, fun c hc => ?_, (ih v (not_mem_right hpath)).mpr hv, rfl⟩
          exact decide_eq_true fun heq => hu (heq ▸ hc)
      · exact hslash
      · exact hstar
  | case5 rest path ih =>
      rw [globExpression, Regex.mem_one]
      constructor
      · rintro ⟨c, v, hc, hv, rfl⟩
        exact ⟨c, v, of_decide_eq_true hc,
          (ih v (List.not_mem_of_not_mem_cons hpath)).mp hv, rfl⟩
      · rintro ⟨c, v, hc, hv, rfl⟩
        exact ⟨c, v, decide_eq_true hc, (ih v (List.not_mem_of_not_mem_cons hpath)).mpr hv, rfl⟩
  | case6 c rest path hslash hdouble hstar hmark ih =>
      rw [globExpression, Regex.mem_one]
      · constructor
        · rintro ⟨d, v, hd, hv, rfl⟩
          have heq : d = c := of_decide_eq_true hd
          exact ⟨v, (ih v (List.not_mem_of_not_mem_cons hpath)).mp hv, by rw [heq]⟩
        · rintro ⟨v, hv, rfl⟩
          exact ⟨c, v, decide_eq_true rfl,
            (ih v (List.not_mem_of_not_mem_cons hpath)).mpr hv, rfl⟩
      all_goals assumption

theorem globRegex_eq_ok {crate : RegexCrate} {pattern : String} {regex : crate.Compiled}
    (h : globRegex crate pattern = .ok regex) :
    crate.new ("^" ++ (globExpression (replaceChar '\\' '/' pattern).toList).text crate.escape ++
      "$") = some regex := by
  simp only [globRegex, bind_eq_ok, exists_unit, failIf_eq_ok, globText_eq] at h
  obtain ⟨-, h⟩ := h
  split at h
  case h_1 compiled hnew =>
      cases h
      exact hnew
  case h_2 => cases h

/-- A compiled pattern matches a path exactly if the pattern does. -/
theorem isMatch_globRegex_iff {crate : RegexCrate} (hcrate : crate.Documented)
    {pattern path : String} {regex : crate.Compiled} (h : globRegex crate pattern = .ok regex)
    (hpath : '\n' ∉ path.toList) :
    crate.isMatch regex path = true ↔
      GlobMatches (replaceChar '\\' '/' pattern).toList path.toList := by
  rw [hcrate _ _ (globRegex_eq_ok h), mem_globExpression hpath]

namespace GlobSample

def metaCharacters : List Char :=
  ['\\', '.', '+', '*', '?', '(', ')', '|', '[', ']', '\x7b', '\x7d', '^', '$', '#', '&', '-', '~']

/-- Characters with a meaning in an expression are written after a backslash. -/
def escape (text : String) : String :=
  String.ofList (text.toList.flatMap fun c => if c ∈ metaCharacters then ['\\', c] else [c])

/-- A library that compiles one expression. -/
def crate : RegexCrate where
  Compiled := Unit
  new text := if text = "^[^/]$" then some () else none
  isMatch _ text := text.toList.length = 1 && text.toList.all (· ≠ '/')
  escape := escape

theorem toList_escape (c : Char) :
    (escape (String.singleton c)).toList = if c ∈ metaCharacters then ['\\', c] else [c] := by
  rw [escape, String.toList_ofList, String.toList_singleton, List.flatMap_singleton]

theorem escape_head {c : Char} {rest tail : List Char} :
    (escape (String.singleton c)).toList ++ rest ≠ '[' :: tail := by
  intro h
  rw [toList_escape] at h
  split at h
  case isTrue => exact absurd (List.cons.inj h).1 (by decide)
  case isFalse hc =>
      rw [(List.cons.inj h).1] at hc
      exact hc (by decide)

theorem text_ne_nil (a : RegexChar) (rest : List Char) :
    (a.text escape).toList ++ rest ≠ [] := by
  cases a with
  | literal c =>
      rw [RegexChar.text, toList_escape]
      split <;> simp
  | any => simp [RegexChar.text]
  | slash => simp [RegexChar.text]
  | notSlash => simp [RegexChar.text]

/-- Only one expression is written so. -/
theorem eq_of_text {e : Regex} (h : (e.text escape).toList = ['[', '^', '/', ']']) :
    e = .one .notSlash .nil := by
  cases e with
  | nil => simp [Regex.text] at h
  | one a rest =>
      cases a with
      | literal c =>
          rw [Regex.text, String.toList_append] at h
          exact absurd h escape_head
      | any => simp [Regex.text, RegexChar.text] at h
      | slash => simp [Regex.text, RegexChar.text] at h
      | notSlash =>
          have hrest : (rest.text escape).toList = [] := by
            simpa [Regex.text, RegexChar.text] using h
          cases rest with
          | nil => rfl
          | one a rest =>
              rw [Regex.text, String.toList_append] at hrest
              exact absurd hrest (text_ne_nil a _)
          | many a rest =>
              rw [Regex.text, String.append_assoc, String.toList_append] at hrest
              exact absurd hrest (text_ne_nil a _)
          | maybe group rest => simp [Regex.text] at hrest
  | many a rest =>
      cases a with
      | literal c =>
          rw [Regex.text, String.append_assoc, String.toList_append] at h
          exact absurd h escape_head
      | any => simp [Regex.text, RegexChar.text] at h
      | slash => simp [Regex.text, RegexChar.text] at h
      | notSlash => simp [Regex.text, RegexChar.text] at h
  | maybe group rest => simp [Regex.text] at h

theorem documented : crate.Documented := by
  intro e compiled hnew text
  have htext : "^" ++ e.text escape ++ "$" = "^[^/]$" := by
    by_contra hne
    simp [crate, hne] at hnew
  have he : e = .one .notSlash .nil := by
    refine eq_of_text ?_
    have hchars : '^' :: (e.text escape).toList ++ ['$'] =
        '^' :: ['[', '^', '/', ']'] ++ ['$'] := by
      simpa using congrArg String.toList htext
    exact (List.cons.inj (List.append_cancel_right hchars)).2
  subst he
  rw [Regex.mem_one]
  cases htoList : text.toList with
  | nil => simp [crate, htoList]
  | cons c rest => cases rest <;> simp [crate, htoList, Regex.mem_nil, RegexChar.accepts]

end GlobSample

open GlobSample

/-- A mark matches a name of one character. -/
theorem isMatch_globRegex_iff_mark :
    crate.isMatch () "a" = true ↔
      GlobMatches (replaceChar '\\' '/' "?").toList "a".toList :=
  isMatch_globRegex_iff documented rfl (by decide)

end Fs

end VorCommander
