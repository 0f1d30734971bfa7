import VorCommander.Text.Delimited
import VorCommander.Text.Fields

/-!
Unified diffs of one hunk.

A hunk says how many lines lie before it, and has lines with a mark each: those that
stay, those that go and those that come. Where it is written, the two ranges have the
number of their first line and of their lines; a range without lines has the number of
the line before it. A line is written without its line feed, and has one. So the text of
a hunk stands for one hunk, and a hunk turns lines into lines.
-/

namespace VorCommander.Text

inductive Mark
  | context
  | removed
  | added
  deriving DecidableEq

def Mark.text : Mark → String
  | .context => " "
  | .removed => "-"
  | .added => "+"

@[ext] structure Hunk where
  offset : ℕ
  lines : List (Mark × String)
  lineFeed_notMem : ∀ entry ∈ lines, '\n' ∉ entry.2.toList

/-- The lines that do not have a mark. -/
def linesWithout (mark : Mark) (lines : List (Mark × String)) : List String :=
  (lines.filter (·.1 ≠ mark)).map Prod.snd

/-- A line as it is in a file. -/
def fed (line : String) : List Char := line.toList ++ ['\n']

/-- The number that is written for the first line of a range. -/
def rangeStart (offset count : ℕ) : ℕ := if count = 0 then offset else offset + 1

/-- The text of a diff of one hunk, from the names of the files on. -/
def diffText (oldName newName : String) (oldStart oldCount newStart newCount : ℕ)
    (lines : List (Mark × String)) : String :=
  "--- " ++ oldName ++ "\n+++ " ++ newName ++ "\n@@ -" ++ toString oldStart ++ "," ++
    toString oldCount ++ " +" ++ toString newStart ++ "," ++ toString newCount ++ " @@\n" ++
    String.join (lines.map fun entry => entry.1.text ++ entry.2 ++ "\n")

namespace Hunk

variable (hunk : Hunk)

def oldLines : List String := linesWithout .added hunk.lines

def newLines : List String := linesWithout .removed hunk.lines

def render (oldName newName : String) : String :=
  diffText oldName newName (rangeStart hunk.offset hunk.oldLines.length) hunk.oldLines.length
    (rangeStart hunk.offset hunk.newLines.length) hunk.newLines.length hunk.lines

/-- Lines after the hunk, if the lines it is about are where it says. -/
def apply (lines : List (List Char)) : Option (List (List Char)) :=
  if hunk.offset ≤ lines.length ∧ hunk.oldLines.map fed <+: lines.drop hunk.offset then
    some (lines.take hunk.offset ++ hunk.newLines.map fed ++
      lines.drop (hunk.offset + hunk.oldLines.length))
  else none

end Hunk

/-! ### What a hunk does -/

namespace Hunk

variable {hunk : Hunk} {lines lines' : List (List Char)}

theorem apply_eq_some : hunk.apply lines = some lines' ↔
    ∃ back, hunk.offset ≤ lines.length ∧
      lines = lines.take hunk.offset ++ hunk.oldLines.map fed ++ back ∧
      lines' = lines.take hunk.offset ++ hunk.newLines.map fed ++ back := by
  have hsplit : ∀ back, hunk.oldLines.map fed ++ back = lines.drop hunk.offset ↔
      lines = lines.take hunk.offset ++ hunk.oldLines.map fed ++ back := by
    intro back
    conv_rhs => lhs; rw [← List.take_append_drop hunk.offset lines]
    rw [List.append_assoc, List.append_cancel_left_eq, eq_comm]
  rw [Hunk.apply]
  constructor
  · intro h
    split_ifs at h with hcond
    obtain ⟨hoffset, back, hback⟩ := hcond
    have hrest : lines.drop (hunk.offset + hunk.oldLines.length) = back := by
      rw [← List.drop_drop, ← hback, List.drop_left' (List.length_map _)]
    rw [hrest] at h
    exact ⟨back, hoffset, (hsplit back).mp hback, (Option.some.inj h).symm⟩
  · rintro ⟨back, hoffset, hback, rfl⟩
    have hprefix := (hsplit back).mpr hback
    rw [if_pos ⟨hoffset, back, hprefix⟩, ← List.drop_drop, ← hprefix,
      List.drop_left' (List.length_map _)]

theorem linesWithout_of_context {mark : Mark} {lines : List (Mark × String)}
    (hmark : .context ≠ mark) (h : ∀ entry ∈ lines, entry.1 = .context) :
    linesWithout mark lines = lines.map Prod.snd := by
  have hall : ∀ entry ∈ lines, decide (entry.1 ≠ mark) = true := by
    intro entry hentry
    rw [h entry hentry]
    exact decide_eq_true hmark
  rw [linesWithout, List.filter_eq_self.mpr hall]

/-- A hunk whose lines all stay changes nothing. -/
theorem exists_changed (h : hunk.apply lines = some lines') (hne : lines ≠ lines') :
    ∃ entry ∈ hunk.lines, entry.1 ≠ .context := by
  by_contra hnone
  push Not at hnone
  obtain ⟨back, _, hlines, hlines'⟩ := apply_eq_some.mp h
  have hsame : hunk.oldLines = hunk.newLines := by
    rw [oldLines, newLines, linesWithout_of_context (by decide) hnone,
      linesWithout_of_context (by decide) hnone]
  rw [hsame, ← hlines'] at hlines
  exact hne hlines

end Hunk

/-! ### The text of a hunk -/

theorem Mark.toList_text_inj {mark mark' : Mark} {rest rest' : List Char}
    (h : mark.text.toList ++ rest = mark'.text.toList ++ rest') : mark = mark' ∧ rest = rest' := by
  cases mark <;> cases mark' <;> simp [Mark.text] at h ⊢ <;> exact h

/-- Marked lines without line feeds are told from their text. -/
theorem join_lines_inj {lines lines' : List (Mark × String)}
    (hlines : ∀ entry ∈ lines, '\n' ∉ entry.2.toList)
    (hlines' : ∀ entry ∈ lines', '\n' ∉ entry.2.toList)
    (h : (lines.flatMap fun entry => (entry.1.text ++ entry.2 ++ "\n").toList) =
      lines'.flatMap fun entry => (entry.1.text ++ entry.2 ++ "\n").toList) : lines = lines' := by
  have hne : ∀ entry : Mark × String, (entry.1.text ++ entry.2 ++ "\n").toList ≠ [] := by
    intro entry
    simp
  induction lines generalizing lines' with
  | nil =>
      cases lines' with
      | nil => rfl
      | cons entry lines' =>
          rw [List.flatMap_cons, List.flatMap_nil] at h
          exact absurd (List.append_eq_nil_iff.mp h.symm).1 (hne entry)
  | cons entry lines ih =>
      cases lines' with
      | nil =>
          rw [List.flatMap_cons, List.flatMap_nil] at h
          exact absurd (List.append_eq_nil_iff.mp h).1 (hne entry)
      | cons entry' lines' =>
          obtain ⟨hentry, hlines⟩ := List.forall_mem_cons.mp hlines
          obtain ⟨hentry', hlines'⟩ := List.forall_mem_cons.mp hlines'
          simp only [List.flatMap_cons, String.toList_append, List.append_assoc] at h
          obtain ⟨hmark, h⟩ := Mark.toList_text_inj h
          obtain ⟨hline, hrest⟩ := append_cons_inj hentry hentry' h
          rw [ih hlines hlines' (by simpa using hrest),
            Prod.ext hmark (String.toList_injective hline)]

theorem toList_diffText (oldName newName : String) (a b c d : ℕ) (lines : List (Mark × String)) :
    (diffText oldName newName a b c d lines).toList =
      ("--- " ++ oldName ++ "\n+++ " ++ newName ++ "\n@@ -").toList ++ (encodeNat a ++ ',' ::
        (encodeNat b ++ ' ' :: '+' :: (encodeNat c ++ ',' :: (encodeNat d ++ ' ' :: '@' :: '@' ::
          '\n' :: lines.flatMap fun entry => (entry.1.text ++ entry.2 ++ "\n").toList)))) := by
  have hlines : (String.join (lines.map fun entry => entry.1.text ++ entry.2 ++ "\n")).toList =
      lines.flatMap fun entry => (entry.1.text ++ entry.2 ++ "\n").toList := by
    rw [String.toList_join, List.flatMap_map]
  have hcomma : ",".toList = [','] := rfl
  have hplus : " +".toList = [' ', '+'] := rfl
  have hend : " @@\n".toList = [' ', '@', '@', '\n'] := rfl
  unfold diffText
  simp only [String.toList_append, toList_toString, hlines, hcomma, hplus, hend, List.append_assoc,
    List.cons_append, List.nil_append]

/-- The numbers and the lines of a diff are told from its text. -/
theorem diffText_inj {oldName newName : String} {a b c d a' b' c' d' : ℕ}
    {lines lines' : List (Mark × String)} (hlines : ∀ entry ∈ lines, '\n' ∉ entry.2.toList)
    (hlines' : ∀ entry ∈ lines', '\n' ∉ entry.2.toList)
    (h : diffText oldName newName a b c d lines = diffText oldName newName a' b' c' d' lines') :
    (a = a' ∧ b = b' ∧ c = c' ∧ d = d') ∧ lines = lines' := by
  have hchars := congrArg String.toList h
  rw [toList_diffText, toList_diffText, List.append_cancel_left_eq] at hchars
  obtain ⟨ha, hchars⟩ := encodeNat_append_inj (endsNumber_cons (by decide))
    (endsNumber_cons (by decide)) hchars
  obtain ⟨hb, hchars⟩ := encodeNat_append_inj (endsNumber_cons (by decide))
    (endsNumber_cons (by decide)) (List.cons.inj hchars).2
  obtain ⟨hc, hchars⟩ := encodeNat_append_inj (endsNumber_cons (by decide))
    (endsNumber_cons (by decide)) (List.cons.inj (List.cons.inj hchars).2).2
  obtain ⟨hd, hchars⟩ := encodeNat_append_inj (endsNumber_cons (by decide))
    (endsNumber_cons (by decide)) (List.cons.inj hchars).2
  simp only [List.cons.injEq, true_and] at hchars
  exact ⟨⟨ha, hb, hc, hd⟩, join_lines_inj hlines hlines' hchars⟩

end VorCommander.Text
