import VorCommander.Fs.Edit
import VorCommander.Text.Hunk

/-!
The summary of an edit as a unified diff.

The summary has the lines that have changed, up to three before and after them that are
the same, and their numbers. Lines are compared and shown without their ends, so what a
reader makes of the summary is the text after the edit if and only if every line that is
shown ends with a line feed alone, and the others are the same with their ends.
-/

namespace VorCommander

open Text

/-! ### Texts as lines with their ends -/

/-- A line with its line feed. -/
def Ended (line : List Char) : Prop := ∃ body, '\n' ∉ body ∧ line = body ++ ['\n']

/-- Lines with their line feeds; the last one may have none. -/
def IsLines : List (List Char) → Prop
  | [] => True
  | line :: rest => (Ended line ∨ rest = [] ∧ line ≠ [] ∧ '\n' ∉ line) ∧ IsLines rest

section Lines

variable {front back lines : List (List Char)} {line : List Char} {c : Char}

theorem IsLines.append (hfront : ∀ line ∈ front, Ended line) (h : IsLines back) :
    IsLines (front ++ back) := by
  induction front with
  | nil => exact h
  | cons line front ih =>
      obtain ⟨hline, hfront⟩ := List.forall_mem_cons.mp hfront
      exact ⟨.inl hline, ih hfront⟩

theorem IsLines.of_append (h : IsLines (front ++ back)) : IsLines back := by
  induction front with
  | nil => exact h
  | cons line front ih => exact ih h.2

/-- Only the last line may have no line feed. -/
theorem IsLines.ended (h : IsLines (front ++ back)) (hback : back ≠ []) :
    ∀ line ∈ front, Ended line := by
  induction front with
  | nil => simp
  | cons line front ih =>
      refine List.forall_mem_cons.mpr ⟨?_, ih h.2⟩
      rcases h.1 with hline | ⟨hnil, _⟩
      · exact hline
      · exact absurd (List.append_eq_nil_iff.mp hnil).2 hback

theorem IsLines.consHead (hc : c ≠ '\n') (h : IsLines lines) : IsLines (consHead c lines) := by
  cases lines with
  | nil => exact ⟨.inr ⟨rfl, by simp, by simpa using hc.symm⟩, trivial⟩
  | cons line rest =>
      refine ⟨?_, h.2⟩
      rcases h.1 with ⟨body, hbody, rfl⟩ | ⟨hrest, _, hfeed⟩
      · exact .inl ⟨c :: body, by simpa using ⟨hc.symm, hbody⟩, rfl⟩
      · exact .inr ⟨hrest, by simp, by simpa using ⟨hc.symm, hfeed⟩⟩

theorem isLines_splitInclusive (cs : List Char) : IsLines (splitInclusive cs) := by
  induction cs with
  | nil => trivial
  | cons c cs ih =>
      rw [splitInclusive]
      split_ifs with hc
      · exact ⟨.inl ⟨[], by simp, by rw [hc]; rfl⟩, ih⟩
      · exact ih.consHead hc

theorem splitInclusive_line_append (hline : '\n' ∉ line) (rest : List Char) :
    splitInclusive (line ++ '\n' :: rest) = (line ++ ['\n']) :: splitInclusive rest := by
  induction line with
  | nil => simp [splitInclusive]
  | cons c line ih =>
      obtain ⟨hc, hline⟩ : '\n' ≠ c ∧ '\n' ∉ line := by simpa using hline
      rw [List.cons_append, splitInclusive, if_neg hc.symm, ih hline]
      rfl

theorem splitInclusive_of_notMem (hne : line ≠ []) (hline : '\n' ∉ line) :
    splitInclusive line = [line] := by
  induction line with
  | nil => exact absurd rfl hne
  | cons c line ih =>
      obtain ⟨hc, hline⟩ : '\n' ≠ c ∧ '\n' ∉ line := by simpa using hline
      rw [splitInclusive, if_neg hc.symm]
      cases line with
      | nil => rfl
      | cons d line =>
          rw [ih (by simp) hline]
          rfl

/-- A text is its lines, and lines are those of their text. -/
theorem flatten_splitInclusive (cs : List Char) : (splitInclusive cs).flatten = cs := by
  induction cs with
  | nil => rfl
  | cons c cs ih =>
      rw [splitInclusive]
      split_ifs with hc
      · rw [List.flatten_cons, ih]
        rfl
      · cases hlines : splitInclusive cs with
        | nil => rw [← ih, hlines]; rfl
        | cons line rest => rw [← ih, hlines]; rfl

theorem IsLines.split (h : IsLines lines) : splitInclusive lines.flatten = lines := by
  induction lines with
  | nil => rfl
  | cons line rest ih =>
      rw [List.flatten_cons]
      rcases h.1 with ⟨body, hbody, rfl⟩ | ⟨rfl, hne, hfeed⟩
      · rw [List.append_assoc, List.singleton_append, splitInclusive_line_append hbody, ih h.2]
      · rw [List.flatten_nil, List.append_nil, splitInclusive_of_notMem hne hfeed]

theorem IsLines.flatten_eq_iff (h : IsLines lines) (text : List Char) :
    lines.flatten = text ↔ lines = splitInclusive text := by
  constructor
  · rintro rfl
    exact h.split.symm
  · rintro rfl
    exact flatten_splitInclusive text

end Lines

/-- A line without its end. -/
def lineText (line : List Char) : String := stripLineEnd (String.ofList line)

theorem textLines_eq (text : String) :
    textLines text = (splitInclusive text.toList).map lineText := rfl

theorem length_textLines (text : String) :
    (textLines text).length = (splitInclusive text.toList).length := List.length_map _

theorem textLines_eq_nil_iff {text : String} : textLines text = [] ↔ text = "" := by
  rw [textLines_eq, List.map_eq_nil_iff]
  constructor
  · intro hnil
    have hflatten := flatten_splitInclusive text.toList
    rw [hnil] at hflatten
    exact String.toList_eq_nil_iff.mp hflatten.symm
  · rintro rfl
    rfl

/-- What is shown of a line has no line feed. -/
theorem lineFeed_notMem_lineText {text : List Char} {line : List Char}
    (hline : line ∈ splitInclusive text) : '\n' ∉ (lineText line).toList := by
  obtain ⟨front, back, hsplit⟩ := List.append_of_mem hline
  have hlines : IsLines (line :: back) := by
    have hall := isLines_splitInclusive text
    rw [hsplit] at hall
    exact hall.of_append
  simp only [lineText, stripLineEnd, String.toList_ofList]
  rcases hlines.1 with ⟨body, hbody, rfl⟩ | ⟨_, _, hfeed⟩
  · have hdrop : '\n' ∉ body.dropLast := fun h => hbody (List.mem_of_mem_dropLast h)
    rw [List.getLast?_concat, if_pos rfl, List.dropLast_concat]
    split_ifs
    · rwa [String.toList_ofList]
    · rwa [String.toList_ofList]
  · have hlast : ¬ line.getLast? = some '\n' := fun h => hfeed (List.mem_of_getLast? h)
    rw [if_neg hlast, String.toList_ofList]
    exact hfeed

/-- A line that ends with a line feed alone. -/
def PlainEnd (line : List Char) : Prop := fed (lineText line) = line

instance (line : List Char) : Decidable (PlainEnd line) :=
  inferInstanceAs (Decidable (fed (lineText line) = line))

/-! ### What two lists have in common -/

section Common

variable {α : Type} [DecidableEq α] (as bs : List α)

theorem commonPrefix_le_left : commonPrefix as bs ≤ as.length := by
  induction as generalizing bs with
  | nil => simp [commonPrefix]
  | cons a as ih =>
      cases bs with
      | nil => simp [commonPrefix]
      | cons b bs =>
          rw [commonPrefix, List.length_cons]
          split_ifs
          · exact Nat.succ_le_succ (ih bs)
          · exact Nat.zero_le _

theorem commonPrefix_comm : commonPrefix as bs = commonPrefix bs as := by
  induction as generalizing bs with
  | nil => cases bs <;> rfl
  | cons a as ih =>
      cases bs with
      | nil => rfl
      | cons b bs => simp only [commonPrefix, ih bs, eq_comm]

theorem commonPrefix_le_right : commonPrefix as bs ≤ bs.length := by
  rw [commonPrefix_comm]
  exact commonPrefix_le_left bs as

theorem take_commonPrefix : as.take (commonPrefix as bs) = bs.take (commonPrefix as bs) := by
  induction as generalizing bs with
  | nil => simp [commonPrefix]
  | cons a as ih =>
      cases bs with
      | nil => simp [commonPrefix]
      | cons b bs =>
          rw [commonPrefix]
          split_ifs with hab
          · rw [List.take_succ_cons, List.take_succ_cons, ih bs, hab]
          · rfl

/-- How many lines two lists of lines end with together, after those that they begin
with together. -/
def commonSuffix : ℕ :=
  commonPrefix (as.drop (commonPrefix as bs)).reverse (bs.drop (commonPrefix as bs)).reverse

theorem commonSuffix_le_left : commonPrefix as bs + commonSuffix as bs ≤ as.length := by
  have hprefix := commonPrefix_le_left as bs
  have hsuffix := commonPrefix_le_left (as.drop (commonPrefix as bs)).reverse
    (bs.drop (commonPrefix as bs)).reverse
  rw [List.length_reverse, List.length_drop] at hsuffix
  rw [commonSuffix]
  omega

theorem commonSuffix_le_right : commonPrefix as bs + commonSuffix as bs ≤ bs.length := by
  have hprefix := commonPrefix_le_right as bs
  have hsuffix := commonPrefix_le_right (as.drop (commonPrefix as bs)).reverse
    (bs.drop (commonPrefix as bs)).reverse
  rw [List.length_reverse, List.length_drop] at hsuffix
  rw [commonSuffix]
  omega

theorem drop_commonSuffix : as.drop (as.length - commonSuffix as bs) =
    bs.drop (bs.length - commonSuffix as bs) := by
  have hleft := commonSuffix_le_left as bs
  have hright := commonSuffix_le_right as bs
  have htake := take_commonPrefix (as.drop (commonPrefix as bs)).reverse
    (bs.drop (commonPrefix as bs)).reverse
  change List.take (commonSuffix as bs) _ = List.take (commonSuffix as bs) _ at htake
  rw [List.take_reverse, List.take_reverse, List.reverse_inj, List.length_drop, List.length_drop,
    List.drop_drop, List.drop_drop] at htake
  have hstart : commonPrefix as bs + (as.length - commonPrefix as bs - commonSuffix as bs) =
      as.length - commonSuffix as bs := by omega
  have hstart' : commonPrefix as bs + (bs.length - commonPrefix as bs - commonSuffix as bs) =
      bs.length - commonSuffix as bs := by omega
  rwa [hstart, hstart'] at htake

end Common

/-- The part of a list between two places. -/
def slice {α : Type} (i j : ℕ) (list : List α) : List α := (list.take j).drop i

section Slice

variable {α β : Type} {i j k : ℕ} {list : List α}

theorem length_slice (hj : j ≤ list.length) : (slice i j list).length = j - i := by
  rw [slice, List.length_drop, List.length_take, Nat.min_eq_left hj]

theorem slice_eq_take : slice i j list = (list.drop i).take (j - i) := List.drop_take

theorem map_slice (f : α → β) : (slice i j list).map f = slice i j (list.map f) := by
  rw [slice, List.map_drop, List.map_take, slice]

theorem slice_append_slice (hij : i ≤ j) (hjk : j ≤ k) :
    slice i j list ++ slice j k list = slice i k list := by
  have hrest : list.drop j = (list.drop i).drop (j - i) := by
    rw [List.drop_drop, Nat.add_sub_cancel' hij]
  have hlength : k - i = (j - i) + (k - j) := by omega
  rw [slice_eq_take, slice_eq_take, slice_eq_take, hrest, hlength, List.take_add]

/-- A list in three parts. -/
theorem take_append_slice (hij : i ≤ j) (list : List α) :
    list.take i ++ slice i j list ++ list.drop j = list := by
  have htake : list.take i ++ slice i j list = list.take j := by
    have hmin : (list.take j).take i = list.take i := by
      rw [List.take_take, Nat.min_eq_left hij]
    rw [slice, ← hmin, List.take_append_drop]
  rw [htake, List.take_append_drop]

end Slice

/-! ### The summary as a hunk -/

section Summary

variable (before after : String)

/-- How many lines before those that have changed are not shown. -/
def hiddenFront : ℕ := commonPrefix (textLines before) (textLines after) - 3

/-- How many lines after those that have changed are not shown. -/
def hiddenBack : ℕ := commonSuffix (textLines before) (textLines after) - 3

/-- The lines of the summary with their marks. -/
def summaryLines : List (Mark × String) :=
  let same := commonPrefix (textLines before) (textLines after)
  let beforeStop := (textLines before).length - commonSuffix (textLines before) (textLines after)
  let afterStop := (textLines after).length - commonSuffix (textLines before) (textLines after)
  (slice (hiddenFront before after) same (textLines before)).map (Prod.mk .context) ++
    (slice same beforeStop (textLines before)).map (Prod.mk .removed) ++
    (slice same afterStop (textLines after)).map (Prod.mk .added) ++
    (slice afterStop ((textLines after).length - hiddenBack before after)
      (textLines after)).map (Prod.mk .context)

theorem markedLines_eq (mark : Mark) (lines : List String) : markedLines mark.text lines =
    String.join ((lines.map (Prod.mk mark)).map fun entry => entry.1.text ++ entry.2 ++ "\n") := by
  rw [markedLines, List.map_map]
  rfl

theorem unifiedDiff_eq : unifiedDiff before after =
    diffText "current" "proposed" (hiddenFront before after + 1)
      ((textLines before).length - hiddenBack before after - hiddenFront before after)
      (hiddenFront before after + 1)
      ((textLines after).length - hiddenBack before after - hiddenFront before after)
      (summaryLines before after) := by
  have hbefore := commonSuffix_le_left (textLines before) (textLines after)
  have hafter := commonSuffix_le_right (textLines before) (textLines after)
  have hbeforeEnd : min ((textLines before).length -
      commonSuffix (textLines before) (textLines after) + 3) (textLines before).length =
      (textLines before).length - hiddenBack before after := by
    rw [hiddenBack]
    omega
  have hafterEnd : min ((textLines after).length -
      commonSuffix (textLines before) (textLines after) + 3) (textLines after).length =
      (textLines after).length - hiddenBack before after := by
    rw [hiddenBack]
    omega
  -- the text of the code, with the names of the parts
  have hdiff : unifiedDiff before after =
      "--- " ++ "current" ++ "\n+++ " ++ "proposed" ++ "\n@@ -" ++
        toString (hiddenFront before after + 1) ++ "," ++
        toString (min ((textLines before).length -
          commonSuffix (textLines before) (textLines after) + 3) (textLines before).length -
            hiddenFront before after) ++ " +" ++
        toString (hiddenFront before after + 1) ++ "," ++
        toString (min ((textLines after).length -
          commonSuffix (textLines before) (textLines after) + 3) (textLines after).length -
            hiddenFront before after) ++ " @@\n" ++
        markedLines Mark.context.text (slice (hiddenFront before after)
          (commonPrefix (textLines before) (textLines after)) (textLines before)) ++
        markedLines Mark.removed.text (slice (commonPrefix (textLines before) (textLines after))
          ((textLines before).length - commonSuffix (textLines before) (textLines after))
          (textLines before)) ++
        markedLines Mark.added.text (slice (commonPrefix (textLines before) (textLines after))
          ((textLines after).length - commonSuffix (textLines before) (textLines after))
          (textLines after)) ++
        markedLines Mark.context.text (slice
          ((textLines after).length - commonSuffix (textLines before) (textLines after))
          (min ((textLines after).length -
            commonSuffix (textLines before) (textLines after) + 3) (textLines after).length)
          (textLines after)) := rfl
  apply String.toList_injective
  unfold diffText
  simp only [hdiff, hbeforeEnd, hafterEnd, summaryLines, markedLines_eq,
    String.toList_append, String.toList_join,
    List.map_append, List.flatMap_append, List.append_assoc]

/-! ### What the lines of the summary are -/

theorem linesWithout_append (mark : Mark) (lines lines' : List (Mark × String)) :
    linesWithout mark (lines ++ lines') = linesWithout mark lines ++ linesWithout mark lines' := by
  rw [linesWithout, List.filter_append, List.map_append, linesWithout, linesWithout]

theorem linesWithout_map (mark mark' : Mark) (lines : List String) :
    linesWithout mark (lines.map (Prod.mk mark')) = if mark' = mark then [] else lines := by
  induction lines with
  | nil => simp [linesWithout]
  | cons line lines ih =>
      split_ifs at ih ⊢ with hmark
      · simp [linesWithout, hmark]
      · simpa [linesWithout, hmark] using ih

theorem hidden_le_before : hiddenFront before after ≤ (textLines before).length -
    hiddenBack before after := by
  have hcommon := commonSuffix_le_left (textLines before) (textLines after)
  rw [hiddenFront, hiddenBack]
  omega

theorem hidden_le_after : hiddenFront before after ≤ (textLines after).length -
    hiddenBack before after := by
  have hcommon := commonSuffix_le_right (textLines before) (textLines after)
  rw [hiddenFront, hiddenBack]
  omega

/-- The lines that stay or go are the lines shown of the text before. -/
theorem linesWithout_added : linesWithout .added (summaryLines before after) =
    slice (hiddenFront before after) ((textLines before).length - hiddenBack before after)
      (textLines before) := by
  have hbefore := commonSuffix_le_left (textLines before) (textLines after)
  have hafter := commonSuffix_le_right (textLines before) (textLines after)
  -- the lines after the changed ones are the same in both texts
  have htail : slice ((textLines after).length - commonSuffix (textLines before) (textLines after))
        ((textLines after).length - hiddenBack before after) (textLines after) =
      slice ((textLines before).length - commonSuffix (textLines before) (textLines after))
        ((textLines before).length - hiddenBack before after) (textLines before) := by
    rw [slice_eq_take, slice_eq_take, drop_commonSuffix, hiddenBack]
    congr 1
    omega
  simp only [summaryLines, linesWithout_append, linesWithout_map, htail]
  simp only [reduceCtorEq, if_true, if_false, List.append_nil]
  rw [slice_append_slice (by rw [hiddenFront]; omega) (by omega),
    slice_append_slice (by rw [hiddenFront]; omega) (by rw [hiddenBack]; omega)]

/-- The lines that stay or come are the lines shown of the text after. -/
theorem linesWithout_removed : linesWithout .removed (summaryLines before after) =
    slice (hiddenFront before after) ((textLines after).length - hiddenBack before after)
      (textLines after) := by
  have hafter := commonSuffix_le_right (textLines before) (textLines after)
  have hhead : slice (hiddenFront before after) (commonPrefix (textLines before) (textLines after))
        (textLines before) =
      slice (hiddenFront before after) (commonPrefix (textLines before) (textLines after))
        (textLines after) := by
    rw [slice, slice, take_commonPrefix]
  simp only [summaryLines, linesWithout_append, linesWithout_map, hhead]
  simp only [reduceCtorEq, if_true, if_false, List.append_nil]
  rw [slice_append_slice (by rw [hiddenFront]; omega) (by omega),
    slice_append_slice (by rw [hiddenFront]; omega) (by rw [hiddenBack]; omega)]

theorem mem_slice {α : Type} {i j : ℕ} {list : List α} {a : α} (h : a ∈ slice i j list) :
    a ∈ list := List.mem_of_mem_take (List.mem_of_mem_drop h)

theorem lineFeed_notMem_summaryLines :
    ∀ entry ∈ summaryLines before after, '\n' ∉ entry.2.toList := by
  have htext : ∀ {text line : String}, line ∈ textLines text → '\n' ∉ line.toList := by
    intro text line hline
    rw [textLines_eq] at hline
    obtain ⟨raw, hraw, rfl⟩ := List.mem_map.mp hline
    exact lineFeed_notMem_lineText hraw
  intro entry hentry
  simp only [summaryLines, List.mem_append, List.mem_map, or_assoc] at hentry
  rcases hentry with ⟨line, hline, rfl⟩ | ⟨line, hline, rfl⟩ |
    ⟨line, hline, rfl⟩ | ⟨line, hline, rfl⟩
  · exact htext (mem_slice hline)
  · exact htext (mem_slice hline)
  · exact htext (mem_slice hline)
  · exact htext (mem_slice hline)

/-- The summary as a hunk. -/
def summaryHunk : Hunk where
  offset := hiddenFront before after
  lines := summaryLines before after
  lineFeed_notMem := lineFeed_notMem_summaryLines before after

end Summary

/-! ### What a reader makes of the summary -/

/-- The summary is the text of a hunk that makes the text after of the text before, and
shows a line that has changed where the texts differ. -/
def DiffFaithful (before after : String) : Prop :=
  ∃ hunk : Hunk, (unifiedDiffSummary before after).1 = hunk.render "current" "proposed" ∧
    (hunk.apply (splitInclusive before.toList)).map List.flatten = some after.toList ∧
    (before ≠ after → ∃ entry ∈ hunk.lines, entry.1 ≠ .context)

/-- Neither text is empty, the lines that are shown end with a line feed alone, and the
others are the same in both texts, with their ends. -/
structure DiffExact (before after : String) : Prop where
  before_ne : before ≠ ""
  after_ne : after ≠ ""
  shown_before : ∀ line ∈ slice (hiddenFront before after)
    ((textLines before).length - hiddenBack before after) (splitInclusive before.toList),
    PlainEnd line
  shown_after : ∀ line ∈ slice (hiddenFront before after)
    ((textLines after).length - hiddenBack before after) (splitInclusive after.toList),
    PlainEnd line
  front : (splitInclusive before.toList).take (hiddenFront before after) =
    (splitInclusive after.toList).take (hiddenFront before after)
  back : (splitInclusive before.toList).drop
      ((textLines before).length - hiddenBack before after) =
    (splitInclusive after.toList).drop ((textLines after).length - hiddenBack before after)

section Faithful

variable {before after : String}

theorem map_fed_lineText_iff {lines : List (List Char)} :
    (lines.map lineText).map fed = lines ↔ ∀ line ∈ lines, PlainEnd line := by
  rw [List.map_map]
  conv_lhs => rhs; rw [← List.map_id lines]
  exact List.map_inj_left

/-- The lines after a hunk are lines of a text, where the hunk is not after the last line. -/
theorem Hunk.isLines_apply {hunk : Hunk} {lines lines' : List (List Char)}
    (hoffset : hunk.offset = 0 ∨ hunk.offset < lines.length) (hlines : IsLines lines)
    (h : hunk.apply lines = some lines') : IsLines lines' := by
  obtain ⟨back, _, hsplit, rfl⟩ := Hunk.apply_eq_some.mp h
  rw [hsplit] at hlines
  rw [List.append_assoc]
  refine IsLines.append ?_ (IsLines.append ?_ hlines.of_append)
  · -- the lines before the hunk are not the last ones
    rcases hoffset with hzero | hlt
    · simp [hzero]
    · rw [List.append_assoc] at hlines
      refine hlines.ended fun hnil => ?_
      rw [List.append_assoc, hnil, List.append_nil] at hsplit
      have hlength := congrArg List.length hsplit
      rw [List.length_take] at hlength
      omega
  · intro line hline
    obtain ⟨text, htext, rfl⟩ := List.mem_map.mp hline
    obtain ⟨entry, hentry, rfl⟩ := List.mem_map.mp htext
    exact ⟨_, hunk.lineFeed_notMem entry (List.mem_of_mem_filter hentry), rfl⟩

/-- A hunk that has its lines from two texts makes the one of the other where it has them
with their ends, and where the other lines are the same. -/
theorem Hunk.apply_slices {hunk : Hunk} {lines lines' : List (List Char)} {i j k : ℕ} (hij : i ≤ j)
    (hj : j ≤ lines.length) (hik : i ≤ k) (hk : k ≤ lines'.length) (hoffset : hunk.offset = i)
    (hold : hunk.oldLines = slice i j (lines.map lineText))
    (hnew : hunk.newLines = slice i k (lines'.map lineText)) :
    hunk.apply lines = some lines' ↔
      (∀ line ∈ slice i j lines, PlainEnd line) ∧ (∀ line ∈ slice i k lines', PlainEnd line) ∧
      lines.take i = lines'.take i ∧ lines.drop j = lines'.drop k := by
  have hparts := take_append_slice hij lines
  have hparts' := take_append_slice hik lines'
  rw [Hunk.apply_eq_some, hold, hnew, hoffset, ← map_slice, ← map_slice]
  constructor
  · rintro ⟨back, _, hlines, hlines'⟩
    have hrest : ((slice i j lines).map lineText).map fed ++ back =
        slice i j lines ++ lines.drop j := by
      refine (List.append_right_inj (lines.take i)).mp ?_
      rw [← List.append_assoc, ← List.append_assoc, hparts]
      exact hlines.symm
    obtain ⟨hplain, rfl⟩ := List.append_inj hrest (by simp)
    have hall : lines.take i ++ ((slice i k lines').map lineText).map fed ++ lines.drop j =
        lines'.take i ++ slice i k lines' ++ lines'.drop k := by rw [hparts', ← hlines']
    have hlength : (lines.take i).length = (lines'.take i).length := by
      rw [List.length_take, List.length_take]
      omega
    obtain ⟨hhead, hback⟩ := List.append_inj hall (by simp [hlength])
    obtain ⟨hfront, hplain'⟩ := List.append_inj hhead hlength
    exact ⟨map_fed_lineText_iff.mp hplain, map_fed_lineText_iff.mp hplain', hfront, hback⟩
  · rintro ⟨hplain, hplain', hfront, hback⟩
    refine ⟨lines.drop j, by omega, ?_, ?_⟩
    · rw [map_fed_lineText_iff.mpr hplain, hparts]
    · rw [map_fed_lineText_iff.mpr hplain', hfront, hback, hparts']

/-- The hunk of the summary makes the text after if it makes its lines. -/
theorem flatten_apply_iff (before after : String) :
    ((summaryHunk before after).apply (splitInclusive before.toList)).map List.flatten =
        some after.toList ↔
      (summaryHunk before after).apply (splitInclusive before.toList) =
        some (splitInclusive after.toList) := by
  have hoffset : (summaryHunk before after).offset = 0 ∨
      (summaryHunk before after).offset < (splitInclusive before.toList).length := by
    have hcommon := commonPrefix_le_left (textLines before) (textLines after)
    change hiddenFront before after = 0 ∨ hiddenFront before after < _
    rw [← length_textLines, hiddenFront]
    omega
  rw [Option.map_eq_some_iff]
  constructor
  · rintro ⟨lines, happly, hflatten⟩
    have hlines := Hunk.isLines_apply hoffset (isLines_splitInclusive _) happly
    rw [happly, (hlines.flatten_eq_iff _).mp hflatten]
  · intro happly
    exact ⟨_, happly, flatten_splitInclusive _⟩

theorem summaryHunk_applies_iff (before after : String) :
    (summaryHunk before after).apply (splitInclusive before.toList) =
        some (splitInclusive after.toList) ↔
      (∀ line ∈ slice (hiddenFront before after)
        ((textLines before).length - hiddenBack before after) (splitInclusive before.toList),
        PlainEnd line) ∧
      (∀ line ∈ slice (hiddenFront before after)
        ((textLines after).length - hiddenBack before after) (splitInclusive after.toList),
        PlainEnd line) ∧
      (splitInclusive before.toList).take (hiddenFront before after) =
        (splitInclusive after.toList).take (hiddenFront before after) ∧
      (splitInclusive before.toList).drop
          ((textLines before).length - hiddenBack before after) =
        (splitInclusive after.toList).drop
          ((textLines after).length - hiddenBack before after) := by
  have hlength := length_textLines before
  have hlength' := length_textLines after
  exact Hunk.apply_slices (hidden_le_before before after) (by omega)
    (hidden_le_after before after) (by omega) rfl (linesWithout_added before after)
    (linesWithout_removed before after)

theorem unifiedDiff_eq_render (hbefore : before ≠ "") (hafter : after ≠ "") :
    unifiedDiff before after = (summaryHunk before after).render "current" "proposed" := by
  have hlines := commonSuffix_le_left (textLines before) (textLines after)
  have hlines' := commonSuffix_le_right (textLines before) (textLines after)
  have hpos := List.length_pos_iff.mpr (mt textLines_eq_nil_iff.mp hbefore)
  have hpos' := List.length_pos_iff.mpr (mt textLines_eq_nil_iff.mp hafter)
  have hold : (summaryHunk before after).oldLines = _ := linesWithout_added before after
  have hnew : (summaryHunk before after).newLines = _ := linesWithout_removed before after
  rw [Hunk.render, hold, hnew, length_slice (Nat.sub_le _ _), length_slice (Nat.sub_le _ _),
    rangeStart, rangeStart, if_neg, if_neg]
  · exact unifiedDiff_eq before after
  · rw [hiddenFront, hiddenBack]
    omega
  · rw [hiddenFront, hiddenBack]
    omega

/-- Only the hunk of the summary has its text and finds its lines in the text before. -/
theorem eq_summaryHunk {hunk : Hunk} {lines : List (List Char)}
    (hrender : unifiedDiff before after = hunk.render "current" "proposed")
    (happly : hunk.apply (splitInclusive before.toList) = some lines) :
    before ≠ "" ∧ after ≠ "" ∧ hunk = summaryHunk before after := by
  have hlines := commonSuffix_le_left (textLines before) (textLines after)
  have hlines' := commonSuffix_le_right (textLines before) (textLines after)
  have hlength := length_textLines before
  obtain ⟨_, hoffset, _⟩ := Hunk.apply_eq_some.mp happly
  rw [unifiedDiff_eq, Hunk.render] at hrender
  obtain ⟨⟨hstart, hcount, hstart', hcount'⟩, hmarked⟩ :=
    diffText_inj (lineFeed_notMem_summaryLines before after) hunk.lineFeed_notMem hrender
  rw [rangeStart, ← hcount] at hstart
  rw [rangeStart, ← hcount'] at hstart'
  rw [hiddenFront, hiddenBack] at hstart hstart'
  -- the range of an empty text has the number of a line that it does not have
  have hbefore : before ≠ "" := by
    intro hempty
    have hzero := List.length_eq_zero_iff.mpr (textLines_eq_nil_iff.mpr hempty)
    rw [if_pos (by omega)] at hstart
    omega
  have hpos := List.length_pos_iff.mpr (mt textLines_eq_nil_iff.mp hbefore)
  rw [if_neg (by omega)] at hstart
  have hafter : after ≠ "" := by
    intro hempty
    have hzero := List.length_eq_zero_iff.mpr (textLines_eq_nil_iff.mpr hempty)
    rw [if_pos (by omega)] at hstart'
    omega
  exact ⟨hbefore, hafter, Hunk.ext (Nat.succ_injective hstart).symm hmarked.symm⟩

theorem unifiedDiffSummary_eq (hshown : (unifiedDiffSummary before after).2 = false) :
    (unifiedDiffSummary before after).1 = unifiedDiff before after := by
  simp only [unifiedDiffSummary] at hshown ⊢
  split_ifs at hshown ⊢
  rfl

theorem DiffFaithful.exact (hshown : (unifiedDiffSummary before after).2 = false)
    (h : DiffFaithful before after) : DiffExact before after := by
  obtain ⟨hunk, hrender, happly, _⟩ := h
  rw [unifiedDiffSummary_eq hshown] at hrender
  obtain ⟨lines, hlines, _⟩ := Option.map_eq_some_iff.mp happly
  obtain ⟨hbefore, hafter, rfl⟩ := eq_summaryHunk hrender hlines
  rw [flatten_apply_iff, summaryHunk_applies_iff] at happly
  obtain ⟨hplain, hplain', hfront, hback⟩ := happly
  exact ⟨hbefore, hafter, hplain, hplain', hfront, hback⟩

theorem DiffExact.faithful (hshown : (unifiedDiffSummary before after).2 = false)
    (h : DiffExact before after) : DiffFaithful before after := by
  have happly := (summaryHunk_applies_iff before after).mpr
    ⟨h.shown_before, h.shown_after, h.front, h.back⟩
  refine ⟨summaryHunk before after, ?_, (flatten_apply_iff before after).mpr happly, fun hne => ?_⟩
  · rw [unifiedDiffSummary_eq hshown, unifiedDiff_eq_render h.before_ne h.after_ne]
  · refine Hunk.exists_changed happly fun hsame => hne ?_
    have hflatten := congrArg List.flatten hsame
    rw [flatten_splitInclusive, flatten_splitInclusive] at hflatten
    exact String.toList_injective hflatten

/-- A summary that is not cut is faithful if and only if the texts are such that the lines
tell their ends. -/
theorem diffFaithful_iff (hshown : (unifiedDiffSummary before after).2 = false) :
    DiffFaithful before after ↔ DiffExact before after :=
  ⟨DiffFaithful.exact hshown, DiffExact.faithful hshown⟩

end Faithful

/-- A line of a file in place of another. -/
theorem diffFaithful_iff_line : DiffFaithful "a\n" "b\n" := by
  refine (diffFaithful_iff (by decide)).mpr ⟨by decide, by decide, ?_, ?_, ?_, ?_⟩
  · decide
  · decide
  · decide
  · decide

/-- The line feed at the end of a file comes, and the summary shows no line that changes. -/
theorem summary_final_newline :
    unifiedDiffSummary "a" "a\n" = ("--- current\n+++ proposed\n@@ -1,1 +1,1 @@\n a\n", false) ∧
    ¬ DiffFaithful "a" "a\n" := by
  have hsummary : unifiedDiffSummary "a" "a\n" =
      ("--- current\n+++ proposed\n@@ -1,1 +1,1 @@\n a\n", false) := by decide
  refine ⟨hsummary, fun h => ?_⟩
  have hexact := h.exact (by rw [hsummary])
  have hplain := hexact.shown_before ['a'] (by decide)
  revert hplain
  decide

end VorCommander
