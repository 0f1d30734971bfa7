import VorCommander.Fs.Encoding
import VorCommander.Text.Replace
import VorCommander.Worker.Write

/-!
Editing a text file.

An edit gives the text it is about and how often it must occur. The edits are made
one after the other on the decoded text, with the line ends of the file in place of
their own; a wrong number of occurrences refuses them all. What is prepared is the
encoding of the last text, with a summary of what has changed.
-/

namespace VorCommander

open Crypto Steps Text WindowsPath

/-- `MAX_EDIT_FILE_BYTES`. -/
def maxEditFileBytes : ℕ := 1024 * 1024

/-- `MAX_EDITS`. -/
def maxEdits : ℕ := 20

/-- `MAX_DIFF_SUMMARY_BYTES`. -/
def maxDiffSummaryBytes : ℕ := 32 * 1024

/-! ### Lines -/

/-- `str::split_inclusive` at line feeds. -/
def splitInclusive : List Char → List (List Char)
  | [] => []
  | c :: rest => if c = '\n' then [c] :: splitInclusive rest else consHead c (splitInclusive rest)

/-- `str::lines`. -/
def textLines (text : String) : List String :=
  (splitInclusive text.toList).map fun line => stripLineEnd (String.ofList line)

/-- `detected_newline`. -/
def detectedNewline (text : String) : String := if containsString text "\r\n" then "\r\n" else "\n"

/-- `str::replace`. -/
def replaceText (pattern new text : String) : String :=
  String.ofList (replace pattern.toList new.toList text.toList)

/-- `normalize_newlines`. -/
def normalizeNewlines (value newline : String) : String :=
  replaceText "\n" newline (replaceText "\r" "\n" (replaceText "\r\n" "\n" value))

/-! ### The line that is closest -/

/-- The row of costs after a character of the left text: the cost above and to the
left, the cost to the left, and the costs above. -/
def costRow (a : Char) : ℕ → ℕ → List Char → List ℕ → List ℕ
  | previous, left, b :: right, old :: costs =>
      let cost := min (min (old + 1) (left + 1)) (previous + if a = b then 0 else 1)
      cost :: costRow a old cost right costs
  | _, _, _, _ => []

/-- The rows of costs after the others, from the first cost of the row before. -/
def costRows (right : List Char) : ℕ → List ℕ → List Char → List ℕ
  | _, costs, [] => costs
  | i, costs, a :: left =>
      costRows right (i + 1) ((i + 1) :: costRow a i (i + 1) right costs.tail) left

/-- `levenshtein`. -/
def levenshtein (left right : String) : ℕ :=
  ((costRows right.toList 0 (List.range (right.toList.length + 1)) left.toList).getLast?).getD
    (byteLength left)

/-- As many characters as have their bytes in a limit. -/
def takeBytes : ℕ → List Char → List Char
  | _, [] => []
  | max, c :: rest => if c.utf8Size ≤ max then c :: takeBytes (max - c.utf8Size) rest else []

/-- `truncate_utf8`. -/
def truncateUtf8 (value : String) (max : ℕ) : String × Bool :=
  if byteLength value ≤ max then (value, false)
  else (String.ofList (takeBytes max value.toList), true)

/-- The first of the closest lines: its distance, its number and its text. -/
def closest (wanted : String) : ℕ → List String → ℕ × ℕ × String → ℕ × ℕ × String
  | _, [], best => best
  | index, line :: lines, best =>
      let distance := levenshtein wanted line
      closest wanted (index + 1) lines
        (if distance < best.1 then (distance, index + 1, line) else best)

/-- `closest_line`. -/
def closestLine (text needle : String) : String :=
  let wanted := ((textLines needle).head?).getD needle
  let best := closest wanted 0 (textLines text) (2 ^ 64 - 1, 0, "")
  "line " ++ toString best.2.1 ++ ": " ++ (truncateUtf8 best.2.2 512).1

/-! ### What has changed -/

/-- How many elements two lists begin with together. -/
def commonPrefix {α : Type} [DecidableEq α] : List α → List α → ℕ
  | a :: as, b :: bs => if a = b then commonPrefix as bs + 1 else 0
  | _, _ => 0

/-- Lines, each after a mark. -/
def markedLines (mark : String) (lines : List String) : String :=
  String.join (lines.map fun line => mark ++ line ++ "\n")

/-- The summary before it is cut. -/
def unifiedDiff (before after : String) : String :=
  let beforeLines := textLines before
  let afterLines := textLines after
  let same := commonPrefix beforeLines afterLines
  let suffix := commonPrefix (beforeLines.drop same).reverse (afterLines.drop same).reverse
  let contextStart := same - 3
  let beforeEnd := min (beforeLines.length - suffix + 3) beforeLines.length
  let afterEnd := min (afterLines.length - suffix + 3) afterLines.length
  "--- current\n+++ proposed\n@@ -" ++ toString (contextStart + 1) ++ "," ++
    toString (beforeEnd - contextStart) ++ " +" ++ toString (contextStart + 1) ++ "," ++
    toString (afterEnd - contextStart) ++ " @@\n" ++
    markedLines " " ((beforeLines.take same).drop contextStart) ++
    markedLines "-" ((beforeLines.take (beforeLines.length - suffix)).drop same) ++
    markedLines "+" ((afterLines.take (afterLines.length - suffix)).drop same) ++
    markedLines " " ((afterLines.take afterEnd).drop (afterLines.length - suffix))

/-- `unified_diff_summary`. -/
def unifiedDiffSummary (before after : String) : String × Bool :=
  let diff := unifiedDiff before after
  if byteLength diff ≤ maxDiffSummaryBytes then (diff, false)
  else ((truncateUtf8 diff maxDiffSummaryBytes).1 ++ "\n... diff truncated ...\n", true)

/-! ### The edits -/

/-- The edits one after the other, from a text and the number of the first. -/
def applyEdits (newline : String) : ℕ → List TextEdit → String → Except FsError String
  | _, [], edited => return edited
  | index, edit :: edits, edited => do
      let oldText := normalizeNewlines edit.oldText newline
      let newText := normalizeNewlines edit.newText newline
      let actual := occurrences oldText.toList edited.toList
      failIf (actual ≠ edit.expectedOccurrences)
        (.occurrenceMismatch index edit.expectedOccurrences actual
          (if actual = 0 then some (closestLine edited oldText) else none))
      applyEdits newline (index + 1) edits (replaceText oldText newText edited)

/-- What the worker asks of the host before it reads a file, and the file. -/
structure ReadHost where
  rejectReparse : String → Except FsError Unit
  canonicalize : String → Except FsError String
  isFile : String → Bool
  multipleHardlinks : String → Except FsError Bool
  read : String → Except FsError (List UInt8)

/-- `resolve_existing`. -/
def resolveExisting (host : ReadHost) (allowedRoots : List String) (target : String) :
    Except FsError String := do
  ensureNoParentDir target
  host.rejectReparse target
  let resolved ← host.canonicalize target
  failIf (allowedRoots.any (pathWithin resolved) = false) .outsideAllowedRoots
  return resolved

/-- `resolve_exploration_target`, and `resolve_read_target`. -/
def resolveReadTarget (host : ReadHost) (allowedRoots : List String) (target : String) :
    Except FsError String := do
  let resolved ← resolveExisting host allowedRoots target
  failIf (sensitivePath resolved = true) .sensitivePath
  if host.isFile resolved then
    let linked ← host.multipleHardlinks resolved
    failIf (linked = true) .sensitivePath
  return resolved

/-- `ensure_approval_action`, which asks the same as `ensure_approved_action`. -/
def ensureApprovalAction (authorization : Authorization) (expected : String) :
    Except FsError Unit :=
  authorization.ensureApprovedAction expected

/-- `prepare_edit`. -/
def prepareEdit (P : Primitives) (codec : Windows1252) (host : ReadHost)
    (allowedRoots : List String)
    (authorization : Authorization) (edits : List TextEdit) : Except FsError PreparedEdit := do
  ensureApprovalAction authorization "filesystem.write"
  failIf (edits = [] ∨ maxEdits < edits.length ∨
    ∃ edit ∈ edits, edit.oldText = "" ∨ edit.expectedOccurrences = 0) .invalidEditParameters
  let target ← resolveReadTarget host allowedRoots authorization.request.envelope.target
  let original ← host.read target
  let decoded ← decodeEditText codec original
  let edited ← applyEdits (detectedNewline decoded.text) 0 edits decoded.text
  let content ← encodeEditText codec edited decoded.encoding
  failIf (maxEditFileBytes < content.length) (.editResultTooLarge content.length)
  let summary := unifiedDiffSummary decoded.text edited
  return { content
           originalSha256 := sha256Hex P original
           diffSummary := summary.1
           diffTruncated := summary.2 }

end VorCommander
