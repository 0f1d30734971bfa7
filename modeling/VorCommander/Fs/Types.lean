import VorCommander.Text.Json

/-!
What the filesystem worker and the dispatcher exchange: edits, prepared
edits, and the worker's errors.
-/

namespace VorCommander

open Text

structure TextEdit where
  oldText : String
  newText : String
  expectedOccurrences : ℕ := 1
  deriving DecidableEq

/-- An edit from JSON: an object with the members of the structure, or the
same values in order. -/
def TextEdit.fromValue : Value → Option TextEdit
  | .object members => do
      let oldText ← (members.lookup "old_text").bind Value.asStr
      let newText ← (members.lookup "new_text").bind Value.asStr
      let expectedOccurrences ← ((members.lookup "expected_occurrences").elim (some 1) Value.asU64)
      return { oldText, newText, expectedOccurrences }
  | .array [oldText, newText] => return { oldText := ← oldText.asStr, newText := ← newText.asStr }
  | .array [oldText, newText, expected] =>
      return { oldText := ← oldText.asStr, newText := ← newText.asStr,
               expectedOccurrences := ← expected.asU64 }
  | _ => none

/-- `serde_json::from_value::<Vec<TextEdit>>`. -/
def TextEdit.listFromValue (value : Value) : Option (List TextEdit) := do
  let items ← value.asArray
  items.mapM TextEdit.fromValue

structure PreparedEdit where
  content : List UInt8
  originalSha256 : String
  diffSummary : String
  diffTruncated : Bool
  deriving DecidableEq

inductive FsError
  | noAllowedRoots
  | unsafePath
  | outsideAllowedRoots
  | sensitivePath
  | reparsePoint (path : String)
  | authorizationMismatch
  | approvalRequired
  | approvedExecutionRequired
  | missingTargetPrecondition
  | invalidTargetPrecondition
  | targetPreconditionFailed
  | cleanupFailed (operation : FsError)
  | denied
  | wrongAction
  | readLimitExceeded (len maxBytes : ℕ)
  | invalidParameters
  | invalidEditParameters
  | occurrenceMismatch (editIndex expected actual : ℕ) (closestLine : Option String)
  | editResultTooLarge (len : ℕ)
  | unsupportedEditEncoding
  | unrepresentableEditText
  | invalidPattern
  | searchTimeout
  | missingContentDigest
  | invalidContentDigest
  | contentDigestMismatch
  | transactionExists
  | postWriteVerificationFailed
  | io
  | json
  deriving DecidableEq

end VorCommander
