import VorCommander.Device.Interface
import VorCommander.Fs.Files
import VorCommander.Policy.WindowsPath
import VorCommander.Steps.Alone

/-!
Writing a file.

A write replaces its target as a whole. The content goes to a temporary file beside
the target, the old bytes to a backup, and a record of what is going on to the
journal; then the temporary file takes the place of the target. All three are named
after the digest of the request, so that a write that finds them refuses to start.
Each step is an operation on the files of the host, and may fail.
-/

namespace VorCommander

open Crypto Steps Steps.Program Text WindowsPath

/-- A fallible program over the files. -/
abbrev FileM (α : Type) := ExceptT FsError (Program Files) α

namespace Files

def call (op : FileOp) : FileM op.Result := attempt (perform (I := Files) op)

/-- `Path::exists`, which is false where the host gives no answer. -/
def pathExists (path : String) : FileM Bool :=
  ExceptT.lift ((fun reply => reply.toOption.getD false) <$> perform (I := Files) (.probe path))

end Files

/-! ### Paths -/

namespace WindowsPath

/-- The components of a path that are names. -/
def normalParts (path : String) : List String :=
  (((dropPrefix path).splitOnP isSeparator).map String.ofList).filter fun name =>
    !name.isEmpty && name ≠ "." && name ≠ ".."

/-- `Path::parent`, spelled with `\`. -/
def parent (path : String) : Option String :=
  let prefixLength := path.toList.length - (dropPrefix path).length
  (fileName path).map fun _ => String.ofList
    (path.toList.take prefixLength ++ '\\' :: (joinParts (normalParts path).dropLast).toList)

/-- `Path::join` with a file name. -/
def join (directory name : String) : String :=
  if directory.toList.getLast?.any isSeparator then directory ++ name
  else directory ++ "\\" ++ name

/-- `ensure_no_parent_dir`. -/
def ensureNoParentDir (path : String) : Except FsError Unit :=
  failIf (isAbsolute path = false ∨
    ".." ∈ ((dropPrefix path).splitOnP isSeparator).map String.ofList) .unsafePath

/-- `path_within`. -/
def pathWithin (path root : String) : Bool :=
  windowsPathWithin (replaceChar '/' '\\' path) (replaceChar '/' '\\' root)

/-- `sensitive_path`. -/
def sensitivePath (path : String) : Bool := sensitiveWindowsPath (joinParts (normalParts path))

end WindowsPath

/-! ### What a request says -/

inductive TargetPrecondition
  | absent
  | sha256 (digest : String)
  deriving DecidableEq

/-- A digest as a parameter gives it: 64 hexadecimal digits. -/
def isDigestText (value : String) : Bool :=
  byteLength value = 64 && (hexDecode value).any fun bytes => bytes.length = 32

namespace Authorization

variable (authorization : Authorization)

/-- A parameter of the request that is a string. -/
def text (name : String) : Option String :=
  authorization.request.envelope.parameters[name]?.bind Value.asStr

/-- `required_target_precondition`. -/
def requiredTargetPrecondition : Except FsError TargetPrecondition := do
  let value ← orFail (authorization.text "expected_target_sha256") .missingTargetPrecondition
  if eqIgnoreAsciiCase value "absent" then return .absent
  failIf (isDigestText value = false) .invalidTargetPrecondition
  return .sha256 (toAsciiLowercase value)

/-- `required_content_digest`. -/
def requiredContentDigest : Except FsError String := do
  let value ← orFail (authorization.text "content_sha256") .missingContentDigest
  failIf (isDigestText value = false) .invalidContentDigest
  return toAsciiLowercase value

/-- `ensure_auto_action`. -/
def ensureAutoAction (expected : String) : Except FsError Unit := do
  failIf (authorization.request.envelopeDigest ≠ authorization.decision.envelopeDigest ∨
    authorization.request.envelope.requestId ≠ authorization.decision.requestId)
    .authorizationMismatch
  match authorization.decision.kind with
  | .auto => .ok ()
  | .approval => .error .approvalRequired
  | .deny => .error .denied
  failIf (authorization.request.envelope.action ≠ expected) .wrongAction

/-- `ensure_approved_action`. -/
def ensureApprovedAction (expected : String) : Except FsError Unit := do
  failIf (authorization.request.envelopeDigest ≠ authorization.decision.envelopeDigest ∨
    authorization.request.envelope.requestId ≠ authorization.decision.requestId)
    .authorizationMismatch
  failIf (authorization.decision.kind ≠ .approval) .approvedExecutionRequired
  failIf (authorization.request.envelope.action ≠ expected) .wrongAction

end Authorization

/-- `ActionRequest::digest_hex`. -/
def ActionRequest.digestHex (request : ActionRequest) : String :=
  hexEncode request.envelopeDigest.toList

section

variable (P : Primitives)

def sha256Hex (content : List UInt8) : String := hexEncode (P.sha256 content).toList

end

/-! ### Journal records -/

inductive JournalState
  | prepared
  | replaced
  | committed
  deriving DecidableEq

/-- The states as `rename_all = "snake_case"` writes them. -/
def JournalState.text : JournalState → String
  | .prepared => "prepared"
  | .replaced => "replaced"
  | .committed => "committed"

structure JournalRecord where
  transactionId : String
  requestId : String
  target : String
  tempPath : String
  backupPath : Option String
  contentSha256 : String
  state : JournalState
  deriving DecidableEq

def JournalRecord.toJson (record : JournalRecord) : Value :=
  .object
    [("transaction_id", .string record.transactionId),
     ("request_id", .string record.requestId),
     ("target", .string record.target),
     ("temp_path", .string record.tempPath),
     ("backup_path", record.backupPath.elim .null .string),
     ("content_sha256", .string record.contentSha256),
     ("state", .string record.state.text)]

def JournalRecord.bytes (record : JournalRecord) : List UInt8 := record.toJson.toBytes

structure WriteReceipt where
  target : String
  backupPath : Option String
  journalPath : String
  contentSha256 : String
  deriving DecidableEq

/-! ### The files of a transaction -/

/-- The files a write uses besides its target. -/
structure Transaction where
  temp : String
  journal : String
  journalTemp : String
  backup : String

namespace Transaction

/-- The paths of the files. -/
def paths (t : Transaction) : List String := [t.temp, t.journal, t.journalTemp, t.backup]

end Transaction

/-! ### The worker -/

structure FsWorker where
  allowedRoots : List String
  journalDir : String

namespace FsWorker

open Files

variable (P : Primitives) (worker : FsWorker)

/-- The files of the write of a request into a directory. `with_extension` replaces
the extension of the journal's own file. -/
def transaction (request : ActionRequest) (directory : String) : Transaction where
  temp := join directory (".vor-" ++ String.ofList (request.digestHex.toList.take 16) ++ ".tmp")
  journal := join worker.journalDir (request.digestHex ++ ".json")
  journalTemp := join worker.journalDir (request.digestHex ++ ".json.tmp")
  backup := join worker.journalDir (request.digestHex ++ ".bak")

/-- `FsWorker::ensure_allowed`. -/
def ensureAllowed (path : String) : Except FsError Unit :=
  failIf (worker.allowedRoots.any (pathWithin path) = false) .outsideAllowedRoots

/-- `FsWorker::resolve_write_target`. -/
def resolveWriteTarget (target : String) : FileM String := do
  check (ensureNoParentDir target)
  let found ← call (.lookup target)
  if found then
    let resolved ← call (.canonicalize target)
    check (worker.ensureAllowed resolved)
    return resolved
  let parent ← check (orFail (parent target) .unsafePath)
  let name ← check (orFail (fileName target) .unsafePath)
  let resolvedParent ← call (.canonicalize parent)
  check (worker.ensureAllowed resolvedParent)
  return join resolvedParent name

/-- `verify_target_precondition`. -/
def verifyTargetPrecondition (target : String) : TargetPrecondition → FileM Unit
  | .absent => do
      let found ← pathExists target
      check (failIf (found = true) .targetPreconditionFailed)
  | .sha256 expected => do
      let found ← pathExists target
      check (failIf (found = false) .targetPreconditionFailed)
      let content ← call (.read target)
      check (failIf (eqIgnoreAsciiCase (sha256Hex P content) expected = false)
        .targetPreconditionFailed)

/-- `clean_up_temp_after_error`. -/
def cleanUpTempAfterError (tempPath : String) (operation : FsError) : Program Files FsError :=
  (fun reply => match reply with
    | Except.ok _ => operation
    | Except.error _ => .cleanupFailed operation) <$> perform (I := Files) (.remove tempPath)

/-- The precondition is checked if there is one. -/
def verifyIfRequired (target : String) (precondition : Option TargetPrecondition) : FileM Unit :=
  match precondition with
  | some precondition => verifyTargetPrecondition P target precondition
  | none => return ()

/-- The check that takes the temporary file away if it fails. -/
def verifyAgain (target tempPath : String) (precondition : Option TargetPrecondition) :
    FileM Unit :=
  attempt do
    match ← (verifyIfRequired P target precondition).run with
    | .ok _ => return .ok ()
    | .error e => .error <$> cleanUpTempAfterError tempPath e

/-- `FsWorker::persist_journal`. -/
def persistJournal (t : Transaction) (record : JournalRecord) : FileM Unit := do
  call (.createTruncated t.journalTemp)
  call (.write t.journalTemp record.bytes)
  call (.sync t.journalTemp)
  call (.rename t.journalTemp t.journal)

/-- The temporary file is written. -/
def stage (tempPath : String) (content : List UInt8) : FileM Unit := do
  call (.createNew tempPath)
  call (.write tempPath content)
  call (.sync tempPath)

/-- The target is copied. -/
def backUp (target : String) : Option String → FileM Unit
  | some backup => do
      call (.copy target backup)
      call (.sync backup)
  | none => return ()

/-- `temp_path.exists() || journal_path.exists()`. -/
def transactionExists (t : Transaction) : FileM Bool := do
  let found ← pathExists t.temp
  if found then return true
  pathExists t.journal

/-- The record of a write before its target is replaced. -/
def record (authorization : Authorization) (target contentSha256 : String) (t : Transaction)
    (backupPath : Option String) : JournalRecord where
  transactionId := authorization.request.digestHex
  requestId := authorization.request.envelope.requestId
  target := target
  tempPath := t.temp
  backupPath := backupPath
  contentSha256 := contentSha256
  state := .prepared

/-- The end of `write_inner`, once the target has been replaced. -/
def confirm (target : String) (t : Transaction) (record : JournalRecord) :
    FileM WriteReceipt := do
  persistJournal t { record with state := .replaced }
  let written ← call (.read target)
  check (failIf (sha256Hex P written ≠ record.contentSha256) .postWriteVerificationFailed)
  persistJournal t { record with state := .committed }
  return { target, backupPath := record.backupPath, journalPath := t.journal
           contentSha256 := record.contentSha256 }

/-- The first record of `write_inner`, and what follows. -/
def replaceTarget (target : String) (t : Transaction) (record : JournalRecord) :
    FileM WriteReceipt := do
  persistJournal t record
  -- `atomic_replace`, which on Windows is one operation
  call (.rename t.temp target)
  confirm P target t record

/-- The middle of `write_inner`, once the target has been checked. -/
def writeTarget (authorization : Authorization) (content : List UInt8)
    (precondition : Option TargetPrecondition) (target : String) (t : Transaction) :
    FileM WriteReceipt := do
  let found ← pathExists target
  let backupPath := if found then some t.backup else none
  let leftOver ← transactionExists t
  check (failIf (leftOver = true) .transactionExists)
  stage t.temp content
  verifyAgain P target t.temp precondition
  backUp target backupPath
  replaceTarget P target t (record authorization target (sha256Hex P content) t backupPath)

/-- `FsWorker::write_inner`. -/
def writeInner (authorization : Authorization) (content : List UInt8)
    (requireTargetPrecondition : Bool) : FileM WriteReceipt := do
  let expected ← check authorization.requiredContentDigest
  check (failIf (eqIgnoreAsciiCase expected (sha256Hex P content) = false) .contentDigestMismatch)
  let requestedTarget := authorization.request.envelope.target
  let target ← worker.resolveWriteTarget requestedTarget
  check (failIf (authorization.isAuto ∧ sensitivePath target = true) .approvalRequired)
  call (.rejectReparse requestedTarget)
  let precondition ← check
    (if requireTargetPrecondition then some <$> authorization.requiredTargetPrecondition
      else .ok none)
  verifyIfRequired P target precondition
  let directory ← check (orFail (parent target) .unsafePath)
  writeTarget P authorization content precondition target
    (worker.transaction authorization.request directory)

/-- `FsWorker::write`. -/
def write (authorization : Authorization) (content : List UInt8) : FileM WriteReceipt := do
  check (authorization.ensureAutoAction "filesystem.write")
  worker.writeInner P authorization content true

/-- `FsWorker::write_approved`. -/
def writeApproved (execution : ExecutionAuthorization) (content : List UInt8) :
    FileM WriteReceipt := do
  check (execution.authorization.ensureApprovedAction "filesystem.write")
  worker.writeInner P execution.authorization content true

end FsWorker

/-! ### The files are distinct -/

namespace WindowsPath

/-- A joined path ends with the name. -/
theorem reverse_join (directory name : String) :
    ∃ rest, (join directory name).toList.reverse = name.toList.reverse ++ rest := by
  unfold join
  split
  · exact ⟨_, by rw [String.toList_append, List.reverse_append]⟩
  · refine ⟨(directory ++ "\\").toList.reverse, ?_⟩
    rw [String.toList_append, List.reverse_append]

end WindowsPath

namespace FsWorker

theorem ne_n_of_mem_hexEncode {bytes : List UInt8} {c : Char}
    (hc : c ∈ (hexEncode bytes).toList) : c ≠ 'n' := by
  rw [hexEncode, String.toList_ofList, List.mem_flatMap] at hc
  obtain ⟨b, -, hb⟩ := hc
  have hdigit : ∀ n < 16, hexDigit n ≠ 'n' := by decide
  have hhigh : b.toNat / 16 < 16 := by
    have := b.toNat_lt
    omega
  rcases List.mem_pair.mp hb with rfl | rfl
  · exact hdigit _ hhigh
  · exact hdigit _ (Nat.mod_lt _ (by omega))

/-- The last five characters of a path, backwards. -/
def ending (path : String) : List Char := path.toList.reverse.take 5

theorem ending_join {directory name : String} (cs : List Char) (hlength : 5 ≤ cs.length)
    (h : ∃ rest, name.toList.reverse = cs ++ rest) :
    ending (join directory name) = cs.take 5 := by
  obtain ⟨rest, hname⟩ := h
  obtain ⟨rest', hjoin⟩ := reverse_join directory name
  rw [ending, hjoin, hname, List.append_assoc, List.take_append_of_le_length hlength]

theorem digestHex_length (request : ActionRequest) : request.digestHex.toList.length = 64 := by
  simp [ActionRequest.digestHex, hexEncode, List.length_flatMap]

/-- The files of a transaction are four. -/
theorem transaction_nodup (worker : FsWorker) (request : ActionRequest) (directory : String) :
    (worker.transaction request directory).paths.Nodup := by
  set digits := request.digestHex.toList with hdigits
  have hlength : digits.length = 64 := digestHex_length request
  have hshort : (digits.take 16).reverse ≠ [] := by
    intro hnil
    have := congrArg List.length hnil
    simp [hlength] at this
  obtain ⟨x, rest, hx⟩ := List.exists_cons_of_ne_nil hshort
  have hxn : x ≠ 'n' := by
    have hmem : x ∈ (digits.take 16).reverse := hx ▸ List.mem_cons_self
    have hdigit : x ∈ (hexEncode request.envelopeDigest.toList).toList :=
      List.mem_of_mem_take (List.mem_reverse.mp hmem)
    exact ne_n_of_mem_hexEncode hdigit
  have hlong : digits.reverse ≠ [] := by
    intro hnil
    have := congrArg List.length hnil
    simp [hlength] at this
  obtain ⟨y, rest', hy⟩ := List.exists_cons_of_ne_nil hlong
  have htemp : ending (worker.transaction request directory).temp = ['p', 'm', 't', '.', x] := by
    refine ending_join ['p', 'm', 't', '.', x] le_rfl ⟨rest ++ ['-', 'r', 'o', 'v', '.'], ?_⟩
    simp [← hdigits, hx]
  have hjournal : ending (worker.transaction request directory).journal
      = ['n', 'o', 's', 'j', '.'] := by
    refine ending_join ['n', 'o', 's', 'j', '.'] le_rfl ⟨digits.reverse, ?_⟩
    simp [hdigits]
  have hjournalTemp : ending (worker.transaction request directory).journalTemp
      = ['p', 'm', 't', '.', 'n'] := by
    refine ending_join ['p', 'm', 't', '.', 'n'] le_rfl
      ⟨['o', 's', 'j', '.'] ++ digits.reverse, ?_⟩
    simp [hdigits]
  have hbackup : ending (worker.transaction request directory).backup =
    ['k', 'a', 'b', '.', y] := by
    refine ending_join ['k', 'a', 'b', '.', y] le_rfl ⟨rest', ?_⟩
    simp [← hdigits, hy]
  have hne : ∀ {a b : String}, ending a ≠ ending b → a ≠ b := fun h heq => h (congrArg ending heq)
  simp only [Transaction.paths, List.nodup_cons, List.mem_cons, List.not_mem_nil, or_false,
    not_or, not_false_eq_true, List.nodup_nil, and_true]
  refine ⟨⟨hne ?_, hne ?_, hne ?_⟩, ⟨hne ?_, hne ?_⟩, hne ?_⟩ <;>
    simp [htemp, hjournal, hjournalTemp, hbackup, hxn]

end FsWorker

/-! ### The host -/

namespace FileOp

/-- Operations that only ask. -/
def asks : FileOp → Bool
  | .lookup _ | .canonicalize _ | .rejectReparse _ | .probe _ | .read _ => true
  | _ => false

variable {files files' : FileSystem} {op : FileOp} {reply : op.Reply}

theorem Commits.eq_of_asks (h : op.Commits files reply files') (hasks : op.asks = true) :
    files' = files := by
  have hchange : op.change files = some files := by
    cases op <;> simp_all [asks, change]
  have hfills : op.fills = none := by
    cases op <;> simp_all [asks, fills]
  cases reply with
  | ok result =>
      have := h.1.symm.trans hchange
      exact Option.some.inj this
  | error e =>
      rcases h with heq | heq | ⟨path, content, hpath, -⟩
      · exact heq
      · exact Option.some.inj (heq.symm.trans hchange)
      · rw [hfills] at hpath
        cases hpath

end FileOp

/-- What operations do on a host on which `exists` sees what is there, and a file that
could not be created or removed is as it was. -/
def Files.Commit (files : FileSystem) (e : Event Files) (files' : FileSystem) : Prop :=
  e.op.Commits files e.reply files' ∧
    match e with
    | ⟨.probe _, .error _⟩ => False
    | ⟨.createNew _, .error _⟩ => files' = files
    | ⟨.remove _, .error _⟩ => files' = files
    | _ => True

end VorCommander
