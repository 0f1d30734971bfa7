import VorCommander.Fs.Paths
import VorCommander.Maintainer.Program
import VorCommander.Steps.Crash

/-!
Update transactions.

A transaction puts a staged binary in the place of the target. The old binary is kept as
a backup beside the target, and what has been done is written to a journal, one line for
each state. The transaction can be committed, or rolled back to the backup. If the
maintainer was stopped on the way, `recover_previous` finds the backup by the plan alone.
-/

namespace VorCommander

open Crypto Steps Steps.Program Text WindowsPath

/-! ### Operations -/

inductive FileKind
  | file
  | directory
  | other
  deriving DecidableEq

/-- What a transaction asks of the host. -/
inductive UpdateOp
  | metadata (path : String)
  | canonicalize (path : String)
  | read (path : String)
  | openRead (path : String)
  | createDirAll (path : String)
  | createNew (path : String)
  | openAppend (path : String)
  | copy (source target : String)
  | append (path : String) (content : List UInt8)
  | sync (path : String)
  | rename (source target : String)
  | remove (path : String)

namespace UpdateOp

/-- What each operation replies when it succeeds. -/
@[reducible] def Result : UpdateOp → Type
  | .metadata _ => FileKind
  | .canonicalize _ => String
  | .read _ => List UInt8
  | _ => Unit

@[reducible] def Reply (op : UpdateOp) : Type := Except String op.Result

/-- The files after an operation that has succeeded, if it can succeed. -/
def change (files : FileSystem) : UpdateOp → Option FileSystem
  | .createNew path =>
      if files path = none then some (Function.update files path (some [])) else none
  | .openAppend path => some (Function.update files path (some ((files path).getD [])))
  | .copy source target =>
      (files source).map fun content => Function.update files target (some content)
  | .append path content =>
      (files path).map fun old => Function.update files path (some (old ++ content))
  | .rename source target =>
      (files source).map fun content =>
        Function.update (Function.update files source none) target (some content)
  | .remove path => (files path).map fun _ => Function.update files path none
  | _ => some files

/-- The file an operation may have filled with something else when it fails. -/
def fills : UpdateOp → Option String
  | .copy _ path | .append path _ => some path
  | _ => none

/-- The files whose contents an operation may change. -/
def touches : UpdateOp → List String
  | .createNew path | .openAppend path | .copy _ path | .append path _ | .remove path => [path]
  | .rename source target => [source, target]
  | _ => []

/-- The answer of a question. No link is changed: `canonical` says where paths lead. -/
def answers (canonical : String → String) (files : FileSystem) :
    (op : UpdateOp) → op.Result → Prop
  | .metadata path, kind => canonical path = path → kind = .file → (files path).isSome
  | .canonicalize path, resolved => resolved = canonical path
  | .read path, content => files path = some content
  | _, _ => True

/-- The effect of an operation with a given reply on the files. -/
def Commits (canonical : String → String) (files : FileSystem) (op : UpdateOp) (reply : op.Reply)
    (files' : FileSystem) : Prop :=
  match reply with
  | .ok result => op.change files = some files' ∧ op.answers canonical files result
  | .error _ =>
      files' = files ∨ op.change files = some files' ∨
        ∃ path content, op.fills = some path ∧ files' = Function.update files path (some content)

end UpdateOp

/-- The interface of the operations of a transaction. -/
abbrev UpdateFiles : Interface := ⟨UpdateOp, UpdateOp.Reply⟩

/-- Before each operation other programs may have changed all files but `mine`. -/
def UpdateFiles.Commit (canonical : String → String) (mine : List String) (files : FileSystem)
    (e : Event UpdateFiles) (files' : FileSystem) : Prop :=
  ∃ found : FileSystem, (∀ path ∈ mine, found path = files path) ∧
    e.op.Commits canonical found e.reply files'

abbrev UpdateM (α : Type) := ExceptT MaintenanceError (Program UpdateFiles) α

/-! ### Messages -/

namespace Maintainer

inductive JournalState
  | validated
  | swapped
  | committed
  | rolledBack
  deriving DecidableEq

/-- The states as `rename_all = "snake_case"` writes them. -/
def JournalState.text : JournalState → String
  | .validated => "validated"
  | .swapped => "swapped"
  | .committed => "committed"
  | .rolledBack => "rolled_back"

structure JournalEntry where
  requestId : String
  state : JournalState
  targetExecutable : String
  stagedExecutable : String
  backupExecutable : String
  tempExecutable : String
  expectedCurrentSha256 : String
  expectedStagedSha256 : String
  deriving DecidableEq

def JournalEntry.toJson (entry : JournalEntry) : Value :=
  .object
    [("request_id", .string entry.requestId),
     ("state", .string entry.state.text),
     ("target_executable", .string entry.targetExecutable),
     ("staged_executable", .string entry.stagedExecutable),
     ("backup_executable", .string entry.backupExecutable),
     ("temp_executable", .string entry.tempExecutable),
     ("expected_current_sha256", .string entry.expectedCurrentSha256),
     ("expected_staged_sha256", .string entry.expectedStagedSha256)]

structure MaintenanceTransaction where
  update : ValidatedUpdate
  state : JournalState

end Maintainer

/-! ### Files -/

namespace Update

variable (P : Primitives)

def call (op : UpdateOp) : UpdateM op.Result :=
  ExceptT.adapt .io (attempt (perform (I := UpdateFiles) op))

/-- What `Path::exists`, `Path::is_file` and `Path::is_dir` make of the metadata. -/
def asks (path : String) (holds : FileKind → Bool) : UpdateM Bool :=
  ExceptT.lift ((fun reply => (reply.toOption.map holds).getD false) <$>
    perform (I := UpdateFiles) (.metadata path))

def pathExists (path : String) : UpdateM Bool := asks path fun _ => true

def isFile (path : String) : UpdateM Bool := asks path fun kind => kind = .file

def isDir (path : String) : UpdateM Bool := asks path fun kind => kind = .directory

/-- An operation whose failure is ignored. -/
def ignoring (op : UpdateOp) : UpdateM Unit :=
  ExceptT.lift ((fun _ => ()) <$> perform (I := UpdateFiles) op)

/-- `sha256_file`. -/
def sha256File (path : String) : UpdateM String := do
  let content ← call (.read path)
  return sha256Hex P content

/-- `verify_file_sha256`. -/
def verifyFileSha256 (path expected : String) : UpdateM Unit := do
  let expected ← check (normalizeSha256 expected)
  let actual ← sha256File P path
  check (failIf (actual ≠ expected) (.digestMismatch expected actual))

/-- `ensure_within`. -/
def ensureWithin (path root : String) : Except MaintenanceError Unit :=
  failIf (pathWithin path root = false) .outsideAllowedRoot

/-- `canonical_file_within`. -/
def canonicalFileWithin (path root : String) : UpdateM String := do
  let canonical ← call (.canonicalize path)
  let file ← isFile canonical
  check (failIf (file = false) .expectedFile)
  check (ensureWithin canonical root)
  return canonical

/-- `canonical_directory_within`. -/
def canonicalDirectoryWithin (path root : String) : UpdateM String := do
  let canonical ← call (.canonicalize path)
  let directory ← isDir canonical
  check (failIf (directory = false) .expectedDirectory)
  check (ensureWithin canonical root)
  return canonical

/-- The longest part of a path that exists. A path has at most as many ancestors as
names. -/
def existingAncestor : ℕ → String → UpdateM String
  | 0, _ => throw .unsafePath
  | ancestors + 1, path => do
      let found ← pathExists path
      if found then return path
      let directory ← check (orFail (parent path) .unsafePath)
      existingAncestor ancestors directory

/-- `ensure_output_path_within`. -/
def ensureOutputPathWithin (path root : String) : UpdateM Unit := do
  check (rejectRelativeComponents path)
  check (failIf (isAbsolute path = false) .unsafePath)
  let existing ← existingAncestor ((normalParts path).length + 1) path
  let canonical ← call (.canonicalize existing)
  check (ensureWithin canonical root)

/-- `output_directory_within`, and `output_path_within`. -/
def outputPathWithin (path root : String) : UpdateM String := do
  ensureOutputPathWithin path root
  return path

/-- `copy_synced`. -/
def copySynced (source destination : String) : UpdateM Unit := do
  call (.openRead source)
  call (.createNew destination)
  call (.copy source destination)
  call (.sync destination)

/-- `create_parent`. -/
def createParent (path : String) : UpdateM Unit := do
  let directory ← check (orFail (parent path) .unsafePath)
  call (.createDirAll directory)

/-! ### Plans -/

def backupName (name requestId : String) : String := "." ++ name ++ "." ++ requestId ++ ".bak"

def tempName (name requestId : String) : String := "." ++ name ++ "." ++ requestId ++ ".new"

def journalName (requestId : String) : String := requestId ++ ".jsonl"

/-- `validate_plan`. -/
def validatePlan (plan : UpdatePlan) : UpdateM ValidatedUpdate := do
  check (validatePlanShape plan)
  let root ← call (.canonicalize plan.allowedRoot)
  let found ← isDir root
  check (failIf (found = false) .invalidRoot)
  let target ← canonicalFileWithin plan.targetExecutable root
  let staged ← canonicalFileWithin plan.stagedExecutable root
  check (failIf (Maintainer.samePath target staged = true) .invalidPlan)
  verifyFileSha256 P target plan.expectedCurrentSha256
  verifyFileSha256 P staged plan.expectedStagedSha256
  let workingDirectory ← canonicalDirectoryWithin plan.restart.workingDirectory root
  let journalDirectory ← outputPathWithin plan.journalDirectory root
  let resultFile ← outputPathWithin plan.resultFile root
  let stdoutLog ← outputPathWithin plan.restart.stdoutLog root
  let stderrLog ← outputPathWithin plan.restart.stderrLog root
  let name ← check (orFail (fileName target) .invalidPlan)
  let directory ← check (orFail (parent target) .invalidPlan)
  let backup := join directory (backupName name plan.requestId)
  let temp := join directory (tempName name plan.requestId)
  let journal := join journalDirectory (journalName plan.requestId)
  ensureOutputPathWithin backup root
  ensureOutputPathWithin temp root
  ensureOutputPathWithin journal root
  return { plan, root, target, staged, workingDirectory, backup, temp, journal, resultFile,
           stdoutLog, stderrLog }

/-- The end of `validate_recovery_plan`: the backup, and what is in the target's place. -/
def validateBackup (update : ValidatedUpdate) : UpdateM ValidatedUpdate := do
  let file ← isFile update.backup
  check (failIf (file = false) .backupMissing)
  let backup ← call (.canonicalize update.backup)
  check (ensureWithin backup update.root)
  verifyFileSha256 P update.backup update.plan.expectedCurrentSha256
  if ← pathExists update.target then
    let target ← call (.canonicalize update.target)
    check (ensureWithin target update.root)
    let file ← isFile target
    check (failIf (file = false) .expectedFile)
  return update

/-- `validate_recovery_plan`. -/
def validateRecoveryPlan (plan : UpdatePlan) : UpdateM ValidatedUpdate := do
  check (validatePlanShape plan)
  let root ← call (.canonicalize plan.allowedRoot)
  let found ← isDir root
  check (failIf (found = false) .invalidRoot)
  let targetParent ← check (orFail (parent plan.targetExecutable) .invalidPlan)
  let canonicalParent ← call (.canonicalize targetParent)
  check (ensureWithin canonicalParent root)
  let targetName ← check (orFail (fileName plan.targetExecutable) .invalidPlan)
  let staged ← canonicalFileWithin plan.stagedExecutable root
  let workingDirectory ← canonicalDirectoryWithin plan.restart.workingDirectory root
  let journalDirectory ← outputPathWithin plan.journalDirectory root
  let resultFile ← outputPathWithin plan.resultFile root
  let stdoutLog ← outputPathWithin plan.restart.stdoutLog root
  let stderrLog ← outputPathWithin plan.restart.stderrLog root
  validateBackup P
    { plan, root, target := join canonicalParent targetName, staged, workingDirectory
      backup := join canonicalParent (backupName targetName plan.requestId)
      temp := join canonicalParent (tempName targetName plan.requestId)
      journal := join journalDirectory (journalName plan.requestId)
      resultFile, stdoutLog, stderrLog }

/-! ### The journal -/

/-- What `append_journal` writes about an update. -/
def entry (update : ValidatedUpdate) (state : Maintainer.JournalState) :
    Maintainer.JournalEntry where
  requestId := update.plan.requestId
  state := state
  targetExecutable := update.target
  stagedExecutable := update.staged
  backupExecutable := update.backup
  tempExecutable := update.temp
  expectedCurrentSha256 := toAsciiLowercase update.plan.expectedCurrentSha256
  expectedStagedSha256 := toAsciiLowercase update.plan.expectedStagedSha256

/-- `append_journal`. -/
def appendJournal (update : ValidatedUpdate) (state : Maintainer.JournalState) (createNew : Bool) :
    UpdateM Unit := do
  createParent update.journal
  if createNew then call (.createNew update.journal) else call (.openAppend update.journal)
  ExceptT.adapt .json (attempt (perform (I := UpdateFiles)
    (.append update.journal (entry update state).toJson.toBytes)))
  call (.append update.journal (utf8 "\n"))
  call (.sync update.journal)

/-! ### Transactions -/

/-- What is at the target is removed. -/
def removeTarget (update : ValidatedUpdate) : UpdateM Unit := do
  if ← pathExists update.target then
    call (.remove update.target)

/-- The end of `rollback_paths`, and the middle of `recover_previous`. -/
def putBack (update : ValidatedUpdate) : UpdateM Unit := do
  removeTarget update
  call (.rename update.backup update.target)
  ignoring (.remove update.temp)
  verifyFileSha256 P update.target update.plan.expectedCurrentSha256

/-- `rollback_paths`. -/
def rollbackPaths (update : ValidatedUpdate) : UpdateM Unit := do
  let file ← isFile update.backup
  check (failIf (file = false) .backupMissing)
  putBack P update

/-- `recover_previous`. -/
def recoverPrevious (plan : UpdatePlan) : UpdateM ValidatedUpdate := do
  let update ← validateRecoveryPlan P plan
  putBack P update
  appendJournal update .rolledBack false
  return update

/-- `MaintenanceTransaction::begin`. -/
def begin (plan : UpdatePlan) : UpdateM Maintainer.MaintenanceTransaction := do
  let update ← validatePlan P plan
  createParent update.journal
  let found ← pathExists update.journal
  check (failIf (found = true) .journalExists)
  appendJournal update .validated true
  return { update, state := .validated }

/-- `update.backup.exists() || update.temp.exists()`. -/
def eitherExists (backup temp : String) : UpdateM Bool := do
  let found ← pathExists backup
  if found then return true
  pathExists temp

/-- The first part of `swap`: what is to be replaced is moved to the backup. -/
def moveOut (update : ValidatedUpdate) : UpdateM Unit := do
  verifyFileSha256 P update.target update.plan.expectedCurrentSha256
  verifyFileSha256 P update.staged update.plan.expectedStagedSha256
  let collides ← eitherExists update.backup update.temp
  check (failIf (collides = true) .stagingCollision)
  copySynced update.staged update.temp
  verifyFileSha256 P update.temp update.plan.expectedStagedSha256
  match ← ExceptT.lift (perform (I := UpdateFiles) (.rename update.target update.backup)) with
  | Except.ok _ => return ()
  | Except.error error => do
      ignoring (.remove update.temp)
      throw (.io error)

/-- The temporary file takes the place of the target, or the target is put back. -/
def moveIn (update : ValidatedUpdate) : UpdateM Unit := do
  match ← ExceptT.lift (perform (I := UpdateFiles) (.rename update.temp update.target)) with
  | Except.ok _ => return ()
  | Except.error error => do
      let restored ← ExceptT.lift (perform (I := UpdateFiles)
        (.rename update.backup update.target))
      ignoring (.remove update.temp)
      match restored with
      | Except.ok _ => throw (.io error)
      | Except.error restoreError => throw (.swapAndRollbackFailed error restoreError)

/-- The last part of `swap`: the state that is to be recorded, and the error that is
returned afterwards. -/
def confirmSwap (update : ValidatedUpdate) :
    UpdateM (Maintainer.JournalState × Except MaintenanceError Unit) := do
  match ← ExceptT.lift (verifyFileSha256 P update.target update.plan.expectedStagedSha256).run with
  | .ok _ => return (.swapped, .ok ())
  | .error error =>
      match ← ExceptT.lift (rollbackPaths P update).run with
      | .ok _ => return (.rolledBack, .error error)
      | .error rollbackError =>
          throw (.postSwapAndRollbackFailed error.text rollbackError.text)

/-- A method that, if it succeeds, has the transaction in a new state, which it records. -/
def advance (transaction : Maintainer.MaintenanceTransaction)
    (work : UpdateM (Maintainer.JournalState × Except MaintenanceError Unit)) :
    Program UpdateFiles (Except MaintenanceError Unit × Maintainer.MaintenanceTransaction) := do
  match ← work.run with
  | .error error => return (.error error, transaction)
  | .ok (state, result) =>
      match ← (appendJournal transaction.update state false).run with
      | .error error => return (.error error, { transaction with state })
      | .ok _ => return (result, { transaction with state })

end Update

namespace Maintainer.MaintenanceTransaction

open Update

variable (P : Primitives) (transaction : MaintenanceTransaction)

/-- `MaintenanceTransaction::swap`. -/
def swap : Program UpdateFiles (Except MaintenanceError Unit × MaintenanceTransaction) :=
  advance transaction do
    check (failIf (transaction.state ≠ .validated) .invalidState)
    moveOut P transaction.update
    moveIn transaction.update
    confirmSwap P transaction.update

/-- `MaintenanceTransaction::commit`. -/
def commit : Program UpdateFiles (Except MaintenanceError Unit × MaintenanceTransaction) :=
  advance transaction do
    check (failIf (transaction.state ≠ .swapped) .invalidState)
    Update.verifyFileSha256 P transaction.update.target transaction.update.plan.expectedStagedSha256
    return (.committed, .ok ())

/-- `MaintenanceTransaction::rollback`. -/
def rollback : Program UpdateFiles (Except MaintenanceError Unit × MaintenanceTransaction) :=
  advance transaction do
    check (failIf (transaction.state ≠ .swapped ∧ transaction.state ≠ .validated) .invalidState)
    rollbackPaths P transaction.update
    return (.rolledBack, .ok ())

end Maintainer.MaintenanceTransaction

end VorCommander
