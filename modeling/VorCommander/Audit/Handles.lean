import Mathlib.Data.List.Sort
import VorCommander.Audit.LockFile
import VorCommander.Audit.Stores

/-!
Ledger handles over shared files.

Several handles, of one process or of many, can be open on the same database
and the same file. What `Ledger::open`, `Ledger::append` and
`Ledger::verify_integrity` do is cut here into the operations that the other
handles see as one step each: a query, a read of the whole file, a write, a
commit. Acquiring the file lock is one of them; `LockFile` says what it is made
of.
-/

namespace VorCommander

open Crypto Steps Steps.Program Text

/-! ### Operations -/

inductive AuditOp
  | acquire
  | release
  | selectEvents
  | insertConsumption (key : ApprovalKey) (consumedAt : ℕ)
  | selectLast
  | selectRows
  | readJsonl
  | insert (record : AuditRecord)
  | write (bytes : List UInt8)
  | sync
  | commit (record : AuditRecord)

@[reducible] def AuditOp.Reply : AuditOp → Type
  | .acquire => Except AuditError Unit
  | .release => Except AuditError Unit
  | .selectEvents => Except AuditError (List String)
  | .insertConsumption _ _ => Except AuditError Unit
  | .selectLast => Except AuditError (Option (Int64 × String))
  | .selectRows => Except AuditError (List Row)
  | .readJsonl => Except AuditError (Option (List UInt8))
  | .insert _ => Except AuditError Unit
  | .write _ => Except AuditError Unit
  | .sync => Except AuditError Unit
  | .commit _ => Except AuditError Unit

/-- The interface of the ledger's files. -/
abbrev AuditIo : Interface := ⟨AuditOp, AuditOp.Reply⟩

abbrev LedgerM (α : Type) := ExceptT AuditError (Program AuditIo) α

namespace AuditIo

def acquire : LedgerM Unit := attempt (perform (I := AuditIo) .acquire)

def release : LedgerM Unit := attempt (perform (I := AuditIo) .release)

def selectEvents : LedgerM (List String) := attempt (perform (I := AuditIo) .selectEvents)

def insertConsumption (key : ApprovalKey) (consumedAt : ℕ) : LedgerM Unit :=
  attempt (perform (I := AuditIo) (.insertConsumption key consumedAt))

def selectLast : LedgerM (Option (Int64 × String)) := attempt (perform (I := AuditIo) .selectLast)

def selectRows : LedgerM (List Row) := attempt (perform (I := AuditIo) .selectRows)

def readJsonl : LedgerM (Option (List UInt8)) := attempt (perform (I := AuditIo) .readJsonl)

/-- The `INSERT` of an open transaction; nobody else sees the row yet. -/
def insert (record : AuditRecord) : LedgerM Unit :=
  attempt (perform (I := AuditIo) (.insert record))

def write (bytes : List UInt8) : LedgerM Unit := attempt (perform (I := AuditIo) (.write bytes))

def sync : LedgerM Unit := attempt (perform (I := AuditIo) .sync)

/-- The `COMMIT` of the transaction that inserted this record. -/
def commit (record : AuditRecord) : LedgerM Unit :=
  attempt (perform (I := AuditIo) (.commit record))

end AuditIo

/-! ### Programs -/

/-- The head that a handle remembers. -/
structure LedgerHandle where
  lastSequence : ℕ
  lastHash : Digest32
  deriving DecidableEq

namespace LedgerHandle

variable (P : Primitives) (R : LedgerReader)

/-- `load_db_last`. -/
def loadDbLast : LedgerM (Option (ℕ × Digest32)) := do
  let last ← AuditIo.selectLast
  check (headOfRow last)

/-- `load_jsonl_last`. -/
def loadFileLast : LedgerM (Option (ℕ × Digest32)) := do
  let content ← AuditIo.readJsonl
  check (loadJsonlLast R content)

/-- The head of the ledger, which must be the same in both stores. -/
def loadHead : LedgerM (Option (ℕ × Digest32)) := do
  let dbLast ← loadDbLast
  let fileLast ← loadFileLast R
  check (failIf (dbLast ≠ fileLast) .divergence)
  return dbLast

/-- `migrate_approval_consumptions`. -/
def migrateApprovalConsumptions : List String → LedgerM Unit
  | [] => return ()
  | text :: rest => do
      let event ← check (orFail (R.event text) .json)
      if event.outcome = "approval_consumed" then
        let consumedAt ← check (sqlInteger event.timestampUnixMs)
        AuditIo.insertConsumption ⟨event.requestId, event.envelopeDigest⟩ consumedAt
      migrateApprovalConsumptions rest

/-- `Ledger::open`. -/
def openFiles : LedgerM LedgerHandle := do
  let texts ← AuditIo.selectEvents
  migrateApprovalConsumptions R texts
  let head ← loadHead R
  let (lastSequence, lastHash) := head.getD (0, zeroHash)
  return { lastSequence, lastHash }

/-- `append_jsonl`. `writeln!` writes the text and the line feed one after the
other. -/
def appendJsonl (text : String) : LedgerM Unit := do
  AuditIo.write (utf8 text)
  AuditIo.write [lineFeed]
  AuditIo.sync

/-- What `Ledger::append` does while it has the lock. -/
def appendLocked (handle : LedgerHandle) (event : AuditEvent) : LedgerM AuditRecord := do
  let head ← loadHead R
  let (lastSequence, lastHash) := head.getD (0, zeroHash)
  let handle := { handle with lastSequence, lastHash }
  let record := nextRecord P (some (handle.lastSequence, handle.lastHash)) event
  AuditIo.insert record
  appendJsonl (jsonText record.toJson)
  AuditIo.commit record
  return record

/-- `Ledger::append`. After an error the lock is released when its guard is
dropped, which reports nothing. -/
def append (handle : LedgerHandle) (event : AuditEvent) : LedgerM (AuditRecord × LedgerHandle) := do
  AuditIo.acquire
  match ← ExceptT.lift (appendLocked P R handle event).run with
  | .ok record => do
      AuditIo.release
      return (record, { lastSequence := record.sequence, lastHash := record.recordHash })
  | .error e => do
      let _ ← ExceptT.lift (perform (I := AuditIo) .release)
      throw e

/-- `Ledger::verify_integrity`. -/
def verifyIntegrity : LedgerM Unit := do
  let rows ← AuditIo.selectRows
  let dbRecords ← check (checkRows P R zeroHash rows)
  let content ← AuditIo.readJsonl
  let fileRecords ← check (loadJsonlRecords R content)
  check (failIf (dbRecords ≠ fileRecords) .divergence)

end LedgerHandle

/-! ### Files -/

/-- The committed rows, the JSONL file and the content of the lock file. -/
structure AuditFiles where
  rows : List Row
  jsonl : Option (List UInt8)
  lock : Option (List UInt8)

/-- Acquiring the lock while nobody else does anything. -/
def acquireLock (nowUnixMs : ℕ) (lock : Option (List UInt8)) :
    Except AuditError Unit × Option (List UInt8) :=
  match lock with
  | none => (.ok (), some (timestampLine nowUnixMs))
  | some content =>
      match statedTime content with
      | .error e => (.error e, lock)
      | .ok none => (.error .lockTimeout, lock)
      | .ok (some createdAt) =>
          if abandonedLockAge ≤ nowUnixMs - createdAt then
            (.ok (), some (timestampLine nowUnixMs))
          else (.error .lockTimeout, lock)

/-- An attempt that fails leaves the lock as it is. -/
theorem acquireLock_error {nowUnixMs : ℕ} {lock lock' : Option (List UInt8)} {e : AuditError}
    (h : acquireLock nowUnixMs lock = (.error e, lock')) : lock' = lock := by
  cases lock with
  | none => simp [acquireLock] at h
  | some content =>
      simp only [acquireLock] at h
      split at h
      · exact (Prod.mk.inj h).2.symm
      · exact (Prod.mk.inj h).2.symm
      · split at h
        · simp at h
        · exact (Prod.mk.inj h).2.symm

/-- How many rows there can be. SQLite reports a full disk long before. -/
def maxRows : ℕ := 2 ^ 48

namespace AuditFiles

/-- The table keeps its rows in the order of their numbers. -/
def insertRow (row : Row) (rows : List Row) : List Row :=
  rows.orderedInsert (fun a b => a.sequence ≤ b.sequence) row

/-- The constraints of the table. -/
def accepts (rows : List Row) (row : Row) : Bool :=
  (rows.all fun other =>
    decide (other.sequence ≠ row.sequence ∧ other.recordHash ≠ row.recordHash)) &&
  decide (rows.length < maxRows)

/-- The number and hash of the last row. -/
def lastRow (rows : List Row) : Option (Int64 × String) :=
  rows.getLast?.map fun row => (row.sequence, row.recordHash)

/-- What the files answer when nothing fails, and what has become of them. -/
def answer (nowUnixMs : ℕ) (files : AuditFiles) : (op : AuditOp) → op.Reply × AuditFiles
  | .acquire =>
      let (reply, lock) := acquireLock nowUnixMs files.lock
      (reply, { files with lock })
  | .release => (.ok (), { files with lock := none })
  | .selectEvents => (.ok (files.rows.map Row.eventJson), files)
  | .insertConsumption _ _ => (.ok (), files)
  | .selectLast => (.ok (lastRow files.rows), files)
  | .selectRows => (.ok files.rows, files)
  | .readJsonl => (.ok files.jsonl, files)
  | .insert record => (if accepts files.rows record.toRow then .ok () else .error .sqlite, files)
  | .write bytes => (.ok (), { files with jsonl := some (files.jsonl.getD [] ++ bytes) })
  | .sync => (.ok (), files)
  | .commit record => (.ok (), { files with rows := insertRow record.toRow files.rows })

end AuditFiles

/-! ### Rules -/

section Rules

variable {A : History AuditIo → Event AuditIo → Prop} {G : History AuditIo → AuditIo.Op → Prop}
  {h : History AuditIo}

@[simp] theorem safe_auditAcquire {Q : History AuditIo → Except AuditError Unit → Prop} :
    Safe A G Q AuditIo.acquire.run h ↔
      G h .acquire ∧ ∀ r, A h ⟨.acquire, r⟩ → Q (⟨.acquire, r⟩ :: h) r :=
  safe_call _ _

@[simp] theorem safe_auditRelease {Q : History AuditIo → Except AuditError Unit → Prop} :
    Safe A G Q AuditIo.release.run h ↔
      G h .release ∧ ∀ r, A h ⟨.release, r⟩ → Q (⟨.release, r⟩ :: h) r :=
  safe_call _ _

@[simp] theorem safe_auditSelectEvents 
    {Q : History AuditIo → Except AuditError (List String) → Prop} :
    Safe A G Q AuditIo.selectEvents.run h ↔
      G h .selectEvents ∧ ∀ r, A h ⟨.selectEvents, r⟩ → Q (⟨.selectEvents, r⟩ :: h) r :=
  safe_call _ _

@[simp] theorem safe_auditInsertConsumption {key : ApprovalKey} {consumedAt : ℕ}
    {Q : History AuditIo → Except AuditError Unit → Prop} :
    Safe A G Q (AuditIo.insertConsumption key consumedAt).run h ↔
      G h (.insertConsumption key consumedAt) ∧
        ∀ r, A h ⟨.insertConsumption key consumedAt, r⟩ →
          Q (⟨.insertConsumption key consumedAt, r⟩ :: h) r :=
  safe_call _ _

@[simp] theorem safe_auditSelectLast 
    {Q : History AuditIo → Except AuditError (Option (Int64 × String)) → Prop} :
    Safe A G Q AuditIo.selectLast.run h ↔
      G h .selectLast ∧ ∀ r, A h ⟨.selectLast, r⟩ → Q (⟨.selectLast, r⟩ :: h) r :=
  safe_call _ _

@[simp] theorem safe_auditSelectRows {Q : History AuditIo → Except AuditError (List Row) → Prop} :
    Safe A G Q AuditIo.selectRows.run h ↔
      G h .selectRows ∧ ∀ r, A h ⟨.selectRows, r⟩ → Q (⟨.selectRows, r⟩ :: h) r :=
  safe_call _ _

@[simp] theorem safe_auditReadJsonl 
    {Q : History AuditIo → Except AuditError (Option (List UInt8)) → Prop} :
    Safe A G Q AuditIo.readJsonl.run h ↔
      G h .readJsonl ∧ ∀ r, A h ⟨.readJsonl, r⟩ → Q (⟨.readJsonl, r⟩ :: h) r :=
  safe_call _ _

@[simp] theorem safe_auditInsert {record : AuditRecord}
    {Q : History AuditIo → Except AuditError Unit → Prop} :
    Safe A G Q (AuditIo.insert record).run h ↔
      G h (.insert record) ∧ ∀ r, A h ⟨.insert record, r⟩ → Q (⟨.insert record, r⟩ :: h) r :=
  safe_call _ _

@[simp] theorem safe_auditWrite {bytes : List UInt8}
    {Q : History AuditIo → Except AuditError Unit → Prop} :
    Safe A G Q (AuditIo.write bytes).run h ↔
      G h (.write bytes) ∧ ∀ r, A h ⟨.write bytes, r⟩ → Q (⟨.write bytes, r⟩ :: h) r :=
  safe_call _ _

@[simp] theorem safe_auditSync {Q : History AuditIo → Except AuditError Unit → Prop} :
    Safe A G Q AuditIo.sync.run h ↔
      G h .sync ∧ ∀ r, A h ⟨.sync, r⟩ → Q (⟨.sync, r⟩ :: h) r :=
  safe_call _ _

@[simp] theorem safe_auditCommit {record : AuditRecord}
    {Q : History AuditIo → Except AuditError Unit → Prop} :
    Safe A G Q (AuditIo.commit record).run h ↔
      G h (.commit record) ∧ ∀ r, A h ⟨.commit record, r⟩ → Q (⟨.commit record, r⟩ :: h) r :=
  safe_call _ _

end Rules

/-! ### The system -/

/-- An event whose numbers are of 64 bits. -/
abbrev FittingEvent := { event : AuditEvent // event.Fits }

/-- What can be called on a handle. -/
inductive LedgerEntry
  | openFiles
  | append (handle : LedgerHandle) (event : FittingEvent)
  | verifyIntegrity

inductive LedgerResult
  | opened (result : Except AuditError LedgerHandle)
  | appended (result : Except AuditError (AuditRecord × LedgerHandle))
  | verified (result : Except AuditError Unit)

/-- The operations on shared files, if nothing fails and the lock is acquired
only while nobody has it. -/
def AuditFiles.Commits (files : AuditFiles) (e : Event AuditIo) (files' : AuditFiles) : Prop :=
  (e = ⟨.acquire, Except.ok ()⟩ → files.lock = none) ∧
    ∃ nowUnixMs, files.answer nowUnixMs e.op = (e.reply, files')

/-- The program of a call. -/
def LedgerEntry.body (P : Primitives) (R : LedgerReader) :
    LedgerEntry → Program AuditIo LedgerResult
  | .openFiles => .opened <$> (LedgerHandle.openFiles R).run
  | .append handle event => .appended <$> (LedgerHandle.append P R handle event.val).run
  | .verifyIntegrity => .verified <$> (LedgerHandle.verifyIntegrity P R).run

/-- Any number of handles over the same two files. -/
def ledgerSystem (P : Primitives) (R : LedgerReader) : System AuditIo where
  State := AuditFiles
  Entry := LedgerEntry
  Result := LedgerResult
  body := LedgerEntry.body P R
  Commit := AuditFiles.Commits

end VorCommander
