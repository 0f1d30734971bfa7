import VorCommander.Audit.Ledger
import VorCommander.Steps.Schedule
import VorCommander.Text.Lines

/-!
The lock file of the ledger.

A process holds the lock of a ledger while a file that it created exists. The
file contains the time of its creation, so that a lock can be taken over from a
process that died. All steps of acquiring and releasing are operations on the
file system, and those of other processes come in between any two of them.
Each file has an identity, which no program looks at: a file with the name of
one that was removed is another file.
-/

namespace VorCommander

open Crypto Steps Steps.Program Text

/-! ### Operations -/

inductive CreateReply
  | created (file : ℕ)
  | alreadyExists
  | transient
  | failed
  deriving DecidableEq

inductive ReadReply
  | found (file : ℕ) (content : List UInt8)
  | notFound
  | transient
  | failed
  deriving DecidableEq

inductive RemoveReply
  | removed (file : ℕ)
  | notFound
  | transient
  | failed
  deriving DecidableEq

/-- The steps of a process that uses the lock; `work` is one of those it makes
while it is inside. -/
inductive LockOp
  | createNew
  | clock
  | writeTimestamp (file unixMs : ℕ)
  | sync (file : ℕ)
  | read
  | remove
  | work
  deriving DecidableEq

@[reducible] def LockOp.Reply : LockOp → Type
  | .createNew => CreateReply
  | .clock => Except AuditError ℕ
  | .writeTimestamp _ _ => Except AuditError Unit
  | .sync _ => Except AuditError Unit
  | .read => ReadReply
  | .remove => RemoveReply
  | .work => Unit

/-- The interface of the lock file. -/
abbrev LockFile : Interface := ⟨LockOp, LockOp.Reply⟩

abbrev LockM (α : Type) := ExceptT AuditError (Program LockFile) α

namespace LockFile

def createNew : LockM CreateReply := ExceptT.lift (perform (I := LockFile) .createNew)

def clock : LockM ℕ := attempt (perform (I := LockFile) .clock)

def writeTimestamp (file unixMs : ℕ) : LockM Unit :=
  attempt (perform (I := LockFile) (.writeTimestamp file unixMs))

def sync (file : ℕ) : LockM Unit := attempt (perform (I := LockFile) (.sync file))

def read : LockM ReadReply := ExceptT.lift (perform (I := LockFile) .read)

def remove : LockM RemoveReply := ExceptT.lift (perform (I := LockFile) .remove)

def work : LockM Unit := ExceptT.lift (perform (I := LockFile) .work)

end LockFile

/-! ### Programs -/

/-- `LOCK_RETRY_ATTEMPTS`. -/
def lockRetryAttempts : ℕ := 3000

/-- `ABANDONED_LOCK_AGE`, in milliseconds. -/
def abandonedLockAge : ℕ := 30000

/-- What is written into a new lock file. -/
def timestampLine (unixMs : ℕ) : List UInt8 := utf8 (String.ofList (encodeNat unixMs ++ ['\n']))

/-- The time that the content of a lock file states, unless it is not UTF-8. -/
def statedTime (content : List UInt8) : Except AuditError (Option ℕ) := do
  let text ← orFail (fromUtf8 content) .io
  return parseU64 (trim text)

theorem statedTime_timestampLine (unixMs : ℕ) :
    statedTime (timestampLine unixMs) = .ok (if unixMs < 2 ^ 64 then some unixMs else none) := by
  rw [statedTime, timestampLine, fromUtf8_utf8, orFail_some, ok_bind,
    trim_encodeNat_append unixMs (by decide), parseU64_encodeNat]
  rfl

/-- A lock file without content states no time. -/
theorem statedTime_nil : statedTime [] = .ok none := by
  have hempty : ([] : List UInt8) = utf8 "" := rfl
  rw [statedTime, hempty, fromUtf8_utf8, orFail_some, ok_bind]
  rfl

namespace LedgerFileLock

/-- `lock_is_abandoned`. -/
def lockIsAbandoned : LockM Bool := do
  match ← LockFile.read with
  | .notFound => return false
  | .transient => return false
  | .failed => throw .io
  | .found _ content => do
      match ← check (statedTime content) with
      | none => return false
      | some createdAt => do
          let now ← LockFile.clock
          return decide (abandonedLockAge ≤ now - createdAt)

/-- `LedgerFileLock::acquire_with_retry`. -/
def acquireWithRetry : ℕ → LockM ℕ
  | 0 => throw .lockTimeout
  | attempts + 1 => do
      match ← LockFile.createNew with
      | .created file => do
          let now ← LockFile.clock
          LockFile.writeTimestamp file now
          LockFile.sync file
          return file
      | .alreadyExists => do
          if ← lockIsAbandoned then
            match ← LockFile.remove with
            | .failed => throw .io
            | _ => acquireWithRetry attempts
          else acquireWithRetry attempts
      | .transient => acquireWithRetry attempts
      | .failed => throw .io

/-- `LedgerFileLock::acquire`. -/
def acquire : LockM ℕ := acquireWithRetry lockRetryAttempts

/-- `remove_lock_file`. -/
def removeLockFile : ℕ → LockM Unit
  | 0 => throw .lockTimeout
  | attempts + 1 => do
      match ← LockFile.remove with
      | .removed _ => return ()
      | .notFound => return ()
      | .transient => removeLockFile attempts
      | .failed => throw .io

/-- `LedgerFileLock::release`. -/
def release : LockM Unit := removeLockFile lockRetryAttempts

/-- What a process does inside of the lock. -/
def inside : ℕ → LockM Unit
  | 0 => return ()
  | steps + 1 => do
      LockFile.work
      inside steps

/-- One use of the lock. -/
def use (steps : ℕ) : LockM Unit := do
  let _ ← acquire
  inside steps
  release

end LedgerFileLock

/-! ### Rules -/

section Rules

variable {A : History LockFile → Event LockFile → Prop}
  {G : History LockFile → LockFile.Op → Prop} {h : History LockFile}

@[simp] theorem safe_createNew {Q : History LockFile → Except AuditError CreateReply → Prop} :
    Safe A G Q LockFile.createNew.run h ↔
      G h .createNew ∧ ∀ r, A h ⟨.createNew, r⟩ → Q (⟨.createNew, r⟩ :: h) (.ok r) :=
  safe_call _ _

@[simp] theorem safe_lockClock {Q : History LockFile → Except AuditError ℕ → Prop} :
    Safe A G Q LockFile.clock.run h ↔
      G h .clock ∧ ∀ r, A h ⟨.clock, r⟩ → Q (⟨.clock, r⟩ :: h) r :=
  safe_call _ _

@[simp] theorem safe_writeTimestamp {file unixMs : ℕ}
    {Q : History LockFile → Except AuditError Unit → Prop} :
    Safe A G Q (LockFile.writeTimestamp file unixMs).run h ↔
      G h (.writeTimestamp file unixMs) ∧
        ∀ r, A h ⟨.writeTimestamp file unixMs, r⟩ → Q (⟨.writeTimestamp file unixMs, r⟩ :: h) r :=
  safe_call _ _

@[simp] theorem safe_sync {file : ℕ} {Q : History LockFile → Except AuditError Unit → Prop} :
    Safe A G Q (LockFile.sync file).run h ↔
      G h (.sync file) ∧ ∀ r, A h ⟨.sync file, r⟩ → Q (⟨.sync file, r⟩ :: h) r :=
  safe_call _ _

@[simp] theorem safe_read {Q : History LockFile → Except AuditError ReadReply → Prop} :
    Safe A G Q LockFile.read.run h ↔
      G h .read ∧ ∀ r, A h ⟨.read, r⟩ → Q (⟨.read, r⟩ :: h) (.ok r) :=
  safe_call _ _

@[simp] theorem safe_remove {Q : History LockFile → Except AuditError RemoveReply → Prop} :
    Safe A G Q LockFile.remove.run h ↔
      G h .remove ∧ ∀ r, A h ⟨.remove, r⟩ → Q (⟨.remove, r⟩ :: h) (.ok r) :=
  safe_call _ _

@[simp] theorem safe_work {Q : History LockFile → Except AuditError Unit → Prop} :
    Safe A G Q LockFile.work.run h ↔
      G h .work ∧ ∀ r, A h ⟨.work, r⟩ → Q (⟨.work, r⟩ :: h) (.ok r) :=
  safe_call _ _

end Rules

/-! ### What a process has done -/

/-- The file a process created and has not removed since. -/
def ownedFile : History LockFile → Option ℕ
  | [] => none
  | ⟨.createNew, .created file⟩ :: _ => some file
  | ⟨.remove, .removed _⟩ :: _ => none
  | ⟨.remove, .notFound⟩ :: _ => none
  | _ :: h => ownedFile h

/-- The time a process wrote into the file it created. -/
def writtenTime : History LockFile → Option ℕ
  | [] => none
  | ⟨.createNew, .created _⟩ :: _ => none
  | ⟨.writeTimestamp _ unixMs, _⟩ :: _ => some unixMs
  | _ :: h => writtenTime h

/-- The file whose content a process read last. -/
def lastRead : History LockFile → Option ℕ
  | [] => none
  | ⟨.read, .found file _⟩ :: _ => some file
  | _ :: h => lastRead h

/-- The event of a creation. -/
def created (file : ℕ) : Event LockFile := ⟨.createNew, CreateReply.created file⟩

/-- A process that has not created a file. -/
def Waiting (h : History LockFile) : Prop := ∀ file, created file ∉ h

/-- A process that has just found an abandoned lock. -/
def FoundAbandoned (h : History LockFile) : Prop :=
  ∃ file content createdAt now earlier,
    h = ⟨.clock, Except.ok now⟩ :: ⟨.read, ReadReply.found file content⟩ :: earlier ∧
      statedTime content = .ok (some createdAt) ∧ abandonedLockAge ≤ now - createdAt

/-- What the programs guarantee of each operation they perform. -/
def LockGuarantee (h : History LockFile) : LockOp → Prop
  | .createNew => Waiting h
  | .writeTimestamp file unixMs =>
      ∃ earlier, h = ⟨.clock, Except.ok unixMs⟩ :: created file :: earlier
  | .remove => (∃ file, ownedFile h = some file) ∨ Waiting h ∧ FoundAbandoned h
  | _ => True

theorem Waiting.cons {h : History LockFile} {e : Event LockFile} (hw : Waiting h)
    (he : ∀ file, e ≠ created file) : Waiting (e :: h) := by
  intro file hmem
  rcases List.mem_cons.mp hmem with heq | hmem
  · exact he file heq.symm
  · exact hw file hmem

theorem created_mem_of_ownedFile {h : History LockFile} {file : ℕ}
    (howned : ownedFile h = some file) :
    created file ∈ h := by
  induction h using ownedFile.induct <;> simp_all [ownedFile, created]

theorem Waiting.ownedFile {h : History LockFile} (hw : Waiting h) : ownedFile h = none := by
  rw [Option.eq_none_iff_forall_ne_some]
  intro file howned
  exact hw file (created_mem_of_ownedFile howned)

/-! ### Guarantees -/

section Guarantees

/-- Nothing is assumed of the replies. -/
abbrev AnyAnswer (_ : History LockFile) (_ : Event LockFile) : Prop := True

abbrev GuaranteesLock {α : Type} (p : LockM α) (h : History LockFile)
    (Q : History LockFile → Except AuditError α → Prop) : Prop :=
  Safe AnyAnswer LockGuarantee Q p.run h

open LedgerFileLock

theorem guarantees_lockIsAbandoned {h : History LockFile} (hw : Waiting h) :
    GuaranteesLock lockIsAbandoned h fun h' r => Waiting h' ∧
      (r = .ok true → FoundAbandoned h') := by
  simp only [GuaranteesLock, lockIsAbandoned, safe_exceptT_bind, safe_read, then_ok]
  refine ⟨trivial, fun reply _ => ?_⟩
  have hread : ∀ reply, Waiting (⟨.read, reply⟩ :: h) := fun reply =>
    hw.cons (by simp [created])
  cases reply with
  | notFound => exact (safe_exceptT_pure _).mpr ⟨hread _, by simp⟩
  | transient => exact (safe_exceptT_pure _).mpr ⟨hread _, by simp⟩
  | failed => exact (safe_exceptT_throw _).mpr ⟨hread _, by simp⟩
  | found file content =>
      simp only [safe_exceptT_bind, safe_check]
      cases hstated : statedTime content with
      | error e => exact ⟨hread _, by simp⟩
      | ok stated =>
          cases stated with
          | none => exact (safe_exceptT_pure _).mpr ⟨hread _, by simp⟩
          | some createdAt =>
              simp only [then_ok, safe_exceptT_bind, safe_lockClock]
              refine ⟨trivial, fun reply _ => ?_⟩
              have hclock : Waiting (⟨.clock, reply⟩ :: ⟨.read, .found file content⟩ :: h) :=
                (hread _).cons (by simp [created])
              cases reply with
              | error e => exact ⟨hclock, by simp⟩
              | ok now =>
                  refine (safe_exceptT_pure _).mpr ⟨hclock, fun hold => ?_⟩
                  have hage : abandonedLockAge ≤ now - createdAt := by simpa using hold
                  exact ⟨file, content, createdAt, now, h, rfl, hstated, hage⟩

/-- A process that acquired the lock has just created a file. -/
theorem guarantees_acquireWithRetry (attempts : ℕ) {h : History LockFile} (hw : Waiting h) :
    GuaranteesLock (acquireWithRetry attempts) h fun h' r =>
      ∀ file, r = .ok file → ownedFile h' = some file := by
  induction attempts generalizing h with
  | zero => exact (safe_exceptT_throw _).mpr (by simp)
  | succ attempts ih =>
      simp only [GuaranteesLock, acquireWithRetry, safe_exceptT_bind, safe_createNew, then_ok]
      refine ⟨hw, fun reply _ => ?_⟩
      cases reply with
      | failed => exact (safe_exceptT_throw _).mpr (by simp)
      | transient => exact ih (hw.cons (by simp [created]))
      | alreadyExists =>
          have hexists : Waiting (⟨.createNew, .alreadyExists⟩ :: h) := hw.cons (by simp [created])
          simp only [safe_exceptT_bind]
          refine (guarantees_lockIsAbandoned hexists).mono ?_
          rintro h' (e | abandoned) ⟨hw', hfound⟩
          · simp
          cases abandoned with
          | false => exact ih hw'
          | true =>
              simp only [then_ok, if_true, safe_exceptT_bind, safe_remove]
              refine ⟨.inr ⟨hw', hfound rfl⟩, fun reply _ => ?_⟩
              have hremove : Waiting (⟨.remove, reply⟩ :: h') := hw'.cons (by simp [created])
              cases reply with
              | failed => exact (safe_exceptT_throw _).mpr (by simp)
              | removed file => exact ih hremove
              | notFound => exact ih hremove
              | transient => exact ih hremove
      | created file =>
          simp only [safe_exceptT_bind, safe_lockClock]
          refine ⟨trivial, fun reply _ => ?_⟩
          cases reply with
          | error e => simp
          | ok now =>
              simp only [then_ok, safe_exceptT_bind, safe_writeTimestamp]
              refine ⟨⟨h, rfl⟩, fun reply _ => ?_⟩
              cases reply with
              | error e => simp
              | ok _ =>
                  simp only [then_ok, safe_exceptT_bind, safe_sync]
                  refine ⟨trivial, fun reply _ => ?_⟩
                  cases reply with
                  | error e => simp
                  | ok _ =>
                      refine (safe_exceptT_pure _).mpr fun file' hfile => ?_
                      obtain rfl := Except.ok.inj hfile
                      rfl

theorem guarantees_inside (steps : ℕ) {h : History LockFile} {file : ℕ}
    (howned : ownedFile h = some file) :
    GuaranteesLock (inside steps) h fun h' r => r = .ok () → ownedFile h' = some file := by
  induction steps generalizing h with
  | zero => exact (safe_exceptT_pure _).mpr fun _ => howned
  | succ steps ih =>
      simp only [GuaranteesLock, inside, safe_exceptT_bind, safe_work, then_ok]
      exact ⟨trivial, fun _ _ => ih howned⟩

theorem guarantees_removeLockFile (attempts : ℕ) {h : History LockFile} {file : ℕ}
    (howned : ownedFile h = some file) :
    GuaranteesLock (removeLockFile attempts) h fun _ _ => True := by
  induction attempts generalizing h with
  | zero => exact (safe_exceptT_throw _).mpr trivial
  | succ attempts ih =>
      simp only [GuaranteesLock, removeLockFile, safe_exceptT_bind, safe_remove, then_ok]
      refine ⟨.inl ⟨file, howned⟩, fun reply _ => ?_⟩
      cases reply with
      | removed _ => exact (safe_exceptT_pure _).mpr trivial
      | notFound => exact (safe_exceptT_pure _).mpr trivial
      | transient => exact ih howned
      | failed => exact (safe_exceptT_throw _).mpr trivial

theorem guarantees_use (steps : ℕ) : GuaranteesLock (use steps) [] fun _ _ => True := by
  have hw : Waiting [] := by simp [Waiting]
  simp only [GuaranteesLock, use, safe_exceptT_bind]
  refine (guarantees_acquireWithRetry lockRetryAttempts hw).mono ?_
  rintro h' (e | file) howned
  · trivial
  · simp only [then_ok, safe_exceptT_bind]
    refine (guarantees_inside steps (howned file rfl)).mono ?_
    rintro h'' (e | u) hstill
    · trivial
    · exact guarantees_removeLockFile lockRetryAttempts (hstill rfl)

end Guarantees

end VorCommander
