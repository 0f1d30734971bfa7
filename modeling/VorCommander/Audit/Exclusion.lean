import VorCommander.Audit.LockFile

/-!
Who is inside of the lock.

Any number of processes use the lock of one ledger, each of them dies or goes
on. The file system answers every step at once, time passes between the steps,
and a lock file may have been left behind before the first of them. A process
that waits removes a lock file in the belief that its owner is dead. It found
that belief in a file that it read before; the file that it removes need not be
that one.
-/

namespace VorCommander

open Crypto Steps Steps.Program Steps.World Text

/-- How many files there have been, the lock file and its content, and the
time. -/
structure LockFiles where
  files : ℕ
  lock : Option (ℕ × List UInt8)
  nowUnixMs : ℕ

/-- Writing to the end of an open file, which may have been removed since. -/
def LockFiles.write (s : LockFiles) (file : ℕ) (bytes : List UInt8) : LockFiles :=
  match s.lock with
  | some (current, content) =>
      if current = file then { s with lock := some (current, content ++ bytes) } else s
  | none => s

/-- What the file system answers, and what it has done. -/
def LockFiles.answer (s : LockFiles) : (op : LockOp) → op.Reply × LockFiles
  | .createNew =>
      match s.lock with
      | none => (.created s.files, { s with files := s.files + 1, lock := some (s.files, []) })
      | some _ => (.alreadyExists, s)
  | .clock => (.ok s.nowUnixMs, s)
  | .writeTimestamp file unixMs => (.ok (), s.write file (timestampLine unixMs))
  | .sync _ => (.ok (), s)
  | .read =>
      match s.lock with
      | none => (.notFound, s)
      | some (file, content) => (.found file content, s)
  | .remove =>
      match s.lock with
      | none => (.notFound, s)
      | some (file, _) => (.removed file, { s with lock := none })
  | .work => ((), s)

/-- Time passes, and the next step is made. -/
def LockFiles.Commits (s : LockFiles) (e : Event LockFile) (s' : LockFiles) : Prop :=
  ∃ now, s.nowUnixMs ≤ now ∧ { s with nowUnixMs := now }.answer e.op = (e.reply, s')

/-- The processes that use one lock, each with the number of steps it makes
inside. -/
def lockSystem : System LockFile where
  State := LockFiles
  Entry := ℕ
  Result := Except AuditError Unit
  body steps := (LedgerFileLock.use steps).run
  Commit := LockFiles.Commits

/-- A directory in which a dead process may have left a lock file. -/
def LeftBehind (s : LockFiles) : Prop :=
  ∀ file content, s.lock = some (file, content) → file < s.files

/-- The process of this call is alive and holds a file that it created. -/
def Holds (w : World lockSystem) (i file : ℕ) : Prop :=
  ∃ c, w.calls i = some c ∧ c.rest ≠ none ∧ ownedFile (w.log.of i) = some file

/-- No process that is alive has held its file for so long that the file counts
as abandoned. -/
def Timely (w : World lockSystem) : Prop :=
  ∀ i file unixMs, Holds w i file → writtenTime (w.log.of i) = some unixMs →
    w.shared.nowUnixMs < unixMs + abandonedLockAge

/-- Every file that a waiting process removed was the one it had read. -/
def RemovesWhatItRead : Log LockFile → Prop
  | [] => True
  | (i, e) :: log =>
      (∀ file, e = ⟨.remove, RemoveReply.removed file⟩ → Waiting (Log.of log i) →
        lastRead (Log.of log i) = some file) ∧ RemovesWhatItRead log

/-- At most one process holds the lock. -/
def Exclusive (w : World lockSystem) : Prop :=
  ∀ i j file file', Holds w i file → Holds w j file' → i = j

/-- Every file that was removed had been created by the process that removed
it, or its process is dead. -/
def RemovesOwnOrDead (w : World lockSystem) : Prop :=
  ∀ i file, (i, ⟨.remove, RemoveReply.removed file⟩) ∈ w.log →
    (i, created file) ∈ w.log ∨
      ∀ j c, (j, created file) ∈ w.log → w.calls j = some c → c.rest = none

/-! ### Files -/

/-- What the lock file knows of the log. -/
structure LockInvariant (s : LockFiles) (log : Log LockFile) : Prop where
  fresh : ∀ file content, s.lock = some (file, content) → file < s.files
  created_lt : ∀ i file, (i, created file) ∈ log → file < s.files
  read_lt : ∀ i file content, (i, ⟨.read, ReadReply.found file content⟩) ∈ log → file < s.files
  removed_lt : ∀ i file, (i, ⟨.remove, RemoveReply.removed file⟩) ∈ log → file < s.files
  once : ∀ i j file, (i, created file) ∈ log → (j, created file) ∈ log → i = j
  unreleased : ∀ i file content, s.lock = some (file, content) → (i, created file) ∈ log →
    ownedFile (log.of i) = some file
  written : ∀ i file content, s.lock = some (file, content) → (i, created file) ∈ log →
    content = (writtenTime (log.of i)).elim [] timestampLine
  readWritten : ∀ i j file content, (i, ⟨.read, ReadReply.found file content⟩) ∈ log →
    (j, created file) ∈ log →
      content = [] ∨ ∃ unixMs, writtenTime (log.of j) = some unixMs ∧ content = timestampLine unixMs
  clock : ∀ i now, (i, ⟨.clock, Except.ok now⟩) ∈ log → now ≤ s.nowUnixMs

/-- An event that says nothing new of files. -/
structure Quiet (s : LockFiles) (e : Event LockFile) : Prop where
  owned : ∀ h, s.lock = none ∨ ownedFile (e :: h) = ownedFile h
  written : ∀ h, writtenTime (e :: h) = writtenTime h
  created : ∀ file, e ≠ created file
  read : ∀ file content, e = ⟨.read, ReadReply.found file content⟩ →
    s.lock = some (file, content)
  removed : ∀ file, e = ⟨.remove, RemoveReply.removed file⟩ → file < s.files
  clock : ∀ now, e = ⟨.clock, Except.ok now⟩ → now ≤ s.nowUnixMs

namespace LockInvariant

variable {s s' : LockFiles} {log : Log LockFile} {i : ℕ} {e : Event LockFile}

theorem of_nil (hs : LeftBehind s) : LockInvariant s [] where
  fresh := hs
  created_lt := by simp
  read_lt := by simp
  removed_lt := by simp
  once := by simp
  unreleased := by simp
  written := by simp
  readWritten := by simp
  clock := by simp

theorem later (h : LockInvariant s log) {now : ℕ} (hnow : s.nowUnixMs ≤ now) :
    LockInvariant { s with nowUnixMs := now } log :=
  { h with clock := fun i time hmem => (h.clock i time hmem).trans hnow }

theorem quiet (h : LockInvariant s log) (he : Quiet s e) : LockInvariant s ((i, e) :: log) := by
  have hcreated : ∀ j file, (j, VorCommander.created file) ∈ (i, e) :: log →
      (j, VorCommander.created file) ∈ log := by
    intro j file hmem
    rcases List.mem_cons.mp hmem with heq | hmem
    · exact absurd (Prod.mk.inj heq).2.symm (he.created file)
    · exact hmem
  have hwritten : ∀ j, writtenTime (Log.of ((i, e) :: log) j) = writtenTime (log.of j) := by
    intro j
    by_cases hj : i = j
    · subst hj
      rw [Log.of_cons_self, he.written]
    · rw [Log.of_cons_ne log e hj]
  constructor
  · exact h.fresh
  · exact fun j file hmem => h.created_lt j file (hcreated j file hmem)
  · intro j file content hmem
    rcases List.mem_cons.mp hmem with heq | hmem
    · exact h.fresh file content (he.read file content (Prod.mk.inj heq).2.symm)
    · exact h.read_lt j file content hmem
  · intro j file hmem
    rcases List.mem_cons.mp hmem with heq | hmem
    · exact he.removed file (Prod.mk.inj heq).2.symm
    · exact h.removed_lt j file hmem
  · exact fun j k file hj hk => h.once j k file (hcreated j file hj) (hcreated k file hk)
  · intro j file content hlock hmem
    have hold := h.unreleased j file content hlock (hcreated j file hmem)
    by_cases hj : i = j
    · subst hj
      rw [Log.of_cons_self]
      rcases he.owned (log.of i) with hnone | howned
      · rw [hlock] at hnone
        cases hnone
      · rw [howned, hold]
    · rw [Log.of_cons_ne log e hj, hold]
  · intro j file content hlock hmem
    rw [hwritten]
    exact h.written j file content hlock (hcreated j file hmem)
  · intro j k file content hread hmem
    rw [hwritten]
    rcases List.mem_cons.mp hread with heq | hread
    · -- what is read is what has been written
      have hlock := he.read file content (Prod.mk.inj heq).2.symm
      have hcontent := h.written k file content hlock (hcreated k file hmem)
      cases htime : writtenTime (log.of k) with
      | none => exact .inl (by rw [hcontent, htime]; rfl)
      | some unixMs => exact .inr ⟨unixMs, rfl, by rw [hcontent, htime]; rfl⟩
    · exact h.readWritten j k file content hread (hcreated k file hmem)
  · intro j now hmem
    rcases List.mem_cons.mp hmem with heq | hmem
    · exact he.clock now (Prod.mk.inj heq).2.symm
    · exact h.clock j now hmem

/-- The lock file may be gone. -/
theorem gone (h : LockInvariant s log) : LockInvariant { s with lock := none } log :=
  { h with
    fresh := by simp
    unreleased := by simp
    written := by simp }

/-- A process that waits creates the next file. -/
theorem create (h : LockInvariant s log) (hwaiting : Waiting (log.of i)) :
    LockInvariant { s with files := s.files + 1, lock := some (s.files, []) }
      ((i, VorCommander.created s.files) :: log) := by
  -- who waits has created none of the files, and the new one is numbered above them
  have hold : ∀ j file, (j, VorCommander.created file) ∈ log → j ≠ i := by
    rintro j file hmem rfl
    exact hwaiting file (Log.mem_of.mpr hmem)
  have hcreated : ∀ j file,
      (j, VorCommander.created file) ∈ (i, VorCommander.created s.files) :: log →
      j = i ∧ file = s.files ∨ (j, VorCommander.created file) ∈ log := by
    intro j file hmem
    rcases List.mem_cons.mp hmem with heq | hmem
    · obtain ⟨rfl, hevent⟩ := Prod.mk.inj heq
      exact .inl ⟨rfl, by simpa [VorCommander.created] using hevent⟩
    · exact .inr hmem
  constructor
  · intro file content hlock
    obtain ⟨rfl, -⟩ : s.files = file ∧ [] = content := by simpa using hlock
    exact Nat.lt_succ_self _
  · intro j file hmem
    rcases hcreated j file hmem with ⟨-, rfl⟩ | hmem
    · exact Nat.lt_succ_self _
    · exact (h.created_lt j file hmem).trans (Nat.lt_succ_self _)
  · intro j file content hmem
    have hmem : (j, ⟨.read, ReadReply.found file content⟩) ∈ log := by
      simpa [VorCommander.created] using hmem
    exact (h.read_lt j file content hmem).trans (Nat.lt_succ_self _)
  · intro j file hmem
    have hmem : (j, ⟨.remove, RemoveReply.removed file⟩) ∈ log := by
      simpa [VorCommander.created] using hmem
    exact (h.removed_lt j file hmem).trans (Nat.lt_succ_self _)
  · intro j k file hj hk
    have hlt : ∀ l, (l, VorCommander.created file) ∈ log → file < s.files :=
      fun l hl => h.created_lt l file hl
    rcases hcreated j file hj with ⟨hji, hfile⟩ | hj' <;>
      rcases hcreated k file hk with ⟨hki, hfile'⟩ | hk'
    · rw [hji, hki]
    · exact absurd (hlt k hk') (by omega)
    · exact absurd (hlt j hj') (by omega)
    · exact h.once j k file hj' hk'
  · intro j file content hlock hmem
    obtain ⟨rfl, -⟩ : s.files = file ∧ [] = content := by simpa using hlock
    rcases hcreated j s.files hmem with ⟨rfl, -⟩ | hmem
    · rw [Log.of_cons_self]
      rfl
    · exact absurd (h.created_lt j s.files hmem) (Nat.lt_irrefl _)
  · intro j file content hlock hmem
    obtain ⟨rfl, rfl⟩ : s.files = file ∧ [] = content := by simpa using hlock
    rcases hcreated j s.files hmem with ⟨rfl, -⟩ | hmem
    · rw [Log.of_cons_self]
      rfl
    · exact absurd (h.created_lt j s.files hmem) (Nat.lt_irrefl _)
  · intro j k file content hread hmem
    have hearlier : (j, ⟨.read, ReadReply.found file content⟩) ∈ log := by
      simpa [VorCommander.created] using hread
    have hlt := h.read_lt j file content hearlier
    rcases hcreated k file hmem with ⟨-, hfile⟩ | hmem
    · omega
    · rw [Log.of_cons_ne _ _ (hold k file hmem).symm]
      exact h.readWritten j k file content hearlier hmem
  · intro j now hmem
    have hmem : (j, ⟨.clock, Except.ok now⟩) ∈ log := by
      simpa [VorCommander.created] using hmem
    exact h.clock j now hmem

theorem write_files (file : ℕ) (bytes : List UInt8) : (s.write file bytes).files = s.files := by
  rw [LockFiles.write]
  split
  · split <;> rfl
  · rfl

theorem write_now (file : ℕ) (bytes : List UInt8) :
    (s.write file bytes).nowUnixMs = s.nowUnixMs := by
  rw [LockFiles.write]
  split
  · split <;> rfl
  · rfl

/-- What is in the lock file after a file was written to. -/
theorem write_lock {file current : ℕ} {bytes content : List UInt8}
    (hlock : (s.write file bytes).lock = some (current, content)) :
    (current = file ∧ ∃ before, s.lock = some (current, before) ∧ content = before ++ bytes) ∨
      current ≠ file ∧ s.lock = some (current, content) := by
  cases hold : s.lock with
  | none =>
      rw [LockFiles.write, hold] at hlock
      simp [hold] at hlock
  | some lock =>
      obtain ⟨now, before⟩ := lock
      simp only [LockFiles.write, hold] at hlock
      split at hlock
      case isTrue heq =>
          obtain ⟨rfl, rfl⟩ : now = current ∧ before ++ bytes = content := by simpa using hlock
          exact .inl ⟨heq, before, rfl, rfl⟩
      case isFalse hne =>
          obtain ⟨rfl, rfl⟩ : now = current ∧ before = content := by simpa [hold] using hlock
          exact .inr ⟨hne, rfl⟩

/-- A process writes the time into the file that it has just created. -/
theorem writeTimestamp (h : LockInvariant s log) {file unixMs : ℕ} {earlier : History LockFile}
    (hshape : log.of i =
      ⟨.clock, Except.ok unixMs⟩ :: VorCommander.created file :: earlier) :
    LockInvariant (s.write file (timestampLine unixMs))
      ((i, ⟨.writeTimestamp file unixMs, Except.ok ()⟩) :: log) := by
  have hmine : (i, VorCommander.created file) ∈ log := by
    apply Log.mem_of.mp
    rw [hshape]
    simp
  have howned : ownedFile (log.of i) = some file := by rw [hshape]; rfl
  have hunwritten : writtenTime (log.of i) = none := by rw [hshape]; rfl
  have hcreated : ∀ {j f}, (j, VorCommander.created f) ∈
      (i, ⟨.writeTimestamp file unixMs, Except.ok ()⟩) :: log →
      (j, VorCommander.created f) ∈ log := by
    intro j f hmem
    simpa [VorCommander.created] using hmem
  constructor
  · intro current content hlock
    rw [write_files]
    rcases write_lock hlock with ⟨-, before, hold, -⟩ | ⟨-, hold⟩ <;> exact h.fresh _ _ hold
  · intro j f hmem
    rw [write_files]
    exact h.created_lt j f (hcreated hmem)
  · intro j f content hmem
    rw [write_files]
    exact h.read_lt j f content (by simpa using hmem)
  · intro j f hmem
    rw [write_files]
    exact h.removed_lt j f (by simpa using hmem)
  · exact fun j k f hj hk => h.once j k f (hcreated hj) (hcreated hk)
  · intro j current content hlock hmem
    have hold : ∃ content, s.lock = some (current, content) := by
      rcases write_lock hlock with ⟨-, before, hold, -⟩ | ⟨-, hold⟩ <;> exact ⟨_, hold⟩
    obtain ⟨before, hold⟩ := hold
    have hstill := h.unreleased j current before hold (hcreated hmem)
    by_cases hj : i = j
    · subst hj
      rw [Log.of_cons_self]
      exact hstill
    · rw [Log.of_cons_ne _ _ hj, hstill]
  · intro j current content hlock hmem
    by_cases hj : i = j
    · subst hj
      rw [Log.of_cons_self]
      rcases write_lock hlock with ⟨rfl, before, hold, rfl⟩ | ⟨hne, hold⟩
      · -- the file was empty
        have hbefore := h.written i current before hold hmine
        rw [hunwritten] at hbefore
        rw [hbefore]
        rfl
      · have hother := h.unreleased i current content hold (hcreated hmem)
        rw [howned] at hother
        exact absurd (Option.some.inj hother).symm hne
    · rw [Log.of_cons_ne _ _ hj]
      rcases write_lock hlock with ⟨rfl, before, hold, rfl⟩ | ⟨hne, hold⟩
      · exact absurd (h.once i j current hmine (hcreated hmem)) hj
      · exact h.written j current content hold (hcreated hmem)
  · intro j k f content hread hmem
    have hearlier : (j, ⟨.read, ReadReply.found f content⟩) ∈ log := by simpa using hread
    have hold := h.readWritten j k f content hearlier (hcreated hmem)
    by_cases hk : i = k
    · subst hk
      rw [hunwritten] at hold
      rcases hold with hempty | ⟨_, hnone, _⟩
      · exact .inl hempty
      · cases hnone
    · rw [Log.of_cons_ne _ _ hk]
      exact hold
  · intro j now hmem
    rw [write_now]
    exact h.clock j now (by simpa using hmem)

/-- The answer to an operation that a program performs. -/
theorem answer (h : LockInvariant s log) {op : LockOp} {reply : op.Reply}
    (hguarantee : LockGuarantee (log.of i) op) (hanswer : s.answer op = (reply, s')) :
    LockInvariant s' ((i, ⟨op, reply⟩) :: log) := by
  cases op with
  | createNew =>
      cases hlock : s.lock with
      | none =>
          simp only [LockFiles.answer, hlock] at hanswer
          obtain ⟨rfl, rfl⟩ := Prod.mk.inj hanswer
          exact h.create hguarantee
      | some lock =>
          simp only [LockFiles.answer, hlock] at hanswer
          obtain ⟨rfl, rfl⟩ := Prod.mk.inj hanswer
          apply h.quiet
          constructor <;> simp [ownedFile, writtenTime, VorCommander.created]
  | clock =>
      obtain ⟨rfl, rfl⟩ := Prod.mk.inj hanswer
      apply h.quiet
      constructor <;> simp [ownedFile, writtenTime, VorCommander.created]
  | writeTimestamp file unixMs =>
      obtain ⟨rfl, rfl⟩ := Prod.mk.inj hanswer
      obtain ⟨earlier, hshape⟩ := hguarantee
      exact h.writeTimestamp hshape
  | sync file =>
      obtain ⟨rfl, rfl⟩ := Prod.mk.inj hanswer
      apply h.quiet
      constructor <;> simp [ownedFile, writtenTime, VorCommander.created]
  | read =>
      cases hlock : s.lock with
      | none =>
          simp only [LockFiles.answer, hlock] at hanswer
          obtain ⟨rfl, rfl⟩ := Prod.mk.inj hanswer
          apply h.quiet
          constructor <;> simp [ownedFile, writtenTime, VorCommander.created]
      | some lock =>
          obtain ⟨file, content⟩ := lock
          simp only [LockFiles.answer, hlock] at hanswer
          obtain ⟨rfl, rfl⟩ := Prod.mk.inj hanswer
          apply h.quiet
          constructor <;> simp [ownedFile, writtenTime, VorCommander.created, hlock]
  | remove =>
      cases hlock : s.lock with
      | none =>
          simp only [LockFiles.answer, hlock] at hanswer
          obtain ⟨rfl, rfl⟩ := Prod.mk.inj hanswer
          apply h.quiet
          constructor <;> simp [writtenTime, VorCommander.created, hlock]
      | some lock =>
          obtain ⟨file, content⟩ := lock
          simp only [LockFiles.answer, hlock] at hanswer
          obtain ⟨rfl, rfl⟩ := Prod.mk.inj hanswer
          have hlt := h.fresh file content hlock
          apply h.gone.quiet
          constructor <;> simp [writtenTime, VorCommander.created, hlt]
  | work =>
      obtain ⟨rfl, rfl⟩ := Prod.mk.inj hanswer
      apply h.quiet
      constructor <;> simp [ownedFile, writtenTime, VorCommander.created]

end LockInvariant

theorem lockInvariant_of_reachable {w : World lockSystem} (hw : Reachable LeftBehind anyEntry w) :
    LockInvariant w.shared w.log := by
  refine hw.invariant_of_guarantee (J := LockInvariant) (fun steps => guarantees_use steps)
    (fun _ _ _ _ _ => trivial) (fun s hs => .of_nil hs) ?_
  intro _ s log i e s' h hguarantee hcommit
  obtain ⟨now, hnow, hanswer⟩ := hcommit
  exact (h.later hnow).answer hguarantee hanswer

/-! ### Owners -/

/-- The file of every process that holds the lock is the lock file. -/
def Held (w : World lockSystem) : Prop :=
  ∀ i file, Holds w i file → ∃ content, w.shared.lock = some (file, content)

theorem LockFiles.lock_of_answer {s s' : LockFiles} {op : LockOp} {reply : op.Reply} {file : ℕ}
    {content : List UInt8} (hlock : s.lock = some (file, content)) (hop : op ≠ .remove)
    (hanswer : s.answer op = (reply, s')) : ∃ content', s'.lock = some (file, content') := by
  cases op with
  | remove => exact absurd rfl hop
  | createNew =>
      simp only [LockFiles.answer, hlock] at hanswer
      obtain ⟨-, rfl⟩ := Prod.mk.inj hanswer
      exact ⟨content, hlock⟩
  | read =>
      simp only [LockFiles.answer, hlock] at hanswer
      obtain ⟨-, rfl⟩ := Prod.mk.inj hanswer
      exact ⟨content, hlock⟩
  | writeTimestamp file' unixMs =>
      obtain ⟨-, rfl⟩ := Prod.mk.inj hanswer
      rw [LockFiles.write, hlock]
      by_cases hfile : file = file'
      · simp [hfile]
      · simp [hfile, hlock]
  | clock | sync _ | work =>
      obtain ⟨-, rfl⟩ := Prod.mk.inj hanswer
      exact ⟨content, hlock⟩

/-- How a process comes to own a file. -/
theorem ownedFile_of_answer {s s' : LockFiles} {op : LockOp} {reply : op.Reply} {file : ℕ}
    {h : History LockFile} (hanswer : s.answer op = (reply, s'))
    (howned : ownedFile (⟨op, reply⟩ :: h) = some file) :
    s'.lock = some (file, []) ∨ op ≠ .remove ∧ ownedFile h = some file := by
  cases op with
  | createNew =>
      cases hlock : s.lock with
      | none =>
          simp only [LockFiles.answer, hlock] at hanswer
          obtain ⟨rfl, rfl⟩ := Prod.mk.inj hanswer
          obtain rfl : s.files = file := by simpa [ownedFile] using howned
          exact .inl rfl
      | some lock =>
          simp only [LockFiles.answer, hlock] at hanswer
          obtain ⟨rfl, rfl⟩ := Prod.mk.inj hanswer
          exact .inr ⟨by simp, howned⟩
  | remove =>
      cases hlock : s.lock with
      | none =>
          simp only [LockFiles.answer, hlock] at hanswer
          obtain ⟨rfl, rfl⟩ := Prod.mk.inj hanswer
          cases howned
      | some lock =>
          simp only [LockFiles.answer, hlock] at hanswer
          obtain ⟨rfl, rfl⟩ := Prod.mk.inj hanswer
          cases howned
  | clock | sync _ | work | writeTimestamp _ _ | read =>
    exact .inr ⟨by simp, by simpa [ownedFile] using howned⟩

section Owners

variable {w w' : World lockSystem}

/-- A file that was read and found abandoned is of a dead process. -/
theorem owner_dead (hw : Reachable LeftBehind anyEntry w) (htimely : Timely w) {i file : ℕ}
    {content : List UInt8} (hlock : w.shared.lock = some (file, content))
    (hfound : FoundAbandoned (w.log.of i)) (hread : lastRead (w.log.of i) = some file) :
    ∀ j c, (j, created file) ∈ w.log → w.calls j = some c → c.rest = none := by
  intro j c hcreated hc
  by_contra hlive
  have hinv := lockInvariant_of_reachable hw
  have hholds : Holds w j file := ⟨c, hc, hlive, hinv.unreleased j file content hlock hcreated⟩
  obtain ⟨file', found, createdAt, now, earlier, hshape, hstated, hage⟩ := hfound
  obtain rfl : file' = file := by
    rw [hshape] at hread
    simpa [lastRead] using hread
  have hmem : (i, ⟨.read, ReadReply.found file' found⟩) ∈ w.log := by
    apply Log.mem_of.mp
    rw [hshape]
    simp
  have hnow : now ≤ w.shared.nowUnixMs := by
    apply hinv.clock i now
    apply Log.mem_of.mp
    rw [hshape]
    simp
  rcases hinv.readWritten i j file' found hmem hcreated with rfl | ⟨unixMs, hwritten, rfl⟩
  · rw [statedTime_nil] at hstated
    cases hstated
  · rw [statedTime_timestampLine] at hstated
    obtain ⟨-, rfl⟩ : unixMs < 2 ^ 64 ∧ unixMs = createdAt := by simpa using hstated
    have hearly := htimely j file' unixMs hholds hwritten
    rw [abandonedLockAge] at hage hearly
    omega

/-- Who removes the lock file, and what is known of its owner then. -/
theorem remover (hw : Reachable LeftBehind anyEntry w) (htimely : Timely w) (hheld : Held w)
    {i file : ℕ} {c : Call lockSystem} {content : List UInt8}
    {next : RemoveReply → Program LockFile (Except AuditError Unit)}
    (hc : w.calls i = some c) (hrest : c.rest = some (.step .remove next))
    (hlock : w.shared.lock = some (file, content))
    (hread : Waiting (w.log.of i) → lastRead (w.log.of i) = some file) :
    (i, created file) ∈ w.log ∨
      ∀ j c, (j, created file) ∈ w.log → w.calls j = some c → c.rest = none := by
  have hguarantee := hw.guarantee_next (fun steps => guarantees_use steps) (allowed_true w.log) hc
    hrest
  rcases hguarantee with ⟨file', howned⟩ | ⟨hwaiting, hfound⟩
  · obtain ⟨content', hlock'⟩ := hheld i file' ⟨c, hc, by simp [hrest], howned⟩
    obtain ⟨rfl, -⟩ : file = file' ∧ content = content' := by simpa [hlock] using hlock'
    exact .inl (Log.mem_of.mp (created_mem_of_ownedFile howned))
  · exact .inr (owner_dead hw htimely hlock hfound (hread hwaiting))

/-- A process that does not move holds what it held. -/
theorem holds_of_commit_ne {i j file : ℕ} {c : Call lockSystem} {e : Event LockFile}
    {rest : Program LockFile (Except AuditError Unit)} {s : LockFiles} (hij : i ≠ j)
    (h : Holds (w.commit j c e rest s) i file) : Holds w i file := by
  obtain ⟨c', hc', hlive, howned⟩ := h
  refine ⟨c', by simpa [World.commit, hij] using hc', hlive, ?_⟩
  simpa [World.commit, Log.of_cons_ne _ _ (Ne.symm hij)] using howned

/-- One step of a run in which no file is removed for another one. -/
theorem held_step (hw : Reachable LeftBehind anyEntry w) (htimely : Timely w) (hheld : Held w)
    (hstep : Step anyEntry w w') (hremoves : RemovesWhatItRead w'.log) : Held w' := by
  have hinv := lockInvariant_of_reachable hw
  intro i file hholds
  cases hstep with
  | @start j entry hfresh _ =>
      obtain ⟨c, hc, hlive, howned⟩ := hholds
      have hcreated := Log.mem_of.mp (created_mem_of_ownedFile howned)
      obtain ⟨c', hc'⟩ := hw.consistent.started i _ hcreated
      have hij : i ≠ j := by
        rintro rfl
        rw [hfresh] at hc'
        cases hc'
      exact hheld i file ⟨c, by simpa [World.start, hij] using hc, hlive, howned⟩
  | @crash j c' hc' =>
      obtain ⟨c, hc, hlive, howned⟩ := hholds
      have hij : i ≠ j := by
        rintro rfl
        simp only [World.crash, Function.update_self, Option.some.injEq] at hc
        rw [← hc] at hlive
        exact hlive rfl
      exact hheld i file ⟨c, by simpa [World.crash, hij] using hc, hlive, howned⟩
  | @commit j c' op next reply s hc' hrest hcommit =>
      obtain ⟨now, _, hanswer⟩ := hcommit
      by_cases hij : i = j
      · subst hij
        obtain ⟨c, hc, hlive, howned⟩ := hholds
        change ownedFile (Log.of ((i, _) :: w.log) i) = some file at howned
        rw [Log.of_cons_self] at howned
        rcases ownedFile_of_answer hanswer howned with hlock | ⟨hop, hbefore⟩
        · exact ⟨[], hlock⟩
        · obtain ⟨content, hlock⟩ := hheld i file ⟨c', hc', by simp [hrest], hbefore⟩
          have hlater : ({ w.shared with nowUnixMs := now } : LockFiles).lock =
              some (file, content) := hlock
          exact LockFiles.lock_of_answer hlater hop hanswer
      · have hbefore := holds_of_commit_ne hij hholds
        obtain ⟨content, hlock⟩ := hheld i file hbefore
        by_cases hop : op = .remove
        · -- the file is not removed by another process
          subst hop
          simp only [LockFiles.answer, hlock] at hanswer
          obtain ⟨rfl, rfl⟩ := Prod.mk.inj hanswer
          have hread := hremoves.1 file rfl
          obtain ⟨c, hc, hlive, howned⟩ := hbefore
          have hcreated := Log.mem_of.mp (created_mem_of_ownedFile howned)
          rcases remover hw htimely hheld hc' hrest hlock hread with hmine | hdead
          · exact absurd (hinv.once i j file hcreated hmine) hij
          · exact absurd (hdead i c hcreated hc) hlive
        · have hlater : ({ w.shared with nowUnixMs := now } : LockFiles).lock =
              some (file, content) := hlock
          exact LockFiles.lock_of_answer hlater hop hanswer

/-- Nobody creates a file again that has been removed, and the dead stay
dead. -/
theorem dead_step {file : ℕ} (hfile : file < w.shared.files) (hstep : Step anyEntry w w')
    (hdead : ∀ j c, (j, created file) ∈ w.log → w.calls j = some c → c.rest = none)
    (hstarted : ∀ j, (j, created file) ∈ w.log → ∃ c, w.calls j = some c) :
    ∀ j c, (j, created file) ∈ w'.log → w'.calls j = some c → c.rest = none := by
  intro j c hcreated hc
  cases hstep with
  | @start i entry hfresh _ =>
      have hij : j ≠ i := by
        rintro rfl
        obtain ⟨c', hc'⟩ := hstarted j hcreated
        rw [hfresh] at hc'
        cases hc'
      exact hdead j c hcreated (by simpa [World.start, hij] using hc)
  | @crash i c' _ =>
      by_cases hij : j = i
      · subst hij
        obtain rfl : (⟨c'.entry, c'.history, none⟩ : Call lockSystem) = c := by
          simpa [World.crash] using hc
        rfl
      · exact hdead j c hcreated (by simpa [World.crash, hij] using hc)
  | @commit i c' op next reply s hc' hrest hcommit =>
      rcases List.mem_cons.mp hcreated with heq | hearlier
      · -- the file that is created has a new identity
        exfalso
        obtain ⟨-, hevent⟩ := Prod.mk.inj heq
        obtain ⟨now, -, hanswer⟩ := hcommit
        rw [← hevent] at hanswer
        cases hlock : w.shared.lock with
        | none =>
            simp only [created, LockFiles.answer, hlock] at hanswer
            have hreply := (Prod.mk.inj hanswer).1
            obtain rfl := CreateReply.created.inj hreply
            exact Nat.lt_irrefl _ hfile
        | some lock =>
            simp only [created, LockFiles.answer, hlock] at hanswer
            cases (Prod.mk.inj hanswer).1
      · have hij : j ≠ i := by
          rintro rfl
          rw [hdead j c' hearlier hc'] at hrest
          cases hrest
        exact hdead j c hearlier (by simpa [World.commit, hij] using hc)

/-- One step of such a run removes no file of a process that is alive. -/
theorem removesOwnOrDead_step (hw : Reachable LeftBehind anyEntry w) (htimely : Timely w)
    (hheld : Held w) (hold : RemovesOwnOrDead w) (hstep : Step anyEntry w w')
    (hremoves : RemovesWhatItRead w'.log) : RemovesOwnOrDead w' := by
  have hinv := lockInvariant_of_reachable hw
  have hstarted : ∀ {file j}, (j, created file) ∈ w.log → ∃ c, w.calls j = some c :=
    fun hmem => hw.consistent.started _ _ hmem
  have hkeeps : ∀ i file, (i, ⟨.remove, RemoveReply.removed file⟩) ∈ w.log →
      (i, created file) ∈ w'.log ∨
        ∀ j c, (j, created file) ∈ w'.log → w'.calls j = some c → c.rest = none := by
    intro i file hmem
    rcases hold i file hmem with hmine | hdead
    · left
      cases hstep with
      | start _ _ => exact hmine
      | crash _ => exact hmine
      | commit _ _ _ => exact List.mem_cons_of_mem _ hmine
    · exact .inr (dead_step (hinv.removed_lt i file hmem) hstep hdead fun j => hstarted)
  intro i file hmem
  cases hstep with
  | start _ _ => exact hkeeps i file hmem
  | crash _ => exact hkeeps i file hmem
  | @commit j c op next reply s hc hrest hcommit =>
      rcases List.mem_cons.mp hmem with heq | hmem
      · obtain ⟨rfl, hevent⟩ := Prod.mk.inj heq
        obtain ⟨rfl, hreply⟩ := Event.mk.inj hevent
        obtain rfl := eq_of_heq hreply
        have hcommitted := hcommit
        obtain ⟨now, -, hanswer⟩ := hcommit
        cases hlock : w.shared.lock with
        | none =>
            simp only [LockFiles.answer, hlock] at hanswer
            cases (Prod.mk.inj hanswer).1
        | some lock =>
            obtain ⟨file', content⟩ := lock
            simp only [LockFiles.answer, hlock] at hanswer
            obtain rfl := RemoveReply.removed.inj (Prod.mk.inj hanswer).1
            have hread := hremoves.1 file' rfl
            rcases remover hw htimely hheld hc hrest hlock hread with hmine | hdead
            · exact .inl (List.mem_cons_of_mem _ hmine)
            · exact .inr (dead_step (hinv.fresh file' content hlock)
                (.commit hc hrest hcommitted) hdead fun j => hstarted)
      · exact hkeeps i file hmem

end Owners

/-- Processes that remove what they have read exclude each other. -/
theorem lock_excludes {w : World lockSystem}
    (hw : ReachableWithin LeftBehind anyEntry (fun w => Timely w ∧ RemovesWhatItRead w.log) w) :
    Exclusive w ∧ RemovesOwnOrDead w := by
  have hboth : Held w ∧ RemovesOwnOrDead w := by
    refine hw.induction (P := fun w => Held w ∧ RemovesOwnOrDead w) ?_ ?_
    · intro s _
      constructor
      · rintro i file ⟨c, hc, -, -⟩
        cases hc
      · intro i file hmem
        cases hmem
    · intro w w' hw ih hstep hwithin
      have htimely := hw.bounds.1
      exact ⟨held_step hw.reachable htimely ih.1 hstep hwithin.2,
        removesOwnOrDead_step hw.reachable htimely ih.1 ih.2 hstep hwithin.2⟩
  refine ⟨?_, hboth.2⟩
  intro i j file file' hi hj
  obtain ⟨content, hlock⟩ := hboth.1 i file hi
  obtain ⟨content', hlock'⟩ := hboth.1 j file' hj
  obtain ⟨rfl, -⟩ : file = file' ∧ content = content' := by simpa [hlock] using hlock'
  obtain ⟨_, _, _, howned⟩ := hi
  obtain ⟨_, _, _, howned'⟩ := hj
  have hinv := lockInvariant_of_reachable hw.reachable
  exact hinv.once i j file (Log.mem_of.mp (created_mem_of_ownedFile howned))
    (Log.mem_of.mp (created_mem_of_ownedFile howned'))

/-! ### Two processes at one abandoned lock -/

namespace LockSample

/-- The file system while no time passes. -/
def answers : Handler LockFile LockFiles where
  answer := LockFiles.answer

theorem answers_sound : answers.Sound lockSystem :=
  fun s _ => ⟨s.nowUnixMs, le_rfl, rfl⟩

/-- A lock file that a process created at time zero, before it died. -/
def left : LockFiles where
  files := 1
  lock := some (0, timestampLine 0)
  nowUnixMs := abandonedLockAge

/-- Two processes begin to use the lock. -/
def waiting : World lockSystem :=
  ((initial (S := lockSystem) left).start 0 (1 : ℕ)).start 1 (1 : ℕ)

def run (schedule : List ℕ) : World lockSystem := waiting.ticks answers schedule

/-- Nothing is written but the time that it is. -/
def onTime (w : World lockSystem) : Bool :=
  w.shared.nowUnixMs == abandonedLockAge && w.log.all fun entry =>
    match entry.2 with
    | ⟨.writeTimestamp _ unixMs, _⟩ => unixMs == abandonedLockAge
    | _ => true

theorem mem_of_writtenTime {h : History LockFile} {unixMs : ℕ}
    (hwritten : writtenTime h = some unixMs) :
    ∃ file reply, ⟨.writeTimestamp file unixMs, reply⟩ ∈ h := by
  induction h using writtenTime.induct with
  | case1 => cases hwritten
  | case2 file h => cases hwritten
  | case3 file time reply h =>
      obtain rfl : time = unixMs := by simpa [writtenTime] using hwritten
      exact ⟨file, reply, List.mem_cons_self⟩
  | case4 e h hcreate hwrite ih =>
      rw [writtenTime] at hwritten
      · obtain ⟨file, reply, hmem⟩ := ih hwritten
        exact ⟨file, reply, List.mem_cons_of_mem _ hmem⟩
      · exact hcreate
      · exact hwrite

theorem timely_of_onTime {w : World lockSystem} (h : onTime w = true) : Timely w := by
  intro i file unixMs _ hwritten
  obtain ⟨file', reply, hmem⟩ := mem_of_writtenTime hwritten
  rw [onTime, Bool.and_eq_true, List.all_eq_true] at h
  have hnow : w.shared.nowUnixMs = abandonedLockAge := by simpa using h.1
  have htime : unixMs = abandonedLockAge := by simpa using h.2 _ (Log.mem_of.mp hmem)
  rw [hnow, htime, abandonedLockAge]
  omega

theorem waiting_within {within : World lockSystem → Prop} (hnone : within (initial left))
    (hone : within ((initial (S := lockSystem) left).start 0 (1 : ℕ))) (htwo : within waiting) :
    ReachableWithin LeftBehind anyEntry within waiting := by
  have hleft : LeftBehind left := by
    intro file content hlock
    obtain ⟨rfl, -⟩ : 0 = file ∧ timestampLine 0 = content := by simpa [left] using hlock
    decide
  have hbegin : ReachableWithin LeftBehind anyEntry within (initial left) :=
    ⟨left, hleft, hnone, .refl⟩
  exact (hbegin.tail (.start rfl trivial) hone).tail (.start rfl trivial) htwo

/-- Both find the lock abandoned. The first removes it and acquires the lock;
then the second removes the file of the first, and acquires the lock too. -/
def overtaking : List ℕ := [0, 0, 0, 1, 1, 1, 0, 0, 0, 0, 0, 1, 1, 1, 1, 1]

theorem overtaking_onTime : ∀ k < 17, onTime (run (overtaking.take k)) = true := by
  decide

theorem overtaking_reachable : ReachableWithin LeftBehind anyEntry Timely (run overtaking) := by
  have hwaiting : ReachableWithin LeftBehind anyEntry Timely waiting :=
    waiting_within (timely_of_onTime (by decide)) (timely_of_onTime (by decide))
      (timely_of_onTime (by decide))
  refine hwaiting.ticks answers_sound overtaking fun k hk => timely_of_onTime ?_
  exact overtaking_onTime k (Nat.lt_succ_of_le hk)

theorem holds_of_run {schedule : List ℕ} {i file : ℕ}
    (hlive : ((run schedule).calls i).any (·.rest.isSome) = true)
    (howned : ownedFile ((run schedule).log.of i) = some file) : Holds (run schedule) i file := by
  obtain ⟨c, hc, hrest⟩ := (Option.any_eq_true _ _).mp hlive
  exact ⟨c, hc, Option.isSome_iff_ne_none.mp hrest, howned⟩

/-- Every file was removed by the process that read it last. -/
def readBefore : Log LockFile → Bool
  | [] => true
  | (i, ⟨.remove, .removed file⟩) :: log =>
      (lastRead (Log.of log i) == some file) && readBefore log
  | _ :: log => readBefore log

theorem removesWhatItRead_of_readBefore {log : Log LockFile} (h : readBefore log = true) :
    RemovesWhatItRead log := by
  induction log using readBefore.induct with
  | case1 => trivial
  | case2 i file log ih =>
      rw [readBefore, Bool.and_eq_true, beq_iff_eq] at h
      refine ⟨fun file' heq _ => ?_, ih h.2⟩
      obtain rfl : file = file' := by simpa using heq
      exact h.1
  | case3 entry log hother ih =>
      rw [readBefore] at h
      · refine ⟨fun file' heq _ => ?_, ih h⟩
        exact (hother entry.1 file' (Prod.ext rfl heq)).elim
      · exact hother

/-- The first process takes the lock over, the second finds it held. -/
def takeover : List ℕ := [0, 0, 0, 0, 0, 0, 0, 0, 1, 1, 1]

theorem takeover_onTime : ∀ k < 12, onTime (run (takeover.take k)) = true ∧
    readBefore (run (takeover.take k)).log = true := by
  decide

end LockSample

/-- Two processes that wait at one abandoned lock can both get inside. The
second of them removes the file of the first, which is alive. -/
theorem lock_not_exclusive :
    ¬ ∀ w : World lockSystem, ReachableWithin LeftBehind anyEntry Timely w →
      Exclusive w ∧ RemovesOwnOrDead w := by
  intro h
  have hexclusive := (h _ LockSample.overtaking_reachable).1
  have hfirst : Holds (LockSample.run LockSample.overtaking) 0 1 :=
    LockSample.holds_of_run (by decide) (by decide)
  have hsecond : Holds (LockSample.run LockSample.overtaking) 1 2 :=
    LockSample.holds_of_run (by decide) (by decide)
  exact absurd (hexclusive 0 1 1 2 hfirst hsecond) (by decide)

/-- A takeover after which another process waits. -/
theorem lock_excludes_takeover :
    Exclusive (LockSample.run LockSample.takeover) ∧
      RemovesOwnOrDead (LockSample.run LockSample.takeover) := by
  apply lock_excludes
  have hbounds : ∀ k < 12, Timely (LockSample.run (LockSample.takeover.take k)) ∧
      RemovesWhatItRead (LockSample.run (LockSample.takeover.take k)).log := by
    intro k hk
    obtain ⟨htime, hread⟩ := LockSample.takeover_onTime k hk
    exact ⟨LockSample.timely_of_onTime htime, LockSample.removesWhatItRead_of_readBefore hread⟩
  have hwaiting : ReachableWithin LeftBehind anyEntry
      (fun w => Timely w ∧ RemovesWhatItRead w.log) LockSample.waiting :=
    LockSample.waiting_within ⟨LockSample.timely_of_onTime (by decide), trivial⟩
      ⟨LockSample.timely_of_onTime (by decide), trivial⟩
      ⟨LockSample.timely_of_onTime (by decide), trivial⟩
  refine hwaiting.ticks LockSample.answers_sound LockSample.takeover fun k hk => ?_
  exact hbounds k (Nat.lt_succ_of_le hk)

end VorCommander
