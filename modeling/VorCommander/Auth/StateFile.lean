import VorCommander.Auth.Grants
import VorCommander.Steps.Schedule

/-!
A store in a file.

The store of grants and the store of tenants keep their whole state in one
file, and work on it by the same steps. An operation takes the lock file,
reads the state, and answers from it; one that changes the state writes it to
a temporary file, which it puts in the place of the old one. The lock file is
removed on every way out. Opening a store takes no lock: it reads the file, or
writes a new one if it finds none. Each step is an operation on the file
system, and those of other processes come in between any two of them.
-/

namespace VorCommander

open Steps Steps.Program

/-- What a call does: it returns without touching a file, or it answers from
the state it reads, or it also changes the state. It checks the state first. -/
inductive StoreTask (State Draws Answer : Type)
  | done (result : Except AuthError Answer)
  | query (answer : State → Except AuthError Answer)
  | change (mutate : Draws → State → Except AuthError (Answer × State))

/-- A task that is not begun unless a check succeeds. -/
def StoreTask.after {State Draws Answer : Type} (checked : Except AuthError Unit)
    (task : StoreTask State Draws Answer) : StoreTask State Draws Answer :=
  match checked with
  | .error e => .done (.error e)
  | .ok _ => task

namespace StoreTask

variable {State Draws Answer : Type} {checked : Except AuthError Unit}
  {task : StoreTask State Draws Answer}

@[simp] theorem after_eq_query {answer : State → Except AuthError Answer} :
    after checked task = .query answer ↔ checked = .ok () ∧ task = .query answer := by
  cases checked <;> simp [after]

@[simp] theorem after_eq_change
    {mutate : Draws → State → Except AuthError (Answer × State)} :
    after checked task = .change mutate ↔ checked = .ok () ∧ task = .change mutate := by
  cases checked <;> simp [after]

@[simp] theorem after_eq_done {result : Except AuthError Answer} :
    after checked task = .done result ↔
      (∃ e, checked = .error e ∧ result = .error e) ∨ checked = .ok () ∧ task = .done result := by
  cases checked <;> simp [after, eq_comm]

end StoreTask

/-- What the steps of a store are about. -/
structure Store where
  State : Type
  /-- Calls of its operations, with their arguments. -/
  Call : Type
  Answer : Type
  /-- What one call draws at random. -/
  Draws : Type
  /-- The state of a new file. -/
  fresh : Draws → State
  /-- The checks of a state that is opened. -/
  accept : State → Except AuthError Unit
  task : Call → StoreTask State Draws Answer

/-! ### Operations -/

inductive StoreLockReply
  | created
  | alreadyExists
  | failed
  deriving DecidableEq

/-- The steps of a process. `enter` takes the mutex of a handle, which may be
poisoned; a temporary file is known by a number in place of its name. -/
inductive StoreOp (S : Store)
  | createDir
  | targetExists
  | read
  | enter
  | createLock
  | removeLock
  | draw
  | createTemp
  | writeTemp (temp : ℕ) (state : S.State)
  | syncTemp (temp : ℕ)
  | moveReplace (temp : ℕ)
  | removeTarget
  | rename (temp : ℕ)

@[reducible] def StoreOp.Reply {S : Store} : StoreOp S → Type
  | .createDir => Except AuthError Unit
  | .targetExists => Bool
  | .read => Except AuthError S.State
  | .enter => Except AuthError Unit
  | .createLock => StoreLockReply
  | .removeLock => Unit
  | .draw => S.Draws
  | .createTemp => Except AuthError ℕ
  | .writeTemp _ _ => Except AuthError Unit
  | .syncTemp _ => Except AuthError Unit
  | .moveReplace _ => Except AuthError Unit
  | .removeTarget => Except AuthError Unit
  | .rename _ => Except AuthError Unit

/-- The interface of the files of a store. -/
abbrev StateFile (S : Store) : Interface := ⟨StoreOp S, StoreOp.Reply⟩

abbrev StateFileM (S : Store) (α : Type) := ExceptT AuthError (Program (StateFile S)) α

namespace StateFile

variable {S : Store}

def createDir : StateFileM S Unit := attempt (perform (I := StateFile S) .createDir)

def targetExists : StateFileM S Bool := ExceptT.lift (perform (I := StateFile S) .targetExists)

def read : StateFileM S S.State := attempt (perform (I := StateFile S) .read)

def enter : StateFileM S Unit := attempt (perform (I := StateFile S) .enter)

def createLock : StateFileM S StoreLockReply :=
  ExceptT.lift (perform (I := StateFile S) .createLock)

def removeLock : StateFileM S Unit := ExceptT.lift (perform (I := StateFile S) .removeLock)

def draw : StateFileM S S.Draws := ExceptT.lift (perform (I := StateFile S) .draw)

def createTemp : StateFileM S ℕ := attempt (perform (I := StateFile S) .createTemp)

def writeTemp (temp : ℕ) (state : S.State) : StateFileM S Unit :=
  attempt (perform (I := StateFile S) (.writeTemp temp state))

def syncTemp (temp : ℕ) : StateFileM S Unit := attempt (perform (I := StateFile S) (.syncTemp temp))

def moveReplace (temp : ℕ) : StateFileM S Unit :=
  attempt (perform (I := StateFile S) (.moveReplace temp))

def removeTarget : StateFileM S Unit := attempt (perform (I := StateFile S) .removeTarget)

def rename (temp : ℕ) : StateFileM S Unit := attempt (perform (I := StateFile S) (.rename temp))

end StateFile

/-! ### Programs -/

/-- What a process asks of a store. -/
inductive StoreEntry (S : Store)
  | openStore
  | call (call : S.Call)

/-- What it is told. -/
inductive StoreReply (S : Store)
  | opened (state : S.State)
  | answered (answer : S.Answer)

namespace Store

variable (S : Store)

/-- `StoreFileLock::acquire`, with the number of attempts left. -/
def acquireLock : ℕ → StateFileM S Unit
  | 0 => throw .lockTimeout
  | attempts + 1 => do
      match ← StateFile.createLock with
      | .created => return ()
      | .alreadyExists => acquireLock attempts
      | .failed => throw .io

def lockAttempts : ℕ := 100

/-- `atomic_replace`, which is another function on Windows. -/
def atomicReplace (windows : Bool) (temp : ℕ) : StateFileM S Unit :=
  if windows then StateFile.moveReplace temp
  else do
    if ← StateFile.targetExists then
      StateFile.removeTarget
    StateFile.rename temp

/-- `persist_state` and `persist_tenant_state`. -/
def persist (windows : Bool) (state : S.State) : StateFileM S Unit := do
  let temp ← StateFile.createTemp
  StateFile.writeTemp temp state
  StateFile.syncTemp temp
  S.atomicReplace windows temp

/-- What is done while the lock file exists; it is removed on every way out. -/
def locked {α : Type} (body : StateFileM S α) : StateFileM S α := do
  StateFile.enter
  S.acquireLock lockAttempts
  let result ← ExceptT.lift body.run
  StateFile.removeLock
  check result

/-- `GrantStore::open` and `TenantStore::open`. -/
def openStore (windows : Bool) : StateFileM S S.State := do
  StateFile.createDir
  if ← StateFile.targetExists then
    let state ← StateFile.read
    check (S.accept state)
    return state
  else
    let draws ← StateFile.draw
    S.persist windows (S.fresh draws)
    return S.fresh draws

/-- `device_id` and the other questions. -/
def queryState (answer : S.State → Except AuthError S.Answer) : StateFileM S S.Answer :=
  S.locked do
    let state ← StateFile.read
    check (answer state)

/-- `mutate_state`. -/
def mutateState (windows : Bool)
    (mutate : S.Draws → S.State → Except AuthError (S.Answer × S.State)) :
    StateFileM S S.Answer :=
  S.locked do
    let state ← StateFile.read
    let draws ← StateFile.draw
    let changed ← check (mutate draws state)
    S.persist windows changed.2
    return changed.1

/-- One call, from its checks to its answer. -/
def run (windows : Bool) (call : S.Call) : StateFileM S S.Answer :=
  match S.task call with
  | .done result => check result
  | .query answer => S.queryState answer
  | .change mutate => S.mutateState windows mutate

/-- The program of an entry. -/
def body (windows : Bool) : StoreEntry S → Program (StateFile S) (Except AuthError (StoreReply S))
  | .openStore => Except.map StoreReply.opened <$> (S.openStore windows).run
  | .call call => Except.map StoreReply.answered <$> (S.run windows call).run

end Store

/-! ### The file system -/

/-- The files of one store. The content of a file is the state it stands for,
or none if it is not the text of a state. -/
structure StoreFiles (S : Store) where
  target : Option (Option S.State)
  lock : Bool
  temps : ℕ → Option (Option S.State)

namespace StoreFiles

variable {S : Store}

/-- The files after a temporary file has got a content, or none. -/
def setTemp (s : StoreFiles S) (temp : ℕ) (content : Option (Option S.State)) : StoreFiles S :=
  { s with temps := Function.update s.temps temp content }

/-- A temporary file becomes the state file. -/
def Replaces (s : StoreFiles S) (temp : ℕ) (s' : StoreFiles S) : Prop :=
  ∃ content, s.temps temp = some content ∧
    s' = { s.setTemp temp none with target := some content }

/-- What a step may be answered, and what it does. A step that fails changes
nothing, but for a file that was written in part. Asking whether a file exists
may fail, which is taken for no. The temporary file of a process has a name
that no file has yet. -/
def Commit (s : StoreFiles S) : Event (StateFile S) → StoreFiles S → Prop
  | ⟨.createDir, _⟩, s' => s' = s
  | ⟨.targetExists, found⟩, s' => s' = s ∧ (found = true → s.target ≠ none)
  | ⟨.read, .ok state⟩, s' => s' = s ∧ s.target = some (some state)
  | ⟨.read, .error _⟩, s' => s' = s
  | ⟨.enter, _⟩, s' => s' = s
  | ⟨.createLock, .created⟩, s' => s.lock = false ∧ s' = { s with lock := true }
  | ⟨.createLock, .alreadyExists⟩, s' => s.lock = true ∧ s' = s
  | ⟨.createLock, .failed⟩, s' => s' = s
  | ⟨.removeLock, _⟩, s' => s' = { s with lock := false } ∨ s' = s
  | ⟨.draw, _⟩, s' => s' = s
  | ⟨.createTemp, .ok temp⟩, s' => s.temps temp = none ∧ s' = s.setTemp temp (some none)
  | ⟨.createTemp, .error _⟩, s' => s' = s
  | ⟨.writeTemp temp state, .ok _⟩, s' => s' = s.setTemp temp (some (some state))
  | ⟨.writeTemp temp _, .error _⟩, s' => s' = s.setTemp temp (some none)
  | ⟨.syncTemp _, _⟩, s' => s' = s
  | ⟨.moveReplace temp, .ok _⟩, s' => s.Replaces temp s'
  | ⟨.moveReplace _, .error _⟩, s' => s' = s
  | ⟨.removeTarget, .ok _⟩, s' => s' = { s with target := none }
  | ⟨.removeTarget, .error _⟩, s' => s' = s
  | ⟨.rename temp, .ok _⟩, s' => s.Replaces temp s'
  | ⟨.rename _, .error _⟩, s' => s' = s

end StoreFiles

/-- What a file system answers on which nothing fails. The process draws
`draws`, and its temporary file has the number `temp`. -/
def StoreFiles.answer {S : Store} (draws : S.Draws) (temp : ℕ) (s : StoreFiles S) :
    (op : StoreOp S) → op.Reply × StoreFiles S
  | .createDir => (.ok (), s)
  | .targetExists => (s.target.isSome, s)
  | .read =>
      match s.target with
      | none => (.error .io, s)
      | some none => (.error .json, s)
      | some (some state) => (.ok state, s)
  | .enter => (.ok (), s)
  | .createLock =>
      match s.lock with
      | true => (.alreadyExists, s)
      | false => (.created, { s with lock := true })
  | .removeLock => ((), { s with lock := false })
  | .draw => (draws, s)
  | .createTemp =>
      match s.temps temp with
      | none => (.ok temp, s.setTemp temp (some none))
      | some _ => (.error .io, s)
  | .writeTemp temp state => (.ok (), s.setTemp temp (some (some state)))
  | .syncTemp _ => (.ok (), s)
  | .moveReplace temp =>
      match s.temps temp with
      | some content => (.ok (), { s.setTemp temp none with target := some content })
      | none => (.error .io, s)
  | .removeTarget => (.ok (), { s with target := none })
  | .rename temp =>
      match s.temps temp with
      | some content => (.ok (), { s.setTemp temp none with target := some content })
      | none => (.error .io, s)

/-- The processes that use one store. -/
def storeSystem (S : Store) (windows : Bool) : System (StateFile S) where
  State := StoreFiles S
  Entry := StoreEntry S
  Result := Except AuthError (StoreReply S)
  body := S.body windows
  Commit := StoreFiles.Commit

/-- The files of a store while nothing fails. -/
def workingFiles {S : Store} (draws : S.Draws) (temp : ℕ) :
    Handler (StateFile S) (StoreFiles S) where
  answer s op := s.answer draws temp op

theorem workingFiles_sound {S : Store} {windows : Bool} (draws : S.Draws) (temp : ℕ) :
    (workingFiles draws temp).Sound (storeSystem S windows) := by
  intro (s : StoreFiles S) (op : StoreOp S)
  change s.Commit ⟨op, (s.answer draws temp op).1⟩ (s.answer draws temp op).2
  cases op with
  | createDir | enter | syncTemp | draw | writeTemp | removeTarget => rfl
  | targetExists => exact ⟨rfl, fun h => Option.isSome_iff_ne_none.mp h⟩
  | removeLock => exact .inl rfl
  | read =>
      rcases htarget : s.target with _ | _ | state <;>
        simp only [StoreFiles.answer, htarget, StoreFiles.Commit, and_self]
  | createLock =>
      cases hlock : s.lock <;>
        simp only [StoreFiles.answer, hlock, StoreFiles.Commit, and_self]
  | createTemp =>
      cases hfree : s.temps temp <;>
        simp only [StoreFiles.answer, hfree, StoreFiles.Commit, and_self]
  | moveReplace other | rename other =>
      cases hcontent : s.temps other with
      | none => simp only [StoreFiles.answer, hcontent, StoreFiles.Commit]
      | some content =>
          simp only [StoreFiles.answer, hcontent, StoreFiles.Commit]
          exact ⟨content, hcontent, rfl⟩

/-! ### Rules -/

section Rules

variable {S : Store} {A : History (StateFile S) → Event (StateFile S) → Prop}
  {G : History (StateFile S) → (StateFile S).Op → Prop} {h : History (StateFile S)}

@[simp] theorem safe_createDir {Q : History (StateFile S) → Except AuthError Unit → Prop} :
    Safe A G Q StateFile.createDir.run h ↔
      G h .createDir ∧ ∀ r, A h ⟨.createDir, r⟩ → Q (⟨.createDir, r⟩ :: h) r :=
  safe_call _ _

@[simp] theorem safe_targetExists {Q : History (StateFile S) → Except AuthError Bool → Prop} :
    Safe A G Q StateFile.targetExists.run h ↔
      G h .targetExists ∧ ∀ r, A h ⟨.targetExists, r⟩ → Q (⟨.targetExists, r⟩ :: h) (.ok r) :=
  safe_call _ _

@[simp] theorem safe_readState {Q : History (StateFile S) → Except AuthError S.State → Prop} :
    Safe A G Q StateFile.read.run h ↔
      G h .read ∧ ∀ r, A h ⟨.read, r⟩ → Q (⟨.read, r⟩ :: h) r :=
  safe_call _ _

@[simp] theorem safe_enter {Q : History (StateFile S) → Except AuthError Unit → Prop} :
    Safe A G Q StateFile.enter.run h ↔
      G h .enter ∧ ∀ r, A h ⟨.enter, r⟩ → Q (⟨.enter, r⟩ :: h) r :=
  safe_call _ _

@[simp] theorem safe_createLock
    {Q : History (StateFile S) → Except AuthError StoreLockReply → Prop} :
    Safe A G Q StateFile.createLock.run h ↔
      G h .createLock ∧ ∀ r, A h ⟨.createLock, r⟩ → Q (⟨.createLock, r⟩ :: h) (.ok r) :=
  safe_call _ _

@[simp] theorem safe_removeLock {Q : History (StateFile S) → Except AuthError Unit → Prop} :
    Safe A G Q StateFile.removeLock.run h ↔
      G h .removeLock ∧ ∀ r, A h ⟨.removeLock, r⟩ → Q (⟨.removeLock, r⟩ :: h) (.ok r) :=
  safe_call _ _

@[simp] theorem safe_draw {Q : History (StateFile S) → Except AuthError S.Draws → Prop} :
    Safe A G Q StateFile.draw.run h ↔
      G h .draw ∧ ∀ r, A h ⟨.draw, r⟩ → Q (⟨.draw, r⟩ :: h) (.ok r) :=
  safe_call _ _

@[simp] theorem safe_createTemp {Q : History (StateFile S) → Except AuthError ℕ → Prop} :
    Safe A G Q StateFile.createTemp.run h ↔
      G h .createTemp ∧ ∀ r, A h ⟨.createTemp, r⟩ → Q (⟨.createTemp, r⟩ :: h) r :=
  safe_call _ _

@[simp] theorem safe_writeTemp {temp : ℕ} {state : S.State}
    {Q : History (StateFile S) → Except AuthError Unit → Prop} :
    Safe A G Q (StateFile.writeTemp temp state).run h ↔
      G h (.writeTemp temp state) ∧
        ∀ r, A h ⟨.writeTemp temp state, r⟩ → Q (⟨.writeTemp temp state, r⟩ :: h) r :=
  safe_call _ _

@[simp] theorem safe_syncTemp {temp : ℕ}
    {Q : History (StateFile S) → Except AuthError Unit → Prop} :
    Safe A G Q (StateFile.syncTemp temp).run h ↔
      G h (.syncTemp temp) ∧ ∀ r, A h ⟨.syncTemp temp, r⟩ → Q (⟨.syncTemp temp, r⟩ :: h) r :=
  safe_call _ _

@[simp] theorem safe_moveReplace {temp : ℕ}
    {Q : History (StateFile S) → Except AuthError Unit → Prop} :
    Safe A G Q (StateFile.moveReplace temp).run h ↔
      G h (.moveReplace temp) ∧
        ∀ r, A h ⟨.moveReplace temp, r⟩ → Q (⟨.moveReplace temp, r⟩ :: h) r :=
  safe_call _ _

@[simp] theorem safe_removeTarget {Q : History (StateFile S) → Except AuthError Unit → Prop} :
    Safe A G Q StateFile.removeTarget.run h ↔
      G h .removeTarget ∧ ∀ r, A h ⟨.removeTarget, r⟩ → Q (⟨.removeTarget, r⟩ :: h) r :=
  safe_call _ _

@[simp] theorem safe_rename {temp : ℕ} {Q : History (StateFile S) → Except AuthError Unit → Prop} :
    Safe A G Q (StateFile.rename temp).run h ↔
      G h (.rename temp) ∧ ∀ r, A h ⟨.rename temp, r⟩ → Q (⟨.rename temp, r⟩ :: h) r :=
  safe_call _ _

end Rules

end VorCommander
