import VorCommander.Billing.Ownership
import VorCommander.Steps.Alone
import VorCommander.Steps.Schedule

/-!
Billing stores and their file.

A store has a state in memory, behind a lock, and may have a file. It reads the
file once, when it is opened. Each event that is processed for the first time is
applied to the state in memory, and then the whole state is written to a temporary
file, which takes the place of the old one. Stores that are opened on one path
share both files: the name of the temporary file depends on the path alone, and is
the path itself if that ends in `.tmp`.

Stores have numbers here, and the renaming of a file carries the event for which
the file was written, so that it can be said which events a file has. The file
system does not look at it.
-/

namespace VorCommander

open Steps Steps.Program Text

/-- The content of a file, as far as it is the text of a state. -/
inductive StateText
  | empty
  | state (state : PersistedBillingState)
  | other

/-- An event and the time at which it is delivered. -/
abbrev Delivery := Value × ℕ

/-! ### Operations -/

/-- `create` is a store that has been opened, `enter` and `leave` are its lock,
and `store` changes its state in memory. -/
inductive BillingOp
  | createDir
  | targetExists
  | read
  | openTemp
  | write (file : ℕ) (state : PersistedBillingState)
  | newline (file : ℕ)
  | sync (file : ℕ)
  | rename (delivery : Option Delivery)
  | create (store : ℕ) (state : PersistedBillingState)
  | enter (store : ℕ)
  | store (store : ℕ) (state : PersistedBillingState)
  | leave (store : ℕ)

/-- What each operation replies. The lock of a store may be poisoned. -/
@[reducible] def BillingOp.Reply : BillingOp → Type
  | .createDir => Except BillingError Unit
  | .targetExists => Bool
  | .read => Except BillingError PersistedBillingState
  | .openTemp => Except BillingError ℕ
  | .write _ _ => Except BillingError Unit
  | .newline _ => Except BillingError Unit
  | .sync _ => Except BillingError Unit
  | .rename _ => Except BillingError Unit
  | .create _ _ => Unit
  | .enter _ => Option PersistedBillingState
  | .store _ _ => Unit
  | .leave _ => Unit

/-- The interface of billing stores. -/
abbrev BillingFile : Interface := ⟨BillingOp, BillingOp.Reply⟩

abbrev BillingM (α : Type) := ExceptT BillingError (Program BillingFile) α

namespace BillingFile

def createDir : BillingM Unit := attempt (perform (I := BillingFile) .createDir)

def targetExists : BillingM Bool := ExceptT.lift (perform (I := BillingFile) .targetExists)

def read : BillingM PersistedBillingState := attempt (perform (I := BillingFile) .read)

def openTemp : BillingM ℕ := attempt (perform (I := BillingFile) .openTemp)

def write (file : ℕ) (state : PersistedBillingState) : BillingM Unit :=
  attempt (perform (I := BillingFile) (.write file state))

def newline (file : ℕ) : BillingM Unit := attempt (perform (I := BillingFile) (.newline file))

def sync (file : ℕ) : BillingM Unit := attempt (perform (I := BillingFile) (.sync file))

def rename (delivery : Option Delivery) : BillingM Unit :=
  attempt (perform (I := BillingFile) (.rename delivery))

def create (store : ℕ) (state : PersistedBillingState) : BillingM Unit :=
  ExceptT.lift (perform (I := BillingFile) (.create store state))

def enter (store : ℕ) : BillingM (Option PersistedBillingState) :=
  ExceptT.lift (perform (I := BillingFile) (.enter store))

def store (store : ℕ) (state : PersistedBillingState) : BillingM Unit :=
  ExceptT.lift (perform (I := BillingFile) (.store store state))

def leave (store : ℕ) : BillingM Unit := ExceptT.lift (perform (I := BillingFile) (.leave store))

end BillingFile

/-! ### Programs -/

/-- The state with an event written down as processed. -/
def PersistedBillingState.record (state : PersistedBillingState) (eventId eventType : String)
    (now : ℕ) (result : WebhookApplyResult) : PersistedBillingState :=
  { state with
    events := state.events.insert eventId
      { eventId
        eventType
        processedAtUnixSeconds := now
        organizationId := result.organizationId
        applied := result.applied
        reason := result.reason } }

/-- `persist_state`. The text of a state can always be made. -/
def persistState (state : PersistedBillingState) (delivery : Option Delivery) : BillingM Unit := do
  let file ← BillingFile.openTemp
  BillingFile.write file state
  BillingFile.newline file
  BillingFile.sync file
  BillingFile.rename delivery

namespace BillingStore

/-- `BillingStore::open`, by which the store gets its number. -/
def openStore (store : ℕ) : BillingM Unit := do
  BillingFile.createDir
  if ← BillingFile.targetExists then
    let state ← BillingFile.read
    check (failIf (state.version ≠ 1) .invalidState)
    BillingFile.create store state
  else
    persistState {} none
    BillingFile.create store {}

/-- What `apply_test_webhook` does with the lock. -/
def applyLocked (persistent : Bool) (store : ℕ) (eventId eventType : String) (event : Value)
    (now : ℕ) (state : PersistedBillingState) : BillingM WebhookApplyResult :=
  if state.events.contains eventId then
    return { eventId
             eventType
             duplicate := true
             applied := false
             organizationId := none
             reason := "already_processed" }
  else do
    let (result, state) ← check (applyEventToState state eventId eventType event now)
    let state := state.record eventId eventType now result
    BillingFile.store store state
    if persistent then
      persistState state (some (event, now))
    return { result with duplicate := false }

/-- `BillingStore::apply_test_webhook`, of a store with or without a file. The
lock is left on every way out. -/
def applyTestWebhook (persistent : Bool) (store : ℕ) (event : Value) (now : ℕ) :
    BillingM WebhookApplyResult := do
  let eventId ← check (requiredStr event "id")
  let eventType ← check (requiredStr event "type")
  let locked ← BillingFile.enter store
  let state ← check (orFail locked .invalidState)
  let result ← ExceptT.lift (applyLocked persistent store eventId eventType event now state).run
  BillingFile.leave store
  check result

end BillingStore

/-! ### Stores and files -/

/-- The files by number, which of them has the name of the path and which the name
of the temporary file, how many there have been, and of each store its state in
memory and whether its lock is held. -/
structure BillingDisk where
  contents : ℕ → StateText
  target : Option ℕ
  temp : Option ℕ
  files : ℕ
  memory : ℕ → Option PersistedBillingState
  held : ℕ → Bool

namespace BillingDisk

/-- The state that the file holds. -/
def stored (s : BillingDisk) : Option PersistedBillingState :=
  match s.target.map s.contents with
  | some (.state state) => some state
  | _ => none

/-- The file `file` gets another content. -/
def setText (s : BillingDisk) (file : ℕ) (text : StateText) : BillingDisk :=
  { s with contents := Function.update s.contents file text }

/-- The file that is opened for writing is there and is cut, or it is new. If the
path ends in `.tmp`, it has the name of the path. -/
def Opens (same : Bool) (s : BillingDisk) (file : ℕ) (s' : BillingDisk) : Prop :=
  if same then
    s.target = some file ∧ s' = s.setText file .empty ∨
      s.target = none ∧ file = s.files ∧
        s' = { s.setText file .empty with target := some file, files := file + 1 }
  else
    s.temp = some file ∧ s' = s.setText file .empty ∨
      s.temp = none ∧ file = s.files ∧
        s' = { s.setText file .empty with temp := some file, files := file + 1 }

/-- The temporary file takes the place of the other. -/
def Renames (same : Bool) (s s' : BillingDisk) : Prop :=
  if same then s.target ≠ none ∧ s' = s
  else ∃ file, s.temp = some file ∧ s' = { s with target := some file, temp := none }

/-- What an operation may be answered, and what it does. The text of a state that
is written to an empty file in part is no text of a state; where two processes
write to one file, anything can come of it. -/
def Commit (same : Bool) (s : BillingDisk) : Event BillingFile → BillingDisk → Prop
  | ⟨.createDir, _⟩, s' => s' = s
  | ⟨.targetExists, found⟩, s' => s' = s ∧ (found = true → s.target ≠ none)
  | ⟨.read, .ok state⟩, s' => s' = s ∧ s.stored = some state
  | ⟨.read, .error _⟩, s' => s' = s
  | ⟨.openTemp, .ok file⟩, s' => s.Opens same file s'
  | ⟨.openTemp, .error _⟩, s' => s' = s
  | ⟨.write file state, .ok _⟩, s' =>
      ∃ text, (s.contents file = .empty → text = .state state) ∧ s' = s.setText file text
  | ⟨.write file state, .error _⟩, s' =>
      ∃ text, (s.contents file = .empty → text = .empty ∨ text = .other ∨ text = .state state) ∧
        s' = s.setText file text
  | ⟨.newline file, _⟩, s' =>
      ∃ text, (∀ state, s.contents file = .state state → text = .state state) ∧
        s' = s.setText file text
  | ⟨.sync _, _⟩, s' => s' = s
  | ⟨.rename _, .ok _⟩, s' => s.Renames same s'
  | ⟨.rename _, .error _⟩, s' => s' = s
  | ⟨.create store state, _⟩, s' =>
      s.memory store = none ∧ s' = { s with memory := Function.update s.memory store (some state) }
  | ⟨.enter store, some state⟩, s' =>
      s.held store = false ∧ s.memory store = some state ∧
        s' = { s with held := Function.update s.held store true }
  | ⟨.enter _, none⟩, s' => s' = s
  | ⟨.store store state, _⟩, s' =>
      s' = { s with memory := Function.update s.memory store (some state) }
  | ⟨.leave store, _⟩, s' => s' = { s with held := Function.update s.held store false }

end BillingDisk

/-! ### Processes -/

/-- What a process does with the path. -/
inductive BillingEntry
  | openStore (store : ℕ)
  | webhook (store : ℕ) (event : Value) (now : ℕ)

inductive BillingReply
  | opened
  | answered (result : WebhookApplyResult)

/-- The program of an entry; the stores have a file. -/
def BillingEntry.body : BillingEntry → Program BillingFile (Except BillingError BillingReply)
  | .openStore store =>
      Except.map (fun _ => BillingReply.opened) <$> (BillingStore.openStore store).run
  | .webhook store event now =>
      Except.map BillingReply.answered <$> (BillingStore.applyTestWebhook true store event now).run

/-- The processes that use one path. -/
def billingSystem (same : Bool) : System BillingFile where
  State := BillingDisk
  Entry := BillingEntry
  Result := Except BillingError BillingReply
  body := BillingEntry.body
  Commit := BillingDisk.Commit same

/-- What a disk answers on which the steps in `fails` fail and the others do not.
A step that has to wait is not answered, nor is one that cannot be taken. -/
def workingBilling (same : Bool) (fails : BillingOp → Bool) : Answers BillingFile BillingDisk where
  answer s op :=
    match op with
    | .createDir => some (.ok (), s)
    | .targetExists => some (s.target.isSome, s)
    | .read =>
        match s.stored with
        | some state => some (.ok state, s)
        | none => some (.error .io, s)
    | .openTemp =>
        if fails .openTemp then some (.error .io, s)
        else
          match if same then s.target else s.temp with
          | some file => some (.ok file, s.setText file .empty)
          | none =>
              let s' := { s.setText s.files .empty with files := s.files + 1 }
              some (.ok s.files,
                if same then { s' with target := some s.files } else
                  { s' with temp := some s.files })
    | .write file state =>
        if fails (.write file state) then some (.error .io, s.setText file .other)
        else some (.ok (), s.setText file (.state state))
    | .newline file =>
        some (if fails (.newline file) then .error .io else .ok (),
          s.setText file (s.contents file))
    | .sync file => some (if fails (.sync file) then .error .io else .ok (), s)
    | .rename delivery =>
        if fails (.rename delivery) then some (.error .io, s)
        else if same then
          if s.target.isSome then some (.ok (), s) else none
        else
          match s.temp with
          | some file => some (.ok (), { s with target := some file, temp := none })
          | none => none
    | .create store state =>
        match s.memory store with
        | some _ => none
        | none => some ((), { s with memory := Function.update s.memory store (some state) })
    | .enter store =>
        match s.held store, s.memory store with
        | false, some state =>
            some (some state, { s with held := Function.update s.held store true })
        | _, _ => none
    | .store store state =>
        some ((), { s with memory := Function.update s.memory store (some state) })
    | .leave store => some ((), { s with held := Function.update s.held store false })

/-- The answers are among those that files and stores allow. -/
theorem workingBilling_commits (same : Bool) (fails : BillingOp → Bool) (s : BillingDisk)
    (op : BillingOp) (reply : op.Reply) (s' : BillingDisk)
    (h : (workingBilling same fails).answer s op = some (reply, s')) :
    s.Commit same ⟨op, reply⟩ s' := by
  cases op with
  | createDir =>
      obtain ⟨rfl, rfl⟩ := Prod.mk.inj (Option.some.inj h)
      rfl
  | targetExists =>
      obtain ⟨rfl, rfl⟩ := Prod.mk.inj (Option.some.inj h)
      exact ⟨rfl, fun hfound => Option.isSome_iff_ne_none.mp hfound⟩
  | read =>
      simp only [workingBilling] at h
      split at h
      · rename_i state hstored
        obtain ⟨rfl, rfl⟩ := Prod.mk.inj (Option.some.inj h)
        exact ⟨rfl, hstored⟩
      · obtain ⟨rfl, rfl⟩ := Prod.mk.inj (Option.some.inj h)
        rfl
  | openTemp =>
      simp only [workingBilling] at h
      split at h
      · obtain ⟨rfl, rfl⟩ := Prod.mk.inj (Option.some.inj h)
        rfl
      split at h
      · rename_i file hfile
        obtain ⟨rfl, rfl⟩ := Prod.mk.inj (Option.some.inj h)
        cases same <;> exact .inl ⟨hfile, rfl⟩
      · rename_i hfile
        obtain ⟨rfl, rfl⟩ := Prod.mk.inj (Option.some.inj h)
        cases same <;> exact .inr ⟨hfile, rfl, rfl⟩
  | write file state =>
      simp only [workingBilling] at h
      split at h
      · obtain ⟨rfl, rfl⟩ := Prod.mk.inj (Option.some.inj h)
        exact ⟨.other, fun _ => .inr (.inl rfl), rfl⟩
      · obtain ⟨rfl, rfl⟩ := Prod.mk.inj (Option.some.inj h)
        exact ⟨.state state, fun _ => rfl, rfl⟩
  | newline file =>
      simp only [workingBilling] at h
      obtain ⟨rfl, rfl⟩ := Prod.mk.inj (Option.some.inj h)
      split <;> exact ⟨_, fun state hstate => hstate, rfl⟩
  | sync file =>
      simp only [workingBilling] at h
      obtain ⟨rfl, rfl⟩ := Prod.mk.inj (Option.some.inj h)
      split <;> rfl
  | rename delivery =>
      simp only [workingBilling] at h
      split at h
      · obtain ⟨rfl, rfl⟩ := Prod.mk.inj (Option.some.inj h)
        rfl
      split at h
      · rename_i hsame
        obtain rfl := hsame
        split at h
        · rename_i htarget
          obtain ⟨rfl, rfl⟩ := Prod.mk.inj (Option.some.inj h)
          exact ⟨Option.isSome_iff_ne_none.mp htarget, rfl⟩
        · cases h
      · rename_i hsame
        obtain rfl := (Bool.not_eq_true _).mp hsame
        split at h
        · rename_i file htemp
          obtain ⟨rfl, rfl⟩ := Prod.mk.inj (Option.some.inj h)
          exact ⟨file, htemp, rfl⟩
        · cases h
  | create store state =>
      simp only [workingBilling] at h
      split at h
      · cases h
      · rename_i hmemory
        obtain ⟨rfl, rfl⟩ := Prod.mk.inj (Option.some.inj h)
        exact ⟨hmemory, rfl⟩
  | enter store =>
      simp only [workingBilling] at h
      split at h
      · rename_i state hheld hmemory
        obtain ⟨rfl, rfl⟩ := Prod.mk.inj (Option.some.inj h)
        exact ⟨hheld, hmemory, rfl⟩
      · cases h
  | store store state =>
      obtain ⟨rfl, rfl⟩ := Prod.mk.inj (Option.some.inj h)
      rfl
  | leave store =>
      obtain ⟨rfl, rfl⟩ := Prod.mk.inj (Option.some.inj h)
      rfl

/-! ### Rules -/

section Rules

variable {σ : Type} {Commit : σ → Event BillingFile → σ → Prop} {J : σ → History BillingFile → Prop}
  {s : σ} {h : History BillingFile}

@[simp] theorem during_createDir {Q : Except BillingError Unit → σ → History BillingFile → Prop} :
    During Commit J Q BillingFile.createDir.run s h ↔
      ∀ r s', Commit s ⟨.createDir, r⟩ s' →
        J s' (⟨.createDir, r⟩ :: h) ∧ Q r s' (⟨.createDir, r⟩ :: h) :=
  during_call _ _

@[simp] theorem during_targetExists
    {Q : Except BillingError Bool → σ → History BillingFile → Prop} :
    During Commit J Q BillingFile.targetExists.run s h ↔
      ∀ r s', Commit s ⟨.targetExists, r⟩ s' →
        J s' (⟨.targetExists, r⟩ :: h) ∧ Q (.ok r) s' (⟨.targetExists, r⟩ :: h) :=
  during_call _ _

@[simp] theorem during_read
    {Q : Except BillingError PersistedBillingState → σ → History BillingFile → Prop} :
    During Commit J Q BillingFile.read.run s h ↔
      ∀ r s', Commit s ⟨.read, r⟩ s' → J s' (⟨.read, r⟩ :: h) ∧ Q r s' (⟨.read, r⟩ :: h) :=
  during_call _ _

@[simp] theorem during_openTemp {Q : Except BillingError ℕ → σ → History BillingFile → Prop} :
    During Commit J Q BillingFile.openTemp.run s h ↔
      ∀ r s', Commit s ⟨.openTemp, r⟩ s' →
        J s' (⟨.openTemp, r⟩ :: h) ∧ Q r s' (⟨.openTemp, r⟩ :: h) :=
  during_call _ _

@[simp] theorem during_write {file : ℕ} {state : PersistedBillingState}
    {Q : Except BillingError Unit → σ → History BillingFile → Prop} :
    During Commit J Q (BillingFile.write file state).run s h ↔
      ∀ r s', Commit s ⟨.write file state, r⟩ s' →
        J s' (⟨.write file state, r⟩ :: h) ∧ Q r s' (⟨.write file state, r⟩ :: h) :=
  during_call _ _

@[simp] theorem during_newline {file : ℕ}
    {Q : Except BillingError Unit → σ → History BillingFile → Prop} :
    During Commit J Q (BillingFile.newline file).run s h ↔
      ∀ r s', Commit s ⟨.newline file, r⟩ s' →
        J s' (⟨.newline file, r⟩ :: h) ∧ Q r s' (⟨.newline file, r⟩ :: h) :=
  during_call _ _

@[simp] theorem during_sync {file : ℕ}
    {Q : Except BillingError Unit → σ → History BillingFile → Prop} :
    During Commit J Q (BillingFile.sync file).run s h ↔
      ∀ r s', Commit s ⟨.sync file, r⟩ s' →
        J s' (⟨.sync file, r⟩ :: h) ∧ Q r s' (⟨.sync file, r⟩ :: h) :=
  during_call _ _

@[simp] theorem during_rename {delivery : Option Delivery}
    {Q : Except BillingError Unit → σ → History BillingFile → Prop} :
    During Commit J Q (BillingFile.rename delivery).run s h ↔
      ∀ r s', Commit s ⟨.rename delivery, r⟩ s' →
        J s' (⟨.rename delivery, r⟩ :: h) ∧ Q r s' (⟨.rename delivery, r⟩ :: h) :=
  during_call _ _

@[simp] theorem during_create {store : ℕ} {state : PersistedBillingState}
    {Q : Except BillingError Unit → σ → History BillingFile → Prop} :
    During Commit J Q (BillingFile.create store state).run s h ↔
      ∀ r s', Commit s ⟨.create store state, r⟩ s' →
        J s' (⟨.create store state, r⟩ :: h) ∧ Q (.ok r) s' (⟨.create store state, r⟩ :: h) :=
  during_call _ _

@[simp] theorem during_enter {store : ℕ}
    {Q : Except BillingError (Option PersistedBillingState) → σ → History BillingFile → Prop} :
    During Commit J Q (BillingFile.enter store).run s h ↔
      ∀ r s', Commit s ⟨.enter store, r⟩ s' →
        J s' (⟨.enter store, r⟩ :: h) ∧ Q (.ok r) s' (⟨.enter store, r⟩ :: h) :=
  during_call _ _

@[simp] theorem during_store {store : ℕ} {state : PersistedBillingState}
    {Q : Except BillingError Unit → σ → History BillingFile → Prop} :
    During Commit J Q (BillingFile.store store state).run s h ↔
      ∀ r s', Commit s ⟨.store store state, r⟩ s' →
        J s' (⟨.store store state, r⟩ :: h) ∧ Q (.ok r) s' (⟨.store store state, r⟩ :: h) :=
  during_call _ _

@[simp] theorem during_leave {store : ℕ}
    {Q : Except BillingError Unit → σ → History BillingFile → Prop} :
    During Commit J Q (BillingFile.leave store).run s h ↔
      ∀ r s', Commit s ⟨.leave store, r⟩ s' →
        J s' (⟨.leave store, r⟩ :: h) ∧ Q (.ok r) s' (⟨.leave store, r⟩ :: h) :=
  during_call _ _

end Rules

end VorCommander
