import VorCommander.Fs.Files
import VorCommander.Worker.Terminal

/-!
The operations of a device with its workers taken apart.

What a dispatcher asks of its collaborators are the operations of `Device`.
Here the writes and the commands among them are programs of their own, over
the files, the terminal sessions and a few questions to the host. The two
operations that change something outside the agent, `replaceTarget` and
`startSession`, carry the authorisation under which they are performed, so
that the log says for which request an effect was.
-/

namespace VorCommander

open Steps Steps.Program Text

inductive MachineOp
  | device (op : DeviceOp)
  | file (op : FileOp)
  | replaceTarget (authorization : Authorization) (source target : String)
  | startSession (authorization : Authorization) (owner : TerminalSessionOwner)
      (spec : TerminalSpec)
  | resolveExecutable (value : String) (allowedExecutables : List String)
  | environmentVariable (name : String)
  | emptyGitDirectory
  | rejectRepoAlias (git repo subcommand : String)

/-- What each operation replies. -/
@[reducible] def MachineOp.Reply : MachineOp → Type
  | .device op => op.Reply
  | .file op => op.Reply
  | .replaceTarget _ _ _ => Except FsError Unit
  | .startSession _ _ _ => Except TerminalError String
  | .resolveExecutable _ _ => Option String
  | .environmentVariable _ => Option String
  | .emptyGitDirectory => Except GitError String
  | .rejectRepoAlias _ _ _ => Except GitError Unit

/-- The interface of a device and its workers. -/
abbrev Machine : Interface := ⟨MachineOp, MachineOp.Reply⟩

/-- A fallible program of a device and its workers. -/
abbrev MachineM (ε α : Type) := ExceptT ε (Program Machine) α

/-! ### Calls -/

/-- An operation on a file. -/
def file (op : FileOp) : MachineM FsError op.Result :=
  attempt (perform (I := Machine) (.file op))

/-- `atomic_replace` of the target of a write. -/
def replaceTarget (authorization : Authorization) (source target : String) :
    MachineM FsError Unit :=
  attempt (perform (I := Machine) (.replaceTarget authorization source target))

/-- The end of `TerminalSessionManager::start`: the session is entered into
the registry and a thread runs it. -/
def startSession (authorization : Authorization) (owner : TerminalSessionOwner)
    (spec : TerminalSpec) : MachineM TerminalError String :=
  attempt (perform (I := Machine) (.startSession authorization owner spec))

def resolveExecutable {ε : Type} (value : String) (allowedExecutables : List String) :
    MachineM ε (Option String) :=
  ExceptT.lift (perform (I := Machine) (.resolveExecutable value allowedExecutables))

def environmentVariable {ε : Type} (name : String) : MachineM ε (Option String) :=
  ExceptT.lift (perform (I := Machine) (.environmentVariable name))

def emptyGitDirectory : MachineM GitError String :=
  attempt (perform (I := Machine) .emptyGitDirectory)

/-- `reject_repo_alias`. -/
def rejectRepoAlias (git repo subcommand : String) : MachineM GitError Unit :=
  attempt (perform (I := Machine) (.rejectRepoAlias git repo subcommand))

section Rules

variable {A : History Machine → Event Machine → Prop} {G : History Machine → Machine.Op → Prop}
  {h : History Machine} {ε : Type}

@[simp] theorem safe_file {op : FileOp} {Q : History Machine → op.Reply → Prop} :
    Safe A G Q (file op).run h ↔
      G h (.file op) ∧ ∀ reply : op.Reply, A h ⟨.file op, reply⟩ →
        Q (⟨.file op, reply⟩ :: h) reply :=
  safe_call (I := Machine) (.file op) id

@[simp] theorem safe_replaceTarget {authorization : Authorization} {source target : String}
    {Q : History Machine → Except FsError Unit → Prop} :
    Safe A G Q (replaceTarget authorization source target).run h ↔
      G h (.replaceTarget authorization source target) ∧ ∀ reply : Except FsError Unit,
        A h ⟨.replaceTarget authorization source target, reply⟩ →
          Q (⟨.replaceTarget authorization source target, reply⟩ :: h) reply :=
  safe_call (I := Machine) (.replaceTarget authorization source target) id

@[simp] theorem safe_startSession {authorization : Authorization} {owner : TerminalSessionOwner}
    {spec : TerminalSpec} {Q : History Machine → Except TerminalError String → Prop} :
    Safe A G Q (startSession authorization owner spec).run h ↔
      G h (.startSession authorization owner spec) ∧ ∀ reply : Except TerminalError String,
        A h ⟨.startSession authorization owner spec, reply⟩ →
          Q (⟨.startSession authorization owner spec, reply⟩ :: h) reply :=
  safe_call (I := Machine) (.startSession authorization owner spec) id

@[simp] theorem safe_resolveExecutable {value : String} {allowed : List String}
    {Q : History Machine → Except ε (Option String) → Prop} :
    Safe A G Q (resolveExecutable value allowed).run h ↔
      G h (.resolveExecutable value allowed) ∧ ∀ reply : Option String,
        A h ⟨.resolveExecutable value allowed, reply⟩ →
          Q (⟨.resolveExecutable value allowed, reply⟩ :: h) (.ok reply) :=
  safe_call (I := Machine) (.resolveExecutable value allowed)
    fun reply => (Except.ok reply : Except ε (Option String))

@[simp] theorem safe_environmentVariable {name : String}
    {Q : History Machine → Except ε (Option String) → Prop} :
    Safe A G Q (environmentVariable name).run h ↔
      G h (.environmentVariable name) ∧ ∀ reply : Option String,
        A h ⟨.environmentVariable name, reply⟩ →
          Q (⟨.environmentVariable name, reply⟩ :: h) (.ok reply) :=
  safe_call (I := Machine) (.environmentVariable name)
    fun reply => (Except.ok reply : Except ε (Option String))

@[simp] theorem safe_emptyGitDirectory {Q : History Machine → Except GitError String → Prop} :
    Safe A G Q emptyGitDirectory.run h ↔
      G h .emptyGitDirectory ∧ ∀ reply : Except GitError String,
        A h ⟨.emptyGitDirectory, reply⟩ → Q (⟨.emptyGitDirectory, reply⟩ :: h) reply :=
  safe_call (I := Machine) .emptyGitDirectory id

@[simp] theorem safe_rejectRepoAlias {git repo subcommand : String}
    {Q : History Machine → Except GitError Unit → Prop} :
    Safe A G Q (rejectRepoAlias git repo subcommand).run h ↔
      G h (.rejectRepoAlias git repo subcommand) ∧ ∀ reply : Except GitError Unit,
        A h ⟨.rejectRepoAlias git repo subcommand, reply⟩ →
          Q (⟨.rejectRepoAlias git repo subcommand, reply⟩ :: h) reply :=
  safe_call (I := Machine) (.rejectRepoAlias git repo subcommand) id

end Rules

end VorCommander
