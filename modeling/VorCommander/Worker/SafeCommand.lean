import VorCommander.Device.Dispatch
import VorCommander.Worker.Interface
import VorCommander.Worker.Write

/-!
Commands of the safe list.

The policy lets a command run without an approval if its executable is a trusted
one and its arguments are those of a rule. The dispatcher resolves the executable
once more and starts it in an environment of a few variables. Some commands of
Git are hardened before: their aliases are refused, and arguments and variables
turn off what a repository could make Git run.
-/

namespace VorCommander

open Steps Steps.Program Text WindowsPath

/-! ### Git -/

namespace Git

/-- `GIT_ENVIRONMENT`. -/
def gitEnvironment : List (String × String) :=
  [("GIT_OPTIONAL_LOCKS", "0"), ("GIT_TERMINAL_PROMPT", "0"), ("GIT_ATTR_NOSYSTEM", "1"),
   ("GIT_CONFIG_NOSYSTEM", "1"), ("GIT_CONFIG_SYSTEM", "NUL"), ("GIT_CONFIG_GLOBAL", "NUL"),
   ("GIT_CONFIG_COUNT", "0")]

/-- `GIT_HARDENING_ARGUMENTS`. -/
def gitHardeningArguments : List String :=
  ["--no-pager", "-c", "core.fsmonitor=false", "-c", "core.untrackedCache=false",
   "-c", "core.pager=cat", "-c", "core.attributesFile=", "-c", "diff.external="]

/-- `DIFF_HARDENING_ARGUMENTS`. -/
def diffHardeningArguments : List String := ["--no-ext-diff", "--no-textconv"]

/-- `hardening_arguments`, with the directory that holds no hooks. -/
def hardeningWith (empty : String) : List String :=
  gitHardeningArguments ++ ["-c", "core.hooksPath=" ++ empty]

/-- `hardening_arguments`. -/
def hardeningArguments : MachineM GitError (List String) := do
  let empty ← emptyGitDirectory
  return hardeningWith empty

/-- The subcommands that show differences. -/
def showsDifferences (subcommand : String) : Bool := ["diff", "log", "show"].contains subcommand

/-- `harden_diff_subcommand`. -/
def hardenDiffSubcommand (arguments : List String) (subcommandIndex : ℕ) : List String :=
  if (arguments[subcommandIndex]?).any showsDifferences then
    arguments.take (subcommandIndex + 1) ++ diffHardeningArguments ++
      arguments.drop (subcommandIndex + 1)
  else arguments

/-- `harden_terminal_git`. -/
def hardenTerminalGit (argv : List String) (environment : Environment) :
    MachineM GitError (List String × Environment) := do
  let hardening ← hardeningArguments
  let argv := argv.take 1 ++ hardening ++ argv.drop 1
  let argv := hardenDiffSubcommand argv (1 + hardening.length)
  let environment := environment.insertMany gitEnvironment
  let empty ← emptyGitDirectory
  return (argv, environment.insert "XDG_CONFIG_HOME" empty)

/-- The subcommands that the dispatcher hardens. -/
def hardenedSubcommands : List String := ["status", "diff", "log", "show", "branch"]

end Git

/-! ### The dispatcher -/

namespace Worker

/-- The variables of the agent's own environment that a child is given. -/
def inheritedVariables : List String := ["SystemRoot", "TEMP", "TMP", "USERPROFILE"]

/-- The variables that the agent has among those. -/
def inheritEnvironment {ε : Type} : List String → Environment → MachineM ε Environment
  | [], environment => return environment
  | name :: names, environment => do
      let value ← environmentVariable name
      inheritEnvironment names (value.elim environment (environment.insert name))

/-- `safe_child_environment`. -/
def safeChildEnvironment {ε : Type} (executable : String) : MachineM ε Environment := do
  let environment ← inheritEnvironment inheritedVariables ∅
  return environment.insert "PATH" ((parent executable).getD "")

/-- The hardening of a command, which is left as it is if it is none of those
of Git. -/
def hardenSpec (resolved : String) (spec : TerminalSpec) : MachineM DispatchError TerminalSpec :=
  match spec.argv[1]? with
  | none => return spec
  | some subcommand =>
      if Git.hardenedSubcommands.contains subcommand &&
          eqIgnoreAsciiCase (fileStem resolved) "git" then do
        ExceptT.adapt .git (rejectRepoAlias resolved spec.cwd subcommand)
        let hardened ← ExceptT.adapt .git (Git.hardenTerminalGit spec.argv spec.environment)
        return { spec with argv := hardened.1, environment := hardened.2 }
      else return spec

/-- The answer that a session has been started. -/
def startedJson (sessionId : String) (spec : TerminalSpec) : Value :=
  jsonObject
    [("session_id", .string sessionId), ("state", .string "running"), ("cwd", .string spec.cwd),
     ("timeout_ms", .posInt spec.timeoutMs), ("max_output_bytes", .posInt spec.maxOutputBytes),
     ("columns", .posInt spec.columns), ("rows", .posInt spec.rows),
     ("approval", .string "safe-list")]

/-- `execute_authorized` for `terminal.exec`. -/
def executeSafeCommand (d : Dispatcher) (authorization : Authorization) :
    MachineM DispatchError WorkerOutput := do
  let spec ← check (remoteTerminalSpec authorization.request d.maxOutputBytes)
  let found ← resolveExecutable (spec.argv.headD "") d.policy.config.terminal.safeExecutablePaths
  let resolved ← check (orFail found .invalidTerminalParameters)
  let environment ← safeChildEnvironment resolved
  let spec ← hardenSpec resolved { spec with argv := resolved :: spec.argv.drop 1, environment }
  let owner ← check (terminalSessionOwner authorization.request)
  let sessionId ← ExceptT.adapt .terminal (startSession authorization owner spec)
  return ((startedJson sessionId spec).toBytes, "application/json")

end Worker

/-! ### What is started -/

namespace Git

/-- The arguments of a hardened command after the executable. -/
def hardenedArguments (empty subcommand : String) (rest : List String) : List String :=
  hardeningWith empty ++
    subcommand :: ((if showsDifferences subcommand then diffHardeningArguments else []) ++ rest)

theorem hardenDiffSubcommand_hardened (resolved empty subcommand : String) (rest : List String) :
    hardenDiffSubcommand (resolved :: hardeningWith empty ++ subcommand :: rest)
        (1 + (hardeningWith empty).length) =
      resolved :: hardenedArguments empty subcommand rest := by
  have hlength : (resolved :: hardeningWith empty).length = 1 + (hardeningWith empty).length := by
    rw [List.length_cons, Nat.add_comm]
  have hsubcommand : (resolved :: hardeningWith empty ++ subcommand :: rest)[
      1 + (hardeningWith empty).length]? = some subcommand := by
    rw [← hlength, List.getElem?_append_right le_rfl, Nat.sub_self]
    rfl
  rw [hardenDiffSubcommand, hsubcommand, Option.any_some, hardenedArguments]
  by_cases hshows : showsDifferences subcommand = true
  · rw [if_pos hshows, if_pos hshows, ← hlength, List.take_append, List.drop_append]
    simp [List.take_of_length_le, List.drop_of_length_le]
  · rw [if_neg hshows, if_neg hshows]
    rfl

end Git

namespace Worker

/-- The host answers with the executable that the policy has resolved. -/
def Resolves (host : Host) : History Machine → Event Machine → Prop
  | _, ⟨.resolveExecutable value allowed, reply⟩ =>
      reply = Terminal.resolveSafeExecutablePath host value allowed
  | _, _ => True

/-- What a guarantee asks of the sessions that are started. -/
def Starts (P : History Machine → Authorization → TerminalSpec → Prop) :
    History Machine → MachineOp → Prop
  | h, .startSession authorization _ spec => P h authorization spec
  | _, _ => True

/-- The commands that the dispatcher hardens. -/
def IsHardened (resolved : String) (arguments : List String) : Prop :=
  eqIgnoreAsciiCase (fileStem resolved) "git" = true ∧
    ∃ subcommand rest, arguments = subcommand :: rest ∧
      Git.hardenedSubcommands.contains subcommand = true

/-- A variable of a child: one of the agent's own, or the directory of the
executable as its search path. -/
def ChildVariable (h : History Machine) (resolved name value : String) : Prop :=
  (name ∈ inheritedVariables ∧ (⟨.environmentVariable name, some value⟩ : Event Machine) ∈ h) ∨
    (name = "PATH" ∧ value = (parent resolved).getD "")

/-- The environment of a child. -/
def ChildEnvironment (h : History Machine) (resolved : String) (environment : Environment) : Prop :=
  ∀ name value, environment[name]? = some value → ChildVariable h resolved name value

/-- A hardened command: its alias has been asked for, its arguments follow those
that harden it, and its environment is that of a child with the variables for
Git. -/
def HardenedStart (h : History Machine) (resolved : String) (arguments : List String)
    (spec : TerminalSpec) : Prop :=
  ∃ subcommand rest empty empty' environment, arguments = subcommand :: rest ∧
    (⟨.rejectRepoAlias resolved spec.cwd subcommand, .ok ()⟩ : Event Machine) ∈ h ∧
    (⟨.emptyGitDirectory, .ok empty⟩ : Event Machine) ∈ h ∧
    (⟨.emptyGitDirectory, .ok empty'⟩ : Event Machine) ∈ h ∧
    ChildEnvironment h resolved environment ∧
    spec.argv = resolved :: Git.hardenedArguments empty subcommand rest ∧
    spec.environment = (environment.insertMany Git.gitEnvironment).insert "XDG_CONFIG_HOME" empty'

/-- A command that is started as it is. -/
def PlainStart (h : History Machine) (resolved : String) (arguments : List String)
    (spec : TerminalSpec) : Prop :=
  spec.argv = resolved :: arguments ∧ ChildEnvironment h resolved spec.environment

theorem ChildEnvironment.mono {h : History Machine} {resolved : String} {environment : Environment}
    (henvironment : ChildEnvironment h resolved environment) (e : Event Machine) :
    ChildEnvironment (e :: h) resolved environment := by
  intro name value hvalue
  rcases henvironment name value hvalue with ⟨hname, hevent⟩ | hpath
  · exact Or.inl ⟨hname, List.mem_cons_of_mem e hevent⟩
  · exact Or.inr hpath

section Rules

variable {A : History Machine → Event Machine → Prop}
  {P : History Machine → Authorization → TerminalSpec → Prop} {h : History Machine} {ε : Type}

/-- What a child inherits are variables that the agent has. -/
theorem safe_inheritEnvironment {resolved : String} {names : List String}
    (hnames : ∀ name ∈ names, name ∈ inheritedVariables) {environment : Environment}
    (henvironment : ChildEnvironment h resolved environment) :
    Safe A (Starts P) (fun h' r => ∃ environment', r = .ok environment' ∧
        ChildEnvironment h' resolved environment')
      (inheritEnvironment names environment : MachineM ε Environment).run h := by
  induction names generalizing environment h with
  | nil => exact (safe_exceptT_pure environment).mpr ⟨environment, rfl, henvironment⟩
  | cons name names ih =>
      obtain ⟨hname, hnames⟩ := List.forall_mem_cons.mp hnames
      refine (safe_exceptT_bind _ _).mpr (safe_environmentVariable.mpr ⟨trivial, fun reply _ => ?_⟩)
      refine ih hnames ?_
      cases reply with
      | none => exact henvironment.mono _
      | some value =>
          intro name' value' hvalue
          change (environment.insert name value)[name']? = some value' at hvalue
          rw [Std.ExtTreeMap.getElem?_insert] at hvalue
          split at hvalue
          case isTrue heq =>
              obtain rfl : name = name' := compare_eq_iff_eq.mp heq
              obtain rfl := Option.some.inj hvalue
              exact Or.inl ⟨hname, List.mem_cons_self⟩
          case isFalse => exact henvironment.mono _ name' value' hvalue

theorem safe_safeChildEnvironment {resolved : String} :
    Safe A (Starts P) (fun h' r => ∃ environment, r = .ok environment ∧
        ChildEnvironment h' resolved environment)
      (safeChildEnvironment resolved : MachineM ε Environment).run h := by
  have hempty : ChildEnvironment h resolved ∅ := by
    intro name value hvalue
    simp at hvalue
  refine (safe_exceptT_bind _ _).mpr
    ((safe_inheritEnvironment (fun _ => id) hempty).mono fun h' r hr => ?_)
  obtain ⟨environment, rfl, henvironment⟩ := hr
  refine (safe_exceptT_pure _).mpr ⟨_, rfl, fun name value hvalue => ?_⟩
  rw [Std.ExtTreeMap.getElem?_insert] at hvalue
  split at hvalue
  case isTrue heq =>
      obtain rfl : "PATH" = name := compare_eq_iff_eq.mp heq
      exact Or.inr ⟨rfl, (Option.some.inj hvalue).symm⟩
  case isFalse => exact henvironment name value hvalue

theorem safe_hardenTerminalGit {resolved subcommand : String} {rest : List String}
    {environment : Environment} :
    Safe A (Starts P) (fun h' r => (∃ added, h' = added ++ h) ∧ ∀ hardened, r = .ok hardened →
        ∃ empty empty', (⟨.emptyGitDirectory, .ok empty⟩ : Event Machine) ∈ h' ∧
          (⟨.emptyGitDirectory, .ok empty'⟩ : Event Machine) ∈ h' ∧
          hardened.1 = resolved :: Git.hardenedArguments empty subcommand rest ∧
          hardened.2 =
            (environment.insertMany Git.gitEnvironment).insert "XDG_CONFIG_HOME" empty')
      (Git.hardenTerminalGit (resolved :: subcommand :: rest) environment).run h := by
  refine (safe_exceptT_bind _ _).mpr ?_
  rw [Git.hardeningArguments]
  refine (safe_exceptT_bind _ _).mpr (safe_emptyGitDirectory.mpr ⟨trivial, fun reply _ => ?_⟩)
  cases reply with
  | error e => exact ⟨⟨[_], rfl⟩, fun _ h => by cases h⟩
  | ok empty =>
      rw [then_ok, safe_exceptT_pure, then_ok]
      refine (safe_exceptT_bind _ _).mpr (safe_emptyGitDirectory.mpr ⟨trivial, fun reply _ => ?_⟩)
      cases reply with
      | error e => exact ⟨⟨[_, _], rfl⟩, fun _ h => by cases h⟩
      | ok empty' =>
          refine (safe_exceptT_pure _).mpr ⟨⟨[_, _], rfl⟩, fun hardened hreturn => ?_⟩
          obtain rfl := Except.ok.inj hreturn
          refine ⟨empty, empty', List.mem_cons_of_mem _ List.mem_cons_self,
            List.mem_cons_self, ?_, rfl⟩
          exact Git.hardenDiffSubcommand_hardened resolved empty subcommand rest

/-- What becomes of a command before it is started. -/
theorem safe_hardenSpec {resolved : String} {arguments : List String} {base : TerminalSpec}
    (hargv : base.argv = resolved :: arguments)
    (henvironment : ChildEnvironment h resolved base.environment) :
    Safe A (Starts P) (fun h' r => ∀ spec, r = .ok spec →
        (IsHardened resolved arguments ∧ HardenedStart h' resolved arguments spec) ∨
          (¬ IsHardened resolved arguments ∧ PlainStart h' resolved arguments spec))
      (hardenSpec resolved base).run h := by
  have hplain : ¬ IsHardened resolved arguments → ∀ spec,
      (.ok base : Except DispatchError _) = .ok spec →
      (IsHardened resolved arguments ∧ HardenedStart h resolved arguments spec) ∨
        (¬ IsHardened resolved arguments ∧ PlainStart h resolved arguments spec) := by
    intro hnot spec hspec
    obtain rfl := Except.ok.inj hspec
    exact Or.inr ⟨hnot, hargv, henvironment⟩
  rw [hardenSpec, hargv]
  cases arguments with
  | nil =>
      refine (safe_exceptT_pure base).mpr (hplain ?_)
      rintro ⟨_, subcommand, rest, hnil, _⟩
      cases hnil
  | cons subcommand rest =>
      change Safe A (Starts P) _ (ExceptT.run (if Git.hardenedSubcommands.contains subcommand &&
        eqIgnoreAsciiCase (fileStem resolved) "git" then _ else _)) h
      split
      case isFalse hnot =>
          refine (safe_exceptT_pure base).mpr (hplain ?_)
          rintro ⟨hgit, subcommand', rest', hcons, hcontains⟩
          obtain ⟨rfl, rfl⟩ := List.cons.inj hcons
          exact hnot (Bool.and_eq_true_iff.mpr ⟨hcontains, hgit⟩)
      case isTrue hhardened =>
          obtain ⟨hcontains, hgit⟩ := Bool.and_eq_true_iff.mp hhardened
          refine (safe_exceptT_bind _ _).mpr ((safe_exceptT_adapt _ _).mpr
            (safe_rejectRepoAlias.mpr ⟨trivial, fun reply _ => ?_⟩))
          cases reply with
          | error e => exact fun _ h => by cases h
          | ok _ =>
              refine (safe_exceptT_bind _ _).mpr ((safe_exceptT_adapt _ _).mpr
                (safe_hardenTerminalGit.mono fun h' r hr => ?_))
              obtain ⟨⟨added, rfl⟩, hr⟩ := hr
              cases r with
              | error e => exact fun _ h => by cases h
              | ok hardened =>
                  refine (safe_exceptT_pure _).mpr fun spec hspec => Or.inl ⟨?_, ?_⟩
                  · exact ⟨hgit, subcommand, rest, rfl, hcontains⟩
                  · obtain rfl := Except.ok.inj hspec
                    obtain ⟨empty, empty', hempty, hempty', hargv', henvironment'⟩ :=
                      hr hardened rfl
                    refine ⟨subcommand, rest, empty, empty', base.environment, rfl,
                      List.mem_append_right added List.mem_cons_self, hempty, hempty', ?_, hargv',
                      henvironment'⟩
                    -- the variables were inherited before anything was added for git
                    intro name value hvalue
                    rcases henvironment name value hvalue with ⟨hname, hevent⟩ | hpath
                    · exact Or.inl
                        ⟨hname, List.mem_append_right added (List.mem_cons_of_mem _ hevent)⟩
                    · exact Or.inr hpath

end Rules

/-- What the dispatcher starts for a request: the resolved executable with the
arguments of the request, hardened or as they are. -/
def StartsCommand (d : Dispatcher) (host : Host) (request : ActionRequest) (h : History Machine)
    (spec : TerminalSpec) : Prop :=
  ∃ executable arguments resolved, argvOf request = some (executable :: arguments) ∧
    Terminal.resolveSafeExecutablePath host executable
      d.policy.config.terminal.safeExecutablePaths = some resolved ∧
    ((IsHardened resolved arguments ∧ HardenedStart h resolved arguments spec) ∨
      (¬ IsHardened resolved arguments ∧ PlainStart h resolved arguments spec))

theorem remoteTerminalSpec_argv_ne_nil {request : ActionRequest} {limit : ℕ} {spec : TerminalSpec}
    (h : remoteTerminalSpec request limit = .ok spec) : spec.argv ≠ [] := by
  simp only [remoteTerminalSpec, bind_eq_ok, exists_unit, failIf_eq_ok, orFail_eq_ok,
    pure_eq_ok] at h
  obtain ⟨_, argv, _, hargv, _, _, _, _, _, _, _, _, _, _, _, rfl⟩ := h
  exact hargv

/-- Whatever the host answers, as long as it resolves executables as the policy
has. -/
theorem safe_executeSafeCommand (d : Dispatcher) (host : Host) (authorization : Authorization) :
    Safe (Resolves host)
      (Starts fun h authorization' spec => authorization' = authorization ∧
        StartsCommand d host authorization.request h spec)
      (fun _ _ => True) (executeSafeCommand d authorization).run [] := by
  refine safe_check_bind (fun _ => trivial) ?_
  intro spec hspec
  obtain ⟨hargv, _⟩ := remoteTerminalSpec_eq_ok hspec
  obtain ⟨executable, arguments, hcons⟩ :=
    List.exists_cons_of_ne_nil (remoteTerminalSpec_argv_ne_nil hspec)
  rw [hcons] at hargv
  refine (safe_exceptT_bind _ _).mpr (safe_resolveExecutable.mpr ⟨trivial, fun reply hreply => ?_⟩)
  rw [hcons] at hreply
  refine safe_check_bind (fun _ => trivial) ?_
  intro resolved hresolved
  obtain rfl := orFail_eq_ok.mp hresolved
  refine (safe_exceptT_bind _ _).mpr (safe_safeChildEnvironment.mono fun h r hr => ?_)
  obtain ⟨environment, rfl, henvironment⟩ := hr
  have hargv' : resolved :: spec.argv.drop 1 = resolved :: arguments := by
    rw [hcons]
    rfl
  rw [then_ok]
  refine (safe_exceptT_bind _ _).mpr ((safe_hardenSpec hargv' henvironment).mono fun h' r hr => ?_)
  cases r with
  | error e => trivial
  | ok started =>
      refine safe_check_bind (fun _ => trivial) ?_
      intro owner _
      refine (safe_exceptT_bind _ _).mpr ((safe_exceptT_adapt _ _).mpr
        (safe_startSession.mpr ⟨?_, fun reply _ => ?_⟩))
      · exact ⟨rfl, executable, arguments, resolved, hargv, hreply.symm, hr started rfl⟩
      · cases reply with
        | error e => trivial
        | ok sessionId => exact (safe_exceptT_pure _).mpr trivial

end Worker

end VorCommander
