import VorCommander.Device.OneShot
import VorCommander.Worker.SafeCommand

/-!
What the safe list lets run.

A command that the policy lets run by its safe list is started as it was judged:
the same executable, the same arguments, and a few variables. Git is hardened
where its first argument is one of five subcommands, and not otherwise, although
the list may name any command of Git.
-/

namespace VorCommander

open Steps Steps.Program Text WindowsPath

/-! ### Commands that are listed -/

/-- What the safe list asks of a command, and the executable that it stands
for. -/
structure ListedCommand (config : PolicyConfig) (host : Host) (executable : String)
    (arguments : List String) (resolved : String) : Prop where
  resolves : Terminal.resolveSafeExecutablePath host executable
    config.terminal.safeExecutablePaths = some resolved
  trusted : ∃ path ∈ config.terminal.safeExecutablePaths, isAbsolute path = true ∧
    ∃ canonical, host.canonicalize path = some canonical ∧
      eqIgnoreAsciiCase resolved canonical = true
  rule : ∃ rule ∈ config.terminal.safeCommands,
    Terminal.executableNameMatches resolved rule.executable = true ∧ arguments = rule.arguments
  plain : ∀ argument ∈ executable :: arguments, Terminal.containsShellControl argument = false
  allowed : ∀ argument ∈ arguments, Terminal.forbiddenSafeArgument argument = false
  noShell : Terminal.forbiddenSafeExecutable resolved = false
  noInline : Terminal.commandIsInlineEval (executable :: arguments) = false

namespace Terminal

theorem eqIgnoreAsciiCase_self (s : String) : eqIgnoreAsciiCase s s = true :=
  decide_eq_true rfl

/-- What an executable is resolved to is a trusted one, up to the case of
letters. -/
theorem trusted_of_resolve {host : Host} {value resolved : String} {allowed : List String}
    (h : resolveSafeExecutablePath host value allowed = some resolved) :
    ∃ path ∈ allowed, isAbsolute path = true ∧ ∃ canonical,
      host.canonicalize path = some canonical ∧
      eqIgnoreAsciiCase resolved canonical = true := by
  have htrusted : ∀ canonical ∈ (allowed.filter isAbsolute).filterMap host.canonicalize,
      ∃ path ∈ allowed, isAbsolute path = true ∧ host.canonicalize path = some canonical := by
    intro canonical hmem
    obtain ⟨path, hpath, hcanonical⟩ := List.mem_filterMap.mp hmem
    obtain ⟨hallowed, habsolute⟩ := List.mem_filter.mp hpath
    exact ⟨path, hallowed, habsolute, hcanonical⟩
  rw [resolveSafeExecutablePath] at h
  split at h
  · obtain ⟨_, hany⟩ := Option.filter_eq_some_iff.mp h
    obtain ⟨canonical, hmem, hsame⟩ := List.any_eq_true.mp hany
    obtain ⟨path, hallowed, habsolute, hcanonical⟩ := htrusted canonical hmem
    exact ⟨path, hallowed, habsolute, canonical, hcanonical, hsame⟩
  · obtain ⟨path, hallowed, habsolute, hcanonical⟩ :=
      htrusted resolved (List.mem_of_find?_eq_some h)
    exact ⟨path, hallowed, habsolute, resolved, hcanonical, eqIgnoreAsciiCase_self resolved⟩

/-- A command that matches the safe list is listed. -/
theorem listed_of_matches {config : PolicyConfig} {host : Host} {executable : String}
    {arguments : List String}
    (hmatches : safeCommandMatches host executable arguments config.terminal.safeCommands
      config.terminal.safeExecutablePaths = true)
    (hinline : commandIsInlineEval (executable :: arguments) = false) :
    ∃ resolved, ListedCommand config host executable arguments resolved := by
  rw [safeCommandMatches] at hmatches
  split at hmatches
  case h_1 => cases hmatches
  case h_2 resolved hresolved =>
      simp only [Bool.and_eq_true, Bool.not_eq_true', Bool.or_eq_false_iff, List.any_eq_true,
        decide_eq_true_eq] at hmatches
      obtain ⟨⟨⟨hplain, hallowed⟩, hshell⟩, rule, hrule, ⟨_, hname⟩, harguments⟩ := hmatches
      refine ⟨resolved, hresolved, trusted_of_resolve hresolved, ⟨rule, hrule, hname, harguments⟩,
        ?_, ?_, hshell, hinline⟩
      · exact fun argument hmem => by simpa using List.any_eq_false.mp hplain argument hmem
      · exact fun argument hmem => by simpa using List.any_eq_false.mp hallowed argument hmem

end Terminal

namespace PolicyConfig

variable {config : PolicyConfig} {host : Host} {request : ActionRequest}

/-- The ways in which a command is decided to run without an approval. -/
theorem terminalExecDecision_auto (h : (config.terminalExecDecision host request).1 = .auto) :
    ∃ executable arguments, terminalArgv request = some (executable :: arguments) ∧
      (((config.terminalExecDecision host request).2 = "terminal_inline_eval" ∧
          config.terminal.inlineEval = .auto ∧
          Terminal.commandIsInlineEval (executable :: arguments) = true) ∨
        ((config.terminalExecDecision host request).2 = "terminal_default" ∧
          config.terminal.default = .auto) ∨
        (config.terminalExecDecision host request).2 = "terminal_safe_list" ∧
          ∃ resolved, ListedCommand config host executable arguments resolved) := by
  rw [terminalExecDecision] at h ⊢
  split at h
  case h_1 => cases h
  case h_2 => cases h
  case h_3 executable arguments hargv =>
      refine ⟨executable, arguments, hargv, ?_⟩
      split_ifs at h ⊢ with hinline hlisted
      · exact Or.inl ⟨rfl, h, hinline⟩
      · rw [Bool.and_eq_true] at hlisted
        exact Or.inr
          (Or.inr ⟨rfl, Terminal.listed_of_matches hlisted.2 (Bool.eq_false_iff.mpr hinline)⟩)
      · exact Or.inr (Or.inl ⟨rfl, h⟩)

/-- Policy and worker read the same arguments. -/
theorem argvOf_of_terminalArgv {argv : List String} (h : terminalArgv request = some argv) :
    Worker.argvOf request = some argv := by
  simp only [terminalArgv, parameter, Option.bind_eq_bind, Option.bind_eq_some_iff] at h
  obtain ⟨values, ⟨value, hvalue, hvalues⟩, h⟩ := h
  split at h
  · cases h
  · simp only [Worker.argvOf, hvalue, hvalues, Option.bind_eq_bind, Option.bind_some, h]

end PolicyConfig

namespace Worker

variable (d : Dispatcher) (host : Host) (request : ActionRequest)

/-- A request as the policy of the device has decided it. -/
def decided : Authorization := ⟨request, d.policy.evaluate host request⟩

/-- A started command that the safe list has let run: its executable and its
arguments are those that were judged, hardened or as they are. -/
def StartsListed (h : History Machine) (authorization : Authorization)
    (spec : TerminalSpec) : Prop :=
  authorization = decided d host request ∧
    ∃ executable arguments resolved,
      PolicyConfig.terminalArgv request = some (executable :: arguments) ∧
      ListedCommand d.policy.config host executable arguments resolved ∧
      (HardenedStart h resolved arguments spec ∨ PlainStart h resolved arguments spec)

/-- A command runs without an approval by the safe list only if it is listed, and
otherwise by a rule of the policy that says so. A listed command is started as it
was judged. -/
theorem listed_command_started (haction : request.envelope.action = "terminal.exec")
    (hauto : (d.policy.evaluate host request).kind = .auto) :
    (∃ executable arguments, PolicyConfig.terminalArgv request = some (executable :: arguments) ∧
      (((d.policy.evaluate host request).reasonCode = "terminal_inline_eval" ∧
          d.policy.config.terminal.inlineEval = .auto ∧
          Terminal.commandIsInlineEval (executable :: arguments) = true) ∨
        ((d.policy.evaluate host request).reasonCode = "terminal_default" ∧
          d.policy.config.terminal.default = .auto) ∨
        (d.policy.evaluate host request).reasonCode = "terminal_safe_list" ∧
          ∃ resolved, ListedCommand d.policy.config host executable arguments resolved)) ∧
    ((d.policy.evaluate host request).reasonCode = "terminal_safe_list" →
      Safe (Resolves host) (Starts (StartsListed d host request)) (fun _ _ => True)
        (executeSafeCommand d (decided d host request)).run []) := by
  have hrule : d.policy.config.ruleFor host request =
      d.policy.config.terminalExecDecision host request := by
    simp only [PolicyConfig.ruleFor, haction]
  have hdecision : (d.policy.config.terminalExecDecision host request).1 = .auto := by
    rwa [PolicyEngine.evaluate_kind, RuleDecision.kind_eq_auto, hrule] at hauto
  have hways := PolicyConfig.terminalExecDecision_auto hdecision
  rw [PolicyEngine.evaluate_reasonCode, hrule]
  refine ⟨hways, fun hreason => ?_⟩
  obtain ⟨executable, arguments, hargv, hinline | hdefault | ⟨_, resolved, hlisted⟩⟩ := hways
  · rw [hreason] at hinline
    exact absurd hinline.1 (by decide)
  · rw [hreason] at hdefault
    exact absurd hdefault.1 (by decide)
  refine (safe_executeSafeCommand d host (decided d host request)).guarantee fun h op hstarts => ?_
  cases op with
  | startSession authorization owner spec =>
      obtain ⟨rfl, executable', arguments', resolved', hargv', hresolved', hstarted⟩ := hstarts
      have hsame : some (executable :: arguments) = some (executable' :: arguments') :=
        (PolicyConfig.argvOf_of_terminalArgv hargv).symm.trans hargv'
      obtain ⟨rfl, rfl⟩ := List.cons.inj (Option.some.inj hsame)
      obtain rfl := Option.some.inj (hlisted.resolves.symm.trans hresolved')
      exact ⟨rfl, executable, arguments, resolved, hargv, hlisted,
        hstarted.imp And.right And.right⟩
  | _ => trivial

namespace SafeListSample

/-- Git may show what has changed, with and without a pager. -/
def policy : PolicyEngine where
  config :=
    { Sample.closedPolicy with
      mode := .policy
      terminal :=
        { Sample.closedPolicy.terminal with
          safeExecutablePaths := ["C:\\git.exe"]
          safeCommands := [⟨"git", ["diff"]⟩, ⟨"git", ["--no-pager", "diff"]⟩] } }
  policyHash := "sample"
  supported := rfl
  named := by decide

/-- Every command may run. -/
def openPolicy : PolicyEngine :=
  { policy with
    config :=
      { policy.config with terminal := { policy.config.terminal with default := .auto } } }

def dispatcher : Dispatcher :=
  { Sample.dispatcher policy with maxOutputBytes := 65536, bounded := by decide }

/-- A command of Git. -/
def command (arguments : List String) : ActionRequest where
  envelope :=
    Sample.envelope "terminal.exec" "C:\\work"
      (.ofList [("argv", Value.array (("C:\\git.exe" :: arguments).map Value.string))])
  envelopeDigest := Vector.replicate 32 0

/-- Every path is there, as it is written. -/
abbrev plainHost : Host := Sample.surroundings.host

end SafeListSample

open SafeListSample in
/-- The command that shows what has changed is decided by the safe list, and
started. -/
theorem listed_command_started_diff :
    Safe (Resolves plainHost) (Starts (StartsListed dispatcher plainHost (command ["diff"])))
      (fun _ _ => True)
      (executeSafeCommand dispatcher (decided dispatcher plainHost (command ["diff"]))).run [] :=
  (listed_command_started dispatcher plainHost (command ["diff"]) rfl (by decide)).2
    (by decide)

open SafeListSample in
/-- A policy may let a command run that is not listed. -/
theorem unlisted_command_auto :
    ¬ ∀ (engine : PolicyEngine) (host : Host) (request : ActionRequest),
      request.envelope.action = "terminal.exec" → (engine.evaluate host request).kind = .auto →
        ∃ executable arguments resolved,
          PolicyConfig.terminalArgv request = some (executable :: arguments) ∧
            ListedCommand engine.config host executable arguments resolved := by
  intro h
  obtain ⟨executable, arguments, resolved, hargv, hlisted⟩ :=
    h openPolicy plainHost (command ["push"]) rfl (by decide)
  have hpush : PolicyConfig.terminalArgv (command ["push"]) = some ["C:\\git.exe", "push"] := by
    decide
  obtain ⟨rfl, rfl⟩ := List.cons.inj (Option.some.inj (hargv.symm.trans hpush))
  obtain ⟨rule, hrule, _, hrest⟩ := hlisted.rule
  have hrules : ∀ rule ∈ openPolicy.config.terminal.safeCommands, ["push"] ≠ rule.arguments := by
    decide
  exact hrules rule hrule hrest

/-! ### Git -/

/-- Options of Git before the subcommand that take the next word. -/
def valuedGitOptions : List String :=
  ["-C", "-c", "--git-dir", "--work-tree", "--namespace", "--config-env"]

/-- The options before the subcommand, and the rest. -/
def splitGitOptions : List String → List String × List String
  | [] => ([], [])
  | [word] => if startsWith word "-" then ([word], []) else ([], [word])
  | word :: next :: rest =>
      if valuedGitOptions.contains word then
        (word :: next :: (splitGitOptions rest).1, (splitGitOptions rest).2)
      else if startsWith word "-" then
        (word :: (splitGitOptions (next :: rest)).1, (splitGitOptions (next :: rest)).2)
      else ([], word :: next :: rest)

/-- A command of Git that is hardened whatever its subcommand: the arguments that
harden it stand before the options and the subcommand, those against the
programs of a repository after a subcommand that shows differences; the
subcommand is no alias; the variables for Git are set. -/
def GitCovered (h : History Machine) (resolved : String) (arguments : List String)
    (spec : TerminalSpec) : Prop :=
  (∃ empty options subcommand rest, splitGitOptions arguments = (options, subcommand :: rest) ∧
    spec.argv = resolved :: (Git.hardeningWith empty ++ options ++ subcommand ::
      ((if Git.showsDifferences subcommand then Git.diffHardeningArguments else []) ++ rest)) ∧
    (⟨.rejectRepoAlias resolved spec.cwd subcommand, .ok ()⟩ : Event Machine) ∈ h) ∧
  (∀ setting ∈ Git.gitEnvironment, spec.environment[setting.1]? = some setting.2) ∧
  ∃ empty, (⟨.emptyGitDirectory, .ok empty⟩ : Event Machine) ∈ h ∧
    spec.environment["XDG_CONFIG_HOME"]? = some empty

theorem getElem?_gitEnvironment (environment : Environment) (empty : String) :
    (∀ setting ∈ Git.gitEnvironment,
      ((environment.insertMany Git.gitEnvironment).insert "XDG_CONFIG_HOME" empty)[setting.1]? =
        some setting.2) ∧
    ((environment.insertMany Git.gitEnvironment).insert "XDG_CONFIG_HOME" empty)[
      "XDG_CONFIG_HOME"]? = some empty := by
  constructor
  · intro setting hsetting
    have hname : compare "XDG_CONFIG_HOME" setting.1 ≠ .eq := by
      revert setting
      decide
    rw [Std.ExtTreeMap.getElem?_insert, if_neg hname]
    have hdistinct : Git.gitEnvironment.Pairwise fun a b => ¬ compare a.1 b.1 = .eq := by decide
    exact Std.ExtTreeMap.getElem?_insertMany_list_of_mem (compare_eq_iff_eq.mpr rfl) hdistinct
      hsetting
  · exact Std.ExtTreeMap.getElem?_insert_self

/-- A hardened subcommand stands first: there are no options before it. -/
theorem splitGitOptions_hardened {subcommand : String}
    (hsubcommand : Git.hardenedSubcommands.contains subcommand = true) (rest : List String) :
    splitGitOptions (subcommand :: rest) = ([], subcommand :: rest) := by
  have hwords : ∀ word ∈ Git.hardenedSubcommands,
      ¬ startsWith word "-" = true ∧ ¬ valuedGitOptions.contains word = true := by
    decide
  obtain ⟨hoption, hvalued⟩ := hwords subcommand (List.contains_iff_mem.mp hsubcommand)
  cases rest with
  | nil => rw [splitGitOptions, if_neg hoption]
  | cons next rest => rw [splitGitOptions, if_neg hvalued, if_neg hoption]

theorem HardenedStart.covered {h : History Machine} {resolved : String} {arguments : List String}
    {spec : TerminalSpec} (hhardened : IsHardened resolved arguments)
    (hstart : HardenedStart h resolved arguments spec) : GitCovered h resolved arguments spec := by
  obtain ⟨_, subcommand, rest, rfl, hsubcommand⟩ := hhardened
  obtain ⟨_, _, empty, empty', environment, heq, halias, _, hempty', _, hargv, henvironment⟩ :=
    hstart
  obtain ⟨rfl, rfl⟩ := List.cons.inj heq
  obtain ⟨hsettings, hconfig⟩ := getElem?_gitEnvironment environment empty'
  refine ⟨⟨empty, [], subcommand, rest, splitGitOptions_hardened hsubcommand rest, ?_, halias⟩,
    ?_, empty', hempty', ?_⟩
  · rw [hargv, List.append_nil, Git.hardenedArguments]
  · rw [henvironment]
    exact hsettings
  · rw [henvironment]
    exact hconfig

/-- A command that is started as it is has no variables for Git. -/
theorem PlainStart.not_covered {h : History Machine} {resolved : String} {arguments : List String}
    {spec : TerminalSpec} (hstart : PlainStart h resolved arguments spec) :
    ¬ GitCovered h resolved arguments spec := by
  rintro ⟨_, hsettings, _⟩
  have hlocks := hsettings ("GIT_OPTIONAL_LOCKS", "0") (by decide)
  rcases hstart.2 _ _ hlocks with ⟨hinherited, _⟩ | ⟨hpath, _⟩
  · exact absurd hinherited (by decide)
  · exact absurd hpath (by decide)

/-- A command of Git is hardened whatever its subcommand if and only if its first
argument is one of five subcommands. -/
theorem git_covered_iff {executable resolved : String} {arguments : List String}
    (hargv : PolicyConfig.terminalArgv request = some (executable :: arguments))
    (hresolved : Terminal.resolveSafeExecutablePath host executable
      d.policy.config.terminal.safeExecutablePaths = some resolved)
    (hgit : eqIgnoreAsciiCase (fileStem resolved) "git" = true) :
    Safe (Resolves host)
      (Starts fun h _ spec => GitCovered h resolved arguments spec ↔
        ∃ subcommand rest, arguments = subcommand :: rest ∧
          Git.hardenedSubcommands.contains subcommand = true)
      (fun _ _ => True) (executeSafeCommand d (decided d host request)).run [] := by
  refine (safe_executeSafeCommand d host (decided d host request)).guarantee fun h op hstarts => ?_
  cases op with
  | startSession authorization owner spec =>
      obtain ⟨_, executable', arguments', resolved', hargv', hresolved', hstarted⟩ := hstarts
      have hsame : some (executable :: arguments) = some (executable' :: arguments') :=
        (PolicyConfig.argvOf_of_terminalArgv hargv).symm.trans hargv'
      obtain ⟨rfl, rfl⟩ := List.cons.inj (Option.some.inj hsame)
      obtain rfl := Option.some.inj (hresolved.symm.trans hresolved')
      rcases hstarted with ⟨hhardened, hstart⟩ | ⟨hnot, hstart⟩
      · exact iff_of_true (hstart.covered hhardened) hhardened.2
      · exact iff_of_false hstart.not_covered fun hfirst => hnot ⟨hgit, hfirst⟩
  | _ => trivial

/-! ### A command of Git that is not hardened -/

/-- Where the agent has no variables to pass on, the environment stays as it is. -/
theorem inheritEnvironment_unset {ε : Type}
    {P : History Machine → Authorization → TerminalSpec → Prop}
    {Q : History Machine → Except ε Environment → Prop} {environment : Environment}
    (names : List String) {h : History Machine}
    (hsafe : Safe (Resolves host) (Starts P) Q
      (inheritEnvironment names environment : MachineM ε Environment).run h) :
    ∃ h', Q h' (.ok environment) := by
  induction names generalizing h with
  | nil => exact ⟨h, (safe_exceptT_pure environment).mp hsafe⟩
  | cons name names ih =>
      have hrest := (safe_environmentVariable.mp ((safe_exceptT_bind _ _).mp hsafe)).2 none trivial
      exact ih hrest

/-- A command that is not hardened is started as it is. -/
theorem plain_command_started {P : History Machine → Authorization → TerminalSpec → Prop}
    {authorization : Authorization} {spec : TerminalSpec} {owner : TerminalSessionOwner}
    {resolved : String}
    (hsafe : Safe (Resolves host) (Starts P) (fun _ _ => True)
      (executeSafeCommand d authorization).run [])
    (hspec : remoteTerminalSpec authorization.request d.maxOutputBytes = .ok spec)
    (hresolved : Terminal.resolveSafeExecutablePath host (spec.argv.headD "")
      d.policy.config.terminal.safeExecutablePaths = some resolved)
    (hplain : ∀ base : TerminalSpec, base.argv = resolved :: spec.argv.drop 1 →
      hardenSpec resolved base = pure base)
    (howner : terminalSessionOwner authorization.request = .ok owner) :
    ∃ h environment, P h authorization
      { spec with argv := resolved :: spec.argv.drop 1, environment := environment } := by
  have hchecked := (safe_check _).mp ((safe_exceptT_bind _ _).mp hsafe)
  rw [hspec, then_ok] at hchecked
  have hfound := (safe_resolveExecutable.mp ((safe_exceptT_bind _ _).mp hchecked)).2 (some resolved)
    hresolved.symm
  have hpassed : Safe _ _ _ (_ : MachineM DispatchError WorkerOutput).run _ :=
    (safe_check _).mp ((safe_exceptT_bind _ _).mp hfound)
  have hinherited := (safe_exceptT_bind _ _).mp ((safe_exceptT_bind _ _).mp hpassed)
  obtain ⟨h, hprepared⟩ := inheritEnvironment_unset host inheritedVariables hinherited
  rw [then_ok, safe_exceptT_pure, then_ok] at hprepared
  have hhardened := (safe_exceptT_bind _ _).mp hprepared
  rw [hplain _ rfl, safe_exceptT_pure, then_ok] at hhardened
  have howned := (safe_check _).mp ((safe_exceptT_bind _ _).mp hhardened)
  rw [howner, then_ok] at howned
  exact ⟨h, _, (safe_startSession.mp ((safe_exceptT_adapt _ _).mp
    ((safe_exceptT_bind _ _).mp howned))).1⟩

open SafeListSample in
/-- Nothing hardens a command of Git that the safe list names with an option
before its subcommand. -/
theorem git_option_uncovered :
    ¬ ∀ (d : Dispatcher) (host : Host) (request : ActionRequest)
      (executable resolved : String) (arguments : List String),
      request.envelope.action = "terminal.exec" →
      (d.policy.evaluate host request).kind = .auto →
      (d.policy.evaluate host request).reasonCode = "terminal_safe_list" →
      PolicyConfig.terminalArgv request = some (executable :: arguments) →
      Terminal.resolveSafeExecutablePath host executable
        d.policy.config.terminal.safeExecutablePaths = some resolved →
      eqIgnoreAsciiCase (fileStem resolved) "git" = true →
      Safe (Resolves host) (Starts fun h _ spec => GitCovered h resolved arguments spec)
        (fun _ _ => True) (executeSafeCommand d (decided d host request)).run [] := by
  intro h
  have hargv : PolicyConfig.terminalArgv (command ["--no-pager", "diff"]) =
      some ["C:\\git.exe", "--no-pager", "diff"] := by decide
  have hresolved : Terminal.resolveSafeExecutablePath plainHost "C:\\git.exe"
      dispatcher.policy.config.terminal.safeExecutablePaths =
        some "C:\\git.exe" := by decide
  have hgit : eqIgnoreAsciiCase (fileStem "C:\\git.exe") "git" = true := by decide
  have hcovered := h dispatcher plainHost (command ["--no-pager", "diff"]) _ _ _ rfl
    (by decide) (by decide) hargv hresolved hgit
  have hspec : (remoteTerminalSpec (command ["--no-pager", "diff"])
      dispatcher.maxOutputBytes).toOption.isSome = true := by decide
  have howner : (terminalSessionOwner (command ["--no-pager", "diff"])).toOption.isSome = true := by
    decide
  obtain ⟨spec, hspec⟩ := Option.isSome_iff_exists.mp hspec
  obtain ⟨owner, howner⟩ := Option.isSome_iff_exists.mp howner
  have hread : spec.argv = ["C:\\git.exe", "--no-pager", "diff"] :=
    Option.some.inj ((remoteTerminalSpec_eq_ok (toOption_eq_some.mp hspec)).1.symm.trans
      (PolicyConfig.argvOf_of_terminalArgv hargv))
  have hplain : ∀ base : TerminalSpec, base.argv = "C:\\git.exe" :: spec.argv.drop 1 →
      hardenSpec "C:\\git.exe" base = pure base := by
    intro base hbase
    have hfirst : base.argv[1]? = some "--no-pager" := by rw [hbase, hread, List.drop_one]; rfl
    have hnone : Git.hardenedSubcommands.contains "--no-pager" = false := by decide
    simp only [hardenSpec, hfirst, hnone, Bool.false_and, Bool.false_eq_true, if_false]
  obtain ⟨_, _, ⟨_, options, _, _, _, hstarted, _⟩, _⟩ := plain_command_started dispatcher plainHost
    hcovered (toOption_eq_some.mp hspec) (by rw [hread]; exact hresolved) hplain
    (toOption_eq_some.mp howner)
  rw [hread] at hstarted
  exact absurd (List.cons.inj (List.cons.inj (List.cons.inj hstarted).2).2).1 (by decide)

open SafeListSample in
/-- The command that shows what has changed is hardened. -/
theorem git_covered_iff_diff :
    Safe (Resolves plainHost)
      (Starts fun h _ spec => GitCovered h "C:\\git.exe" ["diff"] spec ↔
        ∃ subcommand rest, ["diff"] = subcommand :: rest ∧
          Git.hardenedSubcommands.contains subcommand = true)
      (fun _ _ => True)
      (executeSafeCommand dispatcher (decided dispatcher plainHost (command ["diff"]))).run [] := by
  have hargv : PolicyConfig.terminalArgv (command ["diff"]) = some ["C:\\git.exe", "diff"] := by
    decide
  exact git_covered_iff dispatcher plainHost (command ["diff"]) hargv (by decide)
    (by decide)

end Worker

end VorCommander
