import VorCommander.Device.Interface

/-!
The command a terminal request stands for.

`remoteTerminalSpec` reads the parameters of a request, `terminalSessionOwner`
the owner of the session it starts, and `checkSpec` and `commandLine` are what
the terminal worker asks of a specification before it starts one. Which
environment a command runs in, and the arguments that are put into a Git
command, are filled in by the caller.
-/

namespace VorCommander

open Steps Text WindowsPath

/-- The environment of a child process, by name. -/
abbrev Environment := Std.ExtTreeMap String String

structure TerminalSpec where
  argv : List String
  environment : Environment
  cwd : String
  timeoutMs : ℕ
  maxOutputBytes : ℕ
  columns : ℕ
  rows : ℕ

structure TerminalSessionOwner where
  organizationId : String
  actorId : String
  deviceId : String
  workspaceId : Option String
  deriving DecidableEq

structure TerminalLimits where
  maxTimeoutMs : ℕ
  maxOutputBytes : ℕ
  maxArgc : ℕ
  maxArgBytes : ℕ
  maxColumns : ℕ
  maxRows : ℕ

def defaultRemoteTerminalTimeoutMs : ℕ := 30000

def defaultRemoteTerminalOutputBytes : ℕ := 256 * 1024

/-- `TerminalLimits::default`. -/
def TerminalLimits.default : TerminalLimits where
  maxTimeoutMs := 120000
  maxOutputBytes := 1024 * 1024
  maxArgc := 128
  maxArgBytes := 32 * 1024
  maxColumns := 240
  maxRows := 120

namespace Worker

/-! ### Reading a request -/

/-- A parameter that converts if it is there at all. -/
def optionalParameter {α : Type} (request : ActionRequest) (name : String)
    (convert : Value → Option α) : Except DispatchError (Option α) :=
  match request.envelope.parameters[name]? with
  | none => .ok none
  | some value => (orFail (convert value) .invalidTerminalParameters).map some

/-- The parameters a terminal request may have. -/
def allowedTerminalParameters : List String :=
  ["argv", "timeout_ms", "max_output_bytes", "columns", "rows", "workspace_id"]

/-- The output a session may have so that the answer of a poll, in which it is
encoded, stays below the limit of the dispatcher. -/
def jsonSafeOutputLimit (dispatcherOutputLimit : ℕ) : ℕ :=
  min ((dispatcherOutputLimit - 16 * 1024) * 3) (2 ^ 64 - 1) / 4

/-- The argument vector of a request: an array of strings. -/
def argvOf (request : ActionRequest) : Option (List String) := do
  let value ← request.envelope.parameters["argv"]?
  let items ← value.asArray
  items.mapM Value.asStr

/-- `remote_terminal_spec`. -/
def remoteTerminalSpec (request : ActionRequest) (dispatcherOutputLimit : ℕ) :
    Except DispatchError TerminalSpec := do
  failIf (request.envelope.parameters.keys.any fun key => !allowedTerminalParameters.contains key)
    .invalidTerminalParameters
  let argv ← orFail (argvOf request) .invalidTerminalParameters
  failIf (argv = []) .invalidTerminalParameters
  let timeoutMs ← optionalParameter request "timeout_ms" Value.asU64
  let limit := jsonSafeOutputLimit dispatcherOutputLimit
  failIf (limit = 0) .invalidTerminalParameters
  let requestedOutput ← optionalParameter request "max_output_bytes" Value.asU64
  let columns ← optionalParameter request "columns" Value.asU64
  let rows ← optionalParameter request "rows" Value.asU64
  failIf (2 ^ 16 ≤ columns.getD 120) .invalidTerminalParameters
  failIf (2 ^ 16 ≤ rows.getD 40) .invalidTerminalParameters
  return { argv
           environment := ∅
           cwd := request.envelope.target
           timeoutMs := timeoutMs.getD defaultRemoteTerminalTimeoutMs
           maxOutputBytes := min (requestedOutput.getD defaultRemoteTerminalOutputBytes) limit
           columns := columns.getD 120
           rows := rows.getD 40 }

/-- The specification of a request is what the request says, with the defaults
of the device where it says nothing; only the output may be less. -/
theorem remoteTerminalSpec_eq_ok {request : ActionRequest} {limit : ℕ} {spec : TerminalSpec}
    (h : remoteTerminalSpec request limit = .ok spec) :
    argvOf request = some spec.argv ∧ spec.environment = ∅ ∧ spec.cwd = request.envelope.target ∧
      (∃ timeout, optionalParameter request "timeout_ms" Value.asU64 = .ok timeout ∧
        spec.timeoutMs = timeout.getD defaultRemoteTerminalTimeoutMs) ∧
      ∃ output, optionalParameter request "max_output_bytes" Value.asU64 = .ok output ∧
        spec.maxOutputBytes ≤ output.getD defaultRemoteTerminalOutputBytes := by
  simp only [remoteTerminalSpec, bind_eq_ok, exists_unit, failIf_eq_ok, orFail_eq_ok,
    pure_eq_ok] at h
  obtain ⟨_, argv, hargv, _, timeout, htimeout, _, output, houtput, columns, _,
    rows, _, _, _, rfl⟩ :=
    h
  exact ⟨hargv, rfl, rfl, ⟨timeout, htimeout, rfl⟩, output, houtput, min_le_left ..⟩

/-- `TerminalSessionOwner::with_workspace`. -/
def withWorkspace (owner : TerminalSessionOwner) : Except TerminalError TerminalSessionOwner := do
  failIf (isBlank owner.organizationId ∨ isBlank owner.actorId ∨ isBlank owner.deviceId ∨
    owner.workspaceId.any isBlank) (.other "terminal session owner is invalid")
  return owner

/-- `terminal_session_owner`. -/
def terminalSessionOwner (request : ActionRequest) : Except DispatchError TerminalSessionOwner := do
  let workspaceId ← optionalParameter request "workspace_id" Value.asStr
  (withWorkspace
    { organizationId := request.envelope.organizationId
      actorId := request.envelope.actorId
      deviceId := request.envelope.deviceId
      workspaceId }).mapError .terminal

/-! ### Before a session is started -/

/-- The checks of `BoundedTerminal::prepare` that only look at the
specification. -/
def checkSpec (limits : TerminalLimits) (spec : TerminalSpec) : Except TerminalError Unit := do
  failIf (isBlank (spec.argv.headD ""))
    (.other "terminal argv must contain a non-empty executable")
  failIf (limits.maxArgc < spec.argv.length)
    (.other s!"terminal argument count {spec.argv.length} exceeds limit {limits.maxArgc}")
  failIf (spec.argv.any fun arg => arg.toList.contains '\x00')
    (.other "terminal command or path contains an interior NUL")
  let totalArgBytes := (spec.argv.map byteLength).sum
  failIf (limits.maxArgBytes < totalArgBytes)
    (.other s!"terminal argument bytes {totalArgBytes} exceed limit {limits.maxArgBytes}")
  failIf (spec.timeoutMs = 0 ∨ limits.maxTimeoutMs < spec.timeoutMs)
    (.other s!"terminal timeout {spec.timeoutMs}ms is outside limit {limits.maxTimeoutMs}ms")
  failIf (spec.maxOutputBytes = 0 ∨ limits.maxOutputBytes < spec.maxOutputBytes)
    (.other
      s!"terminal output limit {spec.maxOutputBytes} is outside worker limit {limits.maxOutputBytes}")
  failIf (spec.columns = 0 ∨ spec.rows = 0 ∨ limits.maxColumns < spec.columns ∨
    limits.maxRows < spec.rows) (.other "terminal dimensions are invalid")

/-- `Path::starts_with` on canonical paths: component by component. -/
def pathStartsWith (path root : String) : Bool := (components root).isPrefixOf (components path)

/-- `process_cwd_path`: a canonical path without its verbatim prefix; a share
has no such form. -/
def processCwdPath (path : String) : Except TerminalError String :=
  match path.toList with
  | '\\' :: '\\' :: '?' :: '\\' :: rest =>
      if asciiLower (rest.take 4) = ['u', 'n', 'c', '\\'] then
        .error (.other "terminal cwd uses an unsupported UNC/verbatim network form")
      else .ok (String.ofList rest)
  | _ => .ok path

/-- The characters of an argument between quotes: backslashes are doubled
where a quote follows, and quotes are escaped. -/
def quoteChars : ℕ → List Char → List Char
  | backslashes, [] => List.replicate (backslashes * 2) '\\'
  | backslashes, c :: rest =>
      if c = '\\' then quoteChars (backslashes + 1) rest
      else if c = '"' then
        List.replicate (backslashes * 2 + 1) '\\' ++ '"' :: quoteChars 0 rest
      else List.replicate backslashes '\\' ++ c :: quoteChars 0 rest

/-- `quote_windows_arg`. -/
def quoteWindowsArg (arg : String) : String :=
  if arg = "" then "\"\""
  else if !arg.toList.any fun c => isWhitespace c || c = '"' then arg
  else String.ofList ('"' :: quoteChars 0 arg.toList ++ ['"'])

/-- `argv_to_windows_command_line`. -/
def argvToWindowsCommandLine (argv : List String) : Except TerminalError String := do
  failIf (argv.headD "" = "") (.other "terminal argv must contain a non-empty executable")
  failIf (argv.any fun arg => arg.toList.contains '\x00')
    (.other "terminal command or path contains an interior NUL")
  return String.intercalate " " (argv.map quoteWindowsArg)

end Worker

end VorCommander
