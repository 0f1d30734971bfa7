import VorCommander.Worker.SafeCommand

/-!
Asking Git about a directory.

The worker runs the Git executable of the device in a directory within the allowed roots, in
an environment of its own and with arguments that turn off what the repository could make Git
run. What Git prints is the answer.
-/

namespace VorCommander

open Steps Text WindowsPath

namespace Git

/-- `MAX_OUTPUT_BYTES`. -/
def maxOutputBytes : ℕ := 4 * 1024 * 1024

/-! ### Text that may not be UTF-8 -/

/-- A character of which some bytes have been read: its bits so far, how many bytes are
missing, and between which bounds the next one lies. -/
structure PartialChar where
  bits : ℕ
  missing : ℕ
  low : ℕ
  high : ℕ

/-- What the first byte of a character begins: a character, part of one, or nothing. -/
def firstByte (b : ℕ) : List Char × Option PartialChar :=
  if b < 0x80 then ([Char.ofNat b], none)
  else if 0xC2 ≤ b ∧ b ≤ 0xDF then ([], some ⟨b - 0xC0, 1, 0x80, 0xBF⟩)
  else if b = 0xE0 then ([], some ⟨0, 2, 0xA0, 0xBF⟩)
  else if b = 0xED then ([], some ⟨0xD, 2, 0x80, 0x9F⟩)
  else if 0xE1 ≤ b ∧ b ≤ 0xEF then ([], some ⟨b - 0xE0, 2, 0x80, 0xBF⟩)
  else if b = 0xF0 then ([], some ⟨0, 3, 0x90, 0xBF⟩)
  else if 0xF1 ≤ b ∧ b ≤ 0xF3 then ([], some ⟨b - 0xF0, 3, 0x80, 0xBF⟩)
  else if b = 0xF4 then ([], some ⟨4, 3, 0x80, 0x8F⟩)
  else (['\ufffd'], none)

/-- The characters that a byte ends, and the one that it leaves unfinished. -/
def nextByte (b : ℕ) : Option PartialChar → List Char × Option PartialChar
  | none => firstByte b
  | some begun =>
      if begun.low ≤ b ∧ b ≤ begun.high then
        let bits := begun.bits * 64 + (b - 0x80)
        if begun.missing = 1 then ([Char.ofNat bits], none)
        else ([], some ⟨bits, begun.missing - 1, 0x80, 0xBF⟩)
      else
        let (chars, begun) := firstByte b
        ('\ufffd' :: chars, begun)

/-- `String::from_utf8_lossy`, from a character that has been begun. -/
def lossyFrom : Option PartialChar → List UInt8 → List Char
  | begun, [] => if begun.isSome then ['\ufffd'] else []
  | begun, b :: bytes =>
      let (chars, begun) := nextByte b.toNat begun
      chars ++ lossyFrom begun bytes

/-- `String::from_utf8_lossy`. -/
def fromUtf8Lossy (bytes : List UInt8) : String := String.ofList (lossyFrom none bytes)

/-! ### The worker -/

/-- What a process has printed, and its exit code. -/
structure ProcessOutput where
  code : Option ℤ
  stdout : List UInt8
  stderr : List UInt8

structure GitOutput where
  stdout : String
  stderr : String
  deriving DecidableEq

def GitOutput.toJson (output : GitOutput) : Value :=
  .object [("stdout", .string output.stdout), ("stderr", .string output.stderr)]

structure GitWorker where
  gitExecutable : String
  allowedRoots : List String

/-- What the worker asks of the host; `run` starts a program in an environment with arguments
and waits for it. -/
structure GitHost where
  rejectReparse : String → Except GitError Unit
  canonicalize : String → Except GitError String
  isDir : String → Bool
  emptyGitDirectory : Except GitError String
  environmentVariable : String → Option String
  run : String → Environment → List String → Except GitError ProcessOutput

/-- `ensure_auto_action`. -/
def ensureAutoAction (authorization : Authorization) (expected : String) :
    Except GitError Unit := do
  failIf (authorization.request.envelopeDigest ≠ authorization.decision.envelopeDigest ∨
    authorization.request.envelope.requestId ≠ authorization.decision.requestId)
    .authorizationMismatch
  match authorization.decision.kind with
  | .auto => .ok ()
  | .approval => .error .approvalRequired
  | .deny => .error .denied
  failIf (authorization.request.envelope.action ≠ expected) .wrongAction

section

variable (host : GitHost) (worker : GitWorker)

/-- `safe_child_environment`. -/
def childEnvironment (executable : String) : Environment :=
  let inherited : Environment := Worker.inheritedVariables.foldl
    (fun (environment : Environment) name => (host.environmentVariable name).elim environment
      (environment.insert name)) ∅
  inherited.insert "PATH" ((parent executable).getD "")

/-- The environment that `configure_git_command` gives a command. -/
def commandEnvironment (executable empty : String) : Environment :=
  ((childEnvironment host executable).insertMany gitEnvironment).insert "XDG_CONFIG_HOME" empty

/-- `GitWorker::resolve_repo`. -/
def resolveRepo (target : String) : Except GitError String := do
  failIf (isAbsolute target = false ∨
    ".." ∈ ((dropPrefix target).splitOnP isSeparator).map String.ofList) .unsafePath
  host.rejectReparse target
  let repo ← host.canonicalize target
  failIf (host.isDir repo = false) .notDirectory
  failIf (worker.allowedRoots.any (pathWithin repo) = false) .outsideAllowedRoots
  return repo

/-- The arguments of a command in a directory. -/
def commandArguments (empty repo : String) (arguments : List String) : List String :=
  hardeningWith empty ++ ["-C", repo] ++ hardenDiffSubcommand arguments 0

/-- `GitWorker::run`. -/
def run (repo : String) (arguments : List String) : Except GitError GitOutput := do
  let empty ← host.emptyGitDirectory
  let output ← host.run worker.gitExecutable (commandEnvironment host worker.gitExecutable empty)
    (commandArguments empty repo arguments)
  failIf (maxOutputBytes < output.stdout.length ∨ maxOutputBytes < output.stderr.length)
    .outputLimitExceeded
  let stdout := fromUtf8Lossy output.stdout
  let stderr := fromUtf8Lossy output.stderr
  failIf (output.code ≠ some 0) (.commandFailed output.code stderr)
  return { stdout, stderr }

/-- The arguments of `status`. -/
def statusArguments : List String :=
  ["status", "--porcelain=v2", "--branch", "--untracked-files=all"]

/-- The arguments of `diff`. -/
def diffArguments : List String := ["diff", "--no-color", "--"]

/-- `GitWorker::status` and `GitWorker::diff`, by their actions and arguments. -/
def ask (action : String) (arguments : List String) (authorization : Authorization) :
    Except GitError GitOutput := do
  ensureAutoAction authorization action
  let repo ← resolveRepo host worker authorization.request.envelope.target
  run host worker repo arguments

/-- `GitWorker::status`. -/
def status : Authorization → Except GitError GitOutput :=
  ask host worker "git.status" statusArguments

/-- `GitWorker::diff`. -/
def diff : Authorization → Except GitError GitOutput :=
  ask host worker "git.diff" diffArguments

end

/-! ### What is answered -/

/-- The answer is what Git has printed for a directory within the allowed roots, in so far as it
is text, and nothing of it has been left out. -/
def Printed (host : GitHost) (worker : GitWorker) (target : String) (arguments : List String)
    (output : GitOutput) : Prop :=
  ∃ repo empty printed, host.canonicalize target = .ok repo ∧ host.isDir repo = true ∧
    (∃ allowed ∈ worker.allowedRoots, pathWithin repo allowed = true) ∧
    host.run worker.gitExecutable (commandEnvironment host worker.gitExecutable empty)
      (commandArguments empty repo arguments) = .ok printed ∧
    printed.code = some 0 ∧ printed.stdout.length ≤ maxOutputBytes ∧
    printed.stderr.length ≤ maxOutputBytes ∧
    output = ⟨fromUtf8Lossy printed.stdout, fromUtf8Lossy printed.stderr⟩

theorem printed_of_ask {host : GitHost} {worker : GitWorker} {action : String}
    {arguments : List String} {authorization : Authorization} {output : GitOutput}
    (h : ask host worker action arguments authorization = .ok output) :
    Printed host worker authorization.request.envelope.target arguments output := by
  simp only [ask, resolveRepo, run, bind_eq_ok, exists_unit, failIf_eq_ok, pure_eq_ok, not_or,
    not_lt, not_not, Bool.not_eq_false] at h
  obtain ⟨_, repo, ⟨_, _, repo', hcanonical, hdir, hallowed, rfl⟩, empty, _, printed, hrun, hlimits,
    hcode, houtput⟩ := h
  exact ⟨repo', empty, printed, hcanonical, hdir, List.any_eq_true.mp hallowed, hrun, hcode,
    hlimits.1, hlimits.2, houtput.symm⟩

end Git

end VorCommander
