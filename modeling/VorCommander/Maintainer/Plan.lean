import VorCommander.Policy.WindowsPath
import VorCommander.Steps.Checks
import VorCommander.Worker.Write

/-!
Update plans.

A plan says which binary replaces which, where the journal, the result and the logs
are, and how the agent is started again. Its shape is checked before anything else
is done with it; where its paths lead is found out by the host.
-/

namespace VorCommander

open Steps Text WindowsPath

/-! ### Errors -/

inductive MaintenanceError
  | invalidPlan
  | invalidRoot
  | unsafePath
  | outsideAllowedRoot
  | expectedFile
  | expectedDirectory
  | invalidDigest
  | invalidRestartSpec
  | digestMismatch (expected actual : String)
  | journalExists
  | journalInvalid
  | resultInvalid
  | invalidState
  | stagingCollision
  | backupMissing
  | swapAndRollbackFailed (swap rollback : String)
  | postSwapAndRollbackFailed (verification rollback : String)
  | io (error : String)
  | json (error : String)
  deriving DecidableEq

/-- The error as a text. -/
def MaintenanceError.text : MaintenanceError → String
  | .invalidPlan => "maintenance plan is invalid"
  | .invalidRoot => "maintenance root is invalid"
  | .unsafePath => "maintenance path is unsafe"
  | .outsideAllowedRoot => "maintenance path escapes allowed root"
  | .expectedFile => "maintenance expected a regular file"
  | .expectedDirectory => "maintenance expected a directory"
  | .invalidDigest => "maintenance SHA-256 digest is invalid"
  | .invalidRestartSpec => "maintenance restart specification is invalid"
  | .digestMismatch expected actual =>
      "maintenance digest mismatch: expected " ++ expected ++ ", got " ++ actual
  | .journalExists => "maintenance journal already exists"
  | .journalInvalid => "maintenance journal is invalid or inconsistent with the plan"
  | .resultInvalid => "maintenance result file is invalid"
  | .invalidState => "maintenance transaction state is invalid"
  | .stagingCollision => "maintenance staging path already exists"
  | .backupMissing => "maintenance rollback backup is missing"
  | .swapAndRollbackFailed swap rollback =>
      "maintenance swap failed and rollback also failed: swap=" ++ swap ++ "; rollback=" ++ rollback
  | .postSwapAndRollbackFailed verification rollback =>
      "maintenance post-swap verification failed and rollback also failed: verification=" ++
        verification ++ "; rollback=" ++ rollback
  | .io error => "maintenance I/O failed: " ++ error
  | .json error => "maintenance JSON failed: " ++ error

/-! ### Plans -/

structure RestartSpec where
  args : List String
  environment : Std.ExtTreeMap String String
  workingDirectory : String
  stdoutLog : String
  stderrLog : String
  healthWaitMs : ℕ

structure UpdatePlan where
  schema : ℕ
  requestId : String
  allowedRoot : String
  targetExecutable : String
  stagedExecutable : String
  expectedCurrentSha256 : String
  expectedStagedSha256 : String
  journalDirectory : String
  resultFile : String
  currentPid : ℕ
  restart : RestartSpec

/-- Where the paths of a plan lead. -/
structure ResolvedPaths where
  root : String
  target : String
  staged : String
  workingDirectory : String
  backup : String
  temp : String
  journal : String
  resultFile : String
  stdoutLog : String
  stderrLog : String

structure ValidatedUpdate extends ResolvedPaths where
  plan : UpdatePlan

/-! ### The shape of a plan -/

def updatePlanSchema : ℕ := 1

def maxPlanBytes : ℕ := 128 * 1024

def maxRestartArgs : ℕ := 128

def maxRestartArgBytes : ℕ := 32 * 1024

def maxRestartTotalArgBytes : ℕ := 128 * 1024

def maxRestartEnv : ℕ := 64

def maxHealthWaitMs : ℕ := 30000

def validRequestId (value : String) : Bool :=
  !value.isEmpty && byteLength value ≤ 128 &&
    value.toList.all fun c => c.isAlphanum || c = '-' || c = '_' || c = '.'

/-- `normalize_sha256`. -/
def normalizeSha256 (value : String) : Except MaintenanceError String := do
  let value := trim value
  failIf (byteLength value ≠ 64 ∨ value.toList.all (fun c => (hexValue c).isSome) = false)
    .invalidDigest
  return toAsciiLowercase value

/-- `reject_relative_components`. Only the first component of a path can be `.`. -/
def rejectRelativeComponents (path : String) : Except MaintenanceError Unit :=
  let parts := ((dropPrefix path).splitOnP isSeparator).map String.ofList
  failIf (".." ∈ parts ∨ isAbsolute path = false ∧ parts.head? = some ".") .unsafePath

/-- The arguments of the agent, the first of which follow `total` bytes of others. -/
def checkArgs (total : ℕ) : List String → Except MaintenanceError Unit
  | [] => .ok ()
  | argument :: arguments => do
      failIf (argument.toList.contains '\x00' ∨ maxRestartArgBytes < byteLength argument)
        .invalidRestartSpec
      failIf (maxRestartTotalArgBytes < total + byteLength argument) .invalidRestartSpec
      checkArgs (total + byteLength argument) arguments

/-- One variable of the environment. -/
def checkVariable (entry : String × String) : Except MaintenanceError Unit :=
  let (key, value) := entry
  failIf (isBlank key ∨ key.toList.contains '=' ∨ key.toList.contains '\x00' ∨
    value.toList.contains '\x00' ∨ 256 < byteLength key ∨ 8192 < byteLength value)
    .invalidRestartSpec

/-- `validate_plan_shape`. -/
def validatePlanShape (plan : UpdatePlan) : Except MaintenanceError Unit := do
  failIf (plan.schema ≠ updatePlanSchema ∨ validRequestId plan.requestId = false ∨
    plan.currentPid = 0 ∨
    ¬ [plan.allowedRoot, plan.targetExecutable, plan.stagedExecutable, plan.journalDirectory,
      plan.resultFile, plan.restart.workingDirectory, plan.restart.stdoutLog,
      plan.restart.stderrLog].all isAbsolute) .invalidPlan
  [plan.allowedRoot, plan.targetExecutable, plan.stagedExecutable, plan.journalDirectory,
    plan.resultFile, plan.restart.workingDirectory, plan.restart.stdoutLog,
    plan.restart.stderrLog].forM rejectRelativeComponents
  let _ ← normalizeSha256 plan.expectedCurrentSha256
  let _ ← normalizeSha256 plan.expectedStagedSha256
  failIf (maxRestartArgs < plan.restart.args.length ∨
    maxRestartEnv < plan.restart.environment.size ∨ plan.restart.healthWaitMs = 0 ∨
    maxHealthWaitMs < plan.restart.healthWaitMs) .invalidRestartSpec
  checkArgs 0 plan.restart.args
  plan.restart.environment.toList.forM checkVariable

end VorCommander
