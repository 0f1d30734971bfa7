import VorCommander.Device.Interface
import VorCommander.Policy.WindowsPath
import VorCommander.Steps.Crash
import VorCommander.Text.Utf16

/-!
The process worker.

It lists processes, says what a process is, and terminates one that was approved. A
number of a process is used again once the process is gone; a handle stands for the
process it was opened on. What the worker knows of a process it has asked through the
handle.
-/

namespace VorCommander

open Steps Steps.Program Text WindowsPath

/-! ### Messages -/

structure ProcessInfo where
  pid : ℕ
  parentPid : ℕ
  executableName : String
  deriving DecidableEq

structure ProcessIdentity where
  pid : ℕ
  executableName : String
  imagePath : String
  createdAtWindowsFiletime100ns : ℕ
  deriving DecidableEq

inductive TerminateWaitResult
  | waitObject0
  deriving DecidableEq

structure ProcessTerminateReceipt where
  pid : ℕ
  executableName : String
  imagePath : String
  createdAtWindowsFiletime100ns : ℕ
  terminated : Bool
  waitResult : TerminateWaitResult
  deriving DecidableEq

inductive ProcessAccess
  | queryIdentity
  | terminate
  deriving DecidableEq

inductive WaitStatus
  | object0
  | timeout
  | failed (errorCode : ℕ)
  | unexpected (status : ℕ)
  deriving DecidableEq

inductive ProcessCriticality
  | critical
  | notCritical
  deriving DecidableEq

inductive TerminationUnconfirmedReason
  | waitTimeout (timeoutMs : ℕ)
  | waitFailed (errorCode : ℕ)
  | unexpectedWaitStatus (status : ℕ)
  deriving DecidableEq

/-- An error of the system is the code that it gives. -/
inductive ProcessError
  | authorizationMismatch
  | approvalRequired
  | denied
  | wrongAction
  | invalidPid
  | notFound (pid : ℕ)
  | alreadyExited (pid : ℕ)
  | missingIdentity
  | identityMismatch (expected actual : ProcessIdentity)
  | protectedProcess (component : String)
  | criticalProcess (pid : ℕ)
  | criticalityUnknown (source : ℕ)
  | terminationUnconfirmed (pid : ℕ) (reason : TerminationUnconfirmedReason)
  | waitFailed (pid errorCode : ℕ)
  | unexpectedWaitStatus (pid status : ℕ)
  | invalidImagePath
  | openDenied (pid source : ℕ)
  | identityQueryFailed (pid source : ℕ)
  | terminateFailed (source : ℕ)
  | io (source : ℕ)
  deriving DecidableEq

def terminateWaitMs : ℕ := 5000

def terminationExitCode : ℕ := 0xC000013A

/-! ### The system -/

/-- A process. Its number and its path are those it was started with. -/
structure ProcessObject where
  pid : ℕ
  imagePath : List UInt16
  created : ℕ × ℕ
  critical : Bool
  running : Bool

/-- The processes that handles stand for, also those that have ended. -/
abbrev ProcessTable := ℕ → Option ProcessObject

/-- The calls of the system. -/
inductive ProcessOp
  | snapshot
  | openProcess (pid : ℕ) (access : ProcessAccess)
  | waitForSingleObject (handle timeoutMs : ℕ)
  | queryFullProcessImageName (handle : ℕ)
  | getProcessTimes (handle : ℕ)
  | isProcessCritical (handle : ℕ)
  | terminateProcess (handle exitCode : ℕ)

namespace ProcessOp

/-- What the calls give. A wait gives a status and the code of the last error; the times of
a process are the two halves of the moment it was created. -/
@[reducible] def Reply : ProcessOp → Type
  | .snapshot => Except ℕ (List ProcessInfo)
  | .openProcess _ _ => Except ℕ ℕ
  | .waitForSingleObject _ _ => ℕ × ℕ
  | .queryFullProcessImageName _ => Except ℕ (List UInt16)
  | .getProcessTimes _ => Except ℕ (ℕ × ℕ)
  | .isProcessCritical _ => Except ℕ Bool
  | .terminateProcess _ _ => Except ℕ Unit

def waitObject0 : ℕ := 0

def waitTimeout : ℕ := 0x102

def waitFailed : ℕ := 0xFFFFFFFF

/-- What the system says is so. -/
def answers (table : ProcessTable) : (op : ProcessOp) → op.Reply → Prop
  | .openProcess pid _, .ok handle => ∃ object, table handle = some object ∧ object.pid = pid
  | .waitForSingleObject handle _, (status, _) => ∀ object, table handle = some object →
      (status = waitObject0 → object.running = false) ∧
      (status = waitTimeout → object.running = true)
  | .queryFullProcessImageName handle, .ok path =>
      ∀ object, table handle = some object → path = object.imagePath
  | .getProcessTimes handle, .ok created =>
      ∀ object, table handle = some object → created = object.created
  | .isProcessCritical handle, .ok critical =>
      ∀ object, table handle = some object → critical = object.critical
  | _, _ => True

end ProcessOp

abbrev Processes : Interface := ⟨ProcessOp, ProcessOp.Reply⟩

/-- Processes are started, become critical and end. A process that has ended does not run
again, and no process becomes another one. -/
def ProcessTable.Evolves (table table' : ProcessTable) : Prop :=
  ∀ handle object, table handle = some object → ∃ object', table' handle = some object' ∧
    object'.pid = object.pid ∧ object'.imagePath = object.imagePath ∧
    object'.created = object.created ∧ (object'.running = true → object.running = true)

/-- Before each call the processes have gone on. To terminate a process affects no other. -/
def Processes.Commit (table : ProcessTable) (e : Event Processes) (table' : ProcessTable) : Prop :=
  ∃ found : ProcessTable, table.Evolves found ∧ e.op.answers found e.reply ∧
    match e.op with
    | .terminateProcess handle _ =>
        found.Evolves table' ∧ ∀ other, other ≠ handle → table' other = found other
    | _ => table' = found

abbrev ProcessM (α : Type) := ExceptT ProcessError (Program Processes) α

/-! ### The system as the worker sees it -/

/-- The path of an image, and the name of its file. -/
def imageNames (image : List UInt16) : Except ProcessError (String × String) := do
  let imagePath ← orFail ((decodeUnits image).map String.ofList) .invalidImagePath
  let executableName ← orFail (fileName imagePath) .invalidImagePath
  return (imagePath, executableName)

/-- What a path and a time say about the process with a number. The time comes in two
halves, as in `filetime_raw`. -/
def ProcessIdentity.ofNative (pid : ℕ) (image : List UInt16) (created : ℕ × ℕ) :
    Except ProcessError ProcessIdentity := do
  let (imagePath, executableName) ← imageNames image
  return { pid, executableName, imagePath
           createdAtWindowsFiletime100ns := created.1 * 2 ^ 32 + created.2 }

namespace NativeProcessApi

open ProcessOp

/-- `list_processes`. -/
def listProcesses : ProcessM (List ProcessInfo) := do
  let processes ← ExceptT.adapt .io (attempt (perform (I := Processes) .snapshot))
  return processes.mergeSort fun a b => a.pid ≤ b.pid

def openProcess (pid : ℕ) (access : ProcessAccess) : ProcessM ℕ :=
  ExceptT.adapt (.openDenied pid) (attempt (perform (I := Processes) (.openProcess pid access)))

/-- What the number that a wait gives stands for. -/
def waitStatus (status lastError : ℕ) : WaitStatus :=
  if status = waitObject0 then .object0
  else if status = waitTimeout then .timeout
  else if status = waitFailed then .failed lastError
  else .unexpected status

def wait (handle timeoutMs : ℕ) : ProcessM WaitStatus :=
  ExceptT.lift ((fun reply => waitStatus reply.1 reply.2) <$>
    perform (I := Processes) (.waitForSingleObject handle timeoutMs))

def identity (pid handle : ℕ) : ProcessM ProcessIdentity := do
  let image ← ExceptT.adapt (.identityQueryFailed pid)
    (attempt (perform (I := Processes) (.queryFullProcessImageName handle)))
  let (imagePath, executableName) ← check (imageNames image)
  let created ← ExceptT.adapt (.identityQueryFailed pid)
    (attempt (perform (I := Processes) (.getProcessTimes handle)))
  return { pid, executableName, imagePath
           createdAtWindowsFiletime100ns := created.1 * 2 ^ 32 + created.2 }

def criticality (handle : ℕ) : ProcessM ProcessCriticality := do
  let critical ← ExceptT.adapt .criticalityUnknown
    (attempt (perform (I := Processes) (.isProcessCritical handle)))
  return if critical then .critical else .notCritical

def terminate (handle exitCode : ℕ) : ProcessM Unit :=
  ExceptT.adapt .terminateFailed
    (attempt (perform (I := Processes) (.terminateProcess handle exitCode)))

end NativeProcessApi

/-! ### The worker -/

/-- `str::parse::<u32>`. -/
def parsePid (value : String) : Except ProcessError ℕ :=
  let digits :=
    match value.toList with
    | '+' :: rest => rest
    | cs => cs
  orFail (if digits ≠ [] ∧ digits.all Char.isDigit ∧ Nat.ofDigitChars 10 digits 0 < 2 ^ 32 then
    some (Nat.ofDigitChars 10 digits 0) else none) .invalidPid

namespace ProcessWorker

open NativeProcessApi

/-- `ensure_auto_action`. -/
def ensureAutoAction (authorization : Authorization) (expected : String) :
    Except ProcessError Unit := do
  failIf (authorization.request.envelopeDigest ≠ authorization.decision.envelopeDigest ∨
    authorization.request.envelope.requestId ≠ authorization.decision.requestId)
    .authorizationMismatch
  match authorization.decision.kind with
  | .auto => .ok ()
  | .approval => .error .approvalRequired
  | .deny => .error .denied
  failIf (authorization.request.envelope.action ≠ expected) .wrongAction

/-- `ensure_still_running`. -/
def ensureStillRunning (pid handle : ℕ) : ProcessM Unit := do
  match ← wait handle 0 with
  | .object0 => throw (.alreadyExited pid)
  | .timeout => return ()
  | .failed errorCode => throw (.waitFailed pid errorCode)
  | .unexpected status => throw (.unexpectedWaitStatus pid status)

/-- `reject_protected_identity`. -/
def rejectProtectedIdentity (identity : ProcessIdentity) : Except ProcessError Unit := do
  let name := toAsciiLowercase identity.executableName
  let path := replaceChar '\\' '/' (toAsciiLowercase identity.imagePath)
  failIf (name ∈ ["vor-agent.exe", "vor-gateway.exe", "vor-control-plane.exe",
    "vor-maintainer.exe", "vor-approver.exe"] ∨ containsString path "/vor-commander/" = true)
    (.protectedProcess "vor_control_component")
  failIf (name = "codex.exe" ∨ containsString path "/openai/codex/" = true)
    (.protectedProcess "control_channel_component")

/-- `expected_identity`. -/
def expectedIdentity (execution : ExecutionAuthorization) (pid : ℕ) :
    Except ProcessError ProcessIdentity := do
  let parameters := execution.authorization.request.envelope.parameters
  let executableName ← orFail (parameters["executable_name"]?.bind Value.asStr) .missingIdentity
  let imagePath ← orFail (parameters["image_path"]?.bind Value.asStr) .missingIdentity
  let createdAtWindowsFiletime100ns ←
    orFail (parameters["created_at_windows_filetime_100ns"]?.bind Value.asU64) .missingIdentity
  return { pid, executableName, imagePath, createdAtWindowsFiletime100ns }

/-- `identity_with_api`. -/
def identityWithApi (pid : ℕ) : ProcessM ProcessIdentity := do
  let handle ← openProcess pid .queryIdentity
  ensureStillRunning pid handle
  identity pid handle

/-- The end of `terminate_with_api`: a receipt is given for a process that has ended. -/
def confirm (actual : ProcessIdentity) : WaitStatus → Except ProcessError ProcessTerminateReceipt
  | .object0 => .ok
      { pid := actual.pid, executableName := actual.executableName, imagePath := actual.imagePath
        createdAtWindowsFiletime100ns := actual.createdAtWindowsFiletime100ns, terminated := true
        waitResult := .waitObject0 }
  | .timeout => .error (.terminationUnconfirmed actual.pid (.waitTimeout terminateWaitMs))
  | .failed errorCode => .error (.terminationUnconfirmed actual.pid (.waitFailed errorCode))
  | .unexpected status =>
      .error (.terminationUnconfirmed actual.pid (.unexpectedWaitStatus status))

/-- `terminate_with_api`. The number of the agent's own process is `currentPid`. -/
def terminateWithApi (currentPid : ℕ) (expected : ProcessIdentity) :
    ProcessM ProcessTerminateReceipt := do
  check (failIf (expected.pid = currentPid) (.protectedProcess "current_process"))
  let handle ← openProcess expected.pid .terminate
  ensureStillRunning expected.pid handle
  let actual ← identity expected.pid handle
  check (failIf (actual ≠ expected) (.identityMismatch expected actual))
  check (rejectProtectedIdentity actual)
  let criticality ← criticality handle
  check (failIf (criticality = .critical) (.criticalProcess actual.pid))
  terminate handle terminationExitCode
  let status ← wait handle terminateWaitMs
  check (confirm actual status)

/-- `ProcessWorker::list`. -/
def list (authorization : Authorization) : ProcessM (List ProcessInfo) := do
  check (ensureAutoAction authorization "process.list")
  listProcesses

/-- `ProcessWorker::inspect`. -/
def inspect (authorization : Authorization) : ProcessM ProcessInfo := do
  check (ensureAutoAction authorization "process.inspect")
  let pid ← check (parsePid authorization.request.envelope.target)
  let processes ← listProcesses
  check (orFail (processes.find? fun process => process.pid = pid) (.notFound pid))

/-- `ProcessWorker::identity`. -/
def identity (pid : ℕ) : ProcessM ProcessIdentity := identityWithApi pid

/-- What an approved request says is to be terminated. -/
def approvedIdentity (execution : ExecutionAuthorization) :
    Except ProcessError ProcessIdentity := do
  failIf (execution.authorization.request.envelope.action ≠ "process.terminate") .wrongAction
  let pid ← parsePid execution.authorization.request.envelope.target
  expectedIdentity execution pid

/-- `ProcessWorker::terminate_approved`. -/
def terminateApproved (currentPid : ℕ) (execution : ExecutionAuthorization) :
    ProcessM ProcessTerminateReceipt := do
  let expected ← check (approvedIdentity execution)
  terminateWithApi currentPid expected

end ProcessWorker

end VorCommander
