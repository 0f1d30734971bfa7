import VorCommander.Device.Wire
import VorCommander.Maintainer.Plan
import VorCommander.Steps.Alone
import VorCommander.Text.Base64

/-!
The maintainer.

It replaces the agent of a device by a staged binary, or restores the previous one,
under a plan that an owner has approved. The plan is a file: its digest is checked, it
is loaded, and its digest is checked once more. Then the old agent is terminated, the
binaries are swapped, and the new agent is started and watched for a while; if it does
not stay alive, the previous binary is restored and started again. What goes wrong on
the way ends the program, often with a result that says so.
-/

namespace VorCommander

open Crypto Steps Steps.Program Text WindowsPath

/-! ### Messages -/

inductive MaintenanceAction
  | apply
  | recover
  deriving DecidableEq

/-- `MaintenanceAction::action_name`. -/
def MaintenanceAction.actionName : MaintenanceAction → String
  | .apply => "maintenance.apply"
  | .recover => "maintenance.recover"

structure AuthorizedPlanArgs where
  planPath : String
  planSha256 : String
  requestFile : String
  approvalFile : String
  approversFile : String

structure AuthorizationEvidence where
  requestId : String
  approverId : String
  action : String
  planSha256 : String
  approvalSha256 : String

structure TrustedApproverEntry where
  approverId : String
  publicKeyBase64 : String
  authority : String

structure ApplyResult where
  status : String
  requestId : String
  oldPid : ℕ
  newPid : Option ℕ
  targetSha256 : Option String
  targetSha256Error : Option String
  message : String

/-- An error of the host, or one the maintainer reports about it. -/
inductive HostError
  | io (error : String)
  | message (text : String)
  deriving DecidableEq

def HostError.text : HostError → String
  | .io error => error
  | .message text => text

inductive MaintainerError
  | maintenance (error : MaintenanceError)
  | wire (error : WireError)
  | approval (error : ApprovalError)
  | decode (error : String)
  | host (error : HostError)
  deriving DecidableEq

/-- The readers of the files a plan comes with: of JSON and of protobuf. -/
structure MaintenanceCodec where
  plan : List UInt8 → Except String UpdatePlan
  approvers : List UInt8 → Except String (List TrustedApproverEntry)
  request : List UInt8 → Except String V1.ActionRequest
  approval : List UInt8 → Except String V1.ApprovalGrant

/-! ### Operations -/

/-- What the maintainer asks of the host. `resolve` finds out where the paths of a plan
lead and checks both binaries; `begin`, `swap`, `commit`, `rollback` and
`recoverPrevious` are those of `vor-maintenance`. -/
inductive MaintainerOp
  | sleep (millis : ℕ)
  | metadata (path : String)
  | read (path : String)
  | readToString (path : String)
  | clock
  | resolve (action : MaintenanceAction) (plan : UpdatePlan)
  | createDirAll (path : String)
  | openProcess (pid : ℕ) (target : String)
  | terminate (handle pid : ℕ)
  | createMarker (path : String) (evidence : AuthorizationEvidence)
  | begin (plan : UpdatePlan)
  | swap (update : ValidatedUpdate)
  | commit (update : ValidatedUpdate)
  | rollback (update : ValidatedUpdate)
  | recoverPrevious (plan : UpdatePlan)
  | openLog (path : String)
  | spawn (update : ValidatedUpdate)
  | remainsAlive (pid millis : ℕ)
  | kill (pid : ℕ)
  | wait (pid : ℕ)
  | writeResult (path : String) (result : ApplyResult)

namespace MaintainerOp

/-- What each operation replies. `metadata` says whether there is a regular file, and
how long it is. -/
@[reducible] def Reply : MaintainerOp → Type
  | .sleep _ => Unit
  | .metadata _ => Except String (Bool × ℕ)
  | .read _ => Except String (List UInt8)
  | .readToString _ => Except String String
  | .clock => Except HostError ℕ
  | .resolve _ _ | .begin _ | .recoverPrevious _ => Except MaintenanceError ResolvedPaths
  | .createDirAll _ | .openLog _ => Except HostError Unit
  | .openProcess _ _ => Except HostError ℕ
  | .terminate _ _ | .createMarker _ _ => Except HostError Unit
  | .swap _ | .commit _ | .rollback _ => Except MaintenanceError Unit
  | .spawn _ => Except HostError ℕ
  | .remainsAlive _ _ => Except HostError Bool
  | .kill _ | .wait _ | .writeResult _ _ => Except HostError Unit

end MaintainerOp

abbrev Maintenance : Interface := ⟨MaintainerOp, MaintainerOp.Reply⟩

/-- Programs of `vor-maintenance`, programs that fail with errors of the host, and the
programs of the maintainer. -/
abbrev MaintenanceM (α : Type) := ExceptT MaintenanceError (Program Maintenance) α

abbrev HostM (α : Type) := ExceptT HostError (Program Maintenance) α

abbrev MaintainerM (α : Type) := ExceptT MaintainerError (Program Maintenance) α

/-- `ApproverAuthority::parse`. -/
def ApproverAuthority.parse (value : String) : Except ApprovalError ApproverAuthority :=
  match toAsciiLowercase (trim value) with
  | "approve" | "approval" => .ok .approve
  | "elevated" => .ok .elevated
  | "owner" | "full_owner" => .ok .owner
  | _ => .error .invalidApproverAuthority

namespace Maintainer

variable (L : Libraries) (C : MaintenanceCodec)

/-- An operation whose errors are those of the monad. -/
def call {ε α : Type} (p : Program Maintenance (Except ε α)) :
    ExceptT ε (Program Maintenance) α := attempt p

/-- An operation of the maintainer on the host. -/
def onHost {α : Type} (p : Program Maintenance (Except HostError α)) : MaintainerM α :=
  ExceptT.adapt .host (attempt p)

/-- A program of `vor-maintenance`. -/
def maintaining {α : Type} (p : MaintenanceM α) : MaintainerM α := ExceptT.adapt .maintenance p

/-- An operation on files, the error of which is a text. -/
def onFile {ε α : Type} (f : String → ε) (p : Program Maintenance (Except String α)) :
    ExceptT ε (Program Maintenance) α := ExceptT.adapt f (attempt p)

def io (error : String) : MaintainerError := .host (.io error)

def message (text : String) : MaintainerError := .host (.message text)

/-! ### Plan files -/

/-- `sha256_file`. -/
def sha256File (path : String) : MaintenanceM String := do
  let content ← onFile .io (perform (I := Maintenance) (.read path))
  return sha256Hex L.toPrimitives content

/-- `verify_file_sha256`, and `verify_plan_file_sha256`. -/
def verifyFileSha256 (path expected : String) : MaintenanceM Unit := do
  let expected ← check (normalizeSha256 expected)
  let actual ← sha256File L path
  check (failIf (actual ≠ expected) (.digestMismatch expected actual))

/-- `UpdatePlan::load`. -/
def loadPlan (path : String) : MaintenanceM UpdatePlan := do
  let (isFile, length) ← onFile .io (perform (I := Maintenance) (.metadata path))
  check (failIf (isFile = false ∨ length = 0 ∨ maxPlanBytes < length) .invalidPlan)
  let content ← onFile .io (perform (I := Maintenance) (.read path))
  check ((C.plan content).mapError .json)

/-- `validate_plan` and `validate_recovery_plan`. -/
def validate (action : MaintenanceAction) (plan : UpdatePlan) : MaintenanceM ValidatedUpdate := do
  check (validatePlanShape plan)
  let paths ← call (perform (I := Maintenance) (.resolve action plan))
  return { toResolvedPaths := paths, plan }

/-- `load_verified_update` and `load_verified_recovery_update`. -/
def loadVerified (action : MaintenanceAction) (path digest : String) :
    MaintainerM ValidatedUpdate :=
  maintaining do
    verifyFileSha256 L path digest
    let plan ← loadPlan C path
    validate action plan

def loadVerifiedUpdate : String → String → MaintainerM ValidatedUpdate := loadVerified L C .apply

def loadVerifiedRecoveryUpdate : String → String → MaintainerM ValidatedUpdate :=
  loadVerified L C .recover

/-! ### Approval files -/

/-- `decode_base64_file`. -/
def decodeBase64File (path : String) (maxBytes : ℕ) : MaintainerM (List UInt8) := do
  let (isFile, length) ← onFile io (perform (I := Maintenance) (.metadata path))
  check (failIf (isFile = false ∨ length = 0 ∨ maxBytes < length)
    (message "approval artifact is invalid or oversized"))
  let text ← onFile io (perform (I := Maintenance) (.readToString path))
  check (orFail (Base64.decode (trim text)) (message "approval artifact is not valid base64"))

/-- `same_path`, on Windows. -/
def samePath (left right : String) : Bool := eqIgnoreAsciiCase left right

/-- `expect_string_parameter`. -/
def expectStringParameter (request : ActionRequest) (name expected : String) :
    Except MaintainerError Unit := do
  let actual ← orFail (request.envelope.parameters[name]?.bind Value.asStr)
    (message ("maintenance approval is missing " ++ name))
  let mismatch := message ("maintenance approval " ++ name ++ " mismatch")
  if endsWith name "_sha256" then
    failIf (eqIgnoreAsciiCase actual expected = false) mismatch
  else if endsWith name "executable" ∨ name = "allowed_root" then
    failIf (samePath actual expected = false) mismatch
  else
    failIf (actual ≠ expected) mismatch

/-- `maintenance_decision`. -/
def maintenanceDecision (request : ActionRequest) : PolicyDecision where
  requestId := request.envelope.requestId
  kind := .approval
  policyId := "maintenance-local"
  reasonCode := "maintenance_owner_approval"
  requiredCapability := some "owner"
  envelopeDigest := request.envelopeDigest

/-- One of the trusted approvers. -/
def addEntry (verifier : ApprovalVerifier) (entry : TrustedApproverEntry) :
    Except MaintainerError ApprovalVerifier := do
  let bytes ← orFail (Base64.decode entry.publicKeyBase64)
    (message "trusted approver public key is not valid base64")
  let key ← orFail (toFixed 32 bytes) (message "trusted approver public key must be 32 bytes")
  let authority ← (ApproverAuthority.parse entry.authority).mapError .approval
  (verifier.addApproverForOrganization L.toPrimitives entry.approverId key authority
    none).mapError .approval

/-- The verifier of the approvers in a file. -/
def verifierOf (content : List UInt8) : Except MaintainerError ApprovalVerifier := do
  let entries ← (C.approvers content).mapError .decode
  failIf (entries.isEmpty ∨ 64 < entries.length)
    (message "trusted approver config count is invalid")
  entries.foldlM (addEntry L) {}

/-- `load_approval_verifier`. -/
def loadApprovalVerifier (path : String) : MaintainerM ApprovalVerifier := do
  let (isFile, length) ← onFile io (perform (I := Maintenance) (.metadata path))
  check (failIf (isFile = false ∨ length = 0 ∨ 256 * 1024 < length)
    (message "trusted approver config is invalid"))
  let content ← onFile io (perform (I := Maintenance) (.read path))
  check (verifierOf L C content)

/-- What a request says about the update. -/
def checkRequest (action : MaintenanceAction) (update : ValidatedUpdate)
    (normalizedPlanSha : String) (request : ActionRequest) : Except MaintainerError Unit := do
  failIf (request.envelope.action ≠ action.actionName)
    (message "maintenance approval action mismatch")
  failIf (samePath request.envelope.target update.target = false)
    (message "maintenance approval target mismatch")
  expectStringParameter request "plan_sha256" normalizedPlanSha
  expectStringParameter request "expected_current_sha256"
    (toAsciiLowercase update.plan.expectedCurrentSha256)
  expectStringParameter request "expected_staged_sha256"
    (toAsciiLowercase update.plan.expectedStagedSha256)
  expectStringParameter request "staged_executable" update.staged
  expectStringParameter request "allowed_root" update.root
  let currentPid ← orFail (request.envelope.parameters["current_pid"]?.bind Value.asU64)
    (message "maintenance approval is missing current_pid")
  failIf (currentPid ≠ update.plan.currentPid)
    (message "maintenance approval current_pid mismatch")

/-- `verify_authorization`. -/
def verifyAuthorization (args : AuthorizedPlanArgs) (action : MaintenanceAction)
    (update : ValidatedUpdate) : MaintainerM AuthorizationEvidence := do
  maintaining (verifyFileSha256 L args.planPath args.planSha256)
  let normalizedPlanSha := toAsciiLowercase (trim args.planSha256)
  let requestBytes ← decodeBase64File args.requestFile (1024 * 1024)
  let requestProto ← check ((C.request requestBytes).mapError .decode)
  let request ← check ((Wire.actionRequestFromProto L requestProto).mapError .wire)
  check (checkRequest action update normalizedPlanSha request)
  let approvalBytes ← decodeBase64File args.approvalFile (1024 * 1024)
  let approvalProto ← check ((C.approval approvalBytes).mapError .decode)
  let approval ← check ((Wire.approvalGrantFromProto approvalProto).mapError .wire)
  let verifier ← loadApprovalVerifier L C args.approversFile
  let now ← onHost (perform (I := Maintenance) .clock)
  check ((verifier.verify L.toPrimitives request (maintenanceDecision request) approval
    now).mapError .approval)
  let approvalSha256 ← maintaining (sha256File L args.approvalFile)
  return { requestId := request.envelope.requestId, approverId := approval.approverId
           action := action.actionName, planSha256 := normalizedPlanSha, approvalSha256 }

/-! ### The host -/

/-- `consume_authorization`. -/
def consumeAuthorization (update : ValidatedUpdate) (evidence : AuthorizationEvidence) :
    MaintainerM Unit := do
  let directory ← check (orFail (parent update.journal)
    (message "maintenance journal has no parent"))
  onHost (perform (I := Maintenance) (.createDirAll directory))
  onHost (perform (I := Maintenance)
    (.createMarker
      (join directory ("approval-" ++ evidence.requestId ++ ".consumed.json")) evidence))

/-- `create_result_parent`. -/
def createResultParent (path : String) : MaintainerM Unit := do
  let directory ← check (orFail (parent path) (message "result file has no parent"))
  onHost (perform (I := Maintenance) (.createDirAll directory))

/-- `create_log_parent`. -/
def createLogParent (path : String) : HostM Unit := do
  let directory ← check (orFail (parent path) (.message "log file has no parent"))
  call (perform (I := Maintenance) (.createDirAll directory))

/-- `spawn_target`. -/
def spawnTarget (update : ValidatedUpdate) : HostM ℕ := do
  createLogParent update.stdoutLog
  createLogParent update.stderrLog
  call (perform (I := Maintenance) (.openLog update.stdoutLog))
  call (perform (I := Maintenance) (.openLog update.stderrLog))
  call (perform (I := Maintenance) (.spawn update))

/-- `observe_sha256`. -/
def observeSha256 (path : String) : Program Maintenance (Option String × Option String) :=
  (fun digest => match digest with
    | Except.ok digest => (some digest, none)
    | Except.error e => (none, some e.text)) <$> (sha256File L path).run

/-- A result that says what the target is now, and the error that is returned after it
has been written. -/
def report (update : ValidatedUpdate) (status : String) (newPid : Option ℕ) (text : String) :
    MaintainerM Unit := do
  let (targetSha256, targetSha256Error) ← ExceptT.lift (observeSha256 L update.target)
  onHost (perform (I := Maintenance) (.writeResult update.resultFile
    { status, requestId := update.plan.requestId, oldPid := update.plan.currentPid, newPid
      targetSha256, targetSha256Error, message := text }))

/-- `{:?}` of the number of a process. -/
def debugPid : Option ℕ → String
  | some pid => "Some(" ++ toString pid ++ ")"
  | none => "None"

/-! ### Apply and recover -/

/-- `rollback_and_restart`. -/
def rollbackAndRestart (transaction : ValidatedUpdate) (failedPid : Option ℕ) (reason : String) :
    MaintainerM Unit := do
  maintaining (call (perform (I := Maintenance) (.rollback transaction)))
  match ← ExceptT.lift (spawnTarget transaction).run with
  | .ok oldNewPid => do
      let alive ← onHost (perform (I := Maintenance)
        (.remainsAlive oldNewPid transaction.plan.restart.healthWaitMs))
      report L transaction (if alive then "rolled_back" else "rollback_restart_failed")
        (some oldNewPid)
        (reason ++ "; failed_new_pid=" ++ debugPid failedPid ++ "; previous binary restored")
      throw (message (if alive then "new agent failed health; previous agent was restored"
        else "new agent failed and restored agent also failed health"))
  | .error error => do
      report L transaction "rollback_restart_failed" none
        (reason ++ "; rollback launch failed: " ++ error.text)
      throw (message ("rollback restored binary but could not relaunch it: " ++ error.text))

/-- `apply_update`, once the new agent has stayed alive. -/
def commitUpdate (update transaction : ValidatedUpdate) (newPid : ℕ) : MaintainerM Unit := do
  maintaining (call (perform (I := Maintenance) (.commit transaction)))
  let targetSha256 ← maintaining (sha256File L update.target)
  onHost (perform (I := Maintenance) (.writeResult update.resultFile
    { status := "committed", requestId := update.plan.requestId
      oldPid := update.plan.currentPid, newPid := some newPid
      targetSha256 := some targetSha256, targetSha256Error := none
      message := "new agent remained alive through the bounded health window" }))

/-- `apply_update`, once the binaries have been swapped. -/
def startUpdated (update transaction : ValidatedUpdate) : MaintainerM Unit := do
  match ← ExceptT.lift (spawnTarget transaction).run with
  | .ok newPid => do
      let alive ← onHost (perform (I := Maintenance)
        (.remainsAlive newPid update.plan.restart.healthWaitMs))
      if alive then
        commitUpdate L update transaction newPid
      else
        let _ ← ExceptT.lift (perform (I := Maintenance) (.kill newPid))
        let _ ← ExceptT.lift (perform (I := Maintenance) (.wait newPid))
        rollbackAndRestart L transaction (some newPid) "new agent exited during health window"
  | .error error =>
      rollbackAndRestart L transaction none ("failed to launch new agent: " ++ error.text)

/-- `apply_update`, once the old agent has been terminated. -/
def replaceAgent (update : ValidatedUpdate) : MaintainerM Unit := do
  let paths ← maintaining (call (perform (I := Maintenance) (.begin update.plan)))
  let transaction : ValidatedUpdate := { toResolvedPaths := paths, plan := update.plan }
  match ← ExceptT.lift (perform (I := Maintenance) (.swap transaction)) with
  | Except.ok _ => startUpdated L update transaction
  | Except.error error => do
      report L update "swap_failed" none error.text
      throw (.maintenance error)

def applyGraceMs : ℕ := 750

/-- `apply_update`, until the old agent has been terminated. -/
def prepareUpdate (args : AuthorizedPlanArgs) : MaintainerM ValidatedUpdate := do
  ExceptT.lift (perform (I := Maintenance) (.sleep applyGraceMs))
  let update ← loadVerifiedUpdate L C args.planPath args.planSha256
  let evidence ← verifyAuthorization L C args .apply update
  createResultParent update.resultFile
  let currentProcess ← onHost (perform (I := Maintenance)
    (.openProcess update.plan.currentPid update.target))
  consumeAuthorization update evidence
  onHost (perform (I := Maintenance) (.terminate currentProcess update.plan.currentPid))
  return update

/-- `apply_update`. -/
def applyUpdate (args : AuthorizedPlanArgs) : MaintainerM Unit := do
  let update ← prepareUpdate L C args
  replaceAgent L update

/-- `recover_update`. -/
def recoverUpdate (args : AuthorizedPlanArgs) : MaintainerM Unit := do
  let validated ← loadVerifiedRecoveryUpdate L C args.planPath args.planSha256
  let evidence ← verifyAuthorization L C args .recover validated
  consumeAuthorization validated evidence
  let paths ← maintaining (call (perform (I := Maintenance) (.recoverPrevious validated.plan)))
  let update : ValidatedUpdate := { toResolvedPaths := paths, plan := validated.plan }
  let pid ← ExceptT.adapt .host (spawnTarget update)
  let alive ← onHost (perform (I := Maintenance)
    (.remainsAlive pid update.plan.restart.healthWaitMs))
  report L update (if alive then "recovered" else "recovery_restart_failed") (some pid)
    "conservative recovery restored the previous binary"
  check (failIf (alive = false) (message "recovered binary did not survive the health window"))

end Maintainer

end VorCommander
