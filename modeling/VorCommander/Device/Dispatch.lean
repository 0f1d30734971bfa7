import VorCommander.Device.Broker
import VorCommander.Device.Wire
import VorCommander.Text.Base64

/-!
The dispatcher: what a device does with a request that arrives.

There are two kinds of entry. `dispatchProtoAt` takes a request: a read is
run when policy says so, and a write, a command, a termination or a browser
operation is either run under policy or answered with an approval challenge.
`dispatchApprovedProtoAt` takes a request with a signed approval, consumes the
approval and runs the action. The steps after each decision are functions of
their own, in the order in which the source has them.
-/

namespace VorCommander

open Crypto Steps Steps.Program Text

def defaultApprovalChallengeTtlMs : ℕ := 120000

/-- `remote_action_allowed`, the actions that only read. -/
def remoteActionAllowed (action : String) : Bool :=
  ["filesystem.read", "filesystem.list", "filesystem.search_files", "filesystem.search_content",
   "filesystem.info", "git.status", "git.diff", "process.list", "process.inspect",
   "terminal.poll", "terminal.cancel"].contains action

/-- `remote_approved_action_allowed`. -/
def remoteApprovedActionAllowed (action : String) : Bool :=
  ["filesystem.write", "terminal.exec", "process.terminate", "browser.session.use"].contains action

/-- A JSON object built by insertion, as `serde_json::Map` keeps it. -/
def jsonObject (members : List (String × Value)) : Value :=
  .object (Std.ExtTreeMap.ofList members compare).toList

namespace Dispatch

variable (L : Libraries)

/-! ### Results -/

/-- `ms_to_timestamp`. -/
def completedAt (nowUnixMs : ℕ) : Except DispatchError V1.Timestamp :=
  (Wire.msToTimestamp nowUnixMs).mapError fun _ => .clock

def successResult (authorization : Authorization) (output : WorkerOutput) (completedUnixMs : ℕ) :
    Except DispatchError V1.ActionResult := do
  let completed ← completedAt completedUnixMs
  return { requestId := authorization.request.envelope.requestId
           exitCode := 0
           status := "ok"
           stdoutDigest := (L.sha256 output.1).toList
           stderrDigest := []
           completedAt := some completed
           output := output.1
           contentType := output.2
           truncated := false }

def failureResult (requestId status : String) (completedUnixMs : ℕ) :
    Except DispatchError V1.ActionResult := do
  let completed ← completedAt completedUnixMs
  return { requestId
           exitCode := -1
           status
           stdoutDigest := (L.sha256 []).toList
           stderrDigest := []
           completedAt := some completed
           output := []
           contentType := "application/vnd.vor.error"
           truncated := false }

def failureJsonResult (requestId status : String) (value : Value) (completedUnixMs : ℕ) :
    Except DispatchError V1.ActionResult := do
  let completed ← completedAt completedUnixMs
  return { requestId
           exitCode := -1
           status
           stdoutDigest := (L.sha256 value.toBytes).toList
           stderrDigest := []
           completedAt := some completed
           output := value.toBytes
           contentType := "application/json"
           truncated := false }

/-! ### Approved requests -/

variable (d : Dispatcher)

/-- The end of an approved request whose worker has succeeded. -/
def recordEffect (execution : ExecutionAuthorization) (output : WorkerOutput) (nowUnixMs : ℕ) :
    DeviceM DispatchError V1.ActionResult := do
  let authorization := execution.authorization
  ExceptT.adapt .core
    (Broker.setExecutionRecoveryState authorization .effectApplied nowUnixMs)
  if d.maxOutputBytes < output.1.length then do
    ExceptT.adapt .core
      (Broker.auditOutcomeAt d.policy authorization "output_limit_exceeded" nowUnixMs)
    throw (.outputTooLarge output.1.length)
  else do
    let auditResult ← ExceptT.lift
      (Broker.auditOutcomeAt d.policy authorization "executed" nowUnixMs).run
    match auditResult with
    | .error error => do
        ExceptT.adapt .core
          (Broker.setExecutionRecoveryState authorization .postEffectUncertain nowUnixMs)
        throw (.postEffectUncertain error)
    | .ok () => do
        ExceptT.adapt .core
          (Broker.setExecutionRecoveryState authorization .completed nowUnixMs)
        check (successResult L authorization output nowUnixMs)

/-- The execution of a consumed approval, from the first recovery state on. -/
def executeConsumed (execution : ExecutionAuthorization) (nowUnixMs : ℕ) :
    DeviceM DispatchError V1.ActionResult := do
  ExceptT.adapt .core
    (Broker.setExecutionRecoveryState execution.authorization .effectUncertain nowUnixMs)
  let executionResult ← ExceptT.lift (d.executeApproved execution).run
  match executionResult with
  | .error error => do
      ExceptT.adapt .core
        (Broker.auditOutcomeAt d.policy execution.authorization "worker_failed" nowUnixMs)
      throw error
  | .ok output => recordEffect L d execution output nowUnixMs

/-- `dispatch_approved_at`. -/
def dispatchApprovedAt (request : ActionRequest) (approval : SignedApproval) (nowUnixMs : ℕ) :
    DeviceM DispatchError V1.ActionResult := do
  check (failIf (request.envelope.deviceId ≠ d.deviceId) .wrongDevice)
  check (failIf (¬ remoteApprovedActionAllowed request.envelope.action) .remoteActionNotAllowed)
  let authorization ← ExceptT.adapt .core
    (Broker.authorizeAt L.toPrimitives d.policy request nowUnixMs)
  check (failIf authorization.isDenied .denied)
  if authorization.requiresApproval then do
    let execution ← ExceptT.adapt .core
      (Broker.consumeApprovalAt L.toPrimitives d.policy request approval d.approvalVerifier
        nowUnixMs)
    executeConsumed L d execution nowUnixMs
  else do
    ExceptT.adapt .core
      (Broker.auditOutcomeAt d.policy authorization "remote_approval_policy_required" nowUnixMs)
    throw .remoteApprovalPolicyRequired

/-- `dispatch_approved_proto_at`. -/
def dispatchApprovedProtoAt (approved : V1.ApprovedActionRequest) (nowUnixMs : ℕ) :
    DeviceM DispatchError V1.ActionResult := do
  let request ← check (orFail approved.request .invalidApprovedAction)
  let approval ← check (orFail approved.approval .invalidApprovedAction)
  let request ← check ((Wire.actionRequestFromProto L request).mapError .wire)
  let approval ← check ((Wire.approvalGrantFromProto approval).mapError .wire)
  dispatchApprovedAt L d request approval nowUnixMs

/-! ### Requests that may need an approval -/

/-- A parameter of the original request that is `true`. -/
def carriedFlag (original : ActionEnvelope) (name : String) : List (String × Value) :=
  if (original.parameters[name]?).bind Value.asBool = some true then [(name, .bool true)] else []

/-- The parameters of the write that an edit is turned into. -/
def editParameters (original : ActionEnvelope) (prepared : PreparedEdit) : Parameters :=
  Std.ExtTreeMap.ofList
    ([("content_base64", Value.string (Base64.encode prepared.content)),
      ("content_sha256", .string (hexEncode (L.sha256 prepared.content).toList)),
      ("expected_target_sha256", .string prepared.originalSha256),
      ("content_bytes", .posInt prepared.content.length)] ++
     carriedFlag original "policy_attempt" ++ carriedFlag original "approval_path" ++
     ((original.parameters["workspace_id"]?).map fun v => ("workspace_id", v)).toList) compare

/-- An edit turned into the write of its result, sealed again. -/
def resealEdit (original : ActionEnvelope) (prepared : PreparedEdit) :
    Except DispatchError ActionRequest :=
  (ActionRequest.sealEnvelope L.toPrimitives
    { original with parameters := editParameters L original prepared }).mapError
      fun _ => .invalidFilesystemParameters

/-- What the approver is shown of an edit: the diff, and whether it was cut. -/
abbrev EditMetadata := String × Bool

/-- A request with an edit recipe becomes the write it stands for, authorised
anew; any other request stays as it is. -/
def prepareEditRequest (authorization : Authorization) (nowUnixMs : ℕ) :
    DeviceM DispatchError (Authorization × Option EditMetadata) :=
  match authorization.request.envelope.parameters["edit_recipe"]? with
  | none => return (authorization, none)
  | some value => do
      let edits ← check (orFail (TextEdit.listFromValue value) .invalidFilesystemParameters)
      let prepared ← ExceptT.adapt .fs (d.prepareEdit authorization edits)
      let transformed ← check (resealEdit L authorization.request.envelope prepared)
      let authorization ← ExceptT.adapt .core
        (Broker.authorizeAt L.toPrimitives d.policy transformed nowUnixMs)
      return (authorization, some (prepared.diffSummary, prepared.diffTruncated))

/-- A write that asks to run under policy. -/
def policyWriteAttempt (authorization : Authorization) : Prop :=
  authorization.request.envelope.action = "filesystem.write" ∧
    (authorization.request.envelope.parameters["policy_attempt"]?).bind Value.asBool = some true

/-- A command on the safe list. -/
def safeTerminal (authorization : Authorization) : Prop :=
  authorization.request.envelope.action = "terminal.exec" ∧
    authorization.decision.reasonCode = "terminal_safe_list"

instance (authorization : Authorization) : Decidable (policyWriteAttempt authorization) :=
  inferInstanceAs (Decidable (_ ∧ _))

instance (authorization : Authorization) : Decidable (safeTerminal authorization) :=
  inferInstanceAs (Decidable (_ ∧ _))

/-- The JSON of a challenge. -/
def challengeJson (challenge : ApprovalChallenge) : List (String × Value) :=
  [("request_id", .string challenge.requestId),
   ("envelope_digest_base64", .string (Base64.encode challenge.envelopeDigest.toList)),
   ("policy_id", .string challenge.policyId),
   ("required_capability", challenge.requiredCapability.elim .null .string),
   ("expires_at_unix_ms", .posInt challenge.expiresAtUnixMs),
   ("approval_nonce_base64", .string (Base64.encode challenge.approvalNonce.toList))]

/-- The members a challenge has in addition when the request was an edit. -/
def editJson (authorization : Authorization) (metadata : EditMetadata) :
    Except DispatchError (List (String × Value)) := do
  let proto ← (Wire.actionRequestToProto L authorization.request).mapError .wire
  return [("request_base64", .string (Base64.encode (L.encodeActionRequest proto))),
          ("content_sha256",
            (authorization.request.envelope.parameters["content_sha256"]?).getD .null),
          ("diff_summary", .string metadata.1),
          ("diff_truncated", .bool metadata.2)]

/-- The members for an edit, none without one. -/
def metadataJson (authorization : Authorization) (metadata : Option EditMetadata) :
    Except DispatchError (List (String × Value)) :=
  match metadata with
  | none => .ok []
  | some metadata => editJson L authorization metadata

/-- The answer that carries a challenge. -/
def challengeResult (authorization : Authorization) (challenge : ApprovalChallenge)
    (metadata : Option EditMetadata) (nowUnixMs : ℕ) : Except DispatchError V1.ActionResult := do
  let members ← metadataJson L authorization metadata
  let output := (jsonObject (challengeJson challenge ++ members)).toBytes
  let completed ← completedAt nowUnixMs
  return { requestId := authorization.request.envelope.requestId
           exitCode := 0
           status := "approval_required"
           stdoutDigest := (L.sha256 output).toList
           stderrDigest := []
           completedAt := some completed
           output
           contentType := "application/json"
           truncated := false }

/-- When a challenge issued now expires. -/
def challengeExpiry (authorization : Authorization) (nowUnixMs : ℕ) : Except DispatchError ℕ := do
  failIf (2 ^ 64 ≤ nowUnixMs + defaultApprovalChallengeTtlMs) .clock
  return min (nowUnixMs + defaultApprovalChallengeTtlMs)
    authorization.request.envelope.expiresAtUnixMs

/-- A challenge is issued over the request and audited. -/
def issueApprovalChallenge (authorization : Authorization) (metadata : Option EditMetadata)
    (nowUnixMs : ℕ) : DeviceM DispatchError V1.ActionResult := do
  let expiresAt ← check (challengeExpiry authorization nowUnixMs)
  let challenge ← ExceptT.adapt .approval
    (issueChallenge authorization.request authorization.decision nowUnixMs expiresAt)
  ExceptT.adapt .core
    (Broker.auditOutcomeAt d.policy authorization "approval_challenge_issued" nowUnixMs)
  check (challengeResult L authorization challenge metadata nowUnixMs)

/-- The execution of a write or command that policy allows unsigned. -/
def executeUnderPolicy (authorization : Authorization) (nowUnixMs : ℕ) :
    DeviceM DispatchError V1.ActionResult := do
  let output ← d.executeAuthorized authorization
  ExceptT.adapt .core (Broker.auditOutcomeAt d.policy authorization "executed" nowUnixMs)
  check (successResult L authorization output nowUnixMs)

/-- The end of a preparation, once an edit has become a write. -/
def concludePreparation (authorization : Authorization) (metadata : Option EditMetadata)
    (nowUnixMs : ℕ) : DeviceM DispatchError V1.ActionResult :=
  if authorization.isAuto ∧ (policyWriteAttempt authorization ∨ safeTerminal authorization) then
    executeUnderPolicy L d authorization nowUnixMs
  else if authorization.requiresApproval then
    issueApprovalChallenge L d authorization metadata nowUnixMs
  else do
    ExceptT.adapt .core
      (Broker.auditOutcomeAt d.policy authorization "remote_approval_policy_required" nowUnixMs)
    throw .remoteApprovalPolicyRequired

/-- `prepare_approved_at`. -/
def prepareApprovedAt (request : ActionRequest) (nowUnixMs : ℕ) :
    DeviceM DispatchError V1.ActionResult := do
  check (failIf (request.envelope.deviceId ≠ d.deviceId) .wrongDevice)
  check (failIf (¬ remoteApprovedActionAllowed request.envelope.action) .remoteActionNotAllowed)
  let authorization ← ExceptT.adapt .core
    (Broker.authorizeAt L.toPrimitives d.policy request nowUnixMs)
  check (failIf authorization.isDenied .denied)
  let prepared ← prepareEditRequest L d authorization nowUnixMs
  concludePreparation L d prepared.1 prepared.2 nowUnixMs

/-! ### Reads -/

/-- The execution of a read that policy allows. -/
def executeRead (authorization : Authorization) (nowUnixMs : ℕ) :
    DeviceM DispatchError V1.ActionResult := do
  let execution ← ExceptT.lift (d.executeAuthorized authorization).run
  match execution with
  | .error error => do
      ExceptT.adapt .core
        (Broker.auditOutcomeAt d.policy authorization "worker_failed" nowUnixMs)
      throw error
  | .ok output =>
      if d.maxOutputBytes < output.1.length then do
        ExceptT.adapt .core
          (Broker.auditOutcomeAt d.policy authorization "output_limit_exceeded" nowUnixMs)
        throw (.outputTooLarge output.1.length)
      else do
        ExceptT.adapt .core (Broker.auditOutcomeAt d.policy authorization "executed" nowUnixMs)
        check (successResult L authorization output nowUnixMs)

/-- `dispatch_at`. -/
def dispatchAt (request : ActionRequest) (nowUnixMs : ℕ) :
    DeviceM DispatchError V1.ActionResult := do
  check (failIf (request.envelope.deviceId ≠ d.deviceId) .wrongDevice)
  let authorization ← ExceptT.adapt .core
    (Broker.authorizeAt L.toPrimitives d.policy request nowUnixMs)
  if ¬ remoteActionAllowed authorization.request.envelope.action then do
    ExceptT.adapt .core
      (Broker.auditOutcomeAt d.policy authorization "remote_scope_denied" nowUnixMs)
    throw .remoteActionNotAllowed
  else if authorization.isDenied then throw .denied
  else if authorization.requiresApproval then do
    ExceptT.adapt .core
      (Broker.auditOutcomeAt d.policy authorization "remote_approval_required" nowUnixMs)
    throw .approvalRequired
  else executeRead L d authorization nowUnixMs

/-- `dispatch_proto_at`. -/
def dispatchProtoAt (request : V1.ActionRequest) (nowUnixMs : ℕ) :
    DeviceM DispatchError V1.ActionResult := do
  let request ← check ((Wire.actionRequestFromProto L request).mapError .wire)
  if remoteApprovedActionAllowed request.envelope.action then
    prepareApprovedAt L d request nowUnixMs
  else dispatchAt L d request nowUnixMs

/-! ### Reports -/

/-- `dispatch_status_code`. -/
def statusCode : DispatchError → String
  | .wrongDevice => "wrong_device"
  | .remoteActionNotAllowed => "remote_scope_denied"
  | .denied => "policy_denied"
  | .approvalRequired => "approval_required"
  | .remoteApprovalPolicyRequired => "approval_policy_required"
  | .invalidApprovedAction | .missingWriteContent | .invalidWriteContent
  | .invalidTerminalParameters | .invalidFilesystemParameters => "invalid_request"
  | .writeTooLarge _ => "write_limit_exceeded"
  | .outputTooLarge _ => "output_limit_exceeded"
  | .wire _ => "invalid_request"
  | .approval _ => "approval_invalid"
  | .core .approvalAlreadyConsumed => "approval_replayed"
  | .core .approvalNotPrepared => "approval_not_prepared"
  | .core (.approval _) => "approval_invalid"
  | .audit _ | .core _ => "audit_or_broker_unavailable"
  | .postEffectUncertain _ => "post_effect_uncertain"
  | .fs .targetPreconditionFailed => "target_precondition_failed"
  | .fs _ => "filesystem_error"
  | .git _ => "git_error"
  | .process _ => "process_error"
  | .terminal .cancelled => "terminal_cancelled"
  | .terminal (.timeout _) => "terminal_timeout"
  | .terminal (.outputLimitExceeded _) => "terminal_output_limit_exceeded"
  | .terminal _ => "terminal_error"
  | .browser .approvalMismatch => "browser_session_not_found"
  | .browser .navigationOutOfScope => "browser_navigation_out_of_scope"
  | .browser .staleElement => "browser_stale_element"
  | .browser .sessionNotFound => "browser_session_not_found"
  | .browser .browserDisabled => "browser_disabled"
  | .browser _ => "browser_error"
  | .json => "serialization_error"
  | .invalidConfig | .clock => "internal_error"

/-- The report of an error: an edit whose text was not found as often as
expected says so, any other error only has its status. -/
def errorReport (requestId : String) (error : DispatchError) (nowUnixMs : ℕ) :
    Except DispatchError V1.ActionResult :=
  match error with
  | .fs (.occurrenceMismatch editIndex expected actual closestLine) =>
      failureJsonResult L requestId (statusCode error)
        (jsonObject
          [("edit_index", .posInt editIndex),
           ("expected_occurrences", .posInt expected),
           ("actual_occurrences", .posInt actual),
           ("closest_line", closestLine.elim .null .string)])
        nowUnixMs
  | _ => failureResult L requestId (statusCode error) nowUnixMs

/-- `dispatch_proto_report_at`. -/
def dispatchProtoReportAt (request : V1.ActionRequest) (nowUnixMs : ℕ) :
    DeviceM DispatchError V1.ActionResult := do
  let result ← ExceptT.lift (dispatchProtoAt L d request nowUnixMs).run
  match result with
  | .ok result => return result
  | .error error => check (errorReport L request.requestId error nowUnixMs)

/-- `dispatch_approved_proto_report_at`. -/
def dispatchApprovedProtoReportAt (approved : V1.ApprovedActionRequest) (nowUnixMs : ℕ) :
    DeviceM DispatchError V1.ActionResult := do
  let requestId := approved.request.elim "" V1.ActionRequest.requestId
  let result ← ExceptT.lift (dispatchApprovedProtoAt L d approved nowUnixMs).run
  match result with
  | .ok result => return result
  | .error error => check (failureResult L requestId (statusCode error) nowUnixMs)

end Dispatch

/-! ### Opening a ledger -/

namespace Ledger

/-- One row of the migration: an `approval_consumed` event whose approval is
not in the table yet. -/
def migrateEvent (event : AuditEvent) : DeviceM AuditError Unit :=
  if event.outcome = "approval_consumed" then do
    let consumedAt ← check (sqlInteger event.timestampUnixMs)
    insertConsumption ⟨event.requestId, event.envelopeDigest⟩ consumedAt
  else return ()

/-- `migrate_approval_consumptions`, which `Ledger::open` runs. -/
def migrateApprovalConsumptions : DeviceM AuditError Unit := do
  let events ← selectEvents
  events.forM migrateEvent

end Ledger

end VorCommander
