import VorCommander.Device.Interface

/-!
The broker: authorisation, consumption of approvals, and the audit events it
writes for them.

Every event is built by a function of its own, so that what the ledger holds
after a call can be read off without the program.
-/

namespace VorCommander

open Crypto Steps Steps.Program Text

/-- `u64::saturating_add`. -/
def saturatingAdd (a b : ℕ) : ℕ := min (a + b) (2 ^ 64 - 1)

namespace Broker

/-! ### Audit events -/

/-- The bytes a request says it writes. -/
def contentBytes (request : ActionRequest) : ℕ :=
  ((request.envelope.parameters["content_bytes"]?).bind Value.asU64).getD 0

/-- The outcome under which a decision is audited. -/
def outcomeOf : PolicyDecisionKind → String
  | .auto => "auto"
  | .approval => "approval"
  | .deny => "deny"

/-- The event of `authorize_at`. -/
def authorizationEvent (policy : PolicyEngine) (request : ActionRequest)
    (decision : PolicyDecision) (nowUnixMs : ℕ) : AuditEvent :=
  { timestampUnixMs := nowUnixMs
    organizationId := request.envelope.organizationId
    actorId := request.envelope.actorId
    deviceId := request.envelope.deviceId
    requestId := request.envelope.requestId
    action := request.envelope.action
    target := request.envelope.target
    outcome := outcomeOf decision.kind
    envelopeDigest := request.envelopeDigest
    authority :=
      if decision.reasonCode = "terminal_safe_list" then "safe-list"
      else if decision.kind = .auto then "policy"
      else "signature"
    approval :=
      if decision.reasonCode = "terminal_safe_list" then "safe-list"
      else if decision.kind = .approval then "required"
      else if decision.kind = .deny then "denied"
      else "not-required"
    policyRule := decision.reasonCode
    policyHash := policy.policyHash
    contentBytes := contentBytes request }

/-- The event of `append_approval_event`. -/
def approvalEvent (policy : PolicyEngine) (request : ActionRequest) (actorId outcome : String)
    (policyRule : String) (timestampUnixMs : ℕ) : AuditEvent :=
  { timestampUnixMs
    organizationId := request.envelope.organizationId
    actorId
    deviceId := request.envelope.deviceId
    requestId := request.envelope.requestId
    action := request.envelope.action
    target := request.envelope.target
    outcome
    envelopeDigest := request.envelopeDigest
    authority := "signature"
    approval := "signature"
    policyRule
    policyHash := policy.policyHash
    contentBytes := 0 }

/-- The event of `audit_outcome_at`. -/
def outcomeEvent (policy : PolicyEngine) (authorization : Authorization) (outcome : String)
    (timestampUnixMs : ℕ) : AuditEvent :=
  let request := authorization.request
  { timestampUnixMs
    organizationId := request.envelope.organizationId
    actorId := request.envelope.actorId
    deviceId := request.envelope.deviceId
    requestId := request.envelope.requestId
    action := request.envelope.action
    target := request.envelope.target
    outcome
    envelopeDigest := request.envelopeDigest
    authority :=
      if authorization.decision.reasonCode = "terminal_safe_list" then "safe-list"
      else if authorization.isAuto then "policy"
      else "signature"
    approval :=
      if authorization.decision.reasonCode = "terminal_safe_list" then "safe-list"
      else if authorization.isAuto then "not-required"
      else "signature"
    policyRule := authorization.decision.reasonCode
    policyHash := policy.policyHash
    contentBytes := 0 }

/-! ### Programs -/

variable (P : Primitives) (policy : PolicyEngine)

/-- The decision of the write limiter. -/
def rateLimited (decision : PolicyDecision) (count bytes content : ℕ) : PolicyDecision :=
  if policy.config.autoWrite.maxFilesPerMinute ≤ count ∨
      policy.config.autoWrite.maxBytesPerMinute < saturatingAdd bytes content then
    { decision with kind := .approval, reasonCode := "auto_write_rate_limited" }
  else decision

/-- The part of `authorize_at` that reads the write limits from the ledger. -/
def limitAutoWrites (request : ActionRequest) (decision : PolicyDecision) (nowUnixMs : ℕ) :
    DeviceM CoreError PolicyDecision :=
  if decision.kind = .auto ∧ request.envelope.action = "filesystem.write" then do
    let since := nowUnixMs - 60000
    let count ← ExceptT.adapt CoreError.audit
      (Ledger.countPolicyAutoWritesSince request.envelope.actorId request.envelope.deviceId since)
    let bytes ← ExceptT.adapt CoreError.audit
      (Ledger.sumPolicyAutoWriteBytesSince request.envelope.actorId request.envelope.deviceId since)
    return rateLimited policy decision count bytes (contentBytes request)
  else return decision

/-- `Broker::authorize_at`. -/
def authorizeAt (request : ActionRequest) (nowUnixMs : ℕ) : DeviceM CoreError Authorization := do
  check ((request.verify P nowUnixMs).mapError .protocol)
  let evaluated ← evaluatePolicy policy request
  let decision ← limitAutoWrites policy request evaluated nowUnixMs
  let _ ← ExceptT.adapt CoreError.audit
    (Ledger.append (authorizationEvent policy request decision nowUnixMs))
  return { request, decision }

/-- `Broker::append_approval_event`. -/
def appendApprovalEvent (request : ActionRequest) (actorId outcome : String)
    (timestampUnixMs : ℕ) : DeviceM CoreError Unit := do
  let decision ← evaluatePolicy policy request
  let _ ← ExceptT.adapt CoreError.audit
    (Ledger.append
      (approvalEvent policy request actorId outcome decision.reasonCode timestampUnixMs))

/-- `Broker::consume_approval_at`. -/
def consumeApprovalAt (request : ActionRequest) (approval : SignedApproval)
    (verifier : ApprovalVerifier) (nowUnixMs : ℕ) : DeviceM CoreError ExecutionAuthorization := do
  check ((request.verify P nowUnixMs).mapError .protocol)
  let decision ← evaluatePolicy policy request
  let prepared ← ExceptT.adapt CoreError.audit (Ledger.hasOutcomeFor request.key "approval")
  check (failIf (¬ prepared) .approvalNotPrepared)
  ExceptT.adapt CoreError.approval
    (verifyApproval verifier request decision approval nowUnixMs)
  let claimed ← ExceptT.adapt CoreError.audit (Ledger.claimApprovalConsumed request.key nowUnixMs)
  check (failIf (¬ claimed) .approvalAlreadyConsumed)
  appendApprovalEvent policy request approval.approverId "approval_verified" nowUnixMs
  appendApprovalEvent policy request request.envelope.actorId "approval_consumed" nowUnixMs
  return { authorization := { request, decision }
           approverId := approval.approverId
           approvalExpiresAtUnixMs := approval.challenge.expiresAtUnixMs }

/-- `Broker::audit_outcome_at`. -/
def auditOutcomeAt (authorization : Authorization) (outcome : String) (timestampUnixMs : ℕ) :
    DeviceM CoreError Unit := do
  let _ ← ExceptT.adapt CoreError.audit
    (Ledger.append (outcomeEvent policy authorization outcome timestampUnixMs))

/-- `Broker::set_execution_recovery_state`. -/
def setExecutionRecoveryState (authorization : Authorization) (state : ExecutionRecoveryState)
    (timestampUnixMs : ℕ) : DeviceM CoreError Unit :=
  ExceptT.adapt CoreError.audit
    (Ledger.setExecutionRecoveryState authorization.request.key state timestampUnixMs)

end Broker

end VorCommander
