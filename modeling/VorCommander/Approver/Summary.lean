import VorCommander.Approval
import VorCommander.Text.Delimited

/-!
What an approver is shown.

The approver reads a text of labels and of strings that the request and the challenge
have, and signs what the text is about. Before that the challenge must be bound to the
request, and neither may have expired.
-/

namespace VorCommander.Approver

open Steps Text

/-! ### The prepared request -/

/-- `required_string_parameter`. -/
def requiredStringParameter (request : ActionRequest) (name : String) : Except String String :=
  orFail (request.envelope.parameters[name]?.bind Value.asStr)
    ("prepared request is missing " ++ name)

/-- `required_u64_parameter`. A number that does not fit in 64 bits is none. -/
def requiredU64Parameter (request : ActionRequest) (name : String) : Except String ℕ :=
  orFail ((request.envelope.parameters[name]?.bind Value.asU64).filter (· < 2 ^ 64))
    ("prepared request is missing " ++ name)

/-- What is shown of an action. -/
inductive Details
  | write (target contentSha256 expectedTargetSha256 : String)
  | terminal (cwd : String) (argv : List String) (timeoutMs maxOutputBytes : ℕ)
  | maintenance (action target stagedExecutable allowedRoot : String) (currentPid : ℕ)
      (planSha256 currentSha256 stagedSha256 : String)
  deriving DecidableEq

def notSigned : String :=
  "approver signs only filesystem.write, terminal.exec, or maintenance actions"

/-- What `approval_summary` reads of a request, by its action. -/
def readDetails (request : ActionRequest) : Except String Details :=
  if request.envelope.action = "filesystem.write" then do
    let contentSha256 ← requiredStringParameter request "content_sha256"
    let expectedTargetSha256 ← requiredStringParameter request "expected_target_sha256"
    return .write request.envelope.target contentSha256 expectedTargetSha256
  else if request.envelope.action = "terminal.exec" then do
    let values ← orFail (request.envelope.parameters["argv"]?.bind Value.asArray)
      "prepared terminal request is missing argv"
    let argv ← values.mapM fun value =>
      orFail value.asStr "terminal argv contains a non-string value"
    let timeoutMs ← requiredU64Parameter request "timeout_ms"
    let maxOutputBytes ← requiredU64Parameter request "max_output_bytes"
    return .terminal request.envelope.target argv timeoutMs maxOutputBytes
  else if request.envelope.action = "maintenance.apply" ∨
      request.envelope.action = "maintenance.recover" then do
    let planSha256 ← requiredStringParameter request "plan_sha256"
    let currentSha256 ← requiredStringParameter request "expected_current_sha256"
    let stagedSha256 ← requiredStringParameter request "expected_staged_sha256"
    let stagedExecutable ← requiredStringParameter request "staged_executable"
    let allowedRoot ← requiredStringParameter request "allowed_root"
    let currentPid ← requiredU64Parameter request "current_pid"
    return .maintenance request.envelope.action request.envelope.target stagedExecutable allowedRoot
      currentPid planSha256 currentSha256 stagedSha256
  else .error notSigned

/-- `serde_json::to_string` of the arguments. -/
def argvJson (argv : List String) : List Char := encodeArray (argv.map encodeString)

/-- The beginning of the text, by the action. -/
def Details.text : Details → String
  | .write target contentSha256 expectedTargetSha256 =>
      "Vör Commander requests permission to write a file.\n\nTarget:\n" ++ target ++
        "\n\nContent SHA-256: " ++ contentSha256 ++ "\nExpected target SHA-256: " ++
        expectedTargetSha256
  | .terminal cwd argv timeoutMs maxOutputBytes =>
      "Vör Commander requests permission to start a bounded terminal process.\n\nCWD:\n" ++ cwd ++
        "\n\nARGV (structured JSON):\n" ++ String.ofList (argvJson argv) ++ "\n\nTimeout: " ++
        toString timeoutMs ++ " ms\nOutput budget: " ++ toString maxOutputBytes ++
        " bytes\n\nPoll/cancel do not authorize a new process."
  | .maintenance action target stagedExecutable allowedRoot currentPid planSha256 currentSha256
      stagedSha256 =>
      "Vör Commander requests OWNER permission for self-maintenance.\n\nAction: " ++ action ++
        "\nTarget:\n" ++ target ++ "\n\nStaged executable:\n" ++ stagedExecutable ++
        "\nAllowed root:\n" ++ allowedRoot ++ "\n\nCurrent PID: " ++ toString currentPid ++
        "\nPlan SHA-256: " ++ planSha256 ++ "\nCurrent SHA-256: " ++ currentSha256 ++
        "\nStaged SHA-256: " ++ stagedSha256 ++
        "\n\nThis approval is consumed before any process stop or binary swap."

/-! ### The text -/

/-- What is shown of a request and its challenge, the digest apart. -/
structure Displayed where
  details : Details
  actorId : String
  deviceId : String
  organizationId : String
  policyId : String
  capability : String
  requestId : String
  expiresAtUnixMs : ℕ
  deriving DecidableEq

def displayed (request : ActionRequest) (challenge : ApprovalChallenge) :
    Except String Displayed := do
  let details ← readDetails request
  return { details
           actorId := request.envelope.actorId
           deviceId := request.envelope.deviceId
           organizationId := request.envelope.organizationId
           policyId := challenge.policyId
           capability := challenge.requiredCapability.getD "approval"
           requestId := challenge.requestId
           expiresAtUnixMs := challenge.expiresAtUnixMs }

def Displayed.text (shown : Displayed) (digest : Digest32) : String :=
  shown.details.text ++ "\n\nActor: " ++ shown.actorId ++ "\nDevice: " ++ shown.deviceId ++
    "\nOrganization: " ++ shown.organizationId ++ "\nPolicy: " ++ shown.policyId ++
    "\nCapability: " ++ shown.capability ++ "\nRequest: " ++ shown.requestId ++
    "\nEnvelope SHA-256: " ++ hexEncode digest.toList ++ "\nExpires (Unix ms): " ++
    toString shown.expiresAtUnixMs ++
    "\n\nThis approval is bound to this exact request and can be consumed only once.\n\nApprove?"

/-- `approval_summary`. -/
def approvalSummary (request : ActionRequest) (challenge : ApprovalChallenge) :
    Except String String := do
  let shown ← displayed request challenge
  return shown.text challenge.envelopeDigest

/-! ### The binding -/

/-- The actions that an approver signs. -/
def signedActions : List String :=
  ["filesystem.write", "terminal.exec", "maintenance.apply", "maintenance.recover"]

/-- `validate_binding`. -/
def validateBinding (request : ActionRequest) (challenge : ApprovalChallenge) (nowUnixMs : ℕ) :
    Except String Unit := do
  failIf (request.envelope.action ∉ signedActions) notSigned
  failIf (request.envelope.requestId ≠ challenge.requestId ∨
      request.envelopeDigest ≠ challenge.envelopeDigest)
    "approval challenge is not bound to the prepared request"
  failIf (request.envelope.expiresAtUnixMs ≤ nowUnixMs) "prepared request has expired"
  failIf (challenge.expiresAtUnixMs ≤ nowUnixMs ∨
      request.envelope.expiresAtUnixMs < challenge.expiresAtUnixMs)
    "approval challenge expiry is invalid"

theorem validateBinding_eq_ok {request : ActionRequest} {challenge : ApprovalChallenge}
    {nowUnixMs : ℕ} : validateBinding request challenge nowUnixMs = .ok () ↔
      request.envelope.action ∈ signedActions ∧
      request.envelope.requestId = challenge.requestId ∧
      request.envelopeDigest = challenge.envelopeDigest ∧
      nowUnixMs < request.envelope.expiresAtUnixMs ∧ nowUnixMs < challenge.expiresAtUnixMs ∧
      challenge.expiresAtUnixMs ≤ request.envelope.expiresAtUnixMs := by
  simp only [validateBinding, bind_eq_ok, exists_unit, failIf_eq_ok, not_or, not_not, Nat.not_le,
    Nat.not_lt, and_assoc, ne_eq]

end VorCommander.Approver
