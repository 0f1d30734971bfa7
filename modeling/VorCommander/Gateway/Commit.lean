import VorCommander.Auth.Context
import VorCommander.Hub.Dispatch
import VorCommander.Text.Base64

/-!
The two tools that commit what has been prepared.

A caller of `commit_write` or `commit_terminal` brings the bytes of a request that was
prepared before, and of its approval. The gateway reads them again, compares the request
with the grant of the call and with the device and the workspace that are selected, asks
the store of tenants, and only then forwards the request to its device. Meanwhile other
calls may change the tenants.
-/

namespace VorCommander

open Crypto Steps Steps.Program Text

/-- `rmcp::ErrorData`. -/
inductive ErrorData
  | invalidParams (message : String)
  | internalError (message : String)
  deriving DecidableEq

/-- The parts of the HTTP request a call came with, and in them the grant its token
stands for. -/
structure Parts where
  grant : Option GrantRecord

structure McpExtensions where
  parts : Option Parts

structure CommitInput where
  deviceId : String
  workspaceId : Option String
  requestBase64 : String
  approvalBase64 : String

abbrev CommitWriteInput := CommitInput

abbrev CommitTerminalInput := CommitInput

/-- What is set up: links to devices, and a store of tenants. -/
structure CommanderServer where
  remoteLinks : Bool
  tenants : Bool

inductive RemoteDispatchError
  | deviceOffline
  | privateLink (error : PrivateLinkError)
  | relay (error : RelayError)
  deriving DecidableEq

/-- The libraries of the wire, the protobuf readers and the JSON reader. -/
structure McpCodec extends Libraries where
  decodeActionRequest : List UInt8 → Option V1.ActionRequest
  decodeApprovalGrant : List UInt8 → Option V1.ApprovalGrant
  parseJson : List UInt8 → Option Value

/-! ### Operations -/

/-- What a tool asks of others. The router hands a request to one of the two hubs;
`changeTenants` is a call of another handle of the store. -/
inductive McpOp
  | verifyContext (grant : GrantRecord) (organizationId deviceId : String)
      (workspaceId : Option String) (requiredRole : TenantRole)
  | dispatchApprovedAction (deviceId : String) (request : V1.ActionRequest)
      (approval : V1.ApprovalGrant) (timeoutMs : ℕ)
  | changeTenants (call : TenantStoreCall)

def McpOp.Reply : McpOp → Type
  | .verifyContext _ _ _ _ _ => Except AuthError VerifiedTenantContext
  | .dispatchApprovedAction _ _ _ _ => Except RemoteDispatchError V1.ActionResult
  | .changeTenants _ => Except AuthError Unit

abbrev Mcp : Interface := ⟨McpOp, McpOp.Reply⟩

abbrev McpM (α : Type) := ExceptT ErrorData (Program Mcp) α

namespace Mcp

/-- `TenantStore::verify_context`. -/
def verifyContext (grant : GrantRecord) (organizationId deviceId : String)
    (workspaceId : Option String) (requiredRole : TenantRole) :
    ExceptT AuthError (Program Mcp) VerifiedTenantContext :=
  attempt (perform (I := Mcp)
    (.verifyContext grant organizationId deviceId workspaceId requiredRole))

/-- `RemoteDispatchRouter::dispatch_approved_action`. -/
def dispatchApprovedAction (deviceId : String) (request : V1.ActionRequest)
    (approval : V1.ApprovalGrant) (timeoutMs : ℕ) :
    ExceptT RemoteDispatchError (Program Mcp) V1.ActionResult :=
  attempt (perform (I := Mcp) (.dispatchApprovedAction deviceId request approval timeoutMs))

section Rules

variable {A : History Mcp → Event Mcp → Prop} {G : History Mcp → Mcp.Op → Prop} {h : History Mcp}
  {deviceId : String}

theorem safe_verifyContext {grant : GrantRecord} {organizationId : String}
    {workspaceId : Option String} {requiredRole : TenantRole}
    {Q : History Mcp → Except AuthError VerifiedTenantContext → Prop} :
    Safe A G Q (verifyContext grant organizationId deviceId workspaceId requiredRole).run h ↔
      G h (.verifyContext grant organizationId deviceId workspaceId requiredRole) ∧
        ∀ reply : Except AuthError VerifiedTenantContext,
          A h ⟨.verifyContext grant organizationId deviceId workspaceId requiredRole, reply⟩ →
            Q (⟨.verifyContext grant organizationId deviceId workspaceId requiredRole, reply⟩ :: h)
              reply :=
  safe_call (I := Mcp) (.verifyContext grant organizationId deviceId workspaceId requiredRole) id

theorem safe_dispatchApprovedAction {request : V1.ActionRequest} {approval : V1.ApprovalGrant}
    {timeoutMs : ℕ} {Q : History Mcp → Except RemoteDispatchError V1.ActionResult → Prop} :
    Safe A G Q (dispatchApprovedAction deviceId request approval timeoutMs).run h ↔
      G h (.dispatchApprovedAction deviceId request approval timeoutMs) ∧
        ∀ reply : Except RemoteDispatchError V1.ActionResult,
          A h ⟨.dispatchApprovedAction deviceId request approval timeoutMs, reply⟩ →
            Q (⟨.dispatchApprovedAction deviceId request approval timeoutMs, reply⟩ :: h) reply :=
  safe_call (I := Mcp) (.dispatchApprovedAction deviceId request approval timeoutMs) id

end Rules

end Mcp

/-! ### The tools -/

/-- `grant_from_mcp_extensions`. -/
def grantFromMcpExtensions (extensions : McpExtensions) : Except ErrorData GrantRecord := do
  let parts ← orFail extensions.parts (.invalidParams "missing authenticated HTTP context")
  orFail parts.grant (.invalidParams "missing authenticated grant context")

/-- `signed_workspace_id`. -/
def signedWorkspaceId (parameters : Parameters) : Except ErrorData (Option String) :=
  let refused := .invalidParams "prepared request workspace_id must be a non-empty string"
  match parameters["workspace_id"]? with
  | none => .ok none
  | some value => do
      let workspaceId ← orFail value.asStr refused
      failIf (isBlank workspaceId) refused
      return some workspaceId

/-- `remote_tool_error`. -/
def remoteToolError : RemoteDispatchError → ErrorData
  | .deviceOffline | .privateLink .deviceOffline | .relay .deviceOffline =>
      .invalidParams "remote device is offline"
  | .privateLink .remoteActionNotAllowed | .relay .remoteActionNotAllowed =>
      .invalidParams "remote action is not allowed"
  | .privateLink .actionTimeout | .relay .actionTimeout =>
      .internalError "remote action timed out"
  | _ => .internalError "remote dispatch failed"

/-- What `openPrepared` finds in the bytes of a caller. -/
structure PreparedAction where
  request : V1.ActionRequest
  approval : V1.ApprovalGrant
  canonical : ActionRequest

namespace CommanderServer

variable (C : McpCodec) (server : CommanderServer)

/-- `authorize_mcp`. -/
def authorizeMcp (grant : GrantRecord) (deviceId : String) (workspaceId : Option String)
    (requiredRole : TenantRole) : McpM (Option String) :=
  if server.tenants then do
    let workspaceId ← check (orFail workspaceId
      (.invalidParams "workspace_id is required for tenant-scoped MCP actions"))
    let _ ← ExceptT.adapt (fun _ => .invalidParams "tenant authority denied")
      (Mcp.verifyContext grant grant.organizationId deviceId (some workspaceId) requiredRole)
    return some workspaceId
  else
    return workspaceId

/-- `authorize_prepared_mcp`. -/
def authorizePreparedMcp (grant : GrantRecord) (deviceId : String)
    (inputWorkspaceId preparedWorkspaceId : Option String) (requiredRole : TenantRole) :
    McpM Unit := do
  if server.tenants then
    let inputWorkspaceId ← check (orFail inputWorkspaceId
      (.invalidParams "workspace_id is required for tenant-scoped MCP actions"))
    let preparedWorkspaceId ← check (orFail preparedWorkspaceId
      (.invalidParams "prepared request is missing a signed workspace_id"))
    check (failIf (inputWorkspaceId ≠ preparedWorkspaceId)
      (.invalidParams "prepared request is not bound to the selected workspace"))
  let _ ← server.authorizeMcp grant deviceId inputWorkspaceId requiredRole

/-- What both tools do before they ask for authority: they read the request and its
approval, and compare the request with the grant and the device. -/
def openPrepared (action : String) (grant : GrantRecord) (input : CommitInput) :
    Except ErrorData PreparedAction := do
  let requestBytes ← orFail (Base64.decode input.requestBase64)
    (.invalidParams "request_base64 is not valid base64")
  let approvalBytes ← orFail (Base64.decode input.approvalBase64)
    (.invalidParams "approval_base64 is not valid base64")
  let request ← orFail (C.decodeActionRequest requestBytes)
    (.invalidParams "request_base64 is not a valid ActionRequest")
  let approval ← orFail (C.decodeApprovalGrant approvalBytes)
    (.invalidParams "approval_base64 is not a valid ApprovalGrant")
  let canonical ← (Wire.actionRequestFromProto C.toLibraries request).mapError fun _ =>
    .invalidParams "prepared request failed canonical validation"
  failIf (canonical.envelope.deviceId ≠ input.deviceId ∨
      canonical.envelope.actorId ≠ grant.actorId ∨
      canonical.envelope.organizationId ≠ grant.organizationId ∨
      canonical.envelope.action ≠ action)
    (.invalidParams ("prepared request is not bound to this actor, device and " ++ action))
  return { request, approval, canonical }

/-- `render_tool_output`. -/
def renderToolOutput (result : V1.ActionResult) : Option String := do
  let (encoding, data) ←
    if result.contentType = "application/json" then
      if result.output.isEmpty then some ("json", .null)
      else (C.parseJson result.output).map (("json", ·))
    else some ("base64", .string (Base64.encode result.output))
  return String.ofList (Value.object
    [("request_id", .string result.requestId), ("status", .string result.status),
     ("content_type", .string result.contentType), ("encoding", .string encoding),
     ("data", data), ("digest_base64", .string (Base64.encode result.stdoutDigest))]).encode

/-- The body that `commit_write_mcp` and `commit_terminal_mcp` share. -/
def commitMcp (action : String) (timeoutMs : ActionEnvelope → ℕ) (extensions : McpExtensions)
    (input : CommitInput) : McpM String := do
  let grant ← check (grantFromMcpExtensions extensions)
  let prepared ← check (openPrepared C action grant input)
  let signed ← check (signedWorkspaceId prepared.canonical.envelope.parameters)
  server.authorizePreparedMcp grant prepared.canonical.envelope.deviceId input.workspaceId signed
    .operator
  check (failIf (server.remoteLinks = false) (.invalidParams "remote dispatch is disabled"))
  let result ← ExceptT.adapt remoteToolError
    (Mcp.dispatchApprovedAction input.deviceId prepared.request prepared.approval
      (timeoutMs prepared.canonical.envelope))
  check (orFail (renderToolOutput C result) (.internalError "failed to encode remote result"))

def mcpRemoteActionTimeoutMs : ℕ := 120000

def defaultMcpTerminalTimeoutMs : ℕ := 30000

def maxMcpTerminalTimeoutMs : ℕ := 120000

/-- `commit_write_mcp`. -/
def commitWriteMcp : McpExtensions → CommitWriteInput → McpM String :=
  server.commitMcp C "filesystem.write" fun _ => mcpRemoteActionTimeoutMs

/-- `commit_terminal_mcp`, which waits as long as the command may take and ten seconds
more. -/
def commitTerminalMcp : McpExtensions → CommitTerminalInput → McpM String :=
  server.commitMcp C "terminal.exec" fun envelope =>
    min (((envelope.parameters["timeout_ms"]?.bind Value.asU64).getD
      defaultMcpTerminalTimeoutMs)) maxMcpTerminalTimeoutMs + 10000

end CommanderServer

/-! ### The gateway -/

inductive McpEntry
  | commitWrite (extensions : McpExtensions) (input : CommitWriteInput)
  | commitTerminal (extensions : McpExtensions) (input : CommitTerminalInput)
  | changeTenants (call : TenantStoreCall)

/-- The effect of an operation on the file of the tenants, if there is one. A call that
fails has left the file, or has removed it and could not put the new one in its place. -/
def McpOp.Commits (s : Option TenantPersistedState) :
    (op : McpOp) → op.Reply → Option TenantPersistedState → Prop
  | .verifyContext grant organizationId deviceId workspaceId requiredRole, reply, s' =>
      s' = s ∧ ∀ context, reply = .ok context → ∃ state, s = some state ∧
        TenantStore.verifyContext grant organizationId deviceId workspaceId requiredRole state =
          .ok context
  | .dispatchApprovedAction _ _ _ _, _, s' => s' = s
  | .changeTenants call, reply, s' =>
      match reply with
      | .ok () => ∃ state state', s = some state ∧ call.onState state = .ok state' ∧
          s' = some state'
      | .error _ => s' = s ∨ s' = none

def mcpSystem (C : McpCodec) (server : CommanderServer) : System Mcp where
  State := Option TenantPersistedState
  Entry := McpEntry
  Result := Option (Except ErrorData String)
  body
    | .commitWrite extensions input => some <$> (server.commitWriteMcp C extensions input).run
    | .commitTerminal extensions input =>
        some <$> (server.commitTerminalMcp C extensions input).run
    | .changeTenants call => .step (I := Mcp) (.changeTenants call) fun _ => .done none
  Commit s e s' := e.op.Commits s e.reply s'

end VorCommander
