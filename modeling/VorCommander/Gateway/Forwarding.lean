import VorCommander.Device.RoundTrip
import VorCommander.Gateway.Commit

/-!
What a commit forwards.

A gateway with tenants forwards a prepared request only after the store has verified the
context for the workspace that is selected and signed. The store reads its file at that
moment, and verifies exactly the contexts that the file entitles the actor to.
-/

namespace VorCommander

open Crypto Steps Steps.Program Text

namespace McpEntry

/-- The action that an entry commits, with what it is called with. -/
def committed : McpEntry → Option (String × McpExtensions × CommitInput)
  | .commitWrite extensions input => some ("filesystem.write", extensions, input)
  | .commitTerminal extensions input => some ("terminal.exec", extensions, input)
  | .changeTenants _ => none

end McpEntry

/-! ### What a commit is bound to -/

/-- The request is what was signed, and it is for the organisation and the actor of the
grant, for the device and the workspace that are selected, and for the action. -/
structure PreparedFor (C : McpCodec) (action : String) (grant : GrantRecord) (input : CommitInput)
    (workspaceId : String) (request : V1.ActionRequest) (canonical : ActionRequest) : Prop where
  received : Wire.actionRequestFromProto C.toLibraries request = .ok canonical
  organization : canonical.envelope.organizationId = grant.organizationId
  actor : canonical.envelope.actorId = grant.actorId
  device : canonical.envelope.deviceId = input.deviceId
  action : canonical.envelope.action = action
  signed : canonical.envelope.parameters["workspace_id"]? = some (.string workspaceId)
  selected : input.workspaceId = some workspaceId

theorem signedWorkspaceId_eq_some {parameters : Parameters} {workspaceId : String}
    (h : signedWorkspaceId parameters = .ok (some workspaceId)) :
    parameters["workspace_id"]? = some (.string workspaceId) := by
  unfold signedWorkspaceId at h
  split at h
  · cases h
  · rename_i value hvalue
    simp only [bind_eq_ok, exists_unit, orFail_eq_ok, failIf_eq_ok, pure_eq_ok,
      Option.some.injEq] at h
    obtain ⟨_, htext, _, rfl⟩ := h
    rw [hvalue, Value.asStr_eq_some htext]

section Commit

variable {C : McpCodec} {server : CommanderServer} {action : String} {grant : GrantRecord}
  {input : CommitInput}

theorem openPrepared_eq_ok {prepared : PreparedAction}
    (h : CommanderServer.openPrepared C action grant input = .ok prepared) :
    Wire.actionRequestFromProto C.toLibraries prepared.request = .ok prepared.canonical ∧
      prepared.canonical.envelope.deviceId = input.deviceId ∧
      prepared.canonical.envelope.actorId = grant.actorId ∧
      prepared.canonical.envelope.organizationId = grant.organizationId ∧
      prepared.canonical.envelope.action = action := by
  simp only [CommanderServer.openPrepared, bind_eq_ok, exists_unit, orFail_eq_ok, mapError_eq_ok,
    failIf_eq_ok, not_or, not_not, pure_eq_ok] at h
  obtain ⟨_, _, _, _, _, _, _, _, _, hreceived, ⟨hdevice, hactor, horganization, haction⟩, rfl⟩ := h
  exact ⟨hreceived, hdevice, hactor, horganization, haction⟩

variable {A : History Mcp → Event Mcp → Prop} {G : History Mcp → Mcp.Op → Prop} {h : History Mcp}

/-- The event of a context that has been verified for an operator. -/
abbrev McpEvent.verified (grant : GrantRecord) (deviceId workspaceId : String)
    (context : VerifiedTenantContext) : Event Mcp :=
  ⟨.verifyContext grant grant.organizationId deviceId (some workspaceId) .operator,
    Except.ok context⟩

theorem safe_authorizeMcp (htenants : server.tenants = true) {deviceId workspaceId : String}
    {Q : History Mcp → Except ErrorData (Option String) → Prop}
    (hop : G h (.verifyContext grant grant.organizationId deviceId (some workspaceId) .operator))
    (herror : ∀ h' e, Q h' (.error e))
    (hok : ∀ context, A h (McpEvent.verified grant deviceId workspaceId context) →
      Q (McpEvent.verified grant deviceId workspaceId context :: h) (.ok (some workspaceId))) :
    Safe A G Q (server.authorizeMcp grant deviceId (some workspaceId) .operator).run h := by
  rw [CommanderServer.authorizeMcp, if_pos htenants, safe_exceptT_bind, safe_check, orFail_some,
    then_ok]
  refine (safe_exceptT_bind _ _).mpr ?_
  refine (safe_exceptT_adapt _ _).mpr (Mcp.safe_verifyContext.mpr ⟨hop, fun reply hA => ?_⟩)
  cases reply with
  | error e => exact herror _ _
  | ok context => exact (safe_exceptT_pure _).mpr (hok context hA)

/-- A prepared request is authorized only for the workspace that is selected and signed. -/
theorem safe_authorizePreparedMcp (htenants : server.tenants = true) {deviceId : String}
    {inputWorkspaceId preparedWorkspaceId : Option String}
    {Q : History Mcp → Except ErrorData Unit → Prop}
    (hop : ∀ workspaceId,
      G h (.verifyContext grant grant.organizationId deviceId (some workspaceId) .operator))
    (herror : ∀ h' e, Q h' (.error e))
    (hok : ∀ workspaceId context, inputWorkspaceId = some workspaceId →
      preparedWorkspaceId = some workspaceId →
        Q (McpEvent.verified grant deviceId workspaceId context :: h) (.ok ())) :
    Safe A G Q (server.authorizePreparedMcp grant deviceId inputWorkspaceId preparedWorkspaceId
      .operator).run h := by
  rw [CommanderServer.authorizePreparedMcp, if_pos htenants]
  refine safe_check_bind (herror h) fun workspaceId hselected => ?_
  refine safe_check_bind (herror h) fun signed hsigned => ?_
  refine safe_check_bind (herror h) fun _ hsame => ?_
  refine (safe_exceptT_bind _ _).mpr ?_
  -- the workspace that was selected is the one that was signed
  rw [orFail_eq_ok] at hselected hsigned
  rw [failIf_eq_ok, not_not] at hsame
  subst hselected hsigned hsame
  refine safe_authorizeMcp htenants (hop _) (fun h' e => herror h' e) fun context _ => ?_
  exact (safe_exceptT_pure _).mpr (hok _ context rfl rfl)

/-- What is known when a request is forwarded. -/
structure Forwards (C : McpCodec) (action : String) (extensions : McpExtensions)
    (input : CommitInput) (h : History Mcp) (deviceId : String) (request : V1.ActionRequest) :
    Prop where
  device : deviceId = input.deviceId
  authority : ∃ grant workspaceId canonical context,
    grantFromMcpExtensions extensions = .ok grant ∧
      PreparedFor C action grant input workspaceId request canonical ∧
        McpEvent.verified grant deviceId workspaceId context ∈ h

/-- What a commit guarantees of what it performs. -/
def CommitGuarantee (C : McpCodec) (action : String) (extensions : McpExtensions)
    (input : CommitInput) (h : History Mcp) : Mcp.Op → Prop
  | .dispatchApprovedAction deviceId request _ _ =>
      Forwards C action extensions input h deviceId request
  | _ => True

theorem safe_commitMcp (htenants : server.tenants = true) (timeoutMs : ActionEnvelope → ℕ)
    (extensions : McpExtensions) :
    Safe A (CommitGuarantee C action extensions input) (fun _ _ => True)
      (server.commitMcp C action timeoutMs extensions input).run h := by
  unfold CommanderServer.commitMcp
  refine safe_check_bind (fun _ => trivial) fun grant hgrant => ?_
  refine safe_check_bind (fun _ => trivial) fun prepared hprepared => ?_
  refine safe_check_bind (fun _ => trivial) fun signed hsigned => ?_
  refine (safe_exceptT_bind _ _).mpr ?_
  refine safe_authorizePreparedMcp htenants (fun _ => trivial) (fun _ _ => trivial) ?_
  intro workspaceId context hselected hworkspace
  refine safe_check_bind (fun _ => trivial) fun _ _ => ?_
  refine (safe_exceptT_bind _ _).mpr ?_
  refine (safe_exceptT_adapt _ _).mpr (Mcp.safe_dispatchApprovedAction.mpr ⟨?_, fun reply _ => ?_⟩)
  · obtain ⟨hreceived, hdevice, hactor, horganization, haction⟩ := openPrepared_eq_ok hprepared
    subst hworkspace
    refine ⟨rfl, grant, workspaceId, prepared.canonical, context, hgrant, ?_, ?_⟩
    · exact ⟨hreceived, horganization, hactor, hdevice, haction, signedWorkspaceId_eq_some hsigned,
        hselected⟩
    · rw [hdevice]
      exact List.mem_cons_self
  · exact then_of_ok (fun _ => trivial) fun _ _ => (safe_check _).mpr trivial

end Commit

/-! ### Runs -/

open World

/-- The file of the tenants, if there is one, holds an accepted state. -/
def TenantsAccepted (s : Option TenantPersistedState) : Prop :=
  ∀ state, s = some state → state.Valid

theorem McpOp.Commits.accepted {op : McpOp} {reply : op.Reply} {s s' : Option TenantPersistedState}
    (h : op.Commits s reply s') (hs : TenantsAccepted s) : TenantsAccepted s' := by
  cases op with
  | verifyContext => exact h.1 ▸ hs
  | dispatchApprovedAction => exact (show s' = s from h) ▸ hs
  | changeTenants call =>
      cases reply with
      | ok _ =>
          obtain ⟨state, state', rfl, hcall, rfl⟩ := h
          intro found hfound
          obtain rfl := Option.some.inj hfound
          exact TenantStoreCall.onState_valid (hs state rfl) hcall
      | error _ =>
          rcases h with rfl | rfl
          · exact hs
          · intro state hstate
            cases hstate

/-- What an entry guarantees. -/
def McpEntry.Guarantee (C : McpCodec) (entry : McpEntry) (h : History Mcp) (op : McpOp) : Prop :=
  ∀ deviceId request approval timeoutMs,
    op = .dispatchApprovedAction deviceId request approval timeoutMs →
      ∃ action extensions input, entry.committed = some (action, extensions, input) ∧
        Forwards C action extensions input h deviceId request

section System

variable {C : McpCodec} {server : CommanderServer}
  {mayStart : World (mcpSystem C server) → McpEntry → Prop}
  {w : World (mcpSystem C server)}

theorem McpEntry.safe_body (htenants : server.tenants = true) (entry : McpEntry) :
    Safe (fun _ _ => True) (entry.Guarantee C) (fun _ _ => True)
      ((mcpSystem C server).body entry) [] := by
  have hcommit : ∀ action extensions input timeoutMs,
      entry.committed = some (action, extensions, input) →
        Safe (fun _ _ => True) (entry.Guarantee C) (fun _ _ => True)
          (some <$> (server.commitMcp C action timeoutMs extensions input).run) [] := by
    intro action extensions input timeoutMs hentry
    refine (safe_map _ _).mpr ((safe_commitMcp htenants timeoutMs extensions).guarantee ?_)
    rintro h op hG deviceId request approval timeoutMs rfl
    exact ⟨action, extensions, input, hentry, hG⟩
  cases entry with
  | commitWrite extensions input => exact hcommit _ _ _ _ rfl
  | commitTerminal extensions input => exact hcommit _ _ _ _ rfl
  | changeTenants call =>
      refine (safe_step _ _).mpr ⟨?_, fun _ _ => (safe_done _).mpr trivial⟩
      intro _ _ _ _ heq
      cases heq

end System

namespace McpSample

def grant : GrantRecord where
  grantId := "grant"
  organizationId := "local"
  actorId := "agent"
  workspaceIds := {"work"}
  scopes := {"mcp"}
  issuedAtUnixMs := 0
  expiresAtUnixMs := 1000
  revoked := false

/-- The actor is an operator, and the device has the workspace. -/
def tenants : TenantPersistedState where
  memberships := (∅ : Std.ExtTreeMap String MembershipRecord).insert (tenantKey "local" "agent")
    ⟨"local", "agent", .operator, false⟩
  workspaces := (∅ : Std.ExtTreeMap String WorkspaceRecord).insert (tenantKey "local" "work")
    ⟨"local", "work", "Work"⟩
  devices := (∅ : Std.ExtTreeMap String TenantDeviceRecord).insert (tenantKey "local" "device")
    ⟨"local", "device", {"work"}, false⟩

def parameters : Parameters :=
  (∅ : Parameters).insert "workspace_id" (.string "work")

def request : ActionRequest :=
  Sample.request (Sample.envelope "filesystem.write" "C:\\work\\a.txt" parameters)

/-- The message of the request. -/
def requestProto : V1.ActionRequest where
  requestId := "request"
  organizationId := "local"
  actorId := "agent"
  deviceId := "device"
  action := "filesystem.write"
  target := "C:\\work\\a.txt"
  parametersJson := Wire.parametersJson request.envelope
  requestedCapabilities := []
  expiresAt := some { seconds := 1, nanos := 0 }
  nonce := List.replicate 16 7
  envelopeDigest := request.envelopeDigest.toList

def approvalProto : V1.ApprovalGrant where
  requestId := "request"
  approverId := "approver"
  envelopeDigest := request.envelopeDigest.toList
  expiresAt := some { seconds := 1, nanos := 0 }
  signature := List.replicate 64 0
  policyId := "sample"
  requiredCapability := ""
  approvalNonce := List.replicate 32 0

/-- Readers of one request and one approval, which are messages that hold their names. -/
def codec : McpCodec where
  toLibraries := Wire.readingLibraries
  decodeActionRequest message := if message = utf8 "request" then some requestProto else none
  decodeApprovalGrant message := if message = utf8 "approval" then some approvalProto else none
  parseJson _ := none

def server : CommanderServer := ⟨true, true⟩

def extensions : McpExtensions := ⟨some ⟨some grant⟩⟩

def input : CommitWriteInput := ⟨"device", some "work", "cmVxdWVzdA==", "YXBwcm92YWw="⟩

def result : V1.ActionResult where
  requestId := "request"
  exitCode := 0
  status := "succeeded"
  stdoutDigest := []
  stderrDigest := []
  completedAt := none
  output := []
  contentType := "application/json"
  truncated := false

theorem request_valid : validateEnvelope request.envelope = .ok () := by
  decide

theorem request_received :
    Wire.actionRequestFromProto codec.toLibraries requestProto = .ok request := by
  have hverify : request.verify reference 0 = .ok () :=
    Sample.request_verify request_valid (by decide)
  have htimestamp : Wire.msToTimestamp request.envelope.expiresAtUnixMs =
      .ok { seconds := 1, nanos := 0 } := by decide
  have hsent : Wire.actionRequestToProto codec.toLibraries request = .ok requestProto := by
    simp only [Wire.actionRequestToProto, bind_eq_ok, exists_unit, mapError_eq_ok, pure_eq_ok]
    exact ⟨hverify, _, htimestamp, rfl⟩
  have hwritten : Wire.AllReadable Value.Written request.envelope.parameters := by
    intro name value hvalue
    rw [show request.envelope.parameters = parameters from rfl, parameters,
      Std.ExtTreeMap.getElem?_insert] at hvalue
    split at hvalue
    · obtain rfl := Option.some.inj hvalue
      trivial
    · simp at hvalue
  exact Wire.actionRequestFromProto_toProto (Wire.readsBack_readParameters rfl) hwritten (by decide)
    hsent

/-- The events of the commit, the newest first. -/
def events (context : VerifiedTenantContext) : History Mcp :=
  [⟨.dispatchApprovedAction "device" requestProto approvalProto
      CommanderServer.mcpRemoteActionTimeoutMs, Except.ok result⟩,
    McpEvent.verified grant "device" "work" context]

end McpSample

end VorCommander
