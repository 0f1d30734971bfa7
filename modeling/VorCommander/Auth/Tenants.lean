import VorCommander.Auth.Grants
import VorCommander.Text.Delimited

/-!
The store of tenants.

Organisations share the maps of one file, under keys that begin with the
length and the name of the organisation. An operation reads the file again,
refuses a state that `validate_tenant_state` does not accept, and writes the
whole state back. Subscriptions and entitlements are in the file as well; no
operation reads or writes them.
-/

namespace VorCommander

open Steps Text

inductive TenantRole
  | viewer
  | operator
  | admin
  deriving DecidableEq

/-- The order of the roles. -/
def TenantRole.rank : TenantRole → ℕ
  | .viewer => 0
  | .operator => 1
  | .admin => 2

structure UserRecord where
  userId : String
  displayName : String
  deriving DecidableEq

structure OrganizationRecord where
  organizationId : String
  name : String
  deriving DecidableEq

structure MembershipRecord where
  organizationId : String
  userId : String
  role : TenantRole
  revoked : Bool
  deriving DecidableEq

structure WorkspaceRecord where
  organizationId : String
  workspaceId : String
  name : String
  deriving DecidableEq

structure TenantDeviceRecord where
  organizationId : String
  deviceId : String
  workspaceIds : Finset String
  revoked : Bool
  deriving DecidableEq

structure UsageRecord where
  organizationId : String
  workspaceId : Option String
  usageKey : String
  units : ℕ
  deriving DecidableEq

structure VerifiedTenantContext where
  organizationId : String
  actorId : String
  deviceId : String
  workspaceId : Option String
  role : TenantRole
  scopes : Finset String
  deriving DecidableEq

/-- What the file of the tenants holds. -/
structure TenantPersistedState where
  version : ℕ := 1
  users : Std.ExtTreeMap String UserRecord := ∅
  organizations : Std.ExtTreeMap String OrganizationRecord := ∅
  memberships : Std.ExtTreeMap String MembershipRecord := ∅
  workspaces : Std.ExtTreeMap String WorkspaceRecord := ∅
  devices : Std.ExtTreeMap String TenantDeviceRecord := ∅
  usage : Std.ExtTreeMap String UsageRecord := ∅

/-! ### Keys -/

/-- `tenant_key`. -/
def tenantKey (organizationId resourceId : String) : String :=
  String.ofList (encodeNat (byteLength organizationId) ++
    ':' :: (organizationId.toList ++ ':' :: resourceId.toList))

/-- `usage_key_for`. -/
def usageKeyFor (organizationId : String) (workspaceId : Option String) (usageKey : String) :
    String :=
  String.ofList (encodeNat (byteLength organizationId) ++
    ':' :: (organizationId.toList ++
      ':' :: (encodeNat (byteLength (workspaceId.getD "")) ++
        ':' :: ((workspaceId.getD "").toList ++ ':' :: usageKey.toList))))

/-! ### Checks -/

section Checks

def OrganizationRecord.validate (key : String) (record : OrganizationRecord) :
    Except AuthError Unit := do
  validateId record.organizationId
  failIf (key ≠ record.organizationId) .invalidState

def UserRecord.validate (key : String) (record : UserRecord) : Except AuthError Unit := do
  (validateId record.userId).mapError fun _ => .invalidActor
  failIf (key ≠ record.userId) .invalidState

def MembershipRecord.validate (key : String) (record : MembershipRecord) :
    Except AuthError Unit := do
  validateId record.organizationId
  (validateId record.userId).mapError fun _ => .invalidActor
  failIf (key ≠ tenantKey record.organizationId record.userId) .invalidState

def WorkspaceRecord.validate (key : String) (record : WorkspaceRecord) :
    Except AuthError Unit := do
  validateId record.organizationId
  validateId record.workspaceId
  failIf (key ≠ tenantKey record.organizationId record.workspaceId) .invalidState

def TenantDeviceRecord.validate (key : String) (record : TenantDeviceRecord) :
    Except AuthError Unit := do
  validateId record.organizationId
  validateId record.deviceId
  failIf (key ≠ tenantKey record.organizationId record.deviceId) .invalidState
  failIf (¬ ∀ workspaceId ∈ record.workspaceIds, ValidId workspaceId) .invalidTenant

def UsageRecord.validate (key : String) (record : UsageRecord) : Except AuthError Unit := do
  validateId record.organizationId
  record.workspaceId.elim (.ok ()) validateId
  validateId record.usageKey
  failIf (key ≠ usageKeyFor record.organizationId record.workspaceId record.usageKey) .invalidState

/-- A check of every entry of a map. -/
def forEntries {α : Type} (map : Std.ExtTreeMap String α)
    (validate : String → α → Except AuthError Unit) : Except AuthError Unit :=
  map.toList.forM fun entry => validate entry.1 entry.2

/-- `validate_tenant_state`. -/
def validateTenantState (state : TenantPersistedState) : Except AuthError Unit := do
  failIf (state.version ≠ 1) .invalidState
  forEntries state.organizations OrganizationRecord.validate
  forEntries state.users UserRecord.validate
  forEntries state.memberships MembershipRecord.validate
  forEntries state.workspaces WorkspaceRecord.validate
  forEntries state.devices TenantDeviceRecord.validate
  forEntries state.usage UsageRecord.validate

end Checks

namespace TenantStore

/-- `mutate_state`: the state is read again before it is changed. -/
def mutateState {α : Type}
    (mutate : TenantPersistedState → Except AuthError (α × TenantPersistedState))
    (state : TenantPersistedState) : Except AuthError (α × TenantPersistedState) := do
  validateTenantState state
  mutate state

/-! ### Operations -/

def upsertUser (userId displayName : String) (state : TenantPersistedState) :
    Except AuthError (Unit × TenantPersistedState) := do
  validateId userId
  mutateState (fun state =>
    .ok ((), { state with users := state.users.insert userId { userId, displayName } })) state

def upsertOrganization (organizationId name : String) (state : TenantPersistedState) :
    Except AuthError (Unit × TenantPersistedState) := do
  validateId organizationId
  mutateState (fun state =>
    .ok ((), { state with
      organizations := state.organizations.insert organizationId { organizationId, name } })) state

def upsertWorkspace (organizationId workspaceId name : String) (state : TenantPersistedState) :
    Except AuthError (Unit × TenantPersistedState) := do
  validateId workspaceId
  validateId organizationId
  mutateState (fun state => do
    failIf (¬ state.organizations.contains organizationId) .unauthorized
    return ((), { state with
      workspaces := state.workspaces.insert (tenantKey organizationId workspaceId)
        { organizationId, workspaceId, name } })) state

def setMembership (organizationId userId : String) (role : TenantRole)
    (state : TenantPersistedState) : Except AuthError (Unit × TenantPersistedState) := do
  validateId organizationId
  validateId userId
  mutateState (fun state => do
    failIf (¬ state.organizations.contains organizationId ∨ ¬ state.users.contains userId)
      .unauthorized
    return ((), { state with
      memberships := state.memberships.insert (tenantKey organizationId userId)
        { organizationId, userId, role, revoked := false } })) state

def revokeMembership (organizationId userId : String) (state : TenantPersistedState) :
    Except AuthError (Unit × TenantPersistedState) := do
  validateId organizationId
  validateId userId
  mutateState (fun state =>
    match state.memberships[tenantKey organizationId userId]? with
    | none => .ok ((), state)
    | some record => .ok ((), { state with
        memberships := state.memberships.insert (tenantKey organizationId userId)
          { record with revoked := true } })) state

def pairDevice (organizationId deviceId : String) (workspaceIds : Finset String)
    (state : TenantPersistedState) : Except AuthError (Unit × TenantPersistedState) := do
  validateId deviceId
  validateId organizationId
  failIf (¬ ∀ workspaceId ∈ workspaceIds, ValidId workspaceId) .invalidTenant
  mutateState (fun state => do
    failIf (¬ state.organizations.contains organizationId) .unauthorized
    failIf (¬ ∀ workspaceId ∈ workspaceIds,
      state.workspaces.contains (tenantKey organizationId workspaceId)) .unauthorized
    return ((), { state with
      devices := state.devices.insert (tenantKey organizationId deviceId)
        { organizationId, deviceId, workspaceIds, revoked := false } })) state

def revokeDevice (organizationId deviceId : String) (state : TenantPersistedState) :
    Except AuthError (Unit × TenantPersistedState) := do
  validateId organizationId
  validateId deviceId
  mutateState (fun state =>
    match state.devices[tenantKey organizationId deviceId]? with
    | none => .ok ((), state)
    | some record => .ok ((), { state with
        devices := state.devices.insert (tenantKey organizationId deviceId)
          { record with revoked := true } })) state

def removeDeviceWorkspace (organizationId deviceId workspaceId : String)
    (state : TenantPersistedState) : Except AuthError (Bool × TenantPersistedState) := do
  validateId organizationId
  validateId deviceId
  validateId workspaceId
  mutateState (fun state =>
    match state.devices[tenantKey organizationId deviceId]? with
    | none => .ok (false, state)
    | some record => .ok (decide (workspaceId ∈ record.workspaceIds), { state with
        devices := state.devices.insert (tenantKey organizationId deviceId)
          { record with workspaceIds := record.workspaceIds.erase workspaceId } })) state

/-- The usage record after more units, `saturating_add`. -/
def addedUsage (organizationId : String) (workspaceId : Option String) (usageKey : String)
    (units : ℕ) : Option UsageRecord → UsageRecord
  | some record => { record with units := min (record.units + units) (2 ^ 64 - 1) }
  | none => { organizationId, workspaceId, usageKey, units }

def recordUsage (organizationId : String) (workspaceId : Option String) (usageKey : String)
    (units : ℕ) (state : TenantPersistedState) :
    Except AuthError (Unit × TenantPersistedState) := do
  validateId organizationId
  workspaceId.elim (.ok ()) validateId
  validateId usageKey
  mutateState (fun state => do
    failIf (¬ state.organizations.contains organizationId) .unauthorized
    let key := usageKeyFor organizationId workspaceId usageKey
    return ((), { state with
      usage := state.usage.insert key
        (addedUsage organizationId workspaceId usageKey units state.usage[key]?) })) state

/-! ### Questions -/

/-- `verify_context`. -/
def verifyContext (grant : GrantRecord) (organizationId deviceId : String)
    (workspaceId : Option String) (requiredRole : TenantRole) (state : TenantPersistedState) :
    Except AuthError VerifiedTenantContext := do
  validateId organizationId
  validateId deviceId
  workspaceId.elim (.ok ()) validateId
  failIf (grant.organizationId ≠ organizationId) .unauthorized
  validateTenantState state
  let membership ← orFail state.memberships[tenantKey organizationId grant.actorId]? .unauthorized
  failIf (membership.revoked ∨ membership.role.rank < requiredRole.rank) .unauthorized
  let device ← orFail state.devices[tenantKey organizationId deviceId]? .unauthorized
  failIf device.revoked .unauthorized
  failIf (workspaceId.any fun id =>
      !state.workspaces.contains (tenantKey organizationId id) ||
        decide (id ∉ device.workspaceIds) || decide (id ∉ grant.workspaceIds)) .unauthorized
  return { organizationId, actorId := grant.actorId, deviceId, workspaceId
           role := membership.role, scopes := grant.scopes }

/-- `list_usage_for_org`. -/
def listUsageForOrg (organizationId : String) (state : TenantPersistedState) :
    Except AuthError (List UsageRecord) := do
  validateId organizationId
  validateTenantState state
  return (state.usage.toList.filter fun entry => entry.2.organizationId = organizationId).map (·.2)

end TenantStore

end VorCommander
