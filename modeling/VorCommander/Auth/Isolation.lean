import VorCommander.Auth.Tenants

/-!
Organisations do not see one another in the store of tenants.

Keys of different organisations differ, whatever identifiers they are made of,
because a key says how long the name of its organisation is. So an operation
that names one organisation leaves the entries of all others as they are, and
the state it writes is again one that will be accepted, so that the others
still get an answer.
-/

namespace VorCommander

open Steps Text

/-! ### Keys -/

/-- Texts of the same length in bytes that begin the same text are the same. -/
theorem append_inj_of_byteLength {a b x y : List Char} (h : a ++ x = b ++ y)
    (hlength : byteLength (String.ofList a) = byteLength (String.ofList b)) : a = b ∧ x = y := by
  have hnil : ∀ c d : List Char,
    byteLength (String.ofList (d ++ c)) = byteLength (String.ofList d) →
      c = [] := by
    intro c d hsame
    rw [String.ofList_append, byteLength, String.utf8ByteSize_append] at hsame
    have hle := length_le_byteLength c
    rw [byteLength] at hle hsame
    exact List.length_eq_zero_iff.mp (by omega)
  rcases List.append_eq_append_iff.mp h with ⟨c, rfl, rfl⟩ | ⟨c, rfl, rfl⟩
  · rw [hnil c a hlength.symm]
    simp
  · rw [hnil c b hlength]
    simp

/-- What begins with the length and the text of a name determines the name and
the rest. -/
theorem sized_inj {name name' : String} {rest rest' : List Char}
    (h : encodeNat (byteLength name) ++ ':' :: (name.toList ++ ':' :: rest) =
      encodeNat (byteLength name') ++ ':' :: (name'.toList ++ ':' :: rest')) :
    name = name' ∧ rest = rest' := by
  obtain ⟨hlength, htail⟩ := encodeNat_append_inj (endsNumber_cons (by decide))
    (endsNumber_cons (by decide)) h
  obtain ⟨hname, hrest⟩ := append_inj_of_byteLength (List.cons.inj htail).2
    (by rwa [String.ofList_toList, String.ofList_toList])
  exact ⟨String.toList_injective hname, (List.cons.inj hrest).2⟩

/-- A tenant key determines the organisation and the resource. -/
theorem tenantKey_inj {organizationId organizationId' resourceId resourceId' : String}
    (h : tenantKey organizationId resourceId = tenantKey organizationId' resourceId') :
    organizationId = organizationId' ∧ resourceId = resourceId' := by
  obtain ⟨horganization, hresource⟩ := sized_inj (String.ofList_injective h)
  exact ⟨horganization, String.toList_injective hresource⟩

/-- A usage key determines the organisation, the workspace and the name; no
workspace counts as one without a name. -/
theorem usageKeyFor_inj {organizationId organizationId' usageKey usageKey' : String}
    {workspaceId workspaceId' : Option String}
    (h : usageKeyFor organizationId workspaceId usageKey =
      usageKeyFor organizationId' workspaceId' usageKey') :
    organizationId = organizationId' ∧ workspaceId.getD "" = workspaceId'.getD "" ∧
      usageKey = usageKey' := by
  obtain ⟨horganization, htail⟩ := sized_inj (String.ofList_injective h)
  obtain ⟨hworkspace, husage⟩ := sized_inj htail
  exact ⟨horganization, hworkspace, String.toList_injective husage⟩

/-- An entry at a key of one organisation leaves the keys of others alone. -/
theorem getElem?_insert_other {α : Type} {map : Std.ExtTreeMap String α}
    {organizationId organizationId' resourceId resourceId' : String} {record : α}
    (hne : organizationId ≠ organizationId') :
    (map.insert (tenantKey organizationId resourceId) record)[
        tenantKey organizationId' resourceId']? =
      map[tenantKey organizationId' resourceId']? := by
  rw [Std.ExtTreeMap.getElem?_insert, if_neg]
  intro hkey
  rw [Std.compare_eq_iff_eq] at hkey
  exact hne (tenantKey_inj hkey).1

/-! ### Accepted states -/

/-- Every entry of a map passes its check. -/
def Entries {α : Type} (validate : String → α → Except AuthError Unit)
    (map : Std.ExtTreeMap String α) : Prop :=
  ∀ (key : String) (record : α), map[key]? = some record → validate key record = .ok ()

theorem forEntries_eq_ok_iff {α : Type} {map : Std.ExtTreeMap String α}
    {validate : String → α → Except AuthError Unit} :
    forEntries map validate = .ok () ↔ Entries validate map := by
  simp only [forEntries, forM_eq_ok, Prod.forall, Std.ExtTreeMap.mem_toList_iff_getElem?_eq_some,
    Entries]

theorem Entries.insert {α : Type} {map : Std.ExtTreeMap String α}
    {validate : String → α → Except AuthError Unit} (h : Entries validate map) {key : String}
    {record : α} (hrecord : validate key record = .ok ()) :
    Entries validate (map.insert key record) := by
  intro key' found hget
  rw [Std.ExtTreeMap.getElem?_insert] at hget
  split at hget
  case isTrue hkey =>
      rw [Std.compare_eq_iff_eq] at hkey
      obtain rfl := Option.some.inj hget
      rwa [← hkey]
  case isFalse => exact h key' found hget

/-- The states that `validate_tenant_state` accepts. -/
structure TenantPersistedState.Valid (state : TenantPersistedState) : Prop where
  version : state.version = 1
  organizations : Entries OrganizationRecord.validate state.organizations
  users : Entries UserRecord.validate state.users
  memberships : Entries MembershipRecord.validate state.memberships
  workspaces : Entries WorkspaceRecord.validate state.workspaces
  devices : Entries TenantDeviceRecord.validate state.devices
  usage : Entries UsageRecord.validate state.usage

theorem validateTenantState_eq_ok_iff {state : TenantPersistedState} :
    validateTenantState state = .ok () ↔ state.Valid := by
  simp only [validateTenantState, bind_eq_ok, exists_unit, failIf_eq_ok, not_not,
    forEntries_eq_ok_iff]
  constructor
  · rintro ⟨hversion, horganizations, husers, hmemberships, hworkspaces, hdevices, husage⟩
    exact ⟨hversion, horganizations, husers, hmemberships, hworkspaces, hdevices, husage⟩
  · rintro ⟨hversion, horganizations, husers, hmemberships, hworkspaces, hdevices, husage⟩
    exact ⟨hversion, horganizations, husers, hmemberships, hworkspaces, hdevices, husage⟩

theorem TenantStore.mutateState_eq_ok_iff {α : Type} {a : α} {state state' : TenantPersistedState}
    {mutate : TenantPersistedState → Except AuthError (α × TenantPersistedState)} :
    mutateState mutate state = .ok (a, state') ↔ state.Valid ∧ mutate state = .ok (a, state') := by
  simp only [mutateState, bind_eq_ok, exists_unit, validateTenantState_eq_ok_iff]

theorem validateId_eq_ok_iff {value : String} : validateId value = .ok () ↔ ValidId value := by
  rw [validateId, failIf_eq_ok, not_not]

theorem OrganizationRecord.validate_eq_ok_iff {key : String} {record : OrganizationRecord} :
    record.validate key = .ok () ↔
      ValidId record.organizationId ∧ key = record.organizationId := by
  simp only [OrganizationRecord.validate, bind_eq_ok, exists_unit, failIf_eq_ok, not_not,
    validateId_eq_ok_iff]

theorem UserRecord.validate_eq_ok_iff {key : String} {record : UserRecord} :
    record.validate key = .ok () ↔ ValidId record.userId ∧ key = record.userId := by
  simp only [UserRecord.validate, bind_eq_ok, exists_unit, failIf_eq_ok, not_not, mapError_eq_ok,
    validateId_eq_ok_iff]

theorem MembershipRecord.validate_eq_ok_iff {key : String} {record : MembershipRecord} :
    record.validate key = .ok () ↔ ValidId record.organizationId ∧ ValidId record.userId ∧
      key = tenantKey record.organizationId record.userId := by
  simp only [MembershipRecord.validate, bind_eq_ok, exists_unit, failIf_eq_ok, not_not,
    mapError_eq_ok, validateId_eq_ok_iff]

theorem WorkspaceRecord.validate_eq_ok_iff {key : String} {record : WorkspaceRecord} :
    record.validate key = .ok () ↔ ValidId record.organizationId ∧ ValidId record.workspaceId ∧
      key = tenantKey record.organizationId record.workspaceId := by
  simp only [WorkspaceRecord.validate, bind_eq_ok, exists_unit, failIf_eq_ok, not_not,
    validateId_eq_ok_iff]

theorem TenantDeviceRecord.validate_eq_ok_iff {key : String} {record : TenantDeviceRecord} :
    record.validate key = .ok () ↔ ValidId record.organizationId ∧ ValidId record.deviceId ∧
      key = tenantKey record.organizationId record.deviceId ∧
      ∀ workspaceId ∈ record.workspaceIds, ValidId workspaceId := by
  simp only [TenantDeviceRecord.validate, bind_eq_ok, exists_unit, failIf_eq_ok, not_not,
    validateId_eq_ok_iff]

theorem UsageRecord.validate_eq_ok_iff {key : String} {record : UsageRecord} :
    record.validate key = .ok () ↔ ValidId record.organizationId ∧
      record.workspaceId.elim (.ok ()) validateId = .ok () ∧ ValidId record.usageKey ∧
      key = usageKeyFor record.organizationId record.workspaceId record.usageKey := by
  simp only [UsageRecord.validate, bind_eq_ok, exists_unit, failIf_eq_ok, not_not,
    validateId_eq_ok_iff]

/-! ### What an organisation sees -/

/-- The usage records of an organisation. -/
def usageOf (organizationId : String) (usage : Std.ExtTreeMap String UsageRecord) :
    List (String × UsageRecord) :=
  usage.toList.filter fun entry => entry.2.organizationId = organizationId

/-- A usage record of one organisation leaves the records of others alone, if
it takes the place of none of them. -/
theorem usageOf_insert {organizationId key : String} {usage : Std.ExtTreeMap String UsageRecord}
    {record : UsageRecord} (hnew : record.organizationId ≠ organizationId)
    (hold : ∀ found : UsageRecord, usage[key]? = some found →
      found.organizationId ≠ organizationId) :
    usageOf organizationId (usage.insert key record) = usageOf organizationId usage := by
  let keep :=
    fun (_ : String) (found : UsageRecord) => decide (found.organizationId = organizationId)
  have hfilter : ∀ map : Std.ExtTreeMap String UsageRecord,
      usageOf organizationId map = (map.filter keep).toList := by
    intro map
    rw [Std.ExtTreeMap.toList_filter]
    rfl
  rw [hfilter, hfilter]
  congr 1
  apply Std.ExtTreeMap.ext_getElem?
  intro key'
  rw [Std.ExtTreeMap.getElem?_filter', Std.ExtTreeMap.getElem?_filter',
    Std.ExtTreeMap.getElem?_insert]
  split
  case isTrue hkey =>
      rw [Std.compare_eq_iff_eq] at hkey
      subst hkey
      rw [Option.filter_some, if_neg (by simpa [keep] using hnew), eq_comm,
        Option.filter_eq_none_iff]
      intro found hfound
      simpa [keep] using hold found hfound
  case isFalse => rfl

/-- Two states that an organisation cannot tell apart. -/
structure SameFor (organizationId : String) (state state' : TenantPersistedState) : Prop where
  accepted : validateTenantState state' = validateTenantState state
  memberships : ∀ userId, state'.memberships[tenantKey organizationId userId]? =
    state.memberships[tenantKey organizationId userId]?
  workspaces : ∀ workspaceId, state'.workspaces[tenantKey organizationId workspaceId]? =
    state.workspaces[tenantKey organizationId workspaceId]?
  devices : ∀ deviceId, state'.devices[tenantKey organizationId deviceId]? =
    state.devices[tenantKey organizationId deviceId]?
  usage : usageOf organizationId state'.usage = usageOf organizationId state.usage

namespace SameFor

variable {organizationId : String} {state state' state'' : TenantPersistedState}

theorem refl (state : TenantPersistedState) : SameFor organizationId state state :=
  ⟨rfl, fun _ => rfl, fun _ => rfl, fun _ => rfl, rfl⟩

theorem trans (h : SameFor organizationId state state')
    (h' : SameFor organizationId state' state'') :
    SameFor organizationId state state'' where
  accepted := h'.accepted.trans h.accepted
  memberships userId := (h'.memberships userId).trans (h.memberships userId)
  workspaces workspaceId := (h'.workspaces workspaceId).trans (h.workspaces workspaceId)
  devices deviceId := (h'.devices deviceId).trans (h.devices deviceId)
  usage := h'.usage.trans h.usage

/-- Between two accepted states it is enough that the entries agree. -/
theorem of_valid (h : state.Valid) (h' : state'.Valid)
    (hmemberships : ∀ userId, state'.memberships[tenantKey organizationId userId]? =
      state.memberships[tenantKey organizationId userId]?)
    (hworkspaces : ∀ workspaceId, state'.workspaces[tenantKey organizationId workspaceId]? =
      state.workspaces[tenantKey organizationId workspaceId]?)
    (hdevices : ∀ deviceId, state'.devices[tenantKey organizationId deviceId]? =
      state.devices[tenantKey organizationId deviceId]?)
    (husage : usageOf organizationId state'.usage = usageOf organizationId state.usage) :
    SameFor organizationId state state' where
  accepted := by
    rw [validateTenantState_eq_ok_iff.mpr h, validateTenantState_eq_ok_iff.mpr h']
  memberships := hmemberships
  workspaces := hworkspaces
  devices := hdevices
  usage := husage

/-! An accepted record of another organisation may be put into any map. -/

theorem insertUser (h : state.Valid) {key : String} {record : UserRecord}
    (hrecord : record.validate key = .ok ()) :
    SameFor organizationId state { state with users := state.users.insert key record } :=
  .of_valid h { h with users := h.users.insert hrecord } (fun _ => rfl) (fun _ => rfl)
    (fun _ => rfl) rfl

theorem insertOrganization (h : state.Valid) {key : String} {record : OrganizationRecord}
    (hrecord : record.validate key = .ok ()) :
    SameFor organizationId state
      { state with organizations := state.organizations.insert key record } :=
  .of_valid h { h with organizations := h.organizations.insert hrecord } (fun _ => rfl)
    (fun _ => rfl) (fun _ => rfl) rfl

theorem insertMembership (h : state.Valid) {key : String} {record : MembershipRecord}
    (hrecord : record.validate key = .ok ()) (hother : record.organizationId ≠ organizationId) :
    SameFor organizationId state
      { state with memberships := state.memberships.insert key record } := by
  obtain ⟨_, _, rfl⟩ := MembershipRecord.validate_eq_ok_iff.mp hrecord
  refine .of_valid h { h with memberships := h.memberships.insert hrecord } ?_ (fun _ => rfl)
    (fun _ => rfl) rfl
  intro userId
  exact getElem?_insert_other hother

theorem insertWorkspace (h : state.Valid) {key : String} {record : WorkspaceRecord}
    (hrecord : record.validate key = .ok ()) (hother : record.organizationId ≠ organizationId) :
    SameFor organizationId state
      { state with workspaces := state.workspaces.insert key record } := by
  obtain ⟨_, _, rfl⟩ := WorkspaceRecord.validate_eq_ok_iff.mp hrecord
  refine .of_valid h { h with workspaces := h.workspaces.insert hrecord } (fun _ => rfl) ?_
    (fun _ => rfl) rfl
  intro workspaceId
  exact getElem?_insert_other hother

theorem insertDevice (h : state.Valid) {key : String} {record : TenantDeviceRecord}
    (hrecord : record.validate key = .ok ()) (hother : record.organizationId ≠ organizationId) :
    SameFor organizationId state { state with devices := state.devices.insert key record } := by
  obtain ⟨_, _, rfl, _⟩ := TenantDeviceRecord.validate_eq_ok_iff.mp hrecord
  refine .of_valid h { h with devices := h.devices.insert hrecord } (fun _ => rfl) (fun _ => rfl)
    ?_ rfl
  intro deviceId
  exact getElem?_insert_other hother

theorem insertUsage (h : state.Valid) {key : String} {record : UsageRecord}
    (hrecord : record.validate key = .ok ()) (hother : record.organizationId ≠ organizationId) :
    SameFor organizationId state { state with usage := state.usage.insert key record } := by
  refine .of_valid h { h with usage := h.usage.insert hrecord } (fun _ => rfl) (fun _ => rfl)
    (fun _ => rfl) (usageOf_insert hother ?_)
  -- What is at the key of the record belongs to the same organisation.
  intro found hfound
  obtain ⟨_, _, _, hkey⟩ := UsageRecord.validate_eq_ok_iff.mp hrecord
  obtain ⟨_, _, _, hkey'⟩ := UsageRecord.validate_eq_ok_iff.mp (h.usage key found hfound)
  rwa [← (usageKeyFor_inj (hkey.symm.trans hkey')).1]

/-- What an organisation is told depends on what it sees. -/
theorem verifyContext_eq (h : SameFor organizationId state state') (grant : GrantRecord)
    (deviceId : String) (workspaceId : Option String) (requiredRole : TenantRole) :
    TenantStore.verifyContext grant organizationId deviceId workspaceId requiredRole state' =
      TenantStore.verifyContext grant organizationId deviceId workspaceId requiredRole state := by
  have hcontains : ∀ id, state'.workspaces.contains (tenantKey organizationId id) =
      state.workspaces.contains (tenantKey organizationId id) := by
    intro id
    rw [Std.ExtTreeMap.contains_eq_isSome_getElem?, Std.ExtTreeMap.contains_eq_isSome_getElem?,
      h.workspaces]
  simp only [TenantStore.verifyContext, h.accepted, h.memberships, h.devices, hcontains]

theorem listUsageForOrg_eq (h : SameFor organizationId state state') :
    TenantStore.listUsageForOrg organizationId state' =
      TenantStore.listUsageForOrg organizationId state := by
  have husage := h.usage
  rw [usageOf, usageOf] at husage
  simp only [TenantStore.listUsageForOrg, h.accepted, husage]

end SameFor

/-! ### Calls and runs -/

/-- A call that may change the file, with its arguments. -/
inductive TenantStoreCall
  | upsertUser (userId displayName : String)
  | upsertOrganization (organizationId name : String)
  | upsertWorkspace (organizationId workspaceId name : String)
  | setMembership (organizationId userId : String) (role : TenantRole)
  | revokeMembership (organizationId userId : String)
  | pairDevice (organizationId deviceId : String) (workspaceIds : Finset String)
  | revokeDevice (organizationId deviceId : String)
  | removeDeviceWorkspace (organizationId deviceId workspaceId : String)
  | recordUsage (organizationId : String) (workspaceId : Option String) (usageKey : String)
      (units : ℕ)

namespace TenantStoreCall

/-- The organisation that a call names; users belong to none. -/
def organization : TenantStoreCall → Option String
  | .upsertUser _ _ => none
  | .upsertOrganization organizationId _ => some organizationId
  | .upsertWorkspace organizationId _ _ => some organizationId
  | .setMembership organizationId _ _ => some organizationId
  | .revokeMembership organizationId _ => some organizationId
  | .pairDevice organizationId _ _ => some organizationId
  | .revokeDevice organizationId _ => some organizationId
  | .removeDeviceWorkspace organizationId _ _ => some organizationId
  | .recordUsage organizationId _ _ _ => some organizationId

/-- The state in the file after a call that returns Ok. -/
def onState (state : TenantPersistedState) :
    TenantStoreCall → Except AuthError TenantPersistedState
  | .upsertUser userId displayName => (·.2) <$> TenantStore.upsertUser userId displayName state
  | .upsertOrganization organizationId name =>
      (·.2) <$> TenantStore.upsertOrganization organizationId name state
  | .upsertWorkspace organizationId workspaceId name =>
      (·.2) <$> TenantStore.upsertWorkspace organizationId workspaceId name state
  | .setMembership organizationId userId role =>
      (·.2) <$> TenantStore.setMembership organizationId userId role state
  | .revokeMembership organizationId userId =>
      (·.2) <$> TenantStore.revokeMembership organizationId userId state
  | .pairDevice organizationId deviceId workspaceIds =>
      (·.2) <$> TenantStore.pairDevice organizationId deviceId workspaceIds state
  | .revokeDevice organizationId deviceId =>
      (·.2) <$> TenantStore.revokeDevice organizationId deviceId state
  | .removeDeviceWorkspace organizationId deviceId workspaceId =>
      (·.2) <$> TenantStore.removeDeviceWorkspace organizationId deviceId workspaceId state
  | .recordUsage organizationId workspaceId usageKey units =>
      (·.2) <$> TenantStore.recordUsage organizationId workspaceId usageKey units state

/-- One call by any handle. It writes what it says, or it fails and leaves the
file as it was. -/
inductive Step (call : TenantStoreCall) : TenantPersistedState → TenantPersistedState → Prop
  | ok {state state' : TenantPersistedState} :
      call.onState state = .ok state' → Step call state state'
  | failed {state : TenantPersistedState} : Step call state state

/-- A sequence of calls. -/
inductive Run : List TenantStoreCall → TenantPersistedState → TenantPersistedState → Prop
  | nil {state : TenantPersistedState} : Run [] state state
  | cons {call : TenantStoreCall} {calls : List TenantStoreCall}
      {state state' state'' : TenantPersistedState} :
      Step call state state' → Run calls state' state'' → Run (call :: calls) state state''

variable {call : TenantStoreCall} {organizationId : String} {state state' : TenantPersistedState}

/-- Another organisation than the one that is named. -/
theorem named {organization : String} (hother : some organizationId ≠ some organization) :
    organization ≠ organizationId := fun h => hother (congrArg some h.symm)

/-- A call writes an accepted state, and organisations that it does not name
cannot tell it from the one before. -/
theorem onState_sameFor (hother : some organizationId ≠ call.organization)
    (h : call.onState state = .ok state') : SameFor organizationId state state' := by
  cases call with
  | upsertUser userId displayName =>
      simp only [onState, TenantStore.upsertUser, map_eq_ok, bind_eq_ok, exists_unit, Prod.exists,
        exists_eq_right, validateId_eq_ok_iff, TenantStore.mutateState_eq_ok_iff, Except.ok.injEq,
        Prod.mk.injEq, true_and] at h
      obtain ⟨huser, hvalid, rfl⟩ := h
      apply SameFor.insertUser hvalid
      exact UserRecord.validate_eq_ok_iff.mpr ⟨huser, rfl⟩
  | upsertOrganization organization name =>
      simp only [onState, TenantStore.upsertOrganization, map_eq_ok, bind_eq_ok, exists_unit,
        Prod.exists, exists_eq_right, validateId_eq_ok_iff, TenantStore.mutateState_eq_ok_iff,
        Except.ok.injEq, Prod.mk.injEq, true_and] at h
      obtain ⟨horganization, hvalid, rfl⟩ := h
      apply SameFor.insertOrganization hvalid
      exact OrganizationRecord.validate_eq_ok_iff.mpr ⟨horganization, rfl⟩
  | upsertWorkspace organization workspaceId name =>
      simp only [onState, TenantStore.upsertWorkspace, map_eq_ok, bind_eq_ok, exists_unit,
        Prod.exists, exists_eq_right, validateId_eq_ok_iff, TenantStore.mutateState_eq_ok_iff,
        failIf_eq_ok, pure_eq_ok, Prod.mk.injEq, true_and] at h
      obtain ⟨hworkspace, horganization, hvalid, _, rfl⟩ := h
      refine .insertWorkspace hvalid ?_ (named hother)
      exact WorkspaceRecord.validate_eq_ok_iff.mpr ⟨horganization, hworkspace, rfl⟩
  | setMembership organization userId role =>
      simp only [onState, TenantStore.setMembership, map_eq_ok, bind_eq_ok, exists_unit,
        Prod.exists, exists_eq_right, validateId_eq_ok_iff, TenantStore.mutateState_eq_ok_iff,
        failIf_eq_ok, pure_eq_ok, Prod.mk.injEq, true_and] at h
      obtain ⟨horganization, huser, hvalid, _, rfl⟩ := h
      refine .insertMembership hvalid ?_ (named hother)
      exact MembershipRecord.validate_eq_ok_iff.mpr ⟨horganization, huser, rfl⟩
  | revokeMembership organization userId =>
      simp only [onState, TenantStore.revokeMembership, map_eq_ok, bind_eq_ok, exists_unit,
        Prod.exists, exists_eq_right, TenantStore.mutateState_eq_ok_iff] at h
      obtain ⟨_, _, hvalid, h⟩ := h
      split at h
      case h_1 =>
          obtain ⟨_, rfl⟩ := Prod.mk.inj (Except.ok.inj h)
          exact .refl _
      case h_2 record hget =>
          obtain ⟨_, rfl⟩ := Prod.mk.inj (Except.ok.inj h)
          have hrecord := hvalid.memberships _ record hget
          obtain ⟨_, _, hkey⟩ := MembershipRecord.validate_eq_ok_iff.mp hrecord
          refine @SameFor.insertMembership _ _ hvalid _ { record with revoked := true } hrecord ?_
          exact (tenantKey_inj hkey).1 ▸ named hother
  | pairDevice organization deviceId workspaceIds =>
      simp only [onState, TenantStore.pairDevice, map_eq_ok, bind_eq_ok, exists_unit, Prod.exists,
        exists_eq_right, validateId_eq_ok_iff, TenantStore.mutateState_eq_ok_iff, failIf_eq_ok,
        not_not, pure_eq_ok, Prod.mk.injEq, true_and] at h
      obtain ⟨hdevice, horganization, hworkspaces, hvalid, _, _, rfl⟩ := h
      refine .insertDevice hvalid ?_ (named hother)
      exact TenantDeviceRecord.validate_eq_ok_iff.mpr ⟨horganization, hdevice, rfl, hworkspaces⟩
  | revokeDevice organization deviceId =>
      simp only [onState, TenantStore.revokeDevice, map_eq_ok, bind_eq_ok, exists_unit,
        Prod.exists, exists_eq_right, TenantStore.mutateState_eq_ok_iff] at h
      obtain ⟨_, _, hvalid, h⟩ := h
      split at h
      case h_1 =>
          obtain ⟨_, rfl⟩ := Prod.mk.inj (Except.ok.inj h)
          exact .refl _
      case h_2 record hget =>
          obtain ⟨_, rfl⟩ := Prod.mk.inj (Except.ok.inj h)
          have hrecord := hvalid.devices _ record hget
          obtain ⟨_, _, hkey, _⟩ := TenantDeviceRecord.validate_eq_ok_iff.mp hrecord
          refine @SameFor.insertDevice _ _ hvalid _ { record with revoked := true } hrecord ?_
          exact (tenantKey_inj hkey).1 ▸ named hother
  | removeDeviceWorkspace organization deviceId workspaceId =>
      simp only [onState, TenantStore.removeDeviceWorkspace, map_eq_ok, bind_eq_ok, exists_unit,
        Prod.exists, exists_eq_right, TenantStore.mutateState_eq_ok_iff] at h
      obtain ⟨_, _, _, _, hvalid, h⟩ := h
      split at h
      case h_1 =>
          obtain ⟨_, rfl⟩ := Prod.mk.inj (Except.ok.inj h)
          exact .refl _
      case h_2 record hget =>
          obtain ⟨_, rfl⟩ := Prod.mk.inj (Except.ok.inj h)
          obtain ⟨horganization, hdevice, hkey, hworkspaces⟩ :=
            TenantDeviceRecord.validate_eq_ok_iff.mp (hvalid.devices _ record hget)
          refine .insertDevice hvalid (TenantDeviceRecord.validate_eq_ok_iff.mpr
            ⟨horganization, hdevice, hkey, ?_⟩) ((tenantKey_inj hkey).1 ▸ named hother)
          intro id hmem
          exact hworkspaces id (Finset.mem_of_mem_erase hmem)
  | recordUsage organization workspaceId usageKey units =>
      simp only [onState, TenantStore.recordUsage, map_eq_ok, bind_eq_ok, exists_unit, Prod.exists,
        exists_eq_right, validateId_eq_ok_iff, TenantStore.mutateState_eq_ok_iff, failIf_eq_ok,
        pure_eq_ok, Prod.mk.injEq, true_and] at h
      obtain ⟨horganization, hworkspace, husage, hvalid, _, rfl⟩ := h
      cases hget : state.usage[usageKeyFor organization workspaceId usageKey]? with
      | none =>
          refine .insertUsage hvalid ?_ (named hother)
          exact UsageRecord.validate_eq_ok_iff.mpr ⟨horganization, hworkspace, husage, rfl⟩
      | some record =>
          -- More units are added to a record of the same organisation.
          have hrecord := hvalid.usage _ record hget
          obtain ⟨_, _, _, hkey⟩ := UsageRecord.validate_eq_ok_iff.mp hrecord
          refine @SameFor.insertUsage _ _ hvalid _ (TenantStore.addedUsage organization workspaceId
            usageKey units (some record)) hrecord ?_
          exact (usageKeyFor_inj hkey).1 ▸ named hother

/-- A call leaves what it does not name. -/
theorem Step.sameFor (hstep : Step call state state')
    (hother : some organizationId ≠ call.organization) : SameFor organizationId state state' := by
  cases hstep with
  | ok h => exact onState_sameFor hother h
  | failed => exact .refl state

theorem Run.sameFor {calls : List TenantStoreCall} (hrun : Run calls state state')
    (hother : ∀ call ∈ calls, some organizationId ≠ call.organization) :
    SameFor organizationId state state' := by
  induction hrun with
  | nil => exact .refl _
  | cons hstep _ ih =>
      rw [List.forall_mem_cons] at hother
      exact (hstep.sameFor hother.1).trans (ih hother.2)

/-- Calls that name one organisation do not change what any other one is
told. -/
theorem run_answers {organizationA organizationB : String} (hne : organizationA ≠ organizationB)
    {calls : List TenantStoreCall} (hrun : Run calls state state')
    (hcalls : ∀ call ∈ calls, ∀ named ∈ call.organization, named = organizationA) :
    (∀ (grant : GrantRecord) (deviceId : String) (workspaceId : Option String)
      (requiredRole : TenantRole),
      TenantStore.verifyContext grant organizationB deviceId workspaceId requiredRole state' =
        TenantStore.verifyContext grant organizationB deviceId workspaceId requiredRole state) ∧
    TenantStore.listUsageForOrg organizationB state' =
      TenantStore.listUsageForOrg organizationB state := by
  have hsame : SameFor organizationB state state' := by
    refine hrun.sameFor fun call hcall hnamed => hne ?_
    exact (hcalls call hcall organizationB hnamed.symm).symm
  exact ⟨hsame.verifyContext_eq, hsame.listUsageForOrg_eq⟩

end TenantStoreCall

/-! ### Two organisations with a device of the same name -/

namespace TenantStoreSample

/-- The second organisation has a member and a device. -/
def shared : TenantPersistedState where
  users := (∅ : Std.ExtTreeMap String UserRecord).insert "u" ⟨"u", "U"⟩
  organizations := ((∅ : Std.ExtTreeMap String OrganizationRecord).insert "a" ⟨"a", "A"⟩).insert "b"
    ⟨"b", "B"⟩
  memberships := (∅ : Std.ExtTreeMap String MembershipRecord).insert (tenantKey "b" "u")
    ⟨"b", "u", .operator, false⟩
  devices := (∅ : Std.ExtTreeMap String TenantDeviceRecord).insert (tenantKey "b" "d")
    ⟨"b", "d", ∅, false⟩

def grant : GrantRecord where
  grantId := "g"
  organizationId := "b"
  actorId := "u"
  workspaceIds := ∅
  scopes := {"mcp"}
  issuedAtUnixMs := 0
  expiresAtUnixMs := 1
  revoked := false

/-- The device of the first organisation is paired and revoked. -/
def calls : List TenantStoreCall := [.pairDevice "a" "d" ∅, .revokeDevice "a" "d"]

theorem entries_empty {α : Type} {validate : String → α → Except AuthError Unit} :
    Entries validate (∅ : Std.ExtTreeMap String α) := by
  intro key record hget
  simp at hget

theorem shared_valid : shared.Valid where
  version := rfl
  organizations := (entries_empty.insert (by decide)).insert (by decide)
  users := entries_empty.insert (by decide)
  memberships := entries_empty.insert (by decide)
  workspaces := entries_empty
  devices := entries_empty.insert (by decide)
  usage := entries_empty

def paired : TenantPersistedState :=
  { shared with devices := shared.devices.insert (tenantKey "a" "d") ⟨"a", "d", ∅, false⟩ }

def revoked : TenantPersistedState :=
  { paired with devices := paired.devices.insert (tenantKey "a" "d") ⟨"a", "d", ∅, true⟩ }

theorem run_calls : TenantStoreCall.Run calls shared revoked := by
  have hpair : TenantStore.pairDevice "a" "d" ∅ shared = .ok ((), paired) := by
    have horganization : shared.organizations.contains "a" := by
      simp [shared, Std.ExtTreeMap.contains_insert]
    simp only [TenantStore.pairDevice, bind_eq_ok, exists_unit, validateId_eq_ok_iff, failIf_eq_ok,
      TenantStore.mutateState_eq_ok_iff, pure_eq_ok]
    exact ⟨by decide, by decide, by decide, shared_valid, not_not_intro horganization, by simp, rfl⟩
  have hpaired : paired.Valid :=
    { shared_valid with devices := shared_valid.devices.insert (by decide) }
  have hrevoke : TenantStore.revokeDevice "a" "d" paired = .ok ((), revoked) := by
    have hget : paired.devices[tenantKey "a" "d"]? = some ⟨"a", "d", ∅, false⟩ :=
      Std.ExtTreeMap.getElem?_insert_self
    simp only [TenantStore.revokeDevice, bind_eq_ok, exists_unit, validateId_eq_ok_iff,
      TenantStore.mutateState_eq_ok_iff, hget]
    exact ⟨by decide, by decide, hpaired, rfl⟩
  exact .cons (.ok (map_eq_ok.mpr ⟨_, hpair, rfl⟩))
    (.cons (.ok (map_eq_ok.mpr ⟨_, hrevoke, rfl⟩)) .nil)

theorem verifyContext_shared :
    TenantStore.verifyContext grant "b" "d" none .viewer shared =
      .ok ⟨"b", "u", "d", none, .operator, {"mcp"}⟩ := by
  have hmembership : shared.memberships[tenantKey "b" "u"]? = some ⟨"b", "u", .operator, false⟩ :=
    Std.ExtTreeMap.getElem?_insert_self
  have hdevice : shared.devices[tenantKey "b" "d"]? = some ⟨"b", "d", ∅, false⟩ :=
    Std.ExtTreeMap.getElem?_insert_self
  simp only [TenantStore.verifyContext, bind_eq_ok, exists_unit, validateId_eq_ok_iff,
    validateTenantState_eq_ok_iff, failIf_eq_ok, orFail_eq_ok, pure_eq_ok]
  exact ⟨by decide, by decide, rfl, by decide, shared_valid, _, hmembership, by decide, _, hdevice,
    by decide, by decide, rfl⟩

end TenantStoreSample

open TenantStoreSample in
/-- The device of the second organisation stays paired. -/
theorem run_answers_shared :
    TenantStoreCall.Run calls shared revoked ∧
      TenantStore.verifyContext grant "b" "d" none .viewer revoked =
        .ok ⟨"b", "u", "d", none, .operator, {"mcp"}⟩ := by
  have hanswers :=
    (TenantStoreCall.run_answers (show "a" ≠ "b" by decide) run_calls (by decide)).1
  exact ⟨run_calls, (hanswers grant "d" none .viewer).trans verifyContext_shared⟩

end VorCommander
