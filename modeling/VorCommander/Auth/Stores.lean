import VorCommander.Auth.Isolation
import VorCommander.Auth.StateFile
import VorCommander.Auth.Store

/-!
The two stores, as tasks on a state file.

A call makes the checks of its arguments before it takes the lock. What it
does inside of the lock is what it does with a state.
-/

namespace VorCommander

open Crypto Steps Text

/-! ### Grants -/

inductive GrantStoreAnswer
  | client (record : OAuthClientRecord)
  | knownClient (record : Option OAuthClientRecord)
  | issued (grant : IssuedGrant)
  | pairing (pairing : IssuedPairing)
  | grant (record : GrantRecord)
  | found (found : Bool)
  | removed (count : ℕ)
  | device (deviceId : String)

/-- An answer together with the state to be written. -/
def answering {α Answer State : Type} (answer : α → Answer) (r : Except AuthError (α × State)) :
    Except AuthError (Answer × State) :=
  (fun changed => (answer changed.1, changed.2)) <$> r

/-- The checks of `issue_for_tenant` that come before `mutate_state`. -/
def issueChecks (organizationId actorId : String) (workspaceIds scopes : List String)
    (ttlMs nowUnixMs : ℕ) : Except AuthError Unit := do
  failIf (ttlMs = 0) .invalidTtl
  validateId organizationId
  (validateId actorId).mapError fun _ => .invalidActor
  failIf (¬ ∀ workspaceId ∈ nonBlank workspaceIds, ValidId workspaceId) .invalidTenant
  failIf (nonBlank scopes = ∅) .noScopes
  let _ ← checkedExpiry nowUnixMs ttlMs

/-- The checks of `create_pairing` that come before `mutate_state`. -/
def pairingChecks (scopes : List String) (pairingTtlMs grantTtlMs nowUnixMs : ℕ) :
    Except AuthError Unit := do
  failIf (pairingTtlMs = 0 ∨ grantTtlMs = 0) .invalidTtl
  failIf (nonBlank scopes = ∅) .noScopes
  let _ ← checkedExpiry nowUnixMs pairingTtlMs

namespace GrantStoreCall

variable (P : Primitives)

/-- What a call does; opening is not a call of an open store. -/
def task : GrantStoreCall → StoreTask PersistedState StoreDraws GrantStoreAnswer
  | .openStore => .done (.error .invalidState)
  | .deviceId => .query fun state => .device <$> GrantStore.deviceId state
  | .registerOauthClient clientId redirectUris clientName at' =>
      .after (failIf (isBlank clientId ∨ isBlank clientName ∨ redirectUris = []) .unauthorized)
        (.change fun _ state => answering .client
          (GrantStore.registerOauthClient clientId redirectUris clientName at' state))
  | .oauthClient clientId =>
      if clientId.isEmpty then .done (.ok (.knownClient none))
      else .query fun state => .knownClient <$> GrantStore.oauthClient clientId state
  | .issue actorId scopes ttl now =>
      .after (issueChecks "local" actorId [] scopes ttl now)
        (.change fun draws state => answering .issued
          (GrantStore.issue P actorId scopes ttl now draws.tokenBytes draws.grantId state))
  | .issueForTenant organizationId actorId workspaceIds scopes ttl now =>
      .after (issueChecks organizationId actorId workspaceIds scopes ttl now)
        (.change fun draws state => answering .issued
          (GrantStore.issueForTenant P organizationId actorId workspaceIds scopes ttl now
            draws.tokenBytes draws.grantId state))
  | .createPairing scopes pairingTtl grantTtl now =>
      .after (pairingChecks scopes pairingTtl grantTtl now)
        (.change fun draws state => answering .pairing
          (GrantStore.createPairing P scopes pairingTtl grantTtl now draws.codeBytes
            draws.pairingId state))
  | .validate token scope now =>
      .after (failIf (token.isEmpty ∨ scope.isEmpty) .unauthorized)
        (.query fun state => .grant <$> GrantStore.validate P token scope now state)
  | .redeemPairing code actorId now =>
      .after (failIf (code.isEmpty ∨ isBlank actorId) .unauthorized)
        (.change fun draws state => answering .issued
          (GrantStore.redeemPairing P code actorId now draws.tokenBytes draws.grantId state))
  | .validateForTenant token scope organizationId workspaceId now =>
      .after (failIf (token.isEmpty ∨ scope.isEmpty) .unauthorized)
        (.query fun state => .grant <$>
          GrantStore.validateForTenant P token scope organizationId workspaceId now state)
  | .revoke grantId =>
      .change fun _ state => answering .found (GrantStore.revoke grantId state)
  | .revokeForTenant grantId organizationId =>
      .after (validateId organizationId)
        (.change fun _ state =>
          answering .found (GrantStore.revokeForTenant grantId organizationId state))
  | .expireForTenant grantId organizationId expiresAt =>
      .after (validateId organizationId)
        (.change fun _ state =>
          answering .found (GrantStore.expireForTenant grantId organizationId expiresAt state))
  | .removeWorkspaceForTenant grantId organizationId workspaceId =>
      .after (do validateId organizationId; validateId workspaceId)
        (.change fun _ state => answering .found
          (GrantStore.removeWorkspaceForTenant grantId organizationId workspaceId state))
  | .pruneExpired now =>
      .change fun _ state => answering .removed (GrantStore.pruneExpired now state)
  | .pruneExpiredPairings now =>
      .change fun _ state => answering .removed (GrantStore.pruneExpiredPairings now state)

variable {P} {draws : StoreDraws} {state next : PersistedState} {answer : GrantStoreAnswer}

theorem answering_eq_ok {α Answer State : Type} {f : α → Answer}
    {r : Except AuthError (α × State)} {a : Answer} {next : State} :
    answering f r = .ok (a, next) ↔ ∃ x, r = .ok (x, next) ∧ f x = a := by
  simp only [answering, map_eq_ok, Prod.exists, Prod.mk.injEq]
  constructor
  · rintro ⟨x, _, hr, hf, rfl⟩
    exact ⟨x, hr, hf⟩
  · rintro ⟨x, hr, hf⟩
    exact ⟨x, next, hr, hf, rfl⟩

/-- What a call writes into the file is what it leaves there. -/
theorem onState_of_task {call : GrantStoreCall}
    {mutate : StoreDraws → PersistedState → Except AuthError (GrantStoreAnswer × PersistedState)}
    (htask : call.task P = .change mutate) (hmutate : mutate draws state = .ok (answer, next)) :
    call.onState P draws state = .ok next := by
  cases call with
  | openStore | deviceId => cases htask
  | oauthClient clientId =>
      rw [task] at htask
      split at htask <;> cases htask
  | validate | validateForTenant =>
      simp only [task, StoreTask.after_eq_change, reduceCtorEq, and_false] at htask
  | revoke | pruneExpired | pruneExpiredPairings =>
      obtain rfl := StoreTask.change.inj htask
      obtain ⟨a, hcall, _⟩ := answering_eq_ok.mp hmutate
      exact written_eq_ok.mpr ⟨a, hcall⟩
  | registerOauthClient | issue | issueForTenant | createPairing | redeemPairing
  | revokeForTenant | expireForTenant | removeWorkspaceForTenant =>
      obtain ⟨_, htask⟩ := StoreTask.after_eq_change.mp htask
      obtain rfl := StoreTask.change.inj htask
      obtain ⟨a, hcall, _⟩ := answering_eq_ok.mp hmutate
      exact written_eq_ok.mpr ⟨a, hcall⟩

/-- The hash of the token that a call issues. -/
def issuedToken (P : Primitives) (draws : StoreDraws) : GrantStoreCall → Option String
  | .issue _ _ _ _ | .issueForTenant _ _ _ _ _ _ | .redeemPairing _ _ _ =>
      some (GrantStore.tokenHashHex P (Base64.encodeUrlSafe draws.tokenBytes.toList))
  | _ => none

/-- The pairing that a call creates, with the hash of its code. -/
def createdPairing (P : Primitives) (draws : StoreDraws) :
    GrantStoreCall → Option (String × PairingRecord)
  | .createPairing scopes pairingTtl grantTtl now =>
      some (GrantStore.tokenHashHex P (Base64.encodeUrlSafe draws.codeBytes.toList),
        GrantStore.pairingRecord scopes pairingTtl grantTtl now draws.pairingId)
  | _ => none

/-- What a call may do to a state: it keeps the name of the device, it adds no
grant but at the hash of the token that it issues, it takes no revocation back,
and it adds no pairing but the one that it creates. -/
structure Evolves (P : Primitives) (call : GrantStoreCall) (draws : StoreDraws)
    (state next : PersistedState) : Prop where
  deviceId : next.deviceId = state.deviceId
  grants : ∀ (hash : String) (record : GrantRecord), next.grants[hash]? = some record →
    call.issuedToken P draws = some hash ∨
      ∃ earlier : GrantRecord, state.grants[hash]? = some earlier ∧
        (earlier.revoked = true → record.revoked = true)
  pairings : ∀ (hash : String) (pairing : PairingRecord), next.pairings[hash]? = some pairing →
    call.createdPairing P draws = some (hash, pairing) ∨ state.pairings[hash]? = some pairing

namespace Evolves

variable {call : GrantStoreCall}

/-- The grants are as they were. -/
theorem kept {map : Std.ExtTreeMap String GrantRecord} (hash : String) (record : GrantRecord)
    (hget : map[hash]? = some record) :
    call.issuedToken P draws = some hash ∨
      ∃ earlier : GrantRecord, map[hash]? = some earlier ∧
        (earlier.revoked = true → record.revoked = true) :=
  .inr ⟨record, hget, id⟩

theorem refl (state : PersistedState) : Evolves P call draws state state :=
  ⟨rfl, kept, fun _ _ => .inr⟩

/-- A grant is put at the hash of a new token, or takes the place of one that
was not revoked unless it is. -/
theorem insert {map : Std.ExtTreeMap String GrantRecord} {hash : String} {record : GrantRecord}
    (hold : call.issuedToken P draws = some hash ∨
      ∃ earlier : GrantRecord, map[hash]? = some earlier ∧
        (earlier.revoked = true → record.revoked = true))
    (hash' : String) (record' : GrantRecord)
    (hget : (map.insert hash record)[hash']? = some record') :
    call.issuedToken P draws = some hash' ∨
      ∃ earlier : GrantRecord, map[hash']? = some earlier ∧
        (earlier.revoked = true → record'.revoked = true) := by
  rw [Std.ExtTreeMap.getElem?_insert] at hget
  split at hget
  case isTrue hkey =>
      rw [Std.compare_eq_iff_eq] at hkey
      obtain rfl := hkey
      obtain rfl := Option.some.inj hget
      exact hold
  case isFalse => exact .inr ⟨record', hget, id⟩

/-- A grant that was found is put back. -/
theorem insert_found {p : String × GrantRecord → Bool} {hash : String}
    {record record' : GrantRecord}
    (hfind : state.grants.toList.find? p = some (hash, record))
    (hrevoked : record.revoked = true → record'.revoked = true) :
    Evolves P call draws state { state with grants := state.grants.insert hash record' } := by
  have hmem := List.mem_of_find?_eq_some hfind
  rw [Std.ExtTreeMap.mem_toList_iff_getElem?_eq_some] at hmem
  exact ⟨rfl, insert (.inr ⟨record, hmem, hrevoked⟩), fun _ _ => .inr⟩

end Evolves

theorem revokeMatching_evolves {call : GrantStoreCall} {grantId : String}
    {organizationId : Option String} {found : Bool}
    (h : GrantStore.revokeMatching grantId organizationId state = .ok (found, next)) :
    Evolves P call draws state next := by
  obtain ⟨_, h⟩ := GrantStore.mutateState_eq_ok_iff.mp h
  split at h
  case h_1 =>
      obtain ⟨_, rfl⟩ := Prod.mk.inj (Except.ok.inj h)
      exact .refl _
  case h_2 hash record hfind =>
      obtain ⟨_, rfl⟩ := Prod.mk.inj (Except.ok.inj h)
      exact .insert_found hfind fun _ => rfl

/-- What is written by a call that returns Ok. -/
theorem onState_evolves {call : GrantStoreCall} (h : call.onState P draws state = .ok next) :
    Evolves P call draws state next := by
  cases call with
  | openStore =>
      simp only [onState, GrantStore.openStore, bind_eq_ok, pure_eq_ok] at h
      obtain ⟨_, _, _, _, rfl⟩ := h
      exact .refl _
  | deviceId | oauthClient | validate | validateForTenant =>
      obtain ⟨_, _, rfl⟩ := map_eq_ok.mp h
      exact .refl _
  | registerOauthClient clientId redirectUris clientName at' =>
      obtain ⟨_, h⟩ := written_eq_ok.mp h
      simp only [GrantStore.registerOauthClient, bind_eq_ok, GrantStore.mutateState_eq_ok_iff,
        Except.ok.injEq, Prod.mk.injEq] at h
      obtain ⟨_, _, _, _, rfl⟩ := h
      exact ⟨rfl, Evolves.kept, fun _ _ => .inr⟩
  | issue | issueForTenant =>
      obtain ⟨_, h⟩ := written_eq_ok.mp h
      simp only [GrantStore.issue, GrantStore.issueForTenant, bind_eq_ok,
        GrantStore.mutateState_eq_ok_iff, Except.ok.injEq, Prod.mk.injEq] at h
      obtain ⟨_, _, _, _, _, _, _, _, _, _, _, _, _, _, rfl⟩ := h
      exact ⟨rfl, Evolves.insert (.inl rfl), fun _ _ => .inr⟩
  | createPairing scopes pairingTtl grantTtl now =>
      obtain ⟨issued, h⟩ := written_eq_ok.mp h
      obtain ⟨_, rfl, rfl⟩ := GrantStore.createPairing_eq_ok_iff.mp h
      refine ⟨rfl, Evolves.kept, fun hash pairing hget => ?_⟩
      rw [Std.ExtTreeMap.getElem?_insert] at hget
      split at hget
      case isTrue hkey =>
          rw [Std.compare_eq_iff_eq] at hkey
          obtain rfl := Option.some.inj hget
          exact .inl (congrArg (fun hash => some (hash, _)) hkey)
      case isFalse => exact .inr hget
  | redeemPairing code actorId now =>
      obtain ⟨issued, h⟩ := written_eq_ok.mp h
      obtain ⟨_, pairing, _, _, _, rfl, rfl⟩ := GrantStore.redeemPairing_eq_ok_iff.mp h
      -- the pairing is taken out, and the others stay
      refine ⟨rfl, Evolves.insert (.inl rfl), fun hash pairing' hget => ?_⟩
      rw [Std.ExtTreeMap.getElem?_erase] at hget
      split at hget
      · cases hget
      · exact .inr hget
  | revoke grantId =>
      obtain ⟨found, h⟩ := written_eq_ok.mp h
      exact revokeMatching_evolves h
  | revokeForTenant grantId organizationId =>
      obtain ⟨found, h⟩ := written_eq_ok.mp h
      obtain ⟨_, _, h⟩ := bind_eq_ok.mp h
      exact revokeMatching_evolves h
  | expireForTenant grantId organizationId expiresAt =>
      obtain ⟨found, h⟩ := written_eq_ok.mp h
      simp only [GrantStore.expireForTenant, bind_eq_ok, GrantStore.mutateState_eq_ok_iff] at h
      obtain ⟨_, _, _, h⟩ := h
      split at h
      case h_1 =>
          obtain ⟨_, rfl⟩ := Prod.mk.inj (Except.ok.inj h)
          exact .refl _
      case h_2 hash record hfind =>
          simp only [bind_eq_ok, pure_eq_ok, Prod.mk.injEq] at h
          obtain ⟨_, _, _, rfl⟩ := h
          exact .insert_found hfind id
  | removeWorkspaceForTenant grantId organizationId workspaceId =>
      obtain ⟨found, h⟩ := written_eq_ok.mp h
      simp only [GrantStore.removeWorkspaceForTenant, bind_eq_ok,
        GrantStore.mutateState_eq_ok_iff] at h
      obtain ⟨_, _, _, _, _, h⟩ := h
      split at h
      case h_1 =>
          obtain ⟨_, rfl⟩ := Prod.mk.inj (Except.ok.inj h)
          exact .refl _
      case h_2 hash record hfind =>
          obtain ⟨_, rfl⟩ := Prod.mk.inj (Except.ok.inj h)
          exact .insert_found hfind id
  | pruneExpired now =>
      obtain ⟨count, h⟩ := written_eq_ok.mp h
      obtain ⟨_, h⟩ := GrantStore.mutateState_eq_ok_iff.mp h
      obtain ⟨_, rfl⟩ := Prod.mk.inj (Except.ok.inj h)
      refine ⟨rfl, fun hash record hget => ?_, fun _ _ => .inr⟩
      rw [Std.ExtTreeMap.getElem?_filter', Option.filter_eq_some_iff] at hget
      exact .inr ⟨record, hget.1, id⟩
  | pruneExpiredPairings now =>
      obtain ⟨count, h⟩ := written_eq_ok.mp h
      obtain ⟨_, h⟩ := GrantStore.mutateState_eq_ok_iff.mp h
      obtain ⟨_, rfl⟩ := Prod.mk.inj (Except.ok.inj h)
      refine ⟨rfl, Evolves.kept, fun hash pairing hget => ?_⟩
      rw [Std.ExtTreeMap.getElem?_filter', Option.filter_eq_some_iff] at hget
      exact .inr hget.1

end GrantStoreCall

/-- The store of grants. -/
def grants (P : Primitives) : Store where
  State := PersistedState
  Call := { call : GrantStoreCall // call ≠ .openStore }
  Answer := GrantStoreAnswer
  Draws := StoreDraws
  fresh draws := { version := 1, deviceId := hexEncode draws.deviceId.toList }
  accept state := do
    validatePersistedState state
    failIf (state.version ≠ 1 ∨ state.deviceId.isEmpty) .invalidState
  task call := call.val.task P

/-! ### Tenants -/

/-- The calls of the store of tenants. -/
inductive TenantStoreRequest
  | change (call : TenantStoreCall)
  | verifyContext (grant : GrantRecord) (organizationId deviceId : String)
      (workspaceId : Option String) (requiredRole : TenantRole)
  | listUsageForOrg (organizationId : String)

inductive TenantStoreAnswer
  | done
  | removed (removed : Bool)
  | context (context : VerifiedTenantContext)
  | usage (records : List UsageRecord)

namespace TenantStoreCall

/-- The checks of a call that come before `mutate_state`. -/
def check : TenantStoreCall → Except AuthError Unit
  | .upsertUser userId _ => validateId userId
  | .upsertOrganization organizationId _ => validateId organizationId
  | .upsertWorkspace organizationId workspaceId _ => do
      validateId workspaceId
      validateId organizationId
  | .setMembership organizationId userId _ => do
      validateId organizationId
      validateId userId
  | .revokeMembership organizationId userId => do
      validateId organizationId
      validateId userId
  | .pairDevice organizationId deviceId workspaceIds => do
      validateId deviceId
      validateId organizationId
      failIf (¬ ∀ workspaceId ∈ workspaceIds, ValidId workspaceId) .invalidTenant
  | .revokeDevice organizationId deviceId => do
      validateId organizationId
      validateId deviceId
  | .removeDeviceWorkspace organizationId deviceId workspaceId => do
      validateId organizationId
      validateId deviceId
      validateId workspaceId
  | .recordUsage organizationId workspaceId usageKey _ => do
      validateId organizationId
      workspaceId.elim (.ok ()) validateId
      validateId usageKey

/-- The answer of a call, with the state it writes. -/
def mutate (state : TenantPersistedState) :
    TenantStoreCall → Except AuthError (TenantStoreAnswer × TenantPersistedState)
  | .removeDeviceWorkspace organizationId deviceId workspaceId =>
      answering .removed
        (TenantStore.removeDeviceWorkspace organizationId deviceId workspaceId state)
  | call => (fun state => (.done, state)) <$> call.onState state

end TenantStoreCall

/-- The checks of `verify_context` that come before it takes the lock. -/
def contextChecks (grant : GrantRecord) (organizationId deviceId : String)
    (workspaceId : Option String) : Except AuthError Unit := do
  validateId organizationId
  validateId deviceId
  workspaceId.elim (.ok ()) validateId
  failIf (grant.organizationId ≠ organizationId) .unauthorized

def TenantStoreRequest.task :
    TenantStoreRequest → StoreTask TenantPersistedState Unit TenantStoreAnswer
  | .change call => .after call.check (.change fun _ state => call.mutate state)
  | .verifyContext grant organizationId deviceId workspaceId requiredRole =>
      .after (contextChecks grant organizationId deviceId workspaceId)
        (.query fun state => .context <$>
          TenantStore.verifyContext grant organizationId deviceId workspaceId requiredRole state)
  | .listUsageForOrg organizationId =>
      .after (validateId organizationId)
        (.query fun state => .usage <$> TenantStore.listUsageForOrg organizationId state)

/-- The store of tenants. -/
def tenants : Store where
  State := TenantPersistedState
  Call := TenantStoreRequest
  Answer := TenantStoreAnswer
  Draws := Unit
  fresh _ := {}
  accept := validateTenantState
  task := TenantStoreRequest.task

end VorCommander
