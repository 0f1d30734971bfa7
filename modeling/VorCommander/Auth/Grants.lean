import Mathlib.Data.Finset.Image
import VorCommander.Crypto.Primitives
import VorCommander.Steps.Checks
import VorCommander.Text.Base64

/-!
The store of grants.

A grant is a bearer token with an actor, an organisation and scopes; a pairing
is a code that can be redeemed for one. The store keeps both under the hash of
the token or code. Every operation works on the state as the file holds it:
it fails if that state is not valid, and an operation that changes the state
returns the state it writes. What is drawn at random is an argument.
-/

namespace VorCommander

open Crypto Steps Text

inductive AuthError
  | invalidState
  | invalidTtl
  | invalidActor
  | invalidTenant
  | noScopes
  | unauthorized
  | insufficientScope (scope : String)
  | poisoned
  | lockTimeout
  | io
  | json
  deriving DecidableEq

structure GrantRecord where
  grantId : String
  organizationId : String
  actorId : String
  workspaceIds : Finset String
  scopes : Finset String
  issuedAtUnixMs : ℕ
  expiresAtUnixMs : ℕ
  revoked : Bool
  deriving DecidableEq

structure IssuedGrant where
  token : String
  record : GrantRecord
  deriving DecidableEq

structure PairingRecord where
  pairingId : String
  scopes : Finset String
  createdAtUnixMs : ℕ
  expiresAtUnixMs : ℕ
  grantTtlMs : ℕ
  deriving DecidableEq

structure IssuedPairing where
  code : String
  record : PairingRecord
  deriving DecidableEq

structure OAuthClientRecord where
  redirectUris : List String
  clientName : String
  registeredAtUnixMs : ℕ
  deriving DecidableEq

/-- What the file holds. -/
structure PersistedState where
  version : ℕ
  deviceId : String
  grants : Std.ExtTreeMap String GrantRecord := ∅
  pairings : Std.ExtTreeMap String PairingRecord := ∅
  oauthClients : Std.ExtTreeMap String OAuthClientRecord := ∅

/-! ### Checks -/

/-- The identifiers that `validate_id` accepts. -/
def ValidId (value : String) : Prop :=
  isBlank value = false ∧ (∀ c ∈ value.toList, isControl c = false) ∧ byteLength value ≤ 256

instance (value : String) : Decidable (ValidId value) :=
  have : Decidable (∀ c ∈ value.toList, isControl c = false) := List.decidableBAll _ value.toList
  inferInstanceAs (Decidable (_ ∧ _ ∧ _))

def validateId (value : String) : Except AuthError Unit := failIf (¬ ValidId value) .invalidTenant

/-- The check of one record by `validate_persisted_state`. -/
def GrantRecord.validate (record : GrantRecord) : Except AuthError Unit := do
  validateId record.organizationId
  (validateId record.actorId).mapError fun _ => .invalidActor
  failIf (¬ ∀ workspaceId ∈ record.workspaceIds, ValidId workspaceId) .invalidTenant

def validatePersistedState (state : PersistedState) : Except AuthError Unit := do
  failIf (state.version ≠ 1 ∨ state.deviceId.isEmpty) .invalidState
  state.grants.toList.forM fun entry => entry.2.validate

/-- The members of a list that are not blank. -/
def nonBlank (values : List String) : Finset String := (values.filter (¬ isBlank ·)).toFinset

/-- `u64::checked_add`, where the sum is a time. -/
def checkedExpiry (nowUnixMs ttlMs : ℕ) : Except AuthError ℕ := do
  failIf (2 ^ 64 ≤ nowUnixMs + ttlMs) .invalidTtl
  return nowUnixMs + ttlMs

namespace GrantStore

variable (P : Primitives)

def tokenHashHex (token : String) : String := hexEncode (P.sha256 (utf8 token)).toList

/-- `mutate_state`: the state is read again before it is changed. -/
def mutateState {α : Type} (mutate : PersistedState → Except AuthError (α × PersistedState))
    (state : PersistedState) : Except AuthError (α × PersistedState) := do
  validatePersistedState state
  mutate state

/-- An operation that reads the state again and answers from it. -/
def readState {α : Type} (query : PersistedState → Except AuthError α) (state : PersistedState) :
    Except AuthError α := do
  validatePersistedState state
  query state

/-! ### Issuing -/

def registerOauthClient (clientId : String) (redirectUris : List String) (clientName : String)
    (registeredAtUnixMs : ℕ) (state : PersistedState) :
    Except AuthError (OAuthClientRecord × PersistedState) := do
  failIf (isBlank clientId ∨ isBlank clientName ∨ redirectUris = []) .unauthorized
  let record : OAuthClientRecord := { redirectUris, clientName, registeredAtUnixMs }
  mutateState (fun state =>
    .ok (record, { state with oauthClients := state.oauthClients.insert clientId record })) state

def oauthClient (clientId : String) (state : PersistedState) :
    Except AuthError (Option OAuthClientRecord) :=
  if clientId.isEmpty then .ok none
  else readState (fun state => .ok state.oauthClients[clientId]?) state

def issueForTenant (organizationId actorId : String) (workspaceIds scopes : List String)
    (ttlMs nowUnixMs : ℕ) (tokenBytes : Vector UInt8 32) (grantId : Vector UInt8 16)
    (state : PersistedState) : Except AuthError (IssuedGrant × PersistedState) := do
  failIf (ttlMs = 0) .invalidTtl
  validateId organizationId
  (validateId actorId).mapError fun _ => .invalidActor
  failIf (¬ ∀ workspaceId ∈ nonBlank workspaceIds, ValidId workspaceId) .invalidTenant
  failIf (nonBlank scopes = ∅) .noScopes
  let expiresAtUnixMs ← checkedExpiry nowUnixMs ttlMs
  let token := Base64.encodeUrlSafe tokenBytes.toList
  let record : GrantRecord :=
    { grantId := hexEncode grantId.toList, organizationId, actorId
      workspaceIds := nonBlank workspaceIds, scopes := nonBlank scopes
      issuedAtUnixMs := nowUnixMs, expiresAtUnixMs, revoked := false }
  mutateState (fun state => .ok (⟨token, record⟩,
    { state with grants := state.grants.insert (tokenHashHex P token) record })) state

def issue (actorId : String) (scopes : List String) (ttlMs nowUnixMs : ℕ)
    (tokenBytes : Vector UInt8 32) (grantId : Vector UInt8 16) (state : PersistedState) :
    Except AuthError (IssuedGrant × PersistedState) :=
  issueForTenant P "local" actorId [] scopes ttlMs nowUnixMs tokenBytes grantId state

def createPairing (scopes : List String) (pairingTtlMs grantTtlMs nowUnixMs : ℕ)
    (codeBytes : Vector UInt8 20) (pairingId : Vector UInt8 16) (state : PersistedState) :
    Except AuthError (IssuedPairing × PersistedState) := do
  failIf (pairingTtlMs = 0 ∨ grantTtlMs = 0) .invalidTtl
  failIf (nonBlank scopes = ∅) .noScopes
  let expiresAtUnixMs ← checkedExpiry nowUnixMs pairingTtlMs
  let code := Base64.encodeUrlSafe codeBytes.toList
  let record : PairingRecord :=
    { pairingId := hexEncode pairingId.toList, scopes := nonBlank scopes
      createdAtUnixMs := nowUnixMs, expiresAtUnixMs, grantTtlMs }
  mutateState (fun state => .ok (⟨code, record⟩,
    { state with pairings := state.pairings.insert (tokenHashHex P code) record })) state

/-! ### Using -/

def validate (token requiredScope : String) (nowUnixMs : ℕ) (state : PersistedState) :
    Except AuthError GrantRecord := do
  failIf (token.isEmpty ∨ requiredScope.isEmpty) .unauthorized
  readState (fun state => do
    let record ← orFail state.grants[tokenHashHex P token]? .unauthorized
    failIf (record.revoked ∨ record.expiresAtUnixMs ≤ nowUnixMs) .unauthorized
    failIf (requiredScope ∉ record.scopes ∧ "*" ∉ record.scopes) (.insufficientScope requiredScope)
    return record) state

/-- The grant that a redeemed pairing turns into. -/
def redeemedGrant (pairing : PairingRecord) (actorId : String) (nowUnixMs : ℕ)
    (grantId : Vector UInt8 16) : GrantRecord :=
  { grantId := hexEncode grantId.toList, organizationId := "local", actorId, workspaceIds := ∅
    scopes := pairing.scopes, issuedAtUnixMs := nowUnixMs
    expiresAtUnixMs := nowUnixMs + pairing.grantTtlMs, revoked := false }

/-- `redeem_pairing`. An expired pairing stays in the file: the state it is
removed from is not written. -/
def redeemPairing (code actorId : String) (nowUnixMs : ℕ) (tokenBytes : Vector UInt8 32)
    (grantId : Vector UInt8 16) (state : PersistedState) :
    Except AuthError (IssuedGrant × PersistedState) := do
  failIf (code.isEmpty ∨ isBlank actorId) .unauthorized
  mutateState (fun state => do
    let pairing ← orFail state.pairings[tokenHashHex P code]? .unauthorized
    failIf (pairing.expiresAtUnixMs ≤ nowUnixMs) .unauthorized
    let _ ← checkedExpiry nowUnixMs pairing.grantTtlMs
    let token := Base64.encodeUrlSafe tokenBytes.toList
    let record := redeemedGrant pairing actorId nowUnixMs grantId
    return (⟨token, record⟩,
      { state with
        pairings := state.pairings.erase (tokenHashHex P code)
        grants := state.grants.insert (tokenHashHex P token) record })) state

/-! ### Revoking -/

/-- `revoke_matching`: the first grant in the order of the hashes. -/
def revokeMatching (grantId : String) (organizationId : Option String) (state : PersistedState) :
    Except AuthError (Bool × PersistedState) :=
  mutateState (fun state =>
    match state.grants.toList.find? fun entry =>
        entry.2.grantId = grantId ∧ organizationId.all (entry.2.organizationId = ·) with
    | none => .ok (false, state)
    | some (tokenHash, record) => .ok (true,
        { state with grants := state.grants.insert tokenHash { record with revoked := true } }))
    state

def revokeForTenant (grantId organizationId : String) (state : PersistedState) :
    Except AuthError (Bool × PersistedState) := do
  validateId organizationId
  revokeMatching grantId (some organizationId) state

end GrantStore

/-! ### What the operations do -/

/-- The states that `validate_persisted_state` accepts. -/
structure PersistedState.Valid (state : PersistedState) : Prop where
  version : state.version = 1
  deviceId : state.deviceId ≠ ""
  grants : ∀ (tokenHash : String) (record : GrantRecord),
    state.grants[tokenHash]? = some record → record.validate = .ok ()

theorem validatePersistedState_eq_ok_iff {state : PersistedState} :
    validatePersistedState state = .ok () ↔ state.Valid := by
  simp only [validatePersistedState, bind_eq_ok, exists_unit, failIf_eq_ok, not_or, not_not,
    String.isEmpty_iff, forM_eq_ok, Prod.forall, Std.ExtTreeMap.mem_toList_iff_getElem?_eq_some]
  constructor
  · rintro ⟨⟨hversion, hdevice⟩, hgrants⟩
    exact ⟨hversion, hdevice, hgrants⟩
  · rintro ⟨hversion, hdevice, hgrants⟩
    exact ⟨⟨hversion, hdevice⟩, hgrants⟩

namespace GrantStore

variable {P : Primitives} {state state' : PersistedState}

theorem mutateState_eq_ok_iff {α : Type} {a : α}
    {mutate : PersistedState → Except AuthError (α × PersistedState)} :
    mutateState mutate state = .ok (a, state') ↔ state.Valid ∧ mutate state = .ok (a, state') := by
  simp only [mutateState, bind_eq_ok, exists_unit, validatePersistedState_eq_ok_iff]

theorem readState_eq_ok_iff {α : Type} {a : α} {query : PersistedState → Except AuthError α} :
    readState query state = .ok a ↔ state.Valid ∧ query state = .ok a := by
  simp only [readState, bind_eq_ok, exists_unit, validatePersistedState_eq_ok_iff]

theorem checkedExpiry_eq_ok_iff {now ttl expires : ℕ} :
    checkedExpiry now ttl = .ok expires ↔ now + ttl < 2 ^ 64 ∧ expires = now + ttl := by
  simp only [checkedExpiry, bind_eq_ok, exists_unit, failIf_eq_ok, pure_eq_ok, not_le,
    eq_comm (a := expires)]

/-- The pairing a code is created with. -/
def pairingRecord (scopes : List String) (pairingTtlMs grantTtlMs nowUnixMs : ℕ)
    (pairingId : Vector UInt8 16) : PairingRecord :=
  { pairingId := hexEncode pairingId.toList, scopes := nonBlank scopes
    createdAtUnixMs := nowUnixMs, expiresAtUnixMs := nowUnixMs + pairingTtlMs
    grantTtlMs }

theorem createPairing_eq_ok_iff {scopes : List String} {pairingTtl grantTtl now : ℕ}
    {codeBytes : Vector UInt8 20} {pairingId : Vector UInt8 16} {issued : IssuedPairing} :
    createPairing P scopes pairingTtl grantTtl now codeBytes pairingId state =
        .ok (issued, state') ↔
      (pairingTtl ≠ 0 ∧ grantTtl ≠ 0 ∧ nonBlank scopes ≠ ∅ ∧ now + pairingTtl < 2 ^ 64 ∧
        state.Valid) ∧
      issued = ⟨Base64.encodeUrlSafe codeBytes.toList,
        pairingRecord scopes pairingTtl grantTtl now pairingId⟩ ∧
      state' = { state with
        pairings := state.pairings.insert (tokenHashHex P issued.code) issued.record } := by
  simp only [createPairing, bind_eq_ok, exists_unit, failIf_eq_ok, not_or, checkedExpiry_eq_ok_iff,
    mutateState_eq_ok_iff, Except.ok.injEq, Prod.mk.injEq]
  constructor
  · rintro ⟨⟨hpairing, hgrant⟩, hscopes, expires, ⟨htime, rfl⟩, hvalid, rfl, rfl⟩
    exact ⟨⟨hpairing, hgrant, hscopes, htime, hvalid⟩, rfl, rfl⟩
  · rintro ⟨⟨hpairing, hgrant, hscopes, htime, hvalid⟩, rfl, rfl⟩
    exact ⟨⟨hpairing, hgrant⟩, hscopes, _, ⟨htime, rfl⟩, hvalid, rfl, rfl⟩

theorem redeemPairing_eq_ok_iff {code actorId : String} {now : ℕ} {tokenBytes : Vector UInt8 32}
    {grantId : Vector UInt8 16} {issued : IssuedGrant} :
    redeemPairing P code actorId now tokenBytes grantId state = .ok (issued, state') ↔
      (code ≠ "" ∧ isBlank actorId = false ∧ state.Valid) ∧
      ∃ pairing, state.pairings[tokenHashHex P code]? = some pairing ∧
        now < pairing.expiresAtUnixMs ∧ now + pairing.grantTtlMs < 2 ^ 64 ∧
        issued = ⟨Base64.encodeUrlSafe tokenBytes.toList,
          redeemedGrant pairing actorId now grantId⟩ ∧
        state' = { state with
          pairings := state.pairings.erase (tokenHashHex P code)
          grants := state.grants.insert (tokenHashHex P issued.token) issued.record } := by
  simp only [redeemPairing, bind_eq_ok, exists_unit, failIf_eq_ok, not_or, orFail_eq_ok,
    checkedExpiry_eq_ok_iff, mutateState_eq_ok_iff, pure_eq_ok, Prod.mk.injEq, String.isEmpty_iff,
    Bool.not_eq_true, not_le]
  constructor
  · rintro ⟨⟨hcode, hactor⟩, hvalid, pairing, hget, hfresh, _, ⟨htime, rfl⟩, rfl, rfl⟩
    exact ⟨⟨hcode, hactor, hvalid⟩, pairing, hget, hfresh, htime, rfl, rfl⟩
  · rintro ⟨⟨hcode, hactor, hvalid⟩, pairing, hget, hfresh, htime, rfl, rfl⟩
    exact ⟨⟨hcode, hactor⟩, hvalid, pairing, hget, hfresh, _, ⟨htime, rfl⟩, rfl, rfl⟩

theorem validate_eq_ok_iff {token requiredScope : String} {now : ℕ} {record : GrantRecord} :
    validate P token requiredScope now state = .ok record ↔
      (token ≠ "" ∧ requiredScope ≠ "" ∧ state.Valid) ∧
      state.grants[tokenHashHex P token]? = some record ∧ record.revoked = false ∧
      now < record.expiresAtUnixMs ∧ (requiredScope ∈ record.scopes ∨ "*" ∈ record.scopes) := by
  simp only [validate, bind_eq_ok, exists_unit, failIf_eq_ok, not_or, orFail_eq_ok,
    readState_eq_ok_iff, pure_eq_ok, String.isEmpty_iff, Bool.not_eq_true, not_le, not_and, not_not]
  constructor
  · rintro ⟨⟨htoken, hscope⟩, hvalid, _, hget, ⟨hrevoked, hfresh⟩, hscopes, rfl⟩
    exact ⟨⟨htoken, hscope, hvalid⟩, hget, hrevoked, hfresh, or_iff_not_imp_left.mpr hscopes⟩
  · rintro ⟨⟨htoken, hscope, hvalid⟩, hget, hrevoked, hfresh, hscopes⟩
    exact ⟨⟨htoken, hscope⟩, hvalid, _, hget, ⟨hrevoked, hfresh⟩, or_iff_not_imp_left.mp hscopes,
      rfl⟩

/-- Registering a client leaves grants and pairings alone. -/
theorem registerOauthClient_eq_ok {clientId clientName : String} {redirectUris : List String}
    {at' : ℕ} {record : OAuthClientRecord}
    (h : registerOauthClient clientId redirectUris clientName at' state = .ok (record, state')) :
    state'.grants = state.grants ∧ state'.pairings = state.pairings := by
  simp only [registerOauthClient, bind_eq_ok, mutateState_eq_ok_iff, Except.ok.injEq,
    Prod.mk.injEq] at h
  obtain ⟨_, _, _, _, rfl⟩ := h
  exact ⟨rfl, rfl⟩

/-- Revoking a grant leaves the pairings alone. -/
theorem revokeForTenant_eq_ok {grantId organizationId : String} {found : Bool}
    (h : revokeForTenant grantId organizationId state = .ok (found, state')) :
    state'.pairings = state.pairings := by
  simp only [revokeForTenant, revokeMatching, bind_eq_ok, mutateState_eq_ok_iff] at h
  obtain ⟨_, _, _, h⟩ := h
  split at h <;> obtain ⟨_, rfl⟩ := Prod.mk.inj (Except.ok.inj h) <;> rfl

end GrantStore

end VorCommander
