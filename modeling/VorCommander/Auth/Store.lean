import VorCommander.Auth.Grants

/-!
The store of grants over its whole life.

Every public operation reads the file again, and refuses to work on a state
that `validate_persisted_state` does not accept. The store stays usable as
long as no operation writes such a state. All operations but one check what
they write by the rules the file is checked by when it is read.
-/

namespace VorCommander

open Crypto Steps Text

namespace GrantStore

variable (P : Primitives)

/-! ### The remaining operations -/

/-- `open`: the state of the file, which is written first if there is none. -/
def openStore (deviceId : Vector UInt8 16) : Option PersistedState → Except AuthError PersistedState
  | none => .ok { version := 1, deviceId := hexEncode deviceId.toList }
  | some state => do
      validatePersistedState state
      failIf (state.version ≠ 1 ∨ state.deviceId.isEmpty) .invalidState
      return state

def deviceId (state : PersistedState) : Except AuthError String :=
  readState (fun state => .ok state.deviceId) state

def validateForTenant (token requiredScope organizationId : String) (workspaceId : Option String)
    (nowUnixMs : ℕ) (state : PersistedState) : Except AuthError GrantRecord := do
  let record ← validate P token requiredScope nowUnixMs state
  failIf (record.organizationId ≠ organizationId) .unauthorized
  failIf (workspaceId.any (· ∉ record.workspaceIds)) .unauthorized
  return record

def revoke (grantId : String) (state : PersistedState) : Except AuthError (Bool × PersistedState) :=
  revokeMatching grantId none state

/-- The first grant of an organisation with the given identifier. -/
def find (grantId organizationId : String) (state : PersistedState) :
    Option (String × GrantRecord) :=
  state.grants.toList.find? fun entry =>
    entry.2.grantId = grantId ∧ entry.2.organizationId = organizationId

def expireForTenant (grantId organizationId : String) (expiresAtUnixMs : ℕ)
    (state : PersistedState) : Except AuthError (Bool × PersistedState) := do
  validateId organizationId
  mutateState (fun state =>
    match find grantId organizationId state with
    | none => .ok (false, state)
    | some (tokenHash, record) => do
        failIf (expiresAtUnixMs < record.issuedAtUnixMs) .invalidTtl
        return (true,
          { state with grants := state.grants.insert tokenHash { record with expiresAtUnixMs } }))
    state

def removeWorkspaceForTenant (grantId organizationId workspaceId : String)
    (state : PersistedState) : Except AuthError (Bool × PersistedState) := do
  validateId organizationId
  validateId workspaceId
  mutateState (fun state =>
    match find grantId organizationId state with
    | none => .ok (false, state)
    | some (tokenHash, record) =>
        let removed := decide (workspaceId ∈ record.workspaceIds)
        let record := { record with workspaceIds := record.workspaceIds.erase workspaceId }
        .ok (removed, { state with grants := state.grants.insert tokenHash record }))
    state

def pruneExpired (nowUnixMs : ℕ) (state : PersistedState) :
    Except AuthError (ℕ × PersistedState) :=
  mutateState (fun state =>
    let grants := state.grants.filter fun _ record =>
      decide (nowUnixMs < record.expiresAtUnixMs) && !record.revoked
    .ok (state.grants.size - grants.size, { state with grants })) state

def pruneExpiredPairings (nowUnixMs : ℕ) (state : PersistedState) :
    Except AuthError (ℕ × PersistedState) :=
  mutateState (fun state =>
    let pairings :=
      state.pairings.filter fun _ record => decide (nowUnixMs < record.expiresAtUnixMs)
    .ok (state.pairings.size - pairings.size, { state with pairings })) state

end GrantStore

/-! ### Calls and runs -/

/-- A call of a public operation, with its arguments. -/
inductive GrantStoreCall
  | openStore
  | deviceId
  | registerOauthClient (clientId : String) (redirectUris : List String) (clientName : String)
      (registeredAtUnixMs : ℕ)
  | oauthClient (clientId : String)
  | issue (actorId : String) (scopes : List String) (ttlMs nowUnixMs : ℕ)
  | issueForTenant (organizationId actorId : String) (workspaceIds scopes : List String)
      (ttlMs nowUnixMs : ℕ)
  | createPairing (scopes : List String) (pairingTtlMs grantTtlMs nowUnixMs : ℕ)
  | validate (token requiredScope : String) (nowUnixMs : ℕ)
  | redeemPairing (code actorId : String) (nowUnixMs : ℕ)
  | validateForTenant (token requiredScope organizationId : String) (workspaceId : Option String)
      (nowUnixMs : ℕ)
  | revoke (grantId : String)
  | revokeForTenant (grantId organizationId : String)
  | expireForTenant (grantId organizationId : String) (expiresAtUnixMs : ℕ)
  | removeWorkspaceForTenant (grantId organizationId workspaceId : String)
  | pruneExpired (nowUnixMs : ℕ)
  | pruneExpiredPairings (nowUnixMs : ℕ)

/-- What a call draws at random. -/
structure StoreDraws where
  deviceId : Vector UInt8 16
  tokenBytes : Vector UInt8 32
  grantId : Vector UInt8 16
  codeBytes : Vector UInt8 20
  pairingId : Vector UInt8 16

/-- The state a transaction writes. -/
def written {α : Type} (r : Except AuthError (α × PersistedState)) :
    Except AuthError PersistedState :=
  (·.2) <$> r

/-- The state a query leaves. -/
def unchanged {α : Type} (r : Except AuthError α) (state : PersistedState) :
    Except AuthError PersistedState :=
  (fun _ => state) <$> r

namespace GrantStoreCall

variable (P : Primitives)

/-- The state in the file after a call that returns Ok, on the state in the
file before it. -/
def onState (draws : StoreDraws) (state : PersistedState) :
    GrantStoreCall → Except AuthError PersistedState
  | .openStore => GrantStore.openStore draws.deviceId (some state)
  | .deviceId => unchanged (GrantStore.deviceId state) state
  | .registerOauthClient clientId redirectUris clientName at' =>
      written (GrantStore.registerOauthClient clientId redirectUris clientName at' state)
  | .oauthClient clientId => unchanged (GrantStore.oauthClient clientId state) state
  | .issue actorId scopes ttl now =>
      written (GrantStore.issue P actorId scopes ttl now draws.tokenBytes draws.grantId state)
  | .issueForTenant organizationId actorId workspaceIds scopes ttl now =>
      written (GrantStore.issueForTenant P organizationId actorId workspaceIds scopes ttl now
        draws.tokenBytes draws.grantId state)
  | .createPairing scopes pairingTtl grantTtl now =>
      written (GrantStore.createPairing P scopes pairingTtl grantTtl now draws.codeBytes
        draws.pairingId state)
  | .validate token scope now => unchanged (GrantStore.validate P token scope now state) state
  | .redeemPairing code actorId now =>
      written (GrantStore.redeemPairing P code actorId now draws.tokenBytes draws.grantId state)
  | .validateForTenant token scope organizationId workspaceId now =>
      unchanged (GrantStore.validateForTenant P token scope organizationId workspaceId now state)
        state
  | .revoke grantId => written (GrantStore.revoke grantId state)
  | .revokeForTenant grantId organizationId =>
      written (GrantStore.revokeForTenant grantId organizationId state)
  | .expireForTenant grantId organizationId expiresAt =>
      written (GrantStore.expireForTenant grantId organizationId expiresAt state)
  | .removeWorkspaceForTenant grantId organizationId workspaceId =>
      written (GrantStore.removeWorkspaceForTenant grantId organizationId workspaceId state)
  | .pruneExpired now => written (GrantStore.pruneExpired now state)
  | .pruneExpiredPairings now => written (GrantStore.pruneExpiredPairings now state)

/-- Only `open` writes a file where there is none, and `oauth_client` asks for
nobody without reading it. -/
def run (draws : StoreDraws) : GrantStoreCall → Option PersistedState →
    Except AuthError (Option PersistedState)
  | call, some state => some <$> call.onState P draws state
  | .openStore, none => some <$> GrantStore.openStore draws.deviceId none
  | .oauthClient clientId, none => if clientId.isEmpty then .ok none else .error .io
  | _, none => .error .io

/-- One call by any handle. It writes what it says, or it fails, which leaves
the file as it was, or without it, if the new file could not be put in the
place of the old one. -/
inductive Step (call : GrantStoreCall) : Option PersistedState → Option PersistedState → Prop
  | ok {file file' : Option PersistedState} (draws : StoreDraws) :
      call.run P draws file = .ok file' → Step call file file'
  | failed {file : Option PersistedState} : Step call file file
  | lost {file : Option PersistedState} : Step call file none

/-- A sequence of calls. -/
inductive Run : List GrantStoreCall → Option PersistedState → Option PersistedState → Prop
  | nil {file : Option PersistedState} : Run [] file file
  | cons {call : GrantStoreCall} {calls : List GrantStoreCall}
      {file file' file'' : Option PersistedState} :
      Step P call file file' → Run calls file' file'' → Run (call :: calls) file file''

end GrantStoreCall

/-! ### What keeps a state valid -/

theorem GrantRecord.validate_eq_ok_iff {record : GrantRecord} :
    record.validate = .ok () ↔ ValidId record.organizationId ∧ ValidId record.actorId ∧
      ∀ workspaceId ∈ record.workspaceIds, ValidId workspaceId := by
  simp only [GrantRecord.validate, validateId, bind_eq_ok, exists_unit,
    mapError_eq_ok, failIf_eq_ok, not_not]

namespace PersistedState.Valid

variable {state : PersistedState}

theorem insertGrant (h : state.Valid) (tokenHash : String) (record : GrantRecord)
    (hrecord : record.validate = .ok ()) :
    ({ state with grants := state.grants.insert tokenHash record } : PersistedState).Valid where
  version := h.version
  deviceId := h.deviceId
  grants key found hget := by
    rw [Std.ExtTreeMap.getElem?_insert] at hget
    split at hget
    · obtain rfl := Option.some.inj hget
      exact hrecord
    · exact h.grants key found hget

theorem filterGrants (h : state.Valid) (keep : String → GrantRecord → Bool) :
    ({ state with grants := state.grants.filter keep } : PersistedState).Valid where
  version := h.version
  deviceId := h.deviceId
  grants key found hget := by
    rw [Std.ExtTreeMap.getElem?_filter', Option.filter_eq_some_iff] at hget
    exact h.grants key found hget.1

/-- What is found in a valid state is a valid record. -/
theorem of_find? (h : state.Valid) {p : String × GrantRecord → Bool} {tokenHash : String}
    {record : GrantRecord} (hfind : state.grants.toList.find? p = some (tokenHash, record)) :
    record.validate = .ok () := by
  have hmem := List.mem_of_find?_eq_some hfind
  rw [Std.ExtTreeMap.mem_toList_iff_getElem?_eq_some] at hmem
  exact h.grants tokenHash record hmem

end PersistedState.Valid

namespace GrantStore

variable {P : Primitives} {state state' : PersistedState}

theorem issueForTenant_valid {organizationId actorId : String} {workspaceIds scopes : List String}
    {ttl now : ℕ} {tokenBytes : Vector UInt8 32} {grantId : Vector UInt8 16} {issued : IssuedGrant}
    (h : issueForTenant P organizationId actorId workspaceIds scopes ttl now tokenBytes grantId
      state = .ok (issued, state')) : state'.Valid := by
  simp only [issueForTenant, validateId, bind_eq_ok, exists_unit, failIf_eq_ok, mapError_eq_ok,
    mutateState_eq_ok_iff, Except.ok.injEq, Prod.mk.injEq, not_not] at h
  obtain ⟨_, horganization, hactor, hworkspaces, _, expires, _, hvalid, _, rfl⟩ := h
  refine hvalid.insertGrant _ _ ?_
  exact GrantRecord.validate_eq_ok_iff.mpr ⟨horganization, hactor, hworkspaces⟩

theorem revokeMatching_valid {grantId : String} {organizationId : Option String} {found : Bool}
    (h : revokeMatching grantId organizationId state = .ok (found, state')) : state'.Valid := by
  obtain ⟨hvalid, h⟩ := mutateState_eq_ok_iff.mp h
  split at h
  case h_1 =>
      obtain ⟨_, rfl⟩ := Prod.mk.inj (Except.ok.inj h)
      exact hvalid
  case h_2 tokenHash record hfind =>
      obtain ⟨_, rfl⟩ := Prod.mk.inj (Except.ok.inj h)
      have hrecord := hvalid.of_find? hfind
      exact hvalid.insertGrant tokenHash { record with revoked := true } hrecord

theorem expireForTenant_valid {grantId organizationId : String} {expiresAt : ℕ} {found : Bool}
    (h : expireForTenant grantId organizationId expiresAt state = .ok (found, state')) :
    state'.Valid := by
  simp only [expireForTenant, bind_eq_ok, mutateState_eq_ok_iff] at h
  obtain ⟨_, _, hvalid, h⟩ := h
  split at h
  case h_1 =>
      obtain ⟨_, rfl⟩ := Prod.mk.inj (Except.ok.inj h)
      exact hvalid
  case h_2 tokenHash record hfind =>
      simp only [bind_eq_ok, pure_eq_ok, Prod.mk.injEq] at h
      obtain ⟨_, _, _, rfl⟩ := h
      have hrecord := hvalid.of_find? hfind
      exact hvalid.insertGrant tokenHash { record with expiresAtUnixMs := expiresAt } hrecord

theorem removeWorkspaceForTenant_valid {grantId organizationId workspaceId : String} {found : Bool}
    (h : removeWorkspaceForTenant grantId organizationId workspaceId state = .ok (found, state')) :
    state'.Valid := by
  simp only [removeWorkspaceForTenant, bind_eq_ok, mutateState_eq_ok_iff] at h
  obtain ⟨_, _, _, _, hvalid, h⟩ := h
  split at h
  case h_1 =>
      obtain ⟨_, rfl⟩ := Prod.mk.inj (Except.ok.inj h)
      exact hvalid
  case h_2 tokenHash record hfind =>
      obtain ⟨_, rfl⟩ := Prod.mk.inj (Except.ok.inj h)
      obtain ⟨horganization, hactor, hworkspaces⟩ :=
        GrantRecord.validate_eq_ok_iff.mp (hvalid.of_find? hfind)
      refine hvalid.insertGrant tokenHash _ (GrantRecord.validate_eq_ok_iff.mpr
        ⟨horganization, hactor, ?_⟩)
      intro id hmem
      exact hworkspaces id (Finset.mem_of_mem_erase hmem)

/-- A redeemed pairing leaves a valid state exactly if its actor is one that
the file may hold. -/
theorem redeemPairing_valid_iff {code actorId : String} {now : ℕ} {tokenBytes : Vector UInt8 32}
    {grantId : Vector UInt8 16} {issued : IssuedGrant}
    (h : redeemPairing P code actorId now tokenBytes grantId state = .ok (issued, state')) :
    state'.Valid ↔ ValidId actorId := by
  obtain ⟨⟨_, _, hvalid⟩, pairing, _, _, _, rfl, rfl⟩ := redeemPairing_eq_ok_iff.mp h
  constructor
  · intro hvalid'
    exact (GrantRecord.validate_eq_ok_iff.mp (hvalid'.grants _ _
      Std.ExtTreeMap.getElem?_insert_self)).2.1
  · intro hactor
    have hrecord : (redeemedGrant pairing actorId now grantId).validate = .ok () :=
      GrantRecord.validate_eq_ok_iff.mpr
        ⟨show ValidId "local" by decide, hactor, by simp [redeemedGrant]⟩
    obtain ⟨hversion, hdevice, hgrants⟩ := hvalid.insertGrant
      (tokenHashHex P (Base64.encodeUrlSafe tokenBytes.toList)) _ hrecord
    exact ⟨hversion, hdevice, hgrants⟩

end GrantStore

namespace GrantStoreCall

variable {P : Primitives} {draws : StoreDraws} {call : GrantStoreCall}
  {state state' : PersistedState}

theorem written_eq_ok {α : Type} {r : Except AuthError (α × PersistedState)} :
    written r = .ok state' ↔ ∃ a, r = .ok (a, state') := by
  simp only [written, map_eq_ok, Prod.exists, exists_eq_right]

/-- The actors that a call has a grant written for without checking them are
ones that the file may hold. -/
def NamesActor (call : GrantStoreCall) : Prop :=
  ∀ code actorId now, call = .redeemPairing code actorId now → ValidId actorId

theorem namesActor_redeemPairing {code actorId : String} {now : ℕ} :
    (redeemPairing code actorId now).NamesActor ↔ ValidId actorId := by
  constructor
  · exact fun h => h code actorId now rfl
  · rintro h _ _ _ ⟨rfl, rfl, rfl⟩
    exact h

/-- What a call that returns Ok leaves in the file is valid exactly if the
call names such an actor. -/
theorem onState_valid_iff (hvalid : state.Valid) (h : call.onState P draws state = .ok state') :
    state'.Valid ↔ call.NamesActor := by
  cases call with
  | redeemPairing code actorId now =>
      obtain ⟨issued, hredeem⟩ := written_eq_ok.mp h
      rw [namesActor_redeemPairing]
      exact GrantStore.redeemPairing_valid_iff hredeem
  | openStore =>
      refine iff_of_true ?_ (by rintro _ _ _ ⟨⟩)
      simp only [onState, GrantStore.openStore, bind_eq_ok, pure_eq_ok] at h
      obtain ⟨_, _, _, _, rfl⟩ := h
      exact hvalid
  | deviceId | oauthClient | validate | validateForTenant =>
      refine iff_of_true ?_ (by rintro _ _ _ ⟨⟩)
      obtain ⟨_, _, rfl⟩ := map_eq_ok.mp h
      exact hvalid
  | registerOauthClient clientId redirectUris clientName at' =>
      refine iff_of_true ?_ (by rintro _ _ _ ⟨⟩)
      obtain ⟨record, hregister⟩ := written_eq_ok.mp h
      simp only [GrantStore.registerOauthClient, bind_eq_ok, GrantStore.mutateState_eq_ok_iff,
        Except.ok.injEq, Prod.mk.injEq] at hregister
      obtain ⟨_, _, _, _, rfl⟩ := hregister
      exact ⟨hvalid.version, hvalid.deviceId, hvalid.grants⟩
  | issue | issueForTenant =>
      refine iff_of_true ?_ (by rintro _ _ _ ⟨⟩)
      obtain ⟨issued, hissue⟩ := written_eq_ok.mp h
      exact GrantStore.issueForTenant_valid hissue
  | createPairing scopes pairingTtl grantTtl now =>
      refine iff_of_true ?_ (by rintro _ _ _ ⟨⟩)
      obtain ⟨issued, hcreate⟩ := written_eq_ok.mp h
      obtain ⟨_, _, rfl⟩ := GrantStore.createPairing_eq_ok_iff.mp hcreate
      exact ⟨hvalid.version, hvalid.deviceId, hvalid.grants⟩
  | revoke grantId =>
      refine iff_of_true ?_ (by rintro _ _ _ ⟨⟩)
      obtain ⟨found, hrevoke⟩ := written_eq_ok.mp h
      exact GrantStore.revokeMatching_valid hrevoke
  | revokeForTenant grantId organizationId =>
      refine iff_of_true ?_ (by rintro _ _ _ ⟨⟩)
      obtain ⟨found, hrevoke⟩ := written_eq_ok.mp h
      obtain ⟨_, _, hrevoke⟩ := bind_eq_ok.mp hrevoke
      exact GrantStore.revokeMatching_valid hrevoke
  | expireForTenant grantId organizationId expiresAt =>
      refine iff_of_true ?_ (by rintro _ _ _ ⟨⟩)
      obtain ⟨found, hexpire⟩ := written_eq_ok.mp h
      exact GrantStore.expireForTenant_valid hexpire
  | removeWorkspaceForTenant grantId organizationId workspaceId =>
      refine iff_of_true ?_ (by rintro _ _ _ ⟨⟩)
      obtain ⟨found, hremove⟩ := written_eq_ok.mp h
      exact GrantStore.removeWorkspaceForTenant_valid hremove
  | pruneExpired now =>
      refine iff_of_true ?_ (by rintro _ _ _ ⟨⟩)
      obtain ⟨removed, hprune⟩ := written_eq_ok.mp h
      obtain ⟨_, hprune⟩ := GrantStore.mutateState_eq_ok_iff.mp hprune
      obtain ⟨_, rfl⟩ := Prod.mk.inj (Except.ok.inj hprune)
      exact hvalid.filterGrants _
  | pruneExpiredPairings now =>
      refine iff_of_true ?_ (by rintro _ _ _ ⟨⟩)
      obtain ⟨removed, hprune⟩ := written_eq_ok.mp h
      obtain ⟨_, hprune⟩ := GrantStore.mutateState_eq_ok_iff.mp hprune
      obtain ⟨_, rfl⟩ := Prod.mk.inj (Except.ok.inj hprune)
      exact ⟨hvalid.version, hvalid.deviceId, hvalid.grants⟩

/-- A device has a name. -/
theorem openStore_valid (deviceId : Vector UInt8 16) :
    ({ version := 1, deviceId := hexEncode deviceId.toList } : PersistedState).Valid where
  version := rfl
  deviceId := by
    intro h
    have hlength := congrArg (fun s : String => s.toList.length) h
    simp [hexEncode] at hlength
  grants tokenHash record hget := by simp at hget

/-- The file is absent, or its state is valid. -/
def FileValid (file : Option PersistedState) : Prop := ∀ state, file = some state → state.Valid

/-- One call keeps the file valid. -/
theorem Step.fileValid {file file' : Option PersistedState} (hstep : Step P call file file')
    (hfile : FileValid file) (hactor : call.NamesActor) : FileValid file' := by
  intro state' hstate'
  cases hstep with
  | failed => exact hfile state' hstate'
  | lost => cases hstate'
  | ok draws hrun =>
      cases file with
      | some state =>
          simp only [GrantStoreCall.run, map_eq_ok] at hrun
          obtain ⟨written, hrun, rfl⟩ := hrun
          obtain rfl := Option.some.inj hstate'
          exact (onState_valid_iff (hfile state rfl) hrun).mpr hactor
      | none =>
          cases call with
          | openStore =>
              simp only [GrantStoreCall.run, GrantStore.openStore, map_eq_ok,
                Except.ok.injEq] at hrun
              obtain ⟨_, rfl, rfl⟩ := hrun
              obtain rfl := Option.some.inj hstate'
              exact openStore_valid draws.deviceId
          | oauthClient clientId =>
              simp only [GrantStoreCall.run] at hrun
              split at hrun
              · obtain rfl := Except.ok.inj hrun
                cases hstate'
              · cases hrun
          | _ => cases hrun

/-- In a run in which every redeemed pairing names an actor that the file may
hold, every state that is written is one that will be accepted when it is
read. -/
theorem run_fileValid {calls : List GrantStoreCall} {file file' : Option PersistedState}
    (hrun : Run P calls file file') (hfile : FileValid file)
    (hactors : ∀ call ∈ calls, call.NamesActor) :
    ∀ state', file' = some state' → validatePersistedState state' = .ok () := by
  suffices h : FileValid file' from
    fun state' hstate' => validatePersistedState_eq_ok_iff.mpr (h state' hstate')
  induction hrun with
  | nil => exact hfile
  | cons hstep _ ih =>
      rw [List.forall_mem_cons] at hactors
      exact ih (hstep.fileValid hfile hactors.1) hactors.2

end GrantStoreCall

/-! ### A store whose first pairing is redeemed -/

namespace GrantStoreSample

def draws : StoreDraws where
  deviceId := Vector.replicate 16 0
  tokenBytes := Vector.replicate 32 3
  grantId := Vector.replicate 16 4
  codeBytes := Vector.replicate 20 1
  pairingId := Vector.replicate 16 2

def code : String := Base64.encodeUrlSafe draws.codeBytes.toList

def opened : PersistedState := { version := 1, deviceId := hexEncode draws.deviceId.toList }

def pairing : PairingRecord := GrantStore.pairingRecord ["mcp"] 1000 1000 10 draws.pairingId

def paired : PersistedState :=
  { opened with
    pairings := (∅ : Std.ExtTreeMap String PairingRecord).insert
      (GrantStore.tokenHashHex reference code) pairing }

/-- A pairing is created in a new file and redeemed. -/
def calls (actorId : String) : List GrantStoreCall :=
  [.openStore, .createPairing ["mcp"] 1000 1000 10, .redeemPairing code actorId 10]

open GrantStoreCall in
/-- The calls all return Ok, and leave a state that is as valid as the actor. -/
theorem run_calls {actorId : String} (hactor : isBlank actorId = false) :
    ∃ state, Run reference (calls actorId) none (some state) ∧
      (validatePersistedState state = .ok () ↔ ValidId actorId) := by
  have hopened : opened.Valid := openStore_valid draws.deviceId
  have hpaired : paired.Valid := ⟨hopened.version, hopened.deviceId, hopened.grants⟩
  have hcreate : (createPairing ["mcp"] 1000 1000 10).onState reference draws opened =
      .ok paired :=
    written_eq_ok.mpr ⟨⟨code, pairing⟩, GrantStore.createPairing_eq_ok_iff.mpr
      ⟨⟨by decide, by decide, by decide, by decide, hopened⟩, rfl, rfl⟩⟩
  obtain ⟨state, hredeem⟩ :
      ∃ state, (redeemPairing code actorId 10).onState reference draws paired = .ok state :=
    ⟨_, written_eq_ok.mpr ⟨⟨_, _⟩, GrantStore.redeemPairing_eq_ok_iff.mpr
      ⟨⟨by decide, hactor, hpaired⟩, pairing, by simp [paired], by decide, by decide, rfl, rfl⟩⟩⟩
  have hopen : Step reference openStore none (some opened) := .ok draws rfl
  have hpair : Step reference (createPairing ["mcp"] 1000 1000 10) (some opened) (some paired) :=
    .ok draws (by rw [GrantStoreCall.run, hcreate]; rfl)
  have hgrant : Step reference (redeemPairing code actorId 10) (some paired) (some state) :=
    .ok draws (by rw [GrantStoreCall.run, hredeem]; rfl)
  refine ⟨state, .cons hopen (.cons hpair (.cons hgrant .nil)), ?_⟩
  rw [validatePersistedState_eq_ok_iff, onState_valid_iff hpaired hredeem,
    namesActor_redeemPairing]

end GrantStoreSample

open GrantStoreCall in
/-- An actor with a line break is accepted for a grant that no operation will
read again. -/
theorem redeemed_line_break :
    ∃ state, Run reference (GrantStoreSample.calls "agent\n") none (some state) ∧
      validatePersistedState state ≠ .ok () := by
  obtain ⟨state, hrun, hvalid⟩ :=
    GrantStoreSample.run_calls (show isBlank "agent\n" = false by decide)
  exact ⟨state, hrun, fun h => absurd (hvalid.mp h) (by decide)⟩

open GrantStoreCall in
/-- A pairing is redeemed for an actor that the file may hold. -/
theorem run_fileValid_agent :
    ∃ state, Run reference (GrantStoreSample.calls "agent") none (some state) ∧
      validatePersistedState state = .ok () := by
  obtain ⟨state, hrun, _⟩ := GrantStoreSample.run_calls (show isBlank "agent" = false by decide)
  refine ⟨state, hrun, run_fileValid hrun (by rintro _ ⟨⟩) ?_ state rfl⟩
  intro call hcall
  simp only [GrantStoreSample.calls, List.mem_cons, List.not_mem_nil, or_false] at hcall
  rcases hcall with rfl | rfl | rfl
  · rintro _ _ _ ⟨⟩
  · rintro _ _ _ ⟨⟩
  · exact namesActor_redeemPairing.mpr (by decide)

end VorCommander
