import VorCommander.Gateway.Runs

/-!
A gateway whose file and clock work.

`workingGateway` answers every operation at once: what is drawn at random and
the time are fixed by a `Draws`, and everything else is computed from the file
and the codes in memory.
-/

namespace VorCommander

open Crypto Steps Steps.Program Steps.World Text GatewayEvent

/-- The time, and what is drawn. -/
structure Draws where
  nowUnixMs : ℕ
  secret : String
  codeBytes : Vector UInt8 20
  pairingId : Vector UInt8 16
  tokenBytes : Vector UInt8 32
  grantId : Vector UInt8 16

/-- A transaction on the file; one that fails leaves it as it is. -/
def GatewayState.transact {α : Type} (s : GatewayState)
    (mutate : PersistedState → Except AuthError (α × PersistedState)) :
    Except AuthError α × GatewayState :=
  match s.file with
  | none => (.error .invalidState, s)
  | some state =>
      match mutate state with
      | .ok (a, state') => (.ok a, { s with file := some state' })
      | .error e => (.error e, s)

/-- A query of the file. -/
def GatewayState.query {α : Type} (s : GatewayState)
    (query : PersistedState → Except AuthError α) : Except AuthError α × GatewayState :=
  match s.file with
  | none => (.error .invalidState, s)
  | some state => (query state, s)

theorem GatewayState.mutates_transact {α : Type} (s : GatewayState)
    (mutate : PersistedState → Except AuthError (α × PersistedState)) :
    s.mutates (s.transact mutate).2 (s.transact mutate).1 mutate := by
  unfold GatewayState.transact
  cases hfile : s.file with
  | none => exact ⟨rfl, .inl rfl⟩
  | some state =>
      simp only []
      cases hmutate : mutate state with
      | error e => exact ⟨rfl, .inl rfl⟩
      | ok result => exact ⟨rfl, state, result.2, hfile, hmutate, rfl⟩

theorem GatewayState.reads_query {α : Type} (s : GatewayState)
    (query : PersistedState → Except AuthError α) :
    s.reads (s.query query).2 (s.query query).1 query := by
  unfold GatewayState.query
  cases hfile : s.file with
  | none => exact ⟨rfl, by simp⟩
  | some state => exact ⟨rfl, fun a ha => ⟨state, hfile, ha⟩⟩

/-- The answers of a gateway whose file can be read and written. -/
def workingGateway (P : Primitives) (o : Draws) : Handler Gateway GatewayState where
  answer s
    | .clock => (.ok o.nowUnixMs, s)
    | .randomSecret => (o.secret, s)
    | .registerOauthClient clientId redirectUris clientName at' =>
        s.transact (GrantStore.registerOauthClient clientId redirectUris clientName at')
    | .oauthClient clientId => s.query (GrantStore.oauthClient clientId)
    | .validate token scope now => s.query (GrantStore.validate P token scope now)
    | .createPairing scopes pairingTtl grantTtl now =>
        s.transact
          (GrantStore.createPairing P scopes pairingTtl grantTtl now o.codeBytes o.pairingId)
    | .redeemPairing code actorId now =>
        s.transact (GrantStore.redeemPairing P code actorId now o.tokenBytes o.grantId)
    | .revokeForTenant grantId organizationId =>
        s.transact (GrantStore.revokeForTenant grantId organizationId)
    | .verifyContext _ _ => (.ok (), s)
    | .insertCode codeHash record now => (.ok (), { s with
        codes := (s.codes.filter fun _ item => now < item.expiresAtUnixMs).insert codeHash record })
    | .removeCode codeHash =>
        (.ok s.codes[codeHash]?, { s with codes := s.codes.erase codeHash })
    | .restart => ((), { s with codes := ∅ })

/-- Such a gateway is one of the ways a gateway can behave. -/
theorem workingGateway_sound (P : Primitives) (config : GatewayConfig) (o : Draws) :
    (workingGateway P o).Sound (gatewaySystem P config) := by
  intro s op
  cases op with
  | clock | randomSecret | verifyContext | insertCode => rfl
  | oauthClient | validate => exact GatewayState.reads_query s _
  | registerOauthClient | revokeForTenant => exact GatewayState.mutates_transact s _
  | createPairing => exact ⟨o.codeBytes, o.pairingId, GatewayState.mutates_transact s _⟩
  | redeemPairing => exact ⟨o.tokenBytes, o.grantId, GatewayState.mutates_transact s _⟩
  | removeCode => exact ⟨rfl, rfl⟩
  | restart => exact ⟨rfl, .inl rfl⟩

section Transactions

variable {α : Type} {s : GatewayState} {state state' : PersistedState}

theorem GatewayState.transact_eq_ok {a : α}
    {mutate : PersistedState → Except AuthError (α × PersistedState)}
    (hfile : s.file = some state) (h : mutate state = .ok (a, state')) :
    s.transact mutate = (.ok a, { s with file := some state' }) := by
  simp only [GatewayState.transact, hfile, h]

theorem GatewayState.query_eq_ok {a : α} {query : PersistedState → Except AuthError α}
    (hfile : s.file = some state) (h : query state = .ok a) : s.query query = (.ok a, s) := by
  simp only [GatewayState.query, hfile, h]

end Transactions

/-! ### The runs of single operations -/

section Exec

variable {P : Primitives} {o : Draws} {s s' : GatewayState} {h : History Gateway}

theorem exec_clock : exec (workingGateway P o).recording Gateway.clock.run (s, h) =
    (.ok o.nowUnixMs, (s, ⟨.clock, Except.ok o.nowUnixMs⟩ :: h)) := rfl

theorem exec_oauthClient {clientId : String} {found : Option OAuthClientRecord}
    (hquery : s.query (GrantStore.oauthClient clientId) = (.ok found, s)) :
    exec (workingGateway P o).recording (Gateway.oauthClient clientId).run (s, h) =
      (.ok found, (s, ⟨.oauthClient clientId, Except.ok found⟩ :: h)) :=
  exec_recording_call (I := Gateway) (.oauthClient clientId) id hquery

theorem exec_validate {token scope : String} {now : ℕ} {record : GrantRecord}
    (hquery : s.query (GrantStore.validate P token scope now) = (.ok record, s)) :
    exec (workingGateway P o).recording (Gateway.validate token scope now).run (s, h) =
      (.ok record, (s, validated token scope now record :: h)) :=
  exec_recording_call (I := Gateway) (.validate token scope now) id hquery

theorem exec_createPairing {scopes : List String} {pairingTtl grantTtl now : ℕ}
    {issued : IssuedPairing}
    (hcreate : s.transact (GrantStore.createPairing P scopes pairingTtl grantTtl now o.codeBytes
      o.pairingId) = (.ok issued, s')) :
    exec (workingGateway P o).recording (Gateway.createPairing scopes pairingTtl grantTtl now).run
        (s, h) =
      (.ok issued, (s', created scopes pairingTtl grantTtl now issued :: h)) :=
  exec_recording_call (I := Gateway) (.createPairing scopes pairingTtl grantTtl now) id hcreate

theorem exec_redeemPairing {code actorId : String} {now : ℕ} {issued : IssuedGrant}
    (hredeem : s.transact (GrantStore.redeemPairing P code actorId now o.tokenBytes o.grantId) =
      (.ok issued, s')) :
    exec (workingGateway P o).recording (Gateway.redeemPairing code actorId now).run (s, h) =
      (.ok issued, (s', redeemed code actorId now issued :: h)) :=
  exec_recording_call (I := Gateway) (.redeemPairing code actorId now) id hredeem

theorem exec_insertCode {codeHash : String} {record : AuthorizationCodeRecord} {now : ℕ} :
    exec (workingGateway P o).recording (Gateway.insertCode codeHash record now).run (s, h) =
      (.ok (), ({ s with
        codes := (s.codes.filter fun _ item => now < item.expiresAtUnixMs).insert codeHash record },
        recorded codeHash record now :: h)) := rfl

theorem exec_removeCode {codeHash : String} :
    exec (workingGateway P o).recording (Gateway.removeCode codeHash).run (s, h) =
      (.ok s.codes[codeHash]?, ({ s with codes := s.codes.erase codeHash },
        ⟨.removeCode codeHash, Except.ok s.codes[codeHash]?⟩ :: h)) := rfl

end Exec

section After

variable {P : Primitives} {config : GatewayConfig} {o : Draws} {w : World (gatewaySystem P config)}
  {i : ℕ} {request : GatewayRequest} {result : Except Response Response} {s' : GatewayState}
  {h : History Gateway}

/-- What a request that is handled alone leaves. -/
theorem after_request (hrun : exec (workingGateway P o).recording
      (Routes.handle P config request).run (w.shared, []) = (result, (s', h))) :
    (w.after (workingGateway P o) i (.request request)).shared = s' ∧
      (w.after (workingGateway P o) i (.request request)).log = h.map (i, ·) ++ w.log := by
  simp only [World.after, gatewaySystem, exec_map, hrun, and_self]

/-- What is handled after one more request. -/
theorem after_handles (j : ℕ) (r : GatewayRequest) :
    (∃ c, (w.after (workingGateway P o) i (.request request)).calls j = some c ∧
      c.entry = .request r) ↔
    if j = i then r = request else ∃ c, w.calls j = some c ∧ c.entry = .request r := by
  by_cases hj : j = i
  · subst hj
    simp only [World.after, Function.update_self, Option.some.injEq, if_pos]
    constructor
    · rintro ⟨_, rfl, hentry⟩
      exact (GatewayEntry.request.inj hentry).symm
    · rintro rfl
      exact ⟨_, rfl, rfl⟩
  · simp [World.after, hj]

end After

/-! ### A gateway with one owner and one client -/

namespace GatewaySample

def draws : Draws where
  nowUnixMs := 10
  secret := "client"
  codeBytes := Vector.replicate 20 1
  pairingId := Vector.replicate 16 2
  tokenBytes := Vector.replicate 32 3
  grantId := Vector.replicate 16 4

def redirectUri : String := "https://client.example/callback"

/-- A gateway without tenants that can read one URL. -/
def config : GatewayConfig where
  parseUrl url :=
    if url = redirectUri then
      some { scheme := "https", host := some "client.example", username := "", password := none,
             fragment := none }
    else none
  tenants := false
  deviceId := "device"

def owner : GrantRecord where
  grantId := "owner"
  organizationId := "local"
  actorId := "local-pilot"
  workspaceIds := ∅
  scopes := {"mcp", "admin"}
  issuedAtUnixMs := 0
  expiresAtUnixMs := 1000
  revoked := false

def client : OAuthClientRecord where
  redirectUris := [redirectUri]
  clientName := "MCP Client"
  registeredAtUnixMs := 0

/-- The file with the owner's grant and one client. -/
def store : PersistedState where
  version := 1
  deviceId := "device"
  grants := (∅ : Std.ExtTreeMap String GrantRecord).insert
    (GrantStore.tokenHashHex reference "owner-token") owner
  oauthClients := (∅ : Std.ExtTreeMap String OAuthClientRecord).insert "client" client

/-- The code that is drawn. -/
def code : String := Base64.encodeUrlSafe draws.codeBytes.toList

/-- The file with a pairing under that code. -/
def paired (pairing : PairingRecord) : PersistedState :=
  { store with
    pairings := (∅ : Std.ExtTreeMap String PairingRecord).insert
      (GrantStore.tokenHashHex reference code) pairing }

/-- The gateway before the first request. -/
def freshWorld : World (gatewaySystem reference config) :=
  initial (S := gatewaySystem reference config) (GatewayState.mk (some store) ∅)

theorem freshWorld_reachable : Reachable noCodes anyEntry freshWorld := reachable_initial rfl

theorem store_valid : store.Valid where
  version := rfl
  deviceId := by decide
  grants tokenHash record hget := by
    rw [store, Std.ExtTreeMap.getElem?_insert] at hget
    split at hget
    · obtain rfl := Option.some.inj hget
      decide
    · simp at hget

theorem paired_valid (pairing : PairingRecord) : (paired pairing).Valid :=
  ⟨store_valid.version, store_valid.deviceId, store_valid.grants⟩

section Transactions

variable {s : GatewayState}

theorem query_client (hs : s.file = some store) :
    s.query (GrantStore.oauthClient "client") = (.ok (some client), s) := by
  apply GatewayState.query_eq_ok hs
  rw [GrantStore.oauthClient, if_neg (by decide), GrantStore.readState_eq_ok_iff]
  exact ⟨store_valid, by simp [store]⟩

theorem query_owner (hs : s.file = some store) {scope : String} (hscope : scope ∈ owner.scopes) :
    s.query (GrantStore.validate reference "owner-token" scope 10) = (.ok owner, s) := by
  apply GatewayState.query_eq_ok hs
  have hne : scope ≠ "" := by
    rintro rfl
    exact absurd hscope (by decide)
  exact GrantStore.validate_eq_ok_iff.mpr
    ⟨⟨by decide, hne, store_valid⟩, by simp [store], rfl, by decide, .inl hscope⟩

theorem transact_create (hs : s.file = some store) {scopes : List String}
    {pairingTtl grantTtl : ℕ} (hscopes : nonBlank scopes ≠ ∅)
    (httl : pairingTtl ≠ 0 ∧ grantTtl ≠ 0 ∧ 10 + pairingTtl < 2 ^ 64) :
    s.transact (GrantStore.createPairing reference scopes pairingTtl grantTtl 10 draws.codeBytes
      draws.pairingId) =
    (.ok ⟨code, GrantStore.pairingRecord scopes pairingTtl grantTtl 10 draws.pairingId⟩,
      { s with
        file :=
          some (paired (GrantStore.pairingRecord scopes pairingTtl grantTtl 10 draws.pairingId))
            }) := by
  apply GatewayState.transact_eq_ok hs
  exact GrantStore.createPairing_eq_ok_iff.mpr
    ⟨⟨httl.1, httl.2.1, hscopes, httl.2.2, store_valid⟩, rfl, rfl⟩

/-- What the code redeems. -/
def redeemedGrant (pairing : PairingRecord) (actorId : String) : IssuedGrant :=
  ⟨Base64.encodeUrlSafe draws.tokenBytes.toList,
    GrantStore.redeemedGrant pairing actorId 10 draws.grantId⟩

theorem transact_redeem (pairing : PairingRecord) (hs : s.file = some (paired pairing))
    (hfresh : 10 < pairing.expiresAtUnixMs) (httl : 10 + pairing.grantTtlMs < 2 ^ 64)
    {actorId : String} (hactor : isBlank actorId = false) :
    ∃ state', s.transact (GrantStore.redeemPairing reference code actorId 10 draws.tokenBytes
        draws.grantId) = (.ok (redeemedGrant pairing actorId), { s with file := some state' }) := by
  refine ⟨_, GatewayState.transact_eq_ok hs (GrantStore.redeemPairing_eq_ok_iff.mpr
    ⟨⟨by decide, hactor, paired_valid pairing⟩, pairing, ?_, hfresh, httl, rfl, rfl⟩)⟩
  simp [paired]

end Transactions

end GatewaySample

end VorCommander
