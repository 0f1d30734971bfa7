import VorCommander.Gateway.Routes
import VorCommander.Steps.Schedule

/-!
Runs of a gateway that answers any number of requests at once.

`Commits` is the effect of one operation on the file of grants and on the
codes in memory. A transaction on the file writes what it returns; when it
fails the file is as it was, or gone, if the old file had been removed and the
new one could not be put in its place. `Route.Guarantee` says what a handler
has established when it records, creates or redeems a code, and
`GatewayInvariant` connects codes and pairings with the log.
-/

namespace VorCommander

open Crypto Steps Steps.Program Steps.World Text

/-- The file of grants, if there is one, and the authorization codes. -/
structure GatewayState where
  file : Option PersistedState
  codes : Std.ExtTreeMap String AuthorizationCodeRecord := ∅

namespace GatewayState

variable (s s' : GatewayState)

/-- The effect of a transaction on the file. -/
def mutates {α : Type} (reply : Except AuthError α)
    (mutate : PersistedState → Except AuthError (α × PersistedState)) : Prop :=
  s'.codes = s.codes ∧
    match reply with
    | .ok a => ∃ state state', s.file = some state ∧ mutate state = .ok (a, state') ∧
        s'.file = some state'
    | .error _ => s'.file = s.file ∨ s'.file = none

/-- The effect of a query. -/
def reads {α : Type} (reply : Except AuthError α) (query : PersistedState → Except AuthError α) :
    Prop :=
  s' = s ∧ ∀ a, reply = .ok a → ∃ state, s.file = some state ∧ query state = .ok a

end GatewayState

/-- The effect of an operation with a given reply. -/
def GatewayOp.Commits (P : Primitives) (s : GatewayState) :
    (op : GatewayOp) → op.Reply → GatewayState → Prop
  | .clock, _, s' => s' = s
  | .randomSecret, _, s' => s' = s
  | .registerOauthClient clientId redirectUris clientName at', reply, s' =>
      s.mutates s' reply (GrantStore.registerOauthClient clientId redirectUris clientName at')
  | .oauthClient clientId, reply, s' => s.reads s' reply (GrantStore.oauthClient clientId)
  | .validate token scope now, reply, s' => s.reads s' reply (GrantStore.validate P token scope now)
  | .createPairing scopes pairingTtl grantTtl now, reply, s' =>
      ∃ codeBytes pairingId, s.mutates s' reply
        (GrantStore.createPairing P scopes pairingTtl grantTtl now codeBytes pairingId)
  | .redeemPairing code actorId now, reply, s' =>
      ∃ tokenBytes grantId, s.mutates s' reply
        (GrantStore.redeemPairing P code actorId now tokenBytes grantId)
  | .revokeForTenant grantId organizationId, reply, s' =>
      s.mutates s' reply (GrantStore.revokeForTenant grantId organizationId)
  | .verifyContext _ _, _, s' => s' = s
  | .insertCode codeHash record now, reply, s' =>
      match reply with
      | .ok () => s' = { s with
          codes :=
            (s.codes.filter fun _ item => now < item.expiresAtUnixMs).insert codeHash record }
      | .error () => s' = s
  | .removeCode codeHash, reply, s' =>
      match reply with
      | .ok found => found = s.codes[codeHash]? ∧ s' = { s with codes := s.codes.erase codeHash }
      | .error () => s' = s
  | .restart, _, s' => s'.codes = ∅ ∧
      (s'.file = s.file ∨
        s.file = none ∧ ∃ deviceId, s'.file = some { version := 1, deviceId })

/-- What can be started: the handler of a request, or the gateway again. -/
inductive GatewayEntry
  | request (request : GatewayRequest)
  | restart

/-- The gateway. -/
def gatewaySystem (P : Primitives) (config : GatewayConfig) : System Gateway where
  State := GatewayState
  Entry := GatewayEntry
  Result := Option (Except Response Response)
  body
    | .request request => some <$> (Routes.handle P config request).run
    | .restart => .step (I := Gateway) .restart fun _ => .done none
  Commit s e s' := e.op.Commits P s e.reply s'

/-- A gateway that has just been started. -/
def noCodes (s : GatewayState) : Prop := s.codes = ∅

/-! ### What a handler has established -/

namespace GatewayEvent

abbrev validated (token scope : String) (now : ℕ) (record : GrantRecord) : Event Gateway :=
  ⟨.validate token scope now, Except.ok record⟩

abbrev created (scopes : List String) (pairingTtl grantTtl now : ℕ) (issued : IssuedPairing) :
    Event Gateway :=
  ⟨.createPairing scopes pairingTtl grantTtl now, Except.ok issued⟩

abbrev recorded (codeHash : String) (record : AuthorizationCodeRecord) (now : ℕ) : Event Gateway :=
  ⟨.insertCode codeHash record now, Except.ok ()⟩

abbrev removed (codeHash : String) (record : AuthorizationCodeRecord) : Event Gateway :=
  ⟨.removeCode codeHash, Except.ok (some record)⟩

abbrev redeemed (code actorId : String) (now : ℕ) (issued : IssuedGrant) : Event Gateway :=
  ⟨.redeemPairing code actorId now, Except.ok issued⟩

end GatewayEvent

open GatewayEvent

/-- The owner has asked for an authorization, and a code has been minted for
the request. -/
structure Authorizing (h : History Gateway) (form : AuthorizeForm) (scopes : List String)
    (owner : GrantRecord) (issued : IssuedPairing) (now : ℕ) : Prop where
  isOwner : owner.actorId = "local-pilot"
  letIn : validated form.ownerToken "mcp" now owner ∈ h
  minted : created scopes OAuth.codeTtlMs OAuth.accessTtlMs now issued ∈ h

/-- The exchange of a code: everything that was recorded for it has been
presented, and the code has been taken out of the memory. -/
structure Exchanging (P : Primitives) (h : History Gateway) (form : TokenForm) (code : String)
    (record : AuthorizationCodeRecord) : Prop where
  presented : form.code = some code
  clientId : form.clientId = some record.clientId
  redirectUri : form.redirectUri = some record.redirectUri
  verifier : ∃ verifier, form.codeVerifier = some verifier ∧
    OAuth.verifyPkce P verifier record.codeChallenge = true
  taken : removed (OAuth.secretHash P code) record ∈ h

/-- The bearer of a grant with the required scope has been let in. -/
def LetIn (h : History Gateway) (authorization : Option String) (requiredScope : String)
    (grant : GrantRecord) : Prop :=
  ∃ token now, bearerToken authorization = some token ∧
    validated token requiredScope now grant ∈ h

/-- What a request has established when its handler performs an operation. -/
def Route.Guarantee (P : Primitives) (request : GatewayRequest) (h : History Gateway) :
    GatewayOp → Prop
  | .createPairing scopes pairingTtl grantTtl _ =>
      (∃ form, request = .authorizePost form) ∨
        ∃ authorization body admin, request = .createPairing authorization body ∧
          LetIn h authorization "admin" admin ∧ scopes = body.scopes ∧
          pairingTtl = body.pairingTtlSeconds.getD 300 * 1000 ∧
          grantTtl = body.grantTtlSeconds.getD 3600 * 1000
  | .insertCode codeHash record now =>
      ∃ form scopes owner issued, request = .authorizePost form ∧
        Authorizing h form scopes owner issued now ∧
        codeHash = OAuth.secretHash P issued.code ∧
        record = Routes.codeRecord form scopes owner now
  | .redeemPairing code actorId _ =>
      (∃ body, request = .redeemPairing body ∧ code = body.code ∧ actorId = body.actorId) ∨
        ∃ form record, request = .token form ∧ Exchanging P h form code record ∧
          actorId = record.actorId
  | _ => True

/-- The same, of what can be started. -/
def GatewayEntry.Guarantee (P : Primitives) : GatewayEntry → History Gateway → GatewayOp → Prop
  | .request r, h, op => Route.Guarantee P r h op
  | .restart, _, op => op = .restart

section Safety

variable {P : Primitives} {config : GatewayConfig} {h : History Gateway}

/-- Operations for which a handler owes nothing. -/
def GatewayOp.isFree : GatewayOp → Bool
  | .createPairing _ _ _ _ => false
  | .insertCode _ _ _ => false
  | .redeemPairing _ _ _ => false
  | _ => true

theorem Route.Guarantee.free {request : GatewayRequest} {op : GatewayOp} (hop : op.isFree) :
    Route.Guarantee P request h op := by
  cases op <;> trivial

variable {G : History Gateway → GatewayOp → Prop}

namespace Routes

/-- Validating an authorization only reads. -/
theorem validateAuthorization_safe (hG : ∀ h op, op.isFree → G h op)
    (clientId redirectUri responseType codeChallenge method : String)
    (scope resource : Option String) :
    Safe (I := Gateway) (fun _ _ => True) G (fun _ _ => True)
      (validateAuthorization clientId redirectUri responseType codeChallenge method scope
        resource).run h := by
  simp only [validateAuthorization, safe_exceptT_bind, safe_check, then_failIf, then_orFail,
    safe_exceptT_adapt, safe_oauthClient, forall_except, mapError_ok, mapError_error, then_ok,
    then_error, safe_exceptT_pure, implies_true, and_true, true_and]
  exact fun _ _ => hG _ _ rfl

/-- `require_grant` lets in only whom the store validates for the scope. -/
theorem requireGrant_safe (hG : ∀ h op, op.isFree → G h op) (authorization : Option String)
    (requiredScope : String) (role : TenantRole) :
    Safe (I := Gateway) (fun _ _ => True) G
      (fun h' r => ∀ grant, r = .ok grant → LetIn h' authorization requiredScope grant)
      (requireGrant config authorization requiredScope role).run h := by
  simp only [requireGrant, safe_exceptT_bind, safe_check, then_orFail]
  refine ⟨by simp, fun token htoken => ?_⟩
  simp only [safe_exceptT_bind, now, orAnswer, safe_exceptT_adapt, safe_clock, forall_except,
    mapError_ok, mapError_error, then_ok, then_error, safe_validate, reduceCtorEq, false_implies,
    implies_true, true_and]
  refine ⟨hG _ _ rfl, fun nowUnixMs _ => ⟨hG _ _ rfl, fun record _ => ?_⟩⟩
  split
  · simp only [safe_exceptT_bind, safe_exceptT_adapt, safe_verifyContext, forall_except,
      mapError_ok, mapError_error, then_ok, then_error, safe_exceptT_pure, reduceCtorEq,
      false_implies, implies_true, true_and, Except.ok.injEq]
    refine ⟨hG _ _ rfl, ?_⟩
    rintro _ _ grant rfl
    exact ⟨token, nowUnixMs, htoken, by simp⟩
  · rw [safe_exceptT_pure]
    rintro grant hrecord
    obtain rfl := Except.ok.inj hrecord
    exact ⟨token, nowUnixMs, htoken, by simp⟩

/-- `authorize_post` records a code only for the owner's request it was minted
for. -/
theorem authorizePost_safe (form : AuthorizeForm) :
    Safe (I := Gateway) (fun _ _ => True) (Route.Guarantee P (.authorizePost form))
      (fun _ _ => True) (authorizePost P config form).run [] := by
  simp only [authorizePost, safe_exceptT_bind, orAnswer, safe_exceptT_adapt]
  refine (validateAuthorization_safe (fun _ _ => .free) _ _ _ _ _ _ _).mono ?_
  rintro h (e | ⟨client, scopes⟩) _
  · trivial
  simp only [mapError_ok, then_ok, safe_exceptT_bind, now, orAnswer, safe_exceptT_adapt, safe_clock,
    forall_except, mapError_error, then_error, safe_validate, safe_check, then_failIf, then_orFail,
    safe_createPairing, safe_insertCode, safe_exceptT_pure, implies_true, true_and, and_true]
  refine ⟨trivial, fun nowUnixMs _ => ⟨trivial, fun owner _ howner => ?_⟩⟩
  refine ⟨.inl ⟨form, rfl⟩, fun issued _ => ?_⟩
  exact ⟨form, scopes, owner, issued, rfl, ⟨not_not.mp howner, by simp, by simp⟩, rfl, rfl⟩

/-- A code is exchanged only against what was recorded for it. -/
theorem token_safe (form : TokenForm) :
    Safe (I := Gateway) (fun _ _ => True) (Route.Guarantee P (.token form))
      (fun _ _ => True) (token P form).run [] := by
  simp only [token, exchangeAuthorizationCode, now, orAnswer, safe_exceptT_bind, safe_check,
    then_failIf, then_orFail, safe_exceptT_adapt, safe_clock, forall_except, mapError_ok,
    mapError_error, then_ok, then_error, safe_removeCode, safe_redeemPairing, safe_exceptT_pure,
    implies_true, true_and, and_true]
  intro _ code hcode clientId hclient redirectUri huri verifier hverifier
  refine ⟨trivial, fun nowUnixMs _ => ⟨trivial, ?_⟩⟩
  rintro found _ record rfl hpresented
  simp only [not_or, not_not, ne_eq] at hpresented
  obtain ⟨_, rfl, rfl, hpkce⟩ := hpresented
  exact .inr ⟨form, record, rfl, ⟨hcode, hclient, huri, ⟨verifier, hverifier, hpkce⟩, by simp⟩, rfl⟩

theorem redeemPairing_safe (body : RedeemPairingBody) :
    Safe (I := Gateway) (fun _ _ => True) (Route.Guarantee P (.redeemPairing body))
      (fun _ _ => True) (redeemPairing body).run [] := by
  simp only [redeemPairing, now, orAnswer, safe_exceptT_bind, safe_exceptT_adapt, safe_clock,
    forall_except, mapError_ok, mapError_error, then_ok, then_error, safe_redeemPairing,
    safe_exceptT_pure, implies_true, true_and, and_true]
  exact ⟨trivial, fun _ _ => .inl ⟨body, rfl, rfl, rfl⟩⟩

/-- A pairing is created for an administrator, as the request says. -/
theorem createPairing_safe (authorization : Option String) (body : CreatePairingBody) :
    Safe (I := Gateway) (fun _ _ => True) (Route.Guarantee P (.createPairing authorization body))
      (fun _ _ => True) (createPairing config authorization body).run [] := by
  simp only [createPairing, safe_exceptT_bind]
  refine (requireGrant_safe (fun _ _ => .free) authorization "admin" .admin).mono ?_
  rintro h (e | admin) hadmin
  · trivial
  simp only [then_ok, safe_exceptT_bind, now, orAnswer, safe_exceptT_adapt, safe_clock,
    forall_except, mapError_ok, mapError_error, then_error, safe_check, implies_true, true_and]
  refine ⟨trivial, fun nowUnixMs _ => (then_iff _ _).mpr ⟨fun _ _ => trivial, ?_⟩⟩
  intro pairingTtl hpairing
  simp only [safe_exceptT_bind, safe_check]
  refine (then_iff _ _).mpr ⟨fun _ _ => trivial, fun grantTtl hgrant => ?_⟩
  simp only [safe_exceptT_bind, safe_exceptT_adapt, safe_createPairing, forall_except, mapError_ok,
    mapError_error, then_ok, then_error, safe_exceptT_pure, implies_true, and_true]
  obtain ⟨token, at', htoken, hmem⟩ := hadmin admin rfl
  exact .inr ⟨authorization, body, admin, rfl, ⟨token, at', htoken, List.mem_cons_of_mem _ hmem⟩,
    rfl, milliseconds_eq_ok hpairing, milliseconds_eq_ok hgrant⟩

/-- Every handler keeps its guarantee. -/
theorem handle_safe (P : Primitives) (config : GatewayConfig) (request : GatewayRequest) :
    Safe (I := Gateway) (fun _ _ => True) (Route.Guarantee P request) (fun _ _ => True)
      (handle P config request).run [] := by
  cases request with
  | authorizePost form => exact authorizePost_safe form
  | token form => exact token_safe form
  | redeemPairing body => exact redeemPairing_safe body
  | createPairing authorization body => exact createPairing_safe authorization body
  | registerClient body =>
      simp only [handle, registerClient, now, orAnswer, safe_exceptT_bind, safe_check, then_failIf,
        safe_exceptT_adapt, safe_clock, safe_randomSecret, safe_registerOauthClient, forall_except,
        mapError_ok, mapError_error, then_ok, then_error, safe_exceptT_pure, implies_true, true_and,
        and_true]
      exact fun _ _ _ _ _ => ⟨trivial, fun _ _ => ⟨trivial, fun _ _ => trivial⟩⟩
  | authorizeGet query =>
      simp only [handle, authorizeGet, orAnswer, safe_exceptT_bind, safe_exceptT_adapt]
      refine (validateAuthorization_safe (fun _ _ => .free) _ _ _ _ _ _ _).mono ?_
      rintro h (e | ⟨client, scopes⟩) _
      · trivial
      · simp only [mapError_ok, then_ok, safe_exceptT_pure]
  | revokeGrant authorization body =>
      simp only [handle, revokeGrant, safe_exceptT_bind]
      refine (requireGrant_safe (fun _ _ => .free) authorization "admin" .admin).mono ?_
      rintro h (e | admin) _
      · trivial
      simp only [then_ok, safe_exceptT_bind, orAnswer, safe_exceptT_adapt, safe_revokeForTenant,
        forall_except, mapError_ok, mapError_error, then_error, safe_exceptT_pure, implies_true,
        and_true]
      trivial
  | info authorization =>
      simp only [handle, info, safe_exceptT_bind]
      refine (requireGrant_safe (fun _ _ => .free) authorization "gateway.read" .viewer).mono ?_
      rintro h (e | grant) _
      · trivial
      · simp only [then_ok, safe_exceptT_pure]

end Routes

/-- Whatever is started keeps its guarantee. -/
theorem GatewayEntry.safe (P : Primitives) (config : GatewayConfig) (entry : GatewayEntry) :
    Safe (I := Gateway) (fun _ _ => True) (entry.Guarantee P) (fun _ _ => True)
      ((gatewaySystem P config).body entry) [] := by
  cases entry with
  | request r =>
      simp only [gatewaySystem, safe_map]
      exact Routes.handle_safe P config r
  | restart =>
      exact (safe_call (I := Gateway) .restart _).mpr ⟨rfl, fun _ _ => trivial⟩

end Safety

/-! ### Pairings and codes in a run -/

/-- The pairing an event has created. -/
def createdPairing : Event Gateway → Option IssuedPairing
  | ⟨.createPairing _ _ _ _, .ok issued⟩ => some issued
  | _ => none

/-- The last creation of a pairing under a key, with the call that made it. -/
def lastCreation (P : Primitives) (key : String) : Log Gateway → Option (ℕ × IssuedPairing)
  | [] => none
  | (i, e) :: log =>
      match createdPairing e with
      | some issued =>
          if GrantStore.tokenHashHex P issued.code = key then some (i, issued)
          else lastCreation P key log
      | none => lastCreation P key log

/-- A redemption gives the grant of a pairing, and of the one that was created
last under the code, if one was created in the run. -/
def Redeems (P : Primitives) (earlier : Log Gateway) (code actorId : String) (now : ℕ)
    (issued : IssuedGrant) : Prop :=
  ∃ pairing grantId, issued.record = GrantStore.redeemedGrant pairing actorId now grantId ∧
    ∀ i created, lastCreation P (GrantStore.tokenHashHex P code) earlier = some (i, created) →
      pairing = created.record

section Commits

variable {P : Primitives} {s s' : GatewayState} {op : GatewayOp} {reply : op.Reply}

theorem GatewayState.mutates.file {α : Type} {reply : Except AuthError α}
    {mutate : PersistedState → Except AuthError (α × PersistedState)}
    (h : s.mutates s' reply mutate) {state' : PersistedState} (hfile : s'.file = some state') :
    (∃ e, reply = .error e) ∧ s.file = some state' ∨
      ∃ a state, reply = .ok a ∧ s.file = some state ∧ mutate state = .ok (a, state') := by
  obtain ⟨_, heffect⟩ := h
  cases reply with
  | ok a =>
      obtain ⟨state, _, hstate, hmutate, hfile'⟩ := heffect
      obtain rfl := Option.some.inj (hfile.symm.trans hfile')
      exact .inr ⟨a, state, rfl, hstate, hmutate⟩
  | error e =>
      rcases heffect with hsame | hgone
      · exact .inl ⟨⟨e, rfl⟩, hsame ▸ hfile⟩
      · simp [hgone] at hfile

/-- A pairing that is in the file after an operation has been created by it, or
was in the file before. -/
theorem GatewayOp.Commits.pairing (h : op.Commits P s reply s') {state' : PersistedState}
    (hfile : s'.file = some state') {key : String} {record : PairingRecord}
    (hget : state'.pairings[key]? = some record) :
    (∃ issued, createdPairing ⟨op, reply⟩ = some issued ∧
      GrantStore.tokenHashHex P issued.code = key ∧ record = issued.record) ∨
    (∀ issued, createdPairing ⟨op, reply⟩ = some issued →
      GrantStore.tokenHashHex P issued.code ≠ key) ∧
      ∃ state, s.file = some state ∧ state.pairings[key]? = some record := by
  cases op with
  | registerOauthClient clientId redirectUris clientName at' =>
      refine .inr ⟨by simp [createdPairing], ?_⟩
      rcases h.file hfile with ⟨_, hsame⟩ | ⟨_, state, _, hstate, hmutate⟩
      · exact ⟨state', hsame, hget⟩
      · rw [(GrantStore.registerOauthClient_eq_ok hmutate).2] at hget
        exact ⟨state, hstate, hget⟩
  | createPairing scopes pairingTtl grantTtl now =>
      obtain ⟨_, _, h⟩ := h
      rcases h.file hfile with ⟨⟨e, rfl⟩, hsame⟩ | ⟨issued, state, rfl, hstate, hmutate⟩
      · exact .inr ⟨by simp [createdPairing], state', hsame, hget⟩
      · obtain ⟨_, _, rfl⟩ := GrantStore.createPairing_eq_ok_iff.mp hmutate
        -- the pairing is the one that has been created, or was there before
        rw [Std.ExtTreeMap.getElem?_insert] at hget
        split at hget
        case isTrue hkey =>
            exact .inl
              ⟨issued, rfl, Std.LawfulEqCmp.eq_of_compare hkey, (Option.some.inj hget).symm⟩
        case isFalse hkey =>
            refine .inr ⟨?_, state, hstate, hget⟩
            rintro _ hissued rfl
            obtain rfl := Option.some.inj hissued
            exact hkey Std.ReflCmp.compare_self
  | redeemPairing code actorId now =>
      refine .inr ⟨by simp [createdPairing], ?_⟩
      obtain ⟨_, _, h⟩ := h
      rcases h.file hfile with ⟨_, hsame⟩ | ⟨_, state, _, hstate, hmutate⟩
      · exact ⟨state', hsame, hget⟩
      · obtain ⟨_, _, _, _, _, _, rfl⟩ := GrantStore.redeemPairing_eq_ok_iff.mp hmutate
        rw [Std.ExtTreeMap.getElem?_erase] at hget
        split at hget
        · cases hget
        · exact ⟨state, hstate, hget⟩
  | revokeForTenant grantId organizationId =>
      refine .inr ⟨by simp [createdPairing], ?_⟩
      rcases h.file hfile with ⟨_, hsame⟩ | ⟨_, state, _, hstate, hmutate⟩
      · exact ⟨state', hsame, hget⟩
      · rw [GrantStore.revokeForTenant_eq_ok hmutate] at hget
        exact ⟨state, hstate, hget⟩
  | restart =>
      refine .inr ⟨by simp [createdPairing], ?_⟩
      rcases h.2 with hsame | ⟨_, deviceId, hfresh⟩
      · exact ⟨state', hsame ▸ hfile, hget⟩
      · obtain rfl := Option.some.inj (hfresh.symm.trans hfile)
        simp at hget
  | insertCode codeHash code now =>
      refine .inr ⟨by simp [createdPairing], state', ?_, hget⟩
      cases reply with
      | ok _ => simpa [show s' = _ from h] using hfile
      | error _ => simpa [show s' = s from h] using hfile
  | removeCode codeHash =>
      refine .inr ⟨by simp [createdPairing], state', ?_, hget⟩
      cases reply with
      | ok _ => simpa [h.2] using hfile
      | error _ => simpa [show s' = s from h] using hfile
  | clock | randomSecret | verifyContext =>
      have hsame : s' = s := h
      exact .inr ⟨by simp [createdPairing], state', hsame ▸ hfile, hget⟩
  | oauthClient | validate =>
      exact .inr ⟨by simp [createdPairing], state', h.1 ▸ hfile, hget⟩

/-- A code that is in memory after an operation has been recorded by it, or
was in memory before. -/
theorem GatewayOp.Commits.code (h : op.Commits P s reply s') {key : String}
    {record : AuthorizationCodeRecord} (hget : s'.codes[key]? = some record) :
    (∃ now, (⟨op, reply⟩ : Event Gateway) = recorded key record now) ∨
      s.codes[key]? = some record := by
  cases op with
  | insertCode codeHash code now =>
      cases reply with
      | error _ => exact .inr ((show s' = s from h) ▸ hget)
      | ok _ =>
          simp only [show s' = _ from h] at hget
          rw [Std.ExtTreeMap.getElem?_insert] at hget
          split at hget
          case isTrue hkey =>
              obtain rfl := Option.some.inj hget
              obtain rfl := Std.LawfulEqCmp.eq_of_compare hkey
              exact .inl ⟨now, rfl⟩
          case isFalse hkey =>
              rw [Std.ExtTreeMap.getElem?_filter', Option.filter_eq_some_iff] at hget
              exact .inr hget.1
  | removeCode codeHash =>
      cases reply with
      | error _ => exact .inr ((show s' = s from h) ▸ hget)
      | ok _ =>
          rw [h.2, Std.ExtTreeMap.getElem?_erase] at hget
          split at hget
          · cases hget
          · exact .inr hget
  | restart => simp [h.1] at hget
  | registerOauthClient | revokeForTenant => exact .inr (h.1 ▸ hget)
  | createPairing | redeemPairing =>
      obtain ⟨_, _, h⟩ := h
      exact .inr (h.1 ▸ hget)
  | clock | randomSecret | verifyContext => exact .inr ((show s' = s from h) ▸ hget)
  | oauthClient | validate => exact .inr (h.1 ▸ hget)

/-- What has been validated has the scope it was validated for. -/
theorem GatewayOp.Commits.validated {token scope : String} {now : ℕ} {record : GrantRecord}
    (h : (GatewayOp.validate token scope now).Commits P s (Except.ok record) s') :
    scope ∈ record.scopes ∨ "*" ∈ record.scopes := by
  obtain ⟨state, _, hvalidate⟩ := h.2 record rfl
  exact (GrantStore.validate_eq_ok_iff.mp hvalidate).2.2.2.2

end Commits

/-- What the file and the memory know of the log: a code in memory, or taken
out of it, was recorded there; a pairing in the file is the one created last
under its key; and redemptions and validations are what the store says. -/
structure GatewayInvariant (P : Primitives) (s : GatewayState) (log : Log Gateway) : Prop where
  recorded : ∀ (key : String) (record : AuthorizationCodeRecord), s.codes[key]? = some record →
    ∃ j now, (j, recorded key record now) ∈ log
  taken : ∀ i key record, (i, removed key record) ∈ log →
    ∃ j now, (j, GatewayEvent.recorded key record now) ∈ log
  created : ∀ state, s.file = some state → ∀ (key : String) (record : PairingRecord),
    state.pairings[key]? = some record →
      ∀ i created, lastCreation P key log = some (i, created) → record = created.record
  redeemed : ∀ later earlier i code actorId now issued,
    log = later ++ (i, redeemed code actorId now issued) :: earlier →
      Redeems P earlier code actorId now issued
  validated : ∀ i token scope now record, (i, validated token scope now record) ∈ log →
    scope ∈ record.scopes ∨ "*" ∈ record.scopes

theorem gatewayInvariant_initial {P : Primitives} {s : GatewayState} (hs : noCodes s) :
    GatewayInvariant P s [] where
  recorded key record hget := by simp [show s.codes = ∅ from hs] at hget
  taken := by simp
  created := by simp [lastCreation]
  redeemed := by simp
  validated := by simp

/-- One operation keeps the invariant. -/
theorem GatewayInvariant.step {P : Primitives} {s s' : GatewayState} {log : Log Gateway}
    (hJ : GatewayInvariant P s log) (i : ℕ) {e : Event Gateway}
    (h : e.op.Commits P s e.reply s') : GatewayInvariant P s' ((i, e) :: log) where
  recorded := by
    intro key record hget
    rcases h.code hget with ⟨now, heq⟩ | hold
    · exact ⟨i, now, by rw [← heq]; exact List.mem_cons_self⟩
    · obtain ⟨j, now, hmem⟩ := hJ.recorded key record hold
      exact ⟨j, now, List.mem_cons_of_mem _ hmem⟩
  taken := by
    intro j key record hmem
    suffices hold : ∃ k now, (k, GatewayEvent.recorded key record now) ∈ log by
      obtain ⟨k, now, hold⟩ := hold
      exact ⟨k, now, List.mem_cons_of_mem _ hold⟩
    rcases List.mem_cons.mp hmem with heq | hmem
    · obtain ⟨rfl, rfl⟩ := Prod.mk.inj heq
      exact hJ.recorded key record h.1.symm
    · exact hJ.taken j key record hmem
  created := by
    intro state' hfile key record hget j created hlast
    rcases h.pairing hfile hget with ⟨issued, hissued, hkey, rfl⟩ | ⟨hother, state, hstate, hold⟩
    · have hhere : lastCreation P key ((i, e) :: log) = some (i, issued) := by
        simp only [lastCreation, show createdPairing e = some issued from hissued, hkey, if_pos]
      obtain rfl := (Prod.mk.inj (Option.some.inj (hhere.symm.trans hlast))).2
      rfl
    · have hthere : lastCreation P key ((i, e) :: log) = lastCreation P key log := by
        rw [lastCreation]
        split
        case h_1 issued hissued => rw [if_neg (hother issued hissued)]
        case h_2 => rfl
      exact hJ.created state hstate key record hold j created (hthere ▸ hlast)
  redeemed := by
    intro later earlier j code actorId now issued hlog
    cases later with
    | cons _ later =>
        exact hJ.redeemed later earlier j code actorId now issued (List.cons.inj hlog).2
    | nil =>
        obtain ⟨hhead, rfl⟩ := List.cons.inj hlog
        obtain ⟨rfl, rfl⟩ := Prod.mk.inj hhead
        obtain ⟨tokenBytes, grantId, h⟩ := h
        obtain ⟨state, _, hstate, hredeem, _⟩ := h.2
        obtain ⟨_, pairing, hget, _, _, rfl, _⟩ := GrantStore.redeemPairing_eq_ok_iff.mp hredeem
        exact ⟨pairing, grantId, rfl, fun k created hlast =>
          hJ.created state hstate _ pairing hget k created hlast⟩
  validated := by
    intro j token scope now record hmem
    rcases List.mem_cons.mp hmem with heq | hmem
    · obtain ⟨rfl, rfl⟩ := Prod.mk.inj heq
      exact GatewayOp.Commits.validated h
    · exact hJ.validated j token scope now record hmem

section Reachable

variable {P : Primitives} {config : GatewayConfig}
  {mayStart : World (gatewaySystem P config) → GatewayEntry → Prop}
  {w : World (gatewaySystem P config)}

/-- The invariant holds in every run. -/
theorem gatewayInvariant_reachable (hw : Reachable noCodes mayStart w) :
    GatewayInvariant P w.shared w.log :=
  hw.invariant (fun _ hs => gatewayInvariant_initial hs) fun _ _ i _ _ hJ h => hJ.step i h

/-- Every operation of a run was guaranteed by the call that performed it. -/
theorem gateway_guaranteed {init : GatewayState → Prop} (hw : Reachable init mayStart w)
    {later earlier : Log Gateway} {i : ℕ} {e : Event Gateway}
    (hlog : w.log = later ++ (i, e) :: earlier) :
    ∃ c, w.calls i = some c ∧ c.entry.Guarantee P (earlier.of i) e.op :=
  hw.guarantee (A := fun _ _ => True) (Q := fun _ _ _ => True) (GatewayEntry.safe P config)
    (allowed_true _) hlog

end Reachable

end VorCommander
