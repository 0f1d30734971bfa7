import VorCommander.Gateway.Working

/-!
Codes and verifiers.

A code that the owner's authorization minted should only turn into a grant for
the client that was authorized, and only against the verifier of the
authorization. The route that exchanges codes sees to it. The route that
redeems pairings does not: it finds the same code in the file and asks for
nothing. What remains is that the binding holds as long as no code of an
authorization is presented there.
-/

namespace VorCommander

open Crypto Steps Steps.Program Steps.World Text GatewayEvent

/-- One hash is as good as the other: they differ in the encoding only. -/
theorem GrantStore.tokenHashHex_of_secretHash {P : Primitives} {code code' : String}
    (h : OAuth.secretHash P code = OAuth.secretHash P code') :
    tokenHashHex P code = tokenHashHex P code' :=
  congrArg hexEncode (Base64.encodeUrlSafe_injective h)

section Statement

variable {P : Primitives} {config : GatewayConfig} (w : World (gatewaySystem P config))
  (log : Log Gateway)

/-- Call `i` handles the request. -/
def Handles (i : ℕ) (request : GatewayRequest) : Prop :=
  ∃ c, w.calls i = some c ∧ c.entry = .request request

/-- Call `j` handles a request for an authorization, and has minted `code`. -/
def Mints (j : ℕ) (form : AuthorizeForm) (code : String) : Prop :=
  Handles w j (.authorizePost form) ∧
    ∃ scopes pairingTtl grantTtl now issued, issued.code = code ∧
      (j, created scopes pairingTtl grantTtl now issued) ∈ log

/-- The code is, as far as the store can tell, one that an authorization has
minted. -/
def Minted (code : String) : Prop :=
  ∃ j form code', Mints w log j form code' ∧
    GrantStore.tokenHashHex P code' = GrantStore.tokenHashHex P code

/-- An exchange that presents what belongs to an authorization, and the grant
it obtains. -/
structure PkceExchange (P : Primitives) (authorize : AuthorizeForm) (exchange : TokenForm)
    (code : String) (issued : IssuedGrant) : Prop where
  code : exchange.code = some code
  clientId : exchange.clientId = some authorize.clientId
  redirectUri : exchange.redirectUri = some authorize.redirectUri
  verifier : ∃ verifier, exchange.codeVerifier = some verifier ∧
    OAuth.verifyPkce P verifier authorize.codeChallenge = true
  actorId : issued.record.actorId = OAuth.oauthActorId "local-pilot" authorize.clientId

/-- Every grant obtained from a code that an authorization has minted was
obtained by such an exchange. -/
def PkceBound : Prop :=
  ∀ later earlier i code actorId now issued,
    w.log = later ++ (i, redeemed code actorId now issued) :: earlier → Minted w earlier code →
      ∃ exchange authorize j code', Handles w i (.token exchange) ∧
        Mints w earlier j authorize code' ∧
        GrantStore.tokenHashHex P code' = GrantStore.tokenHashHex P code ∧
        PkceExchange P authorize exchange code issued

/-- No request to redeem a pairing presents a code that an authorization has
minted. -/
def PairsNoCode : Prop :=
  ∀ later earlier i body now reply, Handles w i (.redeemPairing body) →
    w.log = later ++ (i, ⟨.redeemPairing body.code body.actorId now, reply⟩) :: earlier →
      ¬ Minted w earlier body.code

end Statement

section Runs

variable {P : Primitives} {config : GatewayConfig}
  {mayStart : World (gatewaySystem P config) → GatewayEntry → Prop}
  {w : World (gatewaySystem P config)}

/-- Every operation but the start of the gateway is part of the handling of a
request, which keeps its guarantee. -/
theorem handles_of_log {init : GatewayState → Prop} (hw : Reachable init mayStart w)
    {later earlier : Log Gateway} {i : ℕ} {e : Event Gateway}
    (hlog : w.log = later ++ (i, e) :: earlier) (he : e.op ≠ .restart) :
    ∃ request, Handles w i request ∧ Route.Guarantee P request (earlier.of i) e.op := by
  obtain ⟨c, hc, hguarantee⟩ := gateway_guaranteed hw hlog
  cases hentry : c.entry with
  | request request =>
      rw [hentry] at hguarantee
      exact ⟨request, ⟨c, hc, hentry⟩, hguarantee⟩
  | restart =>
      rw [hentry] at hguarantee
      exact absurd hguarantee he

/-- A code in the memory was minted by the call that recorded it, and is
recorded with the form of that call. -/
theorem mints_of_recorded {init : GatewayState → Prop} (hw : Reachable init mayStart w)
    {j : ℕ} {key : String} {record : AuthorizationCodeRecord} {now : ℕ} {later log : Log Gateway}
    (hlog : w.log = later ++ log) (hmem : (j, recorded key record now) ∈ log) :
    ∃ form code, Mints w log j form code ∧ key = OAuth.secretHash P code ∧
      record.clientId = form.clientId ∧ record.redirectUri = form.redirectUri ∧
      record.codeChallenge = form.codeChallenge ∧
      record.actorId = OAuth.oauthActorId "local-pilot" form.clientId := by
  obtain ⟨newer, older, rfl⟩ := List.append_of_mem hmem
  obtain ⟨request, hhandles, hguarantee⟩ := handles_of_log hw
    (show w.log = (later ++ newer) ++ (j, recorded key record now) :: older by simp [hlog])
    (by simp)
  obtain ⟨form, scopes, owner, issued, rfl, hauthorizing, rfl, rfl⟩ := hguarantee
  have hminted := Log.mem_of.mp hauthorizing.minted
  refine ⟨form, issued.code, ⟨hhandles, scopes, OAuth.codeTtlMs, OAuth.accessTtlMs, now, issued,
    rfl, ?_⟩, rfl, rfl, rfl, rfl, ?_⟩
  · exact List.mem_append_right _ (List.mem_cons_of_mem _ hminted)
  · rw [Routes.codeRecord, hauthorizing.isOwner]

/-- In a run in which no minted code is redeemed as a pairing, minted codes
are bound to their verifiers. -/
theorem pkceBound_of_pairsNoCode (hw : Reachable noCodes mayStart w) (hpairs : PairsNoCode w) :
    PkceBound w := by
  intro later earlier i code actorId now issued hlog hminted
  obtain ⟨request, hhandles, hguarantee⟩ := handles_of_log hw hlog (by simp)
  rcases hguarantee with ⟨body, rfl, rfl, rfl⟩ | ⟨exchange, record, rfl, hexchange, rfl⟩
  · -- the code was redeemed as a pairing
    exact absurd hminted (hpairs later earlier i body now (.ok issued) hhandles hlog)
  · -- the code was taken out of the memory, where an authorization had put it
    obtain ⟨w', _, _, hw', rfl, _⟩ := hw.before hlog
    have htaken := Log.mem_of.mp hexchange.taken
    obtain ⟨j, at', hrecorded⟩ := (gatewayInvariant_reachable hw').taken i _ record htaken
    obtain ⟨authorize, code', hmints, hkey, hclient, huri, hchallenge, hactor⟩ :=
      mints_of_recorded hw
        (show w.log = (later ++ [(i, redeemed code record.actorId now issued)]) ++ w'.log by
          simp [hlog]) hrecorded
    obtain ⟨pairing, grantId, hgrant, _⟩ := (gatewayInvariant_reachable hw).redeemed later w'.log i
      code record.actorId now issued hlog
    refine ⟨exchange, authorize, j, code', hhandles, hmints,
      GrantStore.tokenHashHex_of_secretHash hkey.symm, ?_⟩
    exact ⟨hexchange.presented, hclient ▸ hexchange.clientId, huri ▸ hexchange.redirectUri,
      hchallenge ▸ hexchange.verifier, by rw [hgrant, ← hactor]; rfl⟩

end Runs

/-! ### An authorization, and what is made of its code -/

namespace GatewaySample

def verifier : String := "aaaaaaaaaaaaaaaaaaaaaaaaaaaaaaaaaaaaaaaaaaa"

/-- The owner's request for an authorization. -/
def authorization : AuthorizeForm where
  responseType := "code"
  clientId := "client"
  redirectUri := redirectUri
  scope := "mcp"
  state := "state"
  codeChallenge := Base64.encodeUrlSafe (reference.sha256 (utf8 verifier)).toList
  codeChallengeMethod := "S256"
  resource := ""
  ownerToken := "owner-token"

theorem codeChallenge_length : ¬ byteLength authorization.codeChallenge < 32 := by
  have h := length_le_byteLength ((Base64.sextets (reference.sha256 (utf8 verifier)).toList).map
    (Base64.symbol Base64.urlSafeAlphabet))
  rw [List.length_map, Base64.length_sextets, Vector.length_toList] at h
  rw [authorization]
  simp only [Base64.encodeUrlSafe]
  omega

/-- The pairing the authorization creates. -/
def oauthPairing : PairingRecord :=
  GrantStore.pairingRecord ["mcp"] OAuth.codeTtlMs OAuth.accessTtlMs 10 draws.pairingId

/-- What is remembered for the code. -/
def codeRecord : AuthorizationCodeRecord := Routes.codeRecord authorization ["mcp"] owner 10

def authorized : GatewayState where
  file := some (paired oauthPairing)
  codes := ((∅ : Std.ExtTreeMap String AuthorizationCodeRecord).filter
    fun _ item => 10 < item.expiresAtUnixMs).insert (OAuth.secretHash reference code) codeRecord

def authorizedHistory : History Gateway :=
  [recorded (OAuth.secretHash reference code) codeRecord 10,
    created ["mcp"] OAuth.codeTtlMs OAuth.accessTtlMs 10 ⟨code, oauthPairing⟩,
    validated "owner-token" "mcp" 10 owner,
    ⟨.clock, Except.ok 10⟩, ⟨.oauthClient "client", Except.ok (some client)⟩]

theorem exec_validateAuthorization {s : GatewayState} {h : History Gateway}
    (hs : s.file = some store) :
    exec (workingGateway reference draws).recording
      (Routes.validateAuthorization authorization.clientId authorization.redirectUri
        authorization.responseType authorization.codeChallenge authorization.codeChallengeMethod
        (some authorization.scope) none).run (s, h) =
      (.ok (client, ["mcp"]), (s, ⟨.oauthClient "client", Except.ok (some client)⟩ :: h)) := by
  have hform : ¬ (authorization.responseType ≠ "code" ∨
      authorization.codeChallengeMethod ≠ "S256" ∨
        byteLength authorization.codeChallenge < 32) := by
    simpa [authorization] using codeChallenge_length
  have hresource : ¬ (none : Option String).any (· ≠ OAuth.resourceUri) = true := by simp
  have hscopes : OAuth.parseScopes (some authorization.scope) = some ["mcp"] := by decide
  have hclient : ¬ authorization.redirectUri ∉ client.redirectUris := by decide
  have hquery : s.query (GrantStore.oauthClient authorization.clientId) = (.ok (some client), s) :=
    query_client hs
  simp only [Routes.validateAuthorization, exec_exceptT_bind, exec_check, execThen_ok,
    failIf_of_false hform, failIf_of_false hresource, exec_exceptT_adapt, exec_oauthClient hquery,
    mapError_ok, orFail_some, hscopes, exec_exceptT_pure, failIf_of_false hclient]
  rfl

theorem exec_authorizePost :
    exec (workingGateway reference draws).recording
        (Routes.handle reference config (.authorizePost authorization)).run
        (freshWorld.shared, []) =
      (.ok (.redirect redirectUri code "state"), (authorized, authorizedHistory)) := by
  have hvalidate := exec_validateAuthorization (s := ⟨some store, ∅⟩) (h := []) rfl
  have hresource : (if authorization.resource.isEmpty = true then none
      else some authorization.resource) = none := by decide
  have howner : ¬ owner.actorId ≠ "local-pilot" := by decide
  have hquery := query_owner (s := ⟨some store, ∅⟩) rfl (show "mcp" ∈ owner.scopes by decide)
  have hcreate := transact_create (s := ⟨some store, ∅⟩) rfl
    (show nonBlank ["mcp"] ≠ ∅ by decide)
    (show OAuth.codeTtlMs ≠ 0 ∧ OAuth.accessTtlMs ≠ 0 ∧ 10 + OAuth.codeTtlMs < 2 ^ 64 by decide)
  have hurl : orFail (config.parseUrl authorization.redirectUri)
    (Response.status 400) = .ok _ := rfl
  rw [show freshWorld.shared = GatewayState.mk (some store) ∅ from rfl]
  simp only [Routes.handle, Routes.authorizePost, Routes.orAnswer, Routes.now, exec_exceptT_bind,
    exec_exceptT_adapt, exec_check, hresource, hvalidate, mapError_ok, execThen_ok, exec_clock,
    exec_insertCode, exec_exceptT_pure, hurl, show draws.nowUnixMs = 10 from rfl,
    show authorization.ownerToken = "owner-token" from rfl, exec_validate hquery,
    failIf_of_false howner, exec_createPairing hcreate]
  rfl

/-- The gateway after the owner's request. -/
def authorizedWorld : World (gatewaySystem reference config) :=
  freshWorld.after (workingGateway reference draws) 0 (.request (.authorizePost authorization))

theorem authorizedWorld_eq :
    authorizedWorld.shared = authorized ∧ authorizedWorld.log = authorizedHistory.map (0, ·) := by
  obtain ⟨hshared, hlog⟩ := after_request (w := freshWorld) (i := 0) exec_authorizePost
  exact ⟨hshared, by rw [authorizedWorld, hlog]; rfl⟩

theorem authorizedWorld_reachable : Reachable noCodes anyEntry authorizedWorld :=
  freshWorld_reachable.after (workingGateway_sound _ _ _) rfl trivial

/-- Somebody else redeems the code as a pairing. -/
def stolenBody : RedeemPairingBody where
  code := code
  actorId := "somebody-else"

/-- The client exchanges the code for a grant. -/
def exchange : TokenForm where
  grantType := "authorization_code"
  code := some code
  redirectUri := some redirectUri
  clientId := some "client"
  codeVerifier := some verifier

/-- The gateway after one more request. -/
def usedWorld (request : GatewayRequest) : World (gatewaySystem reference config) :=
  authorizedWorld.after (workingGateway reference draws) 1 (.request request)

theorem usedWorld_reachable (request : GatewayRequest) :
    Reachable noCodes anyEntry (usedWorld request) :=
  authorizedWorld_reachable.after (workingGateway_sound _ _ _) rfl trivial

theorem usedWorld_handles {request r : GatewayRequest} {j : ℕ} :
    Handles (usedWorld request) j r ↔
      if j = 1 then r = request else j = 0 ∧ r = .authorizePost authorization := by
  rw [Handles, usedWorld, after_handles]
  by_cases hj : j = 1
  · simp only [if_pos hj]
  · rw [if_neg hj, if_neg hj, authorizedWorld, after_handles]
    by_cases hj' : j = 0
    · simp [hj']
    · simp [hj', freshWorld, initial]

/-- The code has been minted before it is used. -/
theorem code_minted (request : GatewayRequest) (events : History Gateway) :
    Minted (usedWorld request) (events.map (1, ·) ++ authorizedHistory.map (0, ·)) code := by
  refine ⟨0, authorization, code, ⟨usedWorld_handles.mpr ⟨rfl, rfl⟩, ["mcp"], OAuth.codeTtlMs,
    OAuth.accessTtlMs, 10, ⟨code, oauthPairing⟩, rfl, ?_⟩, rfl⟩
  exact List.mem_append_right _ (by simp [authorizedHistory])

theorem exec_stolen : ∃ state',
    exec (workingGateway reference draws).recording
        (Routes.handle reference config (.redeemPairing stolenBody)).run (authorized, []) =
      (.ok (.paired (redeemedGrant oauthPairing "somebody-else").record
          (redeemedGrant oauthPairing "somebody-else").token),
        ({ authorized with file := some state' },
          [redeemed code "somebody-else" 10 (redeemedGrant oauthPairing "somebody-else"),
            ⟨.clock, Except.ok 10⟩])) := by
  obtain ⟨state', hredeem⟩ := transact_redeem (s := authorized) oauthPairing rfl
    (by decide) (by decide) (show isBlank "somebody-else" = false by decide)
  refine ⟨state', ?_⟩
  simp only [Routes.handle, Routes.redeemPairing, Routes.orAnswer, Routes.now, exec_exceptT_bind,
    exec_exceptT_adapt, mapError_ok, execThen_ok, exec_clock, exec_exceptT_pure,
    show draws.nowUnixMs = 10 from rfl, show stolenBody.code = code from rfl,
    show stolenBody.actorId = "somebody-else" from rfl, exec_redeemPairing hredeem]

theorem exec_exchange : ∃ state',
    exec (workingGateway reference draws).recording
        (Routes.handle reference config (.token exchange)).run (authorized, []) =
      (.ok (.accessToken (redeemedGrant oauthPairing codeRecord.actorId).token
          (OAuth.accessTtlMs / 1000) "mcp"),
        ({ file := some state', codes := authorized.codes.erase (OAuth.secretHash reference code) },
          [redeemed code codeRecord.actorId 10 (redeemedGrant oauthPairing codeRecord.actorId),
            removed (OAuth.secretHash reference code) codeRecord, ⟨.clock, Except.ok 10⟩])) := by
  obtain ⟨state', hredeem⟩ := transact_redeem
    (s := { authorized with codes := authorized.codes.erase (OAuth.secretHash reference code) })
    oauthPairing rfl (by decide) (by decide)
    (show isBlank codeRecord.actorId = false by decide)
  have hfound : authorized.codes[OAuth.secretHash reference code]? = some codeRecord := by
    simp [authorized]
  have htype : ¬ exchange.grantType ≠ "authorization_code" := by decide
  have hpkce : OAuth.verifyPkce reference verifier codeRecord.codeChallenge = true := by
    simp only [OAuth.verifyPkce, Bool.and_eq_true]
    exact ⟨⟨⟨by decide, by decide⟩, by decide⟩, by
      rw [decide_eq_true_eq]
      rfl⟩
  have hpresented : ¬ (codeRecord.expiresAtUnixMs ≤ 10 ∨ codeRecord.clientId ≠ "client" ∨
      codeRecord.redirectUri ≠ redirectUri ∨
      ¬ OAuth.verifyPkce reference verifier codeRecord.codeChallenge = true) := by
    simp only [hpkce, not_true, or_false]
    decide
  refine ⟨state', ?_⟩
  simp only [Routes.handle, Routes.token, Routes.exchangeAuthorizationCode, Routes.orAnswer,
    Routes.now, exec_exceptT_bind, exec_exceptT_adapt, exec_check, failIf_of_false htype,
    mapError_ok, execThen_ok, exec_clock, exec_removeCode, exec_exceptT_pure, orFail_some,
    show exchange.code = some code from rfl, show exchange.clientId = some "client" from rfl,
    show exchange.redirectUri = some redirectUri from rfl,
    show exchange.codeVerifier = some verifier from rfl, show draws.nowUnixMs = 10 from rfl,
    hfound, failIf_of_false hpresented, exec_redeemPairing hredeem]
  rfl

/-- The log of a gateway that has handled one more request. -/
theorem usedWorld_log {request : GatewayRequest} {result : Except Response Response}
    {s' : GatewayState} {h : History Gateway}
    (hrun : exec (workingGateway reference draws).recording
      (Routes.handle reference config request).run (authorized, []) = (result, (s', h))) :
    (usedWorld request).log = h.map (1, ·) ++ authorizedHistory.map (0, ·) := by
  rw [← authorizedWorld_eq.1] at hrun
  rw [usedWorld, (after_request hrun).2, authorizedWorld_eq.2]

end GatewaySample

/-- A code of an authorization turns into a grant for whoever redeems it as a
pairing, without a verifier. -/
theorem paired_without_verifier :
    ∃ w : World (gatewaySystem reference GatewaySample.config),
      Reachable noCodes anyEntry w ∧ ¬ PkceBound w := by
  obtain ⟨_, hrun⟩ := GatewaySample.exec_stolen
  refine ⟨_, GatewaySample.usedWorld_reachable (.redeemPairing GatewaySample.stolenBody), ?_⟩
  intro hbound
  obtain ⟨exchange, _, _, _, hhandles, _⟩ := hbound [] _ 1 _ _ _ _
    (GatewaySample.usedWorld_log hrun)
    (GatewaySample.code_minted (.redeemPairing GatewaySample.stolenBody) [⟨.clock, Except.ok 10⟩])
  simp [GatewaySample.usedWorld_handles] at hhandles

/-- The client of the authorization exchanges its code. -/
theorem pkceBound_exchange :
    let w := GatewaySample.usedWorld (.token GatewaySample.exchange)
    (∃ later earlier actorId issued, w.log =
        later ++ (1, redeemed GatewaySample.code actorId 10 issued) :: earlier ∧
      Minted w earlier GatewaySample.code) ∧ PkceBound w := by
  intro w
  obtain ⟨_, hrun⟩ := GatewaySample.exec_exchange
  refine ⟨⟨[], _, _, _, GatewaySample.usedWorld_log hrun, GatewaySample.code_minted _ [_, _]⟩, ?_⟩
  refine pkceBound_of_pairsNoCode (GatewaySample.usedWorld_reachable _) ?_
  intro later earlier i body now reply hhandles
  rw [GatewaySample.usedWorld_handles] at hhandles
  split at hhandles <;> simp at hhandles

end VorCommander
