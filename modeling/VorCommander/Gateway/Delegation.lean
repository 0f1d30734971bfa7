import VorCommander.Gateway.Pkce

/-!
Pairings that an administrator creates.

A pairing carries the scopes its request names, whatever the scopes of the
administrator are: the scope that lets a grant create pairings stands for all
others. A redeemed pairing says nothing of workspaces, and belongs to the
local organisation. Who redeems it chooses the actor; the exchange of a code
does not.
-/

namespace VorCommander

open Crypto Steps Steps.Program Steps.World Text GatewayEvent

section Statement

variable {P : Primitives} {config : GatewayConfig} (w : World (gatewaySystem P config))

/-- Call `j` handles a request for a pairing, made with the grant `admin`, and
has created the pairing that `code` still stands for. -/
structure Delegates (P : Primitives) {config : GatewayConfig} (w : World (gatewaySystem P config))
    (log : Log Gateway) (j : ℕ) (body : CreatePairingBody) (admin : GrantRecord)
    (code : String) : Prop where
  request : ∃ authorization token at', Handles w j (.createPairing authorization body) ∧
    bearerToken authorization = some token ∧ (j, validated token "admin" at' admin) ∈ log
  created : ∃ created, lastCreation P (GrantStore.tokenHashHex P code) log = some (j, created)

/-- What a pairing turns into has no more authority than the grant it was
created with. -/
def NeverAmplifies : Prop :=
  ∀ later earlier i code actorId now issued,
    w.log = later ++ (i, redeemed code actorId now issued) :: earlier →
      ∀ j body admin, Delegates P w earlier j body admin code →
        issued.record.scopes ⊆ admin.scopes ∧ issued.record.workspaceIds ⊆ admin.workspaceIds ∧
          issued.record.organizationId = admin.organizationId

/-- What a pairing turns into, where an administrator has created it. -/
structure Delegated (body : CreatePairingBody) (admin : GrantRecord) (now : ℕ)
    (issued : IssuedGrant) : Prop where
  administers : "admin" ∈ admin.scopes ∨ "*" ∈ admin.scopes
  scopes : issued.record.scopes = nonBlank body.scopes
  workspaceIds : issued.record.workspaceIds = ∅
  organizationId : issued.record.organizationId = "local"
  expiresAtUnixMs : issued.record.expiresAtUnixMs = now + body.grantTtlSeconds.getD 3600 * 1000

end Statement

/-- A pairing is created with the scopes and the times it is created for. -/
def RecordsCreation (log : Log Gateway) : Prop :=
  ∀ i scopes pairingTtl grantTtl now issued,
    (i, created scopes pairingTtl grantTtl now issued) ∈ log →
      ∃ pairingId, issued.record = GrantStore.pairingRecord scopes pairingTtl grantTtl now pairingId

theorem mem_of_lastCreation {P : Primitives} {key : String} {log : Log Gateway} {j : ℕ}
    {issued : IssuedPairing} (h : lastCreation P key log = some (j, issued)) :
    ∃ scopes pairingTtl grantTtl now, (j, created scopes pairingTtl grantTtl now issued) ∈ log := by
  induction log with
  | nil => simp [lastCreation] at h
  | cons entry log ih =>
      obtain ⟨i, e⟩ := entry
      have hthere : lastCreation P key log = some (j, issued) →
          ∃ scopes pairingTtl grantTtl now,
            (j, created scopes pairingTtl grantTtl now issued) ∈ (i, e) :: log := by
        intro hlast
        obtain ⟨scopes, pairingTtl, grantTtl, now, hmem⟩ := ih hlast
        exact ⟨scopes, pairingTtl, grantTtl, now, List.mem_cons_of_mem _ hmem⟩
      rw [lastCreation] at h
      split at h
      case h_2 => exact hthere h
      case h_1 issued' hissued =>
          split at h
          case isFalse => exact hthere h
          case isTrue =>
              obtain ⟨rfl, rfl⟩ := Prod.mk.inj (Option.some.inj h)
              obtain ⟨op, reply⟩ := e
              cases op with
              | createPairing scopes pairingTtl grantTtl now =>
                  cases reply with
                  | error _ => simp [createdPairing] at hissued
                  | ok issued =>
                      obtain rfl := Option.some.inj hissued
                      exact ⟨scopes, pairingTtl, grantTtl, now, List.mem_cons_self⟩
              | _ => simp [createdPairing] at hissued

section Runs

variable {P : Primitives} {config : GatewayConfig}
  {mayStart : World (gatewaySystem P config) → GatewayEntry → Prop}
  {w : World (gatewaySystem P config)}

theorem recordsCreation_reachable {init : GatewayState → Prop} (hw : Reachable init mayStart w) :
    RecordsCreation w.log := by
  refine hw.invariant (J := fun _ log => RecordsCreation log)
    (fun _ _ => by simp [RecordsCreation]) ?_
  intro s log j e s' hJ hcommit i scopes pairingTtl grantTtl now issued hmem
  rcases List.mem_cons.mp hmem with heq | hmem
  · obtain ⟨rfl, rfl⟩ := Prod.mk.inj heq
    obtain ⟨_, pairingId, hmutates⟩ := hcommit
    obtain ⟨_, _, _, hcreate, _⟩ := hmutates.2
    obtain ⟨_, rfl, _⟩ := GrantStore.createPairing_eq_ok_iff.mp hcreate
    exact ⟨pairingId, rfl⟩
  · exact hJ i scopes pairingTtl grantTtl now issued hmem

/-- A call handles one request. -/
theorem Handles.unique {i : ℕ} {request request' : GatewayRequest} (h : Handles w i request)
    (h' : Handles w i request') : request = request' := by
  obtain ⟨c, hc, hentry⟩ := h
  obtain ⟨c', hc', hentry'⟩ := h'
  obtain rfl := Option.some.inj (hc.symm.trans hc')
  exact GatewayEntry.request.inj (hentry.symm.trans hentry')

/-- The client of an authorization is never its owner. -/
theorem oauthActorId_ne_owner (clientId : String) :
    OAuth.oauthActorId "local-pilot" clientId ≠ "local-pilot" := by
  intro h
  have hlength := congrArg (fun s : String => s.length) h
  simp only [OAuth.oauthActorId, String.length_append] at hlength
  have hcolon : ":oauth:".length = 7 := rfl
  omega

/-- In every run: a pairing that an administrator has created turns into a
grant with the scopes the request named, and the owner's actor is only ever
obtained by asking for it. -/
theorem delegated_of_redeemed (hw : Reachable noCodes mayStart w) {later earlier : Log Gateway}
    {i : ℕ} {code actorId : String} {now : ℕ} {issued : IssuedGrant}
    (hlog : w.log = later ++ (i, redeemed code actorId now issued) :: earlier) :
    (∀ j body admin, Delegates P w earlier j body admin code → Delegated body admin now issued) ∧
      (issued.record.actorId = "local-pilot" →
        ∃ body, Handles w i (.redeemPairing body) ∧ body.actorId = "local-pilot") := by
  have hinvariant := gatewayInvariant_reachable hw
  obtain ⟨pairing, grantId, hgrant, hlast⟩ :=
    hinvariant.redeemed later earlier i code actorId now issued hlog
  constructor
  · intro j body admin hdelegates
    obtain ⟨authorization, token, at', hhandles, _, hletIn⟩ := hdelegates.request
    obtain ⟨created, hcreation⟩ := hdelegates.created
    obtain rfl := hlast j created hcreation
    -- the creation was guaranteed by the handler of this very request
    obtain ⟨scopes, pairingTtl, grantTtl, at'', hcreated⟩ := mem_of_lastCreation hcreation
    obtain ⟨newer, older, rfl⟩ := List.append_of_mem hcreated
    obtain ⟨request, hhandles', hguarantee⟩ := handles_of_log hw
      (show w.log = (later ++ (i, redeemed code actorId now issued) :: newer) ++
        (j, GatewayEvent.created scopes pairingTtl grantTtl at'' created) :: older by simp [hlog])
      (by simp)
    obtain rfl := hhandles.unique hhandles'
    obtain ⟨pairingId, hrecord⟩ := recordsCreation_reachable hw j scopes pairingTtl grantTtl at''
      created (by simp [hlog])
    rcases hguarantee with ⟨form, hform⟩ | ⟨_, _, _, hrequest, _, hscopes, _, hgrantTtl⟩
    · cases hform
    · obtain ⟨rfl, rfl⟩ := GatewayRequest.createPairing.inj hrequest
      refine ⟨hinvariant.validated j token "admin" at' admin ?_, ?_, ?_, ?_, ?_⟩
      · rw [hlog]
        exact List.mem_append_right _ (List.mem_cons_of_mem _ hletIn)
      · rw [hgrant, ← hscopes]
        exact congrArg PairingRecord.scopes hrecord
      · rw [hgrant]
        rfl
      · rw [hgrant]
        rfl
      · rw [hgrant, ← hgrantTtl]
        exact congrArg (fun record => now + PairingRecord.grantTtlMs record) hrecord
  · intro howner
    have hactor : actorId = "local-pilot" := by
      rw [hgrant] at howner
      exact howner
    obtain ⟨request, hhandles, hguarantee⟩ := handles_of_log hw hlog (by simp)
    rcases hguarantee with ⟨body, rfl, _, hbody⟩ | ⟨exchange, record, rfl, hexchange, hrecord⟩
    · exact ⟨body, hhandles, hbody.symm.trans hactor⟩
    · obtain ⟨w', _, _, hw', rfl, _⟩ := hw.before hlog
      have htaken := Log.mem_of.mp hexchange.taken
      obtain ⟨j, at', hrecorded⟩ := (gatewayInvariant_reachable hw').taken i _ record htaken
      obtain ⟨authorize, _, _, _, _, _, _, hoauth⟩ := mints_of_recorded hw
        (show w.log = (later ++ [(i, redeemed code actorId now issued)]) ++ w'.log by
          simp [hlog]) hrecorded
      rw [← hrecord, hactor] at hoauth
      exact absurd hoauth.symm (oauthActorId_ne_owner authorize.clientId)

end Runs

/-! ### An administrator who delegates a scope of another kind -/

namespace GatewaySample

/-- The owner asks for a pairing that lets an agent read. -/
def delegation : GatewayRequest :=
  .createPairing (some "Bearer owner-token")
    { scopes := ["gateway.read"], pairingTtlSeconds := none, grantTtlSeconds := none }

def agentBody : RedeemPairingBody where
  code := code
  actorId := "agent"

def agentPairing : PairingRecord :=
  GrantStore.pairingRecord ["gateway.read"] 300000 3600000 10 draws.pairingId

def delegated : GatewayState where
  file := some (paired agentPairing)

def delegatedHistory : History Gateway :=
  [created ["gateway.read"] 300000 3600000 10 ⟨code, agentPairing⟩, ⟨.clock, Except.ok 10⟩,
    validated "owner-token" "admin" 10 owner, ⟨.clock, Except.ok 10⟩]

theorem exec_delegation :
    exec (workingGateway reference draws).recording
        (Routes.handle reference config delegation).run (freshWorld.shared, []) =
      (.ok (.pairing agentPairing "local-pilot" code), (delegated, delegatedHistory)) := by
  have htoken : bearerToken (some "Bearer owner-token") = some "owner-token" := by decide
  have hquery := query_owner (s := ⟨some store, ∅⟩) rfl (show "admin" ∈ owner.scopes by decide)
  have hcreate := transact_create (s := ⟨some store, ∅⟩) rfl
    (show nonBlank ["gateway.read"] ≠ ∅ by decide)
    (show 300000 ≠ 0 ∧ 3600000 ≠ 0 ∧ 10 + 300000 < 2 ^ 64 by decide)
  have hpairing : Routes.milliseconds 300 = .ok 300000 := rfl
  have hgrant : Routes.milliseconds 3600 = .ok 3600000 := rfl
  rw [show freshWorld.shared = GatewayState.mk (some store) ∅ from rfl]
  simp only [Routes.handle, delegation, Routes.createPairing, Routes.requireGrant, Routes.orAnswer,
    Routes.now, exec_exceptT_bind, exec_exceptT_adapt, exec_check, htoken, orFail_some, mapError_ok,
    execThen_ok, exec_clock, exec_exceptT_pure, show draws.nowUnixMs = 10 from rfl,
    exec_validate hquery, show config.tenants = false from rfl, Bool.false_eq_true, if_false,
    Option.getD_none, hpairing, hgrant, exec_createPairing hcreate]
  rfl

theorem exec_agent : ∃ state',
    exec (workingGateway reference draws).recording
        (Routes.handle reference config (.redeemPairing agentBody)).run (delegated, []) =
      (.ok (.paired (redeemedGrant agentPairing "agent").record
          (redeemedGrant agentPairing "agent").token),
        ({ delegated with file := some state' },
          [redeemed code "agent" 10 (redeemedGrant agentPairing "agent"),
            ⟨.clock, Except.ok 10⟩])) := by
  obtain ⟨state', hredeem⟩ := transact_redeem (s := delegated) agentPairing rfl
    (by decide) (by decide) (show isBlank "agent" = false by decide)
  refine ⟨state', ?_⟩
  simp only [Routes.handle, Routes.redeemPairing, Routes.orAnswer, Routes.now, exec_exceptT_bind,
    exec_exceptT_adapt, mapError_ok, execThen_ok, exec_clock, exec_exceptT_pure,
    show draws.nowUnixMs = 10 from rfl, show agentBody.code = code from rfl,
    show agentBody.actorId = "agent" from rfl, exec_redeemPairing hredeem]

/-- The gateway after the pairing has been created and redeemed. -/
def delegatedWorld : World (gatewaySystem reference config) :=
  (freshWorld.after (workingGateway reference draws) 0 (.request delegation)).after
    (workingGateway reference draws) 1 (.request (.redeemPairing agentBody))

theorem delegatedWorld_reachable : Reachable noCodes anyEntry delegatedWorld :=
  (freshWorld_reachable.after (workingGateway_sound _ _ _) rfl trivial).after
    (workingGateway_sound _ _ _) rfl trivial

theorem delegatedWorld_log :
    delegatedWorld.log = (1, redeemed code "agent" 10 (redeemedGrant agentPairing "agent")) ::
      (1, ⟨.clock, Except.ok 10⟩) :: delegatedHistory.map (0, ·) := by
  obtain ⟨hshared, hlog⟩ := after_request (w := freshWorld) (i := 0) exec_delegation
  obtain ⟨_, hrun⟩ := exec_agent
  rw [← hshared] at hrun
  rw [delegatedWorld, (after_request hrun).2, hlog]
  rfl

/-- The owner's request has created the pairing the agent redeems. -/
theorem delegatedWorld_delegates :
    Delegates reference delegatedWorld
      ((1, ⟨.clock, Except.ok 10⟩) :: delegatedHistory.map (0, ·)) 0
      { scopes := ["gateway.read"], pairingTtlSeconds := none, grantTtlSeconds := none } owner
      code where
  request := by
    refine ⟨some "Bearer owner-token", "owner-token", 10, ?_, by decide, by simp [delegatedHistory]⟩
    rw [Handles, delegatedWorld, after_handles, if_neg (by decide), after_handles, if_pos rfl,
      delegation]
  created := by
    refine ⟨⟨code, agentPairing⟩, ?_⟩
    simp only [delegatedHistory, List.map_cons, lastCreation, createdPairing, if_pos]

end GatewaySample

/-- The scope to create pairings turns into a scope to read. -/
theorem delegated_other_scope :
    ∃ w : World (gatewaySystem reference GatewaySample.config),
      Reachable noCodes anyEntry w ∧ ¬ NeverAmplifies w := by
  refine ⟨_, GatewaySample.delegatedWorld_reachable, ?_⟩
  intro hnever
  obtain ⟨hscopes, _⟩ := hnever [] _ 1 _ _ _ _ GatewaySample.delegatedWorld_log 0 _ _
    GatewaySample.delegatedWorld_delegates
  exact absurd hscopes (by decide)

/-- An agent redeems what the owner has created for it. -/
theorem delegated_of_redeemed_agent :
    ∃ earlier issued, GatewaySample.delegatedWorld.log =
        (1, redeemed GatewaySample.code "agent" 10 issued) :: earlier ∧
      ∃ j body admin,
        Delegates reference GatewaySample.delegatedWorld earlier j body admin GatewaySample.code ∧
          Delegated body admin 10 issued := by
  refine ⟨_, _, GatewaySample.delegatedWorld_log, 0, _, _,
    GatewaySample.delegatedWorld_delegates, ?_⟩
  exact (delegated_of_redeemed GatewaySample.delegatedWorld_reachable
    (show _ = [] ++ _ from GatewaySample.delegatedWorld_log)).1 0 _ _
      GatewaySample.delegatedWorld_delegates

end VorCommander
