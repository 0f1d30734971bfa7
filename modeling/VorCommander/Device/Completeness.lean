import VorCommander.Device.Budget

/-!
Completeness of approvals.

A broker that asks for an approval should accept it. The call that consumes
evaluates the policy again instead of using the decision that was audited, so
it accepts an approval only where the policy itself asks for one. An approval
that the write limiter asked for is refused, since the policy would have let
the write pass.
-/

namespace VorCommander

open Crypto Steps Steps.Program Steps.World Text DeviceEvent

/-! ### Ledgers of a run -/

theorem DeviceOp.Commits.coherent {P : Primitives} {db db' : Database} {op : DeviceOp}
    {reply : op.Reply} (h : op.Commits P db reply db') (hdb : db.Coherent) : db'.Coherent := by
  rcases h.effect with rfl | heffect
  · exact hdb
  cases op with
  | append event =>
      obtain rfl := Option.some.inj heffect
      exact hdb
  | claimApprovalConsumed key at' =>
      obtain ⟨⟨inserted, _⟩, hclaim, rfl⟩ := Option.map_eq_some_iff.mp heffect
      exact hdb.claimApprovalConsumed (toOption_eq_some.mp hclaim)
  | setExecutionRecoveryState key state at' =>
      exact hdb.setExecutionRecoveryState (toOption_eq_some.mp heffect)
  | insertConsumption key at' =>
      obtain rfl := Option.some.inj heffect
      exact hdb.insertConsumption key at'
  | _ => cases heffect

/-- What every operation keeps, a program on a working ledger keeps. -/
theorem exec_keeps (P : Primitives) (o : Surroundings) {α : Type} {J : Database → Prop}
    (hJ : ∀ (op : DeviceOp) (reply : op.Reply) db db', op.Commits P db reply db' → J db → J db')
    (p : Program Device α) {db : Database} (hdb : J db) : J (exec (workingLedger P o) p db).2 := by
  induction p generalizing db with
  | done a => exact hdb
  | step op next ih => exact ih _ (hJ op _ db _ (workingLedger_commits op) hdb)

section Runs

variable {L : Libraries} {init : Database → Prop} {mayStart : World (deviceSystem L) → Start → Prop}
  {w : World (deviceSystem L)}

theorem coherent_reachable (hw : Reachable init mayStart w) (hinit : ∀ db, init db → db.Coherent) :
    w.shared.Coherent :=
  hw.invariant (J := fun (db : Database) _ => db.Coherent)
    (fun db hdb => hinit db hdb) fun _ _ _ _ _ hdb h =>
    DeviceOp.Commits.coherent h hdb

/-- What was in the records at the start stays in them. -/
theorem events_reachable {db : Database} (hw : Reachable (fun s => s = db) mayStart w)
    {event : AuditEvent} (hevent : event ∈ db.events) : event ∈ w.shared.events := by
  refine hw.invariant (J := fun (s : Database) _ => event ∈ s.events) (fun s hs => hs ▸ hevent) ?_
  rintro s log i e s' hs h
  rcases DeviceOp.Commits.events h with heq | ⟨_, _, heq⟩ <;> simp [heq, hs]

end Runs

/-! ### When an approval is accepted -/

/-- A signed approval over a decision: its challenge was issued for the
decision, and an approver signed it whose word counts for the request. -/
structure ApprovalGiven (P : Primitives) (verifier : ApprovalVerifier)
    (authorization : Authorization) (approval : SignedApproval) : Prop where
  issued : ∃ now expiresAt nonce, ApprovalChallenge.issue P authorization.request
    authorization.decision now expiresAt nonce = .ok approval.challenge
  signed : ∃ approverId key approver,
    signApproval P approval.challenge approverId key = .ok approval ∧
      verifier.approvers[approverId]? = some approver ∧ approver.key = P.publicKey key ∧
      verifier.Authorizes approver authorization.request authorization.decision

section Completeness

variable {L : Libraries} {policy : PolicyEngine} {o o' : Surroundings} {request : ActionRequest}
  {verifier : ApprovalVerifier} {authorization : Authorization} {approval : SignedApproval}
  {now now' : ℕ} {db : Database}

/-- An approval that was given for a decision is accepted for another
decision on the same request if that one asks for an approval of the same
capability, and for no other. -/
theorem ApprovalGiven.accepted_iff {P : Primitives} (hP : P.Correct)
    (hgiven : ApprovalGiven P verifier authorization approval) (host : Host)
    (hpolicy : authorization.decision.policyId = policy.config.policyId)
    (hrequest : now < authorization.request.envelope.expiresAtUnixMs)
    (hchallenge : now < approval.challenge.expiresAtUnixMs) :
    verifier.verify P authorization.request
      (policy.evaluate host authorization.request) approval now =
        .ok () ↔
      (policy.evaluate host authorization.request).kind = .approval ∧
        (policy.evaluate host authorization.request).requiredCapability =
          authorization.decision.requiredCapability := by
  obtain ⟨⟨issuedAt, expiresAt, nonce, hissue⟩, approverId, key, approver, hsign, hget, hkey,
    hauthorizes⟩ := hgiven
  obtain ⟨hverified, _, _, _, _, hwithin, _, hchallengeEq⟩ :=
    ApprovalChallenge.issue_eq_ok_iff.mp hissue
  obtain ⟨hsame, hid, message, hmessage, hsignature⟩ := signApproval_eq_ok hP hsign
  rw [ApprovalVerifier.verify_eq_ok_iff]
  constructor
  · rintro ⟨_, _, _, hkind, hbinds, _⟩
    exact ⟨hkind, hbinds.requiredCapability.symm.trans (by rw [hchallengeEq])⟩
  · rintro ⟨hkind, hcapability⟩
    obtain ⟨hvalid, hdigest, _⟩ := ActionRequest.verify_eq_ok_iff.mp hverified
    refine ⟨ActionRequest.verify_eq_ok_iff.mpr ⟨hvalid, hdigest, hrequest⟩, rfl, rfl, hkind, ?_,
      approver, by rw [hid, hget], ?_, message, by rw [hid, hmessage], by rw [hkey, hsignature]⟩
    · rw [hchallengeEq] at hchallenge ⊢
      exact ⟨rfl, rfl, hpolicy, hcapability.symm, hchallenge, hwithin⟩
    · refine ⟨hauthorizes.active, ?_, hauthorizes.scope, hauthorizes.tenant⟩
      rw [hcapability]
      exact hauthorizes.sufficient

/-- What an authorisation that asks for an approval leaves behind: the request
verified, the policy was asked, and the authorisation is in the records. -/
theorem authorizeAt_asked {P : Primitives} {db' : Database}
    (hauthorize : exec (workingLedger P o) (Broker.authorizeAt P policy request now).run db =
      (.ok authorization, db'))
    (hasks : authorization.requiresApproval) :
    authorization.request = request ∧ request.verify P now = .ok () ∧
      authorization.decision.policyId = policy.config.policyId ∧
      db'.hasOutcomeFor request.key "approval" = true := by
  have hsafe : Safe (I := Device) (Honest P) (fun _ _ => True) _
      (Broker.authorizeAt P policy request now).run [] :=
    Broker.authorizeAt_safe P (fun _ _ _ => trivial) request now
  obtain ⟨h, hpost, hrecords⟩ := Safe.working (P := P) (o := o) db hsafe
  rw [hauthorize] at hpost hrecords
  obtain ⟨rfl, hauthorized⟩ := hpost.2.2 authorization rfl
  refine ⟨rfl, hauthorized.verified, hauthorized.named, Database.hasOutcomeFor_iff.mpr
    ⟨_, hrecords _ hauthorized.recorded, rfl, rfl, congrArg Broker.outcomeOf hasks⟩⟩

/-- What the ledger of an authorisation that asked for an approval is like
from then on: the request is known to have been prepared, and a pair that was
never consumed has no execution. -/
theorem asked_reachable {w₁ w₂ : World (deviceSystem L)} {db₁ db₂ : Database}
    (hw₁ : Reachable freshLedger anyEntry w₁)
    (hauthorize : exec (workingLedger L.toPrimitives o)
      (Broker.authorizeAt L.toPrimitives policy request now).run w₁.shared =
        (.ok authorization, db₁))
    (hasks : authorization.requiresApproval)
    (hw₂ : Reachable (fun db => db = db₁) anyEntry w₂) (hdb₂ : w₂.shared = db₂) :
    db₂.Coherent ∧ db₂.hasOutcomeFor request.key "approval" = true := by
  obtain ⟨_, _, _, hasked⟩ := authorizeAt_asked hauthorize hasks
  subst hdb₂
  constructor
  · refine coherent_reachable hw₂ fun db hdb => ?_
    have hfresh : Database.Coherent w₁.shared := coherent_reachable hw₁ fun db hdb key hkey => by
      simp [show db = .empty from hdb, Database.empty] at hkey
    have hkept := exec_keeps L.toPrimitives o (fun _ _ _ _ h => DeviceOp.Commits.coherent h)
      (Broker.authorizeAt L.toPrimitives policy request now).run hfresh
    rw [hauthorize] at hkept
    exact (show db = db₁ from hdb) ▸ hkept
  · obtain ⟨event, hevent, hfields⟩ := Database.hasOutcomeFor_iff.mp hasked
    exact Database.hasOutcomeFor_iff.mpr ⟨event, events_reachable hw₂ hevent, hfields⟩

/-- The first approval of a request is accepted if and only if the policy asks
for it when it is consumed, and not only the limiter when it was authorised. -/
theorem consumeApprovalAt_succeeds_iff (hP : L.toPrimitives.Correct)
    {w₁ w₂ : World (deviceSystem L)} {db₁ db₂ : Database}
    (hw₁ : Reachable freshLedger anyEntry w₁)
    (hauthorize : exec (workingLedger L.toPrimitives o)
      (Broker.authorizeAt L.toPrimitives policy request now).run w₁.shared =
        (.ok authorization, db₁))
    (hasks : authorization.requiresApproval)
    (hgiven : ApprovalGiven L.toPrimitives verifier authorization approval)
    (hw₂ : Reachable (fun db => db = db₁) anyEntry w₂) (hdb₂ : w₂.shared = db₂)
    (hrequest : now' < request.envelope.expiresAtUnixMs)
    (hchallenge : now' < approval.challenge.expiresAtUnixMs) :
    (∃ execution, (exec (workingLedger L.toPrimitives o')
      (Broker.consumeApprovalAt L.toPrimitives policy request approval verifier now').run
        db₂).1 = .ok execution) ↔
      ((policy.evaluate o'.host request).kind = .approval ∧
        (policy.evaluate o'.host request).requiredCapability =
          authorization.decision.requiredCapability) ∧
      db₂.consumptions request.key = none ∧ now' < 2 ^ 63 := by
  obtain ⟨hcoherent, hprepared⟩ := asked_reachable hw₁ hauthorize hasks hw₂ hdb₂
  obtain ⟨rfl, hverified, hpolicy, _⟩ := authorizeAt_asked hauthorize hasks
  have haccepted := hgiven.accepted_iff hP o'.host hpolicy hrequest hchallenge
  rw [Broker.consumeApprovalAt_eq_ok_iff]
  constructor
  · intro h
    obtain ⟨hconsumption, _, htime⟩ := Database.claimApprovalConsumed_inserts_iff.mp h.claimed
    exact ⟨haccepted.mp h.accepted, hconsumption, htime⟩
  · rintro ⟨hpolicy, hconsumption, htime⟩
    obtain ⟨hvalid, hdigest, _⟩ := ActionRequest.verify_eq_ok_iff.mp hverified
    have hexecution : db₂.executions authorization.request.key = none := by
      by_contra hsome
      have := hcoherent _ (Option.isSome_iff_ne_none.mpr hsome)
      simp [hconsumption] at this
    exact ⟨ActionRequest.verify_eq_ok_iff.mpr ⟨hvalid, hdigest, hrequest⟩, hprepared,
      haccepted.mpr hpolicy,
      Database.claimApprovalConsumed_inserts_iff.mpr ⟨hconsumption, hexecution, htime⟩⟩

end Completeness

/-! ### An approval that only the limiter asked for -/

namespace Sample

/-- A policy that lets writes pass, with a limiter that lets none pass. -/
def noWritePolicy : PolicyEngine where
  config := { oneWritePolicy.config with autoWrite := { maxFilesPerMinute := 0 } }
  policyHash := "sample"
  supported := rfl
  named := by decide

/-- The decision of the limiter on the write. -/
def limited : Authorization :=
  ⟨write, { noWritePolicy.evaluate surroundings.host write with
    kind := .approval, reasonCode := "auto_write_rate_limited" }⟩

/-- A fresh ledger once a decision is audited. -/
def auditedLedger (policy : PolicyEngine) (authorization : Authorization) : Database :=
  (Database.empty.append reference
    (Broker.authorizationEvent policy authorization.request authorization.decision 10)).2

theorem limited_authorized :
    exec (workingLedger reference surroundings)
        (Broker.authorizeAt reference noWritePolicy write 10).run Database.empty =
      (.ok limited, auditedLedger noWritePolicy limited) := by
  rw [Broker.authorizeAt_run write_verify]
  rfl

/-- The approver's signature is an approval of any decision under a policy
named `sample` that asks for no capability. -/
theorem approvalGiven {request : ActionRequest} {decision : PolicyDecision}
    (hverify : request.verify reference 10 = .ok ())
    (hdecision : decision.requestId = request.envelope.requestId ∧
      decision.envelopeDigest = request.envelopeDigest ∧ decision.kind = .approval ∧
      decision.policyId = "sample" ∧ decision.requiredCapability = none)
    (hexpires : request.envelope.expiresAtUnixMs = 1000)
    (hmessage : (approvalMessage (challenge request) "approver").toOption.isSome) :
    ApprovalGiven reference verifier ⟨request, decision⟩ (signed (challenge request)) := by
  obtain ⟨hid, hdigest, hkind, hname, hcapability⟩ := hdecision
  obtain ⟨message, hsome⟩ := Option.isSome_iff_exists.mp hmessage
  refine ⟨⟨10, 1000, Vector.replicate 32 0, ApprovalChallenge.issue_eq_ok_iff.mpr
    ⟨hverify, hid, hdigest, hkind, by decide, hexpires.ge, by rw [hname]; decide, ?_⟩⟩,
    "approver", signingKey, approver, ?_, by simp [verifier], rfl, ⟨rfl, ?_, ?_, ?_⟩⟩
  · rw [hname, hcapability]
    rfl
  · simp only [signed, signApproval, toOption_eq_some.mp hsome]
    rfl
  · exact ⟨.approve, by rw [hcapability]; rfl, by decide⟩
  · simp [verifier]
  · simp [approver]

end Sample

/-- The limiter asks for an approval of a write. The approver gives it, and
the broker answers that the decision does not require an approval. -/
theorem limited_refused :
    let db₁ := Sample.auditedLedger Sample.noWritePolicy Sample.limited
    let approval := Sample.signed (Sample.challenge Sample.write)
    exec (workingLedger reference Sample.surroundings)
        (Broker.authorizeAt reference Sample.noWritePolicy Sample.write 10).run Database.empty =
      (.ok Sample.limited, db₁) ∧
    Sample.limited.requiresApproval ∧
    ApprovalGiven reference Sample.verifier Sample.limited approval ∧
    db₁.consumptions Sample.write.key = none ∧
    (exec (workingLedger reference Sample.surroundings)
      (Broker.consumeApprovalAt reference Sample.noWritePolicy Sample.write approval
        Sample.verifier 10).run db₁).1 = .error (.approval .decisionDoesNotRequireApproval) := by
  intro db₁ approval
  refine ⟨Sample.limited_authorized, rfl, Sample.approvalGiven Sample.write_verify
    ⟨rfl, rfl, rfl, rfl, rfl⟩ rfl (by decide), rfl, ?_⟩
  have hprepared : db₁.hasOutcomeFor Sample.write.key "approval" = true :=
    Database.hasOutcomeFor_append rfl rfl rfl
  have hrefused : Sample.verifier.verify reference Sample.write
      (Sample.noWritePolicy.evaluate Sample.surroundings.host Sample.write) approval 10 =
        .error .decisionDoesNotRequireApproval :=
    ApprovalVerifier.verify_of_kind_ne Sample.write_verify rfl rfl (by decide)
  simp only [Broker.consumeApprovalAt, exec_exceptT_bind, exec_check, Sample.write_verify,
    mapError_ok, execThen_ok, exec_evaluatePolicy, exec_exceptT_adapt,
      exec_hasOutcomeFor, hprepared,
    not_true_eq_false, not_false_eq_true, failIf_of_false, exec_verifyApproval, hrefused]
  rfl

/-- An approval that the policy itself asked for is consumed. -/
theorem consumeApprovalAt_succeeds_iff_termination :
    let authorization : Authorization := ⟨Sample.termination,
      Sample.terminationPolicy.evaluate Sample.surroundings.host Sample.termination⟩
    ∃ execution, (exec (workingLedger reference Sample.surroundings)
      (Broker.consumeApprovalAt reference Sample.terminationPolicy Sample.termination
        (Sample.signed (Sample.challenge Sample.termination)) Sample.verifier 20).run
      (Sample.auditedLedger Sample.terminationPolicy authorization)).1 = .ok execution := by
  have hfresh : Reachable freshLedger anyEntry
      (initial Database.empty : World (deviceSystem (Sample.libraries ∅))) := reachable_initial rfl
  have hauthorize : exec (workingLedger reference Sample.surroundings)
      (Broker.authorizeAt reference Sample.terminationPolicy Sample.termination 10).run
      Database.empty = _ := Broker.exec_authorizeAt Sample.termination_verify (by decide)
  exact (consumeApprovalAt_succeeds_iff (L := Sample.libraries ∅) reference_correct hfresh
    hauthorize rfl
    (Sample.approvalGiven Sample.termination_verify ⟨rfl, rfl, rfl, rfl, rfl⟩ rfl (by decide))
    (reachable_initial rfl) rfl (by decide) (by decide)).mpr ⟨⟨rfl, rfl⟩, rfl, by decide⟩

end VorCommander
