import VorCommander.Device.Dispatch

/-!
What the operations of a device do, and what its programs do with them.

`Commits` is the effect of one operation on the ledger shared by any number
of dispatchers. A ledger call that fails may or may not have committed; the
policy answers for the host as it is at that moment; the workers may return any
output and any error of their own, since the disk is not part of the ledger.

`Honest` is what the replies inside one call satisfy whatever other calls do
in between. Against it the programs of the broker are specified once: each
theorem of the last section says what has happened when one of them returns.
-/

namespace VorCommander

open Crypto Steps Steps.Program Text

/-! ### Effects on the ledger -/

/-- A ledger call that reports an error left the tables as they were, or had
its effect all the same. -/
def failed {α : Type} (db db' : Database) (attempted : Except AuditError (α × Database)) : Prop :=
  db' = db ∨ ∃ a, attempted = .ok (a, db')

/-- The effect of a ledger call that returns a value and new tables. -/
def transacts {α : Type} (db : Database) (reply : Except AuditError α) (db' : Database)
    (attempted : Except AuditError (α × Database)) : Prop :=
  match reply with
  | .ok a => attempted = .ok (a, db')
  | .error _ => failed db db' attempted

/-- The effect of a query. -/
def queries {α : Type} (db : Database) (reply : Except AuditError α) (db' : Database)
    (answer : Except AuditError α) : Prop :=
  db' = db ∧ ∀ a, reply = .ok a → answer = .ok a

/-- A worker fails with an error of its own, never with one of the broker. -/
def NoBrokerError (reply : Except DispatchError WorkerOutput) : Prop :=
  ∀ error, reply ≠ .error (.core error)

/-- The effect of an operation with a given reply on the shared ledger. -/
def DeviceOp.Commits (P : Primitives) (db : Database) : (op : DeviceOp) → op.Reply → Database → Prop
  | .append event, reply, db' => transacts db reply db' (.ok (db.append P event))
  | .hasOutcomeFor key outcome, reply, db' =>
      queries db reply db' (.ok (db.hasOutcomeFor key outcome))
  | .countPolicyAutoWritesSince actorId deviceId since, reply, db' =>
      queries db reply db' (db.countPolicyAutoWritesSince actorId deviceId since)
  | .sumPolicyAutoWriteBytesSince actorId deviceId since, reply, db' =>
      queries db reply db' (db.sumPolicyAutoWriteBytesSince actorId deviceId since)
  | .claimApprovalConsumed key at', reply, db' =>
      transacts db reply db' (db.claimApprovalConsumed key at')
  | .setExecutionRecoveryState key state at', reply, db' =>
      transacts db reply db' ((db.setExecutionRecoveryState key state at').map fun db' => ((), db'))
  | .selectEvents, reply, db' => queries db reply db' (.ok db.events)
  | .insertConsumption key at', reply, db' =>
      transacts db reply db' (.ok ((), db.insertConsumption key at'))
  | .evaluate policy request, reply, db' => db' = db ∧ ∃ host, reply = policy.evaluate host request
  | .verifyApproval verifier request decision approval now, reply, db' =>
      db' = db ∧ reply = verifier.verify P request decision approval now
  | .issueChallenge request decision now expires, reply, db' =>
      db' = db ∧ ∃ nonce, reply = ApprovalChallenge.issue P request decision now expires nonce
  | .prepareEdit _ _ _, _, db' => db' = db
  | .executeAuthorized _ _, reply, db' => db' = db ∧ NoBrokerError reply
  | .executeApproved _ _, reply, db' => db' = db ∧ NoBrokerError reply

/-! ### Events -/

namespace DeviceEvent

abbrev appended (event : AuditEvent) (record : AuditRecord) : Event Device :=
  ⟨.append event, Except.ok record⟩

abbrev evaluated (policy : PolicyEngine) (request : ActionRequest) (decision : PolicyDecision) :
    Event Device :=
  ⟨.evaluate policy request, decision⟩

abbrev verified (verifier : ApprovalVerifier) (request : ActionRequest) (decision : PolicyDecision)
    (approval : SignedApproval) (nowUnixMs : ℕ) : Event Device :=
  ⟨.verifyApproval verifier request decision approval nowUnixMs, Except.ok ()⟩

abbrev claimed (key : ApprovalKey) (nowUnixMs : ℕ) : Event Device :=
  ⟨.claimApprovalConsumed key nowUnixMs, Except.ok true⟩

abbrev issued (request : ActionRequest) (decision : PolicyDecision) (nowUnixMs expiresAt : ℕ)
    (challenge : ApprovalChallenge) : Event Device :=
  ⟨.issueChallenge request decision nowUnixMs expiresAt, Except.ok challenge⟩

end DeviceEvent

open DeviceEvent

/-- The event has been appended in this history. -/
def Recorded (h : History Device) (event : AuditEvent) : Prop :=
  ∃ record, appended event record ∈ h

/-- The replies a call can get, given what it has done itself: the policy
answers for some host, the verifier and the issuer are functions, what the
call has appended is found again, and workers fail with errors of their own. -/
def DeviceOp.Honest (P : Primitives) (h : History Device) : (op : DeviceOp) → op.Reply → Prop
  | .evaluate policy request, reply => ∃ host, reply = policy.evaluate host request
  | .verifyApproval verifier request decision approval now, reply =>
      reply = verifier.verify P request decision approval now
  | .issueChallenge request decision now expires, reply =>
      ∃ nonce, reply = ApprovalChallenge.issue P request decision now expires nonce
  | .hasOutcomeFor key outcome, reply =>
      ∀ event, Recorded h event → event.requestId = key.requestId →
        event.envelopeDigest = key.envelopeDigest → event.outcome = outcome → reply ≠ .ok false
  | .executeAuthorized _ _, reply => NoBrokerError reply
  | .executeApproved _ _, reply => NoBrokerError reply
  | _, _ => True

/-- The same, of an event. -/
def Honest (P : Primitives) (h : History Device) (e : Event Device) : Prop :=
  e.op.Honest P h e.reply

/-- Operations that neither issue a challenge nor reach a worker. -/
def DeviceOp.isBookkeeping : DeviceOp → Bool
  | .issueChallenge _ _ _ _ => false
  | .prepareEdit _ _ _ => false
  | .executeAuthorized _ _ => false
  | .executeApproved _ _ => false
  | _ => true

/-- The history has grown, by bookkeeping only. -/
def Extends (h h' : History Device) : Prop :=
  ∃ added, h' = added ++ h ∧ ∀ e ∈ added, e.op.isBookkeeping

theorem Extends.refl (h : History Device) : Extends h h := ⟨[], rfl, by simp⟩

theorem Extends.cons {h h' : History Device} {e : Event Device} (hh : Extends h h')
    (he : e.op.isBookkeeping) : Extends h (e :: h') := by
  obtain ⟨added, rfl, hadded⟩ := hh
  exact ⟨e :: added, rfl, by simpa using ⟨he, hadded⟩⟩

theorem Extends.trans {h h' h'' : History Device} (hh : Extends h h') (hh' : Extends h' h'') :
    Extends h h'' := by
  obtain ⟨added, rfl, hadded⟩ := hh
  obtain ⟨added', rfl, hadded'⟩ := hh'
  refine ⟨added' ++ added, by simp, fun e he => ?_⟩
  rcases List.mem_append.mp he with he | he
  · exact hadded' e he
  · exact hadded e he

theorem Extends.mem {h h' : History Device} {e : Event Device} (hh : Extends h h') (he : e ∈ h) :
    e ∈ h' := by
  obtain ⟨added, rfl, _⟩ := hh
  exact List.mem_append_right _ he

theorem Extends.recorded {h h' : History Device} {event : AuditEvent} (hh : Extends h h')
    (he : Recorded h event) : Recorded h' event :=
  he.imp fun _ => hh.mem

/-- What bookkeeping has not done was not done after it. -/
theorem Extends.mem_iff {h h' : History Device} {e : Event Device} (hh : Extends h h')
    (he : e.op.isBookkeeping = false) : e ∈ h' ↔ e ∈ h := by
  obtain ⟨added, rfl, hadded⟩ := hh
  rw [List.mem_append]
  refine or_iff_right fun hmem => ?_
  simpa [he] using hadded e hmem

/-! ### The broker -/

namespace Broker

variable {P : Primitives} {G : History Device → Device.Op → Prop} {policy : PolicyEngine}
  {h : History Device}

/-- The decision of `authorize_at` is the policy's, or the limiter's instead
of an automatic write. -/
def DecidedFrom (request : ActionRequest) (evaluated decision : PolicyDecision) : Prop :=
  decision = evaluated ∨
    evaluated.kind = .auto ∧ request.envelope.action = "filesystem.write" ∧
      decision = { evaluated with kind := .approval, reasonCode := "auto_write_rate_limited" }

/-- The limiter does not change under which policy a decision is taken. -/
theorem DecidedFrom.policyId {request : ActionRequest} {evaluated decision : PolicyDecision}
    (h : DecidedFrom request evaluated decision) : decision.policyId = evaluated.policyId := by
  rcases h with rfl | ⟨_, _, rfl⟩ <;> rfl

/-- What an authorisation rests on: the request verified, the policy was
asked, and the decision was appended under its name. -/
structure Authorized (P : Primitives) (policy : PolicyEngine) (nowUnixMs : ℕ)
    (h : History Device) (authorization : Authorization) : Prop where
  verified : authorization.request.verify P nowUnixMs = .ok ()
  decided : ∃ decision, evaluated policy authorization.request decision ∈ h ∧
    DecidedFrom authorization.request decision authorization.decision
  named : authorization.decision.policyId = policy.config.policyId
  recorded : Recorded h
    (authorizationEvent policy authorization.request authorization.decision nowUnixMs)

theorem Authorized.extends {h' : History Device} {now : ℕ} {authorization : Authorization}
    (hauth : Authorized P policy now h authorization) (hh : Extends h h') :
    Authorized P policy now h' authorization where
  verified := hauth.verified
  decided := hauth.decided.imp fun _ => And.imp_left hh.mem
  named := hauth.named
  recorded := hh.recorded hauth.recorded

theorem limitAutoWrites_safe (P : Primitives) (hG : ∀ h op, op.isBookkeeping → G h op)
    (request : ActionRequest)
    (decision : PolicyDecision) (now : ℕ) :
    Safe (I := Device) (Honest P) G
      (fun h' r => Extends h h' ∧ r ≠ .error .approvalNotPrepared ∧
        ∀ limited, r = .ok limited → DecidedFrom request decision limited)
      (limitAutoWrites policy request decision now).run h := by
  unfold limitAutoWrites
  split
  case isFalse =>
      rw [safe_exceptT_pure]
      exact ⟨.refl h, by simp, fun limited hl => .inl (Except.ok.inj hl).symm⟩
  case isTrue hauto =>
      simp only [safe_exceptT_bind, safe_exceptT_adapt, safe_countPolicyAutoWritesSince]
      refine ⟨hG _ _ rfl, ?_⟩
      rintro (e | count) _
      · exact ⟨(Extends.refl h).cons rfl, by simp, by simp⟩
      simp only [mapError_ok, then_ok, safe_exceptT_bind, safe_exceptT_adapt,
        safe_sumPolicyAutoWriteBytesSince]
      refine ⟨hG _ _ rfl, ?_⟩
      rintro (e | bytes) _
      · exact ⟨((Extends.refl h).cons rfl).cons rfl, by simp, by simp⟩
      simp only [mapError_ok, then_ok, safe_exceptT_pure]
      refine ⟨((Extends.refl h).cons rfl).cons rfl, by simp, fun limited hl => ?_⟩
      obtain rfl := Except.ok.inj hl
      unfold rateLimited
      split
      · exact .inr ⟨hauto.1, hauto.2, rfl⟩
      · exact .inl rfl

/-- `authorize_at` returns only what it has verified, evaluated and audited. -/
theorem authorizeAt_safe (P : Primitives) (hG : ∀ h op, op.isBookkeeping → G h op)
    (request : ActionRequest)
    (now : ℕ) :
    Safe (I := Device) (Honest P) G
      (fun h' r => Extends h h' ∧ r ≠ .error .approvalNotPrepared ∧
        ∀ authorization, r = .ok authorization →
          authorization.request = request ∧ Authorized P policy now h' authorization)
      (authorizeAt P policy request now).run h := by
  unfold authorizeAt
  simp only [safe_exceptT_bind, safe_check]
  cases hverify : request.verify P now with
  | error e => exact ⟨.refl h, by simp, by simp⟩
  | ok _ =>
      simp only [mapError_ok, then_ok, safe_exceptT_bind, safe_evaluatePolicy]
      refine ⟨hG _ _ rfl, ?_⟩
      rintro evaluated ⟨host, hevaluated⟩
      refine (limitAutoWrites_safe P hG request evaluated now).mono ?_
      rintro h' (e | decision) ⟨hh, hne, hdecided⟩
      · exact ⟨((Extends.refl h).cons rfl).trans hh, by simpa using hne, by simp⟩
      simp only [then_ok, safe_exceptT_bind, safe_exceptT_adapt, safe_append]
      refine ⟨hG _ _ rfl, ?_⟩
      have hext := (((Extends.refl h).cons (e := ⟨.evaluate policy request, evaluated⟩) rfl).trans
        hh)
      rintro (e | record) _
      · exact ⟨hext.cons rfl, by simp, by simp⟩
      simp only [mapError_ok, then_ok, safe_exceptT_pure]
      refine ⟨hext.cons rfl, by simp, fun authorization hauth => ?_⟩
      obtain rfl := Except.ok.inj hauth
      refine ⟨rfl, hverify, ⟨evaluated, List.mem_cons_of_mem _ (hh.mem List.mem_cons_self),
        hdecided decision rfl⟩, ?_, record, List.mem_cons_self⟩
      exact (hdecided decision rfl).policyId.trans (congrArg PolicyDecision.policyId hevaluated)

/-- `append_approval_event` only keeps books. -/
theorem appendApprovalEvent_safe (P : Primitives) (hG : ∀ h op, op.isBookkeeping → G h op)
    (request : ActionRequest) (actorId outcome : String) (now : ℕ) :
    Safe (I := Device) (Honest P) G
      (fun h' r => Extends h h' ∧ r ≠ .error .approvalNotPrepared)
      (appendApprovalEvent policy request actorId outcome now).run h := by
  unfold appendApprovalEvent
  simp only [safe_exceptT_bind, safe_evaluatePolicy, then_ok, safe_exceptT_adapt, safe_append]
  refine ⟨hG _ _ rfl, fun decision _ => ⟨hG _ _ rfl, ?_⟩⟩
  rintro (e | record) _
  · exact ⟨((Extends.refl h).cons rfl).cons rfl, by simp⟩
  · simp only [mapError_ok, then_ok, safe_exceptT_pure]
    exact ⟨((Extends.refl h).cons rfl).cons rfl, by simp⟩

/-- `audit_outcome_at` only keeps books, and what it returned on is
recorded. -/
theorem auditOutcomeAt_safe (P : Primitives) (hG : ∀ h op, op.isBookkeeping → G h op)
    (authorization : Authorization) (outcome : String) (now : ℕ) :
    Safe (I := Device) (Honest P) G
      (fun h' r => Extends h h' ∧ r ≠ .error .approvalNotPrepared ∧
        (r = .ok () → Recorded h' (outcomeEvent policy authorization outcome now)))
      (auditOutcomeAt policy authorization outcome now).run h := by
  unfold auditOutcomeAt
  simp only [safe_exceptT_bind, safe_exceptT_adapt, safe_append]
  refine ⟨hG _ _ rfl, ?_⟩
  rintro (e | record) _
  · exact ⟨(Extends.refl h).cons rfl, by simp, by simp⟩
  · simp only [mapError_ok, then_ok, safe_exceptT_pure]
    exact ⟨(Extends.refl h).cons rfl, by simp, fun _ => ⟨record, List.mem_cons_self⟩⟩

theorem setExecutionRecoveryState_safe (P : Primitives) (hG : ∀ h op, op.isBookkeeping → G h op)
    (authorization : Authorization) (state : ExecutionRecoveryState) (now : ℕ) :
    Safe (I := Device) (Honest P) G
      (fun h' r => Extends h h' ∧ r ≠ .error .approvalNotPrepared)
      (setExecutionRecoveryState authorization state now).run h := by
  unfold setExecutionRecoveryState
  simp only [safe_exceptT_adapt, safe_setExecutionRecoveryState]
  refine ⟨hG _ _ rfl, ?_⟩
  rintro (e | u) _
  · exact ⟨(Extends.refl h).cons rfl, by simp⟩
  · exact ⟨(Extends.refl h).cons rfl, by simp⟩

/-- What a consumed approval rests on: the policy asked for an approval, the
verifier accepted this one for that decision, and this call inserted the
consumption. -/
structure Consumed (P : Primitives) (policy : PolicyEngine) (verifier : ApprovalVerifier)
    (approval : SignedApproval) (nowUnixMs : ℕ) (h : History Device)
    (execution : ExecutionAuthorization) : Prop where
  evaluated : evaluated policy execution.authorization.request execution.authorization.decision ∈ h
  verified : verified verifier execution.authorization.request execution.authorization.decision
    approval nowUnixMs ∈ h
  accepted : verifier.verify P execution.authorization.request execution.authorization.decision
    approval nowUnixMs = .ok ()
  claimed : claimed execution.authorization.request.key nowUnixMs ∈ h

theorem Consumed.extends {h' : History Device} {verifier : ApprovalVerifier}
    {approval : SignedApproval} {now : ℕ} {execution : ExecutionAuthorization}
    (hcon : Consumed P policy verifier approval now h execution) (hh : Extends h h') :
    Consumed P policy verifier approval now h' execution where
  evaluated := hh.mem hcon.evaluated
  verified := hh.mem hcon.verified
  accepted := hcon.accepted
  claimed := hh.mem hcon.claimed

/-- A history in which a decision for approval has been appended under the
key. -/
def ApprovalRecorded (key : ApprovalKey) (h : History Device) : Prop :=
  ∃ event, Recorded h event ∧ event.requestId = key.requestId ∧
    event.envelopeDigest = key.envelopeDigest ∧ event.outcome = "approval"

/-- `consume_approval_at` returns only for an approval it has verified and
claimed, and never finds its own authorisation missing. -/
theorem consumeApprovalAt_safe (P : Primitives) (hG : ∀ h op, op.isBookkeeping → G h op)
    (request : ActionRequest)
    (approval : SignedApproval) (verifier : ApprovalVerifier) (now : ℕ) :
    Safe (I := Device) (Honest P) G
      (fun h' r => Extends h h' ∧
        (ApprovalRecorded request.key h → r ≠ .error .approvalNotPrepared) ∧
        ∀ execution, r = .ok execution → execution.authorization.request = request ∧
          Consumed P policy verifier approval now h' execution)
      (consumeApprovalAt P policy request approval verifier now).run h := by
  unfold consumeApprovalAt
  simp only [safe_exceptT_bind, safe_check]
  cases hverify : request.verify P now with
  | error e => exact ⟨.refl h, by simp, by simp⟩
  | ok _ =>
      simp only [mapError_ok, then_ok, safe_exceptT_bind, safe_evaluatePolicy, safe_exceptT_adapt,
        safe_hasOutcomeFor]
      refine ⟨hG _ _ rfl, fun decision _ => ⟨hG _ _ rfl, ?_⟩⟩
      have hext₁ := ((Extends.refl h).cons (e := ⟨.evaluate policy request, decision⟩) rfl)
      rintro (e | prepared) honest
      · exact ⟨hext₁.cons rfl, by simp, by simp⟩
      have hext₂ :=
        hext₁.cons (e := ⟨.hasOutcomeFor request.key "approval", Except.ok prepared⟩) rfl
      simp only [mapError_ok, then_ok, safe_exceptT_bind, safe_check]
      cases prepared with
      | false =>
          refine ⟨hext₂, ?_, by simp⟩
          rintro ⟨event, hrec, hid, hdigest, hout⟩
          exact absurd rfl (honest event (hext₁.recorded hrec) hid hdigest hout)
      | true =>
          simp only [not_true_eq_false, failIf_of_false, then_ok, safe_exceptT_bind,
            safe_exceptT_adapt, safe_verifyApproval, not_false_eq_true]
          refine ⟨hG _ _ rfl, ?_⟩
          rintro (e | _) haccepted
          · exact ⟨hext₂.cons rfl, by simp, by simp⟩
          have hext₃ := hext₂.cons (e := verified verifier request decision approval now) rfl
          simp only [mapError_ok, then_ok, safe_exceptT_bind, safe_exceptT_adapt,
            safe_claimApprovalConsumed]
          refine ⟨hG _ _ rfl, ?_⟩
          rintro (e | inserted) _
          · exact ⟨hext₃.cons rfl, by simp, by simp⟩
          simp only [mapError_ok, then_ok, safe_exceptT_bind, safe_check]
          cases inserted with
          | false => exact ⟨hext₃.cons rfl, by simp, by simp⟩
          | true =>
              have hext₄ := hext₃.cons (e := claimed request.key now) rfl
              simp only [not_true_eq_false, failIf_of_false, then_ok, safe_exceptT_bind,
                not_false_eq_true]
              refine (appendApprovalEvent_safe P hG request approval.approverId _ now).mono ?_
              rintro h₁ (e | _) ⟨hh₁, hne₁⟩
              · exact ⟨hext₄.trans hh₁, fun _ => by simpa using hne₁, by simp⟩
              simp only [then_ok, safe_exceptT_bind]
              refine (appendApprovalEvent_safe P hG request request.envelope.actorId _ now).mono ?_
              rintro h₂ (e | _) ⟨hh₂, hne₂⟩
              · exact ⟨(hext₄.trans hh₁).trans hh₂, fun _ => by simpa using hne₂, by simp⟩
              simp only [then_ok, safe_exceptT_pure]
              refine ⟨(hext₄.trans hh₁).trans hh₂, by simp, fun execution hex => ?_⟩
              obtain rfl := Except.ok.inj hex
              have hlate := hh₁.trans hh₂
              exact ⟨rfl, ⟨hlate.mem (by simp), hlate.mem (by simp), haccepted.symm,
                hlate.mem (by simp)⟩⟩

end Broker

end VorCommander
