import VorCommander.Device.Semantics

/-!
What holds whenever a dispatcher reaches a worker.

`Guarantee` says, for each operation that leaves the books, what the call
that performs it has already established. `Job.program_safe` proves it of
every entry point at once; the results about runs only read it off the log.
-/

namespace VorCommander

open Crypto Steps Steps.Program Text DeviceEvent

/-- The entry points of a dispatcher. -/
inductive Job
  | dispatchProtoAt (request : V1.ActionRequest)
  | dispatchProtoReportAt (request : V1.ActionRequest)
  | dispatchAt (request : ActionRequest)
  | dispatchApprovedProtoAt (approved : V1.ApprovedActionRequest)
  | dispatchApprovedProtoReportAt (approved : V1.ApprovedActionRequest)
  | dispatchApprovedAt (request : ActionRequest) (approval : SignedApproval)

namespace Job

variable (L : Libraries) (d : Dispatcher) (nowUnixMs : ℕ)

def program : Job → DeviceM DispatchError V1.ActionResult
  | .dispatchProtoAt request => Dispatch.dispatchProtoAt L d request nowUnixMs
  | .dispatchProtoReportAt request => Dispatch.dispatchProtoReportAt L d request nowUnixMs
  | .dispatchAt request => Dispatch.dispatchAt L d request nowUnixMs
  | .dispatchApprovedProtoAt approved => Dispatch.dispatchApprovedProtoAt L d approved nowUnixMs
  | .dispatchApprovedProtoReportAt approved =>
      Dispatch.dispatchApprovedProtoReportAt L d approved nowUnixMs
  | .dispatchApprovedAt request approval =>
      Dispatch.dispatchApprovedAt L d request approval nowUnixMs

/-- The signed approval in a message. -/
def approvalOf (approved : V1.ApprovedActionRequest) : Option SignedApproval :=
  approved.approval.bind fun grant => (Wire.approvalGrantFromProto grant).toOption

/-- The signed approval an entry point is called with. -/
def approval : Job → Option SignedApproval
  | .dispatchProtoAt _ | .dispatchProtoReportAt _ | .dispatchAt _ => none
  | .dispatchApprovedProtoAt approved | .dispatchApprovedProtoReportAt approved =>
      approvalOf approved
  | .dispatchApprovedAt _ approval => some approval

/-- The entry points that answer with an approval challenge. -/
def prepares : Job → Prop
  | .dispatchProtoAt _ | .dispatchProtoReportAt _ => True
  | _ => False

end Job

section Established

variable (P : Primitives) (d : Dispatcher) (nowUnixMs : ℕ) (h : History Device)

/-- A request that verified at the time of the call, is for this device, and
on which the policy decided something other than to deny it. -/
structure Vetted (request : ActionRequest) (decision : PolicyDecision) : Prop where
  verified : request.verify P nowUnixMs = .ok ()
  device : request.envelope.deviceId = d.deviceId
  evaluated : evaluated d.policy request decision ∈ h
  notDenied : decision.kind ≠ .deny

/-- An action that may run without a signature once policy has said so. -/
def RunsUnsigned (authorization : Authorization) : Prop :=
  remoteActionAllowed authorization.request.envelope.action = true ∨
    Dispatch.policyWriteAttempt authorization ∨ Dispatch.safeTerminal authorization

/-- No approved action has been run. -/
def NotExecuted : Prop := ∀ e ∈ h, ∀ d execution, e.op ≠ .executeApproved d execution

end Established

/-- What a call has established when it performs an operation. -/
def Guarantee (P : Primitives) (d : Dispatcher) (nowUnixMs : ℕ) (job : Job)
    (h : History Device) : DeviceOp → Prop
  | .executeAuthorized d' authorization =>
      d' = d ∧ Vetted P d nowUnixMs h authorization.request authorization.decision ∧
        authorization.isAuto ∧ RunsUnsigned authorization
  | .executeApproved d' execution =>
      d' = d ∧
        Vetted P d nowUnixMs h execution.authorization.request execution.authorization.decision ∧
        NotExecuted h ∧
        ∃ approval, job.approval = some approval ∧
          Broker.Consumed P d.policy d.approvalVerifier approval nowUnixMs h execution
  | .prepareEdit d' authorization _ =>
      d' = d ∧ (∃ decision, Vetted P d nowUnixMs h authorization.request decision) ∧
        ¬ authorization.isDenied ∧ job.prepares
  | .issueChallenge _ _ _ _ => job.prepares
  | _ => True

variable {L : Libraries} {d : Dispatcher} {now : ℕ} {h : History Device} {job : Job}

theorem Guarantee.bookkeeping (P : Primitives) (d : Dispatcher) (now : ℕ) (job : Job)
    (h : History Device) (op : Device.Op) (hop : DeviceOp.isBookkeeping op) :
    Guarantee P d now job h op := by
  cases op <;> trivial

theorem Vetted.extends {P : Primitives} {h' : History Device} {request : ActionRequest}
    {decision : PolicyDecision} (hv : Vetted P d now h request decision) (hh : Extends h h') :
    Vetted P d now h' request decision :=
  { hv with evaluated := hh.mem hv.evaluated }

theorem NotExecuted.extends {h' : History Device} (hn : NotExecuted h) (hh : Extends h h') :
    NotExecuted h' := by
  intro e he d execution hop
  have hmem : e ∈ h := (hh.mem_iff (by rw [hop]; rfl)).mp he
  exact hn e hmem d execution hop

/-- An authorisation that is not denied rests on a vetted request. -/
theorem Broker.Authorized.vetted {P : Primitives} {authorization : Authorization}
    (hauth : Broker.Authorized P d.policy now h authorization)
    (hdevice : authorization.request.envelope.deviceId = d.deviceId)
    (hdenied : ¬ authorization.isDenied) :
    ∃ decision, Vetted P d now h authorization.request decision := by
  obtain ⟨decision, hevaluated, hdecided⟩ := hauth.decided
  refine ⟨decision, hauth.verified, hdevice, hevaluated, fun hdeny => hdenied ?_⟩
  rcases hdecided with heq | ⟨hauto, _⟩
  · exact (congrArg PolicyDecision.kind heq).trans hdeny
  · simp [hauto] at hdeny

/-- An automatic authorisation is the decision of the policy itself. -/
theorem Broker.Authorized.vetted_auto {P : Primitives} {authorization : Authorization}
    (hauth : Broker.Authorized P d.policy now h authorization)
    (hdevice : authorization.request.envelope.deviceId = d.deviceId)
    (hauto : authorization.isAuto) :
    Vetted P d now h authorization.request authorization.decision := by
  have hkind : authorization.decision.kind = .auto := hauto
  obtain ⟨decision, hevaluated, hdecided⟩ := hauth.decided
  rcases hdecided with heq | ⟨_, _, hlimited⟩
  · exact ⟨hauth.verified, hdevice, heq ▸ hevaluated, by simp [hkind]⟩
  · simp [hlimited] at hkind

/-- An accepted approval is over a decision that asked for one. -/
theorem Broker.Consumed.vetted {P : Primitives} {approval : SignedApproval}
    {execution : ExecutionAuthorization}
    (hcon : Broker.Consumed P d.policy d.approvalVerifier approval now h execution)
    (hdevice : execution.authorization.request.envelope.deviceId = d.deviceId) :
    Vetted P d now h execution.authorization.request execution.authorization.decision := by
  obtain ⟨hverify, _, _, hkind, _⟩ := ApprovalVerifier.verify_eq_ok_iff.mp hcon.accepted
  exact ⟨hverify, hdevice, hcon.evaluated, by simp [hkind]⟩

namespace Dispatch

/-- No call is refused for want of a prepared approval. -/
def FindsPreparation {α : Type} (r : Except DispatchError α) : Prop :=
  r ≠ .error (.core .approvalNotPrepared)

variable {authorization : Authorization}

/-- An outcome is audited and an error returned. -/
theorem auditThenThrow_safe {outcome : String} {error : DispatchError}
    (herror : error ≠ .core .approvalNotPrepared) :
    Safe (I := Device) (Honest L.toPrimitives) (Guarantee L.toPrimitives d now job)
      (fun _ r => FindsPreparation r)
      (do
        ExceptT.adapt .core (Broker.auditOutcomeAt d.policy authorization outcome now)
        throw error : DeviceM DispatchError V1.ActionResult).run h := by
  simp only [safe_exceptT_bind, safe_exceptT_adapt]
  refine (Broker.auditOutcomeAt_safe _ (Guarantee.bookkeeping L.toPrimitives d now job)
    authorization outcome now).mono ?_
  rintro h' (e | _) ⟨_, hne, _⟩
  · simpa [FindsPreparation] using hne
  · simpa [FindsPreparation] using herror

/-- A recovery state is written and an error returned. -/
theorem recoverThenThrow_safe {state : ExecutionRecoveryState} {error : DispatchError}
    (herror : error ≠ .core .approvalNotPrepared) :
    Safe (I := Device) (Honest L.toPrimitives) (Guarantee L.toPrimitives d now job)
      (fun _ r => FindsPreparation r)
      (do
        ExceptT.adapt .core (Broker.setExecutionRecoveryState authorization state now)
        throw error : DeviceM DispatchError V1.ActionResult).run h := by
  simp only [safe_exceptT_bind, safe_exceptT_adapt]
  refine (Broker.setExecutionRecoveryState_safe _ (Guarantee.bookkeeping L.toPrimitives d now job)
    authorization state now).mono ?_
  rintro h' (e | _) ⟨_, hne⟩
  · simpa [FindsPreparation] using hne
  · simpa [FindsPreparation] using herror

theorem findsPreparation_completedAt (now : ℕ) : FindsPreparation (completedAt now) := by
  unfold completedAt FindsPreparation
  cases Wire.msToTimestamp now <;> simp

theorem findsPreparation_successResult {output : WorkerOutput} :
    FindsPreparation (successResult L authorization output now) := by
  have hcompleted := findsPreparation_completedAt now
  unfold successResult
  cases hc : completedAt now with
  | error e => simpa [FindsPreparation, hc] using hcompleted
  | ok t => simp [FindsPreparation, pure, Except.pure]

theorem recordEffect_safe {execution : ExecutionAuthorization} {output : WorkerOutput} :
    Safe (I := Device) (Honest L.toPrimitives) (Guarantee L.toPrimitives d now job)
      (fun _ r => FindsPreparation r) (recordEffect L d execution output now).run h := by
  unfold recordEffect
  simp only [safe_exceptT_bind, safe_exceptT_adapt]
  refine (Broker.setExecutionRecoveryState_safe _
    (Guarantee.bookkeeping L.toPrimitives d now job) _ _ now).mono ?_
  rintro h₁ (e | _) ⟨_, hne⟩
  · simpa [FindsPreparation] using hne
  simp only [mapError_ok, then_ok]
  split
  · exact auditThenThrow_safe (by simp)
  simp only [safe_exceptT_bind, safe_exceptT_lift, then_ok]
  refine (Broker.auditOutcomeAt_safe _
    (Guarantee.bookkeeping L.toPrimitives d now job) _ _ now).mono ?_
  rintro h₂ (e | _) ⟨_, _, _⟩
  · exact recoverThenThrow_safe (by simp)
  simp only [safe_exceptT_bind, safe_exceptT_adapt]
  refine (Broker.setExecutionRecoveryState_safe _
    (Guarantee.bookkeeping L.toPrimitives d now job) _ _ now).mono ?_
  rintro h₃ (e | _) ⟨_, hne⟩
  · simpa [FindsPreparation] using hne
  · simpa only [mapError_ok, then_ok, safe_check] using findsPreparation_successResult

/-! ### Approved requests -/

theorem executeConsumed_safe {execution : ExecutionAuthorization} {approval : SignedApproval}
    (hvetted : Vetted L.toPrimitives d now h execution.authorization.request
      execution.authorization.decision)
    (hfirst : NotExecuted h) (happroval : job.approval = some approval)
    (hconsumed : Broker.Consumed L.toPrimitives d.policy d.approvalVerifier approval now h
      execution) :
    Safe (I := Device) (Honest L.toPrimitives) (Guarantee L.toPrimitives d now job)
      (fun _ r => FindsPreparation r) (executeConsumed L d execution now).run h := by
  unfold executeConsumed
  simp only [safe_exceptT_bind, safe_exceptT_adapt]
  refine (Broker.setExecutionRecoveryState_safe _
    (Guarantee.bookkeeping L.toPrimitives d now job) _ _ now).mono ?_
  rintro h₁ (e | _) ⟨hext, hne⟩
  · simpa [FindsPreparation] using hne
  simp only [mapError_ok, then_ok, safe_exceptT_bind, safe_exceptT_lift, safe_executeApproved]
  refine ⟨⟨rfl, hvetted.extends hext, hfirst.extends hext, approval, happroval,
    hconsumed.extends hext⟩, ?_⟩
  rintro (e | output) honest
  · exact auditThenThrow_safe fun heq => honest _ (congrArg Except.error heq)
  · exact recordEffect_safe

theorem dispatchApprovedAt_safe {request : ActionRequest} {approval : SignedApproval}
    (hfirst : NotExecuted h) (happroval : job.approval = some approval) :
    Safe (I := Device) (Honest L.toPrimitives) (Guarantee L.toPrimitives d now job)
      (fun _ r => FindsPreparation r) (dispatchApprovedAt L d request approval now).run h := by
  unfold dispatchApprovedAt
  simp only [safe_exceptT_bind, safe_check]
  by_cases hdevice : request.envelope.deviceId = d.deviceId
  case neg => simp [hdevice, FindsPreparation]
  by_cases haction : remoteApprovedActionAllowed request.envelope.action = true
  case neg =>
      simp only [hdevice, haction, ne_eq, not_true_eq_false, not_false_eq_true, failIf_of_false,
        then_ok, safe_exceptT_bind, safe_check]
      simp [FindsPreparation]
  simp only [hdevice, haction, not_true_eq_false, ne_eq, failIf_of_false, then_ok,
    safe_exceptT_bind, safe_check, safe_exceptT_adapt, not_false_eq_true]
  refine (Broker.authorizeAt_safe L.toPrimitives
    (Guarantee.bookkeeping L.toPrimitives d now job) request now).mono ?_
  rintro h₁ (e | authorization) ⟨hext₁, hne, hauth⟩
  · simpa [FindsPreparation] using hne
  obtain ⟨rfl, hauthorized⟩ := hauth authorization rfl
  simp only [mapError_ok, then_ok, safe_exceptT_bind, safe_check]
  by_cases hdenied : authorization.isDenied
  · simp [hdenied, FindsPreparation]
  simp only [hdenied, not_false_eq_true, failIf_of_false, then_ok]
  split
  case isFalse => exact auditThenThrow_safe (by simp)
  case isTrue happ =>
      simp only [safe_exceptT_bind, safe_exceptT_adapt]
      refine (Broker.consumeApprovalAt_safe L.toPrimitives
        (Guarantee.bookkeeping L.toPrimitives d now job)
        authorization.request approval d.approvalVerifier now).mono ?_
      have hrecorded : Broker.ApprovalRecorded authorization.request.key h₁ :=
        ⟨_, hauthorized.recorded, rfl, rfl, congrArg Broker.outcomeOf happ⟩
      rintro h₂ (e | execution) ⟨hext₂, hne, hexec⟩
      · simpa [FindsPreparation] using hne hrecorded
      obtain ⟨hrequest, hconsumed⟩ := hexec execution rfl
      have hdev : execution.authorization.request.envelope.deviceId = d.deviceId := by
        rw [hrequest, hdevice]
      exact executeConsumed_safe (hconsumed.vetted hdev)
        ((hfirst.extends hext₁).extends hext₂) happroval hconsumed

theorem dispatchApprovedProtoAt_safe {approved : V1.ApprovedActionRequest}
    (hfirst : NotExecuted h) (happroval : job.approval = Job.approvalOf approved) :
    Safe (I := Device) (Honest L.toPrimitives) (Guarantee L.toPrimitives d now job)
      (fun _ r => FindsPreparation r) (dispatchApprovedProtoAt L d approved now).run h := by
  unfold dispatchApprovedProtoAt
  simp only [safe_exceptT_bind, safe_check]
  cases hrequest : approved.request with
  | none => simp [FindsPreparation]
  | some request =>
  cases hgrant : approved.approval with
  | none =>
      simp only [orFail_some, orFail_none, then_ok, then_error, safe_exceptT_bind, safe_check]
      simp [FindsPreparation]
  | some grant =>
  simp only [orFail_some, then_ok, safe_exceptT_bind, safe_check]
  cases hreceived : Wire.actionRequestFromProto L request with
  | error e => simp [FindsPreparation]
  | ok received =>
  cases hsigned : Wire.approvalGrantFromProto grant with
  | error e =>
      simp only [mapError_ok, mapError_error, then_ok, then_error, safe_exceptT_bind, safe_check]
      simp [FindsPreparation]
  | ok approval =>
  simp only [mapError_ok, then_ok, safe_exceptT_bind, safe_check]
  exact dispatchApprovedAt_safe hfirst
    (by simp [happroval, Job.approvalOf, hgrant, hsigned, Except.toOption])

/-! ### Requests that may need an approval -/

theorem executeUnderPolicy_safe
    (hvetted : Vetted L.toPrimitives d now h authorization.request authorization.decision)
    (hauto : authorization.isAuto) (hruns : RunsUnsigned authorization) :
    Safe (I := Device) (Honest L.toPrimitives) (Guarantee L.toPrimitives d now job)
      (fun _ r => FindsPreparation r) (executeUnderPolicy L d authorization now).run h := by
  unfold executeUnderPolicy
  simp only [safe_exceptT_bind, safe_executeAuthorized]
  refine ⟨⟨rfl, hvetted, hauto, hruns⟩, ?_⟩
  rintro (e | output) honest
  · exact fun heq => honest _ (congrArg Except.error (Except.error.inj heq))
  simp only [then_ok, safe_exceptT_bind, safe_exceptT_adapt]
  refine (Broker.auditOutcomeAt_safe _
    (Guarantee.bookkeeping L.toPrimitives d now job) _ _ now).mono ?_
  rintro h' (e | _) ⟨_, hne, _⟩
  · simpa [FindsPreparation] using hne
  · simpa only [mapError_ok, then_ok, safe_check] using findsPreparation_successResult

theorem findsPreparation_challengeResult {challenge : ApprovalChallenge}
    {metadata : Option EditMetadata} :
    FindsPreparation (challengeResult L authorization challenge metadata now) := by
  have hcompleted := findsPreparation_completedAt now
  unfold challengeResult
  cases hmembers : metadataJson L authorization metadata with
  | error e =>
      cases metadata with
      | none => simp [metadataJson] at hmembers
      | some metadata =>
          simp only [metadataJson, editJson] at hmembers
          cases hproto : Wire.actionRequestToProto L authorization.request with
          | error e' =>
              simp only [hproto, mapError_error, error_bind, Except.error.injEq] at hmembers
              simp [FindsPreparation, ← hmembers]
          | ok proto => simp [hproto, pure, Except.pure] at hmembers
  | ok members =>
      cases hc : completedAt now with
      | error e => simpa [FindsPreparation, hc] using hcompleted
      | ok t => simp [FindsPreparation, pure, Except.pure]

theorem challengeExpiry_eq_error {e : DispatchError}
    (hexpiry : challengeExpiry authorization now = .error e) : e = .clock := by
  unfold challengeExpiry failIf at hexpiry
  split at hexpiry
  · exact (Except.error.inj hexpiry).symm
  · cases hexpiry

theorem issueApprovalChallenge_safe {metadata : Option EditMetadata} (hprepares : job.prepares) :
    Safe (I := Device) (Honest L.toPrimitives) (Guarantee L.toPrimitives d now job)
      (fun _ r => FindsPreparation r)
      (issueApprovalChallenge L d authorization metadata now).run h := by
  unfold issueApprovalChallenge
  simp only [safe_exceptT_bind, safe_check]
  cases hexpiry : challengeExpiry authorization now with
  | error e =>
      obtain rfl := challengeExpiry_eq_error hexpiry
      simp [FindsPreparation]
  | ok expiresAt =>
      simp only [then_ok, safe_exceptT_bind, safe_exceptT_adapt, safe_issueChallenge]
      refine ⟨hprepares, ?_⟩
      rintro (e | challenge) _
      · simp [FindsPreparation]
      simp only [mapError_ok, then_ok, safe_exceptT_bind, safe_exceptT_adapt]
      refine (Broker.auditOutcomeAt_safe _ (Guarantee.bookkeeping L.toPrimitives d now job) _ _
        now).mono ?_
      rintro h' (e | _) ⟨_, hne, _⟩
      · simpa [FindsPreparation] using hne
      · simpa only [mapError_ok, then_ok, safe_check] using findsPreparation_challengeResult

theorem concludePreparation_safe {metadata : Option EditMetadata} (hprepares : job.prepares)
    (hauth : Broker.Authorized L.toPrimitives d.policy now h authorization)
    (hdevice : authorization.request.envelope.deviceId = d.deviceId) :
    Safe (I := Device) (Honest L.toPrimitives) (Guarantee L.toPrimitives d now job)
      (fun _ r => FindsPreparation r)
      (concludePreparation L d authorization metadata now).run h := by
  unfold concludePreparation
  split
  case isTrue hruns =>
      exact executeUnderPolicy_safe (hauth.vetted_auto hdevice hruns.1) hruns.1 (.inr hruns.2)
  case isFalse =>
      split
      · exact issueApprovalChallenge_safe hprepares
      · exact auditThenThrow_safe (by simp)

/-- The request of a preparation is vetted, before and after an edit has been
turned into a write. -/
theorem prepareEditRequest_safe (hprepares : job.prepares)
    (hauth : Broker.Authorized L.toPrimitives d.policy now h authorization)
    (hdevice : authorization.request.envelope.deviceId = d.deviceId)
    (hdenied : ¬ authorization.isDenied) :
    Safe (I := Device) (Honest L.toPrimitives) (Guarantee L.toPrimitives d now job)
      (fun h' r => FindsPreparation r ∧ ∀ prepared, r = .ok prepared →
        Broker.Authorized L.toPrimitives d.policy now h' prepared.1 ∧
          prepared.1.request.envelope.deviceId = d.deviceId)
      (prepareEditRequest L d authorization now).run h := by
  unfold prepareEditRequest
  split
  case h_1 =>
      rw [safe_exceptT_pure]
      refine ⟨by simp [FindsPreparation], fun prepared hp => ?_⟩
      obtain rfl := Except.ok.inj hp
      exact ⟨hauth, hdevice⟩
  case h_2 value _ =>
      simp only [safe_exceptT_bind, safe_check]
      cases TextEdit.listFromValue value with
      | none => simp [FindsPreparation]
      | some edits =>
      simp only [orFail_some, then_ok, safe_exceptT_bind, safe_exceptT_adapt, safe_prepareEdit]
      refine ⟨⟨rfl, hauth.vetted hdevice hdenied, hdenied, hprepares⟩, ?_⟩
      rintro (e | edit) _
      · simp [FindsPreparation]
      simp only [mapError_ok, then_ok, safe_exceptT_bind, safe_check]
      cases hseal : resealEdit L authorization.request.envelope edit with
      | error e =>
          have he : e = .invalidFilesystemParameters := by
            unfold resealEdit at hseal
            revert hseal
            cases ActionRequest.sealEnvelope L.toPrimitives _ <;> simp [eq_comm]
          simp [FindsPreparation, he]
      | ok transformed =>
      simp only [then_ok, safe_exceptT_bind, safe_exceptT_adapt]
      refine (Broker.authorizeAt_safe L.toPrimitives
        (Guarantee.bookkeeping L.toPrimitives d now job) transformed now).mono ?_
      rintro h' (e | reauthorized) ⟨_, hne, hreauth⟩
      · exact ⟨by simpa [FindsPreparation] using hne, by simp⟩
      obtain ⟨rfl, hauthorized⟩ := hreauth reauthorized rfl
      simp only [mapError_ok, then_ok, safe_exceptT_pure]
      refine ⟨by simp [FindsPreparation], fun prepared hp => ?_⟩
      obtain rfl := Except.ok.inj hp
      refine ⟨hauthorized, ?_⟩
      simp only [resealEdit, mapError_eq_ok, ActionRequest.sealEnvelope_eq_ok_iff] at hseal
      simpa [hseal.2] using hdevice

theorem prepareApprovedAt_safe {request : ActionRequest} (hprepares : job.prepares) :
    Safe (I := Device) (Honest L.toPrimitives) (Guarantee L.toPrimitives d now job)
      (fun _ r => FindsPreparation r) (prepareApprovedAt L d request now).run h := by
  unfold prepareApprovedAt
  simp only [safe_exceptT_bind, safe_check]
  by_cases hdevice : request.envelope.deviceId = d.deviceId
  case neg => simp [hdevice, FindsPreparation]
  by_cases haction : remoteApprovedActionAllowed request.envelope.action = true
  case neg =>
      simp only [hdevice, haction, ne_eq, not_true_eq_false, not_false_eq_true, failIf_of_false,
        then_ok, safe_exceptT_bind, safe_check]
      simp [FindsPreparation]
  simp only [hdevice, haction, not_true_eq_false, ne_eq, failIf_of_false, then_ok,
    safe_exceptT_bind, safe_check, safe_exceptT_adapt, not_false_eq_true]
  refine (Broker.authorizeAt_safe L.toPrimitives
    (Guarantee.bookkeeping L.toPrimitives d now job) request now).mono ?_
  rintro h₁ (e | authorization) ⟨_, hne, hauth⟩
  · simpa [FindsPreparation] using hne
  obtain ⟨rfl, hauthorized⟩ := hauth authorization rfl
  simp only [mapError_ok, then_ok, safe_exceptT_bind, safe_check]
  by_cases hdenied : authorization.isDenied
  · simp [hdenied, FindsPreparation]
  simp only [hdenied, not_false_eq_true, failIf_of_false, then_ok, safe_exceptT_bind]
  refine (prepareEditRequest_safe hprepares hauthorized hdevice hdenied).mono ?_
  rintro h₂ (e | prepared) ⟨hfinds, hprepared⟩
  · simpa [FindsPreparation] using hfinds
  obtain ⟨hauthorized', hdevice'⟩ := hprepared prepared rfl
  exact concludePreparation_safe hprepares hauthorized' hdevice'

/-! ### Reads -/

theorem executeRead_safe
    (hvetted : Vetted L.toPrimitives d now h authorization.request authorization.decision)
    (hauto : authorization.isAuto)
    (hread : remoteActionAllowed authorization.request.envelope.action = true) :
    Safe (I := Device) (Honest L.toPrimitives) (Guarantee L.toPrimitives d now job)
      (fun _ r => FindsPreparation r) (executeRead L d authorization now).run h := by
  unfold executeRead
  simp only [safe_exceptT_bind, safe_exceptT_lift, safe_executeAuthorized, then_ok]
  refine ⟨⟨rfl, hvetted, hauto, .inl hread⟩, ?_⟩
  rintro (e | output) honest
  · exact auditThenThrow_safe fun heq => honest _ (congrArg Except.error heq)
  simp only []
  split
  · exact auditThenThrow_safe (by simp)
  simp only [safe_exceptT_bind, safe_exceptT_adapt]
  refine (Broker.auditOutcomeAt_safe _ (Guarantee.bookkeeping L.toPrimitives d now job) _ _
    now).mono ?_
  rintro h' (e | _) ⟨_, hne, _⟩
  · simpa [FindsPreparation] using hne
  · simpa only [mapError_ok, then_ok, safe_check] using findsPreparation_successResult

theorem dispatchAt_safe {request : ActionRequest} :
    Safe (I := Device) (Honest L.toPrimitives) (Guarantee L.toPrimitives d now job)
      (fun _ r => FindsPreparation r) (dispatchAt L d request now).run h := by
  unfold dispatchAt
  simp only [safe_exceptT_bind, safe_check]
  by_cases hdevice : request.envelope.deviceId = d.deviceId
  case neg => simp [hdevice, FindsPreparation]
  simp only [hdevice, not_true_eq_false, ne_eq, failIf_of_false, then_ok, safe_exceptT_bind,
    safe_exceptT_adapt, not_false_eq_true]
  refine (Broker.authorizeAt_safe L.toPrimitives
    (Guarantee.bookkeeping L.toPrimitives d now job) request now).mono ?_
  rintro h₁ (e | authorization) ⟨_, hne, hauth⟩
  · simpa [FindsPreparation] using hne
  obtain ⟨rfl, hauthorized⟩ := hauth authorization rfl
  simp only [mapError_ok, then_ok]
  split
  · exact auditThenThrow_safe (by simp)
  case isFalse hread =>
  split
  · simp [FindsPreparation]
  case isFalse hdenied =>
  split
  · exact auditThenThrow_safe (by simp)
  case isFalse happroval =>
  have hauto : authorization.isAuto := by
    unfold Authorization.isAuto Authorization.isDenied Authorization.requiresApproval at *
    cases hkind : authorization.decision.kind <;> simp_all
  exact executeRead_safe (hauthorized.vetted_auto hdevice hauto) hauto (by simpa using hread)

theorem dispatchProtoAt_safe {request : V1.ActionRequest} (hprepares : job.prepares) :
    Safe (I := Device) (Honest L.toPrimitives) (Guarantee L.toPrimitives d now job)
      (fun _ r => FindsPreparation r) (dispatchProtoAt L d request now).run h := by
  unfold dispatchProtoAt
  simp only [safe_exceptT_bind, safe_check]
  cases hreceived : Wire.actionRequestFromProto L request with
  | error e => simp [FindsPreparation]
  | ok received =>
  simp only [mapError_ok, then_ok]
  split
  · exact prepareApprovedAt_safe hprepares
  · exact dispatchAt_safe

/-! ### Reports -/

theorem findsPreparation_failureResult {requestId status : String} :
    FindsPreparation (failureResult L requestId status now) := by
  have hcompleted := findsPreparation_completedAt now
  unfold failureResult
  cases hc : completedAt now with
  | error e => simpa [FindsPreparation, hc] using hcompleted
  | ok t => simp [FindsPreparation, pure, Except.pure]

theorem findsPreparation_errorReport {requestId : String} {error : DispatchError} :
    FindsPreparation (errorReport L requestId error now) := by
  unfold errorReport
  split
  · have hcompleted := findsPreparation_completedAt now
    unfold failureJsonResult
    cases hc : completedAt now with
    | error e => simpa [FindsPreparation, hc] using hcompleted
    | ok t => simp [FindsPreparation, pure, Except.pure]
  · exact findsPreparation_failureResult

end Dispatch

/-- Whatever entry point is called, every operation it performs satisfies the
guarantee, and it never refuses an approval as unprepared. -/
theorem Job.program_safe (L : Libraries) (d : Dispatcher) (now : ℕ) (job : Job) :
    Safe (I := Device) (Honest L.toPrimitives) (Guarantee L.toPrimitives d now job)
      (fun _ r => Dispatch.FindsPreparation r) (job.program L d now).run [] := by
  have hfirst : NotExecuted [] := by simp [NotExecuted]
  cases job with
  | dispatchProtoAt request => exact Dispatch.dispatchProtoAt_safe trivial
  | dispatchAt request => exact Dispatch.dispatchAt_safe
  | dispatchApprovedProtoAt approved => exact Dispatch.dispatchApprovedProtoAt_safe hfirst rfl
  | dispatchApprovedAt request approval => exact Dispatch.dispatchApprovedAt_safe hfirst rfl
  | dispatchProtoReportAt request =>
      simp only [Job.program, Dispatch.dispatchProtoReportAt, safe_exceptT_bind, safe_exceptT_lift]
      have hprepares : Job.prepares (.dispatchProtoReportAt request) := trivial
      refine (Dispatch.dispatchProtoAt_safe hprepares).mono ?_
      rintro h' (e | result) _
      · simpa only [then_ok, safe_check] using Dispatch.findsPreparation_errorReport
      · simp [Dispatch.FindsPreparation]
  | dispatchApprovedProtoReportAt approved =>
      simp only [Job.program, Dispatch.dispatchApprovedProtoReportAt, safe_exceptT_bind,
        safe_exceptT_lift]
      refine (Dispatch.dispatchApprovedProtoAt_safe hfirst rfl).mono ?_
      rintro h' (e | result) _
      · simpa only [then_ok, safe_check] using Dispatch.findsPreparation_failureResult
      · simp [Dispatch.FindsPreparation]

end VorCommander
