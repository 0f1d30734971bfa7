import VorCommander.Device.Runs

/-!
What a call does around the worker it invokes.

A call reaches at most one worker. Before an approved action is handed to its
worker the recovery state says that there may be an effect; only after the
worker has returned an output does the state say that there is one, and only
after the record of it has been written that the execution is complete. After
the worker one outcome is recorded, unless a write or a command that ran under
policy has failed.
-/

namespace VorCommander

open Crypto Steps Steps.Program Steps.World Text DeviceEvent

/-- Operations that neither reach a worker nor move a recovery state. -/
def DeviceOp.isQuiet : DeviceOp → Bool
  | .setExecutionRecoveryState _ _ _ => false
  | .executeAuthorized _ _ => false
  | .executeApproved _ _ => false
  | _ => true

/-- The authorisation under which an event has a worker act. -/
def attempted : Event Device → Option Authorization
  | ⟨.executeAuthorized _ authorization, _⟩ => some authorization
  | ⟨.executeApproved _ execution, _⟩ => some execution.authorization
  | _ => none

theorem attempted_of_isQuiet {e : Event Device} (he : e.op.isQuiet) : attempted e = none := by
  obtain ⟨op, reply⟩ := e
  cases op <;> first | rfl | cases he

/-- No worker has acted. -/
def NoAttempt (h : History Device) : Prop := ∀ e ∈ h, attempted e = none

theorem noAttempt_cons {h : History Device} {e : Event Device} :
    NoAttempt (e :: h) ↔ attempted e = none ∧ NoAttempt h := List.forall_mem_cons

/-- The history has grown without reaching a worker or moving a recovery
state. -/
def GrowsQuietly (h h' : History Device) : Prop :=
  ∃ added, h' = added ++ h ∧ ∀ e ∈ added, e.op.isQuiet

theorem GrowsQuietly.noAttempt {h h' : History Device} (hh : GrowsQuietly h h')
    (hno : NoAttempt h) : NoAttempt h' := by
  obtain ⟨added, rfl, hadded⟩ := hh
  intro e he
  rcases List.mem_append.mp he with he | he
  · exact attempted_of_isQuiet (hadded e he)
  · exact hno e he

/-! ### Outcomes -/

/-- The outcomes that end an attempt. -/
def terminalOutcomes : List String := ["executed", "worker_failed", "output_limit_exceeded"]

/-- The record of such an outcome for the request with the given key. -/
def isOutcomeOf (key : ApprovalKey) : Event Device → Bool
  | ⟨.append event, .ok _⟩ =>
      event.requestId = key.requestId && event.envelopeDigest = key.envelopeDigest &&
        terminalOutcomes.contains event.outcome
  | _ => false

/-- A write or a command that ran under policy, and whose worker has failed. -/
def failsUnderPolicy : Event Device → Prop
  | ⟨.executeAuthorized _ authorization, .error _⟩ =>
      remoteApprovedActionAllowed authorization.request.envelope.action = true
  | _ => False

/-- A call of the ledger that has failed. -/
def ledgerFails : Event Device → Prop
  | ⟨.append _, .error _⟩ => True
  | ⟨.hasOutcomeFor _ _, .error _⟩ => True
  | ⟨.countPolicyAutoWritesSince _ _ _, .error _⟩ => True
  | ⟨.sumPolicyAutoWriteBytesSince _ _ _, .error _⟩ => True
  | ⟨.claimApprovalConsumed _ _, .error _⟩ => True
  | ⟨.setExecutionRecoveryState _ _ _, .error _⟩ => True
  | _ => False

/-- The ledger has not failed. -/
def LedgerWorks (h : History Device) : Prop := ∀ e ∈ h, ¬ ledgerFails e

/-- After each attempt of a history its outcome has been recorded once, unless
it failed under policy. -/
def Audited (h : History Device) : Prop :=
  ∀ after e before, h = after ++ e :: before → ∀ authorization, attempted e = some authorization →
    (after.countP (isOutcomeOf authorization.request.key) = 1 ↔ ¬ failsUnderPolicy e)

theorem NoAttempt.audited {h : History Device} (hno : NoAttempt h) : Audited h := by
  rintro after e before rfl authorization he
  have hnone := hno e (by simp)
  rw [he] at hnone
  cases hnone

/-- A history with one attempt. -/
theorem audited_of_attempt (after : History Device) {h : History Device} {e : Event Device}
    {authorization : Authorization} (he : attempted e = some authorization) (hno : NoAttempt h)
    (hafter : NoAttempt after)
    (hcount : after.countP (isOutcomeOf authorization.request.key) = 1 ↔ ¬ failsUnderPolicy e) :
    Audited (after ++ e :: h) := by
  intro after' e' before hsplit authorization' he'
  -- the attempt is neither among the events before nor among those after
  rcases List.append_eq_append_iff.mp hsplit with ⟨middle, rfl, hrest⟩ | ⟨middle, rfl, hrest⟩
  · cases middle with
    | nil =>
        obtain ⟨rfl, rfl⟩ := List.cons.inj hrest
        obtain rfl := Option.some.inj (he.symm.trans he')
        simpa using hcount
    | cons e'' middle =>
        obtain ⟨_, rfl⟩ := List.cons.inj hrest
        have hnone := hno e' (by simp)
        rw [he'] at hnone
        cases hnone
  · cases middle with
    | nil =>
        obtain ⟨rfl, rfl⟩ := List.cons.inj hrest
        obtain rfl := Option.some.inj (he.symm.trans he')
        simpa using hcount
    | cons e'' middle =>
        obtain ⟨rfl, _⟩ := List.cons.inj hrest
        have hnone := hafter e' (by simp)
        rw [he'] at hnone
        cases hnone

/-! ### Recovery states -/

namespace DeviceEvent

abbrev moved (key : ApprovalKey) (state : ExecutionRecoveryState) (now : ℕ) : Event Device :=
  ⟨.setExecutionRecoveryState key state now, Except.ok ()⟩

abbrev executed (d : Dispatcher) (execution : ExecutionAuthorization) (output : WorkerOutput) :
    Event Device :=
  ⟨.executeApproved d execution, Except.ok output⟩

end DeviceEvent

/-- The worker has acted for the request with the given key, and returned an
output. -/
def Succeeded (h : History Device) (key : ApprovalKey) : Prop :=
  ∃ d execution output, executed d execution output ∈ h ∧
    execution.authorization.request.key = key

/-- The execution of the request with the given key has been recorded. -/
def ExecutionRecorded (h : History Device) (key : ApprovalKey) : Prop :=
  ∃ event, Recorded h event ∧ event.requestId = key.requestId ∧
    event.envelopeDigest = key.envelopeDigest ∧ event.outcome = "executed"

namespace Job

/-- The entry points that take a signed approval. -/
def isApproved : Job → Prop
  | .dispatchApprovedProtoAt _ | .dispatchApprovedProtoReportAt _ | .dispatchApprovedAt _ _ => True
  | _ => False

end Job

/-- What a call has done before it moves a recovery state or reaches a
worker. -/
def RecoveryGuarantee (job : Job) (h : History Device) : DeviceOp → Prop
  | .setExecutionRecoveryState key state _ =>
      state ≠ .notExecuted ∧
        (ExecutionRecoveryState.effectApplied.rank ≤ state.rank → Succeeded h key) ∧
        (state = .completed → ExecutionRecorded h key)
  | .executeApproved _ execution =>
      ∃ now, moved execution.authorization.request.key .effectUncertain now ∈ h
  | .executeAuthorized _ _ => ¬ job.isApproved
  | _ => True

/-- The assumption under which calls are looked at here: none. -/
abbrev AnyReply (_ : History Device) (_ : Event Device) : Prop := True

section Quiet

variable {P : Primitives} {policy : PolicyEngine} {h : History Device}

theorem RecoveryGuarantee.quiet {job : Job} {op : DeviceOp} (hop : op.isQuiet) :
    RecoveryGuarantee job h op := by
  cases op <;> trivial

/-- A quiet program keeps the guarantee and lets the history grow quietly. -/
theorem Safe.quiet {α : Type} {Q : History Device → α → Prop} {p : Program Device α} (job : Job)
    (hp : Safe (I := Device) AnyReply (fun _ op => op.isQuiet) Q p h) :
    Safe (I := Device) AnyReply (RecoveryGuarantee job)
      (fun h' a => Q h' a ∧ GrowsQuietly h h') p h :=
  hp.performs.guarantee fun _ _ hop => .quiet hop

namespace Broker

theorem limitAutoWrites_quiet (request : ActionRequest) (decision : PolicyDecision) (now : ℕ) :
    Safe (I := Device) AnyReply (fun _ op => op.isQuiet) (fun _ _ => True)
      (limitAutoWrites policy request decision now).run h := by
  rw [limitAutoWrites]
  split
  · simp only [safe_exceptT_bind, safe_exceptT_adapt, safe_countPolicyAutoWritesSince,
      safe_sumPolicyAutoWriteBytesSince, forall_except, mapError_ok, mapError_error, then_ok,
      then_error, safe_exceptT_pure, DeviceOp.isQuiet, implies_true, and_true]
  · simp only [safe_exceptT_pure]

theorem authorizeAt_quiet (request : ActionRequest) (now : ℕ) :
    Safe (I := Device) AnyReply (fun _ op => op.isQuiet)
      (fun _ r => ∀ authorization, r = .ok authorization → authorization.request = request)
      (authorizeAt P policy request now).run h := by
  simp only [authorizeAt, safe_exceptT_bind, safe_check, then_mapError, safe_evaluatePolicy,
    then_ok, reduceCtorEq, false_implies, implies_true, true_and]
  refine fun _ _ => ⟨rfl, fun evaluated _ => ?_⟩
  refine (limitAutoWrites_quiet request evaluated now).mono ?_
  rintro h' (e | decision) _
  · simp
  simp only [then_ok, safe_exceptT_bind, safe_exceptT_adapt, safe_append, forall_except,
    mapError_ok, mapError_error, then_error, safe_exceptT_pure, DeviceOp.isQuiet, reduceCtorEq,
    false_implies, implies_true, true_and, Except.ok.injEq]
  rintro _ _ _ rfl
  rfl

theorem consumeApprovalAt_quiet (request : ActionRequest) (approval : SignedApproval)
    (verifier : ApprovalVerifier) (now : ℕ) :
    Safe (I := Device) AnyReply (fun _ op => op.isQuiet)
      (fun _ r => ∀ execution, r = .ok execution → execution.authorization.request = request)
      (consumeApprovalAt P policy request approval verifier now).run h := by
  simp only [consumeApprovalAt, appendApprovalEvent, safe_exceptT_bind, safe_check, then_failIf,
    then_mapError, safe_evaluatePolicy, safe_exceptT_adapt, safe_hasOutcomeFor, safe_verifyApproval,
    safe_claimApprovalConsumed, safe_append, forall_except, then_ok, then_error, safe_exceptT_pure,
    DeviceOp.isQuiet, reduceCtorEq, false_implies, implies_true, true_and,
      Except.ok.injEq, AnyReply,
    true_implies]
  intros
  rename_i hexecution
  rw [← hexecution]

end Broker

end Quiet

/-! ### The dispatcher -/

/-- What every call leaves: if the ledger has worked, its attempt is
audited. -/
def LeavesAudited {α : Type} (h : History Device) (_ : α) : Prop := LedgerWorks h → Audited h

theorem NoAttempt.leavesAudited {α : Type} {h : History Device} (hno : NoAttempt h) (a : α) :
    LeavesAudited h a :=
  fun _ => hno.audited

namespace Dispatch

variable {L : Libraries} {d : Dispatcher} {now : ℕ} {h : History Device} {job : Job}
  {authorization : Authorization}

theorem auditOutcomeAt_then {policy : PolicyEngine} {outcome : String}
    {Q : History Device → Except DispatchError V1.ActionResult → Prop}
    {f : Unit → DeviceM DispatchError V1.ActionResult} :
    Safe (I := Device) AnyReply (RecoveryGuarantee job) Q
        (ExceptT.adapt .core (Broker.auditOutcomeAt policy authorization outcome now) >>= f).run h ↔
      (∀ e,
        Q (⟨.append (Broker.outcomeEvent policy authorization outcome now), Except.error e⟩ :: h)
        (.error (.core (.audit e)))) ∧
      ∀ record, Safe (I := Device) AnyReply (RecoveryGuarantee job) Q (f ()).run
        (appended (Broker.outcomeEvent policy authorization outcome now) record :: h) := by
  simp only [Broker.auditOutcomeAt, safe_exceptT_bind, safe_exceptT_adapt, safe_append,
    forall_except, mapError_ok, mapError_error, then_ok, then_error, safe_exceptT_pure,
    RecoveryGuarantee, AnyReply, true_implies, true_and]

theorem setExecutionRecoveryState_then {state : ExecutionRecoveryState}
    {Q : History Device → Except DispatchError V1.ActionResult → Prop}
    {f : Unit → DeviceM DispatchError V1.ActionResult} :
    Safe (I := Device) AnyReply (RecoveryGuarantee job) Q
        (ExceptT.adapt .core (Broker.setExecutionRecoveryState authorization state now) >>= f).run
          h ↔
      RecoveryGuarantee job h (.setExecutionRecoveryState authorization.request.key state now) ∧
      (∀ e,
        Q (⟨.setExecutionRecoveryState authorization.request.key state now, Except.error e⟩ :: h)
        (.error (.core (.audit e)))) ∧
      Safe (I := Device) AnyReply (RecoveryGuarantee job) Q (f ()).run
        (moved authorization.request.key state now :: h) := by
  simp only [Broker.setExecutionRecoveryState, safe_exceptT_bind, safe_exceptT_adapt,
    safe_setExecutionRecoveryState, forall_except, mapError_ok, mapError_error, then_ok, then_error,
    AnyReply, forall_const, forall_unit]

/-- Nothing is asked of a call whose ledger has failed. -/
theorem leavesAudited_of_ledgerFails {α : Type} {e : Event Device}
    (hfails : ledgerFails e) (a : α) :
    LeavesAudited (e :: h) a :=
  fun hworks => absurd hfails (hworks e List.mem_cons_self)

/-- A read is not one of the actions that take an approval. -/
theorem remoteApprovedActionAllowed_of_remoteActionAllowed {action : String}
    (hread : remoteActionAllowed action = true) : remoteApprovedActionAllowed action = false := by
  simp only [remoteActionAllowed, List.contains_eq_mem, decide_eq_true_eq, List.mem_cons,
    List.not_mem_nil, or_false] at hread
  rcases hread with rfl | rfl | rfl | rfl | rfl | rfl | rfl | rfl | rfl | rfl | rfl <;> decide

theorem executeRead_attempts (hjob : ¬ job.isApproved) (hno : NoAttempt h)
    (hread : remoteActionAllowed authorization.request.envelope.action = true) :
    Safe (I := Device) AnyReply (RecoveryGuarantee job) LeavesAudited
      (executeRead L d authorization now).run h := by
  have haction := remoteApprovedActionAllowed_of_remoteActionAllowed hread
  -- one outcome is recorded right after the worker, whatever it has returned
  have hrecorded : ∀ reply outcome record (r : Except DispatchError V1.ActionResult),
      outcome ∈ terminalOutcomes → LeavesAudited
        (appended (Broker.outcomeEvent d.policy authorization outcome now) record ::
          ⟨.executeAuthorized d authorization, reply⟩ :: h) r := by
    intro reply outcome record r houtcome _
    refine audited_of_attempt [_] rfl hno (by simp [NoAttempt, attempted]) (iff_of_true ?_ ?_)
    · simp [isOutcomeOf, Broker.outcomeEvent, ActionRequest.key, houtcome]
    · cases reply <;> simp [failsUnderPolicy, haction]
  rw [executeRead]
  simp only [safe_exceptT_bind, safe_exceptT_lift, safe_executeAuthorized, then_ok]
  refine ⟨hjob, ?_⟩
  rintro (e | output) _
  · simp only [auditOutcomeAt_then, safe_exceptT_throw]
    exact ⟨fun _ => leavesAudited_of_ledgerFails (by trivial) _,
      fun record => hrecorded _ _ record _ (by decide)⟩
  simp only []
  split
  · simp only [auditOutcomeAt_then, safe_exceptT_throw]
    exact ⟨fun _ => leavesAudited_of_ledgerFails (by trivial) _,
      fun record => hrecorded _ _ record _ (by decide)⟩
  · simp only [auditOutcomeAt_then, safe_check]
    exact ⟨fun _ => leavesAudited_of_ledgerFails (by trivial) _,
      fun record => hrecorded _ _ record _ (by decide)⟩

theorem executeUnderPolicy_attempts (hjob : ¬ job.isApproved) (hno : NoAttempt h)
    (hruns : policyWriteAttempt authorization ∨ safeTerminal authorization) :
    Safe (I := Device) AnyReply (RecoveryGuarantee job) LeavesAudited
      (executeUnderPolicy L d authorization now).run h := by
  have haction : remoteApprovedActionAllowed authorization.request.envelope.action = true := by
    rcases hruns with hwrite | hterminal
    · rw [hwrite.1]
      decide
    · rw [hterminal.1]
      decide
  simp only [executeUnderPolicy, safe_exceptT_bind, safe_executeAuthorized]
  refine ⟨hjob, ?_⟩
  rintro (e | output) _
  · -- the worker has failed, and nothing is recorded
    intro _
    exact audited_of_attempt [] rfl hno (by simp [NoAttempt])
      (iff_of_false (by simp) (by simp [failsUnderPolicy, haction]))
  simp only [then_ok, auditOutcomeAt_then, safe_check]
  refine ⟨fun _ => leavesAudited_of_ledgerFails (by trivial) _, fun record _ => ?_⟩
  refine audited_of_attempt [_] rfl hno (by simp [NoAttempt, attempted]) (iff_of_true ?_ ?_)
  · simp [isOutcomeOf, Broker.outcomeEvent, ActionRequest.key, terminalOutcomes]
  · simp [failsUnderPolicy]

theorem recoveryGuarantee_effectUncertain (key : ApprovalKey) :
    RecoveryGuarantee job h (.setExecutionRecoveryState key .effectUncertain now) := by
  simp [RecoveryGuarantee, ExecutionRecoveryState.rank]

theorem recoveryGuarantee_of_succeeded {key : ApprovalKey} {state : ExecutionRecoveryState}
    (hs : Succeeded h key) (hfirst : state ≠ .notExecuted)
    (hlast : state = .completed → ExecutionRecorded h key) :
    RecoveryGuarantee job h (.setExecutionRecoveryState key state now) :=
  ⟨hfirst, fun _ => hs, hlast⟩

/-- An execution moves its recovery state as far as it has come, and records
one outcome. -/
theorem executeConsumed_attempts {execution : ExecutionAuthorization} (hno : NoAttempt h) :
    Safe (I := Device) AnyReply (RecoveryGuarantee job) LeavesAudited
      (executeConsumed L d execution now).run h := by
  rw [executeConsumed, setExecutionRecoveryState_then]
  refine ⟨recoveryGuarantee_effectUncertain _, fun _ => leavesAudited_of_ledgerFails (by trivial) _,
    ?_⟩
  simp only [safe_exceptT_bind, safe_exceptT_lift, safe_executeApproved, then_ok]
  refine ⟨⟨now, by simp⟩, ?_⟩
  have hno' : NoAttempt (moved execution.authorization.request.key .effectUncertain now :: h) :=
    noAttempt_cons.mpr ⟨rfl, hno⟩
  rintro (e | output) _
  · simp only [auditOutcomeAt_then, safe_exceptT_throw]
    refine ⟨fun _ => leavesAudited_of_ledgerFails (by trivial) _, fun record _ => ?_⟩
    refine audited_of_attempt [_] rfl hno' (by simp [NoAttempt, attempted]) (iff_of_true ?_ ?_)
    · simp [isOutcomeOf, Broker.outcomeEvent, ActionRequest.key, terminalOutcomes]
    · simp [failsUnderPolicy]
  have hsucceeded : ∀ after : History Device,
      Succeeded (after ++ executed d execution output ::
        moved execution.authorization.request.key .effectUncertain now :: h)
        execution.authorization.request.key :=
    fun after => ⟨d, execution, output, by simp, rfl⟩
  simp only [recordEffect, setExecutionRecoveryState_then]
  refine ⟨recoveryGuarantee_of_succeeded (hsucceeded []) (by decide) (by simp),
    fun _ => leavesAudited_of_ledgerFails (by trivial) _, ?_⟩
  split
  · simp only [auditOutcomeAt_then, safe_exceptT_throw]
    refine ⟨fun _ => leavesAudited_of_ledgerFails (by trivial) _, fun record _ => ?_⟩
    refine audited_of_attempt [_, _] rfl hno' (by simp [NoAttempt, attempted]) (iff_of_true ?_ ?_)
    · simp [isOutcomeOf, Broker.outcomeEvent, ActionRequest.key, terminalOutcomes]
    · simp [failsUnderPolicy]
  simp only [Broker.auditOutcomeAt, Broker.setExecutionRecoveryState, safe_exceptT_bind,
    safe_exceptT_lift, safe_exceptT_adapt, safe_append, safe_setExecutionRecoveryState,
    forall_except, mapError_ok, mapError_error, then_ok, then_error, safe_exceptT_pure,
    safe_exceptT_throw, safe_check]
  refine ⟨trivial, fun e _ => ⟨?_, fun _ _ => ?_, fun _ _ => ?_⟩,
    fun record _ => ⟨?_, fun _ _ => ?_, fun _ _ => ?_⟩⟩
  · exact recoveryGuarantee_of_succeeded (hsucceeded [_, _]) (by decide) (by simp)
  · exact leavesAudited_of_ledgerFails (by trivial) _
  · -- the effect is there, its record is not
    intro hworks
    exact absurd trivial (hworks _ (List.mem_cons_of_mem _ List.mem_cons_self))
  · refine recoveryGuarantee_of_succeeded (hsucceeded [_, _]) (by decide) fun _ => ?_
    exact ⟨_, ⟨record, List.mem_cons_self⟩, rfl, rfl, rfl⟩
  · exact leavesAudited_of_ledgerFails (by trivial) _
  · intro _
    refine audited_of_attempt [_, _, _] rfl hno' (by simp [NoAttempt, attempted])
      (iff_of_true ?_ ?_)
    · simp [isOutcomeOf, Broker.outcomeEvent, ActionRequest.key, terminalOutcomes]
    · simp [failsUnderPolicy]

/-! ### Entry points -/

/-- An outcome that is audited instead of an attempt. -/
theorem auditThenThrow_attempts {outcome : String} {error : DispatchError} (hno : NoAttempt h) :
    Safe (I := Device) AnyReply (RecoveryGuarantee job) LeavesAudited
      (do
        ExceptT.adapt .core (Broker.auditOutcomeAt d.policy authorization outcome now)
        throw error : DeviceM DispatchError V1.ActionResult).run h := by
  simp only [auditOutcomeAt_then, safe_exceptT_throw]
  exact ⟨fun _ => leavesAudited_of_ledgerFails (by trivial) _,
    fun record => (noAttempt_cons.mpr ⟨rfl, hno⟩).leavesAudited _⟩

theorem dispatchApprovedAt_attempts {request : ActionRequest} {approval : SignedApproval}
    (hno : NoAttempt h) :
    Safe (I := Device) AnyReply (RecoveryGuarantee job) LeavesAudited
      (dispatchApprovedAt L d request approval now).run h := by
  simp only [dispatchApprovedAt, safe_exceptT_bind, safe_check, then_failIf, safe_exceptT_adapt]
  refine ⟨fun _ => hno.leavesAudited _, fun _ => ⟨fun _ => hno.leavesAudited _, fun _ => ?_⟩⟩
  refine (Safe.quiet job (Broker.authorizeAt_quiet request now)).mono ?_
  rintro h₁ (e | authorization) ⟨_, hgrows⟩
  · exact fun _ => (hgrows.noAttempt hno).audited
  have hno₁ := hgrows.noAttempt hno
  simp only [mapError_ok, then_ok, safe_exceptT_bind, safe_check, then_failIf]
  refine ⟨fun _ => hno₁.leavesAudited _, fun _ => ?_⟩
  split
  case isFalse => exact auditThenThrow_attempts hno₁
  case isTrue =>
      simp only [safe_exceptT_bind, safe_exceptT_adapt]
      refine (Safe.quiet job (Broker.consumeApprovalAt_quiet request approval d.approvalVerifier
        now)).mono ?_
      rintro h₂ (e | execution) ⟨_, hgrows₂⟩
      · exact fun _ => (hgrows₂.noAttempt hno₁).audited
      · exact executeConsumed_attempts (hgrows₂.noAttempt hno₁)

theorem dispatchApprovedProtoAt_attempts {approved : V1.ApprovedActionRequest}
    (hno : NoAttempt h) :
    Safe (I := Device) AnyReply (RecoveryGuarantee job) LeavesAudited
      (dispatchApprovedProtoAt L d approved now).run h := by
  simp only [dispatchApprovedProtoAt, safe_exceptT_bind, safe_check, then_orFail, then_mapError]
  refine ⟨fun _ => hno.leavesAudited _, fun _ _ => ⟨fun _ => hno.leavesAudited _, fun _ _ =>
    ⟨fun _ _ => hno.leavesAudited _, fun _ _ => ⟨fun _ _ => hno.leavesAudited _, fun _ _ => ?_⟩⟩⟩⟩
  exact dispatchApprovedAt_attempts hno

theorem prepareEditRequest_quiet :
    Safe (I := Device) AnyReply (fun _ op => op.isQuiet) (fun _ _ => True)
      (prepareEditRequest L d authorization now).run h := by
  rw [prepareEditRequest]
  split
  · simp only [safe_exceptT_pure]
  simp only [safe_exceptT_bind, safe_check, then_orFail, safe_exceptT_adapt, safe_prepareEdit,
    forall_except, mapError_ok, mapError_error, then_ok, then_error, DeviceOp.isQuiet, implies_true,
    true_and]
  intro edits _ prepared _
  refine (then_iff _ _).mpr ⟨fun _ _ => trivial, fun transformed _ => ?_⟩
  simp only [safe_exceptT_bind, safe_exceptT_adapt]
  refine (Broker.authorizeAt_quiet transformed now).mono ?_
  rintro h' (e | authorization) _
  · trivial
  · simp only [mapError_ok, then_ok, safe_exceptT_pure]

theorem issueApprovalChallenge_quiet {metadata : Option EditMetadata} :
    Safe (I := Device) AnyReply (fun _ op => op.isQuiet) (fun _ _ => True)
      (issueApprovalChallenge L d authorization metadata now).run h := by
  simp only [issueApprovalChallenge, safe_exceptT_bind, safe_check]
  rw [then_iff]
  refine ⟨fun _ _ => trivial, fun expiresAt _ => ?_⟩
  simp only [Broker.auditOutcomeAt, safe_exceptT_bind, safe_exceptT_adapt, safe_issueChallenge,
    safe_append, forall_except, mapError_ok, mapError_error, then_ok, then_error, safe_exceptT_pure,
    safe_check, DeviceOp.isQuiet, implies_true, and_true]

theorem concludePreparation_attempts {metadata : Option EditMetadata} (hjob : ¬ job.isApproved)
    (hno : NoAttempt h) :
    Safe (I := Device) AnyReply (RecoveryGuarantee job) LeavesAudited
      (concludePreparation L d authorization metadata now).run h := by
  rw [concludePreparation]
  split
  case isTrue hruns => exact executeUnderPolicy_attempts hjob hno hruns.2
  case isFalse =>
      split
      case isFalse => exact auditThenThrow_attempts hno
      case isTrue =>
          refine (Safe.quiet job issueApprovalChallenge_quiet).mono ?_
          rintro h' r ⟨_, hgrows⟩
          exact (hgrows.noAttempt hno).leavesAudited r

theorem prepareApprovedAt_attempts {request : ActionRequest} (hjob : ¬ job.isApproved)
    (hno : NoAttempt h) :
    Safe (I := Device) AnyReply (RecoveryGuarantee job) LeavesAudited
      (prepareApprovedAt L d request now).run h := by
  simp only [prepareApprovedAt, safe_exceptT_bind, safe_check, then_failIf, safe_exceptT_adapt]
  refine ⟨fun _ => hno.leavesAudited _, fun _ => ⟨fun _ => hno.leavesAudited _, fun _ => ?_⟩⟩
  refine (Safe.quiet job (Broker.authorizeAt_quiet request now)).mono ?_
  rintro h₁ (e | authorization) ⟨_, hgrows⟩
  · exact fun _ => (hgrows.noAttempt hno).audited
  have hno₁ := hgrows.noAttempt hno
  simp only [mapError_ok, then_ok, safe_exceptT_bind, safe_check, then_failIf]
  refine ⟨fun _ => hno₁.leavesAudited _, fun _ => ?_⟩
  refine (Safe.quiet job prepareEditRequest_quiet).mono ?_
  rintro h₂ (e | prepared) ⟨_, hgrows₂⟩
  · exact fun _ => (hgrows₂.noAttempt hno₁).audited
  · exact concludePreparation_attempts hjob (hgrows₂.noAttempt hno₁)

theorem dispatchAt_attempts {request : ActionRequest} (hjob : ¬ job.isApproved)
    (hno : NoAttempt h) :
    Safe (I := Device) AnyReply (RecoveryGuarantee job) LeavesAudited
      (dispatchAt L d request now).run h := by
  simp only [dispatchAt, safe_exceptT_bind, safe_check, then_failIf, safe_exceptT_adapt]
  refine ⟨fun _ => hno.leavesAudited _, fun _ => ?_⟩
  refine (Safe.quiet job (Broker.authorizeAt_quiet request now)).mono ?_
  rintro h₁ (e | authorization) ⟨_, hgrows⟩
  · exact fun _ => (hgrows.noAttempt hno).audited
  have hno₁ := hgrows.noAttempt hno
  simp only [mapError_ok, then_ok]
  split
  · exact auditThenThrow_attempts hno₁
  case isFalse hread =>
  split
  · rw [safe_exceptT_throw]
    exact hno₁.leavesAudited _
  split
  · exact auditThenThrow_attempts hno₁
  · exact executeRead_attempts hjob hno₁ (by simpa using hread)

theorem dispatchProtoAt_attempts {request : V1.ActionRequest} (hjob : ¬ job.isApproved)
    (hno : NoAttempt h) :
    Safe (I := Device) AnyReply (RecoveryGuarantee job) LeavesAudited
      (dispatchProtoAt L d request now).run h := by
  simp only [dispatchProtoAt, safe_exceptT_bind, safe_check, then_mapError]
  refine ⟨fun _ _ => hno.leavesAudited _, fun received _ => ?_⟩
  split
  · exact prepareApprovedAt_attempts hjob hno
  · exact dispatchAt_attempts hjob hno

end Dispatch

/-- Every entry point moves recovery states as its guarantee says, and leaves
its attempt audited. -/
theorem Job.program_attempts (L : Libraries) (d : Dispatcher) (now : ℕ) (job : Job) :
    Safe (I := Device) AnyReply (RecoveryGuarantee job) LeavesAudited
      (job.program L d now).run [] := by
  have hno : NoAttempt [] := by simp [NoAttempt]
  cases job with
  | dispatchProtoAt request => exact Dispatch.dispatchProtoAt_attempts id hno
  | dispatchAt request => exact Dispatch.dispatchAt_attempts id hno
  | dispatchApprovedProtoAt approved => exact Dispatch.dispatchApprovedProtoAt_attempts hno
  | dispatchApprovedAt request approval => exact Dispatch.dispatchApprovedAt_attempts hno
  | dispatchProtoReportAt request =>
      simp only [Job.program, Dispatch.dispatchProtoReportAt, safe_exceptT_bind, safe_exceptT_lift]
      refine (Dispatch.dispatchProtoAt_attempts id hno).mono ?_
      rintro h' (e | result) haudited
      · simp only [then_ok, safe_check]
        exact haudited
      · simp only [then_ok, safe_exceptT_pure]
        exact haudited
  | dispatchApprovedProtoReportAt approved =>
      simp only [Job.program, Dispatch.dispatchApprovedProtoReportAt, safe_exceptT_bind,
        safe_exceptT_lift]
      refine (Dispatch.dispatchApprovedProtoAt_attempts hno).mono ?_
      rintro h' (e | result) haudited
      · simp only [then_ok, safe_check]
        exact haudited
      · simp only [then_ok, safe_exceptT_pure]
        exact haudited

/-! ### Runs -/

/-- The guarantee of a process; opening the ledger neither reaches a worker
nor moves a recovery state. -/
def Start.RecoveryGuarantee : Start → History Device → DeviceOp → Prop
  | .dispatch _ job _, h, op => VorCommander.RecoveryGuarantee job h op
  | .openLedger, _, op => op.isQuiet

theorem Ledger.migrateEvents_quiet {h : History Device} (events : List AuditEvent) :
    Safe (I := Device) AnyReply (fun _ op => op.isQuiet) (fun _ _ => True)
      (events.forM Ledger.migrateEvent).run h := by
  induction events generalizing h with
  | nil => simp only [List.forM, safe_exceptT_pure]
  | cons event events ih =>
      simp only [List.forM, safe_exceptT_bind]
      rw [Ledger.migrateEvent]
      split
      case isFalse =>
          simp only [safe_exceptT_pure, then_ok]
          exact ih
      case isTrue =>
          simp only [safe_exceptT_bind, safe_check]
          rw [then_iff]
          refine ⟨fun _ _ => trivial, fun consumedAt _ => ?_⟩
          simp only [safe_insertConsumption, forall_except, then_error, implies_true, true_and,
            then_ok]
          exact ⟨rfl, fun _ _ => ih⟩

theorem Ledger.migrateApprovalConsumptions_quiet {h : History Device} :
    Safe (I := Device) AnyReply (fun _ op => op.isQuiet) (fun _ _ => True)
      Ledger.migrateApprovalConsumptions.run h := by
  rw [Ledger.migrateApprovalConsumptions]
  simp only [safe_exceptT_bind, safe_selectEvents, forall_except, then_error, implies_true,
    true_and, then_ok]
  exact ⟨rfl, fun events _ => Ledger.migrateEvents_quiet events⟩

/-- Every process keeps the guarantee and leaves its attempt audited. -/
theorem Start.safe_attempts (L : Libraries) (entry : Start) :
    Safe (I := Device) AnyReply entry.RecoveryGuarantee LeavesAudited
      ((deviceSystem L).body entry) [] := by
  cases entry with
  | dispatch d job now =>
      simp only [deviceSystem, safe_map]
      exact job.program_attempts L d now
  | openLedger =>
      simp only [deviceSystem, safe_map]
      refine (Ledger.migrateApprovalConsumptions_quiet.performs.guarantee
        fun _ _ hop => hop).mono ?_
      rintro h' r ⟨_, added, rfl, hadded⟩
      refine NoAttempt.leavesAudited (fun e he => attempted_of_isQuiet (hadded e ?_)) _
      simpa using he

section Reachable

variable {L : Libraries} {init : Database → Prop}
  {mayStart : World (deviceSystem L) → Start → Prop} {w : World (deviceSystem L)}

/-- What every move of a recovery state and every attempt of a run rests
on. -/
theorem recovery_guaranteed (hw : Reachable init mayStart w) {later earlier : Log Device} {i : ℕ}
    {e : Event Device} (hlog : w.log = later ++ (i, e) :: earlier) :
    ∃ c, w.calls i = some c ∧ c.entry.RecoveryGuarantee (earlier.of i) e.op :=
  hw.guarantee (Start.safe_attempts L) (allowed_true _) hlog

end Reachable

end VorCommander
