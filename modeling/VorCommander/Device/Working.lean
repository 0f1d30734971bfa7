import VorCommander.Device.Runs

/-!
A device whose ledger works.

`workingLedger` answers every operation of a device at once: each ledger call
does its transaction, and everything outside of the ledger is given by a
`Surroundings`. Under it the broker has one result for each request, and what
`Safe` says of a program holds of that result.
-/

namespace VorCommander

open Crypto Steps Steps.Program Steps.World DeviceEvent

/-- What is around the ledger during a run: the host the policy looks at, the
nonce that is drawn, and the workers. -/
structure Surroundings where
  host : Host
  nonce : Vector UInt8 32
  prepareEdit : Dispatcher → Authorization → List TextEdit → Except FsError PreparedEdit
  executeAuthorized : Dispatcher → Authorization → Except DispatchError WorkerOutput
  executeApproved : Dispatcher → ExecutionAuthorization → Except DispatchError WorkerOutput
  authorized_own : ∀ d authorization, NoBrokerError (executeAuthorized d authorization)
  approved_own : ∀ d execution, NoBrokerError (executeApproved d execution)

/-- A transaction that fails rolls back. -/
def transact {α : Type} (db : Database) (attempted : Except AuditError (α × Database)) :
    Except AuditError α × Database :=
  match attempted with
  | .ok (a, db') => (.ok a, db')
  | .error e => (.error e, db)

theorem transacts_transact {α : Type} (db : Database)
    (attempted : Except AuditError (α × Database)) :
    transacts db (transact db attempted).1 (transact db attempted).2 attempted := by
  rcases attempted with e | ⟨a, db'⟩
  · exact .inl rfl
  · rfl

/-- The answers of a device whose ledger never fails to do its transaction. -/
def workingLedger (P : Primitives) (o : Surroundings) : Handler Device Database where
  answer db
    | .append event => transact db (.ok (db.append P event))
    | .hasOutcomeFor key outcome => (.ok (db.hasOutcomeFor key outcome), db)
    | .countPolicyAutoWritesSince actorId deviceId since =>
        (db.countPolicyAutoWritesSince actorId deviceId since, db)
    | .sumPolicyAutoWriteBytesSince actorId deviceId since =>
        (db.sumPolicyAutoWriteBytesSince actorId deviceId since, db)
    | .claimApprovalConsumed key at' => transact db (db.claimApprovalConsumed key at')
    | .setExecutionRecoveryState key state at' =>
        transact db ((db.setExecutionRecoveryState key state at').map fun db' => ((), db'))
    | .selectEvents => (.ok db.events, db)
    | .insertConsumption key at' => transact db (.ok ((), db.insertConsumption key at'))
    | .evaluate policy request => (policy.evaluate o.host request, db)
    | .verifyApproval verifier request decision approval now =>
        (verifier.verify P request decision approval now, db)
    | .issueChallenge request decision now expires =>
        (ApprovalChallenge.issue P request decision now expires o.nonce, db)
    | .prepareEdit d authorization edits => (o.prepareEdit d authorization edits, db)
    | .executeAuthorized d authorization => (o.executeAuthorized d authorization, db)
    | .executeApproved d execution => (o.executeApproved d execution, db)

variable {P : Primitives} {o : Surroundings} {db : Database}

theorem workingLedger_commits (op : DeviceOp) :
    op.Commits P db ((workingLedger P o).answer db op).1 ((workingLedger P o).answer db op).2 := by
  cases op with
  | append event => exact transacts_transact db (.ok (db.append P event))
  | claimApprovalConsumed key at' => exact transacts_transact db (db.claimApprovalConsumed key at')
  | setExecutionRecoveryState key state at' => exact transacts_transact db _
  | insertConsumption key at' =>
    exact transacts_transact db (.ok ((), db.insertConsumption key at'))
  | hasOutcomeFor | countPolicyAutoWritesSince | sumPolicyAutoWriteBytesSince | selectEvents =>
      exact ⟨rfl, fun _ => id⟩
  | evaluate => exact ⟨rfl, o.host, rfl⟩
  | verifyApproval => exact ⟨rfl, rfl⟩
  | issueChallenge => exact ⟨rfl, o.nonce, rfl⟩
  | prepareEdit => rfl
  | executeAuthorized d authorization => exact ⟨rfl, o.authorized_own d authorization⟩
  | executeApproved d execution => exact ⟨rfl, o.approved_own d execution⟩

/-- A working ledger is one of the ways a device can behave. -/
theorem workingLedger_sound (L : Libraries) (o : Surroundings) :
    (workingLedger L.toPrimitives o).Sound (deviceSystem L) :=
  fun _ op => workingLedger_commits op

/-! ### Results of single programs -/

/-- What a program safely returns, it returns under a working ledger, and
what it has recorded is in the tables. -/
theorem Safe.working {α : Type} {G : History Device → DeviceOp → Prop}
    {Q : History Device → α → Prop} {p : Program Device α} (db : Database)
    (hp : Safe (I := Device) (Honest P) G Q p []) :
    ∃ h, Q h (exec (workingLedger P o) p db).1 ∧
      ∀ event, Recorded h event → event ∈ (exec (workingLedger P o) p db).2.events := by
  obtain ⟨h, hQ, hJ⟩ := hp.exec (J := fun db h => LedgerInvariant P db (h.map (0, ·)))
    (H := workingLedger P o) (s := db)
    (fun db h op hJ => by
      have hcommit : op.Commits P db _ _ := workingLedger_commits (P := P) (o := o) op
      have hhonest := hJ.honest_reply 0 (e := ⟨op, ((workingLedger P o).answer db op).1⟩) hcommit
      rw [Log.of_map_self] at hhonest
      exact ⟨hhonest, hJ.step 0 (e := ⟨op, ((workingLedger P o).answer db op).1⟩) hcommit⟩)
    (ledgerInvariant_initial P db)
  refine ⟨h, hQ, fun event ⟨record, hrec⟩ => hJ.recorded 0 event record ?_⟩
  exact List.mem_map_of_mem hrec

/-! ### The operations of a working ledger -/

@[simp] theorem exec_append (event : AuditEvent) :
    exec (workingLedger P o) (Ledger.append event).run db =
      (.ok (db.append P event).1, (db.append P event).2) := rfl

@[simp] theorem exec_hasOutcomeFor (key : ApprovalKey) (outcome : String) :
    exec (workingLedger P o) (Ledger.hasOutcomeFor key outcome).run db =
      (.ok (db.hasOutcomeFor key outcome), db) := rfl

@[simp] theorem exec_claimApprovalConsumed (key : ApprovalKey) (now : ℕ) :
    exec (workingLedger P o) (Ledger.claimApprovalConsumed key now).run db =
      transact db (db.claimApprovalConsumed key now) := rfl

@[simp] theorem exec_ledgerSetExecutionRecoveryState (key : ApprovalKey)
    (state : ExecutionRecoveryState) (now : ℕ) :
    exec (workingLedger P o) (Ledger.setExecutionRecoveryState key state now).run db =
      transact db ((db.setExecutionRecoveryState key state now).map fun db' => ((), db')) := rfl

@[simp] theorem exec_append_recording (event : AuditEvent) (h : History Device) :
    exec (workingLedger P o).recording (Ledger.append event).run (db, h) =
      (.ok (db.append P event).1,
        ((db.append P event).2, appended event (db.append P event).1 :: h)) := rfl

@[simp] theorem exec_issueChallenge_recording (request : ActionRequest) (decision : PolicyDecision)
    (now expires : ℕ) (h : History Device) :
    exec (workingLedger P o).recording (issueChallenge request decision now expires).run (db, h) =
      (ApprovalChallenge.issue P request decision now expires o.nonce,
        (db, ⟨.issueChallenge request decision now expires,
          ApprovalChallenge.issue P request decision now expires o.nonce⟩ :: h)) := rfl

@[simp] theorem exec_prepareEdit (H : Handler Device Database) (d : Dispatcher)
    (authorization : Authorization) (edits : List TextEdit) (h : History Device) :
    exec H.recording (d.prepareEdit authorization edits).run (db, h) =
      ((H.answer db (.prepareEdit d authorization edits)).1,
        ((H.answer db (.prepareEdit d authorization edits)).2,
          ⟨.prepareEdit d authorization edits,
            (H.answer db (.prepareEdit d authorization edits)).1⟩ ::
            h)) := rfl

@[simp] theorem exec_executeApproved (H : Handler Device Database) (d : Dispatcher)
    (execution : ExecutionAuthorization) (h : History Device) :
    exec H.recording (d.executeApproved execution).run (db, h) =
      ((H.answer db (.executeApproved d execution)).1,
        ((H.answer db (.executeApproved d execution)).2,
          ⟨.executeApproved d execution, (H.answer db (.executeApproved d execution)).1⟩ :: h)) :=
            rfl

@[simp] theorem exec_evaluatePolicy {ε : Type} (policy : PolicyEngine) (request : ActionRequest) :
    exec (workingLedger P o) (evaluatePolicy (ε := ε) policy request).run db =
      (.ok (policy.evaluate o.host request), db) := rfl

@[simp] theorem exec_verifyApproval (verifier : ApprovalVerifier) (request : ActionRequest)
    (decision : PolicyDecision) (approval : SignedApproval) (now : ℕ) :
    exec (workingLedger P o) (verifyApproval verifier request decision approval now).run db =
      (verifier.verify P request decision approval now, db) := rfl

namespace Broker

variable {policy : PolicyEngine} {request : ActionRequest} {now : ℕ}

/-- A decision the limiter does not look at is audited as it is. -/
theorem exec_authorizeAt (hverify : request.verify P now = .ok ())
    (hkind : (policy.evaluate o.host request).kind ≠ .auto) :
    exec (workingLedger P o) (authorizeAt P policy request now).run db =
      (.ok ⟨request, policy.evaluate o.host request⟩,
        (db.append P
          (authorizationEvent policy request (policy.evaluate o.host request) now)).2) := by
  simp only [authorizeAt, limitAutoWrites, hverify, hkind, false_and, if_false, exec_exceptT_bind,
    exec_check, exec_evaluatePolicy, exec_exceptT_adapt, exec_append,
      exec_exceptT_pure, mapError_ok,
    execThen_ok]

theorem exec_appendApprovalEvent (actorId outcome : String) :
    exec (workingLedger P o) (appendApprovalEvent policy request actorId outcome now).run db =
      (.ok (), (db.append P (approvalEvent policy request actorId outcome
        (policy.evaluate o.host request).reasonCode now)).2) := by
  simp only [appendApprovalEvent, exec_exceptT_bind, exec_evaluatePolicy, exec_exceptT_adapt,
    exec_append, exec_exceptT_pure, mapError_ok, execThen_ok]

theorem exec_setExecutionRecoveryState {authorization : Authorization}
    {state : ExecutionRecoveryState} {db' : Database}
    (h : db.setExecutionRecoveryState authorization.request.key state now = .ok db') :
    exec (workingLedger P o) (setExecutionRecoveryState authorization state now).run db =
      (.ok (), db') := by
  rw [setExecutionRecoveryState, exec_exceptT_adapt, exec_ledgerSetExecutionRecoveryState, h]
  rfl

variable {approval : SignedApproval} {verifier : ApprovalVerifier}

/-- When an approval is consumed: the request verifies, its authorisation is
audited, the verifier accepts the approval for the decision the policy takes
now, and this call inserts the consumption. -/
structure Consumes (P : Primitives) (policy : PolicyEngine) (host : Host) (db : Database)
    (request : ActionRequest) (approval : SignedApproval) (verifier : ApprovalVerifier)
    (nowUnixMs : ℕ) : Prop where
  verified : request.verify P nowUnixMs = .ok ()
  prepared : db.hasOutcomeFor request.key "approval" = true
  accepted : verifier.verify P request (policy.evaluate host request) approval nowUnixMs = .ok ()
  claimed : ∃ db', db.claimApprovalConsumed request.key nowUnixMs = .ok (true, db')

/-- The consumption leaves the execution as not yet done. -/
theorem exec_consumeApprovalAt
    (h : Consumes P policy o.host db request approval verifier now) :
    ∃ db', db'.executions request.key = some (.notExecuted, now) ∧ exec (workingLedger P o)
      (consumeApprovalAt P policy request approval verifier now).run db =
      (.ok { authorization := { request, decision := policy.evaluate o.host request }
             approverId := approval.approverId
             approvalExpiresAtUnixMs := approval.challenge.expiresAtUnixMs }, db') := by
  obtain ⟨db', hclaim⟩ := h.claimed
  simp only [consumeApprovalAt, exec_exceptT_bind, exec_check, exec_evaluatePolicy,
    exec_exceptT_adapt, exec_hasOutcomeFor, exec_verifyApproval, exec_claimApprovalConsumed,
    exec_appendApprovalEvent, exec_exceptT_pure, h.verified, h.prepared, h.accepted, hclaim,
    transact, mapError_ok, execThen_ok, not_true_eq_false, not_false_eq_true, failIf_of_false]
  refine ⟨_, ?_, rfl⟩
  simpa using Database.claimApprovalConsumed_executions hclaim

/-- An approval is consumed under these conditions and no others. -/
theorem consumeApprovalAt_eq_ok_iff :
    (∃ execution, (exec (workingLedger P o)
      (consumeApprovalAt P policy request approval verifier now).run db).1 = .ok execution) ↔
      Consumes P policy o.host db request approval verifier now := by
  constructor
  · rintro ⟨execution, hexec⟩
    simp only [consumeApprovalAt, exec_exceptT_bind, exec_check] at hexec
    cases hverify : request.verify P now with
    | error e => simp [hverify] at hexec
    | ok _ =>
    simp only [hverify, mapError_ok, execThen_ok, exec_exceptT_bind, exec_evaluatePolicy,
      exec_exceptT_adapt, exec_hasOutcomeFor, exec_check] at hexec
    by_cases hprepared : db.hasOutcomeFor request.key "approval" = true
    case neg => simp [hprepared] at hexec
    simp only [hprepared, not_true_eq_false, not_false_eq_true, failIf_of_false, execThen_ok,
      exec_exceptT_bind, exec_exceptT_adapt, exec_verifyApproval] at hexec
    cases haccepted : verifier.verify P request (policy.evaluate o.host request) approval now with
    | error e => simp [haccepted] at hexec
    | ok _ =>
    simp only [haccepted, mapError_ok, execThen_ok, exec_exceptT_bind, exec_exceptT_adapt,
      exec_claimApprovalConsumed] at hexec
    rcases hclaim : db.claimApprovalConsumed request.key now with e | ⟨inserted, db'⟩
    · simp [hclaim, transact] at hexec
    cases inserted with
    | false =>
        simp only [hclaim, transact, mapError_ok, execThen_ok, exec_exceptT_bind, exec_check,
          Bool.false_eq_true, not_false_eq_true, failIf_of_true, execThen_error] at hexec
        simp at hexec
    | true => exact ⟨hverify, hprepared, haccepted, db', hclaim⟩
  · intro h
    obtain ⟨db', _, hexec⟩ := exec_consumeApprovalAt h
    exact ⟨_, congrArg Prod.fst hexec⟩

end Broker

/-! ### Approved requests -/

/-- A consumed approval whose execution is still to be done reaches the
worker. -/
theorem Dispatch.exec_executeConsumed {L : Libraries} {d : Dispatcher} {now since : ℕ}
    (execution : ExecutionAuthorization)
    (hrow : db.executions execution.authorization.request.key = some (.notExecuted, since))
    (hnow : now < 2 ^ 63) (h : History Device) :
    ∃ reply, (⟨.executeApproved d execution, reply⟩ : Event Device) ∈
      (exec (workingLedger L.toPrimitives o).recording
        (executeConsumed L d execution now).run (db, h)).2.2 := by
  obtain ⟨db', hset⟩ : ∃ db', db.setExecutionRecoveryState execution.authorization.request.key
      .effectUncertain now = .ok db' :=
    Database.setExecutionRecoveryState_of_rank_le hrow (by decide) hnow
  obtain ⟨h', hstate⟩ := exec_recording_of_exec (h := h)
    (Broker.exec_setExecutionRecoveryState hset : exec (workingLedger L.toPrimitives o) _ db = _)
  simp only [executeConsumed, exec_exceptT_bind, exec_exceptT_adapt, hstate,
    mapError_ok, execThen_ok, exec_exceptT_lift, exec_executeApproved]
  exact ⟨_, exec_recording_mem _ List.mem_cons_self⟩

/-- On a working ledger an approved request reaches the worker as soon as the
policy asks for an approval and the verifier accepts the one that is given:
nothing else is asked of the ledger than that the pair is new. -/
theorem Dispatch.exec_dispatchApprovedAt (L : Libraries) (o : Surroundings) (d : Dispatcher)
    (db : Database) {request : ActionRequest} {approval : SignedApproval} {now : ℕ}
    (hdevice : request.envelope.deviceId = d.deviceId)
    (haction : remoteApprovedActionAllowed request.envelope.action = true)
    (hverify : request.verify L.toPrimitives now = .ok ())
    (hkind : (d.policy.evaluate o.host request).kind = .approval)
    (haccepted : d.approvalVerifier.verify L.toPrimitives request
      (d.policy.evaluate o.host request) approval now = .ok ())
    (hconsumption : db.consumptions request.key = none)
    (hexecution : db.executions request.key = none) (hnow : now < 2 ^ 63) (h : History Device) :
    ∃ execution reply, execution.authorization.request = request ∧
      (⟨.executeApproved d execution, reply⟩ : Event Device) ∈
        (exec (workingLedger L.toPrimitives o).recording
          (dispatchApprovedAt L d request approval now).run (db, h)).2.2 := by
  have hauto : (d.policy.evaluate o.host request).kind ≠ .auto := by simp [hkind]
  obtain ⟨h₁, hauthorize⟩ := exec_recording_of_exec (h := h)
    (Broker.exec_authorizeAt hverify hauto : exec (workingLedger _ o) _ db = _)
  set db₁ := (db.append L.toPrimitives (Broker.authorizationEvent d.policy request
    (d.policy.evaluate o.host request) now)).2 with hdb₁
  have hprepared : db₁.hasOutcomeFor request.key "approval" = true :=
    Database.hasOutcomeFor_append rfl rfl (congrArg Broker.outcomeOf hkind)
  have hclaim : ∃ db', db₁.claimApprovalConsumed request.key now = .ok (true, db') :=
    Database.claimApprovalConsumed_inserts_iff.mpr ⟨hconsumption, hexecution, hnow⟩
  obtain ⟨db₂, hrow, hconsume⟩ := Broker.exec_consumeApprovalAt (o := o)
    ⟨hverify, hprepared, haccepted, hclaim⟩
  obtain ⟨h₂, hconsume⟩ := exec_recording_of_exec (h := h₁) hconsume
  have hrequires : (⟨request, d.policy.evaluate o.host request⟩ : Authorization).requiresApproval :=
    hkind
  have hallowed : ¬ (⟨request, d.policy.evaluate o.host request⟩ : Authorization).isDenied := by
    simp [Authorization.isDenied, hkind]
  simp only [dispatchApprovedAt, exec_exceptT_bind, exec_check, exec_exceptT_adapt, hdevice,
    haction, ne_eq, not_true_eq_false, not_false_eq_true, failIf_of_false, execThen_ok, hauthorize,
    mapError_ok, hallowed, if_pos hrequires, hconsume]
  obtain ⟨reply, hmem⟩ := exec_executeConsumed (L := L) (d := d)
    { authorization := { request, decision := d.policy.evaluate o.host request }
      approverId := approval.approverId
      approvalExpiresAtUnixMs := approval.challenge.expiresAtUnixMs } hrow hnow h₂
  exact ⟨_, reply, rfl, hmem⟩

/-! ### Runs of one call after the other -/

section After

variable (L : Libraries) (o : Surroundings) (w : World (deviceSystem L)) (i : ℕ) (d : Dispatcher)
  (job : Job) (now : ℕ)

/-- The run of an entry point that is called alone. -/
def runOf : Except DispatchError V1.ActionResult × Database × History Device :=
  exec (workingLedger L.toPrimitives o).recording (job.program L d now).run (w.shared, [])

/-- The world after call `i`, an entry point that is called alone. -/
def called : World (deviceSystem L) :=
  w.after (workingLedger L.toPrimitives o) i (.dispatch d job now)

theorem called_shared : (called L o w i d job now).shared = (runOf L o w d job now).2.1 := by
  simp [called, World.after, deviceSystem, exec_map, runOf]

theorem called_log :
    (called L o w i d job now).log = (runOf L o w d job now).2.2.map (i, ·) ++ w.log := by
  simp [called, World.after, deviceSystem, exec_map, runOf]

theorem called_calls :
    ∃ c, (called L o w i d job now).calls i = some c ∧ c.entry = .dispatch d job now :=
  ⟨_, Function.update_self i _ _, rfl⟩

theorem called_finished :
    ∃ c r, (called L o w i d job now).calls i = some c ∧ c.rest = some (.done r) :=
  ⟨_, _, Function.update_self i _ _, rfl⟩

theorem called_result : ∃ c, (called L o w i d job now).calls i = some c ∧
    c.entry = .dispatch d job now ∧
    c.rest = some (.done (.dispatched (runOf L o w d job now).1)) := by
  refine ⟨_, Function.update_self i _ _, rfl, ?_⟩
  simp [deviceSystem, exec_map, runOf]

theorem called_calls_ne {j : ℕ} (hj : j ≠ i) :
    (called L o w i d job now).calls j = w.calls j :=
  Function.update_of_ne hj _ _

variable {L i} {init : Database → Prop} {mayStart : World (deviceSystem L) → Start → Prop} {w}

/-- A call that runs alone on a working ledger is a run of the device. -/
theorem reachable_called (hw : Reachable init mayStart w) (hfresh : w.calls i = none)
    (hmay : mayStart w (.dispatch d job now)) :
    Reachable init mayStart (called L o w i d job now) :=
  hw.after (workingLedger_sound L o) hfresh hmay

end After

end VorCommander
