import VorCommander.Device.Attempts
import VorCommander.Device.Budget
import VorCommander.Device.Prepared

/-!
The record of every attempt.

A call that hands a request to a worker owes the ledger one terminal record of
it before it returns. Every path pays, on success, on failure and on too much
output, with one exception: a write or a command that runs under policy
returns the error of its worker at once, and the attempt leaves no trace beyond
its authorisation.
-/

namespace VorCommander

open Crypto Steps Steps.Program Steps.World Text DeviceEvent

section Reachable

variable {L : Libraries} {init : Database → Prop} {mayStart : World (deviceSystem L) → Start → Prop}
  {w : World (deviceSystem L)}

/-- Every call that has returned, and whose ledger has not failed, has
recorded one outcome after the worker it has invoked. -/
def RecordsOutcomes (w : World (deviceSystem L)) : Prop :=
  ∀ i (c : Call (deviceSystem L)) r, w.calls i = some c → c.rest = some (.done r) →
    LedgerWorks (w.log.of i) →
    ∀ after e before authorization, w.log.of i = after ++ e :: before →
      attempted e = some authorization →
      after.countP (isOutcomeOf authorization.request.key) = 1

/-- Every call that has returned, and whose ledger has not failed, has
recorded one outcome after the worker it has invoked, unless that was a write
or a command that ran under policy and has failed. -/
theorem outcome_recorded_iff (hw : Reachable init mayStart w) {i : ℕ}
    {c : Call (deviceSystem L)} {r : Finish} (hc : w.calls i = some c)
    (hr : c.rest = some (.done r)) (hworks : LedgerWorks (w.log.of i))
    {after before : History Device} {e : Event Device} (hsplit : w.log.of i = after ++ e :: before)
    {authorization : Authorization} (he : attempted e = some authorization) :
    after.countP (isOutcomeOf authorization.request.key) = 1 ↔ ¬ failsUnderPolicy e :=
  hw.result (Start.safe_attempts L) (allowed_true _) hc hr hworks after e before hsplit
    authorization he

end Reachable

/-! ### Writes under policy -/

section Working

variable {P : Primitives} {o : Surroundings} {db : Database} {h : History Device}

@[simp] theorem exec_countPolicyAutoWritesSince_recording (actorId deviceId : String) (since : ℕ) :
    exec (workingLedger P o).recording
        (Ledger.countPolicyAutoWritesSince actorId deviceId since).run (db, h) =
      (db.countPolicyAutoWritesSince actorId deviceId since,
        (db, ⟨.countPolicyAutoWritesSince actorId deviceId since,
          db.countPolicyAutoWritesSince actorId deviceId since⟩ :: h)) := rfl

@[simp] theorem exec_sumPolicyAutoWriteBytesSince_recording (actorId deviceId : String)
    (since : ℕ) :
    exec (workingLedger P o).recording
        (Ledger.sumPolicyAutoWriteBytesSince actorId deviceId since).run (db, h) =
      (db.sumPolicyAutoWriteBytesSince actorId deviceId since,
        (db, ⟨.sumPolicyAutoWriteBytesSince actorId deviceId since,
          db.sumPolicyAutoWriteBytesSince actorId deviceId since⟩ :: h)) := rfl

@[simp] theorem exec_evaluatePolicy_recording {ε : Type} (policy : PolicyEngine)
    (request : ActionRequest) :
    exec (workingLedger P o).recording (evaluatePolicy (ε := ε) policy request).run (db, h) =
      (.ok (policy.evaluate o.host request),
        (db, evaluated policy request (policy.evaluate o.host request) :: h)) := rfl

@[simp] theorem exec_executeAuthorized_recording (d : Dispatcher) (authorization : Authorization) :
    exec (workingLedger P o).recording (d.executeAuthorized authorization).run (db, h) =
      (o.executeAuthorized d authorization,
        (db, ⟨.executeAuthorized d authorization, o.executeAuthorized d authorization⟩ :: h)) := rfl

/-- What the authorisation of a write leaves in the history, the newest
first. -/
def authorisedHistory (policy : PolicyEngine) (authorization : Authorization)
    (now count bytes : ℕ) (record : AuditRecord) : History Device :=
  let request := authorization.request
  [appended (Broker.authorizationEvent policy request authorization.decision now) record,
   ⟨.sumPolicyAutoWriteBytesSince request.envelope.actorId request.envelope.deviceId
      (now - 60000), Except.ok bytes⟩,
   ⟨.countPolicyAutoWritesSince request.envelope.actorId request.envelope.deviceId (now - 60000),
      Except.ok count⟩,
   evaluated policy request authorization.decision]

/-- A write that policy lets pass and that is within the limits. -/
structure PassesPolicy (P : Primitives) (policy : PolicyEngine) (host : Host) (db : Database)
    (request : ActionRequest) (now count bytes : ℕ) : Prop where
  verified : request.verify P now = .ok ()
  auto : (policy.evaluate host request).kind = .auto
  write : request.envelope.action = "filesystem.write"
  counted : db.countPolicyAutoWritesSince request.envelope.actorId request.envelope.deviceId
    (now - 60000) = .ok count
  summed : db.sumPolicyAutoWriteBytesSince request.envelope.actorId request.envelope.deviceId
    (now - 60000) = .ok bytes
  within : ¬ (policy.config.autoWrite.maxFilesPerMinute ≤ count ∨
    policy.config.autoWrite.maxBytesPerMinute <
      saturatingAdd bytes (Broker.contentBytes request))

theorem Broker.exec_authorizeAt_recording {policy : PolicyEngine} {request : ActionRequest}
    {now count bytes : ℕ} (hpasses : PassesPolicy P policy o.host db request now count bytes) :
    ∃ record db',
      exec (workingLedger P o).recording (authorizeAt P policy request now).run (db, []) =
      (.ok ⟨request, policy.evaluate o.host request⟩,
        (db', authorisedHistory policy ⟨request, policy.evaluate o.host request⟩ now count bytes
          record)) := by
  have hdecision : rateLimited policy (policy.evaluate o.host request) count bytes
      (contentBytes request) = policy.evaluate o.host request := if_neg hpasses.within
  simp only [authorizeAt, limitAutoWrites, hpasses.verified, hpasses.auto, hpasses.write, and_self,
    if_true, exec_exceptT_bind, exec_check, mapError_ok, execThen_ok, exec_evaluatePolicy_recording,
    exec_exceptT_adapt, exec_countPolicyAutoWritesSince_recording,
    exec_sumPolicyAutoWriteBytesSince_recording, hpasses.counted, hpasses.summed, hdecision,
    exec_exceptT_pure, exec_append_recording]
  exact ⟨_, _, rfl⟩

/-- On a working ledger a write that passes reaches its worker. -/
theorem Dispatch.exec_prepareApprovedAt_policy (L : Libraries) (o : Surroundings) (d : Dispatcher)
    (db : Database) {request : ActionRequest} {now count bytes : ℕ}
    (hdevice : request.envelope.deviceId = d.deviceId)
    (hpasses : PassesPolicy L.toPrimitives d.policy o.host db request now count bytes)
    (hedit : request.envelope.parameters["edit_recipe"]? = none)
    (hattempt : (request.envelope.parameters["policy_attempt"]?).bind Value.asBool = some true) :
    ∃ record db', exec (workingLedger L.toPrimitives o).recording
        (prepareApprovedAt L d request now).run (db, []) =
      exec (workingLedger L.toPrimitives o).recording
        (executeUnderPolicy L d ⟨request, d.policy.evaluate o.host request⟩ now).run
        (db', authorisedHistory d.policy ⟨request, d.policy.evaluate o.host request⟩ now count bytes
          record) := by
  obtain ⟨record, db', hauthorize⟩ := Broker.exec_authorizeAt_recording hpasses
  have haction : remoteApprovedActionAllowed request.envelope.action = true := by
    rw [hpasses.write]
    rfl
  have hallowed : ¬ (⟨request, d.policy.evaluate o.host request⟩ : Authorization).isDenied := by
    simp [Authorization.isDenied, hpasses.auto]
  have hruns : (⟨request, d.policy.evaluate o.host request⟩ : Authorization).isAuto ∧
      (policyWriteAttempt ⟨request, d.policy.evaluate o.host request⟩ ∨
        safeTerminal ⟨request, d.policy.evaluate o.host request⟩) :=
    ⟨hpasses.auto, .inl ⟨hpasses.write, hattempt⟩⟩
  refine ⟨record, db', ?_⟩
  simp only [prepareApprovedAt, exec_exceptT_bind, exec_check, exec_exceptT_adapt, hdevice, haction,
    ne_eq, not_true_eq_false, not_false_eq_true, failIf_of_false, execThen_ok, hauthorize,
    mapError_ok, hallowed, prepareEditRequest, hedit, exec_exceptT_pure, concludePreparation,
    if_pos hruns]

/-- Its error is returned as it is. -/
theorem Dispatch.exec_executeUnderPolicy_error {L : Libraries} {d : Dispatcher}
    {authorization : Authorization} {now : ℕ} {error : DispatchError}
    (hworker : o.executeAuthorized d authorization = .error error) :
    exec (workingLedger L.toPrimitives o).recording (executeUnderPolicy L d authorization now).run
        (db, h) =
      (.error error, (db, ⟨.executeAuthorized d authorization, Except.error error⟩ :: h)) := by
  simp only [executeUnderPolicy, exec_exceptT_bind, exec_executeAuthorized_recording, hworker,
    execThen_error]

/-- Its output is recorded before it is returned. -/
theorem Dispatch.exec_executeUnderPolicy_ok {L : Libraries} {d : Dispatcher}
    {authorization : Authorization} {now : ℕ} {output : WorkerOutput}
    (hworker : o.executeAuthorized d authorization = .ok output) :
    ∃ record, (exec (workingLedger L.toPrimitives o).recording
        (executeUnderPolicy L d authorization now).run (db, h)).2.2 =
      [appended (Broker.outcomeEvent d.policy authorization "executed" now) record] ++
        ⟨.executeAuthorized d authorization, Except.ok output⟩ :: h := by
  simp only [executeUnderPolicy, Broker.auditOutcomeAt, exec_exceptT_bind,
    exec_executeAuthorized_recording, hworker, execThen_ok, exec_exceptT_adapt,
    exec_append_recording, mapError_ok, exec_exceptT_pure, exec_check]
  exact ⟨_, rfl⟩

end Working

namespace Sample

/-- The surroundings in which a write has the given end. -/
def writtenBy (reply : Except FsError WorkerOutput) : Surroundings :=
  { surroundings with
    executeAuthorized := fun _ _ => reply.mapError .fs
    authorized_own := by
      rintro _ _ error
      cases reply <;> simp }

/-- The creation of a file, to be tried under policy. -/
def policyWrite : ActionRequest :=
  request (envelope "filesystem.write" "C:\\work\\a.txt"
    (Std.ExtTreeMap.ofList
      [("content_base64", Value.string "QQ=="), ("content_bytes", Value.posInt 1),
       ("content_sha256",
        Value.string "559aead08264d5795d3909718cdd05abd49572e84fe55590eef31a88a08fdffd"),
       ("expected_target_sha256", Value.string "absent"), ("policy_attempt", Value.bool true)]))

/-- The authorisation of the creation. -/
def policyAuthorization : Authorization :=
  ⟨policyWrite, oneWritePolicy.evaluate surroundings.host policyWrite⟩

theorem policyWrite_passes :
    PassesPolicy reference oneWritePolicy surroundings.host .empty policyWrite 10 0 0 where
  verified := request_verify (by decide) (by decide)
  auto := by decide
  write := rfl
  counted := rfl
  summed := rfl
  within := by decide

/-- A device that is asked for the creation. -/
def policyWriting (reply : Except FsError WorkerOutput) :
    World (deviceSystem (libraries policyWrite.envelope.parameters)) :=
  called (libraries policyWrite.envelope.parameters) (writtenBy reply) (initial .empty) 0
    (dispatcher oneWritePolicy) (.dispatchProtoAt (message policyWrite.envelope)) 10

theorem policyWriting_reachable (reply : Except FsError WorkerOutput) :
    Reachable freshLedger anyEntry (policyWriting reply) :=
  reachable_called _ _ _ _ (reachable_initial rfl) rfl trivial

/-- The call has returned. -/
theorem policyWriting_call (reply : Except FsError WorkerOutput) :
    ∃ c r, (policyWriting reply).calls 0 = some c ∧ c.rest = some (.done r) :=
  called_finished _ _ _ _ _ _ _

/-- What the call does up to its worker. -/
theorem policyWriting_log (reply : Except FsError WorkerOutput) :
    ∃ record db, (policyWriting reply).log.of 0 =
      (exec (workingLedger reference (writtenBy reply)).recording
        (Dispatch.executeUnderPolicy (libraries policyWrite.envelope.parameters)
          (dispatcher oneWritePolicy) policyAuthorization 10).run
        (db, authorisedHistory oneWritePolicy policyAuthorization 10 0 0 record)).2.2 := by
  have hreceived : Wire.actionRequestFromProto (libraries policyWrite.envelope.parameters)
      (message policyWrite.envelope) = .ok policyWrite :=
    message_received policyWrite.envelope (by decide) rfl
  have hdevice : policyWrite.envelope.deviceId = (dispatcher oneWritePolicy).deviceId := rfl
  obtain ⟨record, db, hexec⟩ := Dispatch.exec_prepareApprovedAt_policy
    (libraries policyWrite.envelope.parameters) (writtenBy reply) (dispatcher oneWritePolicy) .empty
    hdevice policyWrite_passes rfl rfl
  refine ⟨record, db, ?_⟩
  have hrun : runOf (libraries policyWrite.envelope.parameters) (writtenBy reply) (initial .empty)
      (dispatcher oneWritePolicy) (.dispatchProtoAt (message policyWrite.envelope)) 10 = _ :=
    (Dispatch.exec_dispatchProtoAt hreceived rfl).trans hexec
  rw [policyWriting, called_log, hrun, Log.of_append, Log.of_map_self]
  exact List.append_nil _

/-- A worker that fails is the last that is in the log. -/
theorem policyWriting_failed (error : FsError) :
    ∃ record, (policyWriting (.error error)).log.of 0 =
      ⟨.executeAuthorized (dispatcher oneWritePolicy) policyAuthorization,
        Except.error (DispatchError.fs error)⟩ ::
        authorisedHistory oneWritePolicy policyAuthorization 10 0 0 record := by
  obtain ⟨record, db, hlog⟩ := policyWriting_log (.error error)
  exact ⟨record, hlog.trans (congrArg (·.2.2) (Dispatch.exec_executeUnderPolicy_error
    (L := libraries policyWrite.envelope.parameters) rfl))⟩

/-- A worker that succeeds is followed by its record. -/
theorem policyWriting_done (output : WorkerOutput) :
    ∃ record record', (policyWriting (.ok output)).log.of 0 =
      [appended (Broker.outcomeEvent oneWritePolicy policyAuthorization "executed" 10) record'] ++
        ⟨.executeAuthorized (dispatcher oneWritePolicy) policyAuthorization,
          Except.ok output⟩ ::
        authorisedHistory oneWritePolicy policyAuthorization 10 0 0 record := by
  obtain ⟨record, db, hlog⟩ := policyWriting_log (.ok output)
  have hworker : (writtenBy (.ok output)).executeAuthorized (dispatcher oneWritePolicy)
      policyAuthorization = .ok output := rfl
  obtain ⟨record', hexec⟩ := Dispatch.exec_executeUnderPolicy_ok
    (L := libraries policyWrite.envelope.parameters) hworker
  exact ⟨record, record', hlog.trans hexec⟩

end Sample

/-- A write under policy finds that its target is not as expected. The error is
returned, and no outcome is recorded. -/
theorem failed_write_unrecorded :
    ¬ ∀ w : World (deviceSystem (Sample.libraries Sample.policyWrite.envelope.parameters)),
      Reachable freshLedger anyEntry w → RecordsOutcomes w := by
  intro h
  obtain ⟨record, hlog⟩ := Sample.policyWriting_failed .targetPreconditionFailed
  have hworks : LedgerWorks
    ((Sample.policyWriting (.error .targetPreconditionFailed)).log.of 0) := by
    rw [hlog]
    simp [LedgerWorks, ledgerFails, authorisedHistory]
  obtain ⟨c, r, hc, hr⟩ := Sample.policyWriting_call (.error .targetPreconditionFailed)
  have hcount := h _ (Sample.policyWriting_reachable _) 0 c r hc hr hworks [] _ _ _ hlog rfl
  simp at hcount

/-- A write under policy that succeeds is recorded. -/
theorem outcome_recorded_iff_write :
    ∃ after e before, (Sample.policyWriting (.ok ([], "application/json"))).log.of 0 =
        after ++ e :: before ∧ attempted e = some Sample.policyAuthorization ∧
      after.countP (isOutcomeOf Sample.policyWrite.key) = 1 := by
  obtain ⟨record, record', hlog⟩ := Sample.policyWriting_done ([], "application/json")
  have hworks : LedgerWorks ((Sample.policyWriting (.ok ([], "application/json"))).log.of 0) := by
    rw [hlog]
    simp [LedgerWorks, ledgerFails, authorisedHistory]
  obtain ⟨c, r, hc, hr⟩ := Sample.policyWriting_call (.ok ([], "application/json"))
  refine ⟨_, _, _, hlog, rfl, ?_⟩
  exact (outcome_recorded_iff (Sample.policyWriting_reachable _) hc hr hworks hlog rfl).mpr
    (by simp [failsUnderPolicy])

end VorCommander
