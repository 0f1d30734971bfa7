import VorCommander.Device.Prepared

/-!
Authorisation of workers.

Whatever is asked of a dispatcher, a worker runs only for a request that
verified, is meant for this device and was not denied by policy; and it runs
on the word of the policy alone, or on an approval that the same call has
verified and consumed. One use of a worker is neither: an edit is prepared,
which reads the target, for the approver to see what the write would be.
-/

namespace VorCommander

open Crypto Steps Steps.Program Steps.World Text DeviceEvent

/-- The dispatcher and the authorisation with which an operation runs a
worker. -/
def DeviceOp.worker : DeviceOp → Option (Dispatcher × Authorization)
  | .prepareEdit d authorization _ => some (d, authorization)
  | .executeAuthorized d authorization => some (d, authorization)
  | .executeApproved d execution => some (d, execution.authorization)
  | _ => none

section Rules

variable (P : Primitives) (d : Dispatcher) (job : Job) (nowUnixMs : ℕ) (h : History Device)

/-- A request whose digest verifies and that has not expired, for this
device, with a decision the policy has taken on it other than to deny it. -/
structure Admissible (request : ActionRequest) (decision : PolicyDecision) : Prop where
  verified : request.verify P nowUnixMs = .ok ()
  device : request.envelope.deviceId = d.deviceId
  evaluated : ∃ host, decision = d.policy.evaluate host request
  notDenied : decision.kind ≠ .deny

/-- What may run on the word of the policy alone: a remote read, a write that
asks to, a command on the safe list. -/
def Unsigned (authorization : Authorization) : Prop :=
  authorization.isAuto ∧
    (remoteActionAllowed authorization.request.envelope.action = true ∨
      Dispatch.policyWriteAttempt authorization ∨
      authorization.request.envelope.action = "terminal.exec" ∧
        ∃ host, d.policy.config.SafeListed host authorization.request)

/-- An approval of the same digest, presented to this call, has been verified
and consumed by it. -/
def Signed (authorization : Authorization) : Prop :=
  ∃ approval, job.approval = some approval ∧
    approval.challenge.envelopeDigest = authorization.request.envelopeDigest ∧
    verified d.approvalVerifier authorization.request authorization.decision
      approval nowUnixMs ∈ h ∧
    claimed authorization.request.key nowUnixMs ∈ h

/-- The two ways in which an action may be run. -/
structure Permitted (authorization : Authorization) : Prop where
  admissible : Admissible P d nowUnixMs authorization.request authorization.decision
  reason : Unsigned d authorization ∨ Signed d job nowUnixMs h authorization

/-- The preparation of an edit: the request is admissible, and the answer
will be a challenge. -/
structure PreparesEdit (authorization : Authorization) : Prop where
  admissible : ∃ decision, Admissible P d nowUnixMs authorization.request decision
  notDenied : ¬ authorization.isDenied
  prepares : job.prepares

end Rules

section Runs

variable {L : Libraries} {init : Database → Prop} {mayStart : World (deviceSystem L) → Start → Prop}
  {w : World (deviceSystem L)}

/-- What a call has vetted is admissible. -/
theorem Vetted.admissible {d : Dispatcher} {now : ℕ} {log : Log Device} {i : ℕ}
    {request : ActionRequest} {decision : PolicyDecision}
    (hallowed : Allowed (fun _ => Honest L.toPrimitives) log)
    (h : Vetted L.toPrimitives d now (log.of i) request decision) :
    Admissible L.toPrimitives d now request decision := by
  obtain ⟨_, hhonest⟩ := hallowed.of_mem (Log.mem_of.mp h.evaluated)
  exact ⟨h.verified, h.device, hhonest, h.notDenied⟩

/-- The reason for a command on the safe list is that it is listed. -/
theorem unsigned_of_runsUnsigned {P : Primitives} {d : Dispatcher} {now : ℕ}
    {authorization : Authorization}
    (hadmissible : Admissible P d now authorization.request authorization.decision)
    (hauto : authorization.isAuto) (hruns : RunsUnsigned authorization) :
    Unsigned d authorization := by
  refine ⟨hauto, hruns.imp_right (Or.imp_right fun ⟨haction, hreason⟩ => ⟨haction, ?_⟩)⟩
  obtain ⟨host, hdecision⟩ := hadmissible.evaluated
  rw [hdecision, PolicyEngine.evaluate_reasonCode] at hreason
  exact ⟨host, PolicyConfig.safeListed_of_reason haction hreason⟩

/-- In every run, each operation that runs a worker is permitted in the call
that performs it, or prepares an edit for one that answers with a challenge. -/
theorem worker_permitted (hw : Reachable init mayStart w) {later earlier : Log Device} {i : ℕ}
    {e : Event Device} (hlog : w.log = later ++ (i, e) :: earlier) {d : Dispatcher}
    {authorization : Authorization} (hworker : e.op.worker = some (d, authorization)) :
    ∃ c job now, w.calls i = some c ∧ c.entry = .dispatch d job now ∧
      (Permitted L.toPrimitives d job now (earlier.of i) authorization ∨
        (∃ edits, e.op = .prepareEdit d authorization edits) ∧
          PreparesEdit L.toPrimitives d job now authorization) := by
  obtain ⟨c, hc, hguarantee⟩ := guaranteed hw hlog
  have hallowed : Allowed (fun _ => Honest L.toPrimitives) earlier := by
    have hall := (ledgerInvariant_reachable hw).honest
    rw [hlog] at hall
    exact hall.suffix.2
  obtain ⟨op, reply⟩ := e
  cases hentry : c.entry with
  | openLedger =>
      rw [hentry] at hguarantee
      cases op <;> simp_all [DeviceOp.worker, Start.Guarantee, DeviceOp.isBookkeeping]
  | dispatch d' job now =>
      rw [hentry] at hguarantee
      cases op with
      | prepareEdit d₁ a edits =>
          obtain ⟨rfl, rfl⟩ := Prod.mk.inj (Option.some.inj hworker)
          obtain ⟨rfl, ⟨decision, hvetted⟩, hdenied, hprepares⟩ := hguarantee
          exact ⟨c, job, now, hc, hentry, .inr ⟨⟨edits, rfl⟩,
            ⟨decision, hvetted.admissible hallowed⟩, hdenied, hprepares⟩⟩
      | executeAuthorized d₁ a =>
          obtain ⟨rfl, rfl⟩ := Prod.mk.inj (Option.some.inj hworker)
          obtain ⟨rfl, hvetted, hauto, hruns⟩ := hguarantee
          have hadmissible := hvetted.admissible hallowed
          exact ⟨c, job, now, hc, hentry, .inl ⟨hadmissible,
            .inl (unsigned_of_runsUnsigned hadmissible hauto hruns)⟩⟩
      | executeApproved d₁ execution =>
          obtain ⟨rfl, rfl⟩ := Prod.mk.inj (Option.some.inj hworker)
          obtain ⟨rfl, hvetted, _, approval, happroval, hconsumed⟩ := hguarantee
          obtain ⟨_, _, _, _, hbinds, _⟩ := ApprovalVerifier.verify_eq_ok_iff.mp hconsumed.accepted
          exact ⟨c, job, now, hc, hentry, .inl ⟨hvetted.admissible hallowed,
            .inr ⟨approval, happroval, hbinds.envelopeDigest, hconsumed.verified,
              hconsumed.claimed⟩⟩⟩
      | _ => cases hworker

end Runs

/-- The execution of the termination is permitted. -/
theorem worker_permitted_termination :
    ∃ execution reply, ∃ later earlier : Log Device,
      (Sample.dispatched ∅ Sample.terminationPolicy Sample.terminationJob).log =
        later ++
          (0, ⟨.executeApproved (Sample.dispatcher Sample.terminationPolicy) execution, reply⟩) ::
          earlier ∧
      ∃ c job now,
        (Sample.dispatched ∅ Sample.terminationPolicy Sample.terminationJob).calls 0 = some c ∧
        c.entry = .dispatch (Sample.dispatcher Sample.terminationPolicy) job now ∧
        (Permitted reference (Sample.dispatcher Sample.terminationPolicy) job now (earlier.of 0)
            execution.authorization ∨
          (∃ edits,
            (.executeApproved (Sample.dispatcher Sample.terminationPolicy) execution : DeviceOp) =
              .prepareEdit (Sample.dispatcher Sample.terminationPolicy)
                execution.authorization edits) ∧
            PreparesEdit reference (Sample.dispatcher Sample.terminationPolicy) job now
              execution.authorization) := by
  obtain ⟨execution, reply, _, hmem⟩ := Sample.termination_executed
  obtain ⟨later, earlier, hlog⟩ := List.append_of_mem hmem
  exact ⟨execution, reply, later, earlier, hlog,
    worker_permitted (Sample.dispatched_reachable _ _ _) hlog rfl⟩

/-! ### A worker that runs without either reason -/

/-- On a working ledger a write that carries an edit recipe and needs an
approval has the edit prepared. -/
theorem Dispatch.exec_prepareApprovedAt_edit (L : Libraries) (o : Surroundings) (d : Dispatcher)
    (db : Database) {request : ActionRequest} {now : ℕ} {recipe : Value} {edits : List TextEdit}
    (hdevice : request.envelope.deviceId = d.deviceId)
    (haction : remoteApprovedActionAllowed request.envelope.action = true)
    (hverify : request.verify L.toPrimitives now = .ok ())
    (hkind : (d.policy.evaluate o.host request).kind = .approval)
    (hedit : request.envelope.parameters["edit_recipe"]? = some recipe)
    (hedits : TextEdit.listFromValue recipe = some edits) :
    ∃ reply, (⟨.prepareEdit d ⟨request, d.policy.evaluate o.host request⟩ edits, reply⟩ :
        Event Device) ∈
      (exec (workingLedger L.toPrimitives o).recording
        (prepareApprovedAt L d request now).run (db, [])).2.2 := by
  have hauto : (d.policy.evaluate o.host request).kind ≠ .auto := by simp [hkind]
  obtain ⟨h₁, hauthorize⟩ := exec_recording_of_exec (h := [])
    (Broker.exec_authorizeAt hverify hauto : exec (workingLedger _ o) _ db = _)
  have hallowed : ¬ (⟨request, d.policy.evaluate o.host request⟩ : Authorization).isDenied := by
    simp [Authorization.isDenied, hkind]
  simp only [prepareApprovedAt, exec_exceptT_bind, exec_check, exec_exceptT_adapt, hdevice, haction,
    ne_eq, not_true_eq_false, not_false_eq_true, failIf_of_false, execThen_ok, hauthorize,
    mapError_ok, hallowed, prepareEditRequest, hedit, hedits, orFail_some, exec_prepareEdit]
  exact ⟨_, execThen_recording_mem _ (execThen_recording_mem _ List.mem_cons_self)⟩

namespace Sample

/-- A policy under which a directory may be written with an approval, and not
read. -/
def dropPolicy : PolicyEngine where
  config :=
    { closedPolicy with
      filesystem := [{ path := "C:\\work", read := .deny, write := .approval }] }
  policyHash := "sample"
  supported := rfl
  named := by decide

/-- One replacement. -/
def recipe : Value :=
  .array [.object [("old_text", .string "a"), ("new_text", .string "b")]]

def edit : ActionRequest :=
  request (envelope "filesystem.write" "C:\\work\\a.txt"
    (Std.ExtTreeMap.ofList [("edit_recipe", recipe)]))

theorem edit_verify : edit.verify reference 10 = .ok () :=
  request_verify (by decide) (by decide)

/-- The edit as it arrives. -/
def editMessage : V1.ActionRequest := message edit.envelope

/-- A device that is asked for the edit. -/
def editing : World (deviceSystem (libraries edit.envelope.parameters)) :=
  dispatched edit.envelope.parameters dropPolicy (.dispatchProtoAt editMessage)

/-- It has the edit prepared, for which it reads the file. -/
theorem edit_prepared :
    ∃ reply, (0, ⟨.prepareEdit (dispatcher dropPolicy)
      ⟨edit, dropPolicy.evaluate surroundings.host edit⟩ [{ oldText := "a", newText := "b" }],
        reply⟩) ∈
        editing.log := by
  have hkind : (dropPolicy.evaluate surroundings.host edit).kind = .approval := by decide
  have hedit : edit.envelope.parameters["edit_recipe"]? = some recipe := rfl
  have hreceived : Wire.actionRequestFromProto (libraries edit.envelope.parameters) editMessage =
      .ok edit := message_received edit.envelope (by decide) rfl
  obtain ⟨reply, hmem⟩ :=
    Dispatch.exec_prepareApprovedAt_edit (libraries edit.envelope.parameters) surroundings
      (dispatcher dropPolicy) .empty rfl rfl edit_verify hkind hedit
      (by decide : TextEdit.listFromValue recipe = some [{ oldText := "a", newText := "b" }])
  refine ⟨reply, ?_⟩
  rw [editing, dispatched, called_log, runOf, Job.program,
    Dispatch.exec_dispatchProtoAt hreceived rfl]
  exact List.mem_append_left _ (List.mem_map_of_mem hmem)

end Sample

/-- A worker has run that neither the policy nor an approval has permitted. -/
theorem edit_not_permitted :
    ¬ ∀ w : World (deviceSystem (Sample.libraries Sample.edit.envelope.parameters)),
      Reachable freshLedger anyEntry w →
      ∀ (later earlier : Log Device) i (e : Event Device) d authorization,
        w.log = later ++ (i, e) :: earlier → e.op.worker = some (d, authorization) →
        ∃ c job now, w.calls i = some c ∧ c.entry = .dispatch d job now ∧
          Permitted reference d job now (earlier.of i) authorization := by
  intro h
  obtain ⟨reply, hmem⟩ := Sample.edit_prepared
  obtain ⟨later, earlier, hlog⟩ := List.append_of_mem hmem
  obtain ⟨c, job, now, hc, hentry, hpermitted⟩ :=
    h Sample.editing (Sample.dispatched_reachable _ _ _) later earlier 0 _ _ _ hlog rfl
  obtain ⟨c', hc', hentry'⟩ := called_calls (Sample.libraries Sample.edit.envelope.parameters)
    Sample.surroundings (initial .empty) 0 (Sample.dispatcher Sample.dropPolicy)
    (.dispatchProtoAt Sample.editMessage) 10
  obtain rfl := Option.some.inj (hc.symm.trans hc')
  rw [hentry] at hentry'
  obtain ⟨_, rfl, _⟩ := Start.dispatch.inj hentry'
  rcases hpermitted.reason with ⟨hauto, _⟩ | ⟨approval, happroval, _⟩
  · exact absurd hauto (by decide)
  · cases happroval

end VorCommander
