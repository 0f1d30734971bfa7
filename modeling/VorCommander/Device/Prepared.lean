import VorCommander.Device.OneShot

/-!
Preparation of approvals.

`consume_approval_at` looks for an audited authorisation that asked for an
approval of the same request and digest. The call that consumes has just
audited one itself, so the look never fails and says nothing about earlier
calls. What does hold is conditional on who presents the approvals: if each of
them is over a challenge that a dispatcher of the same ledger has issued, every
execution has been prepared.
-/

namespace VorCommander

open Crypto Steps Steps.Program Steps.World Text DeviceEvent

/-- The pair of request identifier and digest a challenge is over. -/
def ApprovalChallenge.key (challenge : ApprovalChallenge) : ApprovalKey :=
  ⟨challenge.requestId, challenge.envelopeDigest⟩

/-- The entry points that answer with an approval challenge. -/
def Start.prepares : Start → Prop
  | .dispatch _ job _ => job.prepares
  | .openLedger => False

/-- The signed approval a process is started with. -/
def Start.approval : Start → Option SignedApproval
  | .dispatch _ job _ => job.approval
  | .openLedger => none

/-- Call `i` has issued a challenge and audited that it did. -/
def Issues (log : Log Device) (i : ℕ) (challenge : ApprovalChallenge) : Prop :=
  ∃ request decision now expiresAt policy record,
    (i, issued request decision now expiresAt challenge) ∈ log ∧
      (i, appended (Broker.outcomeEvent policy ⟨request, decision⟩ "approval_challenge_issued" now)
        record) ∈ log

theorem Issues.cons {log : Log Device} {i j : ℕ} {challenge : ApprovalChallenge} {e : Event Device}
    (h : Issues log i challenge) : Issues ((j, e) :: log) i challenge := by
  obtain ⟨request, decision, now, expiresAt, policy, record, hissued, haudited⟩ := h
  exact ⟨request, decision, now, expiresAt, policy, record, List.mem_cons_of_mem _ hissued,
    List.mem_cons_of_mem _ haudited⟩

section Runs

variable {L : Libraries} {init : Database → Prop} {mayStart : World (deviceSystem L) → Start → Prop}
  {w : World (deviceSystem L)}

/-- Every execution of a run comes after a preparation: a call that answers
with challenges has issued and audited one for the same request identifier and
digest. -/
def PreparedFirst (w : World (deviceSystem L)) : Prop :=
  ∀ (later earlier : Log Device) i d execution reply,
    w.log = later ++ (i, ⟨.executeApproved d execution, reply⟩) :: earlier →
    ∃ j c challenge, w.calls j = some c ∧ c.entry.prepares ∧ Issues earlier j challenge ∧
      challenge.key = execution.authorization.request.key

/-- A call with an approval over a challenge that was never issued ends with
the refusal of an unprepared approval, if it ends. -/
def RefusesUnprepared (w : World (deviceSystem L)) : Prop :=
  ∀ i c approval result, w.calls i = some c → c.entry.approval = some approval →
    (∀ j, ¬ Issues w.log j approval.challenge) → c.rest = some (.done (.dispatched result)) →
    result = .error (.core .approvalNotPrepared)

/-- No call is ever refused because its approval was not prepared. -/
theorem approvalNotPrepared_unreachable (hw : Reachable init mayStart w) {i : ℕ}
    {c : Call (deviceSystem L)} {result : Except DispatchError V1.ActionResult}
    (hc : w.calls i = some c) (hresult : c.rest = some (.done (.dispatched result))) :
    result ≠ .error (.core .approvalNotPrepared) :=
  hw.result (Start.safe L) (ledgerInvariant_reachable hw).honest hc hresult

/-- Only calls that prepare issue challenges. -/
theorem Issues.prepares (hw : Reachable init mayStart w) {i : ℕ} {challenge : ApprovalChallenge}
    (h : Issues w.log i challenge) : ∃ c, w.calls i = some c ∧ c.entry.prepares := by
  obtain ⟨request, decision, now, expiresAt, _, _, hissued, _⟩ := h
  obtain ⟨later, earlier, hlog⟩ := List.append_of_mem hissued
  obtain ⟨c, hc, hguarantee⟩ := guaranteed hw hlog
  refine ⟨c, hc, ?_⟩
  cases hentry : c.entry with
  | openLedger => simp [hentry, Start.Guarantee, DeviceOp.isBookkeeping] at hguarantee
  | dispatch d job now =>
      simpa [hentry, Start.Guarantee, Guarantee, Start.prepares] using hguarantee

/-- An approval presented to an entry point is over a challenge that has been
issued and audited on the ledger. -/
def presentsIssued (w : World (deviceSystem L)) (entry : Start) : Prop :=
  ∀ approval, entry.approval = some approval → ∃ j, Issues w.log j approval.challenge

theorem presentsIssued_reachable (hw : Reachable init presentsIssued w) {i : ℕ}
    {c : Call (deviceSystem L)} (hc : w.calls i = some c) : presentsIssued w c.entry := by
  refine hw.entry (P := fun (entry : Start) log => ∀ approval, entry.approval = some approval →
    ∃ j, Issues log j approval.challenge) (fun _ _ _ h => h) ?_ hc
  rintro entry log i e h approval happroval
  exact (h approval happroval).imp fun _ => Issues.cons

/-- What an executed approval is over. -/
theorem executed_approval (hw : Reachable init mayStart w) {later earlier : Log Device} {i : ℕ}
    {d : Dispatcher} {execution : ExecutionAuthorization}
    {reply : Except DispatchError WorkerOutput}
    (hlog : w.log = later ++ (i, ⟨.executeApproved d execution, reply⟩) :: earlier) :
    ∃ c approval, w.calls i = some c ∧ c.entry.approval = some approval ∧
      approval.challenge.key = execution.authorization.request.key := by
  obtain ⟨c, hc, hguarantee⟩ := guaranteed hw hlog
  cases hentry : c.entry with
  | openLedger => simp [hentry, Start.Guarantee, DeviceOp.isBookkeeping] at hguarantee
  | dispatch d' job now =>
      simp only [hentry, Start.Guarantee, Guarantee] at hguarantee
      obtain ⟨_, _, _, approval, happroval, hconsumed⟩ := hguarantee
      obtain ⟨_, _, _, _, hbinds, _⟩ := ApprovalVerifier.verify_eq_ok_iff.mp hconsumed.accepted
      refine ⟨c, approval, hc, by simpa [hentry, Start.approval] using happroval, ?_⟩
      rw [ApprovalChallenge.key, hbinds.requestId, hbinds.envelopeDigest]
      rfl

/-- If every approval presented is over a challenge issued on the ledger,
every execution has been prepared, and there is no call that would have to be
refused. -/
theorem preparedFirst_of_presentsIssued (hw : Reachable init presentsIssued w) :
    PreparedFirst w ∧ RefusesUnprepared w := by
  refine ⟨fun later earlier i d execution reply hlog => ?_, ?_⟩
  · obtain ⟨c, approval, hc, happroval, hkey⟩ := executed_approval hw hlog
    -- the challenge was on the ledger before the execution
    obtain ⟨w', c₁, c', hw', hlog', hc', hc₁, hentry⟩ := hw.before hlog
    obtain rfl := Option.some.inj (hc.symm.trans hc₁)
    obtain ⟨j, hissues⟩ := presentsIssued_reachable hw' hc' approval (hentry ▸ happroval)
    rw [hlog'] at hissues
    have hissues' : Issues w.log j approval.challenge := by
      obtain ⟨request, decision, now, expiresAt, policy, record, hissued, haudited⟩ := hissues
      have hsub : ∀ entry ∈ earlier, entry ∈ w.log := fun entry he => by simp [hlog, he]
      exact ⟨request, decision, now, expiresAt, policy, record, hsub _ hissued, hsub _ haudited⟩
    obtain ⟨cj, hcj, hprepares⟩ := hissues'.prepares hw
    exact ⟨j, cj, approval.challenge, hcj, hprepares, hissues, hkey⟩
  · intro i c approval result hc happroval hnone _
    obtain ⟨j, hissues⟩ := presentsIssued_reachable hw hc approval happroval
    exact absurd hissues (hnone j)

end Runs

/-! ### A preparation that succeeds -/

/-- On a working ledger a request that needs an approval is answered with a
challenge, which is issued and audited and leaves no consumption behind. -/
theorem Dispatch.exec_prepareApprovedAt (L : Libraries) (o : Surroundings) (d : Dispatcher)
    (db : Database) {request : ActionRequest} {now expiresAt : ℕ} {challenge : ApprovalChallenge}
    (hdevice : request.envelope.deviceId = d.deviceId)
    (haction : remoteApprovedActionAllowed request.envelope.action = true)
    (hverify : request.verify L.toPrimitives now = .ok ())
    (hkind : (d.policy.evaluate o.host request).kind = .approval)
    (hedit : request.envelope.parameters["edit_recipe"]? = none)
    (hexpiry : challengeExpiry ⟨request, d.policy.evaluate o.host request⟩ now = .ok expiresAt)
    (hissue : ApprovalChallenge.issue L.toPrimitives request (d.policy.evaluate o.host request) now
      expiresAt o.nonce = .ok challenge) :
    ∃ db' h, db'.consumptions = db.consumptions ∧ db'.executions = db.executions ∧
      issued request (d.policy.evaluate o.host request) now expiresAt challenge ∈ h ∧
      Recorded h (Broker.outcomeEvent d.policy ⟨request, d.policy.evaluate o.host request⟩
        "approval_challenge_issued" now) ∧
      exec (workingLedger L.toPrimitives o).recording
        (prepareApprovedAt L d request now).run (db, []) =
        (challengeResult L ⟨request, d.policy.evaluate o.host request⟩ challenge none now,
          db', h) := by
  have hauto : (d.policy.evaluate o.host request).kind ≠ .auto := by simp [hkind]
  obtain ⟨h₁, hauthorize⟩ := exec_recording_of_exec (h := [])
    (Broker.exec_authorizeAt hverify hauto : exec (workingLedger _ o) _ db = _)
  have hrequires : (⟨request, d.policy.evaluate o.host request⟩ : Authorization).requiresApproval :=
    hkind
  have hallowed : ¬ (⟨request, d.policy.evaluate o.host request⟩ : Authorization).isDenied := by
    simp [Authorization.isDenied, hkind]
  have hmanual : ¬ (⟨request, d.policy.evaluate o.host request⟩ : Authorization).isAuto := hauto
  simp only [prepareApprovedAt, exec_exceptT_bind, exec_check, exec_exceptT_adapt, hdevice, haction,
    ne_eq, not_true_eq_false, not_false_eq_true, failIf_of_false, execThen_ok, hauthorize,
    mapError_ok, hallowed, prepareEditRequest, hedit, exec_exceptT_pure, concludePreparation,
    hmanual, false_and, if_false, if_pos hrequires, issueApprovalChallenge, hexpiry,
    exec_issueChallenge_recording, hissue, Broker.auditOutcomeAt, exec_append_recording]
  refine ⟨_, _, ?_, ?_, ?_, ?_, rfl⟩
  · rfl
  · rfl
  · exact List.mem_cons_of_mem _ List.mem_cons_self
  · exact ⟨_, List.mem_cons_self⟩

/-- A request that may need an approval is prepared as it was received. -/
theorem Dispatch.exec_dispatchProtoAt {σ : Type} {L : Libraries} {d : Dispatcher} {now : ℕ}
    {H : Handler Device σ} {s : σ} {value : V1.ActionRequest} {request : ActionRequest}
    (hreceived : Wire.actionRequestFromProto L value = .ok request)
    (haction : remoteApprovedActionAllowed request.envelope.action = true) :
    exec H (dispatchProtoAt L d value now).run s =
      exec H (prepareApprovedAt L d request now).run s := by
  simp only [dispatchProtoAt, exec_exceptT_bind, exec_check, hreceived, mapError_ok, execThen_ok,
    if_pos haction]

/-! ### An execution that was not prepared -/

/-- A dispatcher executes an approval over a challenge that nobody issued. -/
theorem termination_unprepared :
    ¬ ∀ w : World (deviceSystem (Sample.libraries ∅)),
      Reachable freshLedger anyEntry w → PreparedFirst w ∧ RefusesUnprepared w := by
  intro h
  obtain ⟨execution, reply, _, hmem⟩ := Sample.termination_executed
  obtain ⟨later, earlier, hlog⟩ := List.append_of_mem hmem
  obtain ⟨j, c, challenge, hc, hprepares,
    ⟨request, decision, now, expiresAt, _, _, hissued, _⟩, _⟩ :=
    (h _ (Sample.dispatched_reachable _ _ _)).1 later earlier 0 _ execution reply hlog
  -- only call 0 is in the log, and it does not answer with challenges
  have hj : (j, issued request decision now expiresAt challenge) ∈
      (Sample.dispatched ∅ Sample.terminationPolicy Sample.terminationJob).log := by
    simp [hlog, hissued]
  simp only [Sample.dispatched, called_log, World.initial, List.append_nil, List.mem_map,
    Prod.mk.injEq] at hj
  obtain ⟨_, _, rfl, _⟩ := hj
  obtain ⟨c', hc', hentry⟩ :=
    called_calls (Sample.libraries ∅) Sample.surroundings (initial Database.empty) 0
    (Sample.dispatcher Sample.terminationPolicy) Sample.terminationJob 10
  obtain rfl := Option.some.inj (hc.symm.trans hc')
  rw [hentry] at hprepares
  exact hprepares

/-! ### A prepared execution -/

namespace Sample

/-- An envelope as it arrives: its digest and the text of its parameters. -/
def message (envelope : ActionEnvelope) : V1.ActionRequest :=
  { requestId := envelope.requestId
    organizationId := envelope.organizationId
    actorId := envelope.actorId
    deviceId := envelope.deviceId
    action := envelope.action
    target := envelope.target
    parametersJson := Wire.parametersJson envelope
    requestedCapabilities := envelope.requestedCapabilities
    expiresAt := some ⟨1, 0⟩
    nonce := envelope.nonce
    envelopeDigest := (envelope.digest reference).toList }

/-- What arrives is the request. -/
theorem message_received (envelope : ActionEnvelope) (hvalid : validateEnvelope envelope = .ok ())
    (hexpires : envelope.expiresAtUnixMs = 1000) :
    Wire.actionRequestFromProto (libraries envelope.parameters) (message envelope) =
      .ok (request envelope) := by
  have hparameters : Wire.receivedParameters (libraries envelope.parameters)
      (Wire.parametersJson envelope) = .ok envelope.parameters := by
    have hread : (libraries envelope.parameters).parseParameters (Wire.parametersJson envelope) =
        some envelope.parameters := if_pos rfl
    have htext : (Wire.parametersJson envelope).isEmpty = false := by
      simpa [Wire.parametersJson] using Value.toBytes_object_ne_nil _
    simp [Wire.receivedParameters, hread, htext]
  have hseal : ActionRequest.sealEnvelope reference envelope = .ok (request envelope) :=
    ActionRequest.sealEnvelope_eq_ok_iff.mpr ⟨hvalid, rfl⟩
  have hexpiry : Wire.requiredExpiry (some ⟨1, 0⟩) = .ok envelope.expiresAtUnixMs := by
    rw [hexpires]
    rfl
  simp only [Wire.actionRequestFromProto, message, toFixed_toList, orFail_some, ok_bind, hexpiry,
    hparameters]
  change (Except.mapError WireError.protocol
    (ActionRequest.sealEnvelope reference envelope) >>= _) = _
  simp [hseal, request, pure, Except.pure]

/-- The termination as it arrives. -/
def terminationMessage : V1.ActionRequest := message termination.envelope

theorem termination_issued :
    ApprovalChallenge.issue reference termination
      (terminationPolicy.evaluate surroundings.host termination) 10 1000 surroundings.nonce =
        .ok (challenge termination) :=
  ApprovalChallenge.issue_eq_ok_iff.mpr
    ⟨termination_verify, rfl, rfl, rfl, by decide, by decide, by decide, rfl⟩

/-- A device that prepares the termination. -/
def preparing : World (deviceSystem (libraries ∅)) :=
  dispatched ∅ terminationPolicy (.dispatchProtoAt terminationMessage)

/-- The same device when it has executed the termination as well. -/
def prepared : World (deviceSystem (libraries ∅)) :=
  called (libraries ∅) surroundings preparing 1 (dispatcher terminationPolicy) terminationJob 10

/-- The first call leaves an issued challenge and no consumption. -/
theorem termination_prepared :
    Issues preparing.log 0 (challenge termination) ∧
      preparing.shared.consumptions termination.key = none ∧
      preparing.shared.executions termination.key = none := by
  have hkind : (terminationPolicy.evaluate surroundings.host termination).kind = .approval := rfl
  have hreceived : Wire.actionRequestFromProto (libraries ∅) terminationMessage = .ok termination :=
    message_received termination.envelope (by decide) rfl
  have hexpiry : Dispatch.challengeExpiry
      ⟨termination, terminationPolicy.evaluate surroundings.host termination⟩ 10 = .ok 1000 := rfl
  obtain ⟨db, h, hconsumptions, hexecutions, hissued, ⟨record, hrecorded⟩, hexec⟩ :=
    Dispatch.exec_prepareApprovedAt (libraries ∅) surroundings (dispatcher terminationPolicy) .empty
      rfl rfl termination_verify hkind (by simp [termination, request, envelope]) hexpiry
      termination_issued
  have hrun : (runOf (libraries ∅) surroundings (initial .empty) (dispatcher terminationPolicy)
      (.dispatchProtoAt terminationMessage) 10).2 = (db, h) := by
    rw [runOf, Job.program, Dispatch.exec_dispatchProtoAt hreceived rfl]
    exact congrArg Prod.snd hexec
  have hlog : preparing.log = h.map (0, ·) ++ [] := by
    rw [preparing, dispatched, called_log, hrun]
    rfl
  have hshared : preparing.shared = db := by rw [preparing, dispatched, called_shared, hrun]
  have hlogged {e : Event Device} (he : e ∈ h) : (0, e) ∈ preparing.log := by
    rw [hlog]
    exact List.mem_append_left _ (List.mem_map_of_mem he)
  have hissues : Issues preparing.log 0 (challenge termination) :=
    ⟨termination, terminationPolicy.evaluate surroundings.host termination, 10, 1000,
      terminationPolicy, record, hlogged hissued, hlogged hrecorded⟩
  rw [hshared, hconsumptions, hexecutions]
  exact ⟨hissues, rfl, rfl⟩

theorem prepared_reachable : Reachable freshLedger presentsIssued prepared := by
  have hfirst : Reachable freshLedger presentsIssued preparing :=
    reachable_called surroundings (dispatcher terminationPolicy)
      (.dispatchProtoAt terminationMessage)
      10 (reachable_initial rfl) rfl (by simp [presentsIssued, Start.approval, Job.approval])
  have hfresh : preparing.calls 1 = none :=
    called_calls_ne (libraries ∅) surroundings (initial .empty) 0 (dispatcher terminationPolicy)
      (.dispatchProtoAt terminationMessage) 10 one_ne_zero
  refine reachable_called surroundings (dispatcher terminationPolicy)
    terminationJob 10 hfirst hfresh ?_
  intro approval happroval
  obtain rfl := Option.some.inj happroval
  exact ⟨0, termination_prepared.1⟩

/-- The second call executes. -/
theorem prepared_executed : termination.key ∈ executions prepared.log := by
  have hkind : (terminationPolicy.evaluate surroundings.host termination).kind = .approval := rfl
  obtain ⟨_, hconsumption, hexecution⟩ := termination_prepared
  obtain ⟨execution, reply, hrequest, hmem⟩ :=
    Dispatch.exec_dispatchApprovedAt (libraries ∅) surroundings (dispatcher terminationPolicy) _
      rfl rfl termination_verify hkind termination_accepted hconsumption hexecution (by decide) []
  have hlogged : (1, ⟨.executeApproved (dispatcher terminationPolicy) execution, reply⟩) ∈
      prepared.log := by
    rw [prepared, called_log]
    exact List.mem_append_left _ (List.mem_map_of_mem hmem)
  have hkey := mem_executions hlogged
  rwa [hrequest] at hkey

end Sample

/-- A run in which an approval is prepared and then executed. -/
theorem preparedFirst_prepared :
    Sample.termination.key ∈ executions Sample.prepared.log ∧ PreparedFirst Sample.prepared ∧
      RefusesUnprepared Sample.prepared :=
  ⟨Sample.prepared_executed, preparedFirst_of_presentsIssued Sample.prepared_reachable⟩

end VorCommander
