import VorCommander.Device.Prepared
import VorCommander.Steps.Returns
import VorCommander.Text.Length

/-!
The limit on the output of a device.

The output of a read and of an approved action is compared with the limit before it is
returned. The answer of a preparation is not, neither a challenge nor what a worker has
done under policy. `AnswersWithin` says of the calls of a dispatcher when these answers
are within the limit all the same; it is the exact condition.
-/

namespace VorCommander

open Crypto Steps Steps.Program Steps.World Text DeviceEvent

/-! ### The length of a challenge -/

namespace Dispatch

/-- The bytes of an answer with a challenge. -/
def challengeLength (request : ActionRequest) (decision : PolicyDecision) (expiresAtUnixMs : ℕ) :
    ℕ :=
  216 + quotedLength request.envelope.requestId + quotedLength decision.policyId +
    decision.requiredCapability.elim 4 quotedLength + (encodeNat expiresAtUnixMs).length

/-- The bytes of a request as a message. -/
def messageLength (L : Libraries) (request : ActionRequest) : ℕ :=
  (Wire.actionRequestToProto L request).toOption.elim 0 fun proto =>
    (L.encodeActionRequest proto).length

/-- The bytes that an edit adds to an answer. -/
def editLength (L : Libraries) (request : ActionRequest) (prepared : PreparedEdit) : ℕ :=
  138 + 4 * ((messageLength L request + 2) / 3) + quotedLength prepared.diffSummary +
    if prepared.diffTruncated then 4 else 5

variable {L : Libraries} {authorization : Authorization} {challenge : ApprovalChallenge} {now : ℕ}
  {result : V1.ActionResult}

/-- What the approver is shown of an edit. -/
def metadataOf (prepared : PreparedEdit) : EditMetadata :=
  (prepared.diffSummary, prepared.diffTruncated)

/-- The digest of the content of an edit is among the parameters. -/
def CarriesDigest (authorization : Authorization) : Prop :=
  ∃ digest : Digest32, authorization.request.envelope.parameters["content_sha256"]? =
    some (.string (hexEncode digest.toList))

theorem challengeResult_eq_ok {metadata : Option EditMetadata}
    (h : challengeResult L authorization challenge metadata now = .ok result) :
    ∃ members, metadataJson L authorization metadata = .ok members ∧
      result.output = (jsonObject (challengeJson challenge ++ members)).toBytes := by
  simp only [challengeResult, bind_eq_ok, pure_eq_ok] at h
  obtain ⟨members, hmembers, _, _, hresult⟩ := h
  exact ⟨members, hmembers, by rw [← hresult]⟩

theorem exists_challengeResult (L : Libraries) (authorization : Authorization)
    (challenge : ApprovalChallenge) {completed : V1.Timestamp}
    (hcompleted : completedAt now = .ok completed) :
    ∃ result, challengeResult L authorization challenge none now = .ok result := by
  rw [challengeResult, metadataJson, ok_bind, hcompleted, ok_bind]
  exact ⟨_, rfl⟩

theorem length_names : quotedLength "approval_nonce_base64" = 23 ∧
    quotedLength "content_sha256" = 16 ∧ quotedLength "diff_summary" = 14 ∧
    quotedLength "diff_truncated" = 16 ∧ quotedLength "envelope_digest_base64" = 24 ∧
    quotedLength "expires_at_unix_ms" = 20 ∧ quotedLength "policy_id" = 11 ∧
    quotedLength "request_base64" = 16 ∧ quotedLength "request_id" = 12 ∧
    quotedLength "required_capability" = 21 := by decide

theorem length_capability (capability : Option String) :
    (capability.elim .null Value.string).length = capability.elim 4 quotedLength := by
  cases capability with
  | none => rfl
  | some capability => exact Value.length_string capability

theorem length_challengeJson (challenge : ApprovalChallenge) :
    (jsonObject (challengeJson challenge)).length =
      216 + quotedLength challenge.requestId + quotedLength challenge.policyId +
        challenge.requiredCapability.elim 4 quotedLength +
        (encodeNat challenge.expiresAtUnixMs).length := by
  have hsorted : jsonObject (challengeJson challenge) = .object
      [("approval_nonce_base64", .string (Base64.encode challenge.approvalNonce.toList)),
       ("envelope_digest_base64", .string (Base64.encode challenge.envelopeDigest.toList)),
       ("expires_at_unix_ms", .posInt challenge.expiresAtUnixMs),
       ("policy_id", .string challenge.policyId),
       ("request_id", .string challenge.requestId),
       ("required_capability", challenge.requiredCapability.elim .null .string)] := rfl
  rw [hsorted, Value.length_object (List.cons_ne_nil _ _)]
  simp only [List.map_cons, List.map_nil, List.sum_cons, List.sum_nil, Value.length_string,
    Value.length_posInt, quotedLength_encode, Vector.length_toList, length_names,
    length_capability]
  omega

theorem length_editJson (challenge : ApprovalChallenge) (message : List UInt8)
    (digest : Digest32) (prepared : PreparedEdit) :
    (jsonObject (challengeJson challenge ++
        [("request_base64", .string (Base64.encode message)),
         ("content_sha256", .string (hexEncode digest.toList)),
         ("diff_summary", .string prepared.diffSummary),
         ("diff_truncated", .bool prepared.diffTruncated)])).length =
      (jsonObject (challengeJson challenge)).length +
        (138 + 4 * ((message.length + 2) / 3) + quotedLength prepared.diffSummary +
          if prepared.diffTruncated then 4 else 5) := by
  have hsorted : jsonObject (challengeJson challenge ++
        [("request_base64", .string (Base64.encode message)),
         ("content_sha256", .string (hexEncode digest.toList)),
         ("diff_summary", .string prepared.diffSummary),
         ("diff_truncated", .bool prepared.diffTruncated)]) = .object
      [("approval_nonce_base64", .string (Base64.encode challenge.approvalNonce.toList)),
       ("content_sha256", .string (hexEncode digest.toList)),
       ("diff_summary", .string prepared.diffSummary),
       ("diff_truncated", .bool prepared.diffTruncated),
       ("envelope_digest_base64", .string (Base64.encode challenge.envelopeDigest.toList)),
       ("expires_at_unix_ms", .posInt challenge.expiresAtUnixMs),
       ("policy_id", .string challenge.policyId),
       ("request_base64", .string (Base64.encode message)),
       ("request_id", .string challenge.requestId),
       ("required_capability", challenge.requiredCapability.elim .null .string)] := rfl
  have hflag : (Value.bool prepared.diffTruncated).length =
      if prepared.diffTruncated then 4 else 5 := by
    cases prepared.diffTruncated <;> rfl
  rw [hsorted, length_challengeJson, Value.length_object (List.cons_ne_nil _ _)]
  simp only [List.map_cons, List.map_nil, List.sum_cons, List.sum_nil, Value.length_string,
    Value.length_posInt, quotedLength_encode, quotedLength_hexEncode, Vector.length_toList,
    length_names, length_capability, hflag]
  omega

/-- The length of an answer with a challenge, and of what an edit has added to it. -/
theorem length_challengeResult {edit : Option PreparedEdit} {decision : PolicyDecision}
    {expiresAt : ℕ} {nonce : Vector UInt8 32}
    (hdigest : edit.isSome → CarriesDigest authorization)
    (hissue : ApprovalChallenge.issue L.toPrimitives authorization.request decision now expiresAt
      nonce = .ok challenge)
    (h : challengeResult L authorization challenge (edit.map metadataOf) now = .ok result) :
    result.output.length = challengeLength authorization.request decision expiresAt +
      edit.elim 0 (editLength L authorization.request) := by
  obtain ⟨_, _, _, _, _, _, _, hchallenge⟩ := ApprovalChallenge.issue_eq_ok_iff.mp hissue
  have hlength : (jsonObject (challengeJson challenge)).length =
      challengeLength authorization.request decision expiresAt := by
    rw [length_challengeJson, hchallenge, challengeLength]
  obtain ⟨members, hmembers, houtput⟩ := challengeResult_eq_ok h
  rw [houtput, Value.length_toBytes]
  cases edit with
  | none =>
      obtain rfl := Except.ok.inj hmembers
      rw [List.append_nil, hlength, Option.elim_none, Nat.add_zero]
  | some prepared =>
      obtain ⟨digest, hcontent⟩ := hdigest rfl
      simp only [Option.map_some, metadataJson, editJson, bind_eq_ok, mapError_eq_ok, pure_eq_ok,
        hcontent, Option.getD_some] at hmembers
      obtain ⟨proto, hproto, rfl⟩ := hmembers
      have hmessage : messageLength L authorization.request =
          (L.encodeActionRequest proto).length := by
        rw [messageLength, hproto]
        rfl
      rw [Option.elim_some, editLength, hmessage, ← hlength]
      exact length_editJson challenge _ digest prepared

end Dispatch

/-! ### What a call has done -/

/-- The events of a history beside the books. -/
def deeds (h : History Device) : History Device := h.filter fun e => !e.op.isBookkeeping

theorem Extends.deeds {h h' : History Device} (hh : Extends h h') :
    VorCommander.deeds h' = VorCommander.deeds h := by
  obtain ⟨added, rfl, hadded⟩ := hh
  have hnone : added.filter (fun e => !e.op.isBookkeeping) = [] := by
    rw [List.filter_eq_nil_iff]
    intro e he
    simp [hadded e he]
  rw [VorCommander.deeds, List.filter_append, hnone, List.nil_append, VorCommander.deeds]

theorem deeds_cons {h : History Device} {e : Event Device} (he : e.op.isBookkeeping = false) :
    deeds (e :: h) = e :: deeds h := by
  rw [deeds, List.filter_cons_of_pos (by rw [he]; rfl), deeds]

/-- The answers of a call are within a limit: what a worker has done under policy, and a
challenge with the edit that has been prepared for it. -/
structure AnswersWithin (L : Libraries) (limit : ℕ) (h : History Device) : Prop where
  unsigned : ∀ d authorization (output : WorkerOutput),
    (⟨.executeAuthorized d authorization, Except.ok output⟩ : Event Device) ∈ h →
    remoteApprovedActionAllowed authorization.request.envelope.action = true →
    output.1.length ≤ limit
  challenge : ∀ request decision now expiresAt challenge,
    issued request decision now expiresAt challenge ∈ h →
    Dispatch.challengeLength request decision expiresAt ≤ limit
  edit : ∀ request decision now expiresAt challenge d authorization edits prepared,
    issued request decision now expiresAt challenge ∈ h →
    (⟨.prepareEdit d authorization edits, Except.ok prepared⟩ : Event Device) ∈ h →
    Dispatch.challengeLength request decision expiresAt + Dispatch.editLength L request prepared ≤
      limit

section AnswersWithin

variable {L : Libraries} {limit : ℕ} {h : History Device}

theorem mem_deeds {e : Event Device} (he : e.op.isBookkeeping = false) : e ∈ deeds h ↔ e ∈ h := by
  simp [deeds, he]

/-- What is checked, or needs no check. -/
def DeviceOp.Checked : DeviceOp → Prop
  | .issueChallenge _ _ _ _ => False
  | .executeAuthorized _ authorization =>
      remoteApprovedActionAllowed authorization.request.envelope.action = false
  | _ => True

theorem answersWithin_of_checked (hchecked : ∀ e ∈ deeds h, e.op.Checked) :
    AnswersWithin L limit h where
  unsigned d authorization output hmem haction := by
    have hread : remoteApprovedActionAllowed authorization.request.envelope.action = false :=
      hchecked _ ((mem_deeds rfl).mpr hmem)
    simp [haction] at hread
  challenge _ _ _ _ _ hmem := (hchecked _ ((mem_deeds rfl).mpr hmem)).elim
  edit _ _ _ _ _ _ _ _ _ hmem _ := (hchecked _ ((mem_deeds rfl).mpr hmem)).elim

/-- The edit that has been prepared, and nothing else. -/
def OnlyPrepared (edit : Option PreparedEdit) (h : History Device) : Prop :=
  match edit with
  | none => deeds h = []
  | some prepared => ∃ d authorization edits,
      deeds h = [⟨.prepareEdit d authorization edits, Except.ok prepared⟩]

theorem OnlyPrepared.mem {edit : Option PreparedEdit} (hedited : OnlyPrepared edit h)
    {e : Event Device} (he : e ∈ deeds h) : ∃ d authorization edits prepared, edit = some prepared ∧
      e = ⟨.prepareEdit d authorization edits, Except.ok prepared⟩ := by
  cases edit with
  | none =>
      have hnone : deeds h = [] := hedited
      simp [hnone] at he
  | some prepared =>
      obtain ⟨d, authorization, edits, hone⟩ := hedited
      rw [hone, List.mem_singleton] at he
      exact ⟨d, authorization, edits, prepared, rfl, he⟩

variable {edit : Option PreparedEdit} {h' : History Device}

theorem answersWithin_unsigned (hedited : OnlyPrepared edit h) {d : Dispatcher}
    {authorization : Authorization} {output : WorkerOutput}
    (haction : remoteApprovedActionAllowed authorization.request.envelope.action = true)
    (hh : Extends (⟨.executeAuthorized d authorization, Except.ok output⟩ :: h) h') :
    AnswersWithin L limit h' ↔ output.1.length ≤ limit := by
  have hmem : ∀ e : Event Device, e.op.isBookkeeping = false → (e ∈ h' ↔
      e = ⟨.executeAuthorized d authorization, Except.ok output⟩ ∨ e ∈ deeds h) := by
    intro e he
    rw [hh.mem_iff he, List.mem_cons, mem_deeds he]
  constructor
  · intro hwithin
    exact hwithin.unsigned d authorization output ((hmem _ rfl).mpr (.inl rfl)) haction
  · intro hlength
    have hissued : ∀ request decision now expiresAt challenge,
        issued request decision now expiresAt challenge ∉ h' := by
      intro request decision now expiresAt challenge hissued
      rcases (hmem _ rfl).mp hissued with heq | hold
      · cases heq
      · obtain ⟨_, _, _, _, _, heq⟩ := hedited.mem hold
        cases heq
    refine ⟨?_, ?_, ?_⟩
    · intro d' authorization' output' hevent _
      rcases (hmem _ rfl).mp hevent with heq | hold
      · cases heq
        exact hlength
      · obtain ⟨_, _, _, _, _, heq⟩ := hedited.mem hold
        cases heq
    · intro request decision now expiresAt challenge hevent
      exact (hissued _ _ _ _ _ hevent).elim
    · intro request decision now expiresAt challenge _ _ _ _ hevent _
      exact (hissued _ _ _ _ _ hevent).elim

theorem answersWithin_challenge (hedited : OnlyPrepared edit h) {request : ActionRequest}
    {decision : PolicyDecision} {now expiresAt : ℕ} {challenge : ApprovalChallenge}
    (hh : Extends (issued request decision now expiresAt challenge :: h) h') :
    AnswersWithin L limit h' ↔ Dispatch.challengeLength request decision expiresAt +
      edit.elim 0 (Dispatch.editLength L request) ≤ limit := by
  have hmem : ∀ e : Event Device, e.op.isBookkeeping = false → (e ∈ h' ↔
      e = issued request decision now expiresAt challenge ∨ e ∈ deeds h) := by
    intro e he
    rw [hh.mem_iff he, List.mem_cons, mem_deeds he]
  constructor
  · intro hwithin
    have hissued := (hmem _ rfl).mpr (.inl rfl)
    cases edit with
    | none =>
        rw [Option.elim_none, Nat.add_zero]
        exact hwithin.challenge _ _ _ _ _ hissued
    | some prepared =>
        obtain ⟨d, authorization, edits, hone⟩ := hedited
        rw [Option.elim_some]
        refine hwithin.edit _ _ _ _ _ d authorization edits prepared hissued ?_
        exact (hmem _ rfl).mpr (.inr (by rw [hone]; exact List.mem_cons_self))
  · intro hlength
    refine ⟨?_, ?_, ?_⟩
    · intro d authorization output hevent _
      rcases (hmem _ rfl).mp hevent with heq | hold
      · cases heq
      · obtain ⟨_, _, _, _, _, heq⟩ := hedited.mem hold
        cases heq
    · intro request' decision' now' expiresAt' challenge' hevent
      rcases (hmem _ rfl).mp hevent with heq | hold
      · cases heq
        exact le_trans (Nat.le_add_right _ _) hlength
      · obtain ⟨_, _, _, _, _, heq⟩ := hedited.mem hold
        cases heq
    · intro request' decision' now' expiresAt' challenge' _ _ _ prepared hevent hedit
      rcases (hmem _ rfl).mp hedit with heq | hold
      · cases heq
      obtain ⟨_, _, _, _, rfl, heq⟩ := hedited.mem hold
      cases heq
      rcases (hmem _ rfl).mp hevent with heq | hold
      · cases heq
        exact hlength
      · obtain ⟨_, _, _, _, _, heq⟩ := hedited.mem hold
        cases heq

end AnswersWithin

/-! ### What the steps of the broker return -/

namespace Broker

variable {P : Primitives} {policy : PolicyEngine} {h : History Device} {now : ℕ}

theorem returns_authorizeAt (request : ActionRequest) :
    Returns (Honest P) (fun h' authorization => Extends h h' ∧ authorization.request = request)
      (authorizeAt P policy request now) h := by
  refine .of_safe (authorizeAt_safe P (G := fun _ _ => True) (fun _ _ _ => trivial) request now) ?_
  rintro h' authorization ⟨hext, _, hauth⟩
  exact ⟨hext, (hauth authorization rfl).1⟩

theorem returns_auditOutcomeAt (authorization : Authorization) (outcome : String) :
    Returns (Honest P) (fun h' _ => Extends h h')
      (auditOutcomeAt policy authorization outcome now) h := by
  refine .of_safe (auditOutcomeAt_safe P (G := fun _ _ => True) (fun _ _ _ => trivial)
    authorization outcome now) ?_
  rintro h' _ ⟨hext, _⟩
  exact hext

theorem returns_setExecutionRecoveryState (authorization : Authorization)
    (state : ExecutionRecoveryState) :
    Returns (Honest P) (fun h' _ => Extends h h')
      (setExecutionRecoveryState authorization state now) h := by
  refine .of_safe (setExecutionRecoveryState_safe P (G := fun _ _ => True) (fun _ _ _ => trivial)
    authorization state now) ?_
  rintro h' _ ⟨hext, _⟩
  exact hext

theorem returns_consumeApprovalAt (request : ActionRequest) (approval : SignedApproval)
    (verifier : ApprovalVerifier) :
    Returns (Honest P) (fun h' _ => Extends h h')
      (consumeApprovalAt P policy request approval verifier now) h := by
  refine .of_safe (consumeApprovalAt_safe P (G := fun _ _ => True) (fun _ _ _ => trivial)
    request approval verifier now) ?_
  rintro h' _ ⟨hext, _⟩
  exact hext

end Broker

/-! ### What a dispatcher returns -/

namespace Dispatch

/-- A result that has been compared with the limit. -/
def Limited (L : Libraries) (d : Dispatcher) (h : History Device) (result : V1.ActionResult) :
    Prop :=
  result.output.length ≤ d.maxOutputBytes ∧ AnswersWithin L d.maxOutputBytes h

/-- A result that is within the limit if and only if the answers of the call are. -/
def Answered (L : Libraries) (d : Dispatcher) (h : History Device) (result : V1.ActionResult) :
    Prop :=
  result.output.length ≤ d.maxOutputBytes ↔ AnswersWithin L d.maxOutputBytes h

variable {L : Libraries} {d : Dispatcher} {h : History Device} {now : ℕ}
  {authorization : Authorization} {output : WorkerOutput}

theorem Limited.answered {result : V1.ActionResult} (hlimited : Limited L d h result) :
    Answered L d h result :=
  iff_of_true hlimited.1 hlimited.2

theorem output_successResult {result : V1.ActionResult}
    (h : successResult L authorization output now = .ok result) : result.output = output.1 := by
  simp only [successResult, bind_eq_ok, pure_eq_ok] at h
  obtain ⟨_, _, rfl⟩ := h
  rfl

theorem returns_recordEffect {execution : ExecutionAuthorization}
    (hchecked : ∀ e ∈ deeds h, e.op.Checked) :
    Returns (Honest L.toPrimitives) (Limited L d) (recordEffect L d execution output now) h := by
  unfold recordEffect
  rw [returns_bind, returns_adapt]
  refine (Broker.returns_setExecutionRecoveryState _ _).mono ?_
  intro h₁ _ hext₁
  split
  case isTrue => exact returns_bind_throw _ _
  case isFalse hfits =>
      rw [returns_lift_bind]
      refine (Broker.auditOutcomeAt_safe L.toPrimitives (fun _ _ _ => trivial) _ _ now).mono ?_
      rintro h₂ (e | _) ⟨hext₂, _⟩
      · exact returns_bind_throw _ _
      · rw [returns_bind, returns_adapt]
        refine (Broker.returns_setExecutionRecoveryState _ _).mono ?_
        intro h₃ _ hext₃
        rw [returns_check]
        intro result hresult
        refine ⟨?_, answersWithin_of_checked ?_⟩
        · rw [output_successResult hresult]
          exact not_lt.mp hfits
        · rwa [hext₃.deeds, hext₂.deeds, hext₁.deeds]

theorem returns_executeConsumed {execution : ExecutionAuthorization}
    (hchecked : ∀ e ∈ deeds h, e.op.Checked) :
    Returns (Honest L.toPrimitives) (Limited L d) (executeConsumed L d execution now) h := by
  unfold executeConsumed
  rw [returns_bind, returns_adapt]
  refine (Broker.returns_setExecutionRecoveryState _ _).mono ?_
  intro h₁ _ hext₁
  rw [returns_lift_bind, safe_executeApproved]
  refine ⟨trivial, ?_⟩
  rintro (e | output) _
  · exact returns_bind_throw _ _
  · apply returns_recordEffect
    rw [deeds_cons rfl, List.forall_mem_cons, hext₁.deeds]
    exact ⟨trivial, hchecked⟩

theorem returns_dispatchApprovedAt {request : ActionRequest} {approval : SignedApproval} :
    Returns (Honest L.toPrimitives) (Limited L d) (dispatchApprovedAt L d request approval now)
      [] := by
  unfold dispatchApprovedAt
  simp only [returns_check_bind]
  intro _ _ _ _
  rw [returns_bind, returns_adapt]
  refine (Broker.returns_authorizeAt request).mono ?_
  rintro h₁ authorization ⟨hext₁, _⟩
  rw [returns_check_bind]
  intro _ _
  split
  case isFalse => exact returns_bind_throw _ _
  case isTrue =>
      rw [returns_bind, returns_adapt]
      refine (Broker.returns_consumeApprovalAt _ _ _).mono ?_
      intro h₂ execution hext₂
      apply returns_executeConsumed
      rw [hext₂.deeds, hext₁.deeds]
      exact List.forall_mem_nil _

theorem returns_dispatchApprovedProtoAt {approved : V1.ApprovedActionRequest} :
    Returns (Honest L.toPrimitives) (Limited L d) (dispatchApprovedProtoAt L d approved now)
      [] := by
  unfold dispatchApprovedProtoAt
  simp only [returns_check_bind]
  intro _ _ _ _ _ _ _ _
  exact returns_dispatchApprovedAt

/-! ### Reads -/

theorem not_approvedAction_of_read {action : String} (h : remoteActionAllowed action = true) :
    remoteApprovedActionAllowed action = false := by
  have hread : ∀ action ∈ ["filesystem.read", "filesystem.list", "filesystem.search_files",
      "filesystem.search_content", "filesystem.info", "git.status", "git.diff", "process.list",
      "process.inspect", "terminal.poll", "terminal.cancel"],
      remoteApprovedActionAllowed action = false := by decide
  exact hread action (List.contains_iff_mem.mp h)

theorem returns_executeRead (hnone : deeds h = [])
    (hread : remoteActionAllowed authorization.request.envelope.action = true) :
    Returns (Honest L.toPrimitives) (Limited L d) (executeRead L d authorization now) h := by
  unfold executeRead
  rw [returns_lift_bind, safe_executeAuthorized]
  refine ⟨trivial, ?_⟩
  rintro (e | output) _
  · exact returns_bind_throw _ _
  · simp only []
    split
    case isTrue => exact returns_bind_throw _ _
    case isFalse hfits =>
        rw [returns_bind, returns_adapt]
        refine (Broker.returns_auditOutcomeAt _ _).mono ?_
        intro h₁ _ hext₁
        rw [returns_check]
        intro result hresult
        refine ⟨?_, answersWithin_of_checked ?_⟩
        · rw [output_successResult hresult]
          exact not_lt.mp hfits
        · rw [hext₁.deeds, deeds_cons rfl, hnone, List.forall_mem_singleton]
          exact not_approvedAction_of_read hread

theorem returns_dispatchAt {request : ActionRequest} :
    Returns (Honest L.toPrimitives) (Limited L d) (dispatchAt L d request now) [] := by
  unfold dispatchAt
  rw [returns_check_bind]
  intro _ _
  rw [returns_bind, returns_adapt]
  refine (Broker.returns_authorizeAt request).mono ?_
  rintro h₁ authorization ⟨hext₁, _⟩
  split
  case isTrue => exact returns_bind_throw _ _
  case isFalse hread =>
  split
  case isTrue => exact returns_throw _
  case isFalse =>
  split
  case isTrue => exact returns_bind_throw _ _
  case isFalse => exact returns_executeRead hext₁.deeds (not_not.mp hread)

/-! ### Preparations -/

variable {edit : Option PreparedEdit}

theorem returns_executeUnderPolicy (hedited : OnlyPrepared edit h)
    (haction : remoteApprovedActionAllowed authorization.request.envelope.action = true) :
    Returns (Honest L.toPrimitives) (Answered L d)
      (executeUnderPolicy L d authorization now) h := by
  unfold executeUnderPolicy
  rw [returns_bind, Returns, safe_executeAuthorized]
  refine ⟨trivial, ?_⟩
  rintro _ _ output rfl
  rw [returns_bind, returns_adapt]
  refine (Broker.returns_auditOutcomeAt _ _).mono ?_
  intro h₁ _ hext₁
  rw [returns_check]
  intro result hresult
  rw [Answered, output_successResult hresult, answersWithin_unsigned hedited haction hext₁]

theorem returns_issueApprovalChallenge (hedited : OnlyPrepared edit h)
    (hdigest : edit.isSome → CarriesDigest authorization) :
    Returns (Honest L.toPrimitives) (Answered L d)
      (issueApprovalChallenge L d authorization (edit.map metadataOf) now) h := by
  unfold issueApprovalChallenge
  rw [returns_check_bind]
  intro expiresAt _
  rw [returns_bind, returns_adapt, Returns, safe_issueChallenge]
  refine ⟨trivial, ?_⟩
  rintro _ ⟨nonce, hissue⟩ challenge rfl
  rw [returns_bind, returns_adapt]
  refine (Broker.returns_auditOutcomeAt _ _).mono ?_
  intro h₁ _ hext₁
  rw [returns_check]
  intro result hresult
  rw [Answered, length_challengeResult hdigest hissue.symm hresult,
    answersWithin_challenge hedited hext₁]

/-- Only writes and commands run under policy. -/
theorem approvedAction_of_unsigned
    (h : policyWriteAttempt authorization ∨ safeTerminal authorization) :
    remoteApprovedActionAllowed authorization.request.envelope.action = true := by
  rcases h with hwrite | hterminal
  · rw [hwrite.1]
    rfl
  · rw [hterminal.1]
    rfl

theorem returns_concludePreparation (hedited : OnlyPrepared edit h)
    (hdigest : edit.isSome → CarriesDigest authorization) :
    Returns (Honest L.toPrimitives) (Answered L d)
      (concludePreparation L d authorization (edit.map metadataOf) now) h := by
  unfold concludePreparation
  split
  case isTrue hruns => exact returns_executeUnderPolicy hedited (approvedAction_of_unsigned hruns.2)
  case isFalse =>
      split
      case isTrue => exact returns_issueApprovalChallenge hedited hdigest
      case isFalse => exact returns_bind_throw _ _

theorem carriesDigest_of_resealEdit {original : ActionEnvelope} {prepared : PreparedEdit}
    (h : resealEdit L original prepared = .ok authorization.request) :
    CarriesDigest authorization := by
  rw [resealEdit, mapError_eq_ok, ActionRequest.sealEnvelope_eq_ok_iff] at h
  refine ⟨L.sha256 prepared.content, ?_⟩
  have hsame : compare "content_sha256" "content_sha256" = .eq := by decide
  rw [h.2]
  refine Std.ExtTreeMap.getElem?_ofList_of_mem hsame ?_ (by simp)
  unfold carriedFlag
  cases original.parameters["workspace_id"]? <;> split_ifs <;>
    simp [Std.LawfulEqCmp.compare_eq_iff_eq]

/-- A preparation has prepared an edit at most, whose content is in the request then. -/
theorem returns_prepareEditRequest (hnone : deeds h = []) :
    Returns (Honest L.toPrimitives)
      (fun h' prepared => ∃ edit, prepared.2 = edit.map metadataOf ∧ OnlyPrepared edit h' ∧
        (edit.isSome → CarriesDigest prepared.1))
      (prepareEditRequest L d authorization now) h := by
  unfold prepareEditRequest
  split
  case h_1 =>
      rw [returns_pure]
      exact ⟨none, rfl, hnone, by simp⟩
  case h_2 =>
      rw [returns_check_bind]
      intro edits _
      rw [returns_bind, returns_adapt, Returns, safe_prepareEdit]
      refine ⟨trivial, ?_⟩
      rintro _ _ prepared rfl
      rw [returns_check_bind]
      intro transformed hseal
      rw [returns_bind, returns_adapt]
      refine (Broker.returns_authorizeAt transformed).mono ?_
      rintro h₁ authorization' ⟨hext₁, rfl⟩
      rw [returns_pure]
      refine ⟨some prepared, rfl, ⟨d, authorization, edits, ?_⟩, fun _ => ?_⟩
      · rw [hext₁.deeds, deeds_cons rfl, hnone]
      · exact carriesDigest_of_resealEdit hseal

theorem returns_prepareApprovedAt {request : ActionRequest} :
    Returns (Honest L.toPrimitives) (Answered L d) (prepareApprovedAt L d request now) [] := by
  unfold prepareApprovedAt
  simp only [returns_check_bind]
  intro _ _ _ _
  rw [returns_bind, returns_adapt]
  refine (Broker.returns_authorizeAt request).mono ?_
  rintro h₁ authorization ⟨hext₁, _⟩
  rw [returns_check_bind]
  intro _ _
  rw [returns_bind]
  refine (returns_prepareEditRequest hext₁.deeds).mono ?_
  rintro h₂ ⟨authorization', _⟩ ⟨edit, rfl, hedited, hdigest⟩
  exact returns_concludePreparation hedited hdigest

theorem action_of_received {value : V1.ActionRequest} {request : ActionRequest}
    (h : Wire.actionRequestFromProto L value = .ok request) :
    request.envelope.action = value.action := by
  simp only [Wire.actionRequestFromProto, bind_eq_ok, mapError_eq_ok, failIf_eq_ok, exists_unit,
    pure_eq_ok] at h
  obtain ⟨_, _, _, _, _, _, sealedRequest, hseal, _, rfl⟩ := h
  rw [(ActionRequest.sealEnvelope_eq_ok_iff.mp hseal).2]

end Dispatch

/-! ### Runs -/

namespace Job

/-- The entry points whose results are those of a dispatch. -/
def reports : Job → Prop
  | .dispatchProtoReportAt _ | .dispatchApprovedProtoReportAt _ => True
  | _ => False

/-- The calls that prepare an action. -/
def preparesAction : Job → Prop
  | .dispatchProtoAt request => remoteApprovedActionAllowed request.action = true
  | _ => False

variable {L : Libraries} {d : Dispatcher} {now : ℕ}

/-- A call that returns a result has compared it with the limit, or prepared an action. -/
theorem returns_program (job : Job) (hjob : ¬ job.reports) :
    Returns (Honest L.toPrimitives) (fun h result => Dispatch.Limited L d h result ∨
        job.preparesAction ∧ Dispatch.Answered L d h result) (job.program L d now) [] := by
  cases job with
  | dispatchProtoReportAt request => exact absurd trivial hjob
  | dispatchApprovedProtoReportAt approved => exact absurd trivial hjob
  | dispatchAt request => exact Dispatch.returns_dispatchAt.mono fun _ _ => Or.inl
  | dispatchApprovedProtoAt approved =>
      exact Dispatch.returns_dispatchApprovedProtoAt.mono fun _ _ => Or.inl
  | dispatchApprovedAt request approval =>
      exact Dispatch.returns_dispatchApprovedAt.mono fun _ _ => Or.inl
  | dispatchProtoAt value =>
      rw [program, Dispatch.dispatchProtoAt, returns_check_bind]
      intro request hreceived
      have haction := Dispatch.action_of_received (mapError_eq_ok.mp hreceived)
      split
      case isTrue hprepares =>
          rw [haction] at hprepares
          exact Dispatch.returns_prepareApprovedAt.mono fun _ _ hanswered =>
            Or.inr ⟨hprepares, hanswered⟩
      case isFalse => exact Dispatch.returns_dispatchAt.mono fun _ _ => Or.inl

end Job

section Reachable

variable {L : Libraries} {init : Database → Prop}
  {mayStart : World (deviceSystem L) → Start → Prop} {w : World (deviceSystem L)} {i : ℕ}
  {d : Dispatcher} {job : Job} {result : V1.ActionResult}

/-- A call of a dispatcher that has returned a result. -/
def Returned (w : World (deviceSystem L)) (i : ℕ) (d : Dispatcher) (job : Job)
    (result : V1.ActionResult) : Prop :=
  ∃ c now, w.calls i = some c ∧ c.entry = .dispatch d job now ∧
    c.rest = some (.done (.dispatched (.ok result)))

/-- What a dispatch that returns a result has found. -/
def Start.Answers (L : Libraries) : Start → History Device → Finish → Prop
  | .dispatch d job _, h, .dispatched (.ok result) => ¬ job.reports →
      Dispatch.Limited L d h result ∨ job.preparesAction ∧ Dispatch.Answered L d h result
  | _, _, _ => True

theorem Start.answers_safe (L : Libraries) (entry : Start) :
    Safe (I := Device) (Honest L.toPrimitives) (fun _ _ => True) (entry.Answers L)
      ((deviceSystem L).body entry) [] := by
  cases entry with
  | openLedger => exact (safe_true _).mono fun _ _ _ => trivial
  | dispatch d job now =>
      simp only [deviceSystem, safe_map]
      by_cases hjob : job.reports
      · refine (safe_true _).mono ?_
        rintro h' (e | result) _
        · trivial
        · exact fun hnot => absurd hjob hnot
      · refine Safe.mono (job.returns_program hjob) ?_
        rintro h' (e | result) hr
        · trivial
        · exact fun _ => hr result rfl

/-- The output of a result is within the limit if and only if the call has prepared no
action, or the answers it was given are within the limit. -/
theorem output_le_iff (hw : Reachable init mayStart w) (hjob : ¬ job.reports)
    (h : Returned w i d job result) :
    result.output.length ≤ d.maxOutputBytes ↔
      (job.preparesAction → AnswersWithin L d.maxOutputBytes (w.log.of i)) := by
  obtain ⟨c, now, hc, hentry, hrest⟩ := h
  have hanswers := hw.result (Start.answers_safe L) (ledgerInvariant_reachable hw).honest hc hrest
  rw [hentry] at hanswers
  rcases hanswers hjob with hlimited | ⟨hprepares, hanswered⟩
  · exact iff_of_true hlimited.1 fun _ => hlimited.2
  · constructor
    · intro hlength _
      exact hanswered.mp hlength
    · intro hwithin
      exact hanswered.mpr (hwithin hprepares)

end Reachable

/-! ### A challenge -/

namespace Sample

/-- A device with a limit. -/
def limitedDispatcher (limit : ℕ) (h : 0 < limit) : Dispatcher :=
  { dispatcher terminationPolicy with maxOutputBytes := limit, bounded := h }

/-- The world in which that device has prepared the termination. -/
def challenged (limit : ℕ) (h : 0 < limit) : World (deviceSystem (libraries ∅)) :=
  called (libraries ∅) surroundings (initial .empty) 0 (limitedDispatcher limit h)
    (.dispatchProtoAt terminationMessage) 10

theorem challenged_reachable (limit : ℕ) (h : 0 < limit) :
    Reachable freshLedger anyEntry (challenged limit h) :=
  reachable_called surroundings _ _ 10 (reachable_initial rfl) rfl trivial

theorem challenged_run (limit : ℕ) (h : 0 < limit) :
    (runOf (libraries ∅) surroundings (initial .empty) (limitedDispatcher limit h)
      (.dispatchProtoAt terminationMessage) 10).1 = Dispatch.challengeResult (libraries ∅)
        ⟨termination, terminationPolicy.evaluate surroundings.host termination⟩
        (challenge termination) none 10 := by
  have hkind : (terminationPolicy.evaluate surroundings.host termination).kind = .approval := rfl
  have hreceived : Wire.actionRequestFromProto (libraries ∅) terminationMessage = .ok termination :=
    message_received termination.envelope (by decide) rfl
  have hexpiry : Dispatch.challengeExpiry
      ⟨termination, terminationPolicy.evaluate surroundings.host termination⟩ 10 = .ok 1000 := rfl
  obtain ⟨db, history, _, _, _, _, hexec⟩ :=
    Dispatch.exec_prepareApprovedAt (libraries ∅) surroundings (limitedDispatcher limit h) .empty
      rfl rfl termination_verify hkind (by simp [termination, request, envelope]) hexpiry
      termination_issued
  rw [runOf, Job.program, Dispatch.exec_dispatchProtoAt hreceived rfl]
  exact congrArg Prod.fst hexec

theorem challengeLength_termination : Dispatch.challengeLength termination
    (terminationPolicy.evaluate surroundings.host termination) 1000 = 241 := by
  have hpolicy :
      (terminationPolicy.evaluate surroundings.host termination).policyId = "sample" := rfl
  have hcapability :
      (terminationPolicy.evaluate surroundings.host termination).requiredCapability = none := rfl
  have hrequest : termination.envelope.requestId = "request" := rfl
  rw [Dispatch.challengeLength, hpolicy, hcapability, hrequest]
  decide

/-- The answer is a challenge of 241 bytes, whatever the limit. -/
theorem challenged_returned (limit : ℕ) (h : 0 < limit) :
    ∃ result, Returned (challenged limit h) 0 (limitedDispatcher limit h)
      (.dispatchProtoAt terminationMessage) result ∧ result.output.length = 241 := by
  have hcompleted : Dispatch.completedAt 10 = .ok ⟨0, 10000000⟩ := rfl
  obtain ⟨result, hresult⟩ := Dispatch.exists_challengeResult (libraries ∅)
    ⟨termination, terminationPolicy.evaluate surroundings.host termination⟩ (challenge termination)
    hcompleted
  have hplain : (none : Option PreparedEdit).isSome → Dispatch.CarriesDigest
      ⟨termination, terminationPolicy.evaluate surroundings.host termination⟩ := by simp
  have hlength := Dispatch.length_challengeResult hplain termination_issued hresult
  rw [challengeLength_termination, Option.elim_none] at hlength
  have hrun := challenged_run limit h
  rw [hresult] at hrun
  refine ⟨result, ?_, hlength⟩
  obtain ⟨c, hc, hentry, hrest⟩ := called_result (libraries ∅) surroundings (initial .empty) 0
    (limitedDispatcher limit h) (.dispatchProtoAt terminationMessage) 10
  rw [hrun] at hrest
  exact ⟨c, 10, hc, hentry, hrest⟩

end Sample

open Sample in
/-- A device whose limit has room for the challenge. -/
theorem output_le_iff_challenge : ∃ result,
    Returned (challenged 1024 (by decide)) 0 (limitedDispatcher 1024 (by decide))
      (.dispatchProtoAt terminationMessage) result ∧
    AnswersWithin (libraries ∅) 1024 ((challenged 1024 (by decide)).log.of 0) := by
  obtain ⟨result, hreturned, hlength⟩ := challenged_returned 1024 (by decide)
  have hfits : result.output.length ≤ (limitedDispatcher 1024 (by decide)).maxOutputBytes := by
    rw [hlength]
    decide
  exact ⟨result, hreturned,
    (output_le_iff (challenged_reachable 1024 (by decide)) id hreturned).mp hfits rfl⟩

open Sample in
/-- A device with a small limit returns a challenge that is larger. -/
theorem challenge_too_large :
    ¬ ∀ w : World (deviceSystem (libraries ∅)), Reachable freshLedger anyEntry w →
      ∀ i d job result, ¬ job.reports → Returned w i d job result →
        result.output.length ≤ d.maxOutputBytes := by
  intro h
  obtain ⟨result, hreturned, hlength⟩ := challenged_returned 64 (by decide)
  have hle := h _ (challenged_reachable 64 (by decide)) 0 _ _ result id hreturned
  rw [hlength] at hle
  exact absurd hle (by decide)

end VorCommander
