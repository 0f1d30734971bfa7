import VorCommander.Device.OneShot
import VorCommander.Approval.Message
import VorCommander.Hub.Frames
import VorCommander.Text.Reader

/-!
Requests and approvals on the wire.

A request keeps its meaning on the way: what is sent is what arrives, and what
arrives can be sent on. An approval is checked by other limits where it is signed
than where it arrives. The signature is given over identifiers of up to
`maxFieldBytes`, but only those of up to `maxIdLen` are read back.
-/

namespace VorCommander

open Crypto Steps Text

namespace Wire

/-! ### Times -/

theorem msToTimestamp_eq_ok_iff {value : ℕ} {timestamp : V1.Timestamp} :
    msToTimestamp value = .ok timestamp ↔ value / 1000 < 2 ^ 63 ∧
      timestamp = { seconds := value / 1000, nanos := value % 1000 * 1000000 } := by
  simp only [msToTimestamp, bind_eq_ok, exists_unit, failIf_eq_ok, pure_eq_ok, Nat.not_le,
    eq_comm (a := timestamp)]

/-- A number of milliseconds in 64 bits has a timestamp, from which it is read back. -/
theorem msToTimestamp_of_lt {value : ℕ} (hvalue : value < 2 ^ 64) :
    ∃ timestamp, msToTimestamp value = .ok timestamp ∧ timestampToMs timestamp = .ok value := by
  refine ⟨_, msToTimestamp_eq_ok_iff.mpr ⟨by omega, rfl⟩, ?_⟩
  rw [timestampToMs_eq_ok_iff]
  show (0 : ℤ) ≤ value / 1000 ∧ (0 : ℤ) ≤ value % 1000 * 1000000 ∧
    (value % 1000 * 1000000 : ℤ) < 1000000000 ∧
    (value / 1000 : ℤ).toNat * 1000 + (value % 1000 * 1000000 : ℤ).toNat / 1000000 = value ∧ _
  omega

theorem timestampToMs_of_msToTimestamp {value : ℕ} {timestamp : V1.Timestamp}
    (hvalue : value < 2 ^ 64) (h : msToTimestamp value = .ok timestamp) :
    timestampToMs timestamp = .ok value := by
  obtain ⟨found, hfound, hread⟩ := msToTimestamp_of_lt hvalue
  rw [hfound] at h
  obtain rfl := Except.ok.inj h
  exact hread

/-- An expiry that has been read fits into 64 bits. -/
theorem lt_of_requiredExpiry {expiresAt : Option V1.Timestamp} {millis : ℕ}
    (h : requiredExpiry expiresAt = .ok millis) : millis < 2 ^ 64 := by
  simp only [requiredExpiry, bind_eq_ok, orFail_eq_ok] at h
  obtain ⟨timestamp, _, hread⟩ := h
  exact (timestampToMs_eq_ok_iff.mp hread).2.2.2.2

theorem toFixed_eq_some {n : ℕ} {bytes : List UInt8} {v : Vector UInt8 n}
    (h : toFixed n bytes = some v) : v.toList = bytes := by
  unfold toFixed at h
  split at h
  · obtain rfl := Option.some.inj h
    rfl
  · cases h

/-! ### Requests -/

variable {L : Libraries} {readable : Value → Prop}

/-- Each value of the parameters is readable. -/
def AllReadable (readable : Value → Prop) (parameters : Parameters) : Prop :=
  ∀ (name : String) (value : Value), parameters[name]? = some value → readable value

/-- The reader of JSON reads back what is written of readable values, those within its
limits of nesting whose numbers it keeps, and reads no others. -/
structure ReadsBack (L : Libraries) (readable : Value → Prop) : Prop where
  reads : ∀ parameters, AllReadable readable parameters →
    L.parseParameters (Value.object parameters.toList).toBytes = some parameters
  readable : ∀ text parameters, L.parseParameters text = some parameters →
    AllReadable readable parameters

theorem receivedParameters_parametersJson (hL : ReadsBack L readable) {envelope : ActionEnvelope}
    (hreadable : AllReadable readable envelope.parameters) :
    receivedParameters L (parametersJson envelope) = .ok envelope.parameters := by
  have htext : (parametersJson envelope).isEmpty = false := by
    simpa [parametersJson] using Value.toBytes_object_ne_nil _
  rw [receivedParameters, htext, parametersJson, hL.reads _ hreadable]
  rfl

theorem allReadable_of_receivedParameters (hL : ReadsBack L readable) {json : List UInt8}
    {parameters : Parameters} (h : receivedParameters L json = .ok parameters) :
    AllReadable readable parameters := by
  unfold receivedParameters at h
  split at h
  · obtain rfl := Except.ok.inj h
    intro name value hvalue
    simp at hvalue
  · exact hL.readable json parameters (orFail_eq_ok.mp h)

/-- What arrives is the request that was sent. -/
theorem actionRequestFromProto_toProto (hL : ReadsBack L readable) {request : ActionRequest}
    {message : V1.ActionRequest} (hreadable : AllReadable readable request.envelope.parameters)
    (hexpiry : request.envelope.expiresAtUnixMs < 2 ^ 64)
    (h : actionRequestToProto L request = .ok message) :
    actionRequestFromProto L message = .ok request := by
  simp only [actionRequestToProto, bind_eq_ok, exists_unit, mapError_eq_ok, pure_eq_ok] at h
  obtain ⟨hverified, expiresAt, htimestamp, rfl⟩ := h
  obtain ⟨hvalid, hdigest, _⟩ := ActionRequest.verify_eq_ok_iff.mp hverified
  have htime := timestampToMs_of_msToTimestamp hexpiry htimestamp
  have hsealed : ActionRequest.sealEnvelope L.toPrimitives request.envelope = .ok request := by
    rw [ActionRequest.sealEnvelope_eq_ok_iff, hdigest]
    exact ⟨hvalid, rfl⟩
  simp only [actionRequestFromProto, requiredExpiry, bind_eq_ok, exists_unit, orFail_eq_ok,
    toFixed_toList, mapError_eq_ok, failIf_eq_ok, pure_eq_ok, not_not]
  exact ⟨request.envelopeDigest, rfl, request.envelope.expiresAtUnixMs, ⟨expiresAt, rfl, htime⟩,
    request.envelope.parameters, receivedParameters_parametersJson hL hreadable, request, hsealed,
    rfl, rfl⟩

/-- What has arrived can be sent. -/
theorem actionRequestToProto_of_fromProto {message : V1.ActionRequest} {request : ActionRequest}
    (h : actionRequestFromProto L message = .ok request) :
    ∃ message', actionRequestToProto L request = .ok message' := by
  have hsealed := actionRequestFromProto_sealed h
  simp only [actionRequestFromProto, bind_eq_ok, mapError_eq_ok, exists_unit, failIf_eq_ok,
    pure_eq_ok] at h
  obtain ⟨_, _, expires, hexpires, _, _, received, hreceived, _, rfl⟩ := h
  have henvelope := (ActionRequest.sealEnvelope_eq_ok_iff.mp hreceived).2
  have hlt : received.envelope.expiresAtUnixMs < 2 ^ 64 := by
    rw [henvelope]
    exact lt_of_requiredExpiry hexpires
  obtain ⟨hvalid, hdigest⟩ := ActionRequest.sealEnvelope_eq_ok_iff.mp hsealed
  -- an envelope that is valid has an expiry after the beginning of time
  have hpositive : 0 < received.envelope.expiresAtUnixMs := by
    rw [Nat.pos_iff_ne_zero]
    intro hzero
    unfold validateEnvelope at hvalid
    split at hvalid
    · cases hvalid
    · rw [if_pos hzero] at hvalid
      cases hvalid
  have hverified : received.verify L.toPrimitives 0 = .ok () :=
    ActionRequest.verify_of_seal hsealed hpositive
  obtain ⟨timestamp, htimestamp, _⟩ := msToTimestamp_of_lt hlt
  simp only [actionRequestToProto, bind_eq_ok, exists_unit, mapError_eq_ok, pure_eq_ok]
  exact ⟨_, hverified, timestamp, htimestamp, rfl⟩

/-- A request that is sent is what arrives. A message that is accepted carries the
digest of what it says, and can be sent on. -/
theorem actionRequest_roundTrip (L : Libraries) (readable : Value → Prop)
    (hL : ReadsBack L readable) :
    (∀ request message, AllReadable readable request.envelope.parameters →
      request.envelope.expiresAtUnixMs < 2 ^ 64 → actionRequestToProto L request = .ok message →
      actionRequestFromProto L message = .ok request) ∧
    ∀ message request, actionRequestFromProto L message = .ok request →
      (request.envelope.digest L.toPrimitives).toList = message.envelopeDigest ∧
      ∃ message', actionRequestToProto L request = .ok message' ∧
        actionRequestFromProto L message' = .ok request := by
  refine ⟨fun request message => actionRequestFromProto_toProto hL, fun message request h => ?_⟩
  obtain ⟨message', hmessage'⟩ := actionRequestToProto_of_fromProto h
  have hsealed := (ActionRequest.sealEnvelope_eq_ok_iff.mp (actionRequestFromProto_sealed h)).2
  simp only [actionRequestFromProto, bind_eq_ok, mapError_eq_ok, exists_unit, failIf_eq_ok,
    orFail_eq_ok, pure_eq_ok, not_not] at h
  obtain ⟨digest, hdigest, expires, hexpires, parameters, hparameters, received, hreceived, hsame,
    rfl⟩ := h
  have henvelope := congrArg ActionRequest.envelope
    (ActionRequest.sealEnvelope_eq_ok_iff.mp hreceived).2
  constructor
  · rw [← toFixed_eq_some hdigest, ← hsame]
    exact (congrArg (fun request => request.envelopeDigest.toList) hsealed).symm
  · refine ⟨message', hmessage', actionRequestFromProto_toProto hL ?_ ?_ hmessage'⟩
    · rw [henvelope]
      exact allReadable_of_receivedParameters hL hparameters
    · rw [henvelope]
      exact lt_of_requiredExpiry hexpires

/-! ### A reader -/

/-- The members of an object, of which the last of a name counts. -/
def readParameters (text : List UInt8) : Option Parameters :=
  match Value.fromBytes text with
  | some (.object members) => some (Std.ExtTreeMap.ofList members)
  | _ => none

theorem ofList_toList (parameters : Parameters) :
    Std.ExtTreeMap.ofList parameters.toList = parameters := by
  apply Std.ExtTreeMap.ext_getElem?
  intro name
  cases hvalue : parameters[name]? with
  | some value =>
      exact Std.ExtTreeMap.getElem?_ofList_of_mem (by simp)
        Std.ExtTreeMap.distinct_keys_toList
        (Std.ExtTreeMap.mem_toList_iff_getElem?_eq_some.mpr hvalue)
  | none =>
      apply Std.ExtTreeMap.getElem?_ofList_of_contains_eq_false
      rw [Std.ExtTreeMap.map_fst_toList_eq_keys]
      simpa using hvalue

/-- A value that is found in a map was a member of the list. -/
theorem mem_of_getElem?_ofList {members : List (String × Value)} {name : String} {value : Value}
    (h : (Std.ExtTreeMap.ofList members : Parameters)[name]? = some value) :
    (name, value) ∈ members := by
  rw [Std.ExtTreeMap.ofList_eq_insertMany_empty, Std.ExtTreeMap.getElem?_insertMany_list] at h
  have hempty : (∅ : Parameters)[name]? = none := by simp
  rw [hempty, Option.or_none, List.findSomeRev?_eq_findSome?_reverse] at h
  obtain ⟨⟨found, _⟩, hmem, hfound⟩ := List.exists_of_findSome?_eq_some h
  obtain ⟨hname, rfl⟩ := Option.ite_some_none_eq_some.mp hfound
  obtain rfl : found = name := Std.LawfulEqCmp.eq_of_compare hname
  exact List.mem_reverse.mp hmem

/-- The reader of JSON texts reads back what is written. -/
theorem readsBack_readParameters (hL : L.parseParameters = readParameters) :
    ReadsBack L Value.Written where
  reads parameters hwritten := by
    have hobject : (Value.object parameters.toList).Written := by
      rw [Value.Written, Value.writtenMembers_iff]
      intro m hm
      exact hwritten m.1 m.2 (Std.ExtTreeMap.mem_toList_iff_getElem?_eq_some.mp hm)
    rw [hL, readParameters, Value.fromBytes_toBytes hobject]
    exact congrArg some (ofList_toList parameters)
  readable text parameters h := by
    rw [hL] at h
    unfold readParameters at h
    split at h
    next members hread =>
      obtain rfl := Option.some.inj h
      have hwritten := Value.written_of_fromBytes hread
      rw [Value.Written, Value.writtenMembers_iff] at hwritten
      intro name value hvalue
      exact hwritten _ (mem_of_getElem?_ofList hvalue)
    next => cases h

/-- A device with this reader. -/
def readingLibraries : Libraries where
  toPrimitives := reference
  parseParameters := readParameters
  encodeActionRequest _ := []

theorem actionRequest_roundTrip_reading :
    (∀ request message, AllReadable Value.Written request.envelope.parameters →
      request.envelope.expiresAtUnixMs < 2 ^ 64 →
      actionRequestToProto readingLibraries request = .ok message →
      actionRequestFromProto readingLibraries message = .ok request) ∧
    ∀ message request, actionRequestFromProto readingLibraries message = .ok request →
      (request.envelope.digest readingLibraries.toPrimitives).toList = message.envelopeDigest ∧
      ∃ message', actionRequestToProto readingLibraries request = .ok message' ∧
        actionRequestFromProto readingLibraries message' = .ok request :=
  actionRequest_roundTrip readingLibraries Value.Written (readsBack_readParameters rfl)

end Wire

/-! ### Approvals -/

variable {P : Primitives}

theorem validateText_eq_ok_iff {value : String} :
    validateText value = .ok () ↔ isBlank value = false ∧ byteLength value ≤ maxFieldBytes ∧
      value.toList.contains '\x00' = false := by
  rw [validateText, failIf_eq_ok, not_or, not_or, Bool.not_eq_true, Nat.not_lt, Bool.not_eq_true]

theorem validateText_of_pushText {value : String} {bytes : List UInt8}
    (h : pushText value = .ok bytes) : validateText value = .ok () := by
  simp only [pushText, bind_eq_ok, exists_unit] at h
  exact h.1

/-- The texts of an approval that has been signed. -/
structure SignedApproval.Checked (approval : SignedApproval) : Prop where
  requestId : isBlank approval.challenge.requestId = false
  policyId : isBlank approval.challenge.policyId = false
  policyFits : byteLength approval.challenge.policyId ≤ maxFieldBytes
  approverId : isBlank approval.approverId = false
  capability : ∀ value, approval.challenge.requiredCapability = some value → value ≠ ""

theorem checked_of_signApproval {challenge : ApprovalChallenge} {approverId : String} {key : Key}
    {approval : SignedApproval} (h : signApproval P challenge approverId key = .ok approval) :
    approval.challenge = challenge ∧ approval.approverId = approverId ∧ approval.Checked := by
  simp only [signApproval, bind_eq_ok, exists_unit, pure_eq_ok] at h
  obtain ⟨happrover, message, hmessage, rfl⟩ := h
  simp only [approvalMessage, bind_eq_ok, pure_eq_ok] at hmessage
  obtain ⟨_, hrequest, _, hpolicy, capability, hcapability, _⟩ := hmessage
  have hpolicy := validateText_eq_ok_iff.mp (validateText_of_pushText hpolicy)
  refine ⟨rfl, rfl, ⟨?_, hpolicy.1, hpolicy.2.1, ?_, ?_⟩⟩
  · exact (validateText_eq_ok_iff.mp (validateText_of_pushText hrequest)).1
  · exact (validateText_eq_ok_iff.mp happrover).1
  · rintro value hvalue rfl
    rw [show challenge.requiredCapability = some "" from hvalue] at hcapability
    simp only [pushCapability, bind_eq_ok, pure_eq_ok] at hcapability
    obtain ⟨_, hpush, _⟩ := hcapability
    have hblank := (validateText_eq_ok_iff.mp (validateText_of_pushText hpush)).1
    revert hblank
    decide

/-- An approval that has been signed can be sent. -/
theorem Wire.approvalGrantToProto_of_checked {approval : SignedApproval} (h : approval.Checked)
    (hexpiry : approval.challenge.expiresAtUnixMs < 2 ^ 64) :
    ∃ grant, approvalGrantToProto approval = .ok grant := by
  obtain ⟨timestamp, htimestamp, _⟩ := msToTimestamp_of_lt hexpiry
  unfold approvalGrantToProto
  rw [failIf_of_false (by simp [h.requestId, h.policyId, h.approverId]), htimestamp]
  exact ⟨_, rfl⟩

/-- It is read back if its identifiers are short enough, and only then. -/
theorem Wire.approvalGrantFromProto_toProto_iff {approval : SignedApproval}
    {grant : V1.ApprovalGrant} (hchecked : approval.Checked)
    (hexpiry : approval.challenge.expiresAtUnixMs < 2 ^ 64)
    (h : approvalGrantToProto approval = .ok grant) :
    approvalGrantFromProto grant = .ok approval ↔
      byteLength approval.challenge.requestId ≤ maxIdLen ∧
        byteLength approval.approverId ≤ maxIdLen := by
  simp only [approvalGrantToProto, bind_eq_ok, exists_unit, pure_eq_ok] at h
  obtain ⟨_, timestamp, htimestamp, rfl⟩ := h
  have htime := timestampToMs_of_msToTimestamp hexpiry htimestamp
  have hcapability : (if (approval.challenge.requiredCapability.getD "").isEmpty then none
      else some (approval.challenge.requiredCapability.getD "")) =
        approval.challenge.requiredCapability := by
    cases hvalue : approval.challenge.requiredCapability with
    | none => rfl
    | some value =>
        have hne := hchecked.capability value hvalue
        simp [String.isEmpty_iff, hne]
  simp only [approvalGrantFromProto, requiredExpiry, bind_eq_ok, exists_unit, failIf_eq_ok,
    orFail_eq_ok, toFixed_toList, pure_eq_ok, hchecked.requestId, hchecked.policyId,
    hchecked.approverId, Bool.false_eq_true, false_or, not_or, Nat.not_lt, hcapability]
  constructor
  · rintro ⟨⟨hrequest, happrover, _⟩, _⟩
    exact ⟨hrequest, happrover⟩
  · rintro ⟨hrequest, happrover⟩
    exact ⟨⟨hrequest, happrover, hchecked.policyFits⟩, _, rfl, _, rfl, _, rfl, _,
      ⟨timestamp, rfl, htime⟩, rfl⟩

/-- An approval that is signed over an issued challenge is read back from the wire
exactly if the identifiers of the request and of the approver have at most
`maxIdLen` bytes. -/
theorem approval_roundTrip_iff (P : Primitives) (request : ActionRequest)
    (decision : PolicyDecision) (now expires : ℕ) (nonce : Vector UInt8 32)
    (challenge : ApprovalChallenge) (approverId : String) (key : Key) (approval : SignedApproval)
    (hissued : ApprovalChallenge.issue P request decision now expires nonce = .ok challenge)
    (hsigned : signApproval P challenge approverId key = .ok approval)
    (hexpires : expires < 2 ^ 64) :
    (∃ grant, Wire.approvalGrantToProto approval = .ok grant ∧
        Wire.approvalGrantFromProto grant = .ok approval) ↔
      byteLength request.envelope.requestId ≤ Wire.maxIdLen ∧
        byteLength approverId ≤ Wire.maxIdLen := by
  obtain ⟨hchallenge, happrover, hchecked⟩ := checked_of_signApproval hsigned
  obtain ⟨_, _, _, _, _, _, _, rfl⟩ := ApprovalChallenge.issue_eq_ok_iff.mp hissued
  have hexpiry : approval.challenge.expiresAtUnixMs < 2 ^ 64 := by
    rw [hchallenge]
    exact hexpires
  obtain ⟨grant, hgrant⟩ := Wire.approvalGrantToProto_of_checked hchecked hexpiry
  have hread := Wire.approvalGrantFromProto_toProto_iff hchecked hexpiry hgrant
  rw [hchallenge, happrover] at hread
  rw [← hread]
  constructor
  · rintro ⟨found, hfound, hback⟩
    rw [hgrant] at hfound
    obtain rfl := Except.ok.inj hfound
    exact hback
  · intro hback
    exact ⟨grant, hgrant, hback⟩

/-! ### Examples -/

namespace Sample

/-- A request whose identifier has one byte more than can be read back. -/
def longRequest : ActionRequest :=
  request { envelope "process.terminate" "4711" ∅ with
    requestId := String.ofList (List.replicate 129 'r') }

/-- The decision to ask for an approval of a request. -/
def askFor (request : ActionRequest) : PolicyDecision :=
  { requestId := request.envelope.requestId, kind := .approval, policyId := "sample"
    reasonCode := "process_terminate", requiredCapability := none
    envelopeDigest := request.envelopeDigest }

theorem issued_over {request : ActionRequest} (hverify : request.verify reference 10 = .ok ())
    (hexpires : request.envelope.expiresAtUnixMs = 1000) :
    ApprovalChallenge.issue reference request (askFor request) 10 1000 (Vector.replicate 32 0) =
      .ok (challenge request) := by
  have hpolicy : isBlank "sample" = false := by decide
  refine ApprovalChallenge.issue_eq_ok_iff.mpr
    ⟨hverify, rfl, rfl, rfl, by omega, ?_, hpolicy, rfl⟩
  omega

theorem signed_over {challenge : ApprovalChallenge}
    (hmessage : (approvalMessage challenge "approver").toOption.isSome) :
    signApproval reference challenge "approver" signingKey = .ok (signed challenge) := by
  obtain ⟨message, hsome⟩ := Option.isSome_iff_exists.mp hmessage
  have happrover : validateText "approver" = .ok () := by decide
  rw [signApproval, happrover, toOption_eq_some.mp hsome, signed, hsome]
  rfl

end Sample

open Sample in
/-- A signature over a request with a long identifier is not read back. -/
theorem long_identifier_lost :
    ¬ ∀ (request : ActionRequest) (decision : PolicyDecision) (now expires : ℕ)
      (nonce : Vector UInt8 32) (challenge : ApprovalChallenge) (approverId : String) (key : Key)
      (approval : SignedApproval),
      ApprovalChallenge.issue reference request decision now expires nonce = .ok challenge →
      signApproval reference challenge approverId key = .ok approval → expires < 2 ^ 64 →
      ∃ grant, Wire.approvalGrantToProto approval = .ok grant ∧
        Wire.approvalGrantFromProto grant = .ok approval := by
  intro h
  have hverify : longRequest.verify reference 10 = .ok () :=
    request_verify (by decide +kernel) (by decide)
  have hsigned : signApproval reference (challenge longRequest) "approver" signingKey =
      .ok (signed (challenge longRequest)) := by
    apply signed_over
    decide +kernel
  obtain ⟨grant, hgrant, hback⟩ := h longRequest _ 10 1000 _ _ _ _ _
    (issued_over hverify rfl) hsigned (by omega)
  obtain ⟨_, _, hchecked⟩ := checked_of_signApproval hsigned
  have hfits := (Wire.approvalGrantFromProto_toProto_iff hchecked
    (show 1000 < 2 ^ 64 by omega) hgrant).mp hback
  revert hfits
  decide +kernel

open Sample in
theorem approval_roundTrip_iff_termination :
    (∃ grant, Wire.approvalGrantToProto (signed (challenge termination)) = .ok grant ∧
        Wire.approvalGrantFromProto grant = .ok (signed (challenge termination))) ↔
      byteLength "request" ≤ Wire.maxIdLen ∧ byteLength "approver" ≤ Wire.maxIdLen := by
  have hsigned : signApproval reference (challenge termination) "approver" signingKey =
      .ok (signed (challenge termination)) := by
    apply signed_over
    decide
  exact approval_roundTrip_iff reference termination (askFor termination) 10 1000
    (Vector.replicate 32 0) (challenge termination) "approver" signingKey _
    (issued_over termination_verify rfl) hsigned (by omega)

end VorCommander
