import VorCommander.Approval.Message

/-!
The registry of a verifier over its whole life.

A verifier starts without approvers. Calls add an approver, revoke one, give one
a new key, or ask for approvers that belong to an organisation; a call that is
refused changes nothing. What counts for an approver is the last successful call
that registered them, and whether they have been revoked since.

A signature scheme is ideal for what has been signed if a key accepts nothing
else. Under such a scheme the verifier accepts an approval exactly when everyone
concerned has done their part.
-/

namespace VorCommander

open Crypto Steps Text

/-! ### Calls -/

/-- A call of a verifier's registry. `add` is `add_approver_for_organization`,
which the two other ways to add an approver call without an organisation. -/
inductive RegistryCall
  | add (approverId : String) (publicKey : Key) (authority : ApproverAuthority)
      (organizationId : Option String)
  | revoke (approverId : String)
  | rotate (approverId : String) (publicKey : Key) (authority : ApproverAuthority)
      (organizationId : String)
  | requireScope
  deriving DecidableEq

namespace ApprovalVerifier

variable (P : Primitives)

def call (verifier : ApprovalVerifier) : RegistryCall → Except ApprovalError ApprovalVerifier
  | .add approverId publicKey authority organizationId =>
      verifier.addApproverForOrganization P approverId publicKey authority organizationId
  | .revoke approverId => verifier.revokeApprover approverId
  | .rotate approverId publicKey authority organizationId =>
      verifier.rotateApproverForOrganization P approverId publicKey authority organizationId
  | .requireScope => .ok verifier.requireOrganizationScope

/-- The verifier after calls, the last of them first. -/
def after : List RegistryCall → ApprovalVerifier
  | [] => {}
  | last :: earlier => ((after earlier).call P last).toOption.getD (after earlier)

/-- The calls that succeeded. -/
def succeeded : List RegistryCall → List RegistryCall
  | [] => []
  | last :: earlier =>
      if ((after P earlier).call P last).toOption.isSome then last :: succeeded earlier
      else succeeded earlier

end ApprovalVerifier

/-! ### Registrations -/

/-- What a call registers for an approver. -/
structure Registration where
  key : Key
  authority : ApproverAuthority
  organizationId : Option String

/-- The entry of a registration, revoked or not. -/
def Registration.trusted (registration : Registration) (revoked : Bool) : TrustedApprover :=
  { key := registration.key, authority := registration.authority
    organizationId := registration.organizationId, revoked }

/-- The approver that a call registers, and with what. -/
def RegistryCall.registers : RegistryCall → Option (String × Registration)
  | .add approverId key authority organizationId =>
      some (approverId, { key, authority, organizationId })
  | .rotate approverId key authority organizationId =>
      some (approverId, { key, authority, organizationId := some organizationId })
  | .revoke _ => none
  | .requireScope => none

/-- The last registration of an approver in a list of calls, and the calls
`since`. -/
def LatestRegistration (calls : List RegistryCall) (approverId : String)
    (registration : Registration) (since : List RegistryCall) : Prop :=
  ∃ registering earlier, calls = since ++ registering :: earlier ∧
    registering.registers = some (approverId, registration) ∧
    ∀ call ∈ since, ∀ other, call.registers ≠ some (approverId, other)

section

variable {calls since : List RegistryCall} {approverId : String} {registration : Registration}
  {call : RegistryCall}

/-- A call that registers an approver is their latest registration. -/
theorem exists_latest_of_registers (h : call.registers = some (approverId, registration))
    {p : Registration → List RegistryCall → Prop} :
    (∃ r since, LatestRegistration (call :: calls) approverId r since ∧ p r since) ↔
      p registration [] := by
  constructor
  · rintro ⟨r, since, ⟨registering, earlier, heq, hregisters, hsince⟩, hp⟩
    cases since with
    | nil =>
        obtain ⟨rfl, -⟩ := List.cons.inj heq
        obtain rfl : registration = r := by simpa [h] using hregisters
        exact hp
    | cons first rest =>
        obtain ⟨rfl, -⟩ := List.cons.inj heq
        exact absurd h (hsince call List.mem_cons_self registration)
  · intro hp
    exact ⟨registration, [], ⟨call, calls, rfl, h, by simp⟩, hp⟩

/-- Another call comes after it. -/
theorem exists_latest_of_not_registers
    (hcall : ∀ other, call.registers ≠ some (approverId, other))
    {p : Registration → List RegistryCall → Prop} :
    (∃ r since, LatestRegistration (call :: calls) approverId r since ∧ p r since) ↔
      ∃ r since, LatestRegistration calls approverId r since ∧ p r (call :: since) := by
  constructor
  · rintro ⟨r, since, ⟨registering, earlier, heq, hregisters, hsince⟩, hp⟩
    cases since with
    | nil =>
        obtain ⟨rfl, -⟩ := List.cons.inj heq
        exact absurd hregisters (hcall r)
    | cons first rest =>
        obtain ⟨rfl, hrest⟩ := List.cons.inj heq
        obtain ⟨-, hsince⟩ := List.forall_mem_cons.mp hsince
        exact ⟨r, rest, ⟨registering, earlier, hrest, hregisters, hsince⟩, hp⟩
  · rintro ⟨r, since, ⟨registering, earlier, rfl, hregisters, hsince⟩, hp⟩
    exact ⟨r, call :: since,
      ⟨registering, earlier, rfl, hregisters, List.forall_mem_cons.mpr ⟨hcall, hsince⟩⟩, hp⟩

end

namespace ApprovalVerifier

variable {P : Primitives} {verifier next : ApprovalVerifier} {call : RegistryCall}
  {calls : List RegistryCall}

/-- What a successful call leaves under a name. -/
theorem getElem?_call (h : verifier.call P call = .ok next) (approverId : String) :
    next.approvers[approverId]? =
      match call.registers with
      | some (name, registration) =>
          if name = approverId then some (registration.trusted false)
          else verifier.approvers[approverId]?
      | none =>
          if call = .revoke approverId then
            verifier.approvers[approverId]?.map fun approver => { approver with revoked := true }
          else verifier.approvers[approverId]? := by
  cases call with
  | add name key authority organizationId =>
      simp only [ApprovalVerifier.call, addApproverForOrganization, bind_eq_ok, pure_eq_ok] at h
      obtain ⟨_, _, _, _, _, _, _, _, rfl⟩ := h
      simp only [RegistryCall.registers, Std.ExtTreeMap.getElem?_insert, compare_eq_iff_eq]
      rfl
  | revoke name =>
      simp only [ApprovalVerifier.call, revokeApprover, bind_eq_ok, pure_eq_ok, orFail_eq_ok] at h
      obtain ⟨_, _, approver, hget, rfl⟩ := h
      simp only [RegistryCall.registers, Std.ExtTreeMap.getElem?_insert, compare_eq_iff_eq,
        RegistryCall.revoke.injEq]
      split_ifs with hname
      · rw [← hname, hget]
        rfl
      · rfl
  | rotate name key authority organizationId =>
      simp only [ApprovalVerifier.call, rotateApproverForOrganization, bind_eq_ok, pure_eq_ok] at h
      obtain ⟨_, _, _, _, _, _, rfl⟩ := h
      simp only [RegistryCall.registers, Std.ExtTreeMap.getElem?_insert, compare_eq_iff_eq]
      rfl
  | requireScope =>
      obtain rfl := Except.ok.inj h
      rfl

theorem organizationScopeRequired_call (h : verifier.call P call = .ok next) :
    next.organizationScopeRequired = true ↔
      call = .requireScope ∨ verifier.organizationScopeRequired = true := by
  cases call with
  | add name key authority organizationId =>
      simp only [ApprovalVerifier.call, addApproverForOrganization, bind_eq_ok, pure_eq_ok] at h
      obtain ⟨_, _, _, _, _, _, _, _, rfl⟩ := h
      simp
  | revoke name =>
      simp only [ApprovalVerifier.call, revokeApprover, bind_eq_ok, pure_eq_ok] at h
      obtain ⟨_, _, _, _, rfl⟩ := h
      simp
  | rotate name key authority organizationId =>
      simp only [ApprovalVerifier.call, rotateApproverForOrganization, bind_eq_ok, pure_eq_ok] at h
      obtain ⟨_, _, _, _, _, _, rfl⟩ := h
      simp
  | requireScope =>
      obtain rfl := Except.ok.inj h
      simp [requireOrganizationScope]

/-- The last call has succeeded, or it has changed nothing. -/
theorem after_cons (P : Primitives) (call : RegistryCall) (calls : List RegistryCall) :
    ((after P calls).call P call = .ok (after P (call :: calls)) ∧
        succeeded P (call :: calls) = call :: succeeded P calls) ∨
      (call ≠ .requireScope ∧ after P (call :: calls) = after P calls ∧
        succeeded P (call :: calls) = succeeded P calls) := by
  rw [succeeded, after]
  cases h : (after P calls).call P call with
  | ok next => exact .inl ⟨rfl, rfl⟩
  | error error =>
      refine .inr ⟨?_, rfl, rfl⟩
      rintro rfl
      cases h

/-- The entry of an approver is that of the latest registration. -/
theorem getElem?_after_iff {approverId : String} {approver : TrustedApprover} :
    (after P calls).approvers[approverId]? = some approver ↔
      ∃ registration since,
        LatestRegistration (succeeded P calls) approverId registration since ∧
          registration.trusted (decide (.revoke approverId ∈ since)) = approver := by
  induction calls generalizing approver with
  | nil =>
      constructor
      · intro h
        simp [after] at h
      · rintro ⟨registration, since, ⟨registering, earlier, heq, -⟩, -⟩
        cases since <;> cases heq
  | cons call calls ih =>
      rcases after_cons P call calls with ⟨hcall, hsucceeded⟩ | ⟨-, hafter, hsucceeded⟩
      · rw [getElem?_call hcall, hsucceeded]
        cases hregisters : call.registers with
        | some registered =>
            obtain ⟨name, registration⟩ := registered
            have hrevoke : .revoke approverId ≠ call := by
              rintro rfl
              cases hregisters
            by_cases hname : name = approverId
            · subst hname
              rw [exists_latest_of_registers hregisters]
              simp
            · have hother : ∀ other, call.registers ≠ some (approverId, other) := by
                intro other heq
                rw [hregisters] at heq
                exact hname (congrArg Prod.fst (Option.some.inj heq))
              rw [exists_latest_of_not_registers hother]
              simp only [hname, if_false, ih, List.mem_cons, hrevoke, false_or]
        | none =>
            have hother : ∀ other, call.registers ≠ some (approverId, other) := by simp [hregisters]
            rw [exists_latest_of_not_registers hother]
            by_cases hrevoke : call = .revoke approverId
            · subst hrevoke
              simp only [if_true, Option.map_eq_some_iff, ih, List.mem_cons_self, decide_true]
              constructor
              · rintro ⟨_, ⟨registration, since, hlatest, rfl⟩, rfl⟩
                exact ⟨registration, since, hlatest, rfl⟩
              · rintro ⟨registration, since, hlatest, rfl⟩
                exact ⟨_, ⟨registration, since, hlatest, rfl⟩, rfl⟩
            · simp only [hrevoke, if_false, ih, List.mem_cons, Ne.symm hrevoke, false_or]
      · rw [hafter, hsucceeded, ih]

/-- Scope is required from the first call that asks for it. -/
theorem organizationScopeRequired_after :
    (after P calls).organizationScopeRequired = true ↔ .requireScope ∈ calls := by
  induction calls with
  | nil => simp [after]
  | cons call calls ih =>
      rcases after_cons P call calls with ⟨hcall, -⟩ | ⟨hne, hafter, -⟩
      · rw [organizationScopeRequired_call hcall, ih, List.mem_cons, eq_comm]
      · rw [hafter, ih, List.mem_cons, or_iff_right (Ne.symm hne)]

end ApprovalVerifier

/-! ### Ideal signatures -/

/-- A public key accepts what its owner has signed, and nothing else. -/
def Crypto.Primitives.Ideal (P : Primitives) (signed : Key → List UInt8 → Prop) : Prop :=
  ∀ publicKey message signature, P.verify publicKey message signature = true ↔
    ∃ key, P.publicKey key = publicKey ∧ signed key message ∧ P.sign key message = signature

/-- The owner of a public key has signed a challenge as an approver, and this is
the only challenge and the only approver that the signature is about. -/
def SignedOver (P : Primitives) (signed : Key → List UInt8 → Prop) (publicKey : Key)
    (challenge : ApprovalChallenge) (approverId : String) (signature : Signature) : Prop :=
  ∃ key message, P.publicKey key = publicKey ∧ signed key message ∧
    signApproval P challenge approverId key = .ok { challenge, approverId, signature } ∧
    ∀ (challenge' : ApprovalChallenge) (approverId' : String),
      challenge'.expiresAtUnixMs < 2 ^ 64 →
      (approvalMessage challenge' approverId' = .ok message ↔
        challenge' = challenge ∧ approverId' = approverId)

/-- What `sign_approval` gives is the signature under the approval message; the
message has already been refused if the approver's name is no text. -/
theorem signApproval_eq_ok_iff {P : Primitives} {challenge : ApprovalChallenge}
    {approverId : String} {key : Key} {approval : SignedApproval} :
    signApproval P challenge approverId key = .ok approval ↔
      ∃ message, approvalMessage challenge approverId = .ok message ∧
        approval = { challenge, approverId, signature := P.sign key message } := by
  simp only [signApproval, bind_eq_ok, exists_unit, pure_eq_ok, eq_comm (a := approval)]
  constructor
  · rintro ⟨-, message, hmessage, heq⟩
    exact ⟨message, hmessage, heq⟩
  · rintro ⟨message, hmessage, heq⟩
    refine ⟨?_, message, hmessage, heq⟩
    simp only [approvalMessage, bind_eq_ok] at hmessage
    obtain ⟨_, _, _, _, _, _, approver, happrover, _⟩ := hmessage
    simp only [pushText, bind_eq_ok, exists_unit] at happrover
    exact happrover.1

/-- Under an ideal scheme a signature that is accepted has been made. -/
theorem exists_verify_iff_signedOver {P : Primitives} {signed : Key → List UInt8 → Prop}
    (hideal : P.Ideal signed) {publicKey : Key} {challenge : ApprovalChallenge}
    {approverId : String} {signature : Signature} (hexpiry : challenge.expiresAtUnixMs < 2 ^ 64) :
    (∃ message, approvalMessage challenge approverId = .ok message ∧
        P.verify publicKey message signature = true) ↔
      SignedOver P signed publicKey challenge approverId signature := by
  constructor
  · rintro ⟨message, hmessage, hverify⟩
    obtain ⟨key, hkey, hsigned, rfl⟩ := (hideal publicKey message signature).mp hverify
    refine ⟨key, message, hkey, hsigned, signApproval_eq_ok_iff.mpr ⟨message, hmessage, rfl⟩, ?_⟩
    intro challenge' approverId' hexpiry'
    constructor
    · intro hmessage'
      exact eq_of_approvalMessage_eq hexpiry' hexpiry hmessage' hmessage
    · rintro ⟨rfl, rfl⟩
      exact hmessage
  · rintro ⟨key, message, hkey, hsigned, happroval, hexact⟩
    have hmessage := (hexact challenge approverId hexpiry).mpr ⟨rfl, rfl⟩
    obtain ⟨message', hmessage', heq⟩ := signApproval_eq_ok_iff.mp happroval
    obtain rfl : message = message' := Except.ok.inj (hmessage ▸ hmessage')
    have hsignature : signature = P.sign key message := congrArg SignedApproval.signature heq
    exact ⟨message, hmessage, (hideal publicKey message signature).mpr
      ⟨key, hkey, hsigned, hsignature.symm⟩⟩

/-! ### Exact verification -/

/-- After any calls, a verifier accepts an approval if and only if the request is
valid, the decision asks for an approval of it, the challenge is over the request
and the decision and has not expired, and the latest registration of the approver
is in force, suffices, is of the right organisation and has signed exactly this
challenge. -/
theorem verify_after_iff (P : Primitives) (signed : Key → List UInt8 → Prop)
    (hideal : P.Ideal signed) (calls : List RegistryCall) (request : ActionRequest)
    (decision : PolicyDecision) (approval : SignedApproval) (now : ℕ)
    (hexpiry : approval.challenge.expiresAtUnixMs < 2 ^ 64) :
    (ApprovalVerifier.after P calls).verify P request decision approval now = .ok () ↔
      request.verify P now = .ok () ∧
      decision.kind = .approval ∧
      decision.requestId = request.envelope.requestId ∧
      decision.envelopeDigest = request.envelopeDigest ∧
      approval.challenge.requestId = request.envelope.requestId ∧
      approval.challenge.envelopeDigest = request.envelopeDigest ∧
      approval.challenge.policyId = decision.policyId ∧
      approval.challenge.requiredCapability = decision.requiredCapability ∧
      now < approval.challenge.expiresAtUnixMs ∧
      approval.challenge.expiresAtUnixMs ≤ request.envelope.expiresAtUnixMs ∧
      (∃ message, approvalMessage approval.challenge approval.approverId = .ok message) ∧
      ∃ registration since,
        LatestRegistration (ApprovalVerifier.succeeded P calls) approval.approverId
          registration since ∧
        .revoke approval.approverId ∉ since ∧
        (∃ required, ApproverAuthority.requiredFor decision.requiredCapability = .ok required ∧
          required.rank ≤ registration.authority.rank) ∧
        (.requireScope ∈ calls → registration.organizationId ≠ none) ∧
        (∀ organizationId, registration.organizationId = some organizationId →
          organizationId = request.envelope.organizationId) ∧
        SignedOver P signed registration.key approval.challenge approval.approverId
          approval.signature := by
  rw [ApprovalVerifier.verify_eq_ok_iff]
  constructor
  · rintro ⟨hverify, hid, hdigest, hkind, ⟨hrequest, henvelope, hpolicy, hcapability, hfresh,
      hwithin⟩, approver, hget, ⟨hactive, hsufficient, hscope, htenant⟩, hsignature⟩
    obtain ⟨registration, since, hlatest, rfl⟩ := ApprovalVerifier.getElem?_after_iff.mp hget
    have hsigned := (exists_verify_iff_signedOver hideal hexpiry).mp hsignature
    obtain ⟨message, hmessage, -⟩ := hsignature
    refine ⟨hverify, hkind, hid, hdigest, hrequest, henvelope, hpolicy, hcapability, hfresh,
      hwithin, ⟨message, hmessage⟩, registration, since, hlatest, of_decide_eq_false hactive,
      hsufficient, ?_, htenant, hsigned⟩
    intro hrequired
    exact hscope (ApprovalVerifier.organizationScopeRequired_after.mpr hrequired)
  · rintro ⟨hverify, hkind, hid, hdigest, hrequest, henvelope, hpolicy, hcapability, hfresh,
      hwithin, -, registration, since, hlatest, hactive, hsufficient, hscope, htenant, hsigned⟩
    refine ⟨hverify, hid, hdigest, hkind,
      ⟨hrequest, henvelope, hpolicy, hcapability, hfresh, hwithin⟩,
      registration.trusted (decide (.revoke approval.approverId ∈ since)),
      ApprovalVerifier.getElem?_after_iff.mpr ⟨registration, since, hlatest, rfl⟩,
      ⟨decide_eq_false hactive, hsufficient, ?_, htenant⟩,
      (exists_verify_iff_signedOver hideal hexpiry).mpr hsigned⟩
    intro hrequired
    exact hscope (ApprovalVerifier.organizationScopeRequired_after.mp hrequired)

namespace Registry.Sample

/-- The keyed hash as a scheme that accepts what has been recorded as signed. -/
def recording (made : List (Key × List UInt8)) : Primitives :=
  { reference with
    verify := fun publicKey message signature =>
      decide ((publicKey, message) ∈ made ∧ keyedHash publicKey message = signature) }

theorem recording_ideal (made : List (Key × List UInt8)) :
    (recording made).Ideal fun key message => (key, message) ∈ made := by
  intro publicKey message signature
  simp [recording, reference]

def firstKey : Key := Vector.replicate 32 1

def secondKey : Key := Vector.replicate 32 2

/-- An approver is added, revoked and given a second key. -/
def calls : List RegistryCall :=
  [.requireScope, .rotate "approver" secondKey .owner "local", .revoke "approver",
    .add "approver" firstKey .approve none]

def envelope : ActionEnvelope :=
  { requestId := "request", organizationId := "local", actorId := "agent", deviceId := "device"
    action := "process.terminate", target := "4711", parameters := ∅, requestedCapabilities := []
    expiresAtUnixMs := 1000, nonce := List.replicate 16 7 }

def request : ActionRequest := { envelope, envelopeDigest := envelope.digest reference }

def decision : PolicyDecision :=
  { requestId := "request", kind := .approval, policyId := "sample", reasonCode := "approval"
    requiredCapability := some "elevated", envelopeDigest := request.envelopeDigest }

def challenge : ApprovalChallenge :=
  { requestId := "request", envelopeDigest := request.envelopeDigest, policyId := "sample"
    requiredCapability := some "elevated", expiresAtUnixMs := 900
    approvalNonce := Vector.replicate 32 0 }

def message : List UInt8 := (approvalMessage challenge "approver").toOption.getD []

theorem approvalMessage_challenge : approvalMessage challenge "approver" = .ok message := by
  have hsome : (approvalMessage challenge "approver").toOption.isSome := by decide
  obtain ⟨bytes, hbytes⟩ := Option.isSome_iff_exists.mp hsome
  rw [message, hbytes]
  exact toOption_eq_some.mp hbytes

def approval : SignedApproval :=
  { challenge, approverId := "approver", signature := keyedHash secondKey message }

end Registry.Sample

open Registry.Sample in
/-- An approval under the second key counts. -/
theorem verify_after_iff_rotated :
    (ApprovalVerifier.after (recording [(secondKey, message)]) calls).verify
      (recording [(secondKey, message)]) request decision approval 10 = .ok () := by
  have hlatest : LatestRegistration (ApprovalVerifier.succeeded (recording [(secondKey, message)])
      calls) "approver" ⟨secondKey, .owner, some "local"⟩ [.requireScope] :=
    ⟨.rotate "approver" secondKey .owner "local", [.revoke "approver",
      .add "approver" firstKey .approve none], by decide +kernel, rfl,
      by simp [RegistryCall.registers]⟩
  have hsigned : SignedOver (recording [(secondKey, message)])
      (fun key bytes => (key, bytes) ∈ [(secondKey, message)]) secondKey challenge "approver"
      approval.signature :=
    (exists_verify_iff_signedOver (recording_ideal _) (by decide)).mp
      ⟨message, approvalMessage_challenge, by simp [recording, approval]⟩
  exact (verify_after_iff _ _ (recording_ideal _) calls request decision
    approval 10 (by decide)).mpr
    ⟨ActionRequest.verify_eq_ok_iff.mpr ⟨by decide, rfl, by decide⟩, rfl, rfl, rfl, rfl, rfl, rfl,
      rfl, by decide, by decide, ⟨message, approvalMessage_challenge⟩, _, _, hlatest,
      by decide, ⟨.elevated, rfl, by decide⟩, by simp, by simp [request, envelope], hsigned⟩

end VorCommander
