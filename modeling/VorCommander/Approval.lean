import VorCommander.Policy.Engine

/-!
Approval challenges, signed approvals and their verification.

A challenge is issued over a request and the policy decision that asked for
an approval; an approver signs the challenge together with their own name.
The verifier holds the trusted approvers and accepts a signed approval only
for the same request and decision. `verify_eq_ok_iff` lists everything an
accepted approval satisfies.
-/

namespace VorCommander

open Crypto Steps Text

structure ApprovalChallenge where
  requestId : String
  envelopeDigest : Digest32
  policyId : String
  requiredCapability : Option String
  expiresAtUnixMs : ℕ
  approvalNonce : Vector UInt8 32
  deriving DecidableEq

structure SignedApproval where
  challenge : ApprovalChallenge
  approverId : String
  signature : Signature
  deriving DecidableEq

inductive ApprovalError
  | protocol (error : ProtocolError)
  | decisionMismatch
  | decisionDoesNotRequireApproval
  | invalidChallenge
  | challengeMismatch
  | invalidExpiry
  | approvalExpired
  | unknownApprover
  | approverRevoked
  | invalidPublicKey
  | invalidApproverAuthority
  | unsupportedRequiredCapability
  | insufficientApproverAuthority
  | approverTenantMismatch
  | duplicateApprover
  | invalidSignature
  deriving DecidableEq

/-! ### The signed message -/

def approvalDomain : List UInt8 := utf8 "vor-commander:approval:v1\x00"

def maxFieldBytes : ℕ := 4096

def validateText (value : String) : Except ApprovalError Unit :=
  failIf (isBlank value ∨ maxFieldBytes < byteLength value ∨ value.toList.contains '\x00')
    .invalidChallenge

/-- `push_text`: the length in four bytes, then the text. -/
def pushText (value : String) : Except ApprovalError (List UInt8) := do
  validateText value
  failIf (2 ^ 32 ≤ byteLength value) .invalidChallenge
  return bigEndian 4 (byteLength value) ++ utf8 value

/-- The capability of a challenge inside the signed message. -/
def pushCapability : Option String → Except ApprovalError (List UInt8)
  | none => return [0]
  | some value => return 1 :: (← pushText value)

def approvalMessage (challenge : ApprovalChallenge) (approverId : String) :
    Except ApprovalError (List UInt8) := do
  let requestId ← pushText challenge.requestId
  let policyId ← pushText challenge.policyId
  let capability ← pushCapability challenge.requiredCapability
  let approver ← pushText approverId
  return approvalDomain ++ requestId ++ challenge.envelopeDigest.toList ++ policyId ++ capability ++
    bigEndian 8 challenge.expiresAtUnixMs ++ challenge.approvalNonce.toList ++ approver

/-! ### Issuing and signing -/

def ensureDecisionMatches (request : ActionRequest) (decision : PolicyDecision) :
    Except ApprovalError Unit :=
  failIf (decision.requestId ≠ request.envelope.requestId ∨
    decision.envelopeDigest ≠ request.envelopeDigest) .decisionMismatch

/-- `ApprovalChallenge::issue`; the nonce is drawn at random. -/
def ApprovalChallenge.issue (P : Primitives) (request : ActionRequest) (decision : PolicyDecision)
    (nowUnixMs expiresAtUnixMs : ℕ) (nonce : Vector UInt8 32) :
    Except ApprovalError ApprovalChallenge := do
  (request.verify P nowUnixMs).mapError .protocol
  ensureDecisionMatches request decision
  failIf (decision.kind ≠ .approval) .decisionDoesNotRequireApproval
  failIf (expiresAtUnixMs ≤ nowUnixMs ∨ request.envelope.expiresAtUnixMs < expiresAtUnixMs)
    .invalidExpiry
  failIf (isBlank decision.policyId) .invalidChallenge
  return { requestId := request.envelope.requestId
           envelopeDigest := request.envelopeDigest
           policyId := decision.policyId
           requiredCapability := decision.requiredCapability
           expiresAtUnixMs
           approvalNonce := nonce }

def signApproval (P : Primitives) (challenge : ApprovalChallenge) (approverId : String)
    (signingKey : Key) : Except ApprovalError SignedApproval := do
  validateText approverId
  let message ← approvalMessage challenge approverId
  return { challenge, approverId, signature := P.sign signingKey message }

/-! ### The verifier -/

inductive ApproverAuthority
  | approve
  | elevated
  | owner
  deriving DecidableEq

namespace ApproverAuthority

/-- The authorities in increasing order. -/
def rank : ApproverAuthority → ℕ
  | .approve => 0
  | .elevated => 1
  | .owner => 2

/-- `ApproverAuthority::required_for`. -/
def requiredFor : Option String → Except ApprovalError ApproverAuthority
  | none => .ok .approve
  | some "elevated" => .ok .elevated
  | some "owner" => .ok .owner
  | some "full_owner" => .ok .owner
  | some _ => .error .unsupportedRequiredCapability

end ApproverAuthority

structure TrustedApprover where
  key : Key
  authority : ApproverAuthority
  organizationId : Option String
  revoked : Bool

structure ApprovalVerifier where
  approvers : Std.ExtTreeMap String TrustedApprover := ∅
  organizationScopeRequired : Bool := false

namespace ApprovalVerifier

variable (P : Primitives)

def requireOrganizationScope (verifier : ApprovalVerifier) : ApprovalVerifier :=
  { verifier with organizationScopeRequired := true }

/-- `add_approver_for_organization`. -/
def addApproverForOrganization (verifier : ApprovalVerifier) (approverId : String)
    (publicKey : Key) (authority : ApproverAuthority) (organizationId : Option String) :
    Except ApprovalError ApprovalVerifier := do
  validateText approverId
  failIf (verifier.approvers.contains approverId) .duplicateApprover
  organizationId.forM validateText
  failIf (¬ P.isVerifyingKey publicKey) .invalidPublicKey
  return { verifier with
    approvers := verifier.approvers.insert approverId
      { key := publicKey, authority, organizationId, revoked := false } }

/-- `revoke_approver`. -/
def revokeApprover (verifier : ApprovalVerifier) (approverId : String) :
    Except ApprovalError ApprovalVerifier := do
  validateText approverId
  let approver ← orFail verifier.approvers[approverId]? .unknownApprover
  return { verifier with
    approvers := verifier.approvers.insert approverId { approver with revoked := true } }

/-- `rotate_approver_for_organization`. -/
def rotateApproverForOrganization (verifier : ApprovalVerifier) (approverId : String)
    (publicKey : Key) (authority : ApproverAuthority) (organizationId : String) :
    Except ApprovalError ApprovalVerifier := do
  validateText approverId
  validateText organizationId
  failIf (¬ P.isVerifyingKey publicKey) .invalidPublicKey
  return { verifier with
    approvers := verifier.approvers.insert approverId
      { key := publicKey, authority, organizationId := some organizationId, revoked := false } }

/-- `verify_challenge_binding`. -/
def verifyChallengeBinding (request : ActionRequest) (decision : PolicyDecision)
    (challenge : ApprovalChallenge) (nowUnixMs : ℕ) : Except ApprovalError Unit := do
  failIf (challenge.requestId ≠ request.envelope.requestId ∨
    challenge.envelopeDigest ≠ request.envelopeDigest ∨
    challenge.policyId ≠ decision.policyId ∨
    challenge.requiredCapability ≠ decision.requiredCapability) .challengeMismatch
  failIf (challenge.expiresAtUnixMs ≤ nowUnixMs) .approvalExpired
  failIf (request.envelope.expiresAtUnixMs < challenge.expiresAtUnixMs) .invalidExpiry

/-- `ApprovalVerifier::verify`. -/
def verify (verifier : ApprovalVerifier) (request : ActionRequest) (decision : PolicyDecision)
    (approval : SignedApproval) (nowUnixMs : ℕ) : Except ApprovalError Unit := do
  (request.verify P nowUnixMs).mapError .protocol
  ensureDecisionMatches request decision
  failIf (decision.kind ≠ .approval) .decisionDoesNotRequireApproval
  verifyChallengeBinding request decision approval.challenge nowUnixMs
  let approver ← orFail verifier.approvers[approval.approverId]? .unknownApprover
  failIf approver.revoked .approverRevoked
  let required ← ApproverAuthority.requiredFor decision.requiredCapability
  failIf (approver.authority.rank < required.rank) .insufficientApproverAuthority
  failIf (verifier.organizationScopeRequired ∧ approver.organizationId = none)
    .approverTenantMismatch
  failIf (approver.organizationId.any (· ≠ request.envelope.organizationId))
    .approverTenantMismatch
  let message ← approvalMessage approval.challenge approval.approverId
  failIf (¬ P.verify approver.key message approval.signature) .invalidSignature

/-- An approver whose signature under a decision counts for a request. -/
structure Authorizes (verifier : ApprovalVerifier) (approver : TrustedApprover)
    (request : ActionRequest) (decision : PolicyDecision) : Prop where
  active : approver.revoked = false
  sufficient : ∃ required,
    ApproverAuthority.requiredFor decision.requiredCapability = .ok required ∧
    required.rank ≤ approver.authority.rank
  scope : verifier.organizationScopeRequired = true → approver.organizationId ≠ none
  tenant : ∀ organizationId, approver.organizationId = some organizationId →
    organizationId = request.envelope.organizationId

/-- A challenge that is over a request and a decision and has not expired. -/
structure Binds (challenge : ApprovalChallenge) (request : ActionRequest)
    (decision : PolicyDecision) (nowUnixMs : ℕ) : Prop where
  requestId : challenge.requestId = request.envelope.requestId
  envelopeDigest : challenge.envelopeDigest = request.envelopeDigest
  policyId : challenge.policyId = decision.policyId
  requiredCapability : challenge.requiredCapability = decision.requiredCapability
  fresh : nowUnixMs < challenge.expiresAtUnixMs
  within : challenge.expiresAtUnixMs ≤ request.envelope.expiresAtUnixMs

variable {P}

theorem verifyChallengeBinding_eq_ok_iff {request : ActionRequest} {decision : PolicyDecision}
    {challenge : ApprovalChallenge} {now : ℕ} :
    verifyChallengeBinding request decision challenge now = .ok () ↔
      Binds challenge request decision now := by
  simp only [verifyChallengeBinding, bind_eq_ok, exists_unit, failIf_eq_ok, not_or,
    not_not, not_le, not_lt]
  constructor
  · rintro ⟨⟨h₁, h₂, h₃, h₄⟩, h₅, h₆⟩
    exact ⟨h₁, h₂, h₃, h₄, h₅, h₆⟩
  · rintro ⟨h₁, h₂, h₃, h₄, h₅, h₆⟩
    exact ⟨⟨h₁, h₂, h₃, h₄⟩, h₅, h₆⟩

/-- Everything an accepted approval satisfies. -/
theorem verify_eq_ok_iff {verifier : ApprovalVerifier} {request : ActionRequest}
    {decision : PolicyDecision} {approval : SignedApproval} {now : ℕ} :
    verifier.verify P request decision approval now = .ok () ↔
      request.verify P now = .ok () ∧
      decision.requestId = request.envelope.requestId ∧
      decision.envelopeDigest = request.envelopeDigest ∧
      decision.kind = .approval ∧
      Binds approval.challenge request decision now ∧
      ∃ approver, verifier.approvers[approval.approverId]? = some approver ∧
        verifier.Authorizes approver request decision ∧
        ∃ message, approvalMessage approval.challenge approval.approverId = .ok message ∧
          P.verify approver.key message approval.signature = true := by
  simp only [verify, ensureDecisionMatches, bind_eq_ok, exists_unit, failIf_eq_ok,
    mapError_eq_ok, orFail_eq_ok, verifyChallengeBinding_eq_ok_iff, not_or, not_not, not_lt,
    not_and, Bool.not_eq_true, Bool.not_eq_false, Option.any_eq_false, decide_eq_false_iff_not]
  constructor
  · rintro ⟨hverify, ⟨hid, hdigest⟩, hkind, hbinds, approver, hget, hactive,
      required, hrequired, hrank, hscope, htenant, message, hmessage, hsignature⟩
    exact ⟨hverify, hid, hdigest, hkind, hbinds, approver, hget,
      ⟨hactive, ⟨required, hrequired, hrank⟩, hscope, htenant⟩, message, hmessage, hsignature⟩
  · rintro ⟨hverify, hid, hdigest, hkind, hbinds, approver, hget,
      ⟨hactive, ⟨required, hrequired, hrank⟩, hscope, htenant⟩, message, hmessage, hsignature⟩
    exact ⟨hverify, ⟨hid, hdigest⟩, hkind, hbinds, approver, hget, hactive,
      required, hrequired, hrank, hscope, htenant, message, hmessage, hsignature⟩

/-- No approval is accepted for a decision that does not ask for one. -/
theorem verify_of_kind_ne {verifier : ApprovalVerifier} {request : ActionRequest}
    {decision : PolicyDecision} {approval : SignedApproval} {now : ℕ}
    (hverify : request.verify P now = .ok ())
    (hid : decision.requestId = request.envelope.requestId)
    (hdigest : decision.envelopeDigest = request.envelopeDigest)
    (hkind : decision.kind ≠ .approval) :
    verifier.verify P request decision approval now = .error .decisionDoesNotRequireApproval := by
  simp only [verify, ensureDecisionMatches, hverify, hid, hdigest, mapError_ok, ok_bind, ne_eq,
    not_true_eq_false, or_self, not_false_eq_true, failIf_of_false, failIf_of_true hkind,
    error_bind]

end ApprovalVerifier

/-! ### Issued challenges -/

variable {P : Primitives}

/-- What an issued challenge satisfies. -/
theorem ApprovalChallenge.issue_eq_ok_iff {request : ActionRequest} {decision : PolicyDecision}
    {now expires : ℕ} {nonce : Vector UInt8 32} {challenge : ApprovalChallenge} :
    ApprovalChallenge.issue P request decision now expires nonce = .ok challenge ↔
      request.verify P now = .ok () ∧
      decision.requestId = request.envelope.requestId ∧
      decision.envelopeDigest = request.envelopeDigest ∧
      decision.kind = .approval ∧
      now < expires ∧ expires ≤ request.envelope.expiresAtUnixMs ∧
      isBlank decision.policyId = false ∧
      challenge =
        { requestId := request.envelope.requestId
          envelopeDigest := request.envelopeDigest
          policyId := decision.policyId
          requiredCapability := decision.requiredCapability
          expiresAtUnixMs := expires
          approvalNonce := nonce } := by
  simp only [ApprovalChallenge.issue, ensureDecisionMatches, bind_eq_ok, exists_unit, failIf_eq_ok,
    mapError_eq_ok, pure_eq_ok, not_or, not_not, not_le, not_lt, Bool.not_eq_true, and_assoc]
  simp only [eq_comm (a := challenge)]

/-- A signature made by `signApproval` is one that the signer's public key
accepts over the message of the signed challenge. -/
theorem signApproval_eq_ok {challenge : ApprovalChallenge} {approverId : String} {key : Key}
    {approval : SignedApproval} (hP : P.Correct)
    (h : signApproval P challenge approverId key = .ok approval) :
    approval.challenge = challenge ∧ approval.approverId = approverId ∧
      ∃ message, approvalMessage challenge approverId = .ok message ∧
        P.verify (P.publicKey key) message approval.signature = true := by
  simp only [signApproval, bind_eq_ok, pure_eq_ok] at h
  obtain ⟨_, _, message, hmessage, rfl⟩ := h
  exact ⟨rfl, rfl, message, hmessage, hP.verify_sign key message⟩

end VorCommander
