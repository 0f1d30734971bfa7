import VorCommander.Device.Interface

/-!
The messages of the wire and their conversions.

A request arrives as a protobuf message with its parameters as JSON text. It
is sealed again on arrival, and accepted only if the digest it carries is the
digest of what was received. `Libraries` holds the readers and writers that
other crates provide.
-/

namespace VorCommander

open Crypto Steps Text

/-! ### The protobuf messages, `vor.commander.v1` -/

namespace V1

structure Timestamp where
  seconds : ℤ
  nanos : ℤ
  deriving DecidableEq

structure ActionRequest where
  requestId : String
  organizationId : String
  actorId : String
  deviceId : String
  action : String
  target : String
  parametersJson : List UInt8
  requestedCapabilities : List Capability
  expiresAt : Option Timestamp
  nonce : List UInt8
  envelopeDigest : List UInt8
  deriving DecidableEq

structure ApprovalGrant where
  requestId : String
  approverId : String
  envelopeDigest : List UInt8
  expiresAt : Option Timestamp
  signature : List UInt8
  policyId : String
  requiredCapability : String
  approvalNonce : List UInt8
  deriving DecidableEq

structure ApprovedActionRequest where
  request : Option ActionRequest
  approval : Option ApprovalGrant
  deriving DecidableEq

structure ActionResult where
  requestId : String
  exitCode : ℤ
  status : String
  stdoutDigest : List UInt8
  stderrDigest : List UInt8
  completedAt : Option Timestamp
  output : List UInt8
  contentType : String
  truncated : Bool
  deriving DecidableEq

end V1

/-- The cryptography, the JSON reader for parameters and the protobuf writer
for requests. -/
structure Libraries extends Primitives where
  parseParameters : List UInt8 → Option Parameters
  encodeActionRequest : V1.ActionRequest → List UInt8

/-- A byte string as an array of fixed length. -/
def toFixed (n : ℕ) (bytes : List UInt8) : Option (Vector UInt8 n) :=
  if h : bytes.length = n then some ⟨bytes.toArray, by simpa using h⟩ else none

@[simp] theorem toFixed_toList {n : ℕ} (v : Vector UInt8 n) : toFixed n v.toList = some v := by
  unfold toFixed
  rw [dif_pos (by simp)]
  cases v
  simp

namespace Wire

def maxIdLen : ℕ := 128

/-- `timestamp_to_ms`. -/
def timestampToMs (value : V1.Timestamp) : Except WireError ℕ := do
  failIf (value.seconds < 0 ∨ value.nanos < 0 ∨ 1000000000 ≤ value.nanos) .invalidTimestamp
  let millis := value.seconds.toNat * 1000 + value.nanos.toNat / 1000000
  failIf (2 ^ 64 ≤ millis) .invalidTimestamp
  return millis

/-- `ms_to_timestamp`. -/
def msToTimestamp (value : ℕ) : Except WireError V1.Timestamp := do
  failIf (2 ^ 63 ≤ value / 1000) .invalidTimestamp
  return { seconds := value / 1000, nanos := value % 1000 * 1000000 }

/-- The expiry a message must carry. -/
def requiredExpiry (expiresAt : Option V1.Timestamp) : Except WireError ℕ := do
  let timestamp ← orFail expiresAt .missingExpiry
  timestampToMs timestamp

variable (L : Libraries)

/-- The parameters of a message; no text at all stands for none. -/
def receivedParameters (json : List UInt8) : Except WireError Parameters :=
  if json.isEmpty then .ok ∅ else orFail (L.parseParameters json) .json

/-- `action_request_from_proto`. -/
def actionRequestFromProto (value : V1.ActionRequest) : Except WireError ActionRequest := do
  let digest ← orFail (toFixed 32 value.envelopeDigest) .invalidActionDigest
  let expiresAtUnixMs ← requiredExpiry value.expiresAt
  let parameters ← receivedParameters L value.parametersJson
  let request ← (ActionRequest.sealEnvelope L.toPrimitives
    { requestId := value.requestId
      organizationId := value.organizationId
      actorId := value.actorId
      deviceId := value.deviceId
      action := value.action
      target := value.target
      parameters
      requestedCapabilities := value.requestedCapabilities
      expiresAtUnixMs
      nonce := value.nonce }).mapError .protocol
  failIf (request.envelopeDigest ≠ digest) .actionDigestMismatch
  return request

/-- The JSON of the parameters of an envelope. -/
def parametersJson (envelope : ActionEnvelope) : List UInt8 :=
  (Value.object envelope.parameters.toList).toBytes

/-- `action_request_to_proto`. -/
def actionRequestToProto (value : ActionRequest) : Except WireError V1.ActionRequest := do
  (value.verify L.toPrimitives 0).mapError .protocol
  let expiresAt ← msToTimestamp value.envelope.expiresAtUnixMs
  return { requestId := value.envelope.requestId
           organizationId := value.envelope.organizationId
           actorId := value.envelope.actorId
           deviceId := value.envelope.deviceId
           action := value.envelope.action
           target := value.envelope.target
           parametersJson := parametersJson value.envelope
           requestedCapabilities := value.envelope.requestedCapabilities
           expiresAt := some expiresAt
           nonce := value.envelope.nonce
           envelopeDigest := value.envelopeDigest.toList }

/-- `approval_grant_from_proto`. -/
def approvalGrantFromProto (value : V1.ApprovalGrant) : Except WireError SignedApproval := do
  failIf (isBlank value.requestId ∨ isBlank value.approverId ∨ isBlank value.policyId ∨
    maxIdLen < byteLength value.requestId ∨ maxIdLen < byteLength value.approverId ∨
    4096 < byteLength value.policyId) .invalidApprovalField
  let envelopeDigest ← orFail (toFixed 32 value.envelopeDigest) .invalidApprovalDigest
  let signature ← orFail (toFixed 64 value.signature) .invalidApprovalSignature
  let approvalNonce ← orFail (toFixed 32 value.approvalNonce) .invalidApprovalNonce
  let expiresAtUnixMs ← requiredExpiry value.expiresAt
  return { challenge :=
             { requestId := value.requestId
               envelopeDigest
               policyId := value.policyId
               requiredCapability :=
                 if value.requiredCapability.isEmpty then none else some value.requiredCapability
               expiresAtUnixMs
               approvalNonce }
           approverId := value.approverId
           signature }

/-- `approval_grant_to_proto`. -/
def approvalGrantToProto (value : SignedApproval) : Except WireError V1.ApprovalGrant := do
  failIf (isBlank value.challenge.requestId ∨ isBlank value.approverId ∨
    isBlank value.challenge.policyId) .invalidApprovalField
  let expiresAt ← msToTimestamp value.challenge.expiresAtUnixMs
  return { requestId := value.challenge.requestId
           approverId := value.approverId
           envelopeDigest := value.challenge.envelopeDigest.toList
           expiresAt := some expiresAt
           signature := value.signature.toList
           policyId := value.challenge.policyId
           requiredCapability := value.challenge.requiredCapability.getD ""
           approvalNonce := value.challenge.approvalNonce.toList }

variable {L}

/-- What arrives is a sealed request. -/
theorem actionRequestFromProto_sealed {value : V1.ActionRequest} {request : ActionRequest}
    (h : actionRequestFromProto L value = .ok request) :
    ActionRequest.sealEnvelope L.toPrimitives request.envelope = .ok request := by
  simp only [actionRequestFromProto, bind_eq_ok, mapError_eq_ok, failIf_eq_ok, exists_unit,
    pure_eq_ok] at h
  obtain ⟨_, _, _, _, _, _, sealedRequest, hseal, _, rfl⟩ := h
  have henvelope := (ActionRequest.sealEnvelope_eq_ok_iff.mp hseal).2
  rw [henvelope] at hseal ⊢
  exact hseal

end Wire

end VorCommander
