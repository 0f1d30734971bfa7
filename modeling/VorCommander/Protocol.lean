import Mathlib.Data.List.Sort
import Mathlib.Data.List.Destutter
import Mathlib.Data.String.Basic
import Std.Data.ExtTreeMap
import VorCommander.Crypto.Primitives
import VorCommander.Steps.Checks
import VorCommander.Text.Json

/-!
Action envelopes, sealed requests and policy decisions.

A request is an envelope together with the SHA-256 digest of its canonical
JSON: capabilities sorted, and the constraints of each sorted and without
repetition. `seal` computes the digest, `verify` recomputes it and checks the
expiry. Times and counters are 64-bit unsigned in the program and natural
numbers here; where a bound matters it is written out.
-/

namespace VorCommander

open Crypto Steps Text

/-- A SHA-256 digest. -/
abbrev Digest32 := Hash

/-- JSON parameters by name. -/
abbrev Parameters := Std.ExtTreeMap String Value

structure Capability where
  name : String
  constraints : List String
  deriving DecidableEq

structure ActionEnvelope where
  requestId : String
  organizationId : String
  actorId : String
  deviceId : String
  action : String
  target : String
  parameters : Parameters
  requestedCapabilities : List Capability
  expiresAtUnixMs : ℕ
  nonce : List UInt8

structure ActionRequest where
  envelope : ActionEnvelope
  envelopeDigest : Digest32

inductive PolicyDecisionKind
  | auto
  | approval
  | deny
  deriving DecidableEq

structure PolicyDecision where
  requestId : String
  kind : PolicyDecisionKind
  policyId : String
  reasonCode : String
  requiredCapability : Option String
  envelopeDigest : Digest32
  deriving DecidableEq

inductive ProtocolError
  | missingField (name : String)
  | invalidExpiry
  | nonceTooShort
  | digestMismatch
  | expired
  deriving DecidableEq

/-! ### The canonical form -/

/-- Constraints sorted and without repetition. -/
def Capability.normalized (cap : Capability) : Capability :=
  { cap with constraints := (cap.constraints.insertionSort (· ≤ ·)).destutter (· ≠ ·) }

/-- The order in which capabilities are sorted: by name, then by constraints. -/
def Capability.le (a b : Capability) : Prop :=
  a.name < b.name ∨ a.name = b.name ∧ a.constraints ≤ b.constraints

instance : DecidableRel Capability.le := fun a b =>
  inferInstanceAs (Decidable (a.name < b.name ∨ a.name = b.name ∧ a.constraints ≤ b.constraints))

/-- `ActionEnvelope::normalized`. -/
def ActionEnvelope.normalized (envelope : ActionEnvelope) : ActionEnvelope :=
  { envelope with
    requestedCapabilities :=
      (envelope.requestedCapabilities.map Capability.normalized).insertionSort Capability.le }

/-- The JSON of a capability. -/
def Capability.toJson (cap : Capability) : Value :=
  .object [("name", .string cap.name), ("constraints", .array (cap.constraints.map .string))]

/-- The JSON of an envelope, its members in declaration order. -/
def ActionEnvelope.toJson (envelope : ActionEnvelope) : Value :=
  .object
    [("request_id", .string envelope.requestId),
     ("organization_id", .string envelope.organizationId),
     ("actor_id", .string envelope.actorId),
     ("device_id", .string envelope.deviceId),
     ("action", .string envelope.action),
     ("target", .string envelope.target),
     ("parameters", .object envelope.parameters.toList),
     ("requested_capabilities", .array (envelope.requestedCapabilities.map Capability.toJson)),
     ("expires_at_unix_ms", .posInt envelope.expiresAtUnixMs),
     ("nonce", .array (envelope.nonce.map fun b => .posInt b.toNat))]

/-- `ActionEnvelope::digest`. Serialising an envelope cannot fail: its keys
are strings and it holds no other map. -/
def ActionEnvelope.digest (P : Primitives) (envelope : ActionEnvelope) : Digest32 :=
  P.sha256 envelope.normalized.toJson.toBytes

/-! ### Sealing and verifying -/

/-- The fields of an envelope that must not be blank. -/
def ActionEnvelope.requiredFields (envelope : ActionEnvelope) : List (String × String) :=
  [("request_id", envelope.requestId),
   ("organization_id", envelope.organizationId),
   ("actor_id", envelope.actorId),
   ("device_id", envelope.deviceId),
   ("action", envelope.action),
   ("target", envelope.target)]

def validateEnvelope (envelope : ActionEnvelope) : Except ProtocolError Unit :=
  match envelope.requiredFields.find? fun field => isBlank field.2 with
  | some (name, _) => .error (.missingField name)
  | none =>
      if envelope.expiresAtUnixMs = 0 then .error .invalidExpiry
      else if envelope.nonce.length < 16 then .error .nonceTooShort
      else .ok ()

namespace ActionRequest

variable (P : Primitives)

/-- `ActionRequest::seal`. -/
def sealEnvelope (envelope : ActionEnvelope) : Except ProtocolError ActionRequest := do
  validateEnvelope envelope
  return { envelope, envelopeDigest := envelope.digest P }

/-- `ActionRequest::verify`. -/
def verify (request : ActionRequest) (nowUnixMs : ℕ) : Except ProtocolError Unit := do
  validateEnvelope request.envelope
  failIf (request.envelope.digest P ≠ request.envelopeDigest) .digestMismatch
  failIf (request.envelope.expiresAtUnixMs ≤ nowUnixMs) .expired

variable {P}

/-- Verification is the conjunction of its three checks. -/
theorem verify_eq_ok_iff {request : ActionRequest} {now : ℕ} :
    request.verify P now = .ok () ↔
      validateEnvelope request.envelope = .ok () ∧
        request.envelope.digest P = request.envelopeDigest ∧
        now < request.envelope.expiresAtUnixMs := by
  simp [verify]

/-- A sealed request is its envelope with the envelope's own digest. -/
theorem sealEnvelope_eq_ok_iff {envelope : ActionEnvelope} {request : ActionRequest} :
    sealEnvelope P envelope = .ok request ↔
      validateEnvelope envelope = .ok () ∧
        request = { envelope, envelopeDigest := envelope.digest P } := by
  simp only [sealEnvelope, bind_eq_ok, exists_unit, pure_eq_ok, eq_comm (a := request)]

/-- A sealed request verifies until it expires. -/
theorem verify_of_seal {envelope : ActionEnvelope} {request : ActionRequest} {now : ℕ}
    (h : sealEnvelope P envelope = .ok request) (hnow : now < envelope.expiresAtUnixMs) :
    request.verify P now = .ok () := by
  obtain ⟨hvalid, rfl⟩ := sealEnvelope_eq_ok_iff.mp h
  exact verify_eq_ok_iff.mpr ⟨hvalid, rfl, hnow⟩

end ActionRequest

end VorCommander
