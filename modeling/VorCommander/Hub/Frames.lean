import VorCommander.Device.Wire

/-!
Frames between a hub and its devices.

A frame names its device, says when it expires, and carries an identifier and
a nonce that must not come again before that. `verifyFrameAt` checks a frame
by itself, a `ReplayGuard` remembers what it has seen. The reader and writer of
the protobuf encoding are parameters.
-/

namespace VorCommander

open Crypto Steps Text

/-! ### The protobuf messages, `vor.commander.v1` -/

namespace V1

structure DeviceHello where
  deviceId : String
  agentVersion : String
  transports : List String
  capabilities : List String
  deriving DecidableEq

structure RelayAck where
  messageId : String
  status : String
  payloadDigest : List UInt8
  deriving DecidableEq

structure RelayHeartbeat where
  sentAt : Option Timestamp
  deriving DecidableEq

structure PolicyDecision where
  requestId : String
  decision : ℤ
  policyId : String
  reasonCode : String
  envelopeDigest : List UInt8
  decidedAt : Option Timestamp
  deriving DecidableEq

inductive Payload
  | deviceHello (hello : DeviceHello)
  | actionRequest (request : ActionRequest)
  | actionResult (result : ActionResult)
  | approvalGrant (approval : ApprovalGrant)
  | policyDecision (decision : PolicyDecision)
  | ack (ack : RelayAck)
  | heartbeat (heartbeat : RelayHeartbeat)
  | approvedActionRequest (approved : ApprovedActionRequest)
  deriving DecidableEq

structure RelayFrame where
  wireVersion : ℕ
  messageId : String
  deviceId : String
  expiresAt : Option Timestamp
  nonce : List UInt8
  payload : Option Payload
  deriving DecidableEq

/-- The request that a payload asks a device to carry out. -/
def Payload.request : Payload → Option ActionRequest
  | .actionRequest request => some request
  | .approvedActionRequest approved => approved.request
  | _ => none

/-- The payloads that a device takes. -/
def Payload.forDevice : Payload → Bool
  | .ack _ => true
  | .actionRequest _ => true
  | .approvedActionRequest _ => true
  | _ => false

/-- The request that a frame asks a device to carry out. -/
def RelayFrame.request (frame : RelayFrame) : Option ActionRequest :=
  frame.payload.bind Payload.request

end V1

/-- The reader and the writer of frames. -/
structure FrameCodec where
  encode : V1.RelayFrame → List UInt8
  decode : List UInt8 → Option V1.RelayFrame

/-- The errors of `vor-wire` that are about frames; `wire` is one that it
shares with the messages inside. -/
inductive FrameError
  | decode
  | frameTooLarge (bytes : ℕ)
  | unsupportedVersion (version : ℕ)
  | invalidId (name : String)
  | nonceTooShort
  | missingPayload
  | expired
  | replayDetected
  | replayWindowFull
  | invalidCapacity
  | wire (error : WireError)
  deriving DecidableEq

namespace Wire

def wireVersion : ℕ := 1

def maxFrameBytes : ℕ := 8 * 1024 * 1024

/-! ### One frame -/

/-- `validate_id`. -/
def validateId (name value : String) : Except FrameError Unit :=
  failIf (isBlank value ∨ maxIdLen < byteLength value) (.invalidId name)

/-- `validate_frame_shape`. -/
def validateFrameShape (frame : V1.RelayFrame) : Except FrameError Unit := do
  failIf (frame.wireVersion ≠ wireVersion) (.unsupportedVersion frame.wireVersion)
  validateId "message_id" frame.messageId
  validateId "device_id" frame.deviceId
  failIf (frame.nonce.length < 16) .nonceTooShort
  failIf (frame.payload = none) .missingPayload

/-- `verify_frame_at`. -/
def verifyFrameAt (frame : V1.RelayFrame) (nowUnixMs : ℕ) : Except FrameError Unit := do
  validateFrameShape frame
  let expires ← (requiredExpiry frame.expiresAt).mapError .wire
  failIf (expires ≤ nowUnixMs) .expired

/-- `encode_frame`. -/
def encodeFrame (C : FrameCodec) (frame : V1.RelayFrame) : Except FrameError (List UInt8) := do
  validateFrameShape frame
  let bytes := C.encode frame
  failIf (maxFrameBytes < bytes.length) (.frameTooLarge bytes.length)
  return bytes

/-- `decode_frame`. -/
def decodeFrame (C : FrameCodec) (bytes : List UInt8) : Except FrameError V1.RelayFrame := do
  failIf (maxFrameBytes < bytes.length) (.frameTooLarge bytes.length)
  let frame ← orFail (C.decode bytes) .decode
  validateFrameShape frame
  return frame

/-- `frame_digest`. -/
def frameDigest (P : Primitives) (C : FrameCodec) (frame : V1.RelayFrame) :
    Except FrameError Hash :=
  P.sha256 <$> encodeFrame C frame

/-- An identifier of a message or of a device. -/
def IsId (value : String) : Prop := isBlank value = false ∧ byteLength value ≤ maxIdLen

theorem validateId_eq_ok_iff {name value : String} :
    validateId name value = .ok () ↔ IsId value := by
  rw [validateId, failIf_eq_ok, not_or, Bool.not_eq_true, Nat.not_lt]
  rfl

/-- The shape of a frame that both sides accept. -/
structure WellShaped (frame : V1.RelayFrame) : Prop where
  version : frame.wireVersion = wireVersion
  messageId : IsId frame.messageId
  deviceId : IsId frame.deviceId
  nonce : 16 ≤ frame.nonce.length
  payload : frame.payload ≠ none

theorem validateFrameShape_eq_ok_iff {frame : V1.RelayFrame} :
    validateFrameShape frame = .ok () ↔ WellShaped frame := by
  simp only [validateFrameShape, bind_eq_ok, failIf_eq_ok, exists_unit, validateId_eq_ok_iff,
    not_not, Nat.not_lt]
  constructor
  · rintro ⟨hversion, hmessage, hdevice, hnonce, hpayload⟩
    exact ⟨hversion, hmessage, hdevice, hnonce, hpayload⟩
  · rintro ⟨hversion, hmessage, hdevice, hnonce, hpayload⟩
    exact ⟨hversion, hmessage, hdevice, hnonce, hpayload⟩

/-- A frame is accepted before it expires, and only then. -/
theorem verifyFrameAt_eq_ok_iff {frame : V1.RelayFrame} {nowUnixMs : ℕ} :
    verifyFrameAt frame nowUnixMs = .ok () ↔
      WellShaped frame ∧ ∃ expires, requiredExpiry frame.expiresAt = .ok expires ∧
        nowUnixMs < expires := by
  simp only [verifyFrameAt, bind_eq_ok, exists_unit, validateFrameShape_eq_ok_iff,
    mapError_eq_ok, failIf_eq_ok, Nat.not_le]

/-- A timestamp is an instant if its parts are in range and its milliseconds
fit into 64 bits. -/
theorem timestampToMs_eq_ok_iff {value : V1.Timestamp} {millis : ℕ} :
    timestampToMs value = .ok millis ↔
      0 ≤ value.seconds ∧ 0 ≤ value.nanos ∧ value.nanos < 1000000000 ∧
        value.seconds.toNat * 1000 + value.nanos.toNat / 1000000 = millis ∧ millis < 2 ^ 64 := by
  simp only [timestampToMs, bind_eq_ok, failIf_eq_ok, exists_unit, pure_eq_ok, not_or, Int.not_lt,
    Int.not_le, Nat.not_le]
  constructor
  · rintro ⟨⟨hseconds, hnanos, hrange⟩, hfits, rfl⟩
    exact ⟨hseconds, hnanos, hrange, rfl, hfits⟩
  · rintro ⟨hseconds, hnanos, hrange, rfl, hfits⟩
    exact ⟨⟨hseconds, hnanos, hrange⟩, hfits, rfl⟩

end Wire

/-! ### The frames that have been seen -/

/-- What was accepted and has not expired: identifiers and hashes of nonces of
each device, with the expiry of the frame they came in. -/
structure ReplayGuard where
  maxEntries : ℕ
  messageIds : List ((String × String) × ℕ) := []
  nonces : List ((String × Hash) × ℕ) := []

namespace ReplayGuard

/-- `ReplayGuard::new`. -/
def new (maxEntries : ℕ) : Except FrameError ReplayGuard := do
  failIf (maxEntries = 0) .invalidCapacity
  return { maxEntries }

/-- `ReplayGuard::prune`. -/
def prune (guard : ReplayGuard) (nowUnixMs : ℕ) : ReplayGuard :=
  { guard with
    messageIds := guard.messageIds.filter fun entry => nowUnixMs < entry.2
    nonces := guard.nonces.filter fun entry => nowUnixMs < entry.2 }

variable (P : Primitives)

def messageKey (frame : V1.RelayFrame) : String × String := (frame.deviceId, frame.messageId)

def nonceKey (frame : V1.RelayFrame) : String × Hash := (frame.deviceId, P.sha256 frame.nonce)

/-- The guard has the identifier or the nonce of the frame. -/
def Seen (guard : ReplayGuard) (frame : V1.RelayFrame) : Prop :=
  messageKey frame ∈ guard.messageIds.map (·.1) ∨ nonceKey P frame ∈ guard.nonces.map (·.1)

/-- There is no room for another frame. -/
def Full (guard : ReplayGuard) : Prop :=
  guard.maxEntries ≤ guard.messageIds.length ∨ guard.maxEntries ≤ guard.nonces.length

instance (guard : ReplayGuard) (frame : V1.RelayFrame) : Decidable (guard.Seen P frame) :=
  inferInstanceAs (Decidable (_ ∨ _))

instance (guard : ReplayGuard) : Decidable guard.Full := inferInstanceAs (Decidable (_ ∨ _))

/-- The entries of a frame that is new and finds room. -/
def enter (guard : ReplayGuard) (frame : V1.RelayFrame) : Except FrameError ReplayGuard := do
  let expiry ← (Wire.requiredExpiry frame.expiresAt).mapError .wire
  failIf (guard.Seen P frame) .replayDetected
  failIf guard.Full .replayWindowFull
  return { guard with
           messageIds := (messageKey frame, expiry) :: guard.messageIds
           nonces := (nonceKey P frame, expiry) :: guard.nonces }

/-- `ReplayGuard::accept`. The expired entries go even if the frame is then
refused. -/
def accept (guard : ReplayGuard) (frame : V1.RelayFrame) (nowUnixMs : ℕ) :
    Except FrameError Unit × ReplayGuard :=
  match Wire.verifyFrameAt frame nowUnixMs with
  | .error error => (.error error, guard)
  | .ok () =>
      match (guard.prune nowUnixMs).enter P frame with
      | .error error => (.error error, guard.prune nowUnixMs)
      | .ok next => (.ok (), next)

variable {P}

/-- A frame is accepted if it is valid now, and what has not expired neither
has it nor fills the guard. -/
theorem accept_eq_ok_iff {guard : ReplayGuard} {frame : V1.RelayFrame} {nowUnixMs : ℕ} :
    (guard.accept P frame nowUnixMs).1 = .ok () ↔
      Wire.verifyFrameAt frame nowUnixMs = .ok () ∧ ¬ (guard.prune nowUnixMs).Seen P frame ∧
        ¬ (guard.prune nowUnixMs).Full := by
  unfold accept
  cases hverify : Wire.verifyFrameAt frame nowUnixMs with
  | error error => simp
  | ok _ =>
      obtain ⟨_, expires, hexpires, _⟩ := Wire.verifyFrameAt_eq_ok_iff.mp hverify
      have henter : ∀ next, (guard.prune nowUnixMs).enter P frame = .ok next →
          ¬ (guard.prune nowUnixMs).Seen P frame ∧ ¬ (guard.prune nowUnixMs).Full := by
        intro next h
        simp only [enter, bind_eq_ok, failIf_eq_ok, exists_unit] at h
        obtain ⟨_, _, hseen, hfull, _⟩ := h
        exact ⟨hseen, hfull⟩
      cases hentered : (guard.prune nowUnixMs).enter P frame with
      | ok next => simpa using henter next hentered
      | error error =>
          simp only [reduceCtorEq, true_and, false_iff, not_and]
          rintro hseen hfull
          simp [enter, hexpires, hseen, hfull] at hentered

end ReplayGuard

end VorCommander
