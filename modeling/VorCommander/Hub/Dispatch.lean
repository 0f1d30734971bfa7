import VorCommander.Device.Dispatch
import VorCommander.Hub.Interface

/-!
The callers of the two hubs.

A caller checks its request, looks the device up, takes a slot, sends its frame
and waits. The relay bounds the wait for the result only; the private link
bounds the wait for room in the channel as well, and the number of slots that a
device has. The end of a bounded wait can come at any time.
-/

namespace VorCommander

open Crypto Steps Steps.Program Text

inductive RelayError
  | invalidFrame
  | deviceMismatch
  | firstFrameMustBeHello
  | unexpectedDevicePayload
  | unsolicitedResult
  | invalidActionRequest
  | remoteActionNotAllowed
  | deviceOffline
  | duplicateRequest
  | actionTimeout
  | replayPoisoned
  | clock
  | webSocket
  deriving DecidableEq

inductive PrivateLinkError
  | invalidActionRequest
  | remoteActionNotAllowed
  | deviceOffline
  | duplicateRequest
  | actionTimeout
  | actionExpired
  | tooManyPendingActions
  | clock
  | invalidDeviceId
  | invalidCertificate
  | duplicateDevice
  deriving DecidableEq

namespace Hub

/-- `format!("…{:032x}", rand::random::<u128>())`. -/
def messageId (kind : String) (bits : Random128) : String := kind ++ hexEncode bits.toList

/-- A frame that asks a device to carry out a request, and expires with it. -/
def actionFrame (deviceId messageId : String) (nonce : Random128) (request : V1.ActionRequest)
    (payload : V1.Payload) : V1.RelayFrame :=
  { wireVersion := Wire.wireVersion
    messageId
    deviceId
    expiresAt := request.expiresAt
    nonce := nonce.toList
    payload := some payload }

/-- Why a caller goes away without a result. -/
inductive Unanswered
  | offline
  | timeout
  deriving DecidableEq

/-- A caller gives its key back. -/
def giveUp (key : RequestKey) (slot : ℕ) (reason : Unanswered) :
    HubM Unanswered V1.ActionResult := do
  call (.remove key slot)
  throw reason

/-- What a caller does once it has a slot: it sends the frame and waits. -/
def sendAndAwait (key : RequestKey) (sender slot : ℕ) (frame : V1.RelayFrame) (bounded : Bool) :
    HubM Unanswered V1.ActionResult := do
  match ← call (.send sender ⟨.ok frame, some slot⟩ bounded) with
  | .closed => giveUp key slot .offline
  | .elapsed => giveUp key slot .timeout
  | .sent =>
      match ← call (.await slot) with
      | .answered answer => return answer.result
      | .closed => giveUp key slot .offline
      | .elapsed => giveUp key slot .timeout

end Hub

/-! ### The relay -/

namespace RelayHub

def unanswered : Hub.Unanswered → RelayError
  | .offline => .deviceOffline
  | .timeout => .actionTimeout

/-- The second half of both dispatch functions, which is the same. -/
def submit (deviceId kind : String) (request : V1.ActionRequest) (payload : V1.Payload) :
    HubM RelayError V1.ActionResult := do
  let found ← Hub.call (.lookup deviceId)
  let session ← check (orFail found .deviceOffline)
  let key := (deviceId, request.requestId)
  match ← Hub.call (.reserve key none) with
  | .duplicate => throw .duplicateRequest
  | .tooMany => throw .duplicateRequest
  | .reserved slot =>
      let bits ← Hub.call .random
      let nonce ← Hub.call .random
      let frame := Hub.actionFrame deviceId (Hub.messageId kind bits) nonce request payload
      ExceptT.adapt unanswered (Hub.sendAndAwait key session.sender slot frame false)

variable (L : Libraries)

/-- The checks of `dispatch_action`. -/
def actionChecks (deviceId : String) (request : V1.ActionRequest) : Except RelayError Unit := do
  let canonical ← (Wire.actionRequestFromProto L request).mapError fun _ => .invalidActionRequest
  failIf (canonical.envelope.deviceId ≠ deviceId ∨ isBlank request.requestId) .invalidActionRequest
  failIf (¬ remoteActionAllowed canonical.envelope.action ∧
    ¬ remoteApprovedActionAllowed canonical.envelope.action) .remoteActionNotAllowed

def dispatchAction (deviceId : String) (request : V1.ActionRequest) :
    HubM RelayError V1.ActionResult := do
  check (actionChecks L deviceId request)
  submit deviceId "action-" request (.actionRequest request)

/-- The checks of `dispatch_approved_action`. -/
def approvedChecks (deviceId : String) (request : V1.ActionRequest) (approval : V1.ApprovalGrant) :
    Except RelayError Unit := do
  let canonical ← (Wire.actionRequestFromProto L request).mapError fun _ => .invalidActionRequest
  let approved ← (Wire.approvalGrantFromProto approval).mapError fun _ => .invalidActionRequest
  failIf (canonical.envelope.deviceId ≠ deviceId ∨ isBlank request.requestId ∨
    approved.challenge.requestId ≠ canonical.envelope.requestId ∨
    approved.challenge.envelopeDigest ≠ canonical.envelopeDigest) .invalidActionRequest
  failIf (¬ remoteApprovedActionAllowed canonical.envelope.action) .remoteActionNotAllowed

def dispatchApprovedAction (deviceId : String) (request : V1.ActionRequest)
    (approval : V1.ApprovalGrant) : HubM RelayError V1.ActionResult := do
  check (approvedChecks L deviceId request approval)
  submit deviceId "approved-action-" request
    (.approvedActionRequest { request := some request, approval := some approval })

end RelayHub

/-! ### The private link -/

namespace PrivateLinkHub

def maxPendingActionsPerDevice : ℕ := 256

/-- `timestamp_to_ms` of this crate, which does not bound the nanoseconds. -/
def timestampToMs (value : V1.Timestamp) : Option ℕ :=
  if 0 ≤ value.seconds ∧ 0 ≤ value.nanos ∧
      value.seconds.toNat * 1000 + value.nanos.toNat / 1000000 < 2 ^ 64 then
    some (value.seconds.toNat * 1000 + value.nanos.toNat / 1000000)
  else none

def unanswered : Hub.Unanswered → PrivateLinkError
  | .offline => .deviceOffline
  | .timeout => .actionTimeout

def sendAndWait (deviceId requestId : String) (expiresAtUnixMs : ℕ) (frame : V1.RelayFrame) :
    HubM PrivateLinkError V1.ActionResult := do
  let now ← Hub.ask (fun _ => .clock) (perform (I := Hub) .clock)
  check (failIf (expiresAtUnixMs ≤ now) .actionExpired)
  let found ← Hub.call (.lookup deviceId)
  let session ← check (orFail found .deviceOffline)
  let key := (deviceId, requestId)
  match ← Hub.call (.reserve key (some maxPendingActionsPerDevice)) with
  | .duplicate => throw .duplicateRequest
  | .tooMany => throw .tooManyPendingActions
  | .reserved slot =>
      ExceptT.adapt unanswered (Hub.sendAndAwait key session.sender slot frame true)

/-- The checks of `dispatch_action`; they return the expiry. -/
def actionChecks (deviceId : String) (request : V1.ActionRequest) :
    Except PrivateLinkError ℕ := do
  failIf (request.deviceId ≠ deviceId ∨ isBlank request.requestId) .invalidActionRequest
  failIf (¬ remoteActionAllowed request.action ∧ ¬ remoteApprovedActionAllowed request.action)
    .remoteActionNotAllowed
  orFail (request.expiresAt.bind timestampToMs) .actionExpired

def dispatchAction (deviceId : String) (request : V1.ActionRequest) :
    HubM PrivateLinkError V1.ActionResult := do
  let expiresAtUnixMs ← check (actionChecks deviceId request)
  let bits ← Hub.call .random
  let nonce ← Hub.call .random
  let frame := Hub.actionFrame deviceId (Hub.messageId "action-" bits) nonce request
    (.actionRequest request)
  sendAndWait deviceId request.requestId expiresAtUnixMs frame

variable (L : Libraries)

/-- The checks of `dispatch_approved_action`; they return the expiry. -/
def approvedChecks (deviceId : String) (request : V1.ActionRequest) (approval : V1.ApprovalGrant) :
    Except PrivateLinkError ℕ := do
  let canonical ← (Wire.actionRequestFromProto L request).mapError fun _ => .invalidActionRequest
  let approved ← (Wire.approvalGrantFromProto approval).mapError fun _ => .invalidActionRequest
  failIf (canonical.envelope.deviceId ≠ deviceId ∨ isBlank request.requestId ∨
    approved.challenge.requestId ≠ canonical.envelope.requestId ∨
    approved.challenge.envelopeDigest ≠ canonical.envelopeDigest) .invalidActionRequest
  failIf (¬ remoteApprovedActionAllowed canonical.envelope.action) .remoteActionNotAllowed
  return canonical.envelope.expiresAtUnixMs

def dispatchApprovedAction (deviceId : String) (request : V1.ActionRequest)
    (approval : V1.ApprovalGrant) : HubM PrivateLinkError V1.ActionResult := do
  let expiresAtUnixMs ← check (approvedChecks L deviceId request approval)
  let bits ← Hub.call .random
  let nonce ← Hub.call .random
  let frame := Hub.actionFrame deviceId (Hub.messageId "approved-action-" bits) nonce request
    (.approvedActionRequest { request := some request, approval := some approval })
  sendAndWait deviceId request.requestId expiresAtUnixMs frame

end PrivateLinkHub

end VorCommander
