import VorCommander.Gateway.Routes
import VorCommander.Hub.Interface
import VorCommander.Hub.Dispatch

/-!
The connections of the two hubs.

A connection of the relay is one task: it writes what is in its channel to the
socket and acts on what it reads. A connection of the private link is two, one
that reads and one that writes. Each loop is given the number of rounds after
which the other side is gone.
-/

namespace VorCommander

open Crypto Steps Steps.Program Text

/-- `accepted_ack` and `private_ack` let an acknowledgement live this long. -/
def ackTtlMs : ℕ := 30000

/-- The acknowledgement of a frame. -/
def ackFrame (deviceId messageId : String) (digest : Hash) (expiresAt : V1.Timestamp)
    (nonce : Random128) : V1.RelayFrame :=
  { wireVersion := Wire.wireVersion
    messageId
    deviceId
    expiresAt := some expiresAt
    nonce := nonce.toList
    payload := some (.ack { messageId, status := "accepted", payloadDigest := digest.toList }) }

/-- When an acknowledgement given now expires; the clock has 64 bits. -/
def ackExpiry (nowUnixMs : ℕ) : Except Unit V1.Timestamp := do
  failIf (2 ^ 64 ≤ nowUnixMs + ackTtlMs) ()
  (Wire.msToTimestamp (nowUnixMs + ackTtlMs)).mapError fun _ => ()

/-! ### The relay -/

/-- What `handle_device` keeps between rounds. -/
structure RelaySession where
  sessionId : Option Random128 := none
  bound : Bool := false
  deriving DecidableEq

/-- How a call of the relay ends. -/
inductive RelayOutcome
  | action (result : Except RelayError V1.ActionResult)
  | refused (code : ℕ)
  | disconnected
  deriving DecidableEq

namespace Relay

variable (P : Primitives) (C : FrameCodec) (deviceId : String) (channel : ℕ)

def sendFrame (item : Outgoing) (frame : V1.RelayFrame) : HubM RelayError Unit := do
  let _ ← check ((Wire.encodeFrame C frame).mapError fun _ => .invalidFrame)
  let sent ← Hub.call (.transmit channel item)
  check (failIf (¬ sent) .webSocket)

/-- What a frame that has been accepted does to the session. -/
def actOnPayload (session : RelaySession) (payload : Option V1.Payload) :
    HubM RelayError RelaySession :=
  match session.bound, payload with
  | false, some (.deviceHello hello) => do
      check (failIf (hello.deviceId ≠ deviceId) .firstFrameMustBeHello)
      let sessionId ← Hub.call .random
      Hub.call (.register deviceId channel sessionId)
      return { sessionId := some sessionId, bound := true }
  | false, _ => throw .firstFrameMustBeHello
  | true, some (.heartbeat _) => return session
  | true, some (.deviceHello hello) => do
      check (failIf (hello.deviceId ≠ deviceId) .unexpectedDevicePayload)
      return session
  | true, some (.actionResult result) => do
      let completion ← Hub.call (.complete channel deviceId result)
      check (failIf (¬ completion.received) .unsolicitedResult)
      return session
  | true, _ => throw .unexpectedDevicePayload

def guardError : GuardError → RelayError
  | .poisoned => .replayPoisoned
  | .refused _ => .invalidFrame

/-- `process_device_frame` up to the acknowledgement, with what that needs. -/
def acceptFrame (session : RelaySession) (bytes : List UInt8) :
    HubM RelayError (V1.RelayFrame × ℕ × RelaySession) := do
  let frame ← check ((Wire.decodeFrame C bytes).mapError fun _ => .invalidFrame)
  check (failIf (frame.deviceId ≠ deviceId) .deviceMismatch)
  let now ← Hub.ask (fun _ => .clock) (perform (I := Hub) .clock)
  Hub.ask guardError (perform (I := Hub) (.accept frame now))
  let session ← actOnPayload deviceId channel session frame.payload
  return (frame, now, session)

/-- The end of `process_device_frame`. -/
def acknowledge (frame : V1.RelayFrame) (now : ℕ) : HubM RelayError Unit := do
  let digest ← check ((Wire.frameDigest P C frame).mapError fun _ => .invalidFrame)
  let expiresAt ← check ((ackExpiry now).mapError fun _ => .clock)
  let nonce ← Hub.call .random
  let ack := ackFrame deviceId frame.messageId digest expiresAt nonce
  sendFrame C channel ⟨.ok ack, none⟩ ack

/-- `process_device_frame`. What it has changed of the session stays changed if
the acknowledgement fails. -/
def processDeviceFrame (session : RelaySession) (bytes : List UInt8) :
    Program Hub (Except RelayError Unit × RelaySession) := do
  match ← (acceptFrame C deviceId channel session bytes).run with
  | .error error => return (.error error, session)
  | .ok (frame, now, session) =>
      let acknowledged ← (acknowledge P C deviceId channel frame now).run
      return (acknowledged, session)

/-- The rounds of `handle_device`. -/
def rounds : ℕ → RelaySession → Program Hub RelaySession
  | 0, session => return session
  | n + 1, session => do
      match ← perform (I := Hub) (.select channel session.bound) with
      | .outgoing none => return session
      | .outgoing (some item) =>
          match item.content with
          | .error _ => return session
          | .ok frame =>
              match ← (sendFrame C channel item frame).run with
              | .error _ => return session
              | .ok () => rounds n session
      | .incoming .gone => return session
      | .incoming .failed => return session
      | .incoming .close => return session
      | .incoming (.binary bytes) =>
          match ← processDeviceFrame P C deviceId channel session bytes with
          | (.error _, session) =>
              let _ ← perform (I := Hub) (.control channel)
              return session
          | (.ok (), session) => rounds n session
      | .incoming .ping =>
          match ← perform (I := Hub) (.control channel) with
          | true => rounds n session
          | false =>
              let _ ← perform (I := Hub) (.control channel)
              return session
      | .incoming .pong => rounds n session
      | .incoming .other =>
          let _ ← perform (I := Hub) (.control channel)
          return session

/-- The end of a connection: it leaves the table if it is still the one there,
and its channel is dropped. -/
def disconnect (sessionId : Option Random128) : Program Hub Unit := do
  match sessionId with
  | some sessionId => perform (I := Hub) (.unregister deviceId sessionId)
  | none => pure ()
  perform (I := Hub) (.closeChannel channel)

/-- `handle_device`. -/
def handleDevice (n : ℕ) : Program Hub RelayOutcome := do
  let channel ← perform (I := Hub) .openChannel
  let session ← rounds P C deviceId channel n {}
  disconnect deviceId channel session.sessionId
  return .disconnected

/-- `device_ws` and the connection it is upgraded to. -/
def deviceWs (authorization : Option String) (deviceId : String) (n : ℕ) :
    Program Hub RelayOutcome :=
  match bearerToken authorization with
  | none => return .refused 401
  | some token => do
      match ← perform (I := Hub) .clock with
      | .error () => return .refused 500
      | .ok now =>
          match ← perform (I := Hub) (.validate token "relay.connect" now) with
          | .error _ => return .refused 401
          | .ok record =>
              if record.actorId = deviceId then handleDevice P C deviceId n
              else return .refused 401

end Relay

/-! ### The private link -/

/-- `is_reserved_windows_name`. -/
def isReservedWindowsName (value : String) : Bool :=
  let stem := (value.toList.splitOn '.').headD value.toList |>.map Char.toUpper
  [['C', 'O', 'N'], ['P', 'R', 'N'], ['A', 'U', 'X'], ['N', 'U', 'L']].contains stem ||
    stem.length = 4 && ([['C', 'O', 'M'], ['L', 'P', 'T']].contains (stem.take 3)) &&
      (stem.drop 3).all fun c => '1' ≤ c && c ≤ '9'

/-- `validate_device_id`. -/
def validDeviceId (value : String) : Bool :=
  match value.toList.head?, value.toList.getLast? with
  | some first, some last =>
      byteLength value ≤ 128 && first.isAlphanum && last.isAlphanum &&
        !containsString value ".." &&
        value.toList.all (fun c => c.isAlphanum || c = '-' || c = '_' || c = '.') &&
        !isReservedWindowsName value
  | _, _ => false

/-- The certificates of the devices that may connect. -/
structure DeviceCertificateRegistry where
  fingerprints : List (String × Hash)
  valid : ∀ entry ∈ fingerprints, validDeviceId entry.1 = true

namespace DeviceCertificateRegistry

def empty : DeviceCertificateRegistry := ⟨[], by simp⟩

/-- One round of `from_certificates`. -/
def insert (P : Primitives) (registry : DeviceCertificateRegistry) (deviceId : String)
    (certificate : List UInt8) : Except PrivateLinkError DeviceCertificateRegistry :=
  if h : validDeviceId deviceId = true then
    if certificate.isEmpty then .error .invalidCertificate
    else if (registry.fingerprints.lookup deviceId).isSome then .error .duplicateDevice
    else .ok
      { fingerprints := (deviceId, P.sha256 certificate) :: registry.fingerprints
        valid := List.forall_mem_cons.mpr ⟨h, registry.valid⟩ }
  else .error .invalidDeviceId

/-- `from_certificates`. -/
def fromCertificates (P : Primitives) (entries : List (String × List UInt8)) :
    Except PrivateLinkError DeviceCertificateRegistry :=
  entries.foldlM (fun registry entry => registry.insert P entry.1 entry.2) empty

/-- `contains_match`. -/
def containsMatch (registry : DeviceCertificateRegistry) (deviceId : String) (fingerprint : Hash) :
    Bool :=
  (registry.fingerprints.lookup deviceId).any (· = fingerprint)

theorem valid_of_containsMatch {registry : DeviceCertificateRegistry} {deviceId : String}
    {fingerprint : Hash} (h : registry.containsMatch deviceId fingerprint = true) :
    validDeviceId deviceId = true := by
  unfold containsMatch at h
  cases hfound : registry.fingerprints.lookup deviceId with
  | none =>
      rw [hfound] at h
      cases h
  | some found =>
      obtain ⟨before, after, hsplit, _⟩ := List.lookup_eq_some_iff.mp hfound
      exact registry.valid (deviceId, found) (by simp [hsplit])

end DeviceCertificateRegistry

/-- How a call of the private link ends. -/
inductive PrivateLinkOutcome
  | action (result : Except PrivateLinkError V1.ActionResult)
  | refused (status : Status)
  | disconnected

/-- What the reading task of a connection keeps between frames. -/
structure PrivateSession where
  boundDevice : Option String := none
  sessionId : Option Random128 := none

namespace PrivateLink

def status (code : StatusCode) (message : String) : Status := ⟨code, message⟩

variable (P : Primitives) (C : FrameCodec) (registry : DeviceCertificateRegistry)
  (fingerprint : Hash) (channel : ℕ)

/-- The device that a valid frame leaves the stream bound to. -/
def bindDevice (boundDevice : Option String) (frame : V1.RelayFrame) : Except Status String :=
  match boundDevice, frame.payload with
  | none, some (.deviceHello hello) => do
      failIf (hello.deviceId ≠ frame.deviceId)
        (status .permissionDenied "device identity mismatch")
      failIf (¬ registry.containsMatch frame.deviceId fingerprint)
        (status .permissionDenied "certificate not registered for device")
      return frame.deviceId
  | none, _ => .error (status .failedPrecondition "first frame must be DeviceHello")
  | some deviceId, some (.heartbeat _) => do
      failIf (deviceId ≠ frame.deviceId)
        (status .permissionDenied "stream device identity changed")
      return deviceId
  | some deviceId, some (.deviceHello hello) => do
      failIf (deviceId ≠ frame.deviceId ∨ hello.deviceId ≠ frame.deviceId)
        (status .permissionDenied "stream device identity changed")
      return deviceId
  | some deviceId, some (.actionResult result) => do
      failIf (deviceId ≠ frame.deviceId ∨ isBlank result.requestId)
        (status .permissionDenied "stream device identity changed")
      return deviceId
  | some _, some (.actionRequest _) =>
      .error (status .unimplemented "inbound control frame is disabled")
  | some _, some (.approvedActionRequest _) =>
      .error (status .unimplemented "inbound control frame is disabled")
  | some _, some (.approvalGrant _) =>
      .error (status .unimplemented "inbound control frame is disabled")
  | some _, some (.policyDecision _) =>
      .error (status .unimplemented "inbound control frame is disabled")
  | some _, _ => .error (status .permissionDenied "stream device identity changed")

def guardError : GuardError → Status
  | .poisoned => status .internal "replay guard unavailable"
  | .refused _ => status .alreadyExists "replayed or invalid relay frame"

/-- `private_ack`. -/
def privateAck (frame : V1.RelayFrame) (now : ℕ) : HubM Status V1.RelayFrame := do
  let failed := status .internal "ack creation failed"
  let expiresAt ← check ((ackExpiry now).mapError fun _ => failed)
  let nonce ← Hub.call .random
  let digest ← check ((Wire.frameDigest P C frame).mapError fun _ => failed)
  return ackFrame frame.deviceId frame.messageId digest expiresAt nonce

/-- `process_private_frame`. After an error the stream ends, so that only the
device of a frame that is acknowledged counts. -/
def processPrivateFrame (boundDevice : Option String) (frame : V1.RelayFrame) :
    HubM Status (String × V1.RelayFrame) := do
  let now ← Hub.ask (fun _ => status .internal "clock failure") (perform (I := Hub) .clock)
  check ((Wire.verifyFrameAt frame now).mapError fun _ =>
    status .invalidArgument "invalid relay frame")
  let deviceId ← check (bindDevice registry fingerprint boundDevice frame)
  Hub.ask guardError (perform (I := Hub) (.accept frame now))
  let ack ← privateAck P C frame now
  return (deviceId, ack)

/-- The session that a device is registered with: the first accepted frame
registers it. -/
def registered (session : PrivateSession) (deviceId : String) : Program Hub PrivateSession :=
  match session.sessionId with
  | some sessionId => return { boundDevice := some deviceId, sessionId := some sessionId }
  | none => do
      let sessionId ← perform (I := Hub) .random
      perform (I := Hub) (.register deviceId channel sessionId)
      return { boundDevice := some deviceId, sessionId := some sessionId }

/-- The result in a frame is handed in, and whether it found a caller does not
matter. -/
def handIn (deviceId : String) (payload : Option V1.Payload) : Program Hub Unit :=
  match payload with
  | some (.actionResult result) => do
      let _ ← perform (I := Hub) (.complete channel deviceId result)
      return ()
  | _ => return ()

/-- The rounds of the reading task. -/
def rounds : ℕ → PrivateSession → Program Hub PrivateSession
  | 0, session => return session
  | n + 1, session => do
      match ← perform (I := Hub) (.receive channel) with
      | .error status =>
          let _ ← perform (I := Hub) (.send channel ⟨.error status, none⟩ false)
          return session
      | .ok none => return session
      | .ok (some frame) =>
          match ← (processPrivateFrame P C registry fingerprint session.boundDevice frame).run with
          | .error status =>
              let _ ← perform (I := Hub) (.send channel ⟨.error status, none⟩ false)
              return session
          | .ok (deviceId, ack) =>
              let session ← registered channel session deviceId
              handIn channel deviceId frame.payload
              match ← perform (I := Hub) (.send channel ⟨.ok ack, none⟩ false) with
              | .sent => rounds n session
              | _ => return session

/-- The end of the reading task. -/
def disconnect (session : PrivateSession) : Program Hub Unit :=
  match session.boundDevice, session.sessionId with
  | some deviceId, some sessionId => perform (I := Hub) (.unregister deviceId sessionId)
  | _, _ => return ()

/-- `connect`, and the task that it spawns. -/
def connect (certificate : Option (List UInt8)) (n : ℕ) : Program Hub PrivateLinkOutcome :=
  match certificate with
  | none => return .refused (status .unauthenticated "client certificate required")
  | some certificate => do
      let channel ← perform (I := Hub) .openChannel
      let session ← rounds P C registry (P.sha256 certificate) channel n {}
      disconnect session
      return .disconnected

/-- The stream that `connect` returns, as it is written to the device. A frame
above `max_encoding_message_size` ends it, and so does a status. -/
def stream : ℕ → Program Hub PrivateLinkOutcome
  | 0 => do
      perform (I := Hub) (.closeChannel channel)
      return .disconnected
  | n + 1 => do
      let item ← perform (I := Hub) (.take channel)
      match item.content with
      | .error _ =>
          let _ ← perform (I := Hub) (.transmit channel item)
          perform (I := Hub) (.closeChannel channel)
          return .disconnected
      | .ok frame =>
          if Wire.maxFrameBytes < (C.encode frame).length then do
            perform (I := Hub) (.closeChannel channel)
            return .disconnected
          else
            match ← perform (I := Hub) (.transmit channel item) with
            | true => stream n
            | false =>
                perform (I := Hub) (.closeChannel channel)
                return .disconnected

end PrivateLink

end VorCommander
