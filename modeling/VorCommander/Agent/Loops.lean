import VorCommander.Device.Dispatch
import VorCommander.Hub.Sessions
import VorCommander.Steps.Mutex

/-!
The two loops of a device.

A device is connected to the relay by a socket, or to a private link by a stream.
Either loop says hello, waits for the acknowledgement and serves the requests that
come in; when a session ends with an error it waits and connects again. The
requests of all loops go to one dispatcher behind a mutex. What a loop does with
one event is a function here: what it hears, what the clock says, what is drawn,
and whether it can send, are given.
-/

namespace VorCommander

open Crypto Steps Text

/-- What a device is asked to carry out. -/
inductive Asked
  | request (request : V1.ActionRequest)
  | approved (approved : V1.ApprovedActionRequest)
  deriving DecidableEq

/-- The calls of a dispatcher, which may panic. `ε` is what surrounds a call. -/
abbrev DispatcherCalls (ε σ : Type) :=
  ε → Asked → Guarded σ (Except DispatchError V1.ActionResult)

/-- What is around a loop while it handles an event: the clock when it takes the
event up and when it makes a frame of its own, what is drawn for that frame, whether
what it sends goes out, whether it has been cancelled, and what surrounds the
dispatcher. -/
structure LoopSurroundings (ε : Type) where
  now : Option ℕ
  later : Option ℕ
  messageId : Random128
  nonce : Random128
  sends : Bool
  cancelled : Bool
  dispatcher : ε

/-- How long a frame of the device lives. -/
def frameTtlMs : ℕ := 30000

/-- The expiry of a frame that is made now; the clock has 64 bits. -/
def frameExpiry (nowUnixMs : ℕ) : Except WireError V1.Timestamp := do
  failIf (2 ^ 64 ≤ nowUnixMs + frameTtlMs) .invalidTimestamp
  Wire.msToTimestamp (nowUnixMs + frameTtlMs)

/-- What a message has the loop do, and the session that goes on with it. -/
inductive Work (σ : Type)
  | go (session : σ)
  | dispatch (session : σ) (asked : Asked)

/-- What one event amounts to: how the session goes on, what is left of the mutex,
what was dispatched and what was sent. -/
structure Turn (ε σ δ : Type) where
  next : Except ε σ
  mutex : Mutex δ
  dispatched : Option Asked := none
  sent : List V1.RelayFrame := []

/-- A turn that ends with a frame of the device's own. -/
def Turn.sending {ε σ δ : Type} (mutex : Mutex δ) (dispatched : Option Asked) :
    Except ε (σ × V1.RelayFrame) → Turn ε σ δ
  | .error error => { next := .error error, mutex, dispatched }
  | .ok (session, frame) => { next := .ok session, mutex, dispatched, sent := [frame] }

/-- Where a loop stands: it connects, it waits for the acknowledgement of its hello, it
serves, it waits before it connects again, or it has come to its end. -/
inductive Phase (γ σ : Type)
  | connecting (attempt : ℕ)
  | greeting (attempt : ℕ) (hello : γ)
  | serving (attempt : ℕ) (session : σ)
  | waiting (attempt delayMs : ℕ)
  | stopped

/-- What comes to a loop. -/
inductive LoopEvent (μ : Type)
  | cancelled
  | connected (established : Bool)
  | heard (message : μ)
  | tick
  | elapsed

/-- What a loop has done with an event. -/
structure Deed where
  dispatched : Option Asked := none
  sent : List V1.RelayFrame := []
  deriving DecidableEq

/-- A session goes on after a turn, or it has failed. -/
def Turn.settle {ε γ σ δ : Type} (turn : Turn ε σ δ) (attempt : ℕ) (failed : Phase γ σ) :
    Deed × Phase γ σ × Mutex δ :=
  match turn.next with
  | .ok session => (⟨turn.dispatched, turn.sent⟩, .serving attempt session, turn.mutex)
  | .error _ => (⟨turn.dispatched, turn.sent⟩, failed, turn.mutex)

/-- `saturating_add(1)`. -/
def nextAttempt (attempt : ℕ) : ℕ := min (attempt + 1) (2 ^ 32 - 1)

/-! ### The loop of the relay -/

inductive RemoteError
  | clock
  | relayClosed
  | unexpectedRelayMessage
  | unexpectedRelayPayload
  | invalidHeartbeat
  | dispatcherTask
  | dispatcherUnavailable
  | tooManyPendingAcks
  | duplicateOutboundMessage
  | ackMismatch
  | wire (error : FrameError)
  | webSocket
  deriving DecidableEq

/-- The part of `RemoteConfig` that the loop looks at. -/
structure RemoteConfig where
  deviceId : String
  agentVersion : String
  secure : Bool
  heartbeatIntervalMs : ℕ
  minDelayMs : ℕ
  maxDelayMs : ℕ

/-- `ReconnectPolicy::delay_for`. -/
def RemoteConfig.delayFor (config : RemoteConfig) (attempt : ℕ) : ℕ :=
  min (config.minDelayMs * 2 ^ min attempt 16) config.maxDelayMs

/-- What `dispatch_loop` keeps between events. -/
structure DispatchSession where
  pendingAcks : List (String × Hash) := []
  replay : ReplayGuard

/-- The hello is kept with its digest until it is acknowledged. -/
abbrev RemotePhase := Phase (V1.RelayFrame × Hash) DispatchSession

namespace RemoteClient

variable (P : Primitives) (C : FrameCodec) (config : RemoteConfig)

def maxPendingAcks : ℕ := 128

/-- `RemoteClient::frame`. -/
def frame (nowUnixMs : ℕ) (messageId nonce : Random128) (payload : V1.Payload) :
    Except RemoteError V1.RelayFrame := do
  let expiresAt ← (frameExpiry nowUnixMs).mapError fun _ => .clock
  return { wireVersion := Wire.wireVersion
           messageId := hexEncode messageId.toList
           deviceId := config.deviceId
           expiresAt := some expiresAt
           nonce := nonce.toList
           payload := some payload }

/-- `device_hello_frame`. -/
def deviceHelloFrame (nowUnixMs : ℕ) (messageId nonce : Random128) :
    Except RemoteError V1.RelayFrame :=
  frame config nowUnixMs messageId nonce <| .deviceHello
    { deviceId := config.deviceId
      agentVersion := config.agentVersion
      transports := [if config.secure then "wss+protobuf" else "ws-loopback-dev"]
      capabilities :=
        ["relay.heartbeat", "filesystem.read", "filesystem.list", "filesystem.search_files",
          "filesystem.search_content", "filesystem.info", "git.status", "git.diff",
          "process.list", "process.inspect", "filesystem.write.approval",
          "terminal.exec.approval", "terminal.poll", "terminal.cancel"] }

/-- `heartbeat_frame`. -/
def heartbeatFrame (nowUnixMs : ℕ) (messageId nonce : Random128) :
    Except RemoteError V1.RelayFrame := do
  let sentAt ← (Wire.msToTimestamp nowUnixMs).mapError fun _ => .clock
  frame config nowUnixMs messageId nonce (.heartbeat { sentAt := some sentAt })

/-- `send_tracked`: the digest of a frame that has been sent is kept until it is
acknowledged. -/
def sendTracked (sends : Bool) (frame : V1.RelayFrame) (session : DispatchSession) :
    Except RemoteError (DispatchSession × V1.RelayFrame) := do
  failIf (maxPendingAcks ≤ session.pendingAcks.length) .tooManyPendingAcks
  failIf (frame.messageId ∈ session.pendingAcks.map (·.1)) .duplicateOutboundMessage
  let digest ← (Wire.frameDigest P C frame).mapError .wire
  failIf (¬ sends) .webSocket
  let pendingAcks := (frame.messageId, digest) :: session.pendingAcks
  return ({ session with pendingAcks }, frame)

/-- `accept_tracked_ack`. -/
def acceptTrackedAck (frameMessageId : String) (ack : V1.RelayAck) (session : DispatchSession) :
    Except RemoteError DispatchSession := do
  failIf (frameMessageId ≠ ack.messageId ∨ ack.status ≠ "accepted") .ackMismatch
  let expected ← orFail (session.pendingAcks.lookup ack.messageId) .ackMismatch
  failIf (ack.payloadDigest ≠ expected.toList) .ackMismatch
  let pendingAcks := session.pendingAcks.filter fun entry => entry.1 ≠ ack.messageId
  return { session with pendingAcks }

/-- The first half of `send_expect_ack`, in which the hello is sent. -/
def sendHello (now : Option ℕ) (messageId nonce : Random128) (sends : Bool) :
    Except RemoteError (V1.RelayFrame × Hash) := do
  let now ← orFail now .clock
  let hello ← deviceHelloFrame config now messageId nonce
  let digest ← (Wire.frameDigest P C hello).mapError .wire
  failIf (¬ sends) .webSocket
  return (hello, digest)

/-- The frame that `send_expect_ack` waits for. -/
def expectAck (hello : V1.RelayFrame) (digest : Hash) (response : V1.RelayFrame) :
    Except RemoteError Unit := do
  failIf (response.deviceId ≠ hello.deviceId) .ackMismatch
  match response.payload with
  | some (.ack ack) =>
      failIf (ack.messageId ≠ hello.messageId ∨ ack.status ≠ "accepted" ∨
        ack.payloadDigest ≠ digest.toList) .ackMismatch
  | _ => throw .ackMismatch

/-- The second half of `send_expect_ack` hears a message: whether the acknowledgement
has come. -/
def awaitAck (hello : V1.RelayFrame) (digest : Hash) (now : Option ℕ) (sends : Bool) :
    SocketMessage → Except RemoteError Bool
  | .gone => throw .relayClosed
  | .failed => throw .webSocket
  | .binary bytes => do
      let response ← (Wire.decodeFrame C bytes).mapError .wire
      let now ← orFail now .clock
      (Wire.verifyFrameAt response now).mapError .wire
      expectAck hello digest response
      return true
  | .ping => do
      failIf (¬ sends) .webSocket
      return false
  | .pong => return false
  | .close => throw .relayClosed
  | .other => throw .unexpectedRelayMessage

/-- `dispatch_loop` before its first event. -/
def beginDispatch : Except RemoteError DispatchSession := do
  failIf (config.heartbeatIntervalMs = 0) .invalidHeartbeat
  let replay ← (ReplayGuard.new 4096).mapError .wire
  return { replay }

/-- What a message has `dispatch_loop` do. -/
def work (session : DispatchSession) (now : Option ℕ) (sends : Bool) :
    SocketMessage → Except RemoteError (Work DispatchSession)
  | .gone => throw .relayClosed
  | .failed => throw .webSocket
  | .binary bytes => do
      let frame ← (Wire.decodeFrame C bytes).mapError .wire
      let now ← orFail now .clock
      (Wire.verifyFrameAt frame now).mapError .wire
      failIf (frame.deviceId ≠ config.deviceId) .ackMismatch
      (session.replay.accept P frame now).1.mapError .wire
      let session := { session with replay := (session.replay.accept P frame now).2 }
      match frame.payload with
      | some (.ack ack) => return .go (← acceptTrackedAck frame.messageId ack session)
      | some (.actionRequest request) => return .dispatch session (.request request)
      | some (.approvedActionRequest approved) => return .dispatch session (.approved approved)
      | _ => throw .unexpectedRelayPayload
  | .ping => do
      failIf (¬ sends) .webSocket
      return .go session
  | .pong => return .go session
  | .close => throw .relayClosed
  | .other => throw .unexpectedRelayMessage

variable {ε δ : Type}

/-- The worker that `dispatch_loop` spawns: it does not take the lock if that is
poisoned, and if it panics its task has failed. -/
def worker (calls : DispatcherCalls ε δ) (o : ε) (asked : Asked) (mutex : Mutex δ) :
    Option Asked × Except RemoteError V1.ActionResult × Mutex δ :=
  match mutex.withLock (calls o asked) with
  | (none, mutex) => (none, .error .dispatcherUnavailable, mutex)
  | (some .panicked, mutex) => (some asked, .error .dispatcherTask, mutex)
  | (some (.returned (.error _)), mutex) => (some asked, .error .dispatcherUnavailable, mutex)
  | (some (.returned (.ok result)), mutex) => (some asked, .ok result, mutex)

/-- `dispatch_loop` hears a message. -/
def hear (calls : DispatcherCalls ε δ) (session : DispatchSession) (o : LoopSurroundings ε)
    (message : SocketMessage) (mutex : Mutex δ) : Turn RemoteError DispatchSession δ :=
  match work P C config session o.now o.sends message with
  | .error error => { next := .error error, mutex }
  | .ok (.go session) => { next := .ok session, mutex }
  | .ok (.dispatch session asked) =>
      match worker calls o.dispatcher asked mutex with
      | (dispatched, result, mutex) =>
          Turn.sending mutex dispatched do
            let result ← result
            let now ← orFail o.later .clock
            let frame ← frame config now o.messageId o.nonce (.actionResult result)
            sendTracked P C o.sends frame session

/-- A heartbeat is due in `dispatch_loop`. -/
def tick (session : DispatchSession) (o : LoopSurroundings ε) (mutex : Mutex δ) :
    Turn RemoteError DispatchSession δ :=
  Turn.sending mutex none do
    let now ← orFail o.now .clock
    let frame ← heartbeatFrame config now o.messageId o.nonce
    sendTracked P C o.sends frame session

/-- `run_dispatch_until_cancelled` waits before it connects again. -/
def waitReconnect (attempt : ℕ) : RemotePhase :=
  .waiting (nextAttempt attempt) (config.delayFor attempt)

/-- One event of `run_dispatch_until_cancelled`. -/
def step (calls : DispatcherCalls ε δ) (o : LoopSurroundings ε) (event : LoopEvent SocketMessage)
    (phase : RemotePhase) (mutex : Mutex δ) : Deed × RemotePhase × Mutex δ :=
  match phase, event with
  | .stopped, _ => ({}, .stopped, mutex)
  | _, .cancelled => ({}, .stopped, mutex)
  | .connecting attempt, .connected false => ({}, waitReconnect config attempt, mutex)
  | .connecting attempt, .connected true =>
      match sendHello P C config o.now o.messageId o.nonce o.sends with
      | .error _ => ({}, waitReconnect config attempt, mutex)
      | .ok (hello, digest) => ({ sent := [hello] }, .greeting attempt (hello, digest), mutex)
  | .greeting attempt (hello, digest), .heard message =>
      match awaitAck C hello digest o.now o.sends message with
      | .error _ => ({}, waitReconnect config attempt, mutex)
      | .ok false => ({}, .greeting attempt (hello, digest), mutex)
      | .ok true =>
          match beginDispatch config with
          | .error _ => ({}, if o.cancelled then .stopped else waitReconnect config 0, mutex)
          | .ok session => ({}, .serving 0 session, mutex)
  | .serving attempt session, .heard message =>
      (hear P C config calls session o message mutex).settle attempt <|
        if o.cancelled then .stopped else waitReconnect config attempt
  | .serving attempt session, .tick =>
      (tick P C config session o mutex).settle attempt <|
        if o.cancelled then .stopped else waitReconnect config attempt
  | .waiting attempt _, .elapsed => ({}, .connecting attempt, mutex)
  | phase, _ => ({}, phase, mutex)

end RemoteClient

/-! ### The loop of the private link -/

/-- The errors that `run_device_dispatch` ends with. -/
inductive DeviceLinkError
  | clock
  | clientChannelClosed
  | invalidServerFrame
  | invalidReplayCapacity
  | status (status : Status)
  | frame (error : FrameError)
  | dispatch (error : DispatchError)
  | task
  deriving DecidableEq

structure PrivateDeviceClientConfig where
  endpoint : String
  serverName : String
  deviceId : String
  caPem : List UInt8
  deviceCertPem : List UInt8
  deviceKeyPem : List UInt8
  agentVersion : String
  heartbeatIntervalMs : ℕ
  replayCapacity : ℕ

/-- `PrivateDeviceClientConfig::validate`. -/
def PrivateDeviceClientConfig.valid (config : PrivateDeviceClientConfig) : Bool :=
  validDeviceId config.deviceId && "https://".toList.isPrefixOf config.endpoint.toList &&
    !isBlank config.serverName && !config.caPem.isEmpty && !config.deviceCertPem.isEmpty &&
    !config.deviceKeyPem.isEmpty && config.heartbeatIntervalMs ≠ 0 && config.replayCapacity ≠ 0

abbrev PrivatePhase := Phase V1.RelayFrame ReplayGuard

namespace PrivateDevice

variable (P : Primitives) (C : FrameCodec) (config : PrivateDeviceClientConfig)

/-- `device_outbound_frame`. -/
def deviceOutboundFrame (now : Option ℕ) (messageId nonce : Random128) (payload : V1.Payload) :
    Except DeviceLinkError V1.RelayFrame := do
  let now ← orFail now .clock
  let expiresAt ← (frameExpiry now).mapError fun _ => .clock
  return { wireVersion := Wire.wireVersion
           messageId := Hub.messageId "device-" messageId
           deviceId := config.deviceId
           expiresAt := some expiresAt
           nonce := nonce.toList
           payload := some payload }

/-- `run_device_dispatch` up to the first frame that it waits for. -/
def sendHello (now : Option ℕ) (messageId nonce : Random128) (sends : Bool) :
    Except DeviceLinkError V1.RelayFrame := do
  let hello ← deviceOutboundFrame config now messageId nonce <| .deviceHello
    { deviceId := config.deviceId
      agentVersion := config.agentVersion
      transports := ["grpc+mtls"]
      capabilities :=
        ["filesystem.read", "filesystem.list", "filesystem.search_files",
          "filesystem.search_content", "filesystem.info", "git.status", "git.diff",
          "process.list", "process.inspect", "filesystem.write.approval",
          "terminal.exec.approval", "terminal.poll", "terminal.cancel"] }
  failIf (¬ sends) .clientChannelClosed
  return hello

/-- `verify_server_ack`. -/
def verifyServerAck (hello : V1.RelayFrame) (now : Option ℕ) (frame : V1.RelayFrame) :
    Except DeviceLinkError Unit := do
  let now ← orFail now .clock
  (Wire.verifyFrameAt frame now).mapError fun _ => .invalidServerFrame
  failIf (frame.deviceId ≠ config.deviceId) .invalidServerFrame
  match frame.payload with
  | some (.ack ack) =>
      failIf (ack.messageId ≠ hello.messageId) .invalidServerFrame
      let digest ← (Wire.frameDigest P C hello).mapError .frame
      failIf (ack.payloadDigest ≠ digest.toList ∨ ack.status ≠ "accepted") .invalidServerFrame
  | _ => throw .invalidServerFrame

/-- What comes in on a stream, `inbound.message()`. -/
def message (received : Except Status (Option V1.RelayFrame)) :
    Except DeviceLinkError V1.RelayFrame := do
  let frame ← received.mapError .status
  orFail frame .clientChannelClosed

/-- `run_device_dispatch` before its first event. -/
def beginDispatch (hello : V1.RelayFrame) (now : Option ℕ)
    (received : Except Status (Option V1.RelayFrame)) : Except DeviceLinkError ReplayGuard := do
  let first ← message received
  verifyServerAck P C config hello now first
  (ReplayGuard.new config.replayCapacity).mapError fun _ => .invalidReplayCapacity

/-- What a frame has `run_device_dispatch` do. -/
def work (replay : ReplayGuard) (now : Option ℕ)
    (received : Except Status (Option V1.RelayFrame)) :
    Except DeviceLinkError (Work ReplayGuard) := do
  let frame ← message received
  let now ← orFail now .clock
  (Wire.verifyFrameAt frame now).mapError fun _ => .invalidServerFrame
  failIf (frame.deviceId ≠ config.deviceId) .invalidServerFrame
  (replay.accept P frame now).1.mapError fun _ => .invalidServerFrame
  let replay := (replay.accept P frame now).2
  match frame.payload with
  | some (.ack _) => return .go replay
  | some (.actionRequest request) => return .dispatch replay (.request request)
  | some (.approvedActionRequest approved) => return .dispatch replay (.approved approved)
  | _ => throw .invalidServerFrame

variable {ε δ : Type}

/-- The worker that `run_device_dispatch` spawns, with `lock_dispatcher`. -/
def worker (calls : DispatcherCalls ε δ) (o : ε) (asked : Asked) (mutex : Mutex δ) :
    Except DeviceLinkError V1.ActionResult × Mutex δ :=
  match mutex.withRecovered (calls o asked) with
  | (.panicked, mutex) => (.error .task, mutex)
  | (.returned (.error error), mutex) => (.error (.dispatch error), mutex)
  | (.returned (.ok result), mutex) => (.ok result, mutex)

/-- `run_device_dispatch` hears a frame. -/
def hear (calls : DispatcherCalls ε δ) (replay : ReplayGuard) (o : LoopSurroundings ε)
    (received : Except Status (Option V1.RelayFrame)) (mutex : Mutex δ) :
    Turn DeviceLinkError ReplayGuard δ :=
  match work P config replay o.now received with
  | .error error => { next := .error error, mutex }
  | .ok (.go replay) => { next := .ok replay, mutex }
  | .ok (.dispatch replay asked) =>
      match worker calls o.dispatcher asked mutex with
      | (result, mutex) =>
          Turn.sending mutex (some asked) do
            let result ← result
            let frame ← deviceOutboundFrame config o.later o.messageId o.nonce
              (.actionResult result)
            failIf (¬ o.sends) .clientChannelClosed
            return (replay, frame)

/-- A heartbeat is due in `run_device_dispatch`. -/
def tick (replay : ReplayGuard) (o : LoopSurroundings ε) (mutex : Mutex δ) :
    Turn DeviceLinkError ReplayGuard δ :=
  Turn.sending mutex none do
    let sentAt ← orFail o.now .clock
    let sentAt ← (Wire.msToTimestamp sentAt).mapError fun _ => .clock
    let frame ← deviceOutboundFrame config o.later o.messageId o.nonce
      (.heartbeat { sentAt := some sentAt })
    failIf (¬ o.sends) .clientChannelClosed
    return (replay, frame)

/-- What `run_device_dispatch_until_cancelled` does after a session has failed. -/
def failed (cancelled : Bool) (attempt : ℕ) : PrivatePhase :=
  if cancelled then .stopped
  else .waiting (nextAttempt attempt) (min (250 * 2 ^ min attempt 4) 5000)

/-- One event of `run_device_dispatch_until_cancelled`. A cancellation is not seen
before the session serves. -/
def step (calls : DispatcherCalls ε δ) (o : LoopSurroundings ε)
    (event : LoopEvent (Except Status (Option V1.RelayFrame))) (phase : PrivatePhase)
    (mutex : Mutex δ) : Deed × PrivatePhase × Mutex δ :=
  match phase, event with
  | .connecting attempt, .connected false => ({}, failed o.cancelled attempt, mutex)
  | .connecting attempt, .connected true =>
      match sendHello config o.now o.messageId o.nonce o.sends with
      | .error _ => ({}, failed o.cancelled attempt, mutex)
      | .ok hello => ({ sent := [hello] }, .greeting attempt hello, mutex)
  | .greeting attempt hello, .heard received =>
      match beginDispatch P C config hello o.now received with
      | .error _ => ({}, failed o.cancelled attempt, mutex)
      | .ok replay => ({}, .serving attempt replay, mutex)
  | .serving attempt replay, .heard received =>
      (hear P config calls replay o received mutex).settle attempt (failed o.cancelled attempt)
  | .serving attempt replay, .tick =>
      (tick config replay o mutex).settle attempt (failed o.cancelled attempt)
  | .serving _ _, .cancelled => ({}, .stopped, mutex)
  | .waiting _ _, .cancelled => ({}, .stopped, mutex)
  | .waiting attempt _, .elapsed => ({}, .connecting attempt, mutex)
  | phase, _ => ({}, phase, mutex)

end PrivateDevice

end VorCommander
