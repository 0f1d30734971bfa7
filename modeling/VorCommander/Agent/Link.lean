import VorCommander.Agent.Panics
import VorCommander.Hub.Guarantee

/-!
Acknowledgements between a device and the relay.

Over one connection frames arrive in the order in which they were sent. The relay takes a
frame, acts upon it and acknowledges it before it takes the next one, and in between it
hands requests on; the device keeps the digest of each frame that it has sent until it is
acknowledged. At every moment what the device waits for is what is on its way, in that
order: acknowledgements, the frame the relay is at, and frames that it has not taken.
-/

namespace VorCommander

open Crypto Steps Steps.Program Text

variable {P : Primitives} {C : FrameCodec} {deviceId : String} {channel : ℕ} {h : History Hub}
  {session : RelaySession} {bytes : List UInt8}

/-! ### What the relay says -/

/-- What the connection has taken and has not dealt with. -/
def unsettled : History Hub → Option SocketEvent
  | [] => none
  | ⟨.select _ _, event⟩ :: _ => some event
  | ⟨.transmit _ _, _⟩ :: _ => none
  | ⟨.control _, _⟩ :: _ => none
  | _ :: h => unsettled h

/-- The connection takes nothing any more: it could not send a frame, or it has given up a
frame that it was at. -/
def closing : History Hub → Bool
  | [] => false
  | ⟨.transmit _ _, sent⟩ :: h => !sent || closing h
  | ⟨.control _, _⟩ :: h =>
      (match unsettled h with
        | some (.incoming (.binary _)) => true
        | _ => false) || closing h
  | _ :: h => closing h

/-- The connection has sent a frame. -/
def spoken : History Hub → Bool
  | [] => false
  | ⟨.transmit _ _, _⟩ :: _ => true
  | _ :: h => spoken h

/-- The operations that leave the socket alone. -/
def HubOp.offSocket : HubOp → Bool
  | .select _ _ | .transmit _ _ | .control _ => false
  | _ => true

theorem unsettled_cons {e : Event Hub} (he : e.op.offSocket = true) :
    unsettled (e :: h) = unsettled h := by
  obtain ⟨op, reply⟩ := e
  cases op <;> first | rfl | exact absurd he Bool.false_ne_true

theorem closing_cons {e : Event Hub} (he : e.op.offSocket = true) :
    closing (e :: h) = closing h := by
  obtain ⟨op, reply⟩ := e
  cases op <;> first | rfl | exact absurd he Bool.false_ne_true

theorem spoken_cons {e : Event Hub} (he : e.op.offSocket = true) : spoken (e :: h) = spoken h := by
  obtain ⟨op, reply⟩ := e
  cases op <;> first | rfl | exact absurd he Bool.false_ne_true

/-- The frame is the acknowledgement of what was taken. -/
def Acks (P : Primitives) (C : FrameCodec) (deviceId : String) (bytes : List UInt8)
    (frame : V1.RelayFrame) : Prop :=
  ∃ received digest expiresAt nonce, Wire.decodeFrame C bytes = .ok received ∧
    Wire.frameDigest P C received = .ok digest ∧
    frame = ackFrame deviceId received.messageId digest expiresAt nonce

/-- What is sent is the acknowledgement of the frame that was taken, or what was in the
channel, and then a frame has been acknowledged before. -/
def Speaks (P : Primitives) (C : FrameCodec) (deviceId : String) (h : History Hub) : HubOp → Prop
  | .transmit _ item => closing h = false ∧ ∃ frame, item.content = .ok frame ∧
      (∃ bytes, Wire.encodeFrame C frame = .ok bytes) ∧
      ((∃ bytes, unsettled h = some (.incoming (.binary bytes)) ∧ Acks P C deviceId bytes frame) ∨
        (unsettled h = some (.outgoing (some item)) ∧ spoken h = true))
  | .select _ bound => closing h = false ∧ (bound = true → spoken h = true) ∧
      ∀ bytes, unsettled h ≠ some (.incoming (.binary bytes))
  | _ => True

/-- Before the hello nothing is taken out of the channel. -/
def Guards (_ : History Hub) : Event Hub → Prop
  | ⟨.select _ bound, .outgoing _⟩ => bound = true
  | _ => True

abbrev RelaySpeaks (P : Primitives) (C : FrameCodec) (deviceId : String)
    {α : Type} (p : Program Hub α)
    (h : History Hub) (Q : History Hub → α → Prop) : Prop :=
  Safe Guards (Speaks P C deviceId) Q p h

/-- The connection is at a frame. -/
structure AtFrame (h : History Hub) (bytes : List UInt8) : Prop where
  unsettled : unsettled h = some (.incoming (.binary bytes))
  closing : closing h = false

theorem AtFrame.cons {e : Event Hub} (hat : AtFrame h bytes) (he : e.op.offSocket = true) :
    AtFrame (e :: h) bytes :=
  ⟨(unsettled_cons he).trans hat.unsettled, (closing_cons he).trans hat.closing⟩

/-- A connection: the loop of the device with the mutex of its dispatcher, what is left of
the task of the relay and what that has done, and the frames on their way. -/
structure RelayLink (δ : Type) where
  device : RemotePhase
  mutex : Mutex δ
  relay : Program Hub RelayOutcome
  log : History Hub := []
  up : List V1.RelayFrame
  down : List V1.RelayFrame := []

namespace RelayLink

variable {ε δ : Type}

/-- The device hears an event. -/
def hear (P : Primitives) (C : FrameCodec) (config : RemoteConfig) (calls : DispatcherCalls ε δ)
    (link : RelayLink δ) (o : LoopSurroundings ε) (event : LoopEvent SocketMessage) : RelayLink δ :=
  match RemoteClient.step P C config calls o event link.device link.mutex with
  | (deed, device, mutex) => { link with device, mutex, up := link.up ++ deed.sent }

/-- The connection is one of the device still. -/
def connected : RemotePhase → Bool
  | .greeting _ _ | .serving _ _ => true
  | _ => false

/-- An event that takes no frame off the connection. -/
def frameless : LoopEvent SocketMessage → Bool
  | .cancelled | .tick => true
  | .heard (.binary _) => false
  | .heard _ => true
  | _ => false

/-- A request for the device. -/
def Requests (config : RemoteConfig) (frame : V1.RelayFrame) : Prop :=
  frame.deviceId = config.deviceId ∧ frame.request.isSome

/-- What an operation of the relay does to the connection. The relay hears the frames of
the device in their order, and its channel carries requests for the device. -/
def Carries (C : FrameCodec) (config : RemoteConfig) (up down : List V1.RelayFrame) :
    Event Hub → List V1.RelayFrame → List V1.RelayFrame → Prop
  | ⟨.select _ _, .incoming (.binary bytes)⟩, up', down' =>
      ∃ frame, up = frame :: up' ∧ bytes = C.encode frame ∧ down' = down
  | ⟨.select _ bound, .outgoing item⟩, up', down' => bound = true ∧ up' = up ∧ down' = down ∧
      ∀ outgoing frame, item = some outgoing → outgoing.content = .ok frame → Requests config frame
  | ⟨.transmit _ item, true⟩, up', down' =>
      up' = up ∧ ∃ frame, item.content = .ok frame ∧ down' = down ++ [frame]
  | _, up', down' => up' = up ∧ down' = down

variable (P : Primitives) (C : FrameCodec) (config : RemoteConfig) (calls : DispatcherCalls ε δ)

/-- One step of a side. -/
inductive Step : RelayLink δ → RelayLink δ → Prop
  | frame {link : RelayLink δ} {frame : V1.RelayFrame} {down : List V1.RelayFrame}
      (o : LoopSurroundings ε) : connected link.device = true → link.down = frame :: down →
      Step link
        ({ link with down }.hear P C config calls o (.heard (.binary (C.encode frame))))
  | device {link : RelayLink δ} (o : LoopSurroundings ε) {event : LoopEvent SocketMessage} :
      connected link.device = true → frameless event = true →
      Step link (link.hear P C config calls o event)
  | relay {link : RelayLink δ} {op : HubOp} {next : op.Reply → Program Hub RelayOutcome}
      {reply : op.Reply} {up down : List V1.RelayFrame} : link.relay = .step op next →
      Carries C config link.up link.down ⟨op, reply⟩ up down →
      Step link { link with relay := next reply, log := ⟨op, reply⟩ :: link.log, up, down }

/-- A device that has connected, and the relay before it has taken anything. -/
def Begins (link : RelayLink δ) : Prop :=
  ∃ (o : LoopSurroundings ε) (attempt n : ℕ) (deed : Deed) (hello : V1.RelayFrame × Hash)
      (before mutex : Mutex δ),
    RemoteClient.step P C config calls o (.connected true) (.connecting attempt) before =
      (deed, .greeting attempt hello, mutex) ∧
    link =
      { device := .greeting attempt hello, mutex
        relay := Relay.handleDevice P C config.deviceId n, up := deed.sent }

/-- The connections that there are. -/
def Reached (link : RelayLink δ) : Prop :=
  ∃ start, Begins P C config calls start ∧ Relation.ReflTransGen (Step P C config calls) start link

/-! ### What is waited for -/

/-- A frame as it is waited for. -/
def entry (frame : V1.RelayFrame) : String × List UInt8 :=
  (frame.messageId, (P.sha256 (C.encode frame)).toList)

/-- What a frame acknowledges. -/
def acknowledged (frame : V1.RelayFrame) : Option (String × List UInt8) :=
  match frame.payload with
  | some (.ack ack) => some (ack.messageId, ack.payloadDigest)
  | _ => none

/-- What the device waits for, the oldest first. -/
def awaited : RemotePhase → List (String × Hash)
  | .greeting _ (hello, digest) => [(hello.messageId, digest)]
  | .serving _ session => session.pendingAcks.reverse
  | _ => []

/-- The frame that the relay is at. -/
def owed (h : History Hub) : List (String × List UInt8) :=
  match unsettled h with
  | some (.incoming (.binary bytes)) => ((C.decode bytes).map (entry P C)).toList
  | _ => []

/-- A frame that can be sent. -/
def Writable (frame : V1.RelayFrame) : Prop := Wire.encodeFrame C frame = .ok (C.encode frame)

/-- What the relay sends: an acknowledgement, or a request for the device. -/
def FromRelay (frame : V1.RelayFrame) : Prop :=
  frame.deviceId = config.deviceId ∧ ((∃ ack, frame.payload = some (.ack ack) ∧
    ack.messageId = frame.messageId ∧ ack.status = "accepted") ∨ frame.request.isSome)

/-- The digest of an entry as bytes. -/
def wire (entry : String × Hash) : String × List UInt8 := (entry.1, entry.2.toList)

/-- The two sides agree. -/
structure Linked (link : RelayLink δ) : Prop where
  speaks : RelaySpeaks P C config.deviceId link.relay link.log fun _ _ => True
  up : ∀ frame ∈ link.up, Writable C frame
  down : ∀ frame ∈ link.down, Writable C frame ∧ FromRelay config frame
  taken : ∀ bytes, unsettled link.log = some (.incoming (.binary bytes)) →
    ∃ frame, bytes = C.encode frame ∧ Writable C frame
  given : ∀ item frame, unsettled link.log = some (.outgoing (some item)) →
    item.content = .ok frame → Requests config frame
  greeted : ∀ attempt hello, link.device = .greeting attempt hello →
    hello.1.deviceId = config.deviceId ∧
      (link.down = [] ∧ (closing link.log = false → spoken link.log = false) ∨
        ∃ frame rest, link.down = frame :: rest ∧ (acknowledged frame).isSome)
  nodup : ((awaited link.device).map (·.1)).Nodup
  matched : connected link.device = true → ∃ rest,
    link.down.filterMap acknowledged ++ rest = (awaited link.device).map wire ∧
      (closing link.log = false → rest = owed P C link.log ++ link.up.map (entry P C))

variable {P C config calls}

/-! ### Frames -/

theorem Writable.decodeFrame {frame : V1.RelayFrame} (h : Writable C frame)
    (hread : C.decode (C.encode frame) = some frame) :
    Wire.decodeFrame C (C.encode frame) = .ok frame := by
  simp only [Writable, Wire.encodeFrame, bind_eq_ok, exists_unit, failIf_eq_ok, pure_eq_ok] at h
  simp only [Wire.decodeFrame, bind_eq_ok, exists_unit, failIf_eq_ok, pure_eq_ok, orFail_eq_ok]
  exact ⟨h.2.1, frame, hread, h.1, rfl⟩

theorem writable_of_encodeFrame {frame : V1.RelayFrame} {bytes : List UInt8}
    (h : Wire.encodeFrame C frame = .ok bytes) : Writable C frame := by
  simp only [Wire.encodeFrame, bind_eq_ok, exists_unit, failIf_eq_ok, pure_eq_ok] at h
  obtain ⟨hshape, hsize, rfl⟩ := h
  simp only [Writable, Wire.encodeFrame, bind_eq_ok, exists_unit, failIf_eq_ok, pure_eq_ok]
  exact ⟨hshape, hsize, trivial⟩

theorem frameDigest_eq_ok {frame : V1.RelayFrame} {digest : Hash} :
    Wire.frameDigest P C frame = .ok digest ↔ Writable C frame ∧
      digest = P.sha256 (C.encode frame) := by
  rw [Wire.frameDigest]
  constructor
  · intro h
    cases hencode : Wire.encodeFrame C frame with
    | error e =>
        rw [hencode] at h
        cases h
    | ok bytes =>
        have hwritable := writable_of_encodeFrame hencode
        rw [hwritable] at h
        exact ⟨hwritable, (Except.ok.inj h).symm⟩
  · rintro ⟨hwritable, rfl⟩
    rw [hwritable]
    rfl

theorem payload_of_request {frame : V1.RelayFrame} (h : frame.request.isSome) :
    (∃ request, frame.payload = some (.actionRequest request)) ∨
      ∃ approved, frame.payload = some (.approvedActionRequest approved) := by
  cases hpayload : frame.payload with
  | none =>
      rw [V1.RelayFrame.request, hpayload] at h
      cases h
  | some payload =>
      rw [V1.RelayFrame.request, hpayload] at h
      cases payload <;> first | exact .inl ⟨_, rfl⟩ | exact .inr ⟨_, rfl⟩ | cases h

theorem acknowledged_of_requests {frame : V1.RelayFrame} (h : frame.request.isSome) :
    acknowledged frame = none := by
  rcases payload_of_request h with ⟨_, hpayload⟩ | ⟨_, hpayload⟩ <;> rw [acknowledged, hpayload]

/-- A frame of the relay acknowledges what its identifier says. -/
theorem FromRelay.acknowledged_eq {frame : V1.RelayFrame} (h : FromRelay config frame)
    {ack : V1.RelayAck} (hack : frame.payload = some (.ack ack)) :
    ack.messageId = frame.messageId ∧ ack.status = "accepted" ∧
      acknowledged frame = some (ack.messageId, ack.payloadDigest) := by
  have hacknowledged : acknowledged frame = some (ack.messageId, ack.payloadDigest) := by
    rw [acknowledged, hack]
  obtain ⟨-, ⟨ack', hack', hid, hstatus⟩ | hrequest⟩ := h
  · obtain rfl : ack = ack' := by
      have := hack.symm.trans hack'
      cases this
      rfl
    exact ⟨hid, hstatus, hacknowledged⟩
  · rw [acknowledged_of_requests hrequest] at hacknowledged
    cases hacknowledged

/-! ### What the device keeps -/

/-- A frame that has been sent is waited for, and no other has its identifier. -/
theorem sendTracked_eq_ok {sends : Bool} {frame sent : V1.RelayFrame}
    {session session' : DispatchSession}
    (h : RemoteClient.sendTracked P C sends frame session = .ok (session', sent)) :
    sent = frame ∧ Writable C frame ∧ frame.messageId ∉ session.pendingAcks.map (·.1) ∧
      session'.pendingAcks = (frame.messageId, P.sha256 (C.encode frame)) ::
        session.pendingAcks := by
  simp only [RemoteClient.sendTracked, bind_eq_ok, exists_unit, failIf_eq_ok, pure_eq_ok,
    mapError_eq_ok, frameDigest_eq_ok, Prod.mk.injEq] at h
  obtain ⟨-, hfresh, digest, ⟨hwritable, rfl⟩, -, rfl, rfl⟩ := h
  exact ⟨rfl, hwritable, hfresh, rfl⟩

/-- The acknowledgement of the oldest frame is accepted, and no other frame is settled. -/
theorem acceptTrackedAck_oldest {session : DispatchSession} {id : String} {digest : Hash}
    {rest : List (String × Hash)} {ack : V1.RelayAck}
    (hpending : session.pendingAcks.reverse = (id, digest) :: rest)
    (hnodup : (session.pendingAcks.reverse.map (·.1)).Nodup) (hid : ack.messageId = id)
    (hstatus : ack.status = "accepted") (hdigest : ack.payloadDigest = digest.toList) :
    RemoteClient.acceptTrackedAck id ack session =
      .ok { session with pendingAcks := rest.reverse } := by
  obtain ⟨pendingAcks, replay⟩ := session
  obtain rfl : pendingAcks = rest.reverse ++ [(id, digest)] := by
    rw [← List.reverse_reverse pendingAcks, hpending, List.reverse_cons]
  rw [hpending, List.map_cons, List.nodup_cons] at hnodup
  have hnot : ∀ entry ∈ rest.reverse, entry.1 ≠ id := by
    rintro entry hentry rfl
    exact hnodup.1 (List.mem_map.mpr ⟨entry, List.mem_reverse.mp hentry, rfl⟩)
  have hlookup : (rest.reverse ++ [(id, digest)]).lookup id = some digest := by
    have hnone : rest.reverse.lookup id = none :=
      List.lookup_eq_none_iff.mpr fun entry hentry => bne_iff_ne.mpr (hnot entry hentry).symm
    rw [List.lookup_append, hnone, Option.none_or, List.lookup_cons_self]
  have hfilter : ((rest.reverse ++ [(id, digest)]).filter fun entry => entry.1 ≠ id) =
      rest.reverse := by
    rw [List.filter_append,
      List.filter_eq_self.mpr fun entry hentry => by simpa using hnot entry hentry]
    simp
  simp only [RemoteClient.acceptTrackedAck, hid, hstatus, hlookup, hdigest, orFail_some, ne_eq,
    not_true_eq_false, or_self, failIf_of_false, not_false_eq_true, ok_bind]
  exact congrArg (fun pendingAcks => Except.ok (⟨pendingAcks, replay⟩ : DispatchSession)) hfilter

/-- A turn that fails without a frame, or in which one frame is sent. -/
def Tracks (P : Primitives) (C : FrameCodec) (session : DispatchSession)
    (turn : Turn RemoteError DispatchSession δ) : Prop :=
  ((∃ error, turn.next = .error error) ∧ turn.sent = []) ∨
    ∃ frame session', turn.next = .ok session' ∧ turn.sent = [frame] ∧ Writable C frame ∧
      frame.messageId ∉ session.pendingAcks.map (·.1) ∧
      session'.pendingAcks = (frame.messageId, P.sha256 (C.encode frame)) :: session.pendingAcks

theorem tracks_sending {mutex : Mutex δ} {dispatched : Option Asked}
    {session session₀ : DispatchSession}
    {ends : Except RemoteError (DispatchSession × V1.RelayFrame)}
    (hsame : session₀.pendingAcks = session.pendingAcks)
    (hends : ∀ result, ends = .ok result →
      ∃ sends frame, RemoteClient.sendTracked P C sends frame session₀ = .ok result) :
    Tracks P C session (Turn.sending mutex dispatched ends) := by
  cases ends with
  | error error => exact .inl ⟨⟨error, rfl⟩, rfl⟩
  | ok result =>
      obtain ⟨sends, frame, hsend⟩ := hends result rfl
      obtain ⟨session', sent⟩ := result
      obtain ⟨rfl, hwritable, hfresh, hpending⟩ := sendTracked_eq_ok hsend
      rw [hsame] at hfresh hpending
      exact .inr ⟨sent, session', rfl, rfl, hwritable, hfresh, hpending⟩

theorem tracks_tick (session : DispatchSession) (o : LoopSurroundings ε) (mutex : Mutex δ) :
    Tracks P C session (RemoteClient.tick P C config session o mutex) := by
  refine tracks_sending rfl fun result hresult => ?_
  simp only [bind_eq_ok] at hresult
  obtain ⟨_, _, frame, _, hsend⟩ := hresult
  exact ⟨o.sends, frame, hsend⟩

/-- The error is not one of a frame that does not belong there. -/
def Unmatched (error : RemoteError) : Prop := error = .ackMismatch ∨ error = .unexpectedRelayPayload

/-- What a frame of the relay has the device do. -/
theorem work_fromRelay (session : DispatchSession) (now : Option ℕ) (sends : Bool)
    {frame : V1.RelayFrame} (hread : C.decode (C.encode frame) = some frame)
    (hwritable : Writable C frame) (hfrom : FromRelay config frame) :
    (∃ error, RemoteClient.work P C config session now sends (.binary (C.encode frame)) =
        .error error ∧ ¬ Unmatched error) ∨
      ∃ session₀, session₀.pendingAcks = session.pendingAcks ∧
        ((∃ ack, frame.payload = some (.ack ack) ∧
          RemoteClient.work P C config session now sends (.binary (C.encode frame)) =
            Work.go <$> RemoteClient.acceptTrackedAck frame.messageId ack session₀) ∨
        ∃ asked, acknowledged frame = none ∧
          RemoteClient.work P C config session now sends (.binary (C.encode frame)) =
            .ok (.dispatch session₀ asked)) := by
  simp only [RemoteClient.work, hwritable.decodeFrame hread, mapError_ok, ok_bind]
  cases now with
  | none => exact .inl ⟨.clock, rfl, by simp [Unmatched]⟩
  | some now =>
      rw [orFail_some, ok_bind]
      cases Wire.verifyFrameAt frame now with
      | error error => exact .inl ⟨.wire error, rfl, by simp [Unmatched]⟩
      | ok _ =>
          rw [mapError_ok, ok_bind, failIf_of_false (not_not.mpr hfrom.1), ok_bind]
          cases (session.replay.accept P frame now).1 with
          | error error => exact .inl ⟨.wire error, rfl, by simp [Unmatched]⟩
          | ok _ =>
              refine .inr
                ⟨{ session with replay := (session.replay.accept P frame now).2 }, rfl, ?_⟩
              obtain ⟨-, ⟨ack, hack, -, -⟩ | hrequest⟩ := hfrom
              · refine .inl ⟨ack, hack, ?_⟩
                simp only [hack]
                cases RemoteClient.acceptTrackedAck frame.messageId ack _ <;> rfl
              · have hnone := acknowledged_of_requests hrequest
                rcases payload_of_request hrequest with ⟨request, hpayload⟩ | ⟨approved, hpayload⟩
                · exact .inr ⟨.request request, hnone, by simp only [hpayload]; rfl⟩
                · exact .inr ⟨.approved approved, hnone, by simp only [hpayload]; rfl⟩

/-- The acknowledgement of the hello is taken, if it has not expired. -/
theorem awaitAck_fromRelay {hello frame : V1.RelayFrame} {digest : Hash}
    {now : Option ℕ} {sends : Bool} {ack : V1.RelayAck}
    (hread : C.decode (C.encode frame) = some frame) (hwritable : Writable C frame)
    (hdevice : frame.deviceId = hello.deviceId) (hack : frame.payload = some (.ack ack))
    (hid : ack.messageId = hello.messageId) (hstatus : ack.status = "accepted")
    (hdigest : ack.payloadDigest = digest.toList) :
    (∃ error, RemoteClient.awaitAck C hello digest now sends (.binary (C.encode frame)) =
        .error error ∧ ¬ Unmatched error) ∨
      RemoteClient.awaitAck C hello digest now sends (.binary (C.encode frame)) = .ok true := by
  simp only [RemoteClient.awaitAck, hwritable.decodeFrame hread, mapError_ok, ok_bind]
  cases now with
  | none => exact .inl ⟨.clock, rfl, by simp [Unmatched]⟩
  | some now =>
      rw [orFail_some, ok_bind]
      cases Wire.verifyFrameAt frame now with
      | error error => exact .inl ⟨.wire error, rfl, by simp [Unmatched]⟩
      | ok _ =>
          refine .inr ?_
          simp only [mapError_ok, ok_bind, RemoteClient.expectAck, hdevice, hack, hid, hstatus,
            hdigest, ne_eq, not_true_eq_false, or_self, not_false_eq_true, failIf_of_false]
          rfl

/-! ### One step of the device -/

variable {link : RelayLink δ}

theorem awaited_of_not_connected {device : RemotePhase} (h : connected device = false) :
    awaited device = [] := by
  cases device <;> first | rfl | cases h

/-- The device gives up. -/
theorem Linked.leaves (hL : Linked P C config link) {device : RemotePhase} {mutex : Mutex δ}
    {down : List V1.RelayFrame} (hdevice : connected device = false)
    (hdown : ∀ frame ∈ down, frame ∈ link.down) :
    Linked P C config { link with device, mutex, down } where
  speaks := hL.speaks
  up := hL.up
  down frame hframe := hL.down frame (hdown frame hframe)
  taken := hL.taken
  given := hL.given
  greeted attempt hello h := by
    obtain rfl : device = .greeting attempt hello := h
    cases hdevice
  nodup := by simp [awaited_of_not_connected hdevice]
  matched h := by
    obtain h : connected device = true := h
    rw [hdevice] at h
    cases h

/-- An acknowledgement that comes in is that of the oldest frame that is waited for. -/
theorem Linked.oldest (hL : Linked P C config link) (hconnected : connected link.device = true)
    {frame : V1.RelayFrame} {rest : List V1.RelayFrame} (hdown : link.down = frame :: rest)
    {ack : V1.RelayAck} (hack : frame.payload = some (.ack ack)) :
    ∃ digest later, awaited link.device = (ack.messageId, digest) :: later ∧
      ack.payloadDigest = digest.toList ∧ ∃ onItsWay,
        rest.filterMap acknowledged ++ onItsWay = later.map wire ∧
          (closing link.log = false → onItsWay = owed P C link.log ++ link.up.map (entry P C)) := by
  have hfrom := (hL.down frame (hdown ▸ List.mem_cons_self)).2
  obtain ⟨onItsWay, hmatched, hopen⟩ := hL.matched hconnected
  rw [hdown, List.filterMap_cons_some (hfrom.acknowledged_eq hack).2.2,
    List.cons_append] at hmatched
  obtain ⟨⟨id, digest⟩, later, hawaited, hhead, htail⟩ := List.map_eq_cons_iff.mp hmatched.symm
  obtain ⟨rfl, hdigest⟩ := Prod.mk.inj hhead
  exact ⟨digest, later, hawaited, hdigest.symm, onItsWay, htail.symm, hopen⟩

/-- The oldest frame has been acknowledged. -/
theorem Linked.settles (hL : Linked P C config link) (hconnected : connected link.device = true)
    {frame : V1.RelayFrame} {rest : List V1.RelayFrame} (hdown : link.down = frame :: rest)
    {ack : V1.RelayAck} (hack : frame.payload = some (.ack ack)) {attempt : ℕ}
    {session : DispatchSession} {mutex : Mutex δ}
    (hsession : session.pendingAcks.reverse = (awaited link.device).tail) :
    Linked P C config { link with device := .serving attempt session, mutex, down := rest } where
  speaks := hL.speaks
  up := hL.up
  down other hother := hL.down other (hdown ▸ List.mem_cons_of_mem _ hother)
  taken := hL.taken
  given := hL.given
  greeted attempt hello h := by cases h
  nodup := by
    change (session.pendingAcks.reverse.map (·.1)).Nodup
    rw [hsession, List.map_tail]
    exact hL.nodup.tail
  matched _ := by
    obtain ⟨digest, later, hawaited, -, onItsWay, hmatched, hopen⟩ :=
      hL.oldest hconnected hdown hack
    refine ⟨onItsWay, ?_, hopen⟩
    change _ = session.pendingAcks.reverse.map wire
    rw [hsession, hawaited, List.tail_cons, hmatched]

/-- A frame that is no acknowledgement is taken off the connection. -/
theorem Linked.takes (hL : Linked P C config link) {frame : V1.RelayFrame}
    {rest : List V1.RelayFrame} (hdown : link.down = frame :: rest) {attempt : ℕ}
    {session : DispatchSession} (hdevice : link.device = .serving attempt session)
    (hnone : acknowledged frame = none) : Linked P C config { link with down := rest } where
  speaks := hL.speaks
  up := hL.up
  down other hother := hL.down other (hdown ▸ List.mem_cons_of_mem _ hother)
  taken := hL.taken
  given := hL.given
  greeted attempt hello h := by
    obtain h : link.device = .greeting attempt hello := h
    rw [hdevice] at h
    cases h
  nodup := hL.nodup
  matched hconnected := by
    obtain ⟨onItsWay, hmatched, hopen⟩ := hL.matched hconnected
    rw [hdown, List.filterMap_cons_none hnone] at hmatched
    exact ⟨onItsWay, hmatched, hopen⟩

/-- A session goes on after a turn, or the device gives up. -/
theorem Linked.tracks (hL : Linked P C config link) {attempt : ℕ} {session : DispatchSession}
    (hdevice : link.device = .serving attempt session) {turn : Turn RemoteError DispatchSession δ}
    (hturn : Tracks P C session turn) {failed : RemotePhase} (hfailed : connected failed = false) :
    Linked P C config
      { link with
        device := (turn.settle attempt failed).2.1
        mutex := (turn.settle attempt failed).2.2
        up := link.up ++ (turn.settle attempt failed).1.sent } := by
  rcases hturn with ⟨⟨error, hnext⟩, hsent⟩ |
    ⟨frame, session', hnext, hsent, hwritable, hfresh, hpending⟩
  · simp only [Turn.settle, hnext, hsent, List.append_nil]
    exact hL.leaves hfailed fun _ hframe => hframe
  · simp only [Turn.settle, hnext, hsent]
    have hawaited : awaited (.serving attempt session') =
        awaited link.device ++ [(frame.messageId, P.sha256 (C.encode frame))] := by
      rw [hdevice, awaited, awaited, hpending, List.reverse_cons]
    refine
      { speaks := hL.speaks
        up := ?_
        down := hL.down
        taken := hL.taken
        given := hL.given
        greeted := fun attempt hello h => by cases h
        nodup := ?_
        matched := fun _ => ?_ }
    · intro other hother
      rcases List.mem_append.mp hother with hold | hnew
      · exact hL.up other hold
      · obtain rfl := List.mem_singleton.mp hnew
        exact hwritable
    · change ((awaited (.serving attempt session')).map (·.1)).Nodup
      rw [hawaited, List.map_append, List.nodup_append']
      refine ⟨hL.nodup, List.nodup_singleton _, ?_⟩
      rw [List.map_singleton, List.disjoint_singleton, hdevice]
      simpa [awaited] using hfresh
    · obtain ⟨onItsWay, hmatched, hopen⟩ := hL.matched (by rw [hdevice]; rfl)
      refine ⟨onItsWay ++ [entry P C frame], ?_, fun hclosing => ?_⟩
      · change _ = (awaited (.serving attempt session')).map wire
        rw [hawaited, List.map_append, ← hmatched, List.append_assoc]
        rfl
      · rw [hopen hclosing, List.map_append, List.append_assoc]
        rfl

/-- The link after what the device has heard. -/
theorem hear_eq (link : RelayLink δ) {o : LoopSurroundings ε}
    {event : LoopEvent SocketMessage} {deed : Deed}
    {device : RemotePhase} {mutex : Mutex δ}
    (h : RemoteClient.step P C config calls o event link.device link.mutex =
      (deed, device, mutex)) :
    link.hear P C config calls o event =
      { link with device, mutex, up := link.up ++ deed.sent } := by
  rw [hear, h]

theorem Linked.hear_leaves (hL : Linked P C config link) {o : LoopSurroundings ε}
    {event : LoopEvent SocketMessage} {down : List V1.RelayFrame} (device : RemotePhase)
    (h : RemoteClient.step P C config calls o event link.device link.mutex =
      ({}, device, link.mutex))
    (hdevice : connected device = false) (hdown : ∀ frame ∈ down, frame ∈ link.down) :
    Linked P C config ({ link with down }.hear P C config calls o event) := by
  rw [hear_eq { link with down } h, List.append_nil]
  exact hL.leaves hdevice hdown

theorem Linked.hear_tracks (hL : Linked P C config link) {o : LoopSurroundings ε}
    {event : LoopEvent SocketMessage} {attempt : ℕ} {session : DispatchSession}
    (hdevice : link.device = .serving attempt session) {turn : Turn RemoteError DispatchSession δ}
    {failed : RemotePhase}
    (h : RemoteClient.step P C config calls o event link.device link.mutex =
      turn.settle attempt failed)
    (hturn : Tracks P C session turn) (hfailed : connected failed = false) :
    Linked P C config (link.hear P C config calls o event) := by
  rw [hear_eq _ h]
  exact hL.tracks hdevice hturn hfailed

theorem not_connected_ite {c : Bool} {device : RemotePhase} (h : connected device = false) :
    connected (if c then .stopped else device) = false := by
  cases c <;> first | exact h | rfl

/-- A device that waits for the acknowledgement of its hello is sent that first. -/
theorem Linked.greets (hread : ∀ frame, Writable C frame → C.decode (C.encode frame) = some frame)
    (hL : Linked P C config link) {frame : V1.RelayFrame} {rest : List V1.RelayFrame}
    (hdown : link.down = frame :: rest) {attempt : ℕ} {hello : V1.RelayFrame} {digest : Hash}
    (hdevice : link.device = .greeting attempt (hello, digest)) (now : Option ℕ) (sends : Bool) :
    (∃ ack, frame.payload = some (.ack ack)) ∧
      ((∃ error, RemoteClient.awaitAck C hello digest now sends (.binary (C.encode frame)) =
          .error error ∧ ¬ Unmatched error) ∨
        RemoteClient.awaitAck C hello digest now sends (.binary (C.encode frame)) = .ok true) := by
  obtain ⟨hwritable, hfrom⟩ := hL.down frame (hdown ▸ List.mem_cons_self)
  obtain ⟨hsame, hfirst⟩ := hL.greeted attempt _ hdevice
  have hacknowledged : (acknowledged frame).isSome := by
    rw [hdown] at hfirst
    rcases hfirst with ⟨hnone, -⟩ | ⟨first, others, hfirst, hacknowledged⟩
    · cases hnone
    · rwa [(List.cons.inj hfirst).1]
  have hconnected : connected link.device = true := by rw [hdevice]; rfl
  obtain ⟨ack, hack⟩ : ∃ ack, frame.payload = some (.ack ack) := by
    rcases hfrom.2 with ⟨ack, hack, -⟩ | hrequest
    · exact ⟨ack, hack⟩
    · rw [acknowledged_of_requests hrequest] at hacknowledged
      cases hacknowledged
  obtain ⟨digest', later, hawaited, hdigest, -⟩ := hL.oldest hconnected hdown hack
  rw [hdevice, awaited] at hawaited
  obtain ⟨hid, rfl⟩ := Prod.mk.inj (List.cons.inj hawaited).1
  exact ⟨⟨ack, hack⟩,
    awaitAck_fromRelay (hread frame hwritable) hwritable (hfrom.1.trans hsame.symm)
    hack hid.symm (hfrom.acknowledged_eq hack).2.1 hdigest⟩

/-- What a device that serves does with a frame of the relay: an acknowledgement settles the
oldest frame, and a request is dispatched. -/
theorem Linked.serves (hread : ∀ frame, Writable C frame → C.decode (C.encode frame) = some frame)
    (hL : Linked P C config link) {frame : V1.RelayFrame} {rest : List V1.RelayFrame}
    (hdown : link.down = frame :: rest) {attempt : ℕ} {session : DispatchSession}
    (hdevice : link.device = .serving attempt session) (now : Option ℕ) (sends : Bool) :
    (∃ error, RemoteClient.work P C config session now sends (.binary (C.encode frame)) =
        .error error ∧ ¬ Unmatched error) ∨
      ∃ session₀, session₀.pendingAcks = session.pendingAcks ∧
        ((∃ ack, frame.payload = some (.ack ack) ∧
          RemoteClient.work P C config session now sends (.binary (C.encode frame)) =
            .ok (.go { session₀ with pendingAcks := (awaited link.device).tail.reverse })) ∨
        ∃ asked, acknowledged frame = none ∧
          RemoteClient.work P C config session now sends (.binary (C.encode frame)) =
            .ok (.dispatch session₀ asked)) := by
  obtain ⟨hwritable, hfrom⟩ := hL.down frame (hdown ▸ List.mem_cons_self)
  rcases work_fromRelay (P := P) session now sends (hread frame hwritable) hwritable hfrom with
    hfails | ⟨session₀, hsame, ⟨ack, hack, hwork⟩ | hdispatch⟩
  · exact .inl hfails
  · refine .inr ⟨session₀, hsame, .inl ⟨ack, hack, ?_⟩⟩
    have hconnected : connected link.device = true := by rw [hdevice]; rfl
    obtain ⟨digest, later, hawaited, hdigest, -⟩ := hL.oldest hconnected hdown hack
    obtain ⟨hid, hstatus, -⟩ := hfrom.acknowledged_eq hack
    have hpending : session₀.pendingAcks.reverse = (ack.messageId, digest) :: later := by
      rw [hsame, ← hawaited, hdevice, awaited]
    have hnodup : (session₀.pendingAcks.reverse.map (·.1)).Nodup := by
      have hnodup := hL.nodup
      rwa [hawaited, ← hpending] at hnodup
    rw [hwork, ← hid, acceptTrackedAck_oldest hpending hnodup rfl hstatus hdigest, hawaited]
    rfl
  · exact .inr ⟨session₀, hsame, .inr hdispatch⟩

/-- The device hears a frame of the relay. -/
theorem Linked.frame (hread : ∀ frame, Writable C frame → C.decode (C.encode frame) = some frame)
    (hL : Linked P C config link) {frame : V1.RelayFrame} {rest : List V1.RelayFrame}
    (hdown : link.down = frame :: rest) (hconnected : connected link.device = true)
    (o : LoopSurroundings ε) : Linked P C config
      ({ link with down := rest }.hear P C config calls o (.heard (.binary (C.encode frame)))) := by
  have hrest : ∀ other ∈ rest, other ∈ link.down := fun other h => hdown ▸ List.mem_cons_of_mem _ h
  obtain ⟨device, mutex, relay, log, up, down⟩ := link
  cases device with
  | connecting | waiting | stopped => cases hconnected
  | greeting attempt hello =>
      obtain ⟨hello, digest⟩ := hello
      obtain ⟨⟨ack, hack⟩, ⟨error, hawait, -⟩ | hawait⟩ := hL.greets hread hdown rfl o.now o.sends
      · refine hL.hear_leaves (RemoteClient.waitReconnect config attempt) ?_ rfl hrest
        rw [RemoteClient.step, hawait]
      · cases hbegin : RemoteClient.beginDispatch config with
        | error error =>
            have hfailed : connected (if o.cancelled then .stopped
              else RemoteClient.waitReconnect config 0) = false := not_connected_ite rfl
            refine hL.hear_leaves _ ?_ hfailed hrest
            rw [RemoteClient.step, hawait, hbegin]
        | ok session =>
            have hstep : RemoteClient.step P C config calls o (.heard (.binary (C.encode frame)))
                (.greeting attempt (hello, digest)) mutex = ({}, .serving 0 session, mutex) := by
              rw [RemoteClient.step, hawait, hbegin]
            rw [hear_eq _ hstep, List.append_nil]
            refine hL.settles hconnected hdown hack ?_
            simp only [RemoteClient.beginDispatch, bind_eq_ok, pure_eq_ok] at hbegin
            obtain ⟨_, _, _, _, rfl⟩ := hbegin
            rfl
  | serving attempt session =>
      have hfailed : connected (if o.cancelled then .stopped
        else RemoteClient.waitReconnect config attempt) = false := not_connected_ite rfl
      rcases hL.serves hread hdown rfl o.now o.sends with
        ⟨error, hwork, -⟩ | ⟨session₀, hsame, ⟨ack, hack, hwork⟩ | ⟨asked, hnone, hwork⟩⟩
      · refine hL.hear_leaves _ ?_ hfailed hrest
        rw [RemoteClient.step, RemoteClient.hear, hwork]
        rfl
      · have hstep : RemoteClient.step P C config calls o (.heard (.binary (C.encode frame)))
            (.serving attempt session) mutex = ({}, .serving attempt
              { session₀ with pendingAcks := session.pendingAcks.reverse.tail.reverse },
                mutex) := by
          rw [RemoteClient.step, RemoteClient.hear, hwork]
          rfl
        rw [hear_eq _ hstep, List.append_nil]
        exact hL.settles hconnected hdown hack (List.reverse_reverse _)
      · refine (hL.takes hdown rfl hnone).hear_tracks rfl rfl ?_ hfailed
        rw [RemoteClient.hear, hwork]
        refine tracks_sending hsame fun result hresult => ?_
        simp only [bind_eq_ok] at hresult
        obtain ⟨_, _, _, _, frame, _, hsend⟩ := hresult
        exact ⟨o.sends, frame, hsend⟩

/-- Nothing else is taken for the acknowledgement of the hello. -/
theorem awaitAck_quiet {hello : V1.RelayFrame} {digest : Hash} {now : Option ℕ} {sends : Bool}
    {message : SocketMessage} (hmessage : frameless (.heard message) = true) :
    RemoteClient.awaitAck C hello digest now sends message ≠ .ok true := by
  intro h
  cases message with
  | binary bytes => cases hmessage
  | ping =>
      simp only [RemoteClient.awaitAck, bind_eq_ok, pure_eq_ok, Bool.false_eq_true, and_false,
        exists_false] at h
  | gone | failed | pong | close | other => cases h

/-- Nothing else is tracked or dispatched. -/
theorem work_quiet (session : DispatchSession) (now : Option ℕ) (sends : Bool)
    {message : SocketMessage} (hmessage : frameless (.heard message) = true) :
    (∃ error, RemoteClient.work P C config session now sends message = .error error) ∨
      RemoteClient.work P C config session now sends message = .ok (.go session) := by
  cases message with
  | binary bytes => cases hmessage
  | ping =>
      cases sends with
      | true => exact .inr rfl
      | false => exact .inl ⟨_, rfl⟩
  | pong => exact .inr rfl
  | gone | failed | close | other => exact .inl ⟨_, rfl⟩

/-- The device does something without a frame. -/
theorem Linked.quiet (hL : Linked P C config link) (hconnected : connected link.device = true)
    (o : LoopSurroundings ε) {event : LoopEvent SocketMessage} (hevent : frameless event = true) :
    Linked P C config (link.hear P C config calls o event) := by
  have hdown : ∀ frame ∈ link.down, frame ∈ link.down := fun _ h => h
  have hsame {event : LoopEvent SocketMessage}
      (h : RemoteClient.step P C config calls o event link.device link.mutex =
        ({}, link.device, link.mutex)) :
      Linked P C config (link.hear P C config calls o event) := by
    rw [hear_eq _ h, List.append_nil]
    exact hL
  obtain ⟨device, mutex, relay, log, up, down⟩ := link
  cases device with
  | connecting | waiting | stopped => cases hconnected
  | greeting attempt hello =>
      cases event with
      | connected | elapsed => cases hevent
      | cancelled => exact hL.hear_leaves .stopped rfl rfl hdown
      | tick => exact hsame rfl
      | heard message =>
          cases hawait : RemoteClient.awaitAck C hello.1 hello.2 o.now o.sends message with
          | error error =>
              refine hL.hear_leaves (RemoteClient.waitReconnect config attempt) ?_ rfl hdown
              rw [RemoteClient.step, hawait]
          | ok acknowledged =>
              cases acknowledged with
              | false =>
                  refine hsame ?_
                  rw [RemoteClient.step, hawait]
              | true => exact absurd hawait (awaitAck_quiet hevent)
  | serving attempt session =>
      have hfailed : connected (if o.cancelled then .stopped
        else RemoteClient.waitReconnect config attempt) = false := not_connected_ite rfl
      cases event with
      | connected | elapsed => cases hevent
      | cancelled => exact hL.hear_leaves .stopped rfl rfl hdown
      | tick => exact hL.hear_tracks rfl rfl (tracks_tick session o mutex) hfailed
      | heard message =>
          have hquiet : (∃ error, RemoteClient.work P C config session o.now o.sends message =
              .error error) ∨
                RemoteClient.work P C config session o.now o.sends message = .ok (.go session) :=
            work_quiet session o.now o.sends hevent
          rcases hquiet with ⟨error, hwork⟩ | hwork
          · refine hL.hear_leaves _ ?_ hfailed hdown
            rw [RemoteClient.step, RemoteClient.hear, hwork]
            rfl
          · refine hsame ?_
            rw [RemoteClient.step, RemoteClient.hear, hwork]
            rfl

/-! ### One step of the relay -/

/-- The relay does something that it does not say anything by. -/
theorem Linked.hears (hL : Linked P C config link) {e : Event Hub}
    {relay : Program Hub RelayOutcome}
    {up : List V1.RelayFrame}
    (hspeaks : RelaySpeaks P C config.deviceId relay (e :: link.log) fun _ _ => True)
    (hup : ∀ frame ∈ up, frame ∈ link.up)
    (htaken : ∀ bytes, unsettled (e :: link.log) = some (.incoming (.binary bytes)) →
      ∃ frame, bytes = C.encode frame ∧ Writable C frame)
    (hgiven : ∀ item frame, unsettled (e :: link.log) = some (.outgoing (some item)) →
      item.content = .ok frame → Requests config frame)
    (hopen : closing (e :: link.log) = false → closing link.log = false ∧
      spoken (e :: link.log) = spoken link.log ∧
        owed P C (e :: link.log) ++ up.map (entry P C) =
          owed P C link.log ++ link.up.map (entry P C)) :
    Linked P C config { link with relay, log := e :: link.log, up } where
  speaks := hspeaks
  up frame hframe := hL.up frame (hup frame hframe)
  down := hL.down
  taken := htaken
  given := hgiven
  greeted attempt hello h := by
    obtain ⟨hdevice, hfirst⟩ := hL.greeted attempt hello h
    refine ⟨hdevice, hfirst.imp_left fun ⟨hnone, hspoken⟩ => ⟨hnone, fun hclosing => ?_⟩⟩
    obtain ⟨hclosing, hsame, -⟩ := hopen hclosing
    rw [hsame, hspoken hclosing]
  nodup := hL.nodup
  matched hconnected := by
    obtain ⟨onItsWay, hmatched, howed⟩ := hL.matched hconnected
    refine ⟨onItsWay, hmatched, fun hclosing => ?_⟩
    obtain ⟨hclosing, -, hsame⟩ := hopen hclosing
    rw [howed hclosing, hsame]

theorem owed_of_unsettled {log : History Hub}
    (h : ∀ bytes, unsettled log ≠ some (.incoming (.binary bytes))) : owed P C log = [] := by
  rw [owed]
  split
  · exact absurd ‹_› (h _)
  · rfl

theorem owed_of_taken {log : History Hub} {frame : V1.RelayFrame}
    (hread : C.decode (C.encode frame) = some frame)
    (h : unsettled log = some (.incoming (.binary (C.encode frame)))) :
    owed P C log = [entry P C frame] := by
  simp only [owed, h, hread, Option.map_some, Option.toList_some]

/-- The relay has left the socket alone. -/
theorem Linked.offSocket (hL : Linked P C config link) {e : Event Hub}
    {relay : Program Hub RelayOutcome} (he : e.op.offSocket = true)
    (hspeaks : RelaySpeaks P C config.deviceId relay (e :: link.log) fun _ _ => True) :
    Linked P C config { link with relay, log := e :: link.log } := by
  refine hL.hears hspeaks (fun _ h => h) ?_ ?_ ?_
  · rw [unsettled_cons he]
    exact hL.taken
  · rw [unsettled_cons he]
    exact hL.given
  · rw [closing_cons he, spoken_cons he, owed, unsettled_cons he]
    exact fun hclosing => ⟨hclosing, rfl, rfl⟩

/-- The relay has taken what comes next. -/
theorem Linked.select (hread : ∀ frame, Writable C frame → C.decode (C.encode frame) = some frame)
    (hL : Linked P C config link) {channel : ℕ} {bound : Bool} {event : SocketEvent}
    {relay : Program Hub RelayOutcome} {up down : List V1.RelayFrame}
    (hsettled : ∀ bytes, unsettled link.log ≠ some (.incoming (.binary bytes)))
    (hspeaks : RelaySpeaks P C config.deviceId relay (⟨.select channel bound, event⟩ :: link.log)
      fun _ _ => True)
    (hcarries : Carries C config link.up link.down ⟨.select channel bound, event⟩ up down) :
    Linked P C config
      { link with relay, log := ⟨.select channel bound, event⟩ :: link.log, up, down } := by
  have hnone : owed P C link.log = [] := owed_of_unsettled hsettled
  rcases event with item | message
  · obtain ⟨-, rfl, rfl, hrequests⟩ := hcarries
    refine hL.hears hspeaks (fun _ h => h) (fun bytes h => by cases h) ?_ fun hclosing =>
      ⟨hclosing, rfl, by rw [hnone]; rfl⟩
    intro outgoing frame h hcontent
    obtain rfl : item = some outgoing := by
      cases h
      rfl
    exact hrequests outgoing frame rfl hcontent
  · cases message with
    | binary bytes =>
        obtain ⟨frame, hup, rfl, rfl⟩ := hcarries
        have hwritable := hL.up frame (hup ▸ List.mem_cons_self)
        refine hL.hears hspeaks (fun other h => hup ▸ List.mem_cons_of_mem _ h) ?_
          (fun item frame h => by cases h) fun hclosing => ⟨hclosing, rfl, ?_⟩
        · intro bytes h
          cases h
          exact ⟨frame, rfl, hwritable⟩
        · rw [hnone, hup, owed_of_taken (hread frame hwritable) rfl]
          rfl
    | gone | failed | close | ping | pong | other =>
        obtain ⟨rfl, rfl⟩ := hcarries
        exact hL.hears hspeaks (fun _ h => h) (fun bytes h => by cases h)
          (fun item frame h => by cases h) fun hclosing => ⟨hclosing, rfl, by rw [hnone]; rfl⟩

/-- What the relay sends is the acknowledgement of what it has taken, or a request. -/
theorem Linked.utters (hread : ∀ frame, Writable C frame → C.decode (C.encode frame) = some frame)
    (hL : Linked P C config link) {channel : ℕ} {item : Outgoing} {frame : V1.RelayFrame}
    (hspeech : Speaks P C config.deviceId link.log (.transmit channel item))
    (hcontent : item.content = .ok frame) :
    Writable C frame ∧ FromRelay config frame ∧ owed P C link.log = (acknowledged frame).toList ∧
      ((acknowledged frame).isSome ∨ spoken link.log = true) := by
  obtain ⟨-, said, hsaid, ⟨bytes, hencode⟩, hwhy⟩ := hspeech
  obtain rfl : said = frame := Except.ok.inj (hsaid.symm.trans hcontent)
  refine ⟨writable_of_encodeFrame hencode, ?_⟩
  rcases hwhy with
    ⟨taken, hunsettled, received, digest, expiresAt, nonce, hreceived, hdigest, rfl⟩ |
    ⟨hunsettled, hspoken⟩
  · obtain ⟨sent, rfl, hwritable⟩ := hL.taken taken hunsettled
    rw [hwritable.decodeFrame (hread sent hwritable)] at hreceived
    obtain rfl := Except.ok.inj hreceived
    obtain ⟨-, rfl⟩ := frameDigest_eq_ok.mp hdigest
    exact ⟨⟨rfl, .inl ⟨_, rfl, rfl, rfl⟩⟩,
      owed_of_taken (hread sent hwritable) hunsettled, .inl rfl⟩
  · obtain ⟨hdevice, hrequest⟩ := hL.given item said hunsettled hcontent
    rw [acknowledged_of_requests hrequest]
    refine ⟨⟨hdevice, .inr hrequest⟩, owed_of_unsettled fun bytes h => ?_, .inr hspoken⟩
    rw [hunsettled] at h
    cases h

/-- The relay has sent a frame. -/
theorem Linked.transmit (hread : ∀ frame, Writable C frame → C.decode (C.encode frame) = some frame)
    (hL : Linked P C config link) {channel : ℕ} {item : Outgoing} {frame : V1.RelayFrame}
    {relay : Program Hub RelayOutcome}
    (hspeech : Speaks P C config.deviceId link.log (.transmit channel item))
    (hcontent : item.content = .ok frame)
    (hspeaks : RelaySpeaks P C config.deviceId relay (⟨.transmit channel item, true⟩ :: link.log)
      fun _ _ => True) :
    Linked P C config
      { link with
        relay, log := ⟨.transmit channel item, true⟩ :: link.log
        down := link.down ++ [frame] } := by
  obtain ⟨hwritable, hfrom, howed, hwhy⟩ := hL.utters hread hspeech hcontent
  refine
    { speaks := hspeaks
      up := hL.up
      down := ?_
      taken := fun bytes h => by cases h
      given := fun item frame h => by cases h
      greeted := ?_
      nodup := hL.nodup
      matched := ?_ }
  · intro other hother
    rcases List.mem_append.mp hother with hold | hnew
    · exact hL.down other hold
    · obtain rfl := List.mem_singleton.mp hnew
      exact ⟨hwritable, hfrom⟩
  · intro attempt hello h
    obtain ⟨hdevice, ⟨hnone, hsilent⟩ | ⟨first, others, hdown, hfirst⟩⟩ :=
      hL.greeted attempt hello h
    · rcases hwhy with hack | hspoken
      · exact ⟨hdevice, .inr ⟨frame, [], by rw [hnone]; rfl, hack⟩⟩
      · rw [hsilent hspeech.1] at hspoken
        cases hspoken
    · exact ⟨hdevice, .inr ⟨first, others ++ [frame], by rw [hdown]; rfl, hfirst⟩⟩
  · intro hconnected
    obtain ⟨onItsWay, hmatched, hopen⟩ := hL.matched hconnected
    refine ⟨link.up.map (entry P C), ?_, fun _ => rfl⟩
    rw [← hmatched, hopen hspeech.1, howed, List.filterMap_append, List.append_assoc]
    cases hack : acknowledged frame <;> simp [hack]

/-- The relay takes a step. -/
theorem Linked.relay (hread : ∀ frame, Writable C frame → C.decode (C.encode frame) = some frame)
    (hL : Linked P C config link) {op : HubOp} {next : op.Reply → Program Hub RelayOutcome}
    {reply : op.Reply} {up down : List V1.RelayFrame} (hrelay : link.relay = .step op next)
    (hcarries : Carries C config link.up link.down ⟨op, reply⟩ up down) :
    Linked P C config
      { link with relay := next reply, log := ⟨op, reply⟩ :: link.log, up, down } := by
  have hspeaks := hL.speaks
  rw [hrelay, RelaySpeaks, safe_step] at hspeaks
  obtain ⟨hspeech, hspeaks⟩ := hspeaks
  cases op with
  | select channel bound =>
      refine hL.select hread hspeech.2.2 (hspeaks reply ?_) hcarries
      cases reply with
      | outgoing item => exact hcarries.1
      | incoming message => trivial
  | transmit channel item =>
      have hspeaks := hspeaks reply trivial
      cases reply with
      | true =>
          obtain ⟨rfl, frame, hcontent, rfl⟩ := hcarries
          exact hL.transmit hread hspeech hcontent hspeaks
      | false =>
          obtain ⟨rfl, rfl⟩ := hcarries
          exact hL.hears hspeaks (fun _ h => h) (fun bytes h => by cases h)
            (fun item frame h => by cases h) fun hclosing => by cases hclosing
  | control channel =>
      obtain ⟨rfl, rfl⟩ := hcarries
      refine hL.hears (hspeaks reply trivial) (fun _ h => h) (fun bytes h => by cases h)
        (fun item frame h => by cases h) fun hclosing => ?_
      rw [closing, Bool.or_eq_false_iff] at hclosing
      refine ⟨hclosing.2, rfl, ?_⟩
      rw [owed_of_unsettled (fun bytes h => by cases h), owed_of_unsettled fun bytes h => ?_]
      rw [h] at hclosing
      cases hclosing.1
  | _ =>
      obtain ⟨rfl, rfl⟩ := hcarries
      exact hL.offSocket rfl (hspeaks reply trivial)

/-! ### Every link -/

/-- What a run of the relay does to the connection. -/
def Conveys (C : FrameCodec) (config : RemoteConfig) :
    History Hub → List V1.RelayFrame → List V1.RelayFrame → List V1.RelayFrame →
      List V1.RelayFrame → Prop
  | [], up, down, up', down' => up' = up ∧ down' = down
  | e :: h, up, down, up', down' => ∃ up₁ down₁, Conveys C config h up down up₁ down₁ ∧
      Carries C config up₁ down₁ e up' down'

theorem Reached.path {relay : Program Hub RelayOutcome} {h : History Hub}
    {up down : List V1.RelayFrame} (hreached : Reached P C config calls link)
    (path : Path link.relay h relay) (hconveys : Conveys C config h link.up link.down up down) :
    Reached P C config calls { link with relay, log := h ++ link.log, up, down } := by
  induction path generalizing up down with
  | nil =>
      obtain ⟨rfl, rfl⟩ := hconveys
      exact hreached
  | cons reply _ ih =>
      obtain ⟨up₁, down₁, hconveys, hcarries⟩ := hconveys
      obtain ⟨start, hbegins, hruns⟩ := ih hconveys
      exact ⟨start, hbegins, hruns.tail (.relay rfl hcarries)⟩

end RelayLink

namespace Sample

/-- What the device says first. -/
def linkHello : V1.RelayFrame :=
  { wireVersion := 1
    messageId := hexEncode random.toList
    deviceId := "device"
    expiresAt := some ⟨30, 10000000⟩
    nonce := random.toList
    payload := some (.deviceHello
      { deviceId := "device"
        agentVersion := "1"
        transports := ["wss+protobuf"]
        capabilities :=
          ["relay.heartbeat", "filesystem.read", "filesystem.list", "filesystem.search_files",
            "filesystem.search_content", "filesystem.info", "git.status", "git.diff",
            "process.list", "process.inspect", "filesystem.write.approval",
            "terminal.exec.approval", "terminal.poll", "terminal.cancel"] }) }

/-- The answer of the relay. -/
def linkAck : V1.RelayFrame :=
  ackFrame "device" linkHello.messageId (reference.sha256 [0]) ⟨30, 10000000⟩ random

/-- The relay takes the hello. -/
def accepting : History Hub :=
  [⟨.register "device" 0 random, ()⟩, ⟨.random, random⟩, ⟨.accept linkHello 10, .ok ()⟩,
    ⟨.clock, .ok 10⟩]

/-- The relay acknowledges the hello. -/
def acknowledging : History Hub :=
  [⟨.transmit 0 ⟨.ok linkAck, none⟩, true⟩, ⟨.random, random⟩]

/-- The relay has acknowledged the hello. -/
def acknowledged : History Hub :=
  (acknowledging ++ accepting ++ [⟨.select 0 false, .incoming (.binary [0])⟩]) ++
    [⟨.openChannel, 0⟩]

end Sample

end VorCommander
