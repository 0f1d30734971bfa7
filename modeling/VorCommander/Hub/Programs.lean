import VorCommander.Hub.Guarantee

/-!
The programs of the two hubs.

The connections keep to their role too: by induction on the rounds, a
connection is always where its history says that it is. With the callers, this
makes each hub a set of programs in roles.
-/

namespace VorCommander

open Crypto Steps Steps.Program Text

/-! ### A connection of the relay -/

section RelayConnection

variable {P : Primitives} {C : FrameCodec} {authorization : Option String} {deviceId : String}
  {channel : ℕ} {h : History Hub} {session : RelaySession}

/-- The bearer of a grant for the device has been let in. -/
def Granted (authorization : Option String) (deviceId : String) (h : History Hub) : Prop :=
  ∃ token now record, bearerToken authorization = some token ∧
    ⟨.validate token "relay.connect" now, .ok record⟩ ∈ h ∧ record.actorId = deviceId

/-- A connection of the relay. -/
def Relay.role (authorization : Option String) (deviceId : String) : Role :=
  .session (Granted authorization deviceId) fun h deviceId' =>
    deviceId' = deviceId ∧ Granted authorization deviceId h

/-- Where a connection of the relay stands between two operations. -/
structure RelayAt (authorization : Option String) (deviceId : String) (channel : ℕ)
    (h : History Hub) (session : RelaySession) : Prop where
  opened : openedChannel h = some channel
  granted : Granted authorization deviceId h
  registered : registeredDevice h = if session.bound then some deviceId else none
  sessionId : session.sessionId ≠ none → session.bound = true

theorem Granted.cons {e : Event Hub} (hgranted : Granted authorization deviceId h) :
    Granted authorization deviceId (e :: h) := by
  obtain ⟨token, now, record, htoken, hmem, hactor⟩ := hgranted
  exact ⟨token, now, record, htoken, List.mem_cons_of_mem _ hmem, hactor⟩

/-- Most operations do not move a connection. -/
theorem RelayAt.cons {e : Event Hub} (hat : RelayAt authorization deviceId channel h session)
    (hopened : openedChannel (e :: h) = openedChannel h)
    (hregistered : registeredDevice (e :: h) = registeredDevice h) :
    RelayAt authorization deviceId channel (e :: h) session :=
  ⟨hopened.trans hat.opened, hat.granted.cons, hregistered.trans hat.registered, hat.sessionId⟩

/-- A program that plays the role of a connection of the relay. -/
abbrev RelayConnects (authorization : Option String) (deviceId : String) {α : Type}
    (p : Program Hub α) (h : History Hub) (Q : History Hub → α → Prop) : Prop :=
  Safe (fun _ _ => True) (Follows none (fun _ _ => True) (Relay.role authorization deviceId)) Q p h

theorem relayConnects_sendFrame {item : Outgoing} {frame : V1.RelayFrame}
    (hat : RelayAt authorization deviceId channel h session)
    (hitem : Taken h channel item ∨ ∃ frame, item.content = .ok frame ∧ frame.request = none) :
    RelayConnects authorization deviceId (Relay.sendFrame C channel item frame).run h fun h' _ =>
      RelayAt authorization deviceId channel h' session := by
  rw [RelayConnects, Relay.sendFrame, safe_exceptT_bind, safe_check, then_iff]
  refine ⟨fun _ _ => hat, fun _ _ => ?_⟩
  rw [safe_exceptT_bind]
  refine safe_hubCall (.transmit channel item) ⟨hat.opened, hitem⟩ fun sent _ => ?_
  rw [then_ok, safe_check]
  exact hat.cons rfl rfl

/-- Where a connection stands after a step that may fail. -/
def RelayStands (authorization : Option String) (deviceId : String) (channel : ℕ)
    (session : RelaySession) {α : Type} (after : α → RelaySession) (h : History Hub) :
    Except RelayError α → Prop
  | .error _ => RelayAt authorization deviceId channel h session
  | .ok a => RelayAt authorization deviceId channel h (after a)

theorem relayConnects_actOnPayload {payload : Option V1.Payload}
    (hat : RelayAt authorization deviceId channel h session) :
    RelayConnects authorization deviceId
      (Relay.actOnPayload deviceId channel session payload).run h
      (RelayStands authorization deviceId channel session id) := by
  unfold Relay.actOnPayload
  split
  · -- the first frame: the device is registered
    rename_i hello hbound
    rw [RelayConnects, safe_exceptT_bind, safe_check, then_failIf]
    refine ⟨fun _ => hat, fun _ => ?_⟩
    rw [safe_exceptT_bind]
    refine safe_hubCall .random trivial fun sessionId _ => ?_
    have hat' := hat.cons (e := ⟨.random, sessionId⟩) rfl rfl
    have hunregistered := hat'.registered
    rw [hbound] at hunregistered
    rw [then_ok, safe_exceptT_bind]
    refine safe_hubCall (.register deviceId channel sessionId)
      ⟨hat'.opened, hunregistered, rfl, hat'.granted⟩ fun _ _ => ?_
    exact (safe_exceptT_pure _).mpr ⟨hat.opened, hat'.granted.cons, rfl, fun _ => rfl⟩
  · exact (safe_exceptT_throw _).mpr hat
  · exact (safe_exceptT_pure _).mpr hat
  · rw [RelayConnects, safe_exceptT_bind, safe_check, then_failIf]
    exact ⟨fun _ => hat, fun _ => (safe_exceptT_pure _).mpr hat⟩
  · rename_i result hbound
    have hregistered := hat.registered
    rw [hbound] at hregistered
    rw [RelayConnects, safe_exceptT_bind]
    refine safe_hubCall (.complete channel deviceId result) ⟨hat.opened, hregistered⟩
      fun completion _ => ?_
    have hat' := hat.cons (e := ⟨.complete channel deviceId result, completion⟩) rfl rfl
    rw [then_ok, safe_exceptT_bind, safe_check, then_failIf]
    exact ⟨fun _ => hat', fun _ => (safe_exceptT_pure _).mpr hat'⟩
  · exact (safe_exceptT_throw _).mpr hat

theorem relayConnects_acceptFrame {bytes : List UInt8}
    (hat : RelayAt authorization deviceId channel h session) :
    RelayConnects authorization deviceId
      (Relay.acceptFrame C deviceId channel session bytes).run h
      (RelayStands authorization deviceId channel session (·.2.2)) := by
  rw [RelayConnects, Relay.acceptFrame, safe_exceptT_bind, safe_check, then_iff]
  refine ⟨fun _ _ => hat, fun frame _ => ?_⟩
  rw [safe_exceptT_bind, safe_check, then_failIf]
  refine ⟨fun _ => hat, fun _ => ?_⟩
  rw [safe_exceptT_bind]
  refine safe_hubAsk .clock trivial fun reply _ => ?_
  have hclock := hat.cons (e := ⟨.clock, reply⟩) rfl rfl
  cases reply with
  | error _ => exact hclock
  | ok now =>
      change Safe _ _ _ _ _
      rw [safe_exceptT_bind]
      refine safe_hubAsk (.accept frame now) trivial fun reply _ => ?_
      have haccept := hclock.cons (e := ⟨.accept frame now, reply⟩) rfl rfl
      cases reply with
      | error _ => exact haccept
      | ok _ =>
          change Safe _ _ _ _ _
          rw [safe_exceptT_bind]
          refine (relayConnects_actOnPayload haccept).mono fun h' r hstands => ?_
          cases r with
          | error _ => exact hstands
          | ok session' => exact (safe_exceptT_pure _).mpr hstands

theorem relayConnects_acknowledge {frame : V1.RelayFrame} {now : ℕ}
    (hat : RelayAt authorization deviceId channel h session) :
    RelayConnects authorization deviceId (Relay.acknowledge P C deviceId channel frame now).run h
      fun h' _ => RelayAt authorization deviceId channel h' session := by
  rw [RelayConnects, Relay.acknowledge, safe_exceptT_bind, safe_check, then_iff]
  refine ⟨fun _ _ => hat, fun digest _ => ?_⟩
  rw [safe_exceptT_bind, safe_check, then_iff]
  refine ⟨fun _ _ => hat, fun expiresAt _ => ?_⟩
  rw [safe_exceptT_bind]
  refine safe_hubCall .random trivial fun nonce _ => ?_
  rw [then_ok]
  exact relayConnects_sendFrame (hat.cons rfl rfl) (.inr ⟨_, rfl, rfl⟩)

theorem relayConnects_processDeviceFrame {bytes : List UInt8}
    (hat : RelayAt authorization deviceId channel h session) :
    RelayConnects authorization deviceId
      (Relay.processDeviceFrame P C deviceId channel session bytes) h fun h' result =>
        RelayAt authorization deviceId channel h' result.2 := by
  rw [RelayConnects, Relay.processDeviceFrame, safe_bind]
  refine (relayConnects_acceptFrame hat).mono fun h' r hstands => ?_
  cases r with
  | error _ => exact (safe_done _).mpr hstands
  | ok accepted =>
      obtain ⟨frame, now, session'⟩ := accepted
      change Safe _ _ _ (_ >>= _) _
      rw [safe_bind]
      exact (relayConnects_acknowledge hstands).mono fun _ _ hat' => (safe_done _).mpr hat'

/-- The rounds of a connection, by induction on their number. -/
theorem relayConnects_rounds {n : ℕ} (hat : RelayAt authorization deviceId channel h session) :
    RelayConnects authorization deviceId (Relay.rounds P C deviceId channel n session) h
      fun h' session' => RelayAt authorization deviceId channel h' session' := by
  induction n generalizing h session with
  | zero => exact (safe_done _).mpr hat
  | succ n ih =>
      rw [RelayConnects, Relay.rounds]
      refine safe_hubPerform (.select channel session.bound) hat.opened fun event _ => ?_
      have hselect := hat.cons (e := ⟨.select channel session.bound, event⟩) rfl rfl
      -- the last message to the socket, before the connection ends
      have hclose : ∀ {h' : History Hub} {session' : RelaySession},
          RelayAt authorization deviceId channel h' session' →
          RelayConnects authorization deviceId
            (perform (I := Hub) (.control channel) >>= fun _ => pure session') h'
            fun h' session' => RelayAt authorization deviceId channel h' session' := by
        intro h' session' hat'
        refine safe_hubPerform (.control channel) hat'.opened fun _ _ => ?_
        exact (safe_done _).mpr (hat'.cons rfl rfl)
      rcases event with (_ | item) | (_ | _ | bytes | _ | _ | _ | _)
      · exact (safe_done _).mpr hselect
      · cases hcontent : item.content with
        | error _ =>
            simp only [hcontent]
            exact (safe_done _).mpr hselect
        | ok frame =>
            simp only [hcontent]
            rw [safe_bind]
            have htaken : Taken (⟨.select channel session.bound, .outgoing (some item)⟩ :: h)
                channel item := .inl ⟨session.bound, List.mem_cons_self⟩
            refine (relayConnects_sendFrame hselect (.inl htaken)).mono fun h' r hat' => ?_
            cases r with
            | error _ => exact (safe_done _).mpr hat'
            | ok _ => exact ih hat'
      · exact (safe_done _).mpr hselect
      · exact (safe_done _).mpr hselect
      · change Safe _ _ _ (_ >>= _) _
        rw [safe_bind]
        refine (relayConnects_processDeviceFrame hselect).mono fun h' result hat' => ?_
        obtain ⟨_ | _, session'⟩ := result
        · exact hclose hat'
        · exact ih hat'
      · exact (safe_done _).mpr hselect
      · refine safe_hubPerform (.control channel) hselect.opened fun sent _ => ?_
        have hpong := hselect.cons (e := ⟨.control channel, sent⟩) rfl rfl
        cases sent with
        | true => exact ih hpong
        | false => exact hclose hpong
      · exact ih hselect
      · exact hclose hselect

theorem relayConnects_handleDevice {n : ℕ} (hopened : openedChannel h = none)
    (hregistered : registeredDevice h = none) (hgranted : Granted authorization deviceId h) :
    RelayConnects authorization deviceId (Relay.handleDevice P C deviceId n) h fun _ _ => True := by
  refine safe_hubPerform .openChannel ⟨hopened, hgranted⟩ fun channel _ => ?_
  rw [safe_bind]
  have hstart : RelayAt authorization deviceId channel (⟨.openChannel, channel⟩ :: h) {} :=
    ⟨rfl, hgranted.cons, hregistered, fun hsession => absurd rfl hsession⟩
  refine (relayConnects_rounds hstart).mono fun h' session hat => ?_
  rw [safe_bind]
  have hregistered := hat.registered
  have hsession := hat.sessionId
  cases hid : session.sessionId with
  | none =>
      refine safe_hubPerform (.closeChannel channel) hat.opened fun _ _ => ?_
      exact (safe_done _).mpr ((safe_done _).mpr trivial)
  | some sessionId =>
      rw [if_pos (hsession (by simp [hid]))] at hregistered
      refine safe_hubPerform (.unregister deviceId sessionId) hregistered fun _ _ => ?_
      refine safe_hubPerform (.closeChannel channel) hat.opened fun _ _ => ?_
      exact (safe_done _).mpr ((safe_done _).mpr trivial)

theorem relayConnects_deviceWs {n : ℕ} :
    RelayConnects authorization deviceId (Relay.deviceWs P C authorization deviceId n) []
      fun _ _ => True := by
  unfold Relay.deviceWs
  cases htoken : bearerToken authorization with
  | none => exact (safe_done _).mpr trivial
  | some token =>
      refine safe_hubPerform .clock trivial fun reply _ => ?_
      cases reply with
      | error _ => exact (safe_done _).mpr trivial
      | ok now =>
          have hfirst : ∀ token scope now' reply,
            (⟨.validate token scope now', reply⟩ : Event Hub) ∉
              [(⟨.clock, .ok now⟩ : Event Hub)] := by
            intro token scope now' reply hmem
            cases List.mem_singleton.mp hmem
          refine safe_hubPerform (.validate token "relay.connect" now) hfirst fun reply _ => ?_
          cases reply with
          | error _ => exact (safe_done _).mpr trivial
          | ok record =>
              change Safe _ _ _ (if record.actorId = deviceId then _ else _) _
              split
              · rename_i hactor
                exact relayConnects_handleDevice rfl rfl
                  ⟨token, now, record, htoken, List.mem_cons_self, hactor⟩
              · exact (safe_done _).mpr trivial

end RelayConnection

/-! ### A connection of the private link -/

section PrivateConnection

variable {P : Primitives} {C : FrameCodec} {registry : DeviceCertificateRegistry}
  {fingerprint : Hash} {channel : ℕ} {h : History Hub} {session : PrivateSession}

/-- The reading task of a connection of the private link. -/
def PrivateLink.role (registry : DeviceCertificateRegistry) (fingerprint : Hash) : Role :=
  .session (fun _ => True) fun _ deviceId => registry.containsMatch deviceId fingerprint = true

/-- A program that plays the role of the reading task. -/
abbrev PrivateConnects (registry : DeviceCertificateRegistry) (fingerprint : Hash) {α : Type}
    (p : Program Hub α) (h : History Hub) (Q : History Hub → α → Prop) : Prop :=
  Safe (fun _ _ => True)
    (Follows (some PrivateLinkHub.maxPendingActionsPerDevice) Sendable
      (PrivateLink.role registry fingerprint)) Q p h

/-- Where the reading task stands between two operations. -/
structure PrivateAt (channel : ℕ) (h : History Hub) (session : PrivateSession) : Prop where
  opened : openedChannel h = some channel
  registered : registeredDevice h = session.boundDevice
  sessionId : session.sessionId = none ↔ session.boundDevice = none

theorem PrivateAt.cons {e : Event Hub} (hat : PrivateAt channel h session)
    (hopened : openedChannel (e :: h) = openedChannel h)
    (hregistered : registeredDevice (e :: h) = registeredDevice h) :
    PrivateAt channel (e :: h) session :=
  ⟨hopened.trans hat.opened, hregistered.trans hat.registered, hat.sessionId⟩

/-- A stream is bound to one device, that of its certificate. -/
def Binds (registry : DeviceCertificateRegistry) (fingerprint : Hash)
    (boundDevice : Option String) (deviceId : String) : Prop :=
  boundDevice = some deviceId ∨
    boundDevice = none ∧ registry.containsMatch deviceId fingerprint = true

theorem binds_of_bindDevice {boundDevice : Option String} {frame : V1.RelayFrame}
    {deviceId : String}
    (hbind : PrivateLink.bindDevice registry fingerprint boundDevice frame = .ok deviceId) :
    frame.deviceId = deviceId ∧ Binds registry fingerprint boundDevice deviceId := by
  unfold PrivateLink.bindDevice at hbind
  split at hbind
  · simp only [bind_eq_ok, failIf_eq_ok, exists_unit, pure_eq_ok, not_not] at hbind
    obtain ⟨_, hmatch, rfl⟩ := hbind
    exact ⟨rfl, .inr ⟨rfl, hmatch⟩⟩
  · cases hbind
  · simp only [bind_eq_ok, failIf_eq_ok, exists_unit, pure_eq_ok, not_not] at hbind
    obtain ⟨rfl, rfl⟩ := hbind
    exact ⟨rfl, .inl rfl⟩
  · simp only [bind_eq_ok, failIf_eq_ok, exists_unit, pure_eq_ok, not_or, not_not] at hbind
    obtain ⟨⟨rfl, _⟩, rfl⟩ := hbind
    exact ⟨rfl, .inl rfl⟩
  · simp only [bind_eq_ok, failIf_eq_ok, exists_unit, pure_eq_ok, not_or, not_not] at hbind
    obtain ⟨⟨rfl, _⟩, rfl⟩ := hbind
    exact ⟨rfl, .inl rfl⟩
  all_goals cases hbind

/-- What `timestamp_from_ms` writes is read back. -/
theorem timestampToMs_ackExpiry {now : ℕ} {timestamp : V1.Timestamp}
    (h : ackExpiry now = .ok timestamp) :
    Wire.timestampToMs timestamp = .ok (now + ackTtlMs) := by
  simp only [ackExpiry, Wire.msToTimestamp, bind_eq_ok, mapError_eq_ok, failIf_eq_ok, exists_unit,
    pure_eq_ok, Nat.not_le] at h
  obtain ⟨hfits, _, rfl⟩ := h
  generalize now + ackTtlMs = value at hfits
  rw [Wire.timestampToMs_eq_ok_iff]
  refine ⟨?_, ?_, ?_, ?_, hfits⟩
  · show (0 : ℤ) ≤ (value : ℤ) / 1000
    omega
  · show (0 : ℤ) ≤ (value : ℤ) % 1000 * 1000000
    omega
  · show (value : ℤ) % 1000 * 1000000 < 1000000000
    omega
  · show ((value : ℤ) / 1000).toNat * 1000 + ((value : ℤ) % 1000 * 1000000).toNat / 1000000 = value
    omega

theorem sendable_ackFrame {frame : V1.RelayFrame} {digest : Hash} {timestamp : V1.Timestamp}
    {nonce : Random128} {now now' : ℕ} (hverify : Wire.verifyFrameAt frame now = .ok ())
    (hexpiry : ackExpiry now' = .ok timestamp) :
    Sendable frame.deviceId
      (ackFrame frame.deviceId frame.messageId digest timestamp nonce) where
  version := rfl
  messageId := (Wire.verifyFrameAt_eq_ok_iff.mp hverify).1.messageId
  deviceId := rfl
  nonce := by simp [ackFrame]
  payload := ⟨_, rfl, rfl⟩
  expiry := ⟨timestamp, _, rfl, timestampToMs_of_wire (timestampToMs_ackExpiry hexpiry)⟩
  canonical _ := ⟨_, timestampToMs_ackExpiry hexpiry⟩

/-- What the reading task knows of a frame that it acknowledges. -/
structure Acknowledges (registry : DeviceCertificateRegistry) (fingerprint : Hash) (channel : ℕ)
    (session : PrivateSession) (h : History Hub) (deviceId : String) (ack : V1.RelayFrame) :
    Prop where
  stands : PrivateAt channel h session
  binds : Binds registry fingerprint session.boundDevice deviceId
  sendable : Sendable deviceId ack
  request : ack.request = none

theorem privateConnects_processPrivateFrame {frame : V1.RelayFrame}
    (hat : PrivateAt channel h session) :
    PrivateConnects registry fingerprint
      (PrivateLink.processPrivateFrame P C registry fingerprint session.boundDevice frame).run h
      fun h' r => match r with
        | .error _ => PrivateAt channel h' session
        | .ok (deviceId, ack) =>
            Acknowledges registry fingerprint channel session h' deviceId ack := by
  rw [PrivateConnects, PrivateLink.processPrivateFrame, safe_exceptT_bind]
  refine safe_hubAsk .clock trivial fun reply _ => ?_
  have hclock := hat.cons (e := ⟨.clock, reply⟩) rfl rfl
  cases reply with
  | error _ => exact hclock
  | ok now =>
      change Safe _ _ _ _ _
      rw [safe_exceptT_bind, safe_check, then_mapError]
      refine ⟨fun _ _ => hclock, fun _ hverify => ?_⟩
      rw [safe_exceptT_bind, safe_check, then_iff]
      refine ⟨fun _ _ => hclock, fun deviceId hbind => ?_⟩
      obtain ⟨rfl, hbinds⟩ := binds_of_bindDevice hbind
      rw [safe_exceptT_bind]
      refine safe_hubAsk (.accept frame now) trivial fun reply _ => ?_
      have haccept := hclock.cons (e := ⟨.accept frame now, reply⟩) rfl rfl
      cases reply with
      | error _ => exact haccept
      | ok _ =>
          change Safe _ _ _ _ _
          rw [PrivateLink.privateAck, safe_exceptT_bind, safe_exceptT_bind, safe_check,
            then_mapError]
          refine ⟨fun _ _ => haccept, fun expiresAt hexpiry => ?_⟩
          rw [safe_exceptT_bind]
          refine safe_hubCall .random trivial fun nonce _ => ?_
          have hnonce := haccept.cons (e := ⟨.random, nonce⟩) rfl rfl
          rw [then_ok, safe_exceptT_bind, safe_check, then_mapError]
          refine ⟨fun _ _ => hnonce, fun digest _ => ?_⟩
          exact (safe_exceptT_pure _).mpr ((safe_exceptT_pure _).mpr
            ⟨hnonce, hbinds, sendable_ackFrame hverify hexpiry, rfl⟩)

theorem privateConnects_registered {deviceId : String} {ack : V1.RelayFrame}
    (hack : Acknowledges registry fingerprint channel session h deviceId ack) :
    PrivateConnects registry fingerprint (PrivateLink.registered channel session deviceId) h
      fun h' session' => PrivateAt channel h' session' ∧ session'.boundDevice = some deviceId := by
  unfold PrivateLink.registered
  cases hid : session.sessionId with
  | some sessionId =>
      have hbound : session.boundDevice = some deviceId := by
        rcases hack.binds with hbound | ⟨hnone, _⟩
        · exact hbound
        · rw [hack.stands.sessionId.mpr hnone] at hid
          cases hid
      refine (safe_done _).mpr ⟨⟨hack.stands.opened, ?_, by simp⟩, rfl⟩
      rw [hack.stands.registered, hbound]
  | none =>
      have hnone := hack.stands.sessionId.mp hid
      have hmatch : registry.containsMatch deviceId fingerprint = true := by
        rcases hack.binds with hbound | ⟨_, hmatch⟩
        · rw [hnone] at hbound
          cases hbound
        · exact hmatch
      refine safe_hubPerform .random trivial fun sessionId _ => ?_
      refine safe_hubPerform (.register deviceId channel sessionId)
        ⟨hack.stands.opened, hack.stands.registered.trans hnone, hmatch⟩ fun _ _ => ?_
      exact (safe_done _).mpr ⟨⟨hack.stands.opened, rfl, by simp⟩, rfl⟩

theorem privateConnects_handIn {deviceId : String} {payload : Option V1.Payload}
    (hat : PrivateAt channel h session) (hbound : session.boundDevice = some deviceId) :
    PrivateConnects registry fingerprint (PrivateLink.handIn channel deviceId payload) h
      fun h' _ => PrivateAt channel h' session := by
  unfold PrivateLink.handIn
  split
  · rename_i result
    refine safe_hubPerform (.complete channel deviceId result)
      ⟨hat.opened, hat.registered.trans hbound⟩ fun completion _ => ?_
    exact (safe_done _).mpr (hat.cons rfl rfl)
  · exact (safe_done _).mpr hat

/-- The rounds of the reading task, by induction on their number. -/
theorem privateConnects_rounds {n : ℕ} (hat : PrivateAt channel h session) :
    PrivateConnects registry fingerprint
      (PrivateLink.rounds P C registry fingerprint channel n session) h
      fun h' session' => PrivateAt channel h' session' := by
  induction n generalizing h session with
  | zero => exact (safe_done _).mpr hat
  | succ n ih =>
      rw [PrivateConnects, PrivateLink.rounds]
      refine safe_hubPerform (.receive channel) hat.opened fun reply _ => ?_
      have hreceive := hat.cons (e := ⟨.receive channel, reply⟩) rfl rfl
      -- a status is sent, and the task ends
      have hstatus : ∀ {h' : History Hub} {status : Status}, PrivateAt channel h' session →
          PrivateConnects registry fingerprint
            (perform (I := Hub) (.send channel ⟨.error status, none⟩ false) >>= fun _ =>
              pure session) h' fun h' session' => PrivateAt channel h' session' := by
        intro h' status hat'
        refine safe_hubPerform (.send channel ⟨.error status, none⟩ false) ?_ fun _ _ => ?_
        · refine ⟨hat'.opened, rfl, ?_⟩
          intro frame hframe
          cases hframe
        · exact (safe_done _).mpr (hat'.cons rfl rfl)
      rcases reply with status | _ | frame
      · exact hstatus hreceive
      · exact (safe_done _).mpr hreceive
      · change Safe _ _ _ (_ >>= _) _
        rw [safe_bind]
        refine (privateConnects_processPrivateFrame hreceive).mono fun h' r hr => ?_
        rcases r with status | ⟨deviceId, ack⟩
        · exact hstatus hr
        · change Safe _ _ _ (_ >>= _) _
          rw [safe_bind]
          refine (privateConnects_registered hr).mono ?_
          rintro h' session' ⟨hat', hbound⟩
          rw [safe_bind]
          refine (privateConnects_handIn hat' hbound).mono fun h' _ hat' => ?_
          refine safe_hubPerform (.send channel ⟨.ok ack, none⟩ false) ?_ fun sending _ => ?_
          · refine ⟨hat'.opened, rfl, fun frame hframe => ?_⟩
            obtain rfl := Except.ok.inj hframe
            exact ⟨hr.request, deviceId, hat'.registered.trans hbound, hr.sendable⟩
          · have hsent := hat'.cons (e := ⟨.send channel ⟨.ok ack, none⟩ false, sending⟩) rfl rfl
            cases sending with
            | sent => exact ih hsent
            | closed => exact (safe_done _).mpr hsent
            | elapsed => exact (safe_done _).mpr hsent

theorem privateConnects_connect {certificate : List UInt8} {n : ℕ} :
    PrivateConnects registry (P.sha256 certificate)
      (PrivateLink.connect P C registry (some certificate) n) [] fun _ _ => True := by
  refine safe_hubPerform .openChannel ⟨rfl, trivial⟩ fun channel _ => ?_
  rw [safe_bind]
  have hstart : PrivateAt channel [⟨.openChannel, channel⟩] {} :=
    ⟨rfl, rfl, ⟨fun _ => rfl, fun _ => rfl⟩⟩
  refine (privateConnects_rounds hstart).mono fun h' session hat => ?_
  rw [safe_bind]
  unfold PrivateLink.disconnect
  split
  · rename_i deviceId sessionId hbound _
    refine (safe_perform (I := Hub) (.unregister deviceId sessionId)).mpr
      ⟨hat.registered.trans hbound, fun _ _ => ?_⟩
    exact (safe_done _).mpr trivial
  · exact (safe_done _).mpr ((safe_done _).mpr trivial)

end PrivateConnection

/-- The writing task of a channel, by induction on its rounds. -/
theorem streams_stream {C : FrameCodec} {limit : Option ℕ}
    {sound : String → V1.RelayFrame → Prop} {channel n : ℕ} {h : History Hub} :
    Safe (fun _ _ => True) (Follows limit sound (.stream channel)) (fun _ _ => True)
      (PrivateLink.stream C channel n) h := by
  have hclose : ∀ {h' : History Hub},
      Safe (fun _ _ => True) (Follows limit sound (.stream channel)) (fun _ _ => True)
        (perform (I := Hub) (.closeChannel channel) >>= fun _ =>
          pure PrivateLinkOutcome.disconnected) h' := by
    intro h'
    exact safe_hubPerform (.closeChannel channel) rfl fun _ _ => (safe_done _).mpr trivial
  induction n generalizing h with
  | zero => exact hclose
  | succ n ih =>
      rw [PrivateLink.stream]
      refine safe_hubPerform (.take channel) rfl fun item _ => ?_
      have htaken : Taken (⟨.take channel, item⟩ :: h) channel item := .inr List.mem_cons_self
      cases hcontent : item.content with
      | error status =>
          simp only []
          exact safe_hubPerform (.transmit channel item) ⟨rfl, htaken⟩ fun _ _ => hclose
      | ok frame =>
          simp only []
          split
          · exact hclose
          · refine safe_hubPerform (.transmit channel item) ⟨rfl, htaken⟩ fun sent _ => ?_
            cases sent with
            | true => exact ih
            | false => exact hclose

/-! ### The two hubs -/

/-- What happens outside of a hub. -/
inductive Outside
  | elapse (nowUnixMs : ℕ)
  | store (call : GrantStoreCall) (draws : StoreDraws)
  | drop (slot : ℕ)
  | closeChannel (channel : ℕ)

def Outside.happens {α : Type} (result : α) : Outside → Program Hub α
  | .elapse nowUnixMs => .step (I := Hub) (.elapse nowUnixMs) fun _ => .done result
  | .store call draws => .step (I := Hub) (.store call draws) fun _ => .done result
  | .drop slot => .step (I := Hub) (.drop slot) fun _ => .done result
  | .closeChannel channel => .step (I := Hub) (.closeChannel channel) fun _ => .done result

theorem safe_happens {limit : Option ℕ} {sound : String → V1.RelayFrame → Prop} {α : Type}
    {result : α} {outside : Outside} :
    Safe (fun _ _ => True) (Follows limit sound .outside) (fun _ _ => True)
      (outside.happens result) [] := by
  cases outside <;>
    exact (safe_step (I := Hub) _ _).mpr ⟨trivial, fun _ _ => (safe_done _).mpr trivial⟩

/-- What can be started at the relay. -/
inductive RelayEntry
  | dispatchAction (deviceId : String) (request : V1.ActionRequest)
  | dispatchApprovedAction (deviceId : String) (request : V1.ActionRequest)
      (approval : V1.ApprovalGrant)
  | deviceWs (authorization : Option String) (deviceId : String) (rounds : ℕ)
  | outside (outside : Outside)

/-- The relay. -/
def relay (L : Libraries) (C : FrameCodec) : HubPrograms where
  Entry := RelayEntry
  Result := RelayOutcome
  body
    | .dispatchAction deviceId request =>
        .action <$> (RelayHub.dispatchAction L deviceId request).run
    | .dispatchApprovedAction deviceId request approval =>
        .action <$> (RelayHub.dispatchApprovedAction L deviceId request approval).run
    | .deviceWs authorization deviceId rounds =>
        Relay.deviceWs L.toPrimitives C authorization deviceId rounds
    | .outside outside => outside.happens .disconnected
  role
    | .dispatchAction deviceId request => .caller deviceId request
    | .dispatchApprovedAction deviceId request _ => .caller deviceId request
    | .deviceWs authorization deviceId _ => Relay.role authorization deviceId
    | .outside _ => .outside
  limit := none
  sound _ _ := True
  follows entry := by
    cases entry with
    | dispatchAction => exact (safe_map _ _).mpr calls_relayAction
    | dispatchApprovedAction => exact (safe_map _ _).mpr calls_relayApproved
    | deviceWs => exact relayConnects_deviceWs
    | outside => exact safe_happens

/-- What can be started at the private link. -/
inductive PrivateLinkEntry
  | dispatchAction (deviceId : String) (request : V1.ActionRequest)
  | dispatchApprovedAction (deviceId : String) (request : V1.ActionRequest)
      (approval : V1.ApprovalGrant)
  | connect (certificate : Option (List UInt8)) (rounds : ℕ)
  | stream (channel : ℕ) (rounds : ℕ)
  | outside (outside : Outside)

/-- The private link. -/
def privateLink (L : Libraries) (C : FrameCodec) (registry : DeviceCertificateRegistry) :
    HubPrograms where
  Entry := PrivateLinkEntry
  Result := PrivateLinkOutcome
  body
    | .dispatchAction deviceId request =>
        .action <$> (PrivateLinkHub.dispatchAction deviceId request).run
    | .dispatchApprovedAction deviceId request approval =>
        .action <$> (PrivateLinkHub.dispatchApprovedAction L deviceId request approval).run
    | .connect certificate rounds =>
        PrivateLink.connect L.toPrimitives C registry certificate rounds
    | .stream channel rounds => PrivateLink.stream C channel rounds
    | .outside outside => outside.happens .disconnected
  role
    | .dispatchAction deviceId request => .caller deviceId request
    | .dispatchApprovedAction deviceId request _ => .caller deviceId request
    | .connect certificate _ =>
        PrivateLink.role registry (L.sha256 (certificate.getD []))
    | .stream channel _ => .stream channel
    | .outside _ => .outside
  limit := some PrivateLinkHub.maxPendingActionsPerDevice
  sound := Sendable
  follows entry := by
    cases entry with
    | dispatchAction => exact (safe_map _ _).mpr calls_privateAction
    | dispatchApprovedAction => exact (safe_map _ _).mpr calls_privateApproved
    | connect certificate rounds =>
        cases certificate with
        | none => exact (safe_done _).mpr trivial
        | some certificate => exact privateConnects_connect
    | stream => exact streams_stream
    | outside => exact safe_happens

end VorCommander
