import VorCommander.Hub.Pending

/-!
What a stream of the private link acts upon.

A reading task acts upon a frame when it registers its device, hands in a result
or acknowledges the frame. It does so only once it has accepted a hello, and only
for the device of that hello, whose certificate is that of the stream. When it
ends, it takes its own session out of the table of devices, and no other.
-/

namespace VorCommander

open Crypto Steps Steps.Program Steps.World Text

variable {P : Primitives} {C : FrameCodec} {registry : DeviceCertificateRegistry}
  {fingerprint : Hash} {channel : ℕ} {h : History Hub} {session : PrivateSession}
  {deviceId : String} {frame : V1.RelayFrame} {e : Event Hub}

/-! ### Acting upon a frame -/

/-- The frame that was accepted last, unless another has been asked for since. -/
def acceptedFrame : History Hub → Option V1.RelayFrame
  | [] => none
  | ⟨.receive _, _⟩ :: _ => none
  | ⟨.accept frame _, .ok ()⟩ :: _ => some frame
  | _ :: h => acceptedFrame h

/-- A frame has come in on the stream and has been accepted. -/
structure Accepted (channel : ℕ) (h : History Hub) (frame : V1.RelayFrame) : Prop where
  received : ⟨.receive channel, .ok (some frame)⟩ ∈ h
  accepted : ∃ now, ⟨.accept frame now, .ok ()⟩ ∈ h

/-- The hello of a device has been accepted whose registered certificate is that of
the stream. -/
def SaidHello (registry : DeviceCertificateRegistry) (fingerprint : Hash) (channel : ℕ)
    (h : History Hub) (deviceId : String) : Prop :=
  ∃ frame hello, Accepted channel h frame ∧ frame.payload = some (.deviceHello hello) ∧
    hello.deviceId = deviceId ∧ frame.deviceId = deviceId ∧
    registry.containsMatch deviceId fingerprint = true

/-- The payloads that are acted upon. -/
def V1.Payload.forHub : V1.Payload → Bool
  | .deviceHello _ => true
  | .heartbeat _ => true
  | .actionResult _ => true
  | _ => false

/-- The stream acts upon a frame of the device that has said hello on it. -/
structure ActsUpon (registry : DeviceCertificateRegistry) (fingerprint : Hash) (channel : ℕ)
    (h : History Hub) (deviceId : String) (frame : V1.RelayFrame) : Prop where
  current : acceptedFrame h = some frame
  accepted : Accepted channel h frame
  hello : SaidHello registry fingerprint channel h deviceId
  device : frame.deviceId = deviceId
  payload : ∃ payload, frame.payload = some payload ∧ payload.forHub = true

/-- What a reading task has done before it acts. -/
def ActsInOrder (registry : DeviceCertificateRegistry) (fingerprint : Hash) (h : History Hub) :
    HubOp → Prop
  | .register deviceId channel sessionId => ⟨.random, sessionId⟩ ∈ h ∧
      ∃ frame, ActsUpon registry fingerprint channel h deviceId frame
  | .complete channel deviceId result =>
      ∃ frame, ActsUpon registry fingerprint channel h deviceId frame ∧
        frame.payload = some (.actionResult result)
  | .send channel ⟨.ok _, _⟩ _ =>
      ∃ deviceId frame, ActsUpon registry fingerprint channel h deviceId frame
  | .unregister deviceId sessionId => ⟨.random, sessionId⟩ ∈ h ∧
      ∃ channel, ⟨.register deviceId channel sessionId, ()⟩ ∈ h
  | _ => True

theorem Accepted.cons (haccepted : Accepted channel h frame) (e : Event Hub) :
    Accepted channel (e :: h) frame :=
  ⟨List.mem_cons_of_mem _ haccepted.received,
    haccepted.accepted.imp fun _ hmem => List.mem_cons_of_mem _ hmem⟩

theorem SaidHello.cons (hhello : SaidHello registry fingerprint channel h deviceId)
    (e : Event Hub) :
    SaidHello registry fingerprint channel (e :: h) deviceId := by
  obtain ⟨frame, hello, haccepted, hrest⟩ := hhello
  exact ⟨frame, hello, haccepted.cons e, hrest⟩

theorem ActsUpon.cons (hacts : ActsUpon registry fingerprint channel h deviceId frame)
    (e : Event Hub) (hsame : acceptedFrame (e :: h) = acceptedFrame h) :
    ActsUpon registry fingerprint channel (e :: h) deviceId frame :=
  ⟨hsame.trans hacts.current, hacts.accepted.cons e, hacts.hello.cons e, hacts.device,
    hacts.payload⟩

/-! ### The reading task -/

/-- What a reading task knows between two frames. -/
structure StandsAt (registry : DeviceCertificateRegistry) (fingerprint : Hash) (channel : ℕ)
    (h : History Hub) (session : PrivateSession) : Prop where
  bound : ∀ deviceId, session.boundDevice = some deviceId →
    SaidHello registry fingerprint channel h deviceId
  session : ∀ sessionId, session.sessionId = some sessionId →
    ∃ deviceId, session.boundDevice = some deviceId ∧ ⟨.random, sessionId⟩ ∈ h ∧
      ⟨.register deviceId channel sessionId, ()⟩ ∈ h

theorem StandsAt.cons (hat : StandsAt registry fingerprint channel h session) (e : Event Hub) :
    StandsAt registry fingerprint channel (e :: h) session := by
  refine ⟨fun deviceId hbound => (hat.bound deviceId hbound).cons e, fun sessionId hsession => ?_⟩
  obtain ⟨deviceId, hbound, hdrawn, hregistered⟩ := hat.session sessionId hsession
  exact ⟨deviceId, hbound, List.mem_cons_of_mem _ hdrawn, List.mem_cons_of_mem _ hregistered⟩

/-- A program that acts in order. -/
abbrev Orders (registry : DeviceCertificateRegistry) (fingerprint : Hash) {α : Type}
    (p : Program Hub α) (h : History Hub) (Q : History Hub → α → Prop) : Prop :=
  Safe (fun _ _ => True) (ActsInOrder registry fingerprint) Q p h

/-- The frame that leaves a stream bound to a device is one of the device, and of a
kind that is acted upon. -/
theorem payload_of_bindDevice {bound : Option String}
    (hbind : PrivateLink.bindDevice registry fingerprint bound frame = .ok deviceId) :
    (∃ payload, frame.payload = some payload ∧ payload.forHub = true) ∧
      (bound = none → ∃ hello, frame.payload = some (.deviceHello hello) ∧
        hello.deviceId = deviceId) := by
  unfold PrivateLink.bindDevice at hbind
  split at hbind
  · rename_i hello hpayload
    simp only [bind_eq_ok, failIf_eq_ok, exists_unit, pure_eq_ok, not_not] at hbind
    obtain ⟨hdevice, _, rfl⟩ := hbind
    exact ⟨⟨_, hpayload, rfl⟩, fun _ => ⟨hello, hpayload, hdevice⟩⟩
  · cases hbind
  · rename_i hpayload
    exact ⟨⟨_, hpayload, rfl⟩, by rintro ⟨⟩⟩
  · rename_i hpayload
    exact ⟨⟨_, hpayload, rfl⟩, by rintro ⟨⟩⟩
  · rename_i hpayload
    exact ⟨⟨_, hpayload, rfl⟩, by rintro ⟨⟩⟩
  all_goals cases hbind

theorem orders_processPrivateFrame (hat : StandsAt registry fingerprint channel h session)
    (hreceived : ⟨.receive channel, .ok (some frame)⟩ ∈ h) :
    Orders registry fingerprint
      (PrivateLink.processPrivateFrame P C registry fingerprint session.boundDevice frame).run h
      fun h' r => StandsAt registry fingerprint channel h' session ∧ ∀ deviceId ack,
        r = .ok (deviceId, ack) → ActsUpon registry fingerprint channel h' deviceId frame ∧
          (session.boundDevice = none ∨ session.boundDevice = some deviceId) := by
  have herror : ∀ {h' : History Hub} {status : Status},
      StandsAt registry fingerprint channel h' session → StandsAt registry fingerprint channel h'
        session ∧ ∀ deviceId ack, (.error status : Except Status (String × V1.RelayFrame)) =
          .ok (deviceId, ack) → ActsUpon registry fingerprint channel h' deviceId frame ∧
            (session.boundDevice = none ∨ session.boundDevice = some deviceId) :=
    fun hat => ⟨hat, by rintro _ _ ⟨⟩⟩
  rw [Orders, PrivateLink.processPrivateFrame, safe_exceptT_bind]
  refine safe_hubAsk .clock trivial fun reply _ => ?_
  have hclock := hat.cons ⟨.clock, reply⟩
  cases reply with
  | error _ => exact herror hclock
  | ok now =>
      change Safe _ _ _ _ _
      rw [safe_exceptT_bind, safe_check, then_mapError]
      refine ⟨fun _ _ => herror hclock, fun _ _ => ?_⟩
      rw [safe_exceptT_bind, safe_check, then_iff]
      refine ⟨fun _ _ => herror hclock, fun deviceId hbind => ?_⟩
      rw [safe_exceptT_bind]
      refine safe_hubAsk (.accept frame now) trivial fun reply _ => ?_
      have haccept := hclock.cons ⟨.accept frame now, reply⟩
      cases reply with
      | error _ => exact herror haccept
      | ok _ =>
          -- from here on the stream acts upon the frame
          have hacts : ActsUpon registry fingerprint channel
              (⟨.accept frame now, .ok ()⟩ :: ⟨.clock, .ok now⟩ :: h) deviceId frame := by
            have haccepted : Accepted channel
                (⟨.accept frame now, .ok ()⟩ :: ⟨.clock, .ok now⟩ :: h) frame :=
              ⟨List.mem_cons_of_mem _ (List.mem_cons_of_mem _ hreceived), now, List.mem_cons_self⟩
            obtain ⟨hdevice, hbinds⟩ := binds_of_bindDevice hbind
            obtain ⟨hpayload, hhello⟩ := payload_of_bindDevice hbind
            refine ⟨rfl, haccepted, ?_, hdevice, hpayload⟩
            rcases hbinds with hbound | ⟨hnone, hmatch⟩
            · exact ((hat.bound deviceId hbound).cons _).cons _
            · obtain ⟨hello, hhello, hsame⟩ := hhello hnone
              exact ⟨frame, hello, haccepted, hhello, hsame, hdevice, hmatch⟩
          have hbound : session.boundDevice = none ∨ session.boundDevice = some deviceId :=
            (binds_of_bindDevice hbind).2.symm.imp_left And.left
          change Safe _ _ _ _ _
          rw [PrivateLink.privateAck, safe_exceptT_bind, safe_exceptT_bind, safe_check,
            then_mapError]
          refine ⟨fun _ _ => herror haccept, fun expiresAt _ => ?_⟩
          rw [safe_exceptT_bind]
          refine safe_hubCall .random trivial fun nonce _ => ?_
          have hnonce := haccept.cons ⟨.random, nonce⟩
          rw [then_ok, safe_exceptT_bind, safe_check, then_mapError]
          refine ⟨fun _ _ => herror hnonce, fun digest _ => ?_⟩
          refine (safe_exceptT_pure _).mpr ((safe_exceptT_pure _).mpr ⟨hnonce, ?_⟩)
          rintro deviceId' ack ⟨⟩
          exact ⟨hacts.cons _ rfl, hbound⟩

theorem orders_registered (hat : StandsAt registry fingerprint channel h session)
    (hacts : ActsUpon registry fingerprint channel h deviceId frame)
    (hbound : session.boundDevice = none ∨ session.boundDevice = some deviceId) :
    Orders registry fingerprint (PrivateLink.registered channel session deviceId) h
      fun h' session' => StandsAt registry fingerprint channel h' session' ∧
        ActsUpon registry fingerprint channel h' deviceId frame := by
  unfold PrivateLink.registered
  cases hid : session.sessionId with
  | some sessionId =>
      refine (safe_done _).mpr ⟨⟨?_, ?_⟩, hacts⟩
      · rintro deviceId' ⟨⟩
        exact hacts.hello
      · rintro sessionId' ⟨⟩
        obtain ⟨deviceId', hbound', hdrawn, hregistered⟩ := hat.session sessionId hid
        obtain rfl : deviceId = deviceId' := by
          rcases hbound with hnone | hsome
          · rw [hnone] at hbound'
            cases hbound'
          · exact Option.some.inj (hsome.symm.trans hbound')
        exact ⟨deviceId, rfl, hdrawn, hregistered⟩
  | none =>
      refine safe_hubPerform .random trivial fun sessionId _ => ?_
      have hdrawn := hacts.cons ⟨.random, sessionId⟩ rfl
      refine safe_hubPerform (.register deviceId channel sessionId)
        ⟨List.mem_cons_self, frame, hdrawn⟩ fun _ _ => ?_
      have hregistered := hdrawn.cons ⟨.register deviceId channel sessionId, ()⟩ rfl
      refine (safe_done _).mpr ⟨⟨?_, ?_⟩, hregistered⟩
      · rintro deviceId' ⟨⟩
        exact hregistered.hello
      · rintro sessionId' ⟨⟩
        exact ⟨deviceId, rfl, List.mem_cons_of_mem _ List.mem_cons_self, List.mem_cons_self⟩

theorem orders_handIn (hat : StandsAt registry fingerprint channel h session)
    (hacts : ActsUpon registry fingerprint channel h deviceId frame) :
    Orders registry fingerprint (PrivateLink.handIn channel deviceId frame.payload) h
      fun h' _ => StandsAt registry fingerprint channel h' session ∧
        ActsUpon registry fingerprint channel h' deviceId frame := by
  unfold PrivateLink.handIn
  split
  · rename_i result hpayload
    refine safe_hubPerform (.complete channel deviceId result) ⟨frame, hacts, hpayload⟩
      fun completion _ => ?_
    exact (safe_done _).mpr ⟨hat.cons _, hacts.cons _ rfl⟩
  · exact (safe_done _).mpr ⟨hat, hacts⟩

/-- The rounds of the reading task, by induction on their number. -/
theorem orders_rounds {n : ℕ} (hat : StandsAt registry fingerprint channel h session) :
    Orders registry fingerprint (PrivateLink.rounds P C registry fingerprint channel n session) h
      fun h' session' => StandsAt registry fingerprint channel h' session' := by
  induction n generalizing h session with
  | zero => exact (safe_done _).mpr hat
  | succ n ih =>
      rw [Orders, PrivateLink.rounds]
      refine safe_hubPerform (.receive channel) trivial fun reply _ => ?_
      have hreceive := hat.cons ⟨.receive channel, reply⟩
      -- a status is sent, and the task ends
      have hstatus : ∀ {h' : History Hub} {status : Status},
          StandsAt registry fingerprint channel h' session → Orders registry fingerprint
            (perform (I := Hub) (.send channel ⟨.error status, none⟩ false) >>= fun _ =>
              pure session) h' fun h' session' =>
                StandsAt registry fingerprint channel h' session' := by
        intro h' status hat'
        refine safe_hubPerform (.send channel ⟨.error status, none⟩ false) trivial fun _ _ => ?_
        exact (safe_done _).mpr (hat'.cons _)
      rcases reply with status | _ | frame
      · exact hstatus hreceive
      · exact (safe_done _).mpr hreceive
      · change Safe _ _ _ (_ >>= _) _
        rw [safe_bind]
        refine (orders_processPrivateFrame hreceive List.mem_cons_self).mono fun h' r hr => ?_
        rcases r with status | ⟨deviceId, ack⟩
        · exact hstatus hr.1
        · obtain ⟨hacts, hbound⟩ := hr.2 deviceId ack rfl
          change Safe _ _ _ (_ >>= _) _
          rw [safe_bind]
          refine (orders_registered hr.1 hacts hbound).mono ?_
          rintro h' session' ⟨hat', hacts⟩
          rw [safe_bind]
          refine (orders_handIn hat' hacts).mono ?_
          rintro h' _ ⟨hat', hacts⟩
          refine safe_hubPerform (.send channel ⟨.ok ack, none⟩ false) ⟨deviceId, frame, hacts⟩
            fun sending _ => ?_
          have hsent := hat'.cons ⟨.send channel ⟨.ok ack, none⟩ false, sending⟩
          cases sending with
          | sent => exact ih hsent
          | closed => exact (safe_done _).mpr hsent
          | elapsed => exact (safe_done _).mpr hsent

theorem orders_connect {certificate : List UInt8} {n : ℕ} :
    Orders registry (P.sha256 certificate)
      (PrivateLink.connect P C registry (some certificate) n) [] fun _ _ => True := by
  refine safe_hubPerform .openChannel trivial fun channel _ => ?_
  rw [safe_bind]
  have hstart : StandsAt registry (P.sha256 certificate) channel [⟨.openChannel, channel⟩] {} :=
    ⟨by rintro _ ⟨⟩, by rintro _ ⟨⟩⟩
  refine (orders_rounds hstart).mono fun h' session hat => ?_
  rw [safe_bind]
  unfold PrivateLink.disconnect
  split
  · rename_i deviceId sessionId hbound hsession
    obtain ⟨deviceId', hbound', hdrawn, hregistered⟩ := hat.session sessionId hsession
    obtain rfl := Option.some.inj (hbound.symm.trans hbound')
    refine (safe_perform (I := Hub) (.unregister deviceId sessionId)).mpr
      ⟨⟨hdrawn, channel, hregistered⟩, fun _ _ => ?_⟩
    exact (safe_done _).mpr trivial
  · exact (safe_done _).mpr ((safe_done _).mpr trivial)

/-! ### All streams -/

section PrivateLink

variable {L : Libraries} {w w' : World ((privateLink L C registry).system L.toPrimitives)} {i : ℕ}

/-- The operations that belong to a session. -/
def HubOp.ofSession : HubOp → Bool
  | .register _ _ _ | .unregister _ _ | .complete _ _ _ => true
  | _ => false

/-- A reading task acts in order, one without a certificate does nothing, and nobody
else does what a reading task does. -/
def EntryOrder (L : Libraries) (registry : DeviceCertificateRegistry) :
    PrivateLinkEntry → History Hub → HubOp → Prop
  | .connect none _, _, _ => False
  | .connect (some certificate) _, h, op => ActsInOrder registry (L.sha256 certificate) h op
  | _, _, op => op.ofSession = false

theorem orders_entry (entry : PrivateLinkEntry) :
    Safe (fun _ _ => True) (EntryOrder L registry entry) (fun _ _ => True)
      (((privateLink L C registry).system L.toPrimitives).body entry) [] := by
  have hothers : ∀ {role : Role} (h : History Hub) (op : HubOp),
      (∀ opens registers, role ≠ .session opens registers) →
      Follows (privateLink L C registry).limit (privateLink L C registry).sound role h op →
      op.ofSession = false := by
    rintro (_ | _ | _ | _) h op hrole hfollows
    · cases op <;> first | rfl | cases hfollows
    · exact absurd rfl (hrole _ _)
    · cases op <;> first | rfl | cases hfollows
    · cases op <;> first | rfl | cases hfollows
  have hbody := (privateLink L C registry).follows entry
  cases entry with
  | connect certificate rounds =>
      cases certificate with
      | none => exact (safe_done _).mpr trivial
      | some certificate => exact orders_connect
  | dispatchAction | dispatchApprovedAction | stream | outside =>
      refine (hbody.guarantee fun h op => hothers h op ?_).mono fun _ _ _ => trivial
      rintro _ _ ⟨⟩

/-- The identifiers that two connections have drawn differ. -/
def drawn (log : Log Hub) : List (ℕ × Random128) :=
  log.filterMap fun entry =>
    match entry with
    | (i, ⟨.random, reply⟩) => some (i, reply)
    | _ => none

def DrawsDiffer (log : Log Hub) : Prop := ∀ x ∈ drawn log, ∀ y ∈ drawn log, x.2 = y.2 → x.1 = y.1

theorem mem_drawn {log : Log Hub} {sessionId : Random128} (h : (i, ⟨.random, sessionId⟩) ∈ log) :
    (i, sessionId) ∈ drawn log :=
  List.mem_filterMap.mpr ⟨_, h, rfl⟩

/-- What belongs to a session is done by a reading task in order. -/
theorem inOrder_of_log (hw : Reachable HubState.Fresh anyEntry w) {later earlier : Log Hub}
    (hlog : w.log = later ++ (i, e) :: earlier) (hsession : e.op.ofSession = true) :
    ∃ fingerprint, ActsInOrder registry fingerprint (earlier.of i) e.op := by
  obtain ⟨c, _, horder⟩ := hw.guarantee orders_entry (allowed_true w.log) hlog
  obtain ⟨entry, _, _⟩ := c
  have hothers : e.op.ofSession = false → False := by
    rw [hsession]
    rintro ⟨⟩
  cases entry with
  | connect certificate rounds =>
      cases certificate with
      | none => exact horder.elim
      | some certificate => exact ⟨_, horder⟩
  | dispatchAction | dispatchApprovedAction | stream | outside => exact (hothers horder).elim

/-- Whoever has registered a session has drawn its identifier. -/
theorem drawn_of_register (hw : Reachable HubState.Fresh anyEntry w) {sessionId : Random128}
    (h : (i, ⟨.register deviceId channel sessionId, ()⟩) ∈ w.log) :
    (i, sessionId) ∈ drawn w.log := by
  obtain ⟨later, earlier, hlog⟩ := List.append_of_mem h
  obtain ⟨_, hdrawn, _⟩ := inOrder_of_log hw hlog rfl
  rw [hlog]
  apply mem_drawn
  exact List.mem_append_right _ (List.mem_cons_of_mem _ (Log.mem_of.mp hdrawn))

/-- Whoever takes a session out has drawn its identifier before. -/
theorem drawn_of_unregister (hw' : Reachable HubState.Fresh anyEntry w') {sessionId : Random128}
    (h : w'.log = (i, ⟨.unregister deviceId sessionId, ()⟩) :: w.log) :
    (i, sessionId) ∈ drawn w.log := by
  rw [← List.nil_append (_ :: w.log)] at h
  obtain ⟨_, hdrawn, _⟩ := inOrder_of_log hw' h rfl
  exact mem_drawn (Log.mem_of.mp hdrawn)

/-- Every session in the table has been registered by some call. -/
theorem registered_of_devices (hw : Reachable HubState.Fresh anyEntry w) {session : DeviceSession}
    (h : w.shared.devices deviceId = some session) :
    ∃ i, (i, ⟨.register deviceId session.sender session.sessionId, ()⟩) ∈ w.log := by
  refine reachable_induction (J := fun w => ∀ session, w.shared.devices deviceId = some session →
    ∃ i, (i, ⟨.register deviceId session.sender session.sessionId, ()⟩) ∈ w.log)
      hw ?_ ?_ ?_ session h
  · rintro s ⟨hdevices, _⟩ session h
    change s.devices deviceId = some session at h
    rw [hdevices] at h
    cases h
  · intro w w' ih _ hidles session h
    rw [hidles.shared] at h
    rw [hidles.log]
    exact ih session h
  · intro w w' i e _ ih _ hhappens hmoves session h
    rw [hhappens.log]
    rcases hmoves.devices deviceId session h with hold | rfl
    · obtain ⟨j, hmem⟩ := ih session hold
      exact ⟨j, List.mem_cons_of_mem _ hmem⟩
    · exact ⟨i, List.mem_cons_self⟩

/-- What a step of the private link keeps to. -/
structure KeepsBinding (w w' : World ((privateLink L C registry).system L.toPrimitives)) :
    Prop where
  /-- A reading task acts in order, and nobody else does what it does. -/
  acts : ∀ i e c, w'.log = (i, e) :: w.log → w.calls i = some c →
    EntryOrder L registry c.entry (w.log.of i) e.op
  /-- A result that is handed in takes out entries of its device only. -/
  completes : ∀ i channel deviceId result reply,
    w'.log = (i, ⟨.complete channel deviceId result, reply⟩) :: w.log →
    (∀ entry ∈ w.shared.pending, entry ∉ w'.shared.pending → entry.1.1 = deviceId) ∧
      ∀ slot value value', w.shared.slots slot = some value →
        w'.shared.slots slot = some value' → value' ≠ value → value.key.1 = deviceId
  /-- A session that ends leaves the sessions of others. -/
  ends : ∀ i deviceId sessionId deviceId' session,
    w'.log = (i, ⟨.unregister deviceId sessionId, ()⟩) :: w.log →
    w.shared.devices deviceId' = some session →
    (i, ⟨.register deviceId' session.sender session.sessionId, ()⟩) ∉ w.log →
    w'.shared.devices deviceId' = some session

/-- Only the session that ends is taken out. -/
theorem devices_unregister {s s' : HubState} {sessionId : Random128} {deviceId' : String}
    {session : DeviceSession} (h : (HubOp.unregister deviceId sessionId).Commits P s () s')
    (hsession : s.devices deviceId' = some session)
    (hkept : deviceId' = deviceId → session.sessionId ≠ sessionId) :
    s'.devices deviceId' = some session := by
  obtain rfl : s' = if (s.devices deviceId).any (·.sessionId = sessionId) then
      { s with devices := Function.update s.devices deviceId none } else s := h
  split
  · rename_i hany
    have hne : deviceId' ≠ deviceId := by
      rintro rfl
      rw [hsession] at hany
      exact hkept rfl (of_decide_eq_true hany)
    show Function.update s.devices deviceId none deviceId' = some session
    rw [Function.update_of_ne hne]
    exact hsession
  · exact hsession

theorem completes_own_device {s s' : HubState} {result : V1.ActionResult} {reply : Completion}
    (hbooks : ∀ key slot, (key, slot) ∈ s.pending → ∀ key' status,
      s.slots slot = some ⟨key', status⟩ → key' = key)
    (h : (HubOp.complete channel deviceId result).Commits P s reply s') :
    (∀ entry ∈ s.pending, entry ∉ s'.pending → entry.1.1 = deviceId) ∧
      ∀ slot value value', s.slots slot = some value → s'.slots slot = some value' →
        value' ≠ value → value.key.1 = deviceId := by
  obtain ⟨s₁, hanswered, hvacate⟩ := h
  have hsame := HubState.Answered.settles hanswered
  have hs' : s' = (s₁.vacate (deviceId, result.requestId)
      (.filled ⟨result, channel, reply.answers⟩)).2 := (Prod.mk.inj hvacate).2
  subst hs'
  refine ⟨fun entry hentry hgone => ?_, fun slot value value' hslot hslot' hne => ?_⟩
  · rw [pending_vacate, hsame.pending, List.mem_filter] at hgone
    have hkey : entry.1 = (deviceId, result.requestId) := by
      by_contra hkey
      exact hgone ⟨hentry, decide_eq_true hkey⟩
    rw [hkey]
  · rcases slots_vacate _ _ _ hslot' with hold | ⟨hlookup, hwaiting, -⟩
    · rw [hsame.slots, hslot] at hold
      exact absurd (Option.some.inj hold).symm hne
    · obtain ⟨before, after, hsplit, -⟩ := List.lookup_eq_some_iff.mp hlookup
      rw [hsame.pending] at hsplit
      have hmem : ((deviceId, result.requestId), slot) ∈ s.pending := by
        rw [hsplit]
        exact List.mem_append_right _ List.mem_cons_self
      rw [hbooks _ slot hmem value.key value.status hslot]

/-- Every step of the private link keeps to it, if the identifiers that are drawn at
random differ. -/
theorem keepsBinding_of_step (L : Libraries) (C : FrameCodec) (registry : DeviceCertificateRegistry)
    (w w' : World ((privateLink L C registry).system L.toPrimitives))
    (hw : Reachable HubState.Fresh anyEntry w) (hstep : Step anyEntry w w')
    (hdraws : DrawsDiffer w.log) : KeepsBinding w w' := by
  have hbooks := books_of_reachable hw
  refine ⟨?_, ?_, ?_⟩
  · intro i e c heq hc
    cases hstep with
    | @commit j c' op next reply s hc' hrest _ =>
        obtain ⟨rfl, rfl⟩ := Prod.mk.inj (List.cons.inj heq).1
        obtain rfl := Option.some.inj (hc.symm.trans hc')
        exact hw.guarantee_next orders_entry (allowed_true w.log) hc hrest
    | start => exact absurd (congrArg List.length heq) (by simp [World.start])
    | crash => exact absurd (congrArg List.length heq) (by simp [World.crash])
  · intro i channel deviceId result reply heq
    exact completes_own_device (fun key slot hmem key' status hslot => hbooks.key_eq hmem hslot)
      (happens_of_log hw hstep heq).commits
  · intro i deviceId sessionId deviceId' session heq hsession hother
    refine devices_unregister (happens_of_log hw hstep heq).commits hsession ?_
    rintro rfl rfl
    obtain ⟨j, hregistered⟩ := registered_of_devices hw hsession
    have hj := drawn_of_register hw hregistered
    have hi := drawn_of_unregister (hw.steps (.single hstep)) heq
    obtain rfl : j = i := hdraws _ hj _ hi rfl
    exact hother hregistered

end PrivateLink

/-! ### One device that connects again -/

namespace Sample

/-- The device says hello once more, on another stream. -/
def helloAgain : HubSurroundings where
  random := Vector.replicate 16 1
  incoming _ := .binary []
  received _ := .ok (some { hello with messageId := "again", nonce := List.replicate 16 2 })

/-- The device connects again, before its first stream has ended. -/
def connectedAgain : World (link.system reference) :=
  (World.start connected 1 (PrivateLinkEntry.connect (some [1]) 1)).moves
    ((workingHub reference helloAgain).only fun op => !op.reserves) (List.replicate 8 1)

theorem connectedAgain_reachable : Reachable HubState.Fresh anyEntry connectedAgain := by
  have hsound : ∀ o : HubSurroundings, ((workingHub reference o).only fun op =>
      !op.reserves).Sound (link.system reference) := fun o => (workingHub_sound link).only _
  have hconnected : Reachable HubState.Fresh anyEntry connected :=
    ((reachable_initial freshHub_fresh).start rfl trivial).moves (hsound helloReceived) _
  refine (hconnected.start ?_ trivial).moves (hsound helloAgain) _
  decide +kernel

end Sample

open Sample in
/-- The first stream ends, and the device stays registered with the second. -/
theorem keepsBinding_of_step_connectedAgain :
    KeepsBinding connectedAgain (connectedAgain.move answers 0) := by
  have hstep : Step anyEntry connectedAgain (connectedAgain.move answers 0) := by
    rcases move_cases answers connectedAgain 0 with hsame | hmoved
    · have hlog : (connectedAgain.move answers 0).log.length = connectedAgain.log.length + 1 := by
        decide +kernel
      rw [hsame] at hlog
      omega
    · exact hmoved.step ((workingHub_sound link).only _)
  refine keepsBinding_of_step (libraries ∅) codec registry connectedAgain
    (connectedAgain.move answers 0) connectedAgain_reachable hstep ?_
  unfold DrawsDiffer
  decide +kernel

end VorCommander
