import VorCommander.Hub.Semantics
import VorCommander.Hub.Sessions

/-!
What each program of a hub does at most.

A program plays one role. A caller takes one slot, for its own request, and
sends and waits with that; when it is over it has got a result or given its
slot back. A connection opens one channel, registers one device with it and
hands in results for that device only. `HubPrograms` is a set of programs that
keep to their roles, and the two hubs are two of them.
-/

namespace VorCommander

open Crypto Steps Steps.Program Text

/-! ### What a program has done -/

/-- The slot that a caller has taken. -/
def reservedSlot : History Hub → Option ℕ
  | [] => none
  | ⟨.reserve _ _, .reserved slot⟩ :: _ => some slot
  | _ :: h => reservedSlot h

/-- The channel that a connection has opened. -/
def openedChannel : History Hub → Option ℕ
  | [] => none
  | ⟨.openChannel, channel⟩ :: _ => some channel
  | _ :: h => openedChannel h

/-- The device that a connection has registered. -/
def registeredDevice : History Hub → Option String
  | [] => none
  | ⟨.register deviceId _ _, _⟩ :: _ => some deviceId
  | _ :: h => registeredDevice h

/-- What has been taken out of the channel. -/
def Taken (h : History Hub) (channel : ℕ) (item : Outgoing) : Prop :=
  (∃ bound, ⟨.select channel bound, .outgoing (some item)⟩ ∈ h) ∨ ⟨.take channel, item⟩ ∈ h

/-! ### Roles -/

/-- A caller with its device and its request, a connection with what it needs
to open a channel and to register a device, the writing task of a channel, or
something that happens outside of the hub. -/
inductive Role
  | caller (deviceId : String) (request : V1.ActionRequest)
  | session (opens : History Hub → Prop) (registers : History Hub → String → Prop)
  | stream (channel : ℕ)
  | outside

/-- What a program in a role does at most. `sound` is what the hub has made sure
of a frame for a device before it sends it. -/
def Follows (limit : Option ℕ) (sound : String → V1.RelayFrame → Prop) :
    Role → History Hub → HubOp → Prop
  | .caller deviceId request, h, op =>
      match op with
      | .clock => True
      | .random => True
      | .lookup deviceId' => deviceId' = deviceId
      | .reserve key most =>
          key = (deviceId, request.requestId) ∧ most = limit ∧ reservedSlot h = none
      | .send channel item _ => ∃ slot frame session, reservedSlot h = some slot ∧
          item = ⟨.ok frame, some slot⟩ ∧ frame.request = some request ∧ sound deviceId frame ∧
          ⟨.lookup deviceId, some session⟩ ∈ h ∧ session.sender = channel
      | .await slot => reservedSlot h = some slot
      | .remove key slot => key = (deviceId, request.requestId) ∧ reservedSlot h = some slot
      | _ => False
  | .session opens registers, h, op =>
      match op with
      | .clock => True
      | .random => True
      | .accept _ _ => True
      | .validate _ _ _ => ∀ token scope now reply, ⟨.validate token scope now, reply⟩ ∉ h
      | .openChannel => openedChannel h = none ∧ opens h
      | .closeChannel channel => openedChannel h = some channel
      | .select channel _ => openedChannel h = some channel
      | .receive channel => openedChannel h = some channel
      | .control channel => openedChannel h = some channel
      | .register deviceId channel _ =>
          openedChannel h = some channel ∧ registeredDevice h = none ∧ registers h deviceId
      | .unregister deviceId _ => registeredDevice h = some deviceId
      | .complete channel deviceId _ =>
          openedChannel h = some channel ∧ registeredDevice h = some deviceId
      | .send channel item _ => openedChannel h = some channel ∧ item.slot = none ∧
          ∀ frame, item.content = .ok frame → frame.request = none ∧
            ∃ deviceId, registeredDevice h = some deviceId ∧ sound deviceId frame
      | .transmit channel item => openedChannel h = some channel ∧
          (Taken h channel item ∨ ∃ frame, item.content = .ok frame ∧ frame.request = none)
      | _ => False
  | .stream channel, h, op =>
      match op with
      | .take channel' => channel' = channel
      | .transmit channel' item => channel' = channel ∧ Taken h channel item
      | .closeChannel channel' => channel' = channel
      | _ => False
  | .outside, _, op =>
      match op with
      | .elapse _ => True
      | .store _ _ => True
      | .drop _ => True
      | .closeChannel _ => True
      | _ => False

/-- What a program has done when it is over: a caller that has taken a slot has
given it back or has got a result at it. -/
def Ends : Role → History Hub → Prop
  | .caller _ _, h => ∀ slot, reservedSlot h = some slot →
      (∃ key, ⟨.remove key slot, ()⟩ ∈ h) ∨ ∃ answer, ⟨.await slot, .answered answer⟩ ∈ h
  | _, _ => True

/-- The programs of a hub, each of which keeps to its role. -/
structure HubPrograms where
  Entry : Type
  Result : Type
  body : Entry → Program Hub Result
  role : Entry → Role
  limit : Option ℕ
  sound : String → V1.RelayFrame → Prop
  follows : ∀ entry, Safe (fun _ _ => True) (Follows limit sound (role entry))
    (fun h _ => Ends (role entry) h) (body entry) []

/-- The runs of a hub. -/
def HubPrograms.system (P : Primitives) (H : HubPrograms) : System Hub where
  State := HubState
  Entry := H.Entry
  Result := H.Result
  body := H.body
  Commit s e s' := e.op.Commits P s e.reply s'

/-! ### Callers -/

section Callers

variable {limit : Option ℕ} {sound : String → V1.RelayFrame → Prop} {deviceId : String}
  {request : V1.ActionRequest} {h : History Hub}

/-- A program that plays the role of a caller and ends as one. -/
abbrev Calls (limit : Option ℕ) (sound : String → V1.RelayFrame → Prop) (deviceId : String)
    (request : V1.ActionRequest) {ε α : Type} (p : HubM ε α) (h : History Hub) : Prop :=
  Safe (fun _ _ => True) (Follows limit sound (.caller deviceId request))
    (fun h _ => Ends (.caller deviceId request) h) p.run h

theorem calls_giveUp {slot : ℕ} {reason : Hub.Unanswered} (hslot : reservedSlot h = some slot) :
    Calls limit sound deviceId request
      (Hub.giveUp (deviceId, request.requestId) slot reason) h := by
  simp only [Calls, Hub.giveUp, safe_exceptT_bind]
  refine safe_hubCall (.remove _ _) ⟨rfl, hslot⟩ fun reply _ => ?_
  simp only [then_ok, safe_exceptT_throw]
  intro taken htaken
  obtain rfl : slot = taken := Option.some.inj (hslot.symm.trans htaken)
  exact .inl ⟨_, List.mem_cons_self⟩

theorem calls_sendAndAwait {slot : ℕ} {session : DeviceSession} {frame : V1.RelayFrame}
    {bounded : Bool} (hslot : reservedSlot h = some slot)
    (hlookup : ⟨.lookup deviceId, some session⟩ ∈ h) (hrequest : frame.request = some request)
    (hsound : sound deviceId frame) :
    Calls limit sound deviceId request
      (Hub.sendAndAwait (deviceId, request.requestId) session.sender slot frame bounded) h := by
  simp only [Calls, Hub.sendAndAwait, safe_exceptT_bind]
  refine safe_hubCall (.send _ _ _)
    ⟨slot, frame, session, hslot, rfl, hrequest, hsound, hlookup, rfl⟩ fun reply _ => ?_
  cases reply with
  | closed => exact calls_giveUp hslot
  | elapsed => exact calls_giveUp hslot
  | sent =>
      simp only [then_ok, safe_exceptT_bind]
      refine safe_hubCall (.await slot) hslot fun reply _ => ?_
      cases reply with
      | closed => exact calls_giveUp hslot
      | elapsed => exact calls_giveUp hslot
      | answered answer =>
          simp only [then_ok, safe_exceptT_pure]
          intro taken htaken
          obtain rfl : slot = taken := Option.some.inj (hslot.symm.trans htaken)
          exact .inr ⟨answer, List.mem_cons_self⟩

/-- Whoever has no slot may end. -/
theorem ends_of_no_slot (deviceId : String) (request : V1.ActionRequest)
    (hslot : reservedSlot h = none) : Ends (.caller deviceId request) h := by
  intro slot hsome
  rw [hslot] at hsome
  cases hsome

theorem calls_adapt {ε ε' α : Type} {error : ε' → ε} {p : HubM ε' α}
    (hp : Calls limit sound deviceId request p h) :
    Calls limit sound deviceId request (ExceptT.adapt error p) h := by
  rw [Calls, safe_exceptT_adapt]
  exact hp

/-- A check comes first. -/
theorem calls_check {ε α β : Type} {r : Except ε α} {f : α → HubM ε β}
    (hslot : reservedSlot h = none)
    (hf : ∀ a, r = .ok a → Calls limit sound deviceId request (f a) h) :
    Calls limit sound deviceId request (check r >>= f) h := by
  rw [Calls, safe_exceptT_bind, safe_check, then_iff]
  exact ⟨fun _ _ => ends_of_no_slot _ _ hslot, hf⟩

theorem calls_throw {ε α : Type} {error : ε} (hslot : reservedSlot h = none) :
    Calls limit sound deviceId request (throw error : HubM ε α) h :=
  (safe_exceptT_throw error).mpr (ends_of_no_slot _ _ hslot)

end Callers

/-! ### The callers of the relay -/

section RelayCallers

variable {deviceId : String} {request : V1.ActionRequest} {h : History Hub}

theorem calls_submit {kind : String} {payload : V1.Payload} (hslot : reservedSlot h = none)
    (hpayload : payload.request = some request) :
    Calls none (fun _ _ => True) deviceId request
      (RelayHub.submit deviceId kind request payload) h := by
  rw [Calls, RelayHub.submit, safe_exceptT_bind]
  refine safe_hubCall (.lookup deviceId) rfl fun found _ => ?_
  refine calls_check hslot fun session hfound => ?_
  obtain rfl := orFail_eq_ok.mp hfound
  rw [Calls, safe_exceptT_bind]
  refine safe_hubCall (.reserve _ _) ⟨rfl, rfl, hslot⟩ fun reply _ => ?_
  cases reply with
  | duplicate => exact calls_throw hslot
  | tooMany => exact calls_throw hslot
  | reserved slot =>
      rw [then_ok, safe_exceptT_bind]
      refine safe_hubCall .random trivial fun bits _ => ?_
      rw [then_ok, safe_exceptT_bind]
      refine safe_hubCall .random trivial fun nonce _ => ?_
      exact calls_adapt (calls_sendAndAwait rfl (by simp) hpayload trivial)

theorem calls_relayAction {L : Libraries} :
    Calls none (fun _ _ => True) deviceId request (RelayHub.dispatchAction L deviceId request) [] :=
  calls_check rfl fun _ _ => calls_submit rfl rfl

theorem calls_relayApproved {L : Libraries} {approval : V1.ApprovalGrant} :
    Calls none (fun _ _ => True) deviceId request
      (RelayHub.dispatchApprovedAction L deviceId request approval) [] :=
  calls_check rfl fun _ _ => calls_submit rfl rfl

end RelayCallers

/-! ### The callers of the private link -/

/-- What the private link has made sure of a frame: everything that the device
checks but the identifier of the device, the range of the nanoseconds, and what
depends on the moment. The range is left open only where an action request is
not sealed again. -/
structure Sendable (deviceId : String) (frame : V1.RelayFrame) : Prop where
  version : frame.wireVersion = Wire.wireVersion
  messageId : Wire.IsId frame.messageId
  deviceId : frame.deviceId = deviceId
  nonce : 16 ≤ frame.nonce.length
  payload : ∃ payload, frame.payload = some payload ∧ payload.forDevice = true
  expiry : ∃ timestamp expires, frame.expiresAt = some timestamp ∧
    PrivateLinkHub.timestampToMs timestamp = some expires
  canonical : (∀ request, frame.payload ≠ some (.actionRequest request)) →
    ∃ expires, Wire.requiredExpiry frame.expiresAt = .ok expires

theorem isId_messageId {kind : String} {c : Char} {rest : List Char} {bits : Random128}
    (hkind : kind = String.ofList (c :: rest)) (hc : isWhitespace c = false)
    (hlength : byteLength kind ≤ 96) : Wire.IsId (Hub.messageId kind bits) := by
  constructor
  · have hlist : Hub.messageId kind bits =
        String.ofList (c :: (rest ++ (hexEncode bits.toList).toList)) := by
      rw [Hub.messageId, hkind, ← List.cons_append, String.ofList_append, String.ofList_toList]
    rw [hlist]
    exact isBlank_of_head hc _
  · have hhex := byteLength_hexEncode bits.toList
    rw [Vector.length_toList] at hhex
    change (kind ++ hexEncode bits.toList).utf8ByteSize ≤ 128
    rw [String.utf8ByteSize_append]
    unfold byteLength at hhex hlength
    omega

theorem sendable_actionFrame {deviceId kind : String} {c : Char} {rest : List Char}
    {bits nonce : Random128} {request : V1.ActionRequest} {payload : V1.Payload} {expires : ℕ}
    (hkind : kind = String.ofList (c :: rest)) (hc : isWhitespace c = false)
    (hlength : byteLength kind ≤ 96) (hpayload : payload.forDevice = true)
    (hexpiry : request.expiresAt.bind PrivateLinkHub.timestampToMs = some expires)
    (hcanonical : (∀ request, payload ≠ .actionRequest request) →
      ∃ expires, Wire.requiredExpiry request.expiresAt = .ok expires) :
    Sendable deviceId
      (Hub.actionFrame deviceId (Hub.messageId kind bits) nonce request payload) where
  version := rfl
  messageId := isId_messageId hkind hc hlength
  deviceId := rfl
  nonce := by simp [Hub.actionFrame]
  payload := ⟨payload, rfl, hpayload⟩
  expiry := by
    obtain ⟨timestamp, htimestamp, hexpires⟩ := Option.bind_eq_some_iff.mp hexpiry
    exact ⟨timestamp, expires, htimestamp, hexpires⟩
  canonical hother := hcanonical fun other hpayload => hother other (congrArg some hpayload)

section PrivateLinkCallers

variable {deviceId : String} {request : V1.ActionRequest} {h : History Hub}

theorem calls_sendAndWait {frame : V1.RelayFrame} {expiresAtUnixMs : ℕ}
    (hslot : reservedSlot h = none) (hrequest : frame.request = some request)
    (hsendable : Sendable deviceId frame) :
    Calls (some PrivateLinkHub.maxPendingActionsPerDevice) Sendable deviceId request
      (PrivateLinkHub.sendAndWait deviceId request.requestId expiresAtUnixMs frame) h := by
  rw [Calls, PrivateLinkHub.sendAndWait, safe_exceptT_bind]
  refine safe_hubAsk .clock trivial fun now _ => ?_
  cases now with
  | error _ => exact ends_of_no_slot deviceId request hslot
  | ok now =>
      refine calls_check hslot fun _ _ => ?_
      rw [Calls, safe_exceptT_bind]
      refine safe_hubCall (.lookup deviceId) rfl fun found _ => ?_
      refine calls_check hslot fun session hfound => ?_
      obtain rfl := orFail_eq_ok.mp hfound
      rw [Calls, safe_exceptT_bind]
      refine safe_hubCall (.reserve _ _) ⟨rfl, rfl, hslot⟩ fun reply _ => ?_
      cases reply with
      | duplicate => exact calls_throw hslot
      | tooMany => exact calls_throw hslot
      | reserved slot =>
          exact calls_adapt (calls_sendAndAwait rfl (by simp) hrequest hsendable)

/-- The expiry that `dispatch_action` has read. -/
theorem expiry_of_actionChecks {expires : ℕ}
    (h : PrivateLinkHub.actionChecks deviceId request = .ok expires) :
    request.expiresAt.bind PrivateLinkHub.timestampToMs = some expires := by
  simp only [PrivateLinkHub.actionChecks, bind_eq_ok, exists_unit, orFail_eq_ok] at h
  exact h.2.2

/-- What `vor-wire` reads as an instant, this crate does too. -/
theorem timestampToMs_of_wire {timestamp : V1.Timestamp} {expires : ℕ}
    (h : Wire.timestampToMs timestamp = .ok expires) :
    PrivateLinkHub.timestampToMs timestamp = some expires := by
  obtain ⟨hseconds, hnanos, _, rfl, hfits⟩ := Wire.timestampToMs_eq_ok_iff.mp h
  rw [PrivateLinkHub.timestampToMs, if_pos ⟨hseconds, hnanos, hfits⟩]

/-- The expiry that `dispatch_approved_action` has read. -/
theorem expiry_of_approvedChecks {L : Libraries} {approval : V1.ApprovalGrant} {expires : ℕ}
    (h : PrivateLinkHub.approvedChecks L deviceId request approval = .ok expires) :
    Wire.requiredExpiry request.expiresAt = .ok expires := by
  simp only [PrivateLinkHub.approvedChecks, bind_eq_ok, mapError_eq_ok, exists_unit,
    pure_eq_ok] at h
  obtain ⟨canonical, hcanonical, approved, _, _, _, rfl⟩ := h
  simp only [Wire.actionRequestFromProto, bind_eq_ok, mapError_eq_ok, exists_unit,
    pure_eq_ok] at hcanonical
  obtain ⟨_, _, expires, hexpires, _, _, sealedRequest, hseal, _, rfl⟩ := hcanonical
  have henvelope := (ActionRequest.sealEnvelope_eq_ok_iff.mp hseal).2
  rwa [henvelope]

theorem timestampToMs_of_requiredExpiry {expiresAt : Option V1.Timestamp} {expires : ℕ}
    (h : Wire.requiredExpiry expiresAt = .ok expires) :
    expiresAt.bind PrivateLinkHub.timestampToMs = some expires := by
  simp only [Wire.requiredExpiry, bind_eq_ok, orFail_eq_ok] at h
  obtain ⟨timestamp, rfl, hmillis⟩ := h
  exact timestampToMs_of_wire hmillis

theorem calls_privateAction :
    Calls (some PrivateLinkHub.maxPendingActionsPerDevice) Sendable deviceId request
      (PrivateLinkHub.dispatchAction deviceId request) [] := by
  refine calls_check rfl fun expires hexpires => ?_
  rw [Calls, safe_exceptT_bind]
  refine safe_hubCall .random trivial fun bits _ => ?_
  rw [then_ok, safe_exceptT_bind]
  refine safe_hubCall .random trivial fun nonce _ => ?_
  exact calls_sendAndWait rfl rfl (sendable_actionFrame rfl (by decide) (by decide) rfl
    (expiry_of_actionChecks hexpires) fun hother => absurd rfl (hother request))

theorem calls_privateApproved {L : Libraries} {approval : V1.ApprovalGrant} :
    Calls (some PrivateLinkHub.maxPendingActionsPerDevice) Sendable deviceId request
      (PrivateLinkHub.dispatchApprovedAction L deviceId request approval) [] := by
  refine calls_check rfl fun expires hexpires => ?_
  rw [Calls, safe_exceptT_bind]
  refine safe_hubCall .random trivial fun bits _ => ?_
  rw [then_ok, safe_exceptT_bind]
  refine safe_hubCall .random trivial fun nonce _ => ?_
  have hexpiry := expiry_of_approvedChecks hexpires
  exact calls_sendAndWait rfl rfl (sendable_actionFrame rfl (by decide) (by decide) rfl
    (timestampToMs_of_requiredExpiry hexpiry) fun _ => ⟨expires, hexpiry⟩)

end PrivateLinkCallers

end VorCommander
