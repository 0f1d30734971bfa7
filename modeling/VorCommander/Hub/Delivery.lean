import VorCommander.Hub.Channels
import VorCommander.Hub.Working

/-!
What a device makes of the frames of the private link.

The hub checks a request before it sends it, and the device checks the frame
when it comes in. The two conversions of a timestamp differ, and time passes in
between. A frame that the device refuses ends its connection, so it is said here
exactly which frames are refused.
-/

namespace VorCommander

open Crypto Steps Steps.Program Steps.World Text

/-! ### The loop of a device -/

namespace DeviceClient

inductive InboundError
  | messageTooLarge
  | invalidServerFrame
  deriving DecidableEq

variable (P : Primitives) (C : FrameCodec) (deviceId : String)

/-- What the loop of `run_device_dispatch` does with a frame that comes in,
before it acts on it; a message above `max_decoding_message_size` is not
decoded. After an error the loop ends. -/
def acceptInbound (replay : ReplayGuard) (frame : V1.RelayFrame) (now : ℕ) :
    Except InboundError ReplayGuard := do
  failIf (Wire.maxFrameBytes < (C.encode frame).length) .messageTooLarge
  (Wire.verifyFrameAt frame now).mapError fun _ => .invalidServerFrame
  failIf (frame.deviceId ≠ deviceId) .invalidServerFrame
  (replay.accept P frame now).1.mapError fun _ => .invalidServerFrame
  failIf (¬ frame.payload.any V1.Payload.forDevice) .invalidServerFrame
  return (replay.accept P frame now).2

/-- The loop goes on after the frame. -/
def Accepts (replay : ReplayGuard) (frame : V1.RelayFrame) (now : ℕ) : Prop :=
  ∃ next, acceptInbound P C deviceId replay frame now = .ok next

variable {P C deviceId} {replay : ReplayGuard} {frame : V1.RelayFrame} {now : ℕ}

theorem accepts_iff : Accepts P C deviceId replay frame now ↔
    (C.encode frame).length ≤ Wire.maxFrameBytes ∧ Wire.verifyFrameAt frame now = .ok () ∧
      frame.deviceId = deviceId ∧ ¬ (replay.prune now).Seen P frame ∧ ¬ (replay.prune now).Full ∧
      frame.payload.any V1.Payload.forDevice = true := by
  simp only [Accepts, acceptInbound, bind_eq_ok, failIf_eq_ok, exists_unit, mapError_eq_ok,
    pure_eq_ok, Nat.not_lt, not_not, ReplayGuard.accept_eq_ok_iff]
  constructor
  · rintro ⟨_, hsize, hverify, hdevice, ⟨_, hseen, hfull⟩, hpayload, _⟩
    exact ⟨hsize, hverify, hdevice, hseen, hfull, hpayload⟩
  · rintro ⟨hsize, hverify, hdevice, hseen, hfull, hpayload⟩
    exact ⟨_, hsize, hverify, hdevice, ⟨hverify, hseen, hfull⟩, hpayload, rfl⟩

end DeviceClient

/-! ### The devices of the private link -/

/-- A device of the registry has an identifier of the wire. -/
theorem isId_of_validDeviceId {value : String} (h : validDeviceId value = true) :
    Wire.IsId value := by
  unfold validDeviceId at h
  split at h
  · rename_i first last hfirst _
    simp only [Bool.and_eq_true, decide_eq_true_eq] at h
    obtain ⟨rest, hlist⟩ : ∃ rest, value.toList = first :: rest := by
      cases hvalue : value.toList with
      | nil => simp [hvalue] at hfirst
      | cons c rest =>
          rw [hvalue] at hfirst
          obtain rfl := Option.some.inj hfirst
          exact ⟨rest, rfl⟩
    have hvalue : value = String.ofList (first :: rest) := by
      rw [← hlist, String.ofList_toList]
    refine ⟨?_, h.1.1.1.1.1⟩
    rw [hvalue]
    exact isBlank_of_head (isWhitespace_of_isAlphanum h.1.1.1.1.2) rest
  · cases h

section PrivateLink

variable {L : Libraries} {C : FrameCodec} {registry : DeviceCertificateRegistry}
  {w : World ((privateLink L C registry).system L.toPrimitives)}

/-- Whoever is registered with the hub is in its registry. -/
theorem isId_of_deviceOf (hw : Reachable HubState.Fresh anyEntry w) {j : ℕ} {deviceId : String}
    (h : deviceOf w j = some deviceId) : Wire.IsId deviceId := by
  obtain ⟨opens, registers, history, hrole, hregisters⟩ := registers_of_deviceOf hw h
  obtain ⟨c, _, hentry⟩ := Option.map_eq_some_iff.mp hrole
  obtain ⟨entry, _, _⟩ := c
  cases entry with
  | connect certificate rounds =>
      obtain ⟨_, hregister⟩ := Role.session.inj hentry
      have hmatch : registry.containsMatch deviceId (L.sha256 (certificate.getD [])) = true := by
        rw [← hregister] at hregisters
        exact hregisters
      exact isId_of_validDeviceId (DeviceCertificateRegistry.valid_of_containsMatch hmatch)
  | dispatchAction | dispatchApprovedAction | stream | outside => cases hentry

/-- A frame that the hub has put in the channel of a connection. -/
def Sent (w : World ((privateLink L C registry).system L.toPrimitives)) (channel : ℕ)
    (frame : V1.RelayFrame) : Prop :=
  ∃ slot, SentTo w channel ⟨.ok frame, slot⟩

/-- These are the frames that come to the wire. -/
theorem sent_of_transmit (hw : Reachable HubState.Fresh anyEntry w) {i channel channel' : ℕ}
    {frame : V1.RelayFrame} {slot : Option ℕ} {reply : Bool}
    (hrole : roleOf w i = some (.stream channel))
    (h : (i, ⟨.transmit channel' ⟨.ok frame, slot⟩, reply⟩) ∈ w.log) : Sent w channel frame :=
  ⟨slot, (sentTo_of_transmit hw hrole h).2⟩

theorem Sent.sendable (hw : Reachable HubState.Fresh anyEntry w) {channel : ℕ}
    {frame : V1.RelayFrame} (hsent : Sent w channel frame) {j : ℕ} {deviceId : String}
    (hchannel : channelOf w j = some channel) (hdevice : deviceOf w j = some deviceId) :
    Sendable deviceId frame := by
  obtain ⟨slot, i, bounded, hmem⟩ := hsent
  obtain ⟨k, deviceId', hchannel', hdevice', hsound⟩ := (origin_of_mem hw hmem).sound
  obtain rfl := (wired_of_reachable hw).alone j k channel hchannel hchannel'
  obtain rfl := Option.some.inj (hdevice.symm.trans hdevice')
  exact hsound

/-- What is left open when a frame is sent: its timestamp has a fraction of a
second, it arrives before it expires, it fits into a message, and the device
neither has had it nor has its window full. -/
structure Deliverable (P : Primitives) (C : FrameCodec) (replay : ReplayGuard)
    (frame : V1.RelayFrame) (now : ℕ) : Prop where
  inTime : ∃ timestamp expires, frame.expiresAt = some timestamp ∧
    timestamp.nanos < 1000000000 ∧ PrivateLinkHub.timestampToMs timestamp = some expires ∧
    now < expires
  fits : (C.encode frame).length ≤ Wire.maxFrameBytes
  unseen : ¬ (replay.prune now).Seen P frame
  room : ¬ (replay.prune now).Full

theorem privateTimestampToMs_eq_some_iff {timestamp : V1.Timestamp} {expires : ℕ} :
    PrivateLinkHub.timestampToMs timestamp = some expires ↔
      0 ≤ timestamp.seconds ∧ 0 ≤ timestamp.nanos ∧
        timestamp.seconds.toNat * 1000 + timestamp.nanos.toNat / 1000000 = expires ∧
        expires < 2 ^ 64 := by
  unfold PrivateLinkHub.timestampToMs
  constructor
  · intro h
    split at h
    · rename_i hrange
      obtain rfl := Option.some.inj h
      exact ⟨hrange.1, hrange.2.1, rfl, hrange.2.2⟩
    · cases h
  · rintro ⟨hseconds, hnanos, rfl, hfits⟩
    rw [if_pos ⟨hseconds, hnanos, hfits⟩]

/-- Both read the same instant, if there is a fraction of a second. -/
theorem requiredExpiry_eq_ok_iff_private {expiresAt : Option V1.Timestamp} {expires : ℕ} :
    Wire.requiredExpiry expiresAt = .ok expires ↔ ∃ timestamp, expiresAt = some timestamp ∧
      timestamp.nanos < 1000000000 ∧ PrivateLinkHub.timestampToMs timestamp = some expires := by
  simp only [Wire.requiredExpiry, bind_eq_ok, orFail_eq_ok, Wire.timestampToMs_eq_ok_iff,
    privateTimestampToMs_eq_some_iff]
  constructor
  · rintro ⟨timestamp, htimestamp, hseconds, hnanos, hrange, hexpires, hfits⟩
    exact ⟨timestamp, htimestamp, hrange, hseconds, hnanos, hexpires, hfits⟩
  · rintro ⟨timestamp, htimestamp, hrange, hseconds, hnanos, hexpires, hfits⟩
    exact ⟨timestamp, htimestamp, hseconds, hnanos, hrange, hexpires, hfits⟩

theorem Sendable.wellShaped {deviceId : String} {frame : V1.RelayFrame}
    (h : Sendable deviceId frame) (hdevice : Wire.IsId deviceId) : Wire.WellShaped frame where
  version := h.version
  messageId := h.messageId
  deviceId := by rwa [h.deviceId]
  nonce := h.nonce
  payload := by
    obtain ⟨payload, hpayload, _⟩ := h.payload
    rw [hpayload]
    simp

/-- In every run, the device of a connection accepts what the hub has sent over
it, at any moment and with any window, exactly if it is deliverable. -/
theorem frame_accepted_iff (hw : Reachable HubState.Fresh anyEntry w) {channel j : ℕ}
    {deviceId : String} {frame : V1.RelayFrame} (hsent : Sent w channel frame)
    (hchannel : channelOf w j = some channel) (hdevice : deviceOf w j = some deviceId)
    (replay : ReplayGuard) (now : ℕ) :
    DeviceClient.Accepts L.toPrimitives C deviceId replay frame now ↔
      Deliverable L.toPrimitives C replay frame now := by
  have hsendable := hsent.sendable hw hchannel hdevice
  have hshape := hsendable.wellShaped (isId_of_deviceOf hw hdevice)
  rw [DeviceClient.accepts_iff, Wire.verifyFrameAt_eq_ok_iff]
  constructor
  · rintro ⟨hfits, ⟨_, expires, hexpires, hnow⟩, _, hseen, hfull, _⟩
    obtain ⟨timestamp, htimestamp, hrange, hmillis⟩ := requiredExpiry_eq_ok_iff_private.mp hexpires
    exact ⟨⟨timestamp, expires, htimestamp, hrange, hmillis, hnow⟩, hfits, hseen, hfull⟩
  · rintro ⟨⟨timestamp, expires, htimestamp, hrange, hmillis, hnow⟩, hfits, hseen, hfull⟩
    have hexpires : Wire.requiredExpiry frame.expiresAt = .ok expires :=
      requiredExpiry_eq_ok_iff_private.mpr ⟨timestamp, htimestamp, hrange, hmillis⟩
    obtain ⟨payload, hpayload, hfor⟩ := hsendable.payload
    refine ⟨hfits, ⟨hshape, expires, hexpires, hnow⟩, hsendable.deviceId, hseen, hfull, ?_⟩
    rw [hpayload]
    exact hfor

/-- Only a request that the hub does not seal again can have more nanoseconds
than a second has. -/
theorem nanos_of_sealed (hw : Reachable HubState.Fresh anyEntry w) {channel j : ℕ}
    {deviceId : String} {frame : V1.RelayFrame} (hsent : Sent w channel frame)
    (hchannel : channelOf w j = some channel) (hdevice : deviceOf w j = some deviceId)
    (hsealed : ∀ request, frame.payload ≠ some (.actionRequest request)) :
    ∃ timestamp, frame.expiresAt = some timestamp ∧ timestamp.nanos < 1000000000 := by
  obtain ⟨expires, hexpires⟩ := (hsent.sendable hw hchannel hdevice).canonical hsealed
  obtain ⟨timestamp, htimestamp, hrange, _⟩ := requiredExpiry_eq_ok_iff_private.mp hexpires
  exact ⟨timestamp, htimestamp, hrange⟩

end PrivateLink

/-! ### A request with too many nanoseconds -/

namespace Sample

/-- The listing, to be carried out until two seconds after the epoch. -/
def oddListing : V1.ActionRequest := { listing with expiresAt := some ⟨1, 1000000000⟩ }

/-- The caller has sent its frame. -/
def actionSent (request : V1.ActionRequest) : World (link.system reference) :=
  (found request).moves (workingHub reference helloReceived) [1, 1]

theorem actionSent_reachable (request : V1.ActionRequest) :
    Reachable HubState.Fresh anyEntry (actionSent request) :=
  (found_reachable request).moves (workingHub_sound link) _

/-- The channel of the device has a frame that expires with the request. -/
theorem exists_sent {request : V1.ActionRequest}
    (h : ((actionSent request).shared.queue 0).any (fun item =>
      item.content.toOption.any fun frame => frame.expiresAt = request.expiresAt) = true) :
    ∃ frame, Sent (actionSent request) 0 frame ∧ frame.expiresAt = request.expiresAt := by
  obtain ⟨⟨content, slot⟩, hitem, hframe⟩ := List.any_eq_true.mp h
  obtain ⟨frame, hcontent, hexpires⟩ := (Option.any_eq_true _ _).mp hframe
  obtain rfl : content = .ok frame := toOption_eq_some.mp hcontent
  exact ⟨frame, ⟨slot, sentTo_of_queue (actionSent_reachable request) hitem⟩,
    of_decide_eq_true hexpires⟩

end Sample

/-- The frame of the listing is accepted in time by a device that has just
connected. -/
theorem frame_accepted_iff_listing :
    ∃ frame, Sent (Sample.actionSent Sample.listing) 0 frame ∧
      DeviceClient.Accepts reference Sample.codec "device" { maxEntries := 8 } frame 10 := by
  obtain ⟨frame, hsent, hexpires⟩ : ∃ frame, Sent (Sample.actionSent Sample.listing) 0 frame ∧
      frame.expiresAt = some ⟨1, 0⟩ := Sample.exists_sent (by decide +kernel)
  have hchannel : channelOf (Sample.actionSent Sample.listing) 0 = some 0 := by decide +kernel
  have hdevice : deviceOf (Sample.actionSent Sample.listing) 0 = some "device" := by
    decide +kernel
  refine ⟨frame, hsent,
    (frame_accepted_iff (Sample.actionSent_reachable Sample.listing) hsent hchannel
    hdevice { maxEntries := 8 } 10).mpr ⟨⟨⟨1, 0⟩, 1000, hexpires, ?_, ?_, ?_⟩, ?_, ?_, ?_⟩⟩
  · decide
  · decide
  · omega
  · exact Nat.zero_le _
  · simp [ReplayGuard.Seen, ReplayGuard.prune]
  · simp [ReplayGuard.Full, ReplayGuard.prune]

/-- A device that has just connected refuses the odd listing, which the hub has
sent to it. -/
theorem odd_listing_refused :
    ¬ ∀ w : World (Sample.link.system reference), Reachable HubState.Fresh anyEntry w →
      ∀ channel j deviceId frame, Sent w channel frame → channelOf w j = some channel →
        deviceOf w j = some deviceId →
          DeviceClient.Accepts reference Sample.codec deviceId { maxEntries := 8 } frame
            w.shared.nowUnixMs := by
  intro h
  obtain ⟨frame, hsent, hodd⟩ : ∃ frame, Sent (Sample.actionSent Sample.oddListing) 0 frame ∧
      frame.expiresAt = some ⟨1, 1000000000⟩ := Sample.exists_sent (by decide +kernel)
  have hchannel : channelOf (Sample.actionSent Sample.oddListing) 0 = some 0 := by decide +kernel
  have hdevice : deviceOf (Sample.actionSent Sample.oddListing) 0 = some "device" := by
    decide +kernel
  have haccepts :=
    h _ (Sample.actionSent_reachable Sample.oddListing) 0 0 _ _ hsent hchannel hdevice
  obtain ⟨_, hverify, _⟩ := DeviceClient.accepts_iff.mp haccepts
  obtain ⟨_, expires, hexpires, _⟩ := Wire.verifyFrameAt_eq_ok_iff.mp hverify
  obtain ⟨timestamp, htimestamp, hrange, _⟩ := requiredExpiry_eq_ok_iff_private.mp hexpires
  obtain rfl := Option.some.inj (hodd.symm.trans htimestamp)
  exact absurd hrange (by decide)

end VorCommander
