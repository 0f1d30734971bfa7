import VorCommander.Hub.Working

/-!
An honest device and the relay.

A device is honest if what it sends is well formed and fresh, and if it answers
each request that it is handed once. The relay closes a connection when it cannot
act upon a frame. With an honest device this happens in two ways: an answer comes
in when its caller has gone, or the replay guard is full.
-/

namespace VorCommander

open Crypto Steps Steps.Program Steps.World Text

variable {P : Primitives} {C : FrameCodec} {deviceId : String} {channel : ℕ} {h : History Hub}
  {session : RelaySession} {bytes : List UInt8} {frame : V1.RelayFrame}

/-! ### Honest frames -/

/-- The payloads that a device may send, before and after its hello. -/
def V1.Payload.fits (deviceId : String) : Bool → V1.Payload → Prop
  | _, .deviceHello hello => hello.deviceId = deviceId
  | true, .heartbeat _ => True
  | true, .actionResult _ => True
  | _, _ => False

/-- The bytes are those of a frame of the device. -/
structure Encodes (C : FrameCodec) (deviceId : String) (bound : Bool) (bytes : List UInt8)
    (frame : V1.RelayFrame) : Prop where
  encoded : Wire.encodeFrame C frame = .ok bytes
  read : C.decode bytes = some frame
  device : frame.deviceId = deviceId
  payload : ∃ payload, frame.payload = some payload ∧ payload.fits deviceId bound

theorem Encodes.wellShaped {bound : Bool} (h : Encodes C deviceId bound bytes frame) :
    Wire.WellShaped frame := by
  have hencoded := h.encoded
  simp only [Wire.encodeFrame, bind_eq_ok, exists_unit] at hencoded
  exact Wire.validateFrameShape_eq_ok_iff.mp hencoded.1

theorem Encodes.decodeFrame {bound : Bool} (h : Encodes C deviceId bound bytes frame) :
    Wire.decodeFrame C bytes = .ok frame := by
  have hencoded := h.encoded
  simp only [Wire.encodeFrame, bind_eq_ok, exists_unit, failIf_eq_ok, pure_eq_ok] at hencoded
  obtain ⟨hshape, hfits, rfl⟩ := hencoded
  simp only [Wire.decodeFrame, bind_eq_ok, exists_unit, failIf_eq_ok, pure_eq_ok, orFail_eq_ok]
  exact ⟨hfits, frame, h.read, hshape, rfl⟩

section Relay

variable {L : Libraries} {w w' : World ((relay L C).system L.toPrimitives)} {i : ℕ}

end Relay

/-! ### One device that answers -/

namespace Sample

/-- The relay of one device. -/
abbrev relayOfOne : HubPrograms := relay (libraries ∅) relayCodec

def relayHub : Answers Hub HubState := hastyHub reference listedReceived

/-- The device has connected, and has said hello. -/
def greeted : World (relayOfOne.system reference) :=
  (World.start (initial freshRelay) 0
    (RelayEntry.deviceWs (some "Bearer token") "device" 3)).moves relayHub (List.replicate 10 0)

/-- A caller asks for a listing, which is handed to the device. -/
def handed : World (relayOfOne.system reference) :=
  World.moves relayHub
    { greeted with
      calls := Function.update greeted.calls 1
        (some ⟨RelayEntry.dispatchAction "device" remoteListing, [],
          some (.action <$> (RelayHub.submit "device" "action-" remoteListing
            (.actionRequest remoteListing)).run)⟩) }
    [1, 1, 1, 1, 1, 0, 0]

theorem relayHub_sound : relayHub.Sound (relayOfOne.system reference) :=
  hastyHub_sound relayOfOne

theorem handed_eq : handed =
    (World.start greeted 1 (RelayEntry.dispatchAction "device" remoteListing)).moves relayHub
      [1, 1, 1, 1, 1, 0, 0] := by
  have hbody : (relayOfOne.system reference).body
      (RelayEntry.dispatchAction "device" remoteListing) =
        (.action <$> (RelayHub.submit "device" "action-" remoteListing
          (.actionRequest remoteListing)).run) :=
    congrArg (fun p => RelayOutcome.action <$> ExceptT.run p)
      (RelayHub.dispatchAction_of_checked remoteListing_checked)
  unfold World.start
  rw [hbody]
  rfl

theorem handed_reachable : Reachable HubState.Fresh anyEntry handed := by
  have hgreeted : Reachable HubState.Fresh anyEntry greeted :=
    ((reachable_initial freshRelay_fresh).start rfl trivial).moves relayHub_sound _
  have hfresh : greeted.calls 1 = none := by
    rw [greeted]
    exact (moves_calls_of_notMem _ (by decide)).trans (start_calls_of_ne _ _ one_ne_zero)
  rw [handed_eq]
  exact (hgreeted.start hfresh trivial).moves relayHub_sound _

end Sample

end VorCommander
