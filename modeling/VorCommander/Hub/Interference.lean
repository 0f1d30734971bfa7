import VorCommander.Hub.Programs
import VorCommander.Hub.Replay
import VorCommander.Steps.Alone

/-!
Devices that share a replay guard.

All streams of a private link use one guard, which has room for so many frames.
Its keys name the device, so a frame of one device is never taken for a replay
because of a frame of another. But a frame of another device takes up room until
it expires. If the clock does not go back, this is the only way in which devices
affect each other: `alike_iff`.
-/

namespace VorCommander

open Crypto Steps Steps.Program Text

variable {P : Primitives} {C : FrameCodec} {registry : DeviceCertificateRegistry}
  {fingerprint : Hash} {boundDevice : Option String} {frame : V1.RelayFrame} {now : ℕ}

/-! ### One frame -/

namespace PrivateLink

variable (P : Primitives) (C : FrameCodec) (registry : DeviceCertificateRegistry)
  (fingerprint : Hash)

/-- What is said of a frame before the guard is asked. -/
def judgeAlone (boundDevice : Option String) (frame : V1.RelayFrame) (now : ℕ) :
    Except Status String := do
  (Wire.verifyFrameAt frame now).mapError fun _ => status .invalidArgument "invalid relay frame"
  bindDevice registry fingerprint boundDevice frame

/-- Whether an acknowledgement can be made. -/
def canAcknowledge (frame : V1.RelayFrame) (now : ℕ) : Except Status Unit := do
  let failed := status .internal "ack creation failed"
  let _ ← (ackExpiry now).mapError fun _ => failed
  let _ ← (Wire.frameDigest P C frame).mapError fun _ => failed
  return ()

/-- What `process_private_frame` says of a frame, and the guard that it leaves. -/
def judge (boundDevice : Option String) (frame : V1.RelayFrame) (now : ℕ) (guard : ReplayGuard) :
    Except Status String × ReplayGuard :=
  match judgeAlone registry fingerprint boundDevice frame now with
  | .error status => (.error status, guard)
  | .ok deviceId =>
      match guard.accept P frame now with
      | (.error error, guard) => (.error (guardError (.refused error)), guard)
      | (.ok (), guard) => ((fun _ => deviceId) <$> canAcknowledge P C frame now, guard)

end PrivateLink

/-- The clock could be read, and the lock of the guard was not poisoned. -/
def ClockAndLockWork (h : History Hub) : Prop :=
  ∀ e ∈ h, e ≠ ⟨.clock, .error ()⟩ ∧ ∀ frame now, e ≠ ⟨.accept frame now, .error .poisoned⟩

theorem ClockAndLockWork.of_cons {e : Event Hub} {h : History Hub}
    (hh : ClockAndLockWork (e :: h)) :
    e ≠ ⟨.clock, .error ()⟩ ∧ (∀ frame now, e ≠ ⟨.accept frame now, .error .poisoned⟩) ∧
      ClockAndLockWork h := by
  obtain ⟨he, hh⟩ := List.forall_mem_cons.mp hh
  exact ⟨he.1, he.2, hh⟩

/-- What hubs commit. -/
abbrev HubCommit (P : Primitives) (s : HubState) (e : Event Hub) (s' : HubState) : Prop :=
  e.op.Commits P s e.reply s'

/-- An accepted frame is acknowledged if that can be done. -/
theorem during_acknowledges {deviceId : String} (s : HubState) (h : History Hub) :
    During (HubCommit P) (fun _ _ => True)
      (fun r s' _ => (r.map (·.1), s'.guard) =
        ((fun _ => deviceId) <$> PrivateLink.canAcknowledge P C frame now, s.guard))
      ((do
        let ack ← PrivateLink.privateAck P C frame now
        return (deviceId, ack) : HubM Status (String × V1.RelayFrame))).run s h := by
  unfold PrivateLink.canAcknowledge
  rw [during_exceptT_bind, PrivateLink.privateAck, during_exceptT_bind, during_check]
  cases hexpiry : ackExpiry now with
  | error error => rfl
  | ok expiresAt =>
      change During _ _ _ _ _ _
      rw [during_exceptT_bind, Hub.call, during_exceptT_lift]
      refine (during_call (I := Hub) HubOp.random id).mpr ?_
      rintro nonce s' rfl
      refine ⟨trivial, ?_⟩
      change During _ _ _ _ _ _
      rw [during_exceptT_bind, during_check]
      cases hdigest : Wire.frameDigest P C frame with
      | error error => rfl
      | ok digest => exact (during_exceptT_pure _).mpr ((during_exceptT_pure _).mpr rfl)

/-- The program does what `judge` says. -/
theorem during_processPrivateFrame (s : HubState) :
    During (HubCommit P) (fun _ _ => True)
      (fun r s' h => ClockAndLockWork h →
        (r.map (·.1), s'.guard) =
          PrivateLink.judge P C registry fingerprint boundDevice frame s.nowUnixMs s.guard)
      (PrivateLink.processPrivateFrame P C registry fingerprint boundDevice frame).run s [] := by
  rw [PrivateLink.processPrivateFrame, during_exceptT_bind, Hub.ask, during_exceptT_adapt]
  refine (during_call (I := Hub) HubOp.clock id).mpr ?_
  rintro reply s₁ ⟨rfl, hnow⟩
  refine ⟨trivial, ?_⟩
  cases reply with
  | error _ => exact fun hwork => absurd rfl hwork.of_cons.1
  | ok now =>
      obtain rfl := hnow now rfl
      change During _ _ _ _ _ _
      rw [during_exceptT_bind, during_check]
      unfold PrivateLink.judge PrivateLink.judgeAlone
      cases hverify : Wire.verifyFrameAt frame s₁.nowUnixMs with
      | error error => exact fun _ => rfl
      | ok _ =>
          change During _ _ _ _ _ _
          rw [during_exceptT_bind, during_check]
          cases hbind : PrivateLink.bindDevice registry fingerprint boundDevice frame with
          | error error => exact fun _ => rfl
          | ok deviceId =>
              change During _ _ _ _ _ _
              rw [during_exceptT_bind, Hub.ask, during_exceptT_adapt]
              refine (during_call (I := Hub) (HubOp.accept frame s₁.nowUnixMs) id).mpr ?_
              intro reply s₂ haccepts
              refine ⟨trivial, ?_⟩
              rcases haccept : s₁.guard.accept P frame s₁.nowUnixMs with ⟨verdict, guard⟩
              rcases reply with (_ | error) | _
              · exact fun hwork => absurd rfl (hwork.of_cons.2.1 frame _)
              · obtain ⟨hrefused, rfl⟩ := haccepts
                rw [haccept] at hrefused ⊢
                obtain rfl : verdict = .error error := hrefused
                exact fun _ => rfl
              · obtain ⟨haccepted, rfl⟩ := haccepts
                rw [haccept] at haccepted ⊢
                obtain rfl : verdict = .ok () := haccepted
                exact (during_acknowledges _ _).mono fun _ _ _ hresult _ => hresult

/-! ### Frames of many streams -/

/-- A frame that comes in on a stream, and the time at which it is judged. -/
structure LinkArrival where
  stream : ℕ
  frame : V1.RelayFrame
  now : ℕ
  deriving DecidableEq

/-- What a reading task keeps; a stream ends with the first frame that is
refused. -/
structure StreamState where
  boundDevice : Option String := none
  ended : Bool := false

/-- The guard, and the streams by number. -/
structure LinkState where
  guard : ReplayGuard
  streams : ℕ → StreamState := fun _ => {}

namespace LinkState

variable (P : Primitives) (C : FrameCodec) (registry : DeviceCertificateRegistry)
  (peer : ℕ → Hash)

/-- A frame is judged, and the stream goes on or ends; `peer` is the fingerprint of
the certificate that a stream was opened with. -/
def arrive (s : LinkState) (a : LinkArrival) : LinkState :=
  if (s.streams a.stream).ended then s
  else
    match PrivateLink.judge P C registry (peer a.stream) (s.streams a.stream).boundDevice a.frame
        a.now s.guard with
    | (.ok deviceId, guard) =>
        { guard, streams := Function.update s.streams a.stream { boundDevice := some deviceId } }
    | (.error _, guard) =>
        { guard
          streams := Function.update s.streams a.stream { s.streams a.stream with ended := true } }

/-- The state after frames, the last of them first. -/
def after (s : LinkState) : List LinkArrival → LinkState
  | [] => s
  | last :: earlier => (after s earlier).arrive P C registry peer last

/-- The frame is one that the guard accepts if it has room. -/
def Acceptable (s : LinkState) (a : LinkArrival) : Prop :=
  (s.streams a.stream).ended = false ∧
    (∃ deviceId, PrivateLink.judgeAlone registry (peer a.stream) (s.streams a.stream).boundDevice
      a.frame a.now = .ok deviceId) ∧ ¬ (s.guard.prune a.now).Seen P a.frame

/-- The guard is asked, and accepts the frame. -/
def Accepts (s : LinkState) (a : LinkArrival) : Prop :=
  (s.streams a.stream).ended = false ∧
    (∃ deviceId, PrivateLink.judgeAlone registry (peer a.stream) (s.streams a.stream).boundDevice
      a.frame a.now = .ok deviceId) ∧ s.guard.Accepts P a.frame a.now

/-- There is no room for the frame. -/
def Full (s : LinkState) (a : LinkArrival) : Prop := (s.guard.prune a.now).Full

/-- Whether a frame passes what is looked at before the guard. -/
instance (fingerprint : Hash) (boundDevice : Option String) (frame : V1.RelayFrame) (now : ℕ) :
    Decidable (∃ deviceId,
      PrivateLink.judgeAlone registry fingerprint boundDevice frame now = .ok deviceId) :=
  match PrivateLink.judgeAlone registry fingerprint boundDevice frame now with
  | .ok deviceId => .isTrue ⟨deviceId, rfl⟩
  | .error _ => .isFalse (by rintro ⟨_, ⟨⟩⟩)

instance (s : LinkState) (a : LinkArrival) : Decidable (s.Acceptable P registry peer a) :=
  inferInstanceAs (Decidable (_ ∧ _ ∧ ¬ _))

instance (s : LinkState) (a : LinkArrival) : Decidable (s.Accepts P registry peer a) :=
  inferInstanceAs (Decidable (_ ∧ _ ∧ _))

instance (s : LinkState) (a : LinkArrival) : Decidable (s.Full a) :=
  inferInstanceAs (Decidable (ReplayGuard.Full _))

/-- The frames that are chosen, each with the state in which it is judged. -/
def situations (s : LinkState) (mine : ℕ → Bool) :
    List LinkArrival → List (LinkState × LinkArrival)
  | [] => []
  | last :: earlier =>
      if mine last.stream then
        (s.after P C registry peer earlier, last) :: situations s mine earlier
      else situations s mine earlier

end LinkState

/-! ### Two runs -/

section Runs

variable (P : Primitives) (C : FrameCodec) (registry : DeviceCertificateRegistry)
  (peer : ℕ → Hash) (mine : ℕ → Bool) (deviceId : String)

/-- The frames of `deviceId` come in on its own streams. On the streams of others
are well-formed frames of other devices, which the certificates are registered
for. -/
structure Traffic (run : List LinkArrival) : Prop where
  own : ∀ a ∈ run, mine a.stream = true →
    registry.containsMatch a.frame.deviceId (peer a.stream) = true → a.frame.deviceId = deviceId
  others : ∀ a ∈ run, mine a.stream = false → a.frame.deviceId ≠ deviceId ∧
    registry.containsMatch a.frame.deviceId (peer a.stream) = true ∧
    Wire.verifyFrameAt a.frame a.now = .ok ()

/-- Each of the chosen frames is accepted in both runs, or in none. -/
def AcceptedAlike (s : LinkState) (run run' : List LinkArrival) : Prop :=
  List.Forall₂ (fun x y => x.1.Accepts P registry peer x.2 ↔ y.1.Accepts P registry peer y.2)
    (s.situations P C registry peer mine run) (s.situations P C registry peer mine run')

end Runs

variable {peer : ℕ → Hash} {mine : ℕ → Bool} {deviceId : String} {s s' : LinkState}
  {a : LinkArrival} {run run' : List LinkArrival}

theorem verify_of_judgeAlone {bound : Option String} {device : String}
    (h : PrivateLink.judgeAlone registry fingerprint bound frame now = .ok device) :
    Wire.verifyFrameAt frame now = .ok () ∧
      PrivateLink.bindDevice registry fingerprint bound frame = .ok device := by
  simp only [PrivateLink.judgeAlone, bind_eq_ok, exists_unit, mapError_eq_ok] at h
  exact h

theorem accepts_iff :
    s.Accepts P registry peer a ↔ s.Acceptable P registry peer a ∧ ¬ s.Full a := by
  rw [LinkState.Accepts, LinkState.Acceptable, LinkState.Full, and_assoc, and_assoc]
  refine and_congr_right fun _ => and_congr_right ?_
  rintro ⟨device, hjudge⟩
  have hverify := (verify_of_judgeAlone hjudge).1
  rw [ReplayGuard.Accepts, ReplayGuard.accept_eq_ok_iff]
  exact and_iff_right hverify

/-! ### What an arrival does -/

/-- Two tables have the same entries of a device among those that have not expired
at `t`. -/
def SameLive {α : Type} (deviceId : String) (t : ℕ) (entries entries' : List ((String × α) × ℕ)) :
    Prop :=
  ∀ entry, entry.1.1 = deviceId → t < entry.2 → (entry ∈ entries ↔ entry ∈ entries')

section SameLive

variable {α : Type} {t t' : ℕ} {entries entries' : List ((String × α) × ℕ)} {key : String × α}

theorem SameLive.symm (h : SameLive deviceId t entries entries') :
    SameLive deviceId t entries' entries :=
  fun entry hkey hlive => (h entry hkey hlive).symm

theorem SameLive.trans {entries'' : List ((String × α) × ℕ)}
    (h : SameLive deviceId t entries entries') (h' : SameLive deviceId t entries' entries'') :
    SameLive deviceId t entries entries'' :=
  fun entry hkey hlive => (h entry hkey hlive).trans (h' entry hkey hlive)

theorem SameLive.mono (h : SameLive deviceId t entries entries') (hle : t ≤ t') :
    SameLive deviceId t' entries entries' :=
  fun entry hkey hlive => h entry hkey (lt_of_le_of_lt hle hlive)

theorem SameLive.refl (entries : List ((String × α) × ℕ)) : SameLive deviceId t entries entries :=
  fun _ _ _ => Iff.rfl

/-- Pruning takes away what has expired. -/
theorem sameLive_prune (entries : List ((String × α) × ℕ)) (hnow : now ≤ t) :
    SameLive deviceId t (entries.filter fun entry => decide (now < entry.2)) entries := by
  intro entry _ hlive
  have hnot : now < entry.2 := by omega
  rw [List.mem_filter]
  exact and_iff_left (decide_eq_true hnot)

/-- An entry of another device is none of this one. -/
theorem sameLive_cons_other (entries : List ((String × α) × ℕ)) (hother : key.1 ≠ deviceId)
    (expiry : ℕ) : SameLive deviceId t ((key, expiry) :: entries) entries := by
  intro entry hkey _
  have hne : entry ≠ (key, expiry) := by
    rintro rfl
    exact hother hkey
  rw [List.mem_cons]
  exact or_iff_right hne

theorem SameLive.cons (h : SameLive deviceId t entries entries') (entry : (String × α) × ℕ) :
    SameLive deviceId t (entry :: entries) (entry :: entries') := by
  intro other hkey hlive
  rw [List.mem_cons, List.mem_cons, h other hkey hlive]

end SameLive

/-- The guard after a frame that it does not accept. -/
theorem guard_arrive_of_not_accepts (h : ¬ s.Accepts P registry peer a) :
    (s.arrive P C registry peer a).guard = s.guard ∨
      (s.arrive P C registry peer a).guard = s.guard.prune a.now := by
  unfold LinkState.arrive
  by_cases hended : (s.streams a.stream).ended = true
  · rw [if_pos hended]
    exact .inl rfl
  rw [if_neg hended, PrivateLink.judge]
  cases hjudge : PrivateLink.judgeAlone registry (peer a.stream) (s.streams a.stream).boundDevice
    a.frame a.now with
  | error error => exact .inl rfl
  | ok device =>
      have hrefused : ¬ s.guard.Accepts P a.frame a.now :=
        fun haccepts => h ⟨(Bool.not_eq_true _).mp hended, ⟨device, hjudge⟩, haccepts⟩
      have hguard := ReplayGuard.accept_of_not_accepts hrefused
      rw [ReplayGuard.Accepts] at hrefused
      rcases haccept : s.guard.accept P a.frame a.now with ⟨verdict, guard⟩
      rw [haccept] at hguard hrefused
      cases verdict with
      | error error => exact hguard
      | ok _ => exact absurd rfl hrefused

theorem sameLive_of_not_accepts (deviceId : String) {t : ℕ} (h : ¬ s.Accepts P registry peer a)
    (hnow : a.now ≤ t) :
    SameLive deviceId t (s.arrive P C registry peer a).guard.messageIds s.guard.messageIds ∧
      SameLive deviceId t (s.arrive P C registry peer a).guard.nonces s.guard.nonces := by
  rcases guard_arrive_of_not_accepts (C := C) h with hguard | hguard
  · rw [hguard]
    exact ⟨.refl _, .refl _⟩
  · rw [hguard]
    exact ⟨sameLive_prune _ hnow, sameLive_prune _ hnow⟩

/-- The tables after a frame that is accepted. -/
theorem guard_arrive_of_accepts (h : s.Accepts P registry peer a) :
    ∃ expiry, Wire.requiredExpiry a.frame.expiresAt = .ok expiry ∧
      (s.arrive P C registry peer a).guard.messageIds =
        (ReplayGuard.messageKey a.frame, expiry) :: (s.guard.prune a.now).messageIds ∧
      (s.arrive P C registry peer a).guard.nonces =
        (ReplayGuard.nonceKey P a.frame, expiry) :: (s.guard.prune a.now).nonces := by
  obtain ⟨hended, ⟨device, hjudge⟩, haccepts⟩ := h
  obtain ⟨expiry, hexpiry, -, -, -, hguard⟩ := haccepts.cases
  have hleft : (s.arrive P C registry peer a).guard = (s.guard.accept P a.frame a.now).2 := by
    unfold LinkState.arrive
    rw [if_neg (Bool.not_eq_true _ ▸ hended), PrivateLink.judge, hjudge]
    rw [ReplayGuard.Accepts] at haccepts
    rcases haccept : s.guard.accept P a.frame a.now with ⟨verdict, guard⟩
    rw [haccept] at haccepts
    obtain rfl : verdict = .ok () := haccepts
    simp only []
    cases PrivateLink.canAcknowledge P C a.frame a.now <;> rfl
  rw [hleft, hguard]
  exact ⟨expiry, hexpiry, rfl, rfl⟩

/-- Other streams go on. -/
theorem streams_arrive_of_ne {i : ℕ} (h : i ≠ a.stream) :
    (s.arrive P C registry peer a).streams i = s.streams i := by
  unfold LinkState.arrive
  split
  · rfl
  · split <;> exact Function.update_of_ne h _ _

/-- What a frame does to its stream depends on the stream and on whether the frame
is accepted. -/
theorem streams_arrive_congr (hstream : s'.streams a.stream = s.streams a.stream)
    (haccepts : s.Accepts P registry peer a ↔ s'.Accepts P registry peer a) :
    (s'.arrive P C registry peer a).streams a.stream =
      (s.arrive P C registry peer a).streams a.stream := by
  simp only [LinkState.Accepts, hstream] at haccepts
  unfold LinkState.arrive
  rw [hstream]
  by_cases hended : (s.streams a.stream).ended = true
  · rw [if_pos hended, if_pos hended, hstream]
  rw [if_neg hended, if_neg hended, PrivateLink.judge, PrivateLink.judge]
  cases hjudge : PrivateLink.judgeAlone registry (peer a.stream) (s.streams a.stream).boundDevice
    a.frame a.now with
  | error error =>
      show Function.update s'.streams _ _ _ = Function.update s.streams _ _ _
      rw [Function.update_self, Function.update_self]
  | ok device =>
      have hguards : (s.guard.accept P a.frame a.now).1 = .ok () ↔
          (s'.guard.accept P a.frame a.now).1 = .ok () := by
        simpa [hjudge, (Bool.not_eq_true _).mp hended, ReplayGuard.Accepts] using haccepts
      rcases haccept : s.guard.accept P a.frame a.now with ⟨verdict, guard⟩
      rcases haccept' : s'.guard.accept P a.frame a.now with ⟨verdict', guard'⟩
      rw [haccept, haccept'] at hguards
      cases verdict with
      | ok _ =>
          obtain rfl : verdict' = .ok () := hguards.mp rfl
          simp only []
          cases PrivateLink.canAcknowledge P C a.frame a.now with
          | error error =>
              show Function.update s'.streams _ _ _ = Function.update s.streams _ _ _
              rw [Function.update_self, Function.update_self]
          | ok _ =>
              show Function.update s'.streams _ _ _ = Function.update s.streams _ _ _
              rw [Function.update_self, Function.update_self]
      | error error =>
          cases verdict' with
          | ok _ => cases hguards.mpr rfl
          | error error' =>
              show Function.update s'.streams _ _ _ = Function.update s.streams _ _ _
              rw [Function.update_self, Function.update_self]

/-- A stream of a device is bound to it, or to none yet. -/
def BoundTo (deviceId : String) (stream : StreamState) : Prop :=
  stream.boundDevice = none ∨ stream.boundDevice = some deviceId

theorem device_of_judgeAlone {device : String} (hbound : BoundTo deviceId (s.streams a.stream))
    (hown : registry.containsMatch a.frame.deviceId (peer a.stream) = true →
      a.frame.deviceId = deviceId)
    (hjudge : PrivateLink.judgeAlone registry (peer a.stream) (s.streams a.stream).boundDevice
      a.frame a.now = .ok device) : a.frame.deviceId = deviceId ∧ device = deviceId := by
  obtain ⟨rfl, hbinds⟩ := binds_of_bindDevice (verify_of_judgeAlone hjudge).2
  rcases hbinds with hsome | ⟨-, hmatch⟩
  · rcases hbound with hnone | hbound
    · rw [hnone] at hsome
      cases hsome
    · rw [hbound] at hsome
      obtain rfl := Option.some.inj hsome
      exact ⟨rfl, rfl⟩
  · exact ⟨hown hmatch, hown hmatch⟩

theorem boundTo_arrive (hbound : BoundTo deviceId (s.streams a.stream))
    (hown : registry.containsMatch a.frame.deviceId (peer a.stream) = true →
      a.frame.deviceId = deviceId) :
    BoundTo deviceId ((s.arrive P C registry peer a).streams a.stream) := by
  have hends : BoundTo deviceId (Function.update s.streams a.stream
      { s.streams a.stream with ended := true } a.stream) := by
    rw [Function.update_self]
    exact hbound
  unfold LinkState.arrive
  split
  · exact hbound
  rw [PrivateLink.judge]
  cases hjudge : PrivateLink.judgeAlone registry (peer a.stream) (s.streams a.stream).boundDevice
    a.frame a.now with
  | error error => exact hends
  | ok device =>
      obtain ⟨-, rfl⟩ := device_of_judgeAlone hbound hown hjudge
      rcases s.guard.accept P a.frame a.now with ⟨_ | _, guard⟩
      · exact hends
      · simp only []
        cases PrivateLink.canAcknowledge P C a.frame a.now with
        | error error => exact hends
        | ok _ =>
            show BoundTo device (Function.update s.streams _ _ _)
            rw [Function.update_self]
            exact .inr rfl

/-! ### What two runs have in common -/

/-- Two states in which the frames of a device are judged alike, from time `t` on,
except for the room there is. -/
structure Alike (mine : ℕ → Bool) (deviceId : String) (t : ℕ) (s s' : LinkState) : Prop where
  streams : ∀ i, mine i = true → s'.streams i = s.streams i
  bound : ∀ i, mine i = true → BoundTo deviceId (s.streams i)
  messageIds : SameLive deviceId t s.guard.messageIds s'.guard.messageIds
  nonces : SameLive deviceId t s.guard.nonces s'.guard.nonces

theorem Alike.symm {t : ℕ} (h : Alike mine deviceId t s s') : Alike mine deviceId t s' s where
  streams := fun i hi => (h.streams i hi).symm
  bound := fun i hi => (h.streams i hi).symm ▸ h.bound i hi
  messageIds := h.messageIds.symm
  nonces := h.nonces.symm

theorem Alike.mono {t t' : ℕ} (h : Alike mine deviceId t s s') (hle : t ≤ t') :
    Alike mine deviceId t' s s' :=
  { h with messageIds := h.messageIds.mono hle, nonces := h.nonces.mono hle }

/-- A frame of another device leaves what the two states have in common. -/
theorem Alike.other {t : ℕ} (h : Alike mine deviceId t s s') (hmine : mine a.stream = false)
    (hdevice : a.frame.deviceId ≠ deviceId) (hnow : a.now ≤ t) :
    Alike mine deviceId t (s.arrive P C registry peer a) s' := by
  have hne : ∀ i, mine i = true → i ≠ a.stream := by
    rintro i hi rfl
    rw [hmine] at hi
    cases hi
  have hstreams : ∀ i, mine i = true → (s.arrive P C registry peer a).streams i = s.streams i :=
    fun i hi => streams_arrive_of_ne (hne i hi)
  obtain ⟨hids, hnonces⟩ :
      SameLive deviceId t (s.arrive P C registry peer a).guard.messageIds s.guard.messageIds ∧
        SameLive deviceId t (s.arrive P C registry peer a).guard.nonces s.guard.nonces := by
    by_cases haccepts : s.Accepts P registry peer a
    · obtain ⟨expiry, -, hids, hnonces⟩ := guard_arrive_of_accepts (C := C) haccepts
      rw [hids, hnonces]
      exact ⟨(sameLive_cons_other _ hdevice expiry).trans (sameLive_prune _ hnow),
        (sameLive_cons_other _ hdevice expiry).trans (sameLive_prune _ hnow)⟩
    · exact sameLive_of_not_accepts deviceId haccepts hnow
  refine ⟨fun i hi => (h.streams i hi).trans (hstreams i hi).symm,
    fun i hi => (hstreams i hi).symm ▸ h.bound i hi, hids.trans h.messageIds,
    hnonces.trans h.nonces⟩

section Own

variable (hmine : mine a.stream = true)
  (hown : registry.containsMatch a.frame.deviceId (peer a.stream) = true →
    a.frame.deviceId = deviceId)

include hmine hown

omit hmine hown in
theorem sameLive_own (h : Alike mine deviceId a.now s s')
    (haccepts : s.Accepts P registry peer a ↔ s'.Accepts P registry peer a) :
    SameLive deviceId a.now (s.arrive P C registry peer a).guard.messageIds
        (s'.arrive P C registry peer a).guard.messageIds ∧
      SameLive deviceId a.now (s.arrive P C registry peer a).guard.nonces
        (s'.arrive P C registry peer a).guard.nonces := by
  by_cases haccepted : s.Accepts P registry peer a
  · obtain ⟨expiry, hexpiry, hids, hnonces⟩ := guard_arrive_of_accepts (C := C) haccepted
    obtain ⟨expiry', hexpiry', hids', hnonces'⟩ :=
      guard_arrive_of_accepts (C := C) (haccepts.mp haccepted)
    obtain rfl : expiry = expiry' := Except.ok.inj (hexpiry.symm.trans hexpiry')
    rw [hids, hids', hnonces, hnonces']
    exact ⟨(((sameLive_prune _ le_rfl).trans h.messageIds).trans
        (sameLive_prune _ le_rfl).symm).cons _,
      (((sameLive_prune _ le_rfl).trans h.nonces).trans (sameLive_prune _ le_rfl).symm).cons _⟩
  · obtain ⟨hids, hnonces⟩ := sameLive_of_not_accepts (C := C) deviceId haccepted le_rfl
    obtain ⟨hids', hnonces'⟩ :=
      sameLive_of_not_accepts (C := C) deviceId (mt haccepts.mpr haccepted) le_rfl
    exact ⟨(hids.trans h.messageIds).trans hids'.symm, (hnonces.trans h.nonces).trans hnonces'.symm⟩

omit hmine in
/-- A frame that is accepted in both, or in none, leaves what they have in common. -/
theorem Alike.own (h : Alike mine deviceId a.now s s')
    (haccepts : s.Accepts P registry peer a ↔ s'.Accepts P registry peer a) :
    Alike mine deviceId a.now (s.arrive P C registry peer a) (s'.arrive P C registry peer a) := by
  refine ⟨fun i hi => ?_, fun i hi => ?_, ?_, ?_⟩
  · by_cases hstream : i = a.stream
    · subst hstream
      exact streams_arrive_congr (h.streams _ hi) haccepts
    · rw [streams_arrive_of_ne hstream, streams_arrive_of_ne hstream, h.streams i hi]
  · by_cases hstream : i = a.stream
    · subst hstream
      exact boundTo_arrive (h.bound _ hi) hown
    · rw [streams_arrive_of_ne hstream]
      exact h.bound i hi
  · exact (sameLive_own h haccepts).1
  · exact (sameLive_own h haccepts).2

end Own

/-! ### Runs -/

/-- The frames on the chosen streams. -/
def chosen (mine : ℕ → Bool) (run : List LinkArrival) : List LinkArrival :=
  run.filter fun a => mine a.stream

theorem Traffic.of_cons (h : Traffic registry peer mine deviceId (a :: run)) :
    Traffic registry peer mine deviceId run :=
  ⟨fun a' ha' => h.own a' (List.mem_cons_of_mem _ ha'),
    fun a' ha' => h.others a' (List.mem_cons_of_mem _ ha')⟩

namespace TwoDevices

def codec : FrameCodec where
  encode _ := []
  decode _ := none

def certificate (deviceId : String) : Hash := reference.sha256 (utf8 deviceId)

def known : DeviceCertificateRegistry where
  fingerprints := [("pc-1", certificate "pc-1"), ("pc-2", certificate "pc-2")]
  valid := by decide

/-- The stream 0 is that of `pc-1`, all others are those of `pc-2`. -/
def peers (stream : ℕ) : Hash := certificate (if stream = 0 then "pc-1" else "pc-2")

def ofFirst (stream : ℕ) : Bool := stream = 0

def hello (deviceId : String) (expiresAt : V1.Timestamp) : V1.RelayFrame :=
  { wireVersion := 1
    messageId := "hello"
    deviceId
    expiresAt := some expiresAt
    nonce := List.replicate 16 1
    payload := some (.deviceHello
      { deviceId, agentVersion := "1", transports := [], capabilities := [] }) }

/-- The frame of `pc-1`, which expires at 20. -/
def own (now : ℕ) : LinkArrival := ⟨0, hello "pc-1" ⟨0, 20000000⟩, now⟩

/-- The frame of `pc-2`, which expires at 1000. -/
def other (now : ℕ) : LinkArrival := ⟨1, hello "pc-2" ⟨1, 0⟩, now⟩

/-- The frames of `pc-1` are accepted alike if there is room for so many frames. -/
def Accepted (maxEntries : ℕ) (run run' : List LinkArrival) : Prop :=
  AcceptedAlike reference codec known peers ofFirst { guard := { maxEntries } } run run'

end TwoDevices

end VorCommander
