import VorCommander.Device.Prepared
import VorCommander.Hub.Runs

/-!
A hub that works.

`workingHub` answers every operation that need not wait, at once and without a
failure of its own; what comes in from outside is given by its surroundings.
With it, single runs of a hub can be computed.
-/

namespace VorCommander

open Crypto Steps Steps.Program Steps.World Text

/-- What is around a hub during a run: what is drawn at random, and what comes
in at a socket and at a stream. -/
structure HubSurroundings where
  random : Random128
  incoming : HubState → SocketMessage
  received : HubState → Except Status (Option V1.RelayFrame)

/-- The first number that a table does not have. -/
def unused {α : Type} (table : ℕ → Option α) : Option ℕ :=
  (List.range 8).find? fun n => (table n).isNone

theorem unused_eq_some {α : Type} {table : ℕ → Option α} {n : ℕ} (h : unused table = some n) :
    table n = none :=
  Option.isNone_iff_eq_none.mp (List.find?_some (p := fun n => (table n).isNone) h)

/-- The first item of a channel is taken out of it. -/
def HubState.pop (s : HubState) (channel : ℕ) : Option (Outgoing × HubState) :=
  match s.channels channel with
  | none => none
  | some value =>
      match value.queue with
      | [] => none
      | item :: rest => some (item, s.setChannel channel
          { value with queue := rest, handed := item.slot.toList ++ value.handed })

theorem HubState.pop_takes {s s' : HubState} {channel : ℕ} {item : Outgoing}
    (h : s.pop channel = some (item, s')) : s.Takes channel item s' := by
  unfold HubState.pop at h
  split at h
  · cases h
  · rename_i value hvalue
    split at h
    · cases h
    · rename_i first rest hqueue
      obtain ⟨rfl, rfl⟩ := Prod.mk.inj (Option.some.inj h)
      exact ⟨value, rest, hvalue, hqueue, rfl⟩

theorem HubState.alive_iff {s : HubState} {slot : ℕ} :
    (s.slots slot).any (·.status ≠ .dropped) = true ↔ s.Alive slot := by
  rw [Option.any_eq_true, HubState.Alive]
  simp only [decide_eq_true_eq]

instance (s : HubState) (slot : ℕ) : Decidable (s.Alive slot) :=
  decidable_of_iff _ HubState.alive_iff

/-- The answers of a hub that works. -/
def workingHub (P : Primitives) (o : HubSurroundings) : Answers Hub HubState where
  answer s
    | .clock => some (.ok s.nowUnixMs, s)
    | .random => some (o.random, s)
    | .validate token scope now =>
        s.grants.map fun state => (GrantStore.validate P token scope now state, s)
    | .openChannel => (unused s.channels).map fun channel => (channel, s.setChannel channel {})
    | .closeChannel channel => (s.channels channel).map fun value =>
        ((), s.setChannel channel { value with queue := [], receiving := false })
    | .register deviceId sender sessionId => some ((),
        { s with devices := Function.update s.devices deviceId (some ⟨sessionId, sender⟩) })
    | .unregister deviceId sessionId => some ((),
        if (s.devices deviceId).any (·.sessionId = sessionId) then
          { s with devices := Function.update s.devices deviceId none } else s)
    | .lookup deviceId => some (s.devices deviceId, s)
    | .reserve key limit =>
        if s.pending.lookup key ≠ none then some (.duplicate, s)
        else if limit.any (· ≤ s.inFlight key.1) then none
        else (unused s.slots).map fun slot => (.reserved slot,
          { s.setSlot slot ⟨key, .waiting⟩ with pending := (key, slot) :: s.pending })
    | .send channel item _ =>
        if item.slot.all fun slot => decide (s.Alive slot) then
          (s.channels channel).bind fun value =>
            if value.receiving ∧ value.queue.length < channelRoom then
              some (.sent, s.setChannel channel { value with queue := value.queue ++ [item] })
            else none
        else none
    | .accept frame now => some ((s.guard.accept P frame now).1.mapError .refused,
        { s with guard := (s.guard.accept P frame now).2 })
    | .select channel bound =>
        match bound, s.pop channel with
        | true, some (item, s') => some (.outgoing (some item), s')
        | _, _ => some (.incoming (o.incoming s), s)
    | .receive _ => some (o.received s, s)
    | .take channel => s.pop channel
    | .transmit _ _ => some (true, s)
    | .control _ => some (true, s)
    | .elapse now => some ((), { s with nowUnixMs := now })
    | .store call draws => s.grants.bind fun state =>
        ((call.onState P draws state).toOption).map fun next => ((), { s with grants := some next })
    | _ => none

variable {P : Primitives} {o : HubSurroundings}

theorem workingHub_reserves {s s' : HubState} {key : RequestKey} {limit : Option ℕ}
    {reply : Reservation}
    (h : (workingHub P o).answer s (.reserve key limit) = some (reply, s')) :
    (HubOp.reserve key limit).Commits P s reply s' := by
  simp only [workingHub] at h
  split at h
  · rename_i hpending
    obtain ⟨rfl, rfl⟩ := Prod.mk.inj (Option.some.inj h)
    exact ⟨hpending, rfl⟩
  · rename_i hpending
    split at h
    · cases h
    · rename_i hroom
      obtain ⟨slot, hslot, h⟩ := Option.map_eq_some_iff.mp h
      obtain ⟨rfl, rfl⟩ := Prod.mk.inj h
      refine ⟨not_not.mp hpending, fun most hmost => ?_, unused_eq_some hslot, rfl⟩
      subst hmost
      simpa using hroom

theorem workingHub_sends {s s' : HubState} {channel : ℕ} {item : Outgoing} {bounded : Bool}
    {reply : Sending}
    (h : (workingHub P o).answer s (.send channel item bounded) = some (reply, s')) :
    (HubOp.send channel item bounded).Commits P s reply s' := by
  simp only [workingHub] at h
  split at h
  · rename_i halive
    obtain ⟨value, hvalue, h⟩ := Option.bind_eq_some_iff.mp h
    split at h
    · rename_i hroom
      obtain ⟨rfl, rfl⟩ := Prod.mk.inj (Option.some.inj h)
      refine ⟨fun slot hslot => ?_, value, hvalue, hroom.1, hroom.2, rfl⟩
      rw [hslot] at halive
      exact of_decide_eq_true halive
    · cases h
  · cases h

theorem workingHub_selects {s s' : HubState} {channel : ℕ} {bound : Bool} {reply : SocketEvent}
    (h : (workingHub P o).answer s (.select channel bound) = some (reply, s')) :
    (HubOp.select channel bound).Commits P s reply s' := by
  simp only [workingHub] at h
  split at h
  · rename_i item _ hpop
    obtain ⟨rfl, rfl⟩ := Prod.mk.inj (Option.some.inj h)
    exact ⟨rfl, item, rfl, HubState.pop_takes hpop⟩
  · obtain ⟨rfl, rfl⟩ := Prod.mk.inj (Option.some.inj h)
    rfl

/-- A working hub is one of the ways a hub can behave. -/
theorem workingHub_commits {s s' : HubState} {op : HubOp} {reply : op.Reply}
    (h : (workingHub P o).answer s op = some (reply, s')) : op.Commits P s reply s' := by
  cases op with
  | clock =>
      obtain ⟨rfl, rfl⟩ := Prod.mk.inj (Option.some.inj h)
      refine ⟨rfl, fun now hnow => ?_⟩
      exact (Except.ok.inj hnow).symm
  | validate token scope now =>
      obtain ⟨state, hstate, h⟩ := Option.map_eq_some_iff.mp h
      obtain ⟨rfl, rfl⟩ := Prod.mk.inj h
      exact ⟨rfl, fun record hrecord => ⟨state, hstate, hrecord⟩⟩
  | openChannel =>
      obtain ⟨channel, hchannel, h⟩ := Option.map_eq_some_iff.mp h
      obtain ⟨rfl, rfl⟩ := Prod.mk.inj h
      exact ⟨unused_eq_some hchannel, rfl⟩
  | closeChannel channel =>
      obtain ⟨value, hvalue, h⟩ := Option.map_eq_some_iff.mp h
      obtain ⟨rfl, rfl⟩ := Prod.mk.inj h
      exact ⟨value, hvalue, rfl⟩
  | register | unregister | transmit | control | elapse | random =>
      obtain ⟨rfl, rfl⟩ := Prod.mk.inj (Option.some.inj h)
      rfl
  | lookup deviceId =>
      obtain ⟨rfl, rfl⟩ := Prod.mk.inj (Option.some.inj h)
      exact ⟨rfl, rfl⟩
  | receive channel =>
      obtain ⟨rfl, rfl⟩ := Prod.mk.inj (Option.some.inj h)
      rfl
  | reserve key limit => exact workingHub_reserves h
  | send channel item bounded => exact workingHub_sends h
  | accept frame now =>
      obtain ⟨rfl, rfl⟩ := Prod.mk.inj (Option.some.inj h)
      cases haccept : (s.guard.accept P frame now).1 with
      | ok _ => exact ⟨haccept, rfl⟩
      | error error => exact ⟨haccept, rfl⟩
  | select channel bound => exact workingHub_selects h
  | take channel => exact HubState.pop_takes h
  | store call draws =>
      obtain ⟨state, hstate, h⟩ := Option.bind_eq_some_iff.mp h
      obtain ⟨next, hnext, h⟩ := Option.map_eq_some_iff.mp h
      obtain ⟨rfl, rfl⟩ := Prod.mk.inj h
      exact ⟨state, next, hstate, toOption_eq_some.mp hnext, rfl⟩
  | _ => cases h

theorem workingHub_sound (H : HubPrograms) : (workingHub P o).Sound (H.system P) :=
  fun _ _ _ _ h => workingHub_commits h

/-- The answers of a hub that works and in which no caller waits: a caller has its
result at once, or its time has elapsed. A device answers a request with the
identifier of its result. -/
def hastyHub (P : Primitives) (o : HubSurroundings) : Answers Hub HubState where
  answer s
    | .await slot => (s.slots slot).bind fun value =>
        match value.status with
        | .filled answer => some (.answered answer, s)
        | .closed => some (.closed, s)
        | .waiting => some (.elapsed, s)
        | .dropped => none
    | .remove key slot =>
        if s.Alive slot then some ((), (s.vacate key .closed).2) else none
    | .complete channel deviceId result => (s.channels channel).bind fun value =>
        (value.handed.find? fun slot =>
          (s.slots slot).any fun asked => asked.key.2 = result.requestId).map fun slot =>
            let s₁ := s.setChannel channel { value with handed := value.handed.erase slot }
            let left :=
              s₁.vacate (deviceId, result.requestId) (.filled ⟨result, channel, some slot⟩)
            (⟨left.1, some slot⟩, left.2)
    | op => (workingHub P o).answer s op

theorem hastyHub_commits {s s' : HubState} {op : HubOp} {reply : op.Reply}
    (h : (hastyHub P o).answer s op = some (reply, s')) : op.Commits P s reply s' := by
  cases op with
  | await slot =>
      obtain ⟨value, hvalue, h⟩ := Option.bind_eq_some_iff.mp h
      cases hstatus : value.status with
      | dropped => simp [hstatus] at h
      | waiting | closed | filled =>
          simp only [hstatus] at h
          obtain ⟨rfl, rfl⟩ := Prod.mk.inj (Option.some.inj h)
          exact ⟨rfl, value, hvalue, hstatus⟩
  | remove key slot =>
      simp only [hastyHub] at h
      split at h
      · rename_i halive
        obtain ⟨rfl, rfl⟩ := Prod.mk.inj (Option.some.inj h)
        exact ⟨halive, rfl⟩
      · cases h
  | complete channel deviceId result =>
      obtain ⟨value, hvalue, h⟩ := Option.bind_eq_some_iff.mp h
      obtain ⟨slot, hslot, h⟩ := Option.map_eq_some_iff.mp h
      obtain ⟨rfl, rfl⟩ := Prod.mk.inj h
      have hany := List.find?_some hslot
      rw [Option.any_eq_true] at hany
      obtain ⟨asked, hasked, hrequest⟩ := hany
      refine ⟨_, ⟨value, asked, hvalue, List.mem_of_find?_eq_some hslot, hasked,
        of_decide_eq_true hrequest, rfl⟩, rfl⟩
  | _ => exact workingHub_commits (o := o) h

theorem hastyHub_sound (H : HubPrograms) : (hastyHub P o).Sound (H.system P) :=
  fun _ _ _ _ h => hastyHub_commits h

/-- The operation of a caller that takes a slot. -/
def HubOp.reserves : HubOp → Bool
  | .reserve _ _ => true
  | _ => false

/-- A request that passes the checks of the relay is submitted. -/
theorem RelayHub.dispatchAction_of_checked {L : Libraries} {deviceId : String}
    {request : V1.ActionRequest} (h : RelayHub.actionChecks L deviceId request = .ok ()) :
    RelayHub.dispatchAction L deviceId request =
      RelayHub.submit deviceId "action-" request (.actionRequest request) := by
  rw [RelayHub.dispatchAction, h]
  rfl

/-! ### One device -/

namespace Sample

def random : Random128 := Vector.replicate 16 0

/-- The first frame of the device. -/
def hello : V1.RelayFrame :=
  { wireVersion := 1
    messageId := "hello"
    deviceId := "device"
    expiresAt := some ⟨1, 0⟩
    nonce := List.replicate 16 1
    payload := some (.deviceHello
      { deviceId := "device", agentVersion := "1", transports := [], capabilities := [] }) }

def codec : FrameCodec where
  encode _ := []
  decode _ := some hello

/-- A device that says who it is. -/
def helloReceived : HubSurroundings where
  random := random
  incoming _ := .binary []
  received _ := .ok (some hello)

def registry : DeviceCertificateRegistry where
  fingerprints := [("device", reference.sha256 [1])]
  valid := by
    intro entry hentry
    obtain rfl := List.mem_singleton.mp hentry
    decide

/-- A hub to which nobody has connected. -/
def freshHub : HubState :=
  { devices := fun _ => none
    pending := []
    slots := fun _ => none
    channels := fun _ => none
    guard := { maxEntries := 8 }
    grants := none
    nowUnixMs := 10 }

theorem freshHub_fresh : freshHub.Fresh := ⟨rfl, rfl, rfl, rfl⟩

/-- The listing of processes. -/
def listing : V1.ActionRequest := message (envelope "process.list" "" ∅)

/-- What the hub does before a caller takes a slot. -/
def answers : Answers Hub HubState :=
  (workingHub reference helloReceived).only fun op => !op.reserves

/-- The private link of one device. -/
abbrev link : HubPrograms := privateLink (libraries ∅) codec registry

/-- The device connects: the hub registers it and sends an acknowledgement. -/
def connected : World (link.system reference) :=
  (World.start (initial freshHub) 0 (PrivateLinkEntry.connect (some [1]) 1)).moves answers
    (List.replicate 8 0)

/-- A caller asks the device for a listing. -/
def requested (request : V1.ActionRequest) : World (link.system reference) :=
  World.start connected 1 (PrivateLinkEntry.dispatchAction "device" request)

/-- The caller has looked the device up. -/
def found (request : V1.ActionRequest) : World (link.system reference) :=
  (requested request).moves answers (List.replicate 4 1)

theorem found_reachable (request : V1.ActionRequest) :
    Reachable HubState.Fresh anyEntry (found request) := by
  have hsound : answers.Sound (link.system reference) := (workingHub_sound link).only _
  have hconnected : Reachable HubState.Fresh anyEntry connected :=
    ((reachable_initial freshHub_fresh).start rfl trivial).moves hsound _
  refine (hconnected.start ?_ trivial).moves hsound _
  decide +kernel

/-- The caller has taken its slot. -/
def waiting (request : V1.ActionRequest) : World (link.system reference) :=
  (found request).move (workingHub reference helloReceived) 1

/-! ### One device of a relay -/

/-- The grant with which the device connects to the relay. -/
def relayGrant : GrantRecord :=
  { grantId := "grant", organizationId := "local", actorId := "device", workspaceIds := ∅
    scopes := {"relay.connect"}, issuedAtUnixMs := 0, expiresAtUnixMs := 1000, revoked := false }

/-- A relay that knows one grant. -/
def freshRelay : HubState :=
  { freshHub with
    grants := some
      { version := 1
        deviceId := "relay"
        grants := (∅ : Std.ExtTreeMap String GrantRecord).insert
          (GrantStore.tokenHashHex reference "token") relayGrant } }

theorem freshRelay_fresh : freshRelay.Fresh := ⟨rfl, rfl, rfl, rfl⟩

/-- The listing of processes, as a relay accepts it. -/
def remoteListing : V1.ActionRequest := message (envelope "process.list" "processes" ∅)

theorem remoteListing_read : Wire.actionRequestFromProto (libraries ∅) remoteListing =
    .ok (request (envelope "process.list" "processes" ∅)) := by
  have hvalid : validateEnvelope (envelope "process.list" "processes" ∅) = .ok () := by decide
  exact message_received (envelope "process.list" "processes" ∅) hvalid rfl

theorem remoteListing_checked :
    RelayHub.actionChecks (libraries ∅) "device" remoteListing = .ok () := by
  rw [RelayHub.actionChecks, remoteListing_read]
  decide

/-- The answer of the device. -/
def listed : V1.RelayFrame :=
  { hello with
    messageId := "listed"
    nonce := List.replicate 16 2
    payload := some (.actionResult
      { requestId := "request", exitCode := 0, status := "ok", stdoutDigest := []
        stderrDigest := [], completedAt := none, output := [], contentType := ""
        truncated := false }) }

/-- A text is enough to tell the frames of the device apart. -/
def relayCodec : FrameCodec where
  encode frame := if frame.messageId = "listed" then [1] else []
  decode bytes := some (if bytes.isEmpty then hello else listed)

/-- The device says hello, and answers when it is registered. -/
def listedReceived : HubSurroundings where
  random := random
  incoming s := if (s.devices "device").isSome then .binary [1] else .binary []
  received _ := .ok none

end Sample

end VorCommander
