import VorCommander.Hub.Interface
import VorCommander.Steps.Schedule

/-!
The state of a hub, and what each operation does to it.

A slot is open until a result is put in it, or until one of its two ends is
dropped. What is taken out of a channel has been handed to the device, which
may answer it once. The lemmas at the end say where a pending request, an item
of a channel and the status of a slot can come from, and what takes a pending
request away; runs are reasoned about with these.
-/

namespace VorCommander

open Crypto Steps Text

inductive SlotStatus
  | waiting
  | filled (answer : Answer)
  | closed
  | dropped
  deriving DecidableEq

structure Slot where
  key : RequestKey
  status : SlotStatus
  deriving DecidableEq

/-- The room of `mpsc::channel`. -/
def channelRoom : ℕ := 32

/-- What waits in a channel, and the slots of what has been handed to the
device and not been answered. -/
structure Channel where
  queue : List Outgoing := []
  handed : List ℕ := []
  receiving : Bool := true
  deriving DecidableEq

structure HubState where
  devices : String → Option DeviceSession
  pending : List (RequestKey × ℕ)
  slots : ℕ → Option Slot
  channels : ℕ → Option Channel
  guard : ReplayGuard
  grants : Option PersistedState
  nowUnixMs : ℕ

namespace HubState

variable (s : HubState)

/-- A hub to which nobody has connected. -/
def Fresh : Prop :=
  s.devices = (fun _ => none) ∧ s.pending = [] ∧ s.slots = (fun _ => none) ∧
    s.channels = fun _ => none

def queue (channel : ℕ) : List Outgoing := ((s.channels channel).map Channel.queue).getD []

def handed (channel : ℕ) : List ℕ := ((s.channels channel).map Channel.handed).getD []

/-- The requests of a device that are pending. -/
def inFlight (deviceId : String) : ℕ := s.pending.countP fun entry => entry.1.1 = deviceId

def setChannel (channel : ℕ) (value : Channel) : HubState :=
  { s with channels := Function.update s.channels channel (some value) }

def setSlot (slot : ℕ) (value : Slot) : HubState :=
  { s with slots := Function.update s.slots slot (some value) }

/-- The receiver of the slot has not been dropped. -/
def Alive (slot : ℕ) : Prop := ∃ value, s.slots slot = some value ∧ value.status ≠ .dropped

/-- The first item of a channel is handed to the device. -/
def Takes (channel : ℕ) (item : Outgoing) (s' : HubState) : Prop :=
  ∃ value rest, s.channels channel = some value ∧ value.queue = item :: rest ∧
    s' = s.setChannel channel
      { value with queue := rest, handed := item.slot.toList ++ value.handed }

/-- The device has been handed the frame of the slot, and answers it now. -/
def Answered (channel : ℕ) (result : V1.ActionResult) : Option ℕ → HubState → Prop
  | none, s' => s' = s
  | some slot, s' => ∃ value asked, s.channels channel = some value ∧ slot ∈ value.handed ∧
      s.slots slot = some asked ∧ asked.key.2 = result.requestId ∧
      s' = s.setChannel channel { value with handed := value.handed.erase slot }

/-- The entry at a key is taken out, and its slot gets a new status if its
caller waits; whether one did. -/
def vacate (key : RequestKey) (status : SlotStatus) : Bool × HubState :=
  match s.pending.lookup key with
  | none => (false, s)
  | some slot =>
      let left := { s with pending := s.pending.filter fun entry => entry.1 ≠ key }
      match s.slots slot with
      | some ⟨asked, .waiting⟩ => (true, left.setSlot slot ⟨asked, status⟩)
      | _ => (false, left)

end HubState

/-- The effect of an operation with a given reply. Someone whose slot has been
dropped performs nothing any more. -/
def HubOp.Commits (P : Primitives) (s : HubState) : (op : HubOp) → op.Reply → HubState → Prop
  | .clock, reply, s' => s' = s ∧ ∀ now, reply = .ok now → now = s.nowUnixMs
  | .random, _, s' => s' = s
  | .validate token scope now, reply, s' =>
      s' = s ∧ ∀ record, reply = .ok record → ∃ state, s.grants = some state ∧
        GrantStore.validate P token scope now state = .ok record
  | .openChannel, channel, s' => s.channels channel = none ∧ s' = s.setChannel channel {}
  | .closeChannel channel, _, s' => ∃ value, s.channels channel = some value ∧
      s' = s.setChannel channel { value with queue := [], receiving := false }
  | .register deviceId sender sessionId, _, s' =>
      s' = { s with devices := Function.update s.devices deviceId (some ⟨sessionId, sender⟩) }
  | .unregister deviceId sessionId, _, s' =>
      s' = if (s.devices deviceId).any (·.sessionId = sessionId) then
        { s with devices := Function.update s.devices deviceId none } else s
  | .lookup deviceId, reply, s' => reply = s.devices deviceId ∧ s' = s
  | .reserve key limit, reply, s' =>
      match reply with
      | .duplicate => s.pending.lookup key ≠ none ∧ s' = s
      | .tooMany => s.pending.lookup key = none ∧ s' = s ∧
          ∃ most, limit = some most ∧ most ≤ s.inFlight key.1
      | .reserved slot => s.pending.lookup key = none ∧
          (∀ most, limit = some most → s.inFlight key.1 < most) ∧ s.slots slot = none ∧
          s' = { s.setSlot slot ⟨key, .waiting⟩ with pending := (key, slot) :: s.pending }
  | .remove key slot, _, s' => s.Alive slot ∧ s' = (s.vacate key .closed).2
  | .complete channel deviceId result, reply, s' =>
      ∃ s₁, s.Answered channel result reply.answers s₁ ∧
        (reply.received, s') =
          s₁.vacate (deviceId, result.requestId) (.filled ⟨result, channel, reply.answers⟩)
  | .send channel item bounded, reply, s' =>
      (∀ slot, item.slot = some slot → s.Alive slot) ∧
        ∃ value, s.channels channel = some value ∧
          match reply with
          | .sent => value.receiving = true ∧ value.queue.length < channelRoom ∧
              s' = s.setChannel channel { value with queue := value.queue ++ [item] }
          | .closed => value.receiving = false ∧ s' = s
          | .elapsed => bounded = true ∧ s' = s
  | .await slot, reply, s' => s' = s ∧ ∃ value, s.slots slot = some value ∧
      match reply with
      | .answered answer => value.status = .filled answer
      | .closed => value.status = .closed
      | .elapsed => value.status = .waiting
  | .accept frame now, reply, s' =>
      match reply with
      | .ok () => (s.guard.accept P frame now).1 = .ok () ∧
          s' = { s with guard := (s.guard.accept P frame now).2 }
      | .error (.refused error) => (s.guard.accept P frame now).1 = .error error ∧
          s' = { s with guard := (s.guard.accept P frame now).2 }
      | .error .poisoned => s' = s
  | .select channel bound, reply, s' =>
      match reply with
      | .outgoing item => bound = true ∧ ∃ first, item = some first ∧ s.Takes channel first s'
      | .incoming _ => s' = s
  | .receive _, _, s' => s' = s
  | .take channel, item, s' => s.Takes channel item s'
  | .transmit _ _, _, s' => s' = s
  | .control _, _, s' => s' = s
  | .elapse now, _, s' => s' = { s with nowUnixMs := now }
  | .store call draws, _, s' => ∃ state next, s.grants = some state ∧
      call.onState P draws state = .ok next ∧ s' = { s with grants := some next }
  | .drop slot, _, s' => ∃ value, s.slots slot = some value ∧
      s' = s.setSlot slot { value with status := .dropped }

/-! ### What a step can do -/

/-- Two states with the same tables. -/
structure HubState.SameTables (s s' : HubState) : Prop where
  devices : s'.devices = s.devices
  pending : s'.pending = s.pending
  slots : s'.slots = s.slots
  channels : s'.channels = s.channels

/-- The operations that leave the tables alone. -/
def HubOp.quiet : HubOp → Bool
  | .clock | .random | .validate _ _ _ | .lookup _ | .await _ | .accept _ _ | .receive _
  | .transmit _ _ | .control _ | .elapse _ | .store _ _ => true
  | _ => false

section Steps

variable {P : Primitives} {s s' : HubState} {e : Event Hub}

theorem sameTables_of_quiet (h : e.op.Commits P s e.reply s') (hquiet : e.op.quiet = true) :
    s.SameTables s' := by
  obtain ⟨op, reply⟩ := e
  cases op with
  | clock | validate | await =>
      obtain ⟨rfl, _⟩ := h
      exact ⟨rfl, rfl, rfl, rfl⟩
  | lookup =>
      obtain ⟨_, rfl⟩ := h
      exact ⟨rfl, rfl, rfl, rfl⟩
  | random | receive | transmit | control | elapse =>
      obtain rfl := h
      exact ⟨rfl, rfl, rfl, rfl⟩
  | accept frame now =>
      rcases reply with (_ | error) | _
      · obtain rfl := h
        exact ⟨rfl, rfl, rfl, rfl⟩
      · obtain ⟨_, rfl⟩ := h
        exact ⟨rfl, rfl, rfl, rfl⟩
      · obtain ⟨_, rfl⟩ := h
        exact ⟨rfl, rfl, rfl, rfl⟩
  | store call draws =>
      obtain ⟨_, _, _, _, rfl⟩ := h
      exact ⟨rfl, rfl, rfl, rfl⟩
  | _ => cases hquiet

/-! ### Taking an entry out -/

section Vacate

variable (s : HubState) (key : RequestKey) (status : SlotStatus)

theorem pending_vacate :
    (s.vacate key status).2.pending = s.pending.filter fun entry => entry.1 ≠ key := by
  unfold HubState.vacate
  cases hlookup : s.pending.lookup key with
  | none =>
      have hkeys := List.lookup_eq_none_iff.mp hlookup
      refine (List.filter_eq_self.mpr fun entry hentry => ?_).symm
      have hne : entry.1 ≠ key := by
        rintro rfl
        simpa using hkeys entry hentry
      exact decide_eq_true hne
  | some slot =>
      simp only []
      split <;> rfl

theorem channels_vacate : (s.vacate key status).2.channels = s.channels := by
  unfold HubState.vacate
  cases s.pending.lookup key with
  | none => rfl
  | some slot =>
      simp only []
      split <;> rfl

theorem devices_vacate : (s.vacate key status).2.devices = s.devices := by
  unfold HubState.vacate
  cases s.pending.lookup key with
  | none => rfl
  | some slot =>
      simp only []
      split <;> rfl

/-- Only the slot of the entry changes, and only if it was waiting. -/
theorem slots_vacate {slot : ℕ} {value : Slot}
    (h : (s.vacate key status).2.slots slot = some value) :
    s.slots slot = some value ∨ s.pending.lookup key = some slot ∧
      s.slots slot = some ⟨value.key, .waiting⟩ ∧ value.status = status := by
  unfold HubState.vacate at h
  cases hlookup : s.pending.lookup key with
  | none =>
      rw [hlookup] at h
      exact .inl h
  | some found =>
      simp only [hlookup] at h
      split at h
      · rename_i asked hasked
        by_cases hslot : slot = found
        · subst hslot
          obtain rfl : (⟨asked, status⟩ : Slot) = value := by simpa [HubState.setSlot] using h
          exact .inr ⟨rfl, hasked, rfl⟩
        · exact .inl (by simpa [HubState.setSlot, hslot] using h)
      · exact .inl h

theorem slots_vacate_of_some {slot : ℕ} {value : Slot} (h : s.slots slot = some value) :
    ∃ status', (s.vacate key status).2.slots slot = some ⟨value.key, status'⟩ := by
  unfold HubState.vacate
  cases hlookup : s.pending.lookup key with
  | none => exact ⟨value.status, h⟩
  | some found =>
      simp only []
      split
      · rename_i asked hasked
        by_cases hslot : slot = found
        · subst hslot
          obtain rfl := Option.some.inj (h.symm.trans hasked)
          exact ⟨status, Function.update_self ..⟩
        · exact ⟨value.status, by simpa [HubState.setSlot, hslot] using h⟩
      · exact ⟨value.status, h⟩

end Vacate

/-! ### Where things come from, and where they go -/

theorem queue_setChannel (s : HubState) (channel other : ℕ) (value : Channel) :
    (s.setChannel channel value).queue other =
      if other = channel then value.queue else s.queue other := by
  unfold HubState.queue HubState.setChannel
  by_cases h : other = channel <;> simp [h]

theorem handed_setChannel (s : HubState) (channel other : ℕ) (value : Channel) :
    (s.setChannel channel value).handed other =
      if other = channel then value.handed else s.handed other := by
  unfold HubState.handed HubState.setChannel
  by_cases h : other = channel <;> simp [h]

end Steps

namespace HubState

/-- How a slot has got its value, if that is new. -/
inductive SlotChange (s : HubState) : Event Hub → ℕ → Slot → Prop
  | reserved {key : RequestKey} {limit : Option ℕ} {slot : ℕ} :
      s.slots slot = none →
        SlotChange s ⟨.reserve key limit, .reserved slot⟩ slot ⟨key, .waiting⟩
  | removed {key asked : RequestKey} {own slot : ℕ} :
      s.pending.lookup key = some slot → s.slots slot = some ⟨asked, .waiting⟩ →
        SlotChange s ⟨.remove key own, ()⟩ slot ⟨asked, .closed⟩
  | completed {channel : ℕ} {deviceId : String} {result : V1.ActionResult} {reply : Completion}
      {asked : RequestKey} {slot : ℕ} :
      s.pending.lookup (deviceId, result.requestId) = some slot →
        s.slots slot = some ⟨asked, .waiting⟩ →
        SlotChange s ⟨.complete channel deviceId result, reply⟩ slot
          ⟨asked, .filled ⟨result, channel, reply.answers⟩⟩
  | dropped {slot : ℕ} {value : Slot} :
      s.slots slot = some value →
        SlotChange s ⟨.drop slot, ()⟩ slot { value with status := .dropped }

/-- The key of the entry that a step takes out. -/
def vacated : Event Hub → Option RequestKey
  | ⟨.remove key _, _⟩ => some key
  | ⟨.complete _ deviceId result, _⟩ => some (deviceId, result.requestId)
  | _ => none

/-- What a step can do: where the entries of the tables come from, and which
of them it takes away. -/
structure Moves (s : HubState) (e : Event Hub) (s' : HubState) : Prop where
  devices : ∀ deviceId session, s'.devices deviceId = some session →
    s.devices deviceId = some session ∨
      e = ⟨.register deviceId session.sender session.sessionId, ()⟩
  pending : s'.pending.Sublist s.pending ∨ ∃ key limit slot,
    e = ⟨.reserve key limit, .reserved slot⟩ ∧ s.pending.lookup key = none ∧
      s'.pending = (key, slot) :: s.pending
  stays : ∀ entry ∈ s.pending, entry ∈ s'.pending ∨ vacated e = some entry.1
  cleared : ∀ entry ∈ s'.pending, vacated e ≠ some entry.1
  slots : ∀ slot value, s'.slots slot = some value →
    s.slots slot = some value ∨ s.SlotChange e slot value
  persists : ∀ slot value, s.slots slot = some value →
    ∃ status, s'.slots slot = some ⟨value.key, status⟩
  queue : ∀ channel, ∀ item ∈ s'.queue channel, item ∈ s.queue channel ∨
    ∃ bounded, e = ⟨.send channel item bounded, .sent⟩
  handed : ∀ channel, ∀ slot ∈ s'.handed channel, slot ∈ s.handed channel ∨
    ∃ item ∈ s.queue channel, item.slot = some slot
  channels : ∀ channel, s.channels channel ≠ none → s'.channels channel ≠ none

variable {s s' : HubState} {e : Event Hub}

theorem SameTables.moves (h : s.SameTables s') (hvacated : vacated e = none) : s.Moves e s' where
  devices _ _ hsession := .inl (by rwa [h.devices] at hsession)
  pending := .inl (by rw [h.pending])
  stays _ hentry := .inl (by rwa [h.pending])
  cleared _ _ := by simp [hvacated]
  slots _ _ hvalue := .inl (by rwa [h.slots] at hvalue)
  persists _ value hvalue := ⟨value.status, by rwa [h.slots]⟩
  queue _ _ hitem := .inl (by rwa [HubState.queue, h.channels] at hitem)
  handed _ _ hslot := .inl (by rwa [HubState.handed, h.channels] at hslot)
  channels _ hchannel := by rwa [h.channels]

theorem moves_devices {table : String → Option DeviceSession} (hvacated : vacated e = none)
    (h : ∀ deviceId session, table deviceId = some session → s.devices deviceId = some session ∨
      e = ⟨.register deviceId session.sender session.sessionId, ()⟩) :
    s.Moves e { s with devices := table } where
  devices := h
  pending := .inl (List.Sublist.refl _)
  stays _ hentry := .inl hentry
  cleared _ _ := by simp [hvacated]
  slots _ _ hvalue := .inl hvalue
  persists _ value hvalue := ⟨value.status, hvalue⟩
  queue _ _ hitem := .inl hitem
  handed _ _ hslot := .inl hslot
  channels _ hchannel := hchannel

theorem moves_setChannel {channel : ℕ} {value : Channel} (hvacated : vacated e = none)
    (hqueue : ∀ item ∈ value.queue, item ∈ s.queue channel ∨
      ∃ bounded, e = ⟨.send channel item bounded, .sent⟩)
    (hhanded : ∀ slot ∈ value.handed, slot ∈ s.handed channel ∨
      ∃ item ∈ s.queue channel, item.slot = some slot) :
    s.Moves e (s.setChannel channel value) where
  devices _ _ hsession := .inl hsession
  pending := .inl (List.Sublist.refl _)
  stays _ hentry := .inl hentry
  cleared _ _ := by simp [hvacated]
  slots _ _ hslot := .inl hslot
  persists _ value hslot := ⟨value.status, hslot⟩
  queue other item hitem := by
    rw [queue_setChannel] at hitem
    split at hitem
    · subst_vars
      exact hqueue item hitem
    · exact .inl hitem
  handed other slot hslot := by
    rw [handed_setChannel] at hslot
    split at hslot
    · subst_vars
      exact hhanded slot hslot
    · exact .inl hslot
  channels other hother := by
    by_cases h : other = channel
    · subst h
      simp [setChannel]
    · simpa [setChannel, h] using hother

theorem queue_eq {channel : ℕ} {value : Channel} (h : s.channels channel = some value) :
    s.queue channel = value.queue := by
  rw [queue, h]
  rfl

theorem handed_eq {channel : ℕ} {value : Channel} (h : s.channels channel = some value) :
    s.handed channel = value.handed := by
  rw [handed, h]
  rfl

theorem Takes.moves {channel : ℕ} {item : Outgoing} (h : s.Takes channel item s')
    (hvacated : vacated e = none) : s.Moves e s' := by
  obtain ⟨value, rest, hvalue, hqueue, rfl⟩ := h
  have hall : s.queue channel = item :: rest := (queue_eq hvalue).trans hqueue
  refine moves_setChannel hvacated (fun other hother => .inl ?_) (fun slot hslot => ?_)
  · rw [hall]
    exact List.mem_cons_of_mem _ hother
  · rcases List.mem_append.mp hslot with hslot | hslot
    · exact .inr ⟨item, by rw [hall]; exact List.mem_cons_self, Option.mem_toList.mp hslot⟩
    · exact .inl (by rwa [handed_eq hvalue])

/-- The device answers a frame, and nothing else changes. -/
structure Settles (s s' : HubState) : Prop where
  devices : s'.devices = s.devices
  pending : s'.pending = s.pending
  slots : s'.slots = s.slots
  queue : ∀ channel, s'.queue channel = s.queue channel
  handed : ∀ channel, ∀ slot ∈ s'.handed channel, slot ∈ s.handed channel
  channels : ∀ channel, s.channels channel ≠ none → s'.channels channel ≠ none

theorem Settles.refl (s : HubState) : s.Settles s :=
  ⟨rfl, rfl, rfl, fun _ => rfl, fun _ _ h => h, fun _ h => h⟩

theorem Answered.settles {channel : ℕ} {result : V1.ActionResult} {answers : Option ℕ}
    (h : s.Answered channel result answers s') : s.Settles s' := by
  cases answers with
  | none =>
      obtain rfl : s' = s := h
      exact .refl s'
  | some slot =>
      obtain ⟨value, _, hvalue, _, _, _, rfl⟩ := h
      refine ⟨rfl, rfl, rfl, fun other => ?_, fun other found hfound => ?_, fun other hother => ?_⟩
      · rw [queue_setChannel]
        split
        · subst_vars
          exact (queue_eq hvalue).symm
        · rfl
      · rw [handed_setChannel] at hfound
        split at hfound
        · subst_vars
          rw [handed_eq hvalue]
          exact List.mem_of_mem_erase hfound
        · exact hfound
      · by_cases h : other = channel
        · subst h
          simp [setChannel]
        · simpa [setChannel, h] using hother

theorem Settles.moves_vacate {left : HubState} {key : RequestKey} {status : SlotStatus}
    (h : s.Settles left)
    (hvacated : vacated e = some key)
    (hslot : ∀ slot asked, s.pending.lookup key = some slot →
      s.slots slot = some ⟨asked, .waiting⟩ → s.SlotChange e slot ⟨asked, status⟩) :
    s.Moves e (left.vacate key status).2 where
  devices _ _ hsession := .inl (by rwa [devices_vacate, h.devices] at hsession)
  pending := by
    rw [pending_vacate, h.pending]
    exact .inl List.filter_sublist
  stays entry hentry := by
    by_cases hkey : entry.1 = key
    · exact .inr (by rw [hvacated, hkey])
    · left
      rw [pending_vacate, h.pending]
      exact List.mem_filter.mpr ⟨hentry, decide_eq_true hkey⟩
  cleared entry hentry := by
    rw [pending_vacate] at hentry
    have hkey := of_decide_eq_true (List.mem_filter.mp hentry).2
    rw [hvacated]
    exact fun h => hkey (Option.some.inj h).symm
  slots slot value hvalue := by
    rcases slots_vacate _ _ _ hvalue with hold | ⟨hlookup, hwaiting, hstatus⟩
    · exact .inl (by rwa [h.slots] at hold)
    · rw [h.pending] at hlookup
      rw [h.slots] at hwaiting
      have hchange := hslot slot value.key hlookup hwaiting
      rw [← hstatus] at hchange
      exact .inr hchange
  persists slot value hvalue := by
    rw [← h.slots] at hvalue
    exact slots_vacate_of_some left key status hvalue
  queue channel item hitem := by
    unfold HubState.queue at hitem
    rw [channels_vacate] at hitem
    exact .inl (by rwa [← h.queue channel])
  handed channel slot hslot := by
    unfold HubState.handed at hslot
    rw [channels_vacate] at hslot
    exact .inl (h.handed channel slot hslot)
  channels channel hchannel := by
    rw [channels_vacate]
    exact h.channels channel hchannel

theorem moves_reserve {key : RequestKey} {limit : Option ℕ} {slot : ℕ}
    (hnone : s.pending.lookup key = none) (hfresh : s.slots slot = none) :
    s.Moves ⟨.reserve key limit, .reserved slot⟩
      { s.setSlot slot ⟨key, .waiting⟩ with pending := (key, slot) :: s.pending } where
  devices _ _ hsession := .inl hsession
  pending := .inr ⟨key, limit, slot, rfl, hnone, rfl⟩
  stays _ hentry := .inl (List.mem_cons_of_mem _ hentry)
  cleared _ _ := by simp [vacated]
  slots other value hvalue := by
    by_cases hslot : other = slot
    · subst hslot
      obtain rfl : (⟨key, .waiting⟩ : Slot) = value := by simpa [setSlot] using hvalue
      exact .inr (.reserved hfresh)
    · exact .inl (by simpa [setSlot, hslot] using hvalue)
  persists other value hvalue := by
    have hslot : other ≠ slot := by
      rintro rfl
      rw [hfresh] at hvalue
      cases hvalue
    exact ⟨value.status, by simpa [setSlot, hslot] using hvalue⟩
  queue _ _ hitem := .inl hitem
  handed _ _ hslot := .inl hslot
  channels _ hchannel := hchannel

theorem moves_drop {slot : ℕ} {value : Slot} (hvalue : s.slots slot = some value) :
    s.Moves ⟨.drop slot, ()⟩ (s.setSlot slot { value with status := .dropped }) where
  devices _ _ hsession := .inl hsession
  pending := .inl (List.Sublist.refl _)
  stays _ hentry := .inl hentry
  cleared _ _ := by simp [vacated]
  slots other found hfound := by
    by_cases hslot : other = slot
    · subst hslot
      obtain rfl : ({ value with status := .dropped } : Slot) = found := by
        simpa [setSlot] using hfound
      exact .inr (.dropped hvalue)
    · exact .inl (by simpa [setSlot, hslot] using hfound)
  persists other found hfound := by
    by_cases hslot : other = slot
    · subst hslot
      obtain rfl := Option.some.inj (hvalue.symm.trans hfound)
      exact ⟨.dropped, by simp [setSlot]⟩
    · exact ⟨found.status, by simpa [setSlot, hslot] using hfound⟩
  queue _ _ hitem := .inl hitem
  handed _ _ hslot := .inl hslot
  channels _ hchannel := hchannel

/-- What a step can do is what the operation says. -/
theorem moves_of_commits {P : Primitives} (h : e.op.Commits P s e.reply s') : s.Moves e s' := by
  by_cases hquiet : e.op.quiet = true
  · refine (sameTables_of_quiet h hquiet).moves ?_
    obtain ⟨op, reply⟩ := e
    cases op <;> first | rfl | cases hquiet
  obtain ⟨op, reply⟩ := e
  cases op with
  | openChannel =>
      obtain ⟨_, rfl⟩ := h
      exact moves_setChannel rfl (by simp) (by simp)
  | closeChannel channel =>
      obtain ⟨value, hvalue, rfl⟩ := h
      refine moves_setChannel rfl (by simp) fun slot hslot => .inl ?_
      rwa [handed_eq hvalue]
  | register deviceId sender sessionId =>
      obtain rfl := h
      refine moves_devices rfl fun other session hsession => ?_
      by_cases hother : other = deviceId
      · subst hother
        rw [Function.update_self] at hsession
        obtain rfl := Option.some.inj hsession
        exact .inr rfl
      · exact .inl (by rwa [Function.update_of_ne hother] at hsession)
  -- only the session that is named is taken out
  | unregister deviceId sessionId =>
      obtain rfl := h
      split
      · refine moves_devices rfl fun other session hsession => .inl ?_
        by_cases hother : other = deviceId
        · subst hother
          rw [Function.update_self] at hsession
          cases hsession
        · rwa [Function.update_of_ne hother] at hsession
      · exact SameTables.moves ⟨rfl, rfl, rfl, rfl⟩ rfl
  | reserve key limit =>
      cases reply with
      | duplicate =>
          obtain ⟨_, rfl⟩ := h
          exact SameTables.moves ⟨rfl, rfl, rfl, rfl⟩ rfl
      | tooMany =>
          obtain ⟨_, rfl, _⟩ := h
          exact SameTables.moves ⟨rfl, rfl, rfl, rfl⟩ rfl
      | reserved slot =>
          obtain ⟨hnone, _, hfresh, rfl⟩ := h
          exact moves_reserve hnone hfresh
  | remove key own =>
      obtain ⟨_, rfl⟩ := h
      exact (Settles.refl s).moves_vacate rfl fun slot asked hlookup hwaiting =>
        .removed hlookup hwaiting
  | complete channel deviceId result =>
      obtain ⟨left, hanswered, hvacate⟩ := h
      obtain rfl : s' = _ := congrArg Prod.snd hvacate
      exact hanswered.settles.moves_vacate rfl fun slot asked hlookup hwaiting =>
        .completed hlookup hwaiting
  | send channel item bounded =>
      obtain ⟨_, value, hvalue, h⟩ := h
      cases reply with
      | sent =>
          obtain ⟨_, _, rfl⟩ := h
          refine moves_setChannel rfl (fun found hfound => ?_) fun slot hslot => .inl ?_
          · rw [queue_eq hvalue]
            rcases List.mem_append.mp hfound with hfound | hfound
            · exact .inl hfound
            · obtain rfl := List.mem_singleton.mp hfound
              exact .inr ⟨bounded, rfl⟩
          · rwa [handed_eq hvalue]
      | closed | elapsed =>
          obtain ⟨_, rfl⟩ := h
          exact SameTables.moves ⟨rfl, rfl, rfl, rfl⟩ rfl
  | select channel bound =>
      cases reply with
      | outgoing item =>
          obtain ⟨_, first, rfl, htakes⟩ := h
          exact htakes.moves rfl
      | incoming message =>
          obtain rfl := h
          exact SameTables.moves ⟨rfl, rfl, rfl, rfl⟩ rfl
  | take channel => exact Takes.moves h rfl
  | drop slot =>
      obtain ⟨value, hvalue, rfl⟩ := h
      exact moves_drop hvalue
  | _ => exact absurd rfl hquiet

/-- A pending request was pending, or a caller has just taken its slot. -/
theorem Moves.mem_pending (h : s.Moves e s') {entry : RequestKey × ℕ}
    (hentry : entry ∈ s'.pending) :
    entry ∈ s.pending ∨ ∃ limit, e = ⟨.reserve entry.1 limit, .reserved entry.2⟩ := by
  rcases h.pending with hsub | ⟨key, limit, slot, he, _, hcons⟩
  · exact .inl (hsub.subset hentry)
  · rw [hcons] at hentry
    rcases List.mem_cons.mp hentry with rfl | hentry
    · exact .inr ⟨limit, he⟩
    · exact .inl hentry

theorem Moves.nodup (h : s.Moves e s') (hnodup : (s.pending.map (·.1)).Nodup) :
    (s'.pending.map (·.1)).Nodup := by
  rcases h.pending with hsub | ⟨key, limit, slot, _, hnone, hcons⟩
  · exact hnodup.sublist (hsub.map _)
  · rw [hcons]
    refine List.nodup_cons.mpr ⟨fun hmem => ?_, hnodup⟩
    obtain ⟨entry, hentry, hkey⟩ := List.mem_map.mp hmem
    have hne := List.lookup_eq_none_iff.mp hnone entry hentry
    simp [hkey] at hne

/-- What has become of a reservation. -/
theorem reserved_of_commits {P : Primitives} {key : RequestKey} {limit : Option ℕ} {slot : ℕ}
    (h : (HubOp.reserve key limit).Commits P s (.reserved slot) s') :
    (∀ most, limit = some most → s.inFlight key.1 < most) ∧ s.slots slot = none ∧
      s'.slots slot = some ⟨key, .waiting⟩ ∧ s'.pending = (key, slot) :: s.pending := by
  obtain ⟨_, hlimit, hfresh, rfl⟩ := h
  exact ⟨hlimit, hfresh, by simp [setSlot], rfl⟩

end HubState

end VorCommander
