import VorCommander.Hub.Runs

/-!
Where the frames of a channel come from.

A channel belongs to one connection, which has registered one device with it.
Whoever finds the channel in the table of devices has asked for that device, so
that what is sent over a connection was meant for its device.
-/

namespace VorCommander

open Crypto Steps Steps.Program Steps.World

variable {P : Primitives} {H : HubPrograms} {mayStart : World (H.system P) → H.Entry → Prop}
  {w w' : World (H.system P)}

/-! ### Channels and devices -/

/-- Every channel belongs to one connection, and what the table of devices has
is the channel of a connection of the device. -/
structure Wired (w : World (H.system P)) : Prop where
  exist : ∀ i channel, channelOf w i = some channel → w.shared.channels channel ≠ none
  alone : ∀ i j channel, channelOf w i = some channel → channelOf w j = some channel → i = j
  table : ∀ deviceId session, w.shared.devices deviceId = some session →
    ∃ i, channelOf w i = some session.sender ∧ deviceOf w i = some deviceId

theorem opened_of_commits {s s' : HubState} {channel : ℕ}
    (h : HubOp.openChannel.Commits P s channel s') :
    s.channels channel = none ∧ s'.channels channel ≠ none := by
  obtain ⟨hfresh, rfl⟩ := h
  exact ⟨hfresh, by simp [HubState.setChannel]⟩

theorem wired_of_reachable (hw : Reachable HubState.Fresh mayStart w) : Wired w := by
  apply reachable_induction hw
  -- at the start no device is connected
  · rintro s ⟨hdevices, _⟩
    refine ⟨fun i channel h => ?_, fun i j channel h => ?_, fun deviceId session h => ?_⟩
    · cases h
    · cases h
    · change s.devices deviceId = some session at h
      rw [hdevices] at h
      cases h
  · intro w w' ih hkeeps hidles
    have hsame : ∀ j, channelOf w' j = channelOf w j := fun j => by
      rw [channelOf, hidles.of, channelOf]
    refine ⟨fun i channel h => ?_, fun i j channel h h' => ?_, fun deviceId session h => ?_⟩
    · rw [hsame] at h
      rw [hidles.shared]
      exact ih.exist i channel h
    · rw [hsame] at h h'
      exact ih.alone i j channel h h'
    · rw [hidles.shared] at h
      obtain ⟨i, hchannel, hdevice⟩ := ih.table deviceId session h
      exact ⟨i, hkeeps.channel i _ hchannel, hkeeps.device i _ hdevice⟩
  -- a new channel was nobody's, and a device is entered with the channel of its connection
  · intro w w' i e _ ih hkeeps hhappens hmoves
    have hcommits := hhappens.commits
    refine ⟨fun j channel h => ?_, fun j k channel hj hk => ?_, fun deviceId session h => ?_⟩
    · rcases hhappens.channelOf_cases j with hsame | ⟨rfl, _, opened, rfl, hopened⟩
      · rw [hsame] at h
        exact hmoves.channels channel (ih.exist j channel h)
      · obtain rfl := Option.some.inj (hopened.symm.trans h)
        exact (opened_of_commits hcommits).2
    · have hfresh : ∀ l opened, e = ⟨.openChannel, opened⟩ → channelOf w l ≠ some opened := by
        rintro l opened rfl hl
        exact ih.exist l opened hl (opened_of_commits hcommits).1
      rcases hhappens.channelOf_cases j with hj' | ⟨rfl, _, opened, he, hopened⟩
      · rcases hhappens.channelOf_cases k with hk' | ⟨rfl, _, opened, he, hopened⟩
        · rw [hj'] at hj
          rw [hk'] at hk
          exact ih.alone j k channel hj hk
        · obtain rfl := Option.some.inj (hopened.symm.trans hk)
          rw [hj'] at hj
          exact absurd hj (hfresh j opened he)
      · obtain rfl := Option.some.inj (hopened.symm.trans hj)
        rcases hhappens.channelOf_cases k with hk' | ⟨rfl, _⟩
        · rw [hk'] at hk
          exact absurd hk (hfresh k opened he)
        · rfl
    · rcases hmoves.devices deviceId session h with hold | rfl
      · obtain ⟨j, hchannel, hdevice⟩ := ih.table deviceId session hold
        exact ⟨j, hkeeps.channel j _ hchannel, hkeeps.device j _ hdevice⟩
      · obtain ⟨role, _, hfollows⟩ := hhappens.role
        obtain ⟨hopened, _, _⟩ := hfollows.register
        refine ⟨i, hkeeps.channel i _ hopened, ?_⟩
        rw [deviceOf, hhappens.of_self]
        rfl

/-- The sender that a look-up has found is that of a connection of the device. -/
theorem sender_of_lookup (hw : Reachable HubState.Fresh mayStart w) {i : ℕ} {deviceId : String}
    {session : DeviceSession} (h : (i, ⟨.lookup deviceId, some session⟩) ∈ w.log) :
    ∃ j, channelOf w j = some session.sender ∧ deviceOf w j = some deviceId := by
  refine reachable_induction (J := fun w : World (H.system P) =>
    (i, ⟨.lookup deviceId, some session⟩) ∈ w.log →
      ∃ j, channelOf w j = some session.sender ∧ deviceOf w j = some deviceId) hw ?_ ?_ ?_ h
  · intro s _ h
    cases h
  · intro w w' ih hkeeps hidles h
    rw [hidles.log] at h
    obtain ⟨j, hchannel, hdevice⟩ := ih h
    exact ⟨j, hkeeps.channel j _ hchannel, hkeeps.device j _ hdevice⟩
  · intro w w' k e hw ih hkeeps hhappens _ h
    rw [hhappens.log] at h
    rcases List.mem_cons.mp h with hnew | hold
    · obtain ⟨rfl, rfl⟩ := Prod.mk.inj hnew
      obtain ⟨htable, _⟩ := hhappens.commits
      obtain ⟨j, hchannel, hdevice⟩ := (wired_of_reachable hw).table deviceId session htable.symm
      exact ⟨j, hkeeps.channel j _ hchannel, hkeeps.device j _ hdevice⟩
    · obtain ⟨j, hchannel, hdevice⟩ := ih hold
      exact ⟨j, hkeeps.channel j _ hchannel, hkeeps.device j _ hdevice⟩

/-! ### Items -/

/-- Where an item of a channel comes from: from a caller, who has asked for the
device of the channel, or from the connection itself. -/
inductive Origin (w : World (H.system P)) (channel : ℕ) : Outgoing → Prop
  | caller {i j slot : ℕ} {deviceId : String} {request : V1.ActionRequest}
      {frame : V1.RelayFrame} :
      roleOf w i = some (.caller deviceId request) → slotOf w i = some slot →
      channelOf w j = some channel → deviceOf w j = some deviceId →
      frame.request = some request → H.sound deviceId frame →
        Origin w channel ⟨.ok frame, some slot⟩
  | connection {j : ℕ} {deviceId : String} {frame : V1.RelayFrame} :
      channelOf w j = some channel → deviceOf w j = some deviceId → frame.request = none →
      H.sound deviceId frame → Origin w channel ⟨.ok frame, none⟩
  | status {status : Status} : Origin w channel ⟨.error status, none⟩

theorem Origin.keeps {channel : ℕ} {item : Outgoing} (h : Origin w channel item)
    (hkeeps : Keeps w w') : Origin w' channel item := by
  cases h with
  | caller hrole hslot hchannel hdevice hrequest hsound =>
      exact .caller (hkeeps.role _ _ hrole) (hkeeps.slot _ _ hslot) (hkeeps.channel _ _ hchannel)
        (hkeeps.device _ _ hdevice) hrequest hsound
  | connection hchannel hdevice hrequest hsound =>
      exact .connection (hkeeps.channel _ _ hchannel) (hkeeps.device _ _ hdevice) hrequest hsound
  | status => exact .status

/-- The caller of a slot has asked for the device of the channel. -/
def MeantFor (w : World (H.system P)) (channel slot : ℕ) : Prop :=
  ∃ i j deviceId request, roleOf w i = some (.caller deviceId request) ∧
    slotOf w i = some slot ∧ channelOf w j = some channel ∧ deviceOf w j = some deviceId

theorem MeantFor.keeps {channel slot : ℕ} (h : MeantFor w channel slot) (hkeeps : Keeps w w') :
    MeantFor w' channel slot := by
  obtain ⟨i, j, deviceId, request, hrole, hslot, hchannel, hdevice⟩ := h
  exact ⟨i, j, deviceId, request, hkeeps.role i _ hrole, hkeeps.slot i _ hslot,
    hkeeps.channel j _ hchannel, hkeeps.device j _ hdevice⟩

theorem Origin.meantFor {channel slot : ℕ} {item : Outgoing} (h : Origin w channel item)
    (hslot : item.slot = some slot) : MeantFor w channel slot := by
  cases h with
  | @caller i j _ deviceId request _ hrole htaken hchannel hdevice _ _ =>
      obtain rfl := Option.some.inj hslot
      exact ⟨i, j, deviceId, request, hrole, htaken, hchannel, hdevice⟩
  | connection => cases hslot
  | status => cases hslot

/-- What is in the channels. -/
structure Routed (w : World (H.system P)) : Prop where
  queue : ∀ channel, ∀ item ∈ w.shared.queue channel, Origin w channel item
  handed : ∀ channel, ∀ slot ∈ w.shared.handed channel, MeantFor w channel slot

/-- What is sent comes from where it says. -/
theorem origin_of_send (hw : Reachable HubState.Fresh mayStart w) {i channel : ℕ}
    {item : Outgoing} {bounded : Bool} {reply : Sending}
    (h : Happens w w' i ⟨.send channel item bounded, reply⟩) : Origin w channel item := by
  obtain ⟨role, hrole, hfollows⟩ := h.role
  rcases hfollows.send with
    ⟨deviceId, request, slot, frame, session, rfl, hslot, rfl, hrequest, hsound, hlookup, rfl⟩ |
    ⟨hopened, hnone, hframe⟩
  · rw [Log.mem_of] at hlookup
    obtain ⟨j, hchannel, hdevice⟩ := sender_of_lookup hw hlookup
    exact .caller hrole hslot hchannel hdevice hrequest hsound
  · obtain ⟨content, slot⟩ := item
    obtain rfl : slot = none := hnone
    cases content with
    | error status => exact .status
    | ok frame =>
        obtain ⟨hrequest, deviceId, hdevice, hsound⟩ := hframe frame rfl
        exact .connection hopened hdevice hrequest hsound

/-- What has been sent comes from where it says. -/
theorem origin_of_mem (hw : Reachable HubState.Fresh mayStart w) {i channel : ℕ}
    {item : Outgoing} {bounded : Bool} {reply : Sending}
    (h : (i, ⟨.send channel item bounded, reply⟩) ∈ w.log) : Origin w channel item := by
  refine reachable_induction (J := fun w : World (H.system P) =>
    (i, ⟨.send channel item bounded, reply⟩) ∈ w.log → Origin w channel item) hw ?_ ?_ ?_ h
  · intro s _ h
    cases h
  · intro w w' ih hkeeps hidles h
    rw [hidles.log] at h
    exact (ih h).keeps hkeeps
  · intro w w' k e hw ih hkeeps hhappens _ h
    rw [hhappens.log] at h
    rcases List.mem_cons.mp h with hnew | hold
    · obtain ⟨rfl, rfl⟩ := Prod.mk.inj hnew
      exact (origin_of_send hw hhappens).keeps hkeeps
    · exact (ih hold).keeps hkeeps

/-- A frame is sent over the connection of a device that it is sound for. -/
theorem Origin.sound {channel : ℕ} {frame : V1.RelayFrame} {slot : Option ℕ}
    (h : Origin w channel ⟨.ok frame, slot⟩) : ∃ j deviceId, channelOf w j = some channel ∧
      deviceOf w j = some deviceId ∧ H.sound deviceId frame := by
  generalize hitem : (⟨.ok frame, slot⟩ : Outgoing) = item at h
  cases h with
  | @caller i j slot deviceId request found hrole hslot hchannel hdevice hrequest hsound =>
      obtain rfl : frame = found := Except.ok.inj (Outgoing.mk.inj hitem).1
      exact ⟨j, deviceId, hchannel, hdevice, hsound⟩
  | @connection j deviceId found hchannel hdevice hrequest hsound =>
      obtain rfl : frame = found := Except.ok.inj (Outgoing.mk.inj hitem).1
      exact ⟨j, deviceId, hchannel, hdevice, hsound⟩
  | status => cases hitem

/-- A connection has registered what it may. -/
theorem registers_of_deviceOf (hw : Reachable HubState.Fresh mayStart w) {i : ℕ}
    {deviceId : String} (h : deviceOf w i = some deviceId) : ∃ opens registers history,
      roleOf w i = some (.session opens registers) ∧ registers history deviceId := by
  refine reachable_induction (J := fun w : World (H.system P) => deviceOf w i = some deviceId →
    ∃ opens registers history, roleOf w i = some (.session opens registers) ∧
      registers history deviceId) hw ?_ ?_ ?_ h
  · intro s _ h
    cases h
  · intro w w' ih hkeeps hidles h
    rw [deviceOf, hidles.of] at h
    obtain ⟨opens, registers, history, hrole, hregisters⟩ := ih h
    exact ⟨opens, registers, history, hkeeps.role i _ hrole, hregisters⟩
  · intro w w' k e _ ih hkeeps hhappens _ h
    rcases hhappens.deviceOf_cases i with hsame | ⟨rfl, _, found, channel, sessionId, rfl, hnew, _⟩
    · rw [hsame] at h
      obtain ⟨opens, registers, history, hrole, hregisters⟩ := ih h
      exact ⟨opens, registers, history, hkeeps.role i _ hrole, hregisters⟩
    · obtain rfl := Option.some.inj (hnew.symm.trans h)
      obtain ⟨role, hrole, hfollows⟩ := hhappens.role
      obtain ⟨_, _, opens, registers, rfl, hregisters⟩ := hfollows.register
      exact ⟨opens, registers, _, hkeeps.role i _ hrole, hregisters⟩

theorem routed_of_reachable (hw : Reachable HubState.Fresh mayStart w) : Routed w := by
  apply reachable_induction hw
  · rintro s ⟨_, _, _, hchannels⟩
    have hnone : ∀ channel, s.channels channel = none := fun channel => by rw [hchannels]
    refine ⟨fun channel item h => ?_, fun channel slot h => ?_⟩
    · change item ∈ s.queue channel at h
      simp [HubState.queue, hnone channel] at h
    · change slot ∈ s.handed channel at h
      simp [HubState.handed, hnone channel] at h
  · intro w w' ih hkeeps hidles
    refine ⟨fun channel item h => ?_, fun channel slot h => ?_⟩
    · rw [hidles.shared] at h
      exact (ih.queue channel item h).keeps hkeeps
    · rw [hidles.shared] at h
      exact (ih.handed channel slot h).keeps hkeeps
  · intro w w' i e hw ih hkeeps hhappens hmoves
    refine ⟨fun channel item h => ?_, fun channel slot h => ?_⟩
    · rcases hmoves.queue channel item h with hold | ⟨bounded, rfl⟩
      · exact (ih.queue channel item hold).keeps hkeeps
      · exact (origin_of_send hw hhappens).keeps hkeeps
    · rcases hmoves.handed channel slot h with hold | ⟨item, hitem, hslot⟩
      · exact (ih.handed channel slot hold).keeps hkeeps
      · exact ((ih.queue channel item hitem).meantFor hslot).keeps hkeeps

/-! ### On the wire -/

/-- The item has been put in the channel. -/
def SentTo (w : World (H.system P)) (channel : ℕ) (item : Outgoing) : Prop :=
  ∃ i bounded, (i, ⟨.send channel item bounded, .sent⟩) ∈ w.log

theorem SentTo.mono {channel : ℕ} {item : Outgoing} (h : SentTo w channel item)
    (hlog : ∀ entry ∈ w.log, entry ∈ w'.log) : SentTo w' channel item := by
  obtain ⟨i, bounded, hmem⟩ := h
  exact ⟨i, bounded, hlog _ hmem⟩

/-- What waits in a channel has been put there. -/
theorem sentTo_of_queue (hw : Reachable HubState.Fresh mayStart w) {channel : ℕ}
    {item : Outgoing} (h : item ∈ w.shared.queue channel) : SentTo w channel item := by
  refine reachable_induction (J := fun w : World (H.system P) =>
    item ∈ w.shared.queue channel → SentTo w channel item) hw ?_ ?_ ?_ h
  · rintro s ⟨_, _, _, hchannels⟩ h
    change item ∈ s.queue channel at h
    simp [HubState.queue, hchannels] at h
  · intro w w' ih _ hidles h
    rw [hidles.shared] at h
    refine (ih h).mono fun entry hentry => ?_
    rwa [hidles.log]
  · intro w w' i e _ ih _ hhappens hmoves h
    rcases hmoves.queue channel item h with hold | ⟨bounded, rfl⟩
    · refine (ih hold).mono fun entry hentry => ?_
      rw [hhappens.log]
      exact List.mem_cons_of_mem _ hentry
    · refine ⟨i, bounded, ?_⟩
      rw [hhappens.log]
      exact List.mem_cons_self

/-- What has been taken out of a channel has been put there. -/
theorem sentTo_of_taken (hw : Reachable HubState.Fresh mayStart w) {i channel : ℕ}
    {item : Outgoing} (h : Taken (w.log.of i) channel item) : SentTo w channel item := by
  refine reachable_induction (J := fun w : World (H.system P) =>
    Taken (w.log.of i) channel item → SentTo w channel item) hw ?_ ?_ ?_ h
  · rintro s _ (⟨_, h⟩ | h)
    · cases h
    · cases h
  · intro w w' ih _ hidles h
    rw [hidles.of] at h
    refine (ih h).mono fun entry hentry => ?_
    rwa [hidles.log]
  · intro w w' j e hw ih _ hhappens _ h
    have hlog : ∀ entry ∈ w.log, entry ∈ w'.log := by
      intro entry hentry
      rw [hhappens.log]
      exact List.mem_cons_of_mem _ hentry
    have htakes : w.shared.Takes channel item w'.shared → SentTo w' channel item := by
      rintro ⟨value, rest, hvalue, hqueue, _⟩
      refine (sentTo_of_queue hw ?_).mono hlog
      rw [HubState.queue_eq hvalue, hqueue]
      exact List.mem_cons_self
    by_cases hij : i = j
    · subst hij
      rw [hhappens.of_self] at h
      rcases h with ⟨bound, h⟩ | h
      · rcases List.mem_cons.mp h with rfl | hold
        · obtain ⟨_, first, hfirst, htakes'⟩ := hhappens.commits
          obtain rfl := Option.some.inj hfirst
          exact htakes htakes'
        · exact (ih (.inl ⟨bound, hold⟩)).mono hlog
      · rcases List.mem_cons.mp h with rfl | hold
        · exact htakes hhappens.commits
        · exact (ih (.inr hold)).mono hlog
    · rw [hhappens.of_ne hij] at h
      exact (ih h).mono hlog

/-- A stream writes nothing but what has been put in its channel. -/
theorem sentTo_of_transmit (hw : Reachable HubState.Fresh mayStart w) {i channel channel' : ℕ}
    {item : Outgoing} {reply : Bool} (hrole : roleOf w i = some (.stream channel))
    (h : (i, ⟨.transmit channel' item, reply⟩) ∈ w.log) :
    channel' = channel ∧ SentTo w channel item := by
  refine reachable_induction (J := fun w : World (H.system P) =>
    (i, ⟨.transmit channel' item, reply⟩) ∈ w.log →
      ∃ role, roleOf w i = some role ∧
        ∀ channel, role = .stream channel → channel' = channel ∧ SentTo w channel item)
          hw ?_ ?_ ?_ h
    |>.elim fun role h => ?_
  · intro s _ h
    cases h
  · intro w w' ih hkeeps hidles h
    rw [hidles.log] at h
    obtain ⟨role, hrole, hsent⟩ := ih h
    refine ⟨role, hkeeps.role i _ hrole, fun channel hstream => ?_⟩
    refine ⟨(hsent channel hstream).1, (hsent channel hstream).2.mono fun entry hentry => ?_⟩
    rwa [hidles.log]
  · intro w w' j e hw ih hkeeps hhappens _ h
    have hlog : ∀ entry ∈ w.log, entry ∈ w'.log := by
      intro entry hentry
      rw [hhappens.log]
      exact List.mem_cons_of_mem _ hentry
    rw [hhappens.log] at h
    rcases List.mem_cons.mp h with hnew | hold
    · obtain ⟨rfl, rfl⟩ := Prod.mk.inj hnew
      obtain ⟨role, hrole, hfollows⟩ := hhappens.role
      refine ⟨role, hkeeps.role i _ hrole, ?_⟩
      rintro channel rfl
      obtain ⟨rfl, htaken⟩ := hfollows
      exact ⟨rfl, (sentTo_of_taken hw htaken).mono hlog⟩
    · obtain ⟨role, hrole, hsent⟩ := ih hold
      refine ⟨role, hkeeps.role i _ hrole, fun channel hstream => ?_⟩
      exact ⟨(hsent channel hstream).1, (hsent channel hstream).2.mono hlog⟩
  · obtain ⟨hrole', hsent⟩ := h
    exact hsent channel (Option.some.inj (hrole'.symm.trans hrole))

end VorCommander
