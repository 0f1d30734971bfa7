import VorCommander.Hub.Programs

/-!
What is known in every run of a hub.

Each call has a slot, a channel and a device, or not yet, and its events say
which. No two calls have the same slot or the same channel. Whatever is found in
the tables of the hub belongs to a call: a slot to a caller, a registered sender
and the items of a channel to a connection of the device that they are for.
-/

namespace VorCommander

open Crypto Steps Steps.Program Steps.World

/-! ### Histories that grow -/

section Histories

variable (e : Event Hub) (h : History Hub)

theorem reservedSlot_cons : reservedSlot (e :: h) = reservedSlot h ∨
    ∃ key limit slot, e = ⟨.reserve key limit, .reserved slot⟩ ∧
      reservedSlot (e :: h) = some slot := by
  obtain ⟨op, reply⟩ := e
  cases op with
  | reserve key limit =>
      cases reply with
      | reserved slot => exact .inr ⟨key, limit, slot, rfl, rfl⟩
      | duplicate => exact .inl rfl
      | tooMany => exact .inl rfl
  | _ => exact .inl rfl

theorem openedChannel_cons : openedChannel (e :: h) = openedChannel h ∨
    ∃ channel, e = ⟨.openChannel, channel⟩ ∧ openedChannel (e :: h) = some channel := by
  obtain ⟨op, reply⟩ := e
  cases op with
  | openChannel => exact .inr ⟨reply, rfl, rfl⟩
  | _ => exact .inl rfl

theorem registeredDevice_cons : registeredDevice (e :: h) = registeredDevice h ∨
    ∃ deviceId sender sessionId, e = ⟨.register deviceId sender sessionId, ()⟩ ∧
      registeredDevice (e :: h) = some deviceId := by
  obtain ⟨op, reply⟩ := e
  cases op with
  | register deviceId sender sessionId => exact .inr ⟨deviceId, sender, sessionId, rfl, rfl⟩
  | _ => exact .inl rfl

end Histories

/-! ### Calls -/

variable {P : Primitives} {H : HubPrograms} {mayStart : World (H.system P) → H.Entry → Prop}
  {w w' : World (H.system P)}

/-- The role of a call. -/
def roleOf (w : World (H.system P)) (i : ℕ) : Option Role :=
  (w.calls i).map fun c => H.role c.entry

/-- The slot that a call has taken. -/
def slotOf (w : World (H.system P)) (i : ℕ) : Option ℕ := reservedSlot (w.log.of i)

/-- The channel that a call has opened. -/
def channelOf (w : World (H.system P)) (i : ℕ) : Option ℕ := openedChannel (w.log.of i)

/-- The device that a call has registered. -/
def deviceOf (w : World (H.system P)) (i : ℕ) : Option String := registeredDevice (w.log.of i)

/-- The call goes on: it has not ended, and it has not been dropped. -/
def Running (w : World (H.system P)) (i : ℕ) : Prop :=
  ∃ c p, w.calls i = some c ∧ c.rest = some p ∧ ∀ r, p ≠ .done r

/-- A step in which a call performs an operation. -/
structure Happens (w w' : World (H.system P)) (i : ℕ) (e : Event Hub) : Prop where
  log : w'.log = (i, e) :: w.log
  commits : e.op.Commits P w.shared e.reply w'.shared
  role : ∃ role, roleOf w i = some role ∧ Follows H.limit H.sound role (w.log.of i) e.op
  running : Running w i
  others : ∀ j, Running w' j → Running w j

/-- A step in which no operation is performed: a call is started, or it is
dropped. -/
structure Idles (w w' : World (H.system P)) : Prop where
  log : w'.log = w.log
  shared : w'.shared = w.shared

theorem safe_body (entry : H.Entry) :
    Safe (fun _ _ => True) ((fun entry => Follows H.limit H.sound (H.role entry)) entry)
      ((fun entry h _ => Ends (H.role entry) h) entry) ((H.system P).body entry) [] :=
  H.follows entry

theorem hubStep_cases (hw : Reachable HubState.Fresh mayStart w) (hstep : Step mayStart w w') :
    Idles w w' ∨ ∃ i e, Happens w w' i e := by
  cases hstep with
  | start _ _ => exact .inl ⟨rfl, rfl⟩
  | crash _ => exact .inl ⟨rfl, rfl⟩
  | @commit i c op next reply s hc hrest hcommit =>
      refine .inr ⟨i, ⟨op, reply⟩, rfl, hcommit, ⟨H.role c.entry, by simp [roleOf, hc], ?_⟩,
        ⟨c, _, hc, hrest, by simp⟩, ?_⟩
      · exact hw.guarantee_next (fun entry => safe_body entry) (allowed_true w.log) hc hrest
      · rintro j ⟨c', p, hc', hrest', hp⟩
        by_cases hij : j = i
        · subst hij
          exact ⟨c, _, hc, hrest, by simp⟩
        · exact ⟨c', p, by simpa [World.commit, hij] using hc', hrest', hp⟩

/-- A step whose event is known. -/
theorem happens_of_log (hw : Reachable HubState.Fresh mayStart w) (hstep : Step mayStart w w')
    {i : ℕ} {e : Event Hub} (hlog : w'.log = (i, e) :: w.log) : Happens w w' i e := by
  rcases hubStep_cases hw hstep with hidles | ⟨j, e', hhappens⟩
  · exact absurd (congrArg List.length (hidles.log.symm.trans hlog)) (by simp)
  · obtain ⟨rfl, rfl⟩ := Prod.mk.inj (List.cons.inj (hhappens.log.symm.trans hlog)).1
    exact hhappens

/-! ### Who performs what -/

section Roles

variable {limit : Option ℕ} {sound : String → V1.RelayFrame → Prop} {role : Role}
  {h : History Hub} {key : RequestKey} {most : Option ℕ} {channel slot : ℕ}

/-- Only a caller takes a slot, one for its request. -/
theorem Follows.reserve (hf : Follows limit sound role h (.reserve key most)) :
    ∃ deviceId request, role = .caller deviceId request ∧ key = (deviceId, request.requestId) ∧
      most = limit ∧ reservedSlot h = none := by
  cases role with
  | caller deviceId request => exact ⟨deviceId, request, rfl, hf⟩
  | session | stream | outside => exact hf.elim

/-- Only a caller gives a slot back, its own. -/
theorem Follows.remove (hf : Follows limit sound role h (.remove key slot)) :
    ∃ deviceId request, role = .caller deviceId request ∧ key = (deviceId, request.requestId) ∧
      reservedSlot h = some slot := by
  cases role with
  | caller deviceId request => exact ⟨deviceId, request, rfl, hf⟩
  | session | stream | outside => exact hf.elim

/-- Only a caller waits at a slot, its own. -/
theorem Follows.await (hf : Follows limit sound role h (.await slot)) :
    ∃ deviceId request, role = .caller deviceId request ∧ reservedSlot h = some slot := by
  cases role with
  | caller deviceId request => exact ⟨deviceId, request, rfl, hf⟩
  | session | stream | outside => exact hf.elim

theorem Follows.openChannel (hf : Follows limit sound role h .openChannel) :
    openedChannel h = none ∧ ∃ opens registers, role = .session opens registers ∧ opens h := by
  cases role with
  | session opens registers => exact ⟨hf.1, opens, registers, rfl, hf.2⟩
  | caller | stream | outside => exact hf.elim

theorem Follows.register {deviceId : String} {sessionId : Random128}
    (hf : Follows limit sound role h (.register deviceId channel sessionId)) :
    openedChannel h = some channel ∧ registeredDevice h = none ∧
      ∃ opens registers, role = .session opens registers ∧ registers h deviceId := by
  cases role with
  | session opens registers => exact ⟨hf.1, hf.2.1, opens, registers, rfl, hf.2.2⟩
  | caller | stream | outside => exact hf.elim

/-- Only a connection hands in results, for its device. -/
theorem Follows.complete {deviceId : String} {result : V1.ActionResult}
    (hf : Follows limit sound role h (.complete channel deviceId result)) :
    openedChannel h = some channel ∧ registeredDevice h = some deviceId := by
  cases role with
  | session => exact hf
  | caller | stream | outside => exact hf.elim

/-- A caller sends its own frame to the sender that it has looked up, and a
connection sends no frame that asks for something. -/
theorem Follows.send {item : Outgoing} {bounded : Bool}
    (hf : Follows limit sound role h (.send channel item bounded)) :
    (∃ deviceId request slot frame session, role = .caller deviceId request ∧
      reservedSlot h = some slot ∧ item = ⟨.ok frame, some slot⟩ ∧ frame.request = some request ∧
      sound deviceId frame ∧ ⟨.lookup deviceId, some session⟩ ∈ h ∧ session.sender = channel) ∨
    openedChannel h = some channel ∧ item.slot = none ∧
      ∀ frame, item.content = .ok frame → frame.request = none ∧
        ∃ deviceId, registeredDevice h = some deviceId ∧ sound deviceId frame := by
  cases role with
  | caller deviceId request =>
      obtain ⟨slot, frame, session, hslot, hitem, hrequest, hsound, hlookup, hsender⟩ := hf
      exact .inl ⟨deviceId, request, slot, frame, session, rfl, hslot, hitem, hrequest, hsound,
        hlookup, hsender⟩
  | session => exact .inr hf
  | stream | outside => exact hf.elim

end Roles

/-! ### What a call is known to have -/

theorem Idles.of (h : Idles w w') (j : ℕ) : w'.log.of j = w.log.of j := by rw [h.log]

namespace Happens

variable {i : ℕ} {e : Event Hub}

theorem of_self (h : Happens w w' i e) : w'.log.of i = e :: w.log.of i := by
  rw [h.log, Log.of_cons_self]

theorem of_ne (h : Happens w w' i e) {j : ℕ} (hj : j ≠ i) : w'.log.of j = w.log.of j := by
  rw [h.log, Log.of_cons_ne _ _ (Ne.symm hj)]

/-- A call has the slot that it had, or it has just taken its first one. -/
theorem slotOf_cases (h : Happens w w' i e) (j : ℕ) : slotOf w' j = slotOf w j ∨
    j = i ∧ slotOf w i = none ∧ ∃ deviceId request slot,
      roleOf w i = some (.caller deviceId request) ∧ slotOf w' i = some slot ∧
      e = ⟨.reserve (deviceId, request.requestId) H.limit, .reserved slot⟩ := by
  by_cases hj : j = i
  · subst hj
    unfold slotOf
    rw [h.of_self]
    rcases reservedSlot_cons e (w.log.of j) with hsame | ⟨key, limit, slot, rfl, hnew⟩
    · exact .inl hsame
    · obtain ⟨role, hrole, hfollows⟩ := h.role
      obtain ⟨deviceId, request, rfl, rfl, rfl, hnone⟩ := hfollows.reserve
      exact .inr ⟨rfl, hnone, deviceId, request, slot, hrole, hnew, rfl⟩
  · unfold slotOf
    rw [h.of_ne hj]
    exact .inl rfl

/-- A call has the channel that it had, or it has just opened it. -/
theorem channelOf_cases (h : Happens w w' i e) (j : ℕ) : channelOf w' j = channelOf w j ∨
    j = i ∧ channelOf w i = none ∧ ∃ channel, e = ⟨.openChannel, channel⟩ ∧
      channelOf w' i = some channel := by
  by_cases hj : j = i
  · subst hj
    unfold channelOf
    rw [h.of_self]
    rcases openedChannel_cons e (w.log.of j) with hsame | ⟨channel, rfl, hnew⟩
    · exact .inl hsame
    · obtain ⟨role, _, hfollows⟩ := h.role
      exact .inr ⟨rfl, hfollows.openChannel.1, channel, rfl, hnew⟩
  · unfold channelOf
    rw [h.of_ne hj]
    exact .inl rfl

/-- A call has the device that it had, or it has just registered it. -/
theorem deviceOf_cases (h : Happens w w' i e) (j : ℕ) : deviceOf w' j = deviceOf w j ∨
    j = i ∧ deviceOf w i = none ∧ ∃ deviceId channel sessionId,
      e = ⟨.register deviceId channel sessionId, ()⟩ ∧ deviceOf w' i = some deviceId ∧
      channelOf w i = some channel := by
  by_cases hj : j = i
  · subst hj
    unfold deviceOf
    rw [h.of_self]
    rcases registeredDevice_cons e (w.log.of j) with hsame | ⟨deviceId, channel, id, rfl, hnew⟩
    · exact .inl hsame
    · obtain ⟨role, _, hfollows⟩ := h.role
      obtain ⟨hopened, hnone, _⟩ := hfollows.register
      exact .inr ⟨rfl, hnone, deviceId, channel, id, rfl, hnew, hopened⟩
  · unfold deviceOf
    rw [h.of_ne hj]
    exact .inl rfl

end Happens

/-- A call keeps its slot, its channel and its device. -/
structure Keeps (w w' : World (H.system P)) : Prop where
  role : ∀ i role, roleOf w i = some role → roleOf w' i = some role
  slot : ∀ i slot, slotOf w i = some slot → slotOf w' i = some slot
  channel : ∀ i channel, channelOf w i = some channel → channelOf w' i = some channel
  device : ∀ i deviceId, deviceOf w i = some deviceId → deviceOf w' i = some deviceId

theorem roleOf_step (hstep : Step mayStart w w') {i : ℕ} {role : Role}
    (h : roleOf w i = some role) : roleOf w' i = some role := by
  obtain ⟨c, hc, rfl⟩ := Option.map_eq_some_iff.mp h
  obtain ⟨c', hc', hentry⟩ := hstep.entry hc
  rw [roleOf, hc', Option.map_some, hentry]

theorem keeps_of_step (hw : Reachable HubState.Fresh mayStart w) (hstep : Step mayStart w w') :
    Keeps w w' := by
  refine ⟨fun i role => roleOf_step hstep, fun i slot h => ?_, fun i channel h => ?_,
    fun i deviceId h => ?_⟩
  all_goals rcases hubStep_cases hw hstep with hidles | ⟨j, e, hhappens⟩
  · rwa [slotOf, hidles.of]
  · rcases hhappens.slotOf_cases i with hsame | ⟨rfl, hnone, _⟩
    · rwa [hsame]
    · rw [hnone] at h
      cases h
  · rwa [channelOf, hidles.of]
  · rcases hhappens.channelOf_cases i with hsame | ⟨rfl, hnone, _⟩
    · rwa [hsame]
    · rw [hnone] at h
      cases h
  · rwa [deviceOf, hidles.of]
  · rcases hhappens.deviceOf_cases i with hsame | ⟨rfl, hnone, _⟩
    · rwa [hsame]
    · rw [hnone] at h
      cases h

/-- What holds of a fresh hub and is kept by every operation holds in every
run. -/
theorem reachable_induction {J : World (H.system P) → Prop}
    (hw : Reachable HubState.Fresh mayStart w) (base : ∀ s : HubState, s.Fresh → J (initial s))
    (idles : ∀ w w', J w → Keeps w w' → Idles w w' → J w')
    (happens : ∀ w w' i e, Reachable HubState.Fresh mayStart w → J w → Keeps w w' →
      Happens w w' i e → w.shared.Moves e w'.shared → J w') : J w := by
  apply hw.induction base
  intro w w' hw ih hstep
  have hkeeps := keeps_of_step hw hstep
  rcases hubStep_cases hw hstep with hidles | ⟨i, e, hhappens⟩
  · exact idles w w' ih hkeeps hidles
  · exact happens w w' i e hw ih hkeeps hhappens (HubState.moves_of_commits hhappens.commits)

/-! ### Slots -/

/-- Every slot belongs to one caller, and has the key of its request. -/
structure Owned (w : World (H.system P)) : Prop where
  slot : ∀ i slot, slotOf w i = some slot → ∃ deviceId request status,
    roleOf w i = some (.caller deviceId request) ∧
      w.shared.slots slot = some ⟨(deviceId, request.requestId), status⟩
  owner : ∀ slot value, w.shared.slots slot = some value → ∃ i, slotOf w i = some slot
  alone : ∀ i j slot, slotOf w i = some slot → slotOf w j = some slot → i = j

/-- A slot that is taken now was nobody's. -/
theorem Owned.fresh (h : Owned w) {i slot : ℕ} (hslot : slotOf w i = some slot)
    (hnone : w.shared.slots slot = none) : False := by
  obtain ⟨_, _, _, _, hsome⟩ := h.slot i slot hslot
  rw [hnone] at hsome
  cases hsome

theorem owned_of_reachable (hw : Reachable HubState.Fresh mayStart w) : Owned w := by
  apply reachable_induction hw
  -- at the start no slot is taken
  · rintro s ⟨_, _, hslots, _⟩
    refine ⟨fun i slot h => ?_, fun slot value h => ?_, fun i j slot h => ?_⟩
    · cases h
    · change s.slots slot = some value at h
      rw [hslots] at h
      cases h
    · cases h
  · intro w w' ih hkeeps hidles
    have hsame : ∀ j, slotOf w' j = slotOf w j := fun j => by rw [slotOf, hidles.of, slotOf]
    refine ⟨fun i slot h => ?_, fun slot value h => ?_, fun i j slot h h' => ?_⟩
    · rw [hsame] at h
      obtain ⟨deviceId, request, status, hrole, hvalue⟩ := ih.slot i slot h
      exact ⟨deviceId, request, status, hkeeps.role i _ hrole, by rwa [hidles.shared]⟩
    · rw [hidles.shared] at h
      obtain ⟨i, hi⟩ := ih.owner slot value h
      exact ⟨i, hkeeps.slot i slot hi⟩
    · rw [hsame] at h h'
      exact ih.alone i j slot h h'
  -- the slot that a caller takes was free, and the others keep theirs
  · intro w w' i e _ ih hkeeps hhappens hmoves
    have hcommits := hhappens.commits
    refine ⟨fun j slot h => ?_, fun slot value h => ?_, fun j k slot hj hk => ?_⟩
    · rcases hhappens.slotOf_cases j with hsame |
        ⟨rfl, _, deviceId, request, taken, hrole, htaken, rfl⟩
      · rw [hsame] at h
        obtain ⟨deviceId, request, status, hrole, hvalue⟩ := ih.slot j slot h
        obtain ⟨status', hvalue'⟩ := hmoves.persists slot _ hvalue
        exact ⟨deviceId, request, status', hkeeps.role j _ hrole, hvalue'⟩
      · obtain rfl := Option.some.inj (htaken.symm.trans h)
        obtain ⟨_, _, hvalue, _⟩ := HubState.reserved_of_commits hcommits
        exact ⟨deviceId, request, .waiting, hkeeps.role j _ hrole, hvalue⟩
    · rcases hmoves.slots slot value h with hold | hchange
      · obtain ⟨j, hj⟩ := ih.owner slot value hold
        exact ⟨j, hkeeps.slot j slot hj⟩
      · have hold : (∃ old, w.shared.slots slot = some old) ∨ slotOf w' i = some slot := by
          cases hchange with
          | reserved _ =>
              right
              rw [slotOf, hhappens.of_self]
              rfl
          | removed _ hold => exact .inl ⟨_, hold⟩
          | completed _ hold => exact .inl ⟨_, hold⟩
          | dropped hold => exact .inl ⟨_, hold⟩
        rcases hold with ⟨old, hold⟩ | hnew
        · obtain ⟨j, hj⟩ := ih.owner slot old hold
          exact ⟨j, hkeeps.slot j slot hj⟩
        · exact ⟨i, hnew⟩
    · rcases hhappens.slotOf_cases j with hj' | ⟨rfl, _, _, _, taken, _, htaken, rfl⟩
      · rcases hhappens.slotOf_cases k with hk' | ⟨rfl, _, _, _, taken, _, htaken, rfl⟩
        · rw [hj'] at hj
          rw [hk'] at hk
          exact ih.alone j k slot hj hk
        · obtain rfl := Option.some.inj (htaken.symm.trans hk)
          rw [hj'] at hj
          exact (ih.fresh hj (HubState.reserved_of_commits hcommits).2.1).elim
      · obtain rfl := Option.some.inj (htaken.symm.trans hj)
        by_cases hkj : k = j
        · exact hkj.symm
        · rcases hhappens.slotOf_cases k with hk' | ⟨rfl, _⟩
          · rw [hk'] at hk
            exact (ih.fresh hk (HubState.reserved_of_commits hcommits).2.1).elim
          · exact absurd rfl hkj

/-- Whoever waits at a slot or gives it back has taken it. -/
theorem slotOf_of_mem (hw : Reachable HubState.Fresh mayStart w) {i slot : ℕ} {e : Event Hub}
    (he : (i, e) ∈ w.log) (hop : e.op = .await slot ∨ ∃ key, e.op = .remove key slot) :
    slotOf w i = some slot := by
  suffices h : ∀ w : World (H.system P), Reachable HubState.Fresh mayStart w →
      (i, e) ∈ w.log → slotOf w i = some slot from h w hw he
  intro w hw
  refine reachable_induction (J := fun w => (i, e) ∈ w.log → slotOf w i = some slot) hw ?_ ?_ ?_
  · intro s _ h
    cases h
  · intro w w' ih _ hidles h
    rw [slotOf, hidles.of]
    rw [hidles.log] at h
    exact ih h
  · intro w w' j e' _ ih hkeeps hhappens _ h
    rw [hhappens.log] at h
    rcases List.mem_cons.mp h with hnew | hold
    · obtain ⟨rfl, rfl⟩ := Prod.mk.inj hnew
      obtain ⟨role, _, hfollows⟩ := hhappens.role
      rcases hop with hop | ⟨key, hop⟩
      · rw [hop] at hfollows
        obtain ⟨_, _, _, hslot⟩ := hfollows.await
        exact hkeeps.slot i slot hslot
      · rw [hop] at hfollows
        obtain ⟨_, _, _, _, hslot⟩ := hfollows.remove
        exact hkeeps.slot i slot hslot
    · exact hkeeps.slot i slot (ih hold)

/-! ### Pending requests -/

/-- A pending request has one slot, which is open, and it is there until its
caller gives it back. -/
structure Books (w : World (H.system P)) : Prop where
  keys : (w.shared.pending.map (·.1)).Nodup
  waits : ∀ key slot, (key, slot) ∈ w.shared.pending →
    w.shared.slots slot = some ⟨key, .waiting⟩ ∨ w.shared.slots slot = some ⟨key, .dropped⟩
  kept : ∀ key slot, (key, slot) ∈ w.shared.pending → ∀ i key',
    (i, ⟨.remove key' slot, ()⟩) ∉ w.log
  bounded : ∀ most, H.limit = some most → ∀ deviceId, w.shared.inFlight deviceId ≤ most

theorem Books.lookup (h : Books w) {key : RequestKey} {slot : ℕ} :
    w.shared.pending.lookup key = some slot ↔ (key, slot) ∈ w.shared.pending := by
  constructor
  · intro hlookup
    obtain ⟨before, after, hsplit, _⟩ := List.lookup_eq_some_iff.mp hlookup
    rw [hsplit]
    exact List.mem_append_right _ List.mem_cons_self
  · intro hmem
    obtain ⟨before, after, hsplit⟩ := List.append_of_mem hmem
    refine List.lookup_eq_some_iff.mpr ⟨before, after, hsplit, fun entry hentry => ?_⟩
    have hkeys := h.keys
    rw [hsplit, List.map_append, List.map_cons, List.nodup_append] at hkeys
    have hne := hkeys.2.2 entry.1 (List.mem_map_of_mem hentry) key List.mem_cons_self
    exact bne_iff_ne.mpr (Ne.symm hne)

/-- The key of a slot that is pending is that of its caller. -/
theorem Books.key_eq (h : Books w) {key key' : RequestKey} {slot : ℕ} {status : SlotStatus}
    (hmem : (key, slot) ∈ w.shared.pending) (hslot : w.shared.slots slot = some ⟨key', status⟩) :
    key' = key := by
  rcases h.waits key slot hmem with hwaiting | hdropped
  · rw [hslot] at hwaiting
    exact (Slot.mk.inj (Option.some.inj hwaiting)).1
  · rw [hslot] at hdropped
    exact (Slot.mk.inj (Option.some.inj hdropped)).1

theorem inFlight_of_moves {s s' : HubState} {e : Event Hub} {most : ℕ} {deviceId : String}
    (h : s.Moves e s') (hbound : s.inFlight deviceId ≤ most)
    (hroom : ∀ key limit slot, e = ⟨.reserve key limit, .reserved slot⟩ →
      s.inFlight key.1 < most) : s'.inFlight deviceId ≤ most := by
  unfold HubState.inFlight at hbound hroom ⊢
  rcases h.pending with hsub | ⟨key, limit, slot, he, _, hcons⟩
  · have hle := hsub.countP_le (p := fun entry => decide (entry.1.1 = deviceId))
    omega
  · rw [hcons, List.countP_cons]
    by_cases hkey : key.1 = deviceId
    · have hlt := hroom key limit slot he
      rw [hkey] at hlt
      simp only [hkey, decide_true, if_true]
      omega
    · simp only [hkey, decide_false, Bool.false_eq_true, if_false]
      omega

theorem books_of_reachable (hw : Reachable HubState.Fresh mayStart w) : Books w := by
  apply reachable_induction hw
  · rintro s ⟨_, hpending, _, _⟩
    have hnone : (initial s : World (H.system P)).shared.pending = [] := hpending
    refine ⟨?_, ?_, ?_, ?_⟩
    · rw [hnone]
      exact List.nodup_nil
    · rw [hnone]
      simp
    · rw [hnone]
      simp
    · intro most _ deviceId
      change List.countP _ s.pending ≤ most
      rw [hpending]
      exact Nat.zero_le most
  · intro w w' ih _ hidles
    refine ⟨?_, ?_, ?_, ?_⟩
    · rw [hidles.shared]
      exact ih.keys
    · rw [hidles.shared]
      exact ih.waits
    · rw [hidles.shared, hidles.log]
      exact ih.kept
    · rw [hidles.shared]
      exact ih.bounded
  · intro w w' i e hw ih hkeeps hhappens hmoves
    have howned := owned_of_reachable hw
    have hcommits := hhappens.commits
    refine ⟨hmoves.nodup ih.keys, fun key slot hmem => ?_, fun key slot hmem j key' hremoved => ?_,
      fun most hmost deviceId => ?_⟩
    · -- the slot of a request that is still pending is filled or closed by no step
      rcases hmoves.mem_pending hmem with hold | ⟨limit, rfl⟩
      · have hlookup := ih.lookup.mpr hold
        have hcleared := hmoves.cleared _ hmem
        have hsome : ∃ value, w.shared.slots slot = some value ∧ value.key = key := by
          rcases ih.waits key slot hold with h | h
          · exact ⟨_, h, rfl⟩
          · exact ⟨_, h, rfl⟩
        obtain ⟨⟨asked, before⟩, hvalue, rfl⟩ := hsome
        obtain ⟨status, hstatus⟩ := hmoves.persists slot _ hvalue
        dsimp only at hstatus hcleared hlookup hold ⊢
        rcases hmoves.slots slot _ hstatus with hsame | hchange
        · rw [hstatus, ← hsame]
          exact ih.waits _ slot hold
        · rw [hstatus]
          cases hchange with
          | reserved hfresh =>
              rw [hfresh] at hvalue
              cases hvalue
          | removed hvacated _ =>
              have hsame := ih.key_eq (ih.lookup.mp hvacated) hvalue
              exact absurd (congrArg some hsame.symm) hcleared
          | completed hvacated _ =>
              have hsame := ih.key_eq (ih.lookup.mp hvacated) hvalue
              exact absurd (congrArg some hsame.symm) hcleared
          | dropped _ => exact .inr rfl
      · exact .inl (HubState.reserved_of_commits hcommits).2.2.1
    · rw [hhappens.log] at hremoved
      rcases List.mem_cons.mp hremoved with hnew | hbefore
      · obtain ⟨rfl, rfl⟩ := Prod.mk.inj hnew
        obtain ⟨role, hrole, hfollows⟩ := hhappens.role
        obtain ⟨deviceId, request, rfl, rfl, hslot⟩ := hfollows.remove
        obtain ⟨_, _, status, hrole', hvalue⟩ := howned.slot j slot hslot
        obtain ⟨rfl, rfl⟩ := Role.caller.inj (Option.some.inj (hrole.symm.trans hrole'))
        rcases hmoves.mem_pending hmem with hold | ⟨limit, hne⟩
        · have hkey := ih.key_eq hold hvalue
          exact hmoves.cleared _ hmem (congrArg some hkey)
        · cases hne
      · rcases hmoves.mem_pending hmem with hold | ⟨limit, rfl⟩
        · exact ih.kept key slot hold j key' hbefore
        · have hslot := slotOf_of_mem hw hbefore (.inr ⟨key', rfl⟩)
          exact howned.fresh hslot (HubState.reserved_of_commits hcommits).2.1
    · refine inFlight_of_moves hmoves (ih.bounded most hmost deviceId) ?_
      rintro key limit slot rfl
      obtain ⟨role, _, hfollows⟩ := hhappens.role
      obtain ⟨_, _, _, _, hlimit, _⟩ := hfollows.reserve
      exact (HubState.reserved_of_commits hcommits).1 most (hlimit.trans hmost)

end VorCommander
