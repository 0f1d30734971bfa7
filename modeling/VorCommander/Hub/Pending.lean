import VorCommander.Hub.Channels
import VorCommander.Hub.Working

/-!
The table of pending requests.

A request is pending until its result comes in or its caller gives it up. The
table is keyed by device and request identifier, and a result is matched by
these alone. As long as no caller is dropped while it waits, devices answer only
what they have been asked, and no identifier is used again while an earlier
request with it is still under way, at most one slot of a key is under way at
any time; then every entry has a caller that waits for it, and a caller gets the
answer to its own frame.
-/

namespace VorCommander

open Crypto Steps Steps.Program Steps.World

variable {P : Primitives} {H : HubPrograms} {mayStart : World (H.system P) → H.Entry → Prop}
  {w w' : World (H.system P)}

/-! ### Steps -/

/-- The call has been started, and it has not been dropped. -/
def Present (w : World (H.system P)) (i : ℕ) : Prop :=
  ∃ c p, w.calls i = some c ∧ c.rest = some p

theorem Running.present {i : ℕ} (h : Running w i) : Present w i := by
  obtain ⟨c, p, hc, hp, _⟩ := h
  exact ⟨c, p, hc, hp⟩

/-- The future of the call is dropped, before it has let go of the slot. -/
inductive Abandons (w w' : World (H.system P)) (i slot : ℕ) : Prop
  | call {c : Call (H.system P)} : w.calls i = some c → w' = w.crash i c → Abandons w w' i slot
  | slot {j : ℕ} : w'.log = (j, ⟨.drop slot, ()⟩) :: w.log → Abandons w w' i slot

/-- A call that has been started stays, unless it is dropped. -/
theorem Present.step (hstep : Step mayStart w w') {i : ℕ} (h : Present w i) :
    Present w' i ∨ ∃ c, w.calls i = some c ∧ w' = w.crash i c := by
  obtain ⟨c, p, hc, hp⟩ := h
  cases hstep with
  | @start j entry hfresh _ =>
      have hij : i ≠ j := by
        rintro rfl
        rw [hfresh] at hc
        cases hc
      exact .inl ⟨c, p, by simpa [World.start, hij] using hc, hp⟩
  | @commit j c' op next reply s hc' _ _ =>
      left
      by_cases hij : i = j
      · subst hij
        exact ⟨_, _, Function.update_self .., rfl⟩
      · exact ⟨c, p, by simpa [World.commit, hij] using hc, hp⟩
  | @crash j c' hc' =>
      by_cases hij : i = j
      · subst hij
        exact .inr ⟨c', hc', rfl⟩
      · exact .inl ⟨c, p, by simpa [World.crash, hij] using hc, hp⟩

/-- A call that runs after an idle step ran before it, or it has only just been
started. -/
theorem Running.of_idles (hw : Reachable HubState.Fresh mayStart w) (hstep : Step mayStart w w')
    (hidles : Idles w w') {i : ℕ} (h : Running w' i) : Running w i ∨ w.log.of i = [] := by
  obtain ⟨c, p, hc, hp, hgoes⟩ := h
  cases hstep with
  | @start j entry hfresh _ =>
      by_cases hij : i = j
      · subst hij
        right
        rw [List.eq_nil_iff_forall_not_mem]
        intro e he
        obtain ⟨c', hc'⟩ := hw.consistent.started i e (Log.mem_of.mp he)
        rw [hfresh] at hc'
        cases hc'
      · exact .inl ⟨c, p, by simpa [World.start, hij] using hc, hp, hgoes⟩
  | @commit j _ _ _ _ _ _ _ _ =>
      exact absurd hidles.log (List.cons_ne_self _ _)
  | @crash j c' hc' =>
      by_cases hij : i = j
      · subst hij
        obtain rfl : (⟨c'.entry, c'.history, none⟩ : Call (H.system P)) = c := by
          simpa [World.crash] using hc
        cases hp
      · exact .inl ⟨c, p, by simpa [World.crash, hij] using hc, hp, hgoes⟩

/-- Only `Running` calls, and a call that is over has ended as its role says. -/
theorem Present.running_or_ends (hw : Reachable HubState.Fresh mayStart w) {i : ℕ} {role : Role}
    (h : Present w i) (hrole : roleOf w i = some role) :
    Running w i ∨ Ends role (w.log.of i) := by
  obtain ⟨c, p, hc, hp⟩ := h
  cases p with
  | step op next => exact .inl ⟨c, _, hc, hp, by simp⟩
  | done r =>
      obtain rfl : H.role c.entry = role := by
        rw [roleOf, hc] at hrole
        exact Option.some.inj hrole
      exact .inr (hw.result (fun entry => safe_body entry) (allowed_true w.log) hc hp)

/-! ### What is under way -/

/-- Something may still be done with the slot: its caller goes on, or the frame
of the caller waits in the channel of a connection that goes on, or has come out
of it and may be answered. -/
inductive Underway (w : World (H.system P)) (slot : ℕ) : Prop
  | caller {i : ℕ} : slotOf w i = some slot → Running w i → w.shared.Alive slot → Underway w slot
  | queued {j channel : ℕ} {item : Outgoing} : channelOf w j = some channel → Running w j →
      item ∈ w.shared.queue channel → item.slot = some slot → Underway w slot
  | handed {j channel : ℕ} : channelOf w j = some channel → Running w j →
      slot ∈ w.shared.handed channel → Underway w slot

/-- The request of the slot is pending. -/
def Pending (w : World (H.system P)) (slot : ℕ) : Prop := ∃ key, (key, slot) ∈ w.shared.pending

/-- A step that callers and devices are expected to make: a device answers only
frames that it has been handed, a caller is not dropped while its request is
pending, and an identifier is used again only when nothing is under way for the
earlier requests with it. -/
structure Orderly (w w' : World (H.system P)) : Prop where
  answered : ∀ i channel deviceId result reply,
    w'.log = (i, ⟨.complete channel deviceId result, reply⟩) :: w.log → reply.answers ≠ none
  patient : ∀ i slot, slotOf w i = some slot → Pending w slot → ¬ Abandons w w' i slot
  fresh : ∀ i key limit slot, w'.log = (i, ⟨.reserve key limit, .reserved slot⟩) :: w.log →
    ∀ earlier status, w.shared.slots earlier = some ⟨key, status⟩ → ¬ Underway w earlier

/-! ### What one step does to what is under way -/

theorem alive_of_moves {s s' : HubState} {e : Event Hub} {slot : ℕ} (h : s.Moves e s')
    (halive : s'.Alive slot) :
    s.Alive slot ∨ ∃ key limit, e = ⟨.reserve key limit, .reserved slot⟩ := by
  obtain ⟨value, hvalue, hopen⟩ := halive
  rcases h.slots slot value hvalue with hold | hchange
  · exact .inl ⟨value, hold, hopen⟩
  · cases hchange with
    | @reserved key limit _ _ => exact .inr ⟨key, limit, rfl⟩
    | removed _ hwaiting => exact .inl ⟨_, hwaiting, by simp⟩
    | completed _ hwaiting => exact .inl ⟨_, hwaiting, by simp⟩
    | dropped _ => exact absurd rfl hopen

/-- A slot keeps its key. -/
theorem key_of_moves {s s' : HubState} {e : Event Hub} {slot : ℕ} {value : Slot}
    (h : s.Moves e s') (hvalue : s'.slots slot = some value) :
    (∃ status, s.slots slot = some ⟨value.key, status⟩) ∨
      ∃ limit, e = ⟨.reserve value.key limit, .reserved slot⟩ := by
  rcases h.slots slot value hvalue with hold | hchange
  · exact .inl ⟨value.status, hold⟩
  · cases hchange with
    | @reserved key limit _ _ => exact .inr ⟨limit, rfl⟩
    | removed _ hwaiting => exact .inl ⟨_, hwaiting⟩
    | completed _ hwaiting => exact .inl ⟨_, hwaiting⟩
    | dropped hold => exact .inl ⟨_, hold⟩

theorem reserve_inj {key key' : RequestKey} {limit limit' : Option ℕ} {slot slot' : ℕ}
    (h : (⟨.reserve key limit, .reserved slot⟩ : Event Hub) =
      ⟨.reserve key' limit', .reserved slot'⟩) : slot = slot' := by
  cases h
  rfl

theorem not_slot_of_reserve {s s' : HubState} {e : Event Hub} {key : RequestKey}
    {limit : Option ℕ} {slot : ℕ} {value : Slot} (h : e.op.Commits P s e.reply s')
    (he : e = ⟨.reserve key limit, .reserved slot⟩) : s.slots slot ≠ some value := by
  subst he
  rw [(HubState.reserved_of_commits h).2.1]
  simp

theorem queue_of_none {s : HubState} {channel : ℕ} (h : s.channels channel = none) :
    s.queue channel = [] ∧ s.handed channel = [] := by
  constructor
  · rw [HubState.queue, h]
    rfl
  · rw [HubState.handed, h]
    rfl

/-- Nothing becomes under way but a slot that is taken. -/
theorem Underway.of_happens {i slot : ℕ} {e : Event Hub} (hhappens : Happens w w' i e)
    (hmoves : w.shared.Moves e w'.shared) (h : Underway w' slot) :
    Underway w slot ∨ ∃ key limit, e = ⟨.reserve key limit, .reserved slot⟩ := by
  have hcommits := hhappens.commits
  -- the connection of a channel that has just been opened has nothing to do yet
  have hold : ∀ {j channel : ℕ}, channelOf w' j = some channel →
      (w'.shared.queue channel ≠ [] ∨ w'.shared.handed channel ≠ []) →
      channelOf w j = some channel := by
    intro j channel hchannel hsome
    rcases hhappens.channelOf_cases j with hsame | ⟨rfl, _, opened, rfl, hopened⟩
    · rwa [hsame] at hchannel
    · obtain rfl := Option.some.inj (hopened.symm.trans hchannel)
      obtain ⟨hqueue, hhanded⟩ := queue_of_none (opened_of_commits hcommits).1
      exfalso
      rcases hsome with hsome | hsome
      · obtain ⟨item, hitem⟩ := List.exists_mem_of_ne_nil _ hsome
        rcases hmoves.queue opened item hitem with hbefore | ⟨bounded, he⟩
        · rw [hqueue] at hbefore
          cases hbefore
        · cases he
      · obtain ⟨found, hfound⟩ := List.exists_mem_of_ne_nil _ hsome
        rcases hmoves.handed opened found hfound with hbefore | ⟨item, hitem, _⟩
        · rw [hhanded] at hbefore
          cases hbefore
        · rw [hqueue] at hitem
          cases hitem
  cases h with
  | @caller j hslot hrunning halive =>
      rcases alive_of_moves hmoves halive with halive | hnew
      · rcases hhappens.slotOf_cases j with hsame | ⟨rfl, _, _, _, taken, _, htaken, rfl⟩
        · rw [hsame] at hslot
          exact .inl (.caller hslot (hhappens.others j hrunning) halive)
        · obtain rfl := Option.some.inj (htaken.symm.trans hslot)
          exact .inr ⟨_, _, rfl⟩
      · exact .inr hnew
  | @queued j channel item hchannel hrunning hitem hslot =>
      have hrunning := hhappens.others j hrunning
      have hchannel := hold hchannel (.inl (List.ne_nil_of_mem hitem))
      rcases hmoves.queue channel item hitem with hbefore | ⟨bounded, rfl⟩
      · exact .inl (.queued hchannel hrunning hbefore hslot)
      · -- the caller of the frame has sent it
        obtain ⟨role, _, hfollows⟩ := hhappens.role
        rcases hfollows.send with ⟨_, _, own, _, _, _, hown, rfl, _⟩ | ⟨_, hnone, _⟩
        · obtain rfl := Option.some.inj hslot
          exact .inl (.caller hown hhappens.running (hcommits.1 own rfl))
        · rw [hnone] at hslot
          cases hslot
  | @handed j channel hchannel hrunning hhanded =>
      have hrunning := hhappens.others j hrunning
      have hchannel := hold hchannel (.inr (List.ne_nil_of_mem hhanded))
      rcases hmoves.handed channel slot hhanded with hbefore | ⟨item, hitem, hslot⟩
      · exact .inl (.handed hchannel hrunning hbefore)
      · exact .inl (.queued hchannel hrunning hitem hslot)

/-- Nothing becomes under way in an idle step. -/
theorem Underway.of_idles {slot : ℕ} (hw : Reachable HubState.Fresh mayStart w)
    (hstep : Step mayStart w w') (hidles : Idles w w') (h : Underway w' slot) :
    Underway w slot := by
  have hchannels : ∀ j, channelOf w' j = channelOf w j := fun j => by
    rw [channelOf, hidles.of, channelOf]
  -- a call that has only just been started has nothing
  have hrunning : ∀ {j channel : ℕ}, channelOf w j = some channel → Running w' j → Running w j := by
    intro j channel hchannel hrunning
    rcases hrunning.of_idles hw hstep hidles with hrunning | hnew
    · exact hrunning
    · rw [channelOf, hnew] at hchannel
      cases hchannel
  cases h with
  | @caller j hslot hgoes halive =>
      rw [slotOf, hidles.of] at hslot
      rw [hidles.shared] at halive
      rcases hgoes.of_idles hw hstep hidles with hgoes | hnew
      · exact .caller hslot hgoes halive
      · rw [hnew] at hslot
        cases hslot
  | @queued j channel item hchannel hgoes hitem hslot =>
      rw [hchannels] at hchannel
      rw [hidles.shared] at hitem
      exact .queued hchannel (hrunning hchannel hgoes) hitem hslot
  | @handed j channel hchannel hgoes hhanded =>
      rw [hchannels] at hchannel
      rw [hidles.shared] at hhanded
      exact .handed hchannel (hrunning hchannel hgoes) hhanded

/-! ### Orderly runs -/

/-- What holds of the slots in an orderly run. -/
structure Tended (w : World (H.system P)) : Prop where
  one : ∀ slot slot' key status status', w.shared.slots slot = some ⟨key, status⟩ →
    w.shared.slots slot' = some ⟨key, status'⟩ → Underway w slot → Underway w slot' → slot = slot'
  waiting : ∀ key slot, (key, slot) ∈ w.shared.pending →
    w.shared.slots slot = some ⟨key, .waiting⟩ ∧ ∃ i, slotOf w i = some slot ∧ Present w i
  answered : ∀ i slot answer, (i, ⟨.await slot, .answered answer⟩) ∈ w.log →
    answer.answers = some slot ∧ ∀ key, w.shared.slots slot ≠ some ⟨key, .waiting⟩
  own : ∀ slot key answer, w.shared.slots slot = some ⟨key, .filled answer⟩ →
    answer.answers = some slot

namespace Tended

/-- The caller of a pending request has not come to its end. -/
theorem running (h : Tended w) (hw : Reachable HubState.Fresh mayStart w) {key : RequestKey}
    {slot : ℕ} (hmem : (key, slot) ∈ w.shared.pending) :
    ∃ i, slotOf w i = some slot ∧ Running w i := by
  obtain ⟨hwaiting, i, hslot, hpresent⟩ := h.waiting key slot hmem
  obtain ⟨deviceId, request, _, hrole, _⟩ := (owned_of_reachable hw).slot i slot hslot
  refine ⟨i, hslot, ?_⟩
  rcases hpresent.running_or_ends hw hrole with hrunning | hends
  · exact hrunning
  · exfalso
    rcases hends slot hslot with ⟨key', hremoved⟩ | ⟨answer, hanswered⟩
    · exact (books_of_reachable hw).kept key slot hmem i key' (Log.mem_of.mp hremoved)
    · exact (h.answered i slot answer (Log.mem_of.mp hanswered)).2 key hwaiting

theorem underway (h : Tended w) (hw : Reachable HubState.Fresh mayStart w) {key : RequestKey}
    {slot : ℕ} (hmem : (key, slot) ∈ w.shared.pending) : Underway w slot := by
  obtain ⟨i, hslot, hrunning⟩ := h.running hw hmem
  exact .caller hslot hrunning ⟨_, (h.waiting key slot hmem).1, by simp⟩

/-- An entry that is taken out is that of the slot. -/
theorem eq_of_pending (h : Tended w) (hw : Reachable HubState.Fresh mayStart w) {key : RequestKey}
    {slot own : ℕ} {status : SlotStatus} (hmem : (key, slot) ∈ w.shared.pending)
    (hown : w.shared.slots own = some ⟨key, status⟩) (hunderway : Underway w own) : own = slot :=
  h.one own slot key status .waiting hown (h.waiting key slot hmem).1 hunderway
    (h.underway hw hmem)

/-- A result takes out the entry of the frame that it answers. -/
theorem completes_own (h : Tended w) (hw : Reachable HubState.Fresh mayStart w)
    {i channel slot : ℕ} {deviceId : String} {result : V1.ActionResult} {reply : Completion}
    (hhappens : Happens w w' i ⟨.complete channel deviceId result, reply⟩)
    (hanswers : reply.answers ≠ none)
    (hmem : ((deviceId, result.requestId), slot) ∈ w.shared.pending) :
    reply.answers = some slot := by
  obtain ⟨own, hown⟩ := Option.ne_none_iff_exists'.mp hanswers
  obtain ⟨left, hanswered, _⟩ := hhappens.commits
  change w.shared.Answered channel result reply.answers left at hanswered
  rw [hown] at hanswered
  obtain ⟨value, asked, hvalue, hhanded, hasked, hrequest, _⟩ := hanswered
  have hhanded : own ∈ w.shared.handed channel := by rwa [HubState.handed_eq hvalue]
  obtain ⟨role, _, hfollows⟩ := hhappens.role
  obtain ⟨hchannel, hdevice⟩ := hfollows.complete
  -- whoever asked has asked for the device of this connection
  obtain ⟨k, j, deviceId', request, hrole, hslot, hchannel', hdevice'⟩ :=
    (routed_of_reachable hw).handed channel own hhanded
  obtain rfl := (wired_of_reachable hw).alone i j channel hchannel hchannel'
  obtain rfl := Option.some.inj (hdevice.symm.trans hdevice')
  obtain ⟨_, _, status, hrole', hvalue'⟩ := (owned_of_reachable hw).slot k own hslot
  obtain ⟨rfl, rfl⟩ := Role.caller.inj (Option.some.inj (hrole.symm.trans hrole'))
  obtain rfl := Option.some.inj (hasked.symm.trans hvalue')
  have hkey : w.shared.slots own = some ⟨(deviceId, result.requestId), status⟩ := by
    rw [hvalue', show request.requestId = result.requestId from hrequest]
  rw [hown, h.eq_of_pending hw hmem hkey (.handed hchannel hhappens.running hhanded)]

/-- A call is started, or one is dropped that no longer waits. -/
theorem idles (h : Tended w) (hw : Reachable HubState.Fresh mayStart w)
    (hstep : Step mayStart w w') (horderly : Orderly w w') (hidles : Idles w w') : Tended w' := by
  have hkeeps := keeps_of_step hw hstep
  refine ⟨fun slot slot' key status status' hslot hslot' hunder hunder' => ?_,
    fun key slot hmem => ?_, fun i slot answer hmem => ?_, fun slot key answer hslot => ?_⟩
  · rw [hidles.shared] at hslot hslot'
    exact h.one slot slot' key status status' hslot hslot' (hunder.of_idles hw hstep hidles)
      (hunder'.of_idles hw hstep hidles)
  · rw [hidles.shared] at hmem ⊢
    obtain ⟨hwaiting, i, hslot, hpresent⟩ := h.waiting key slot hmem
    refine ⟨hwaiting, i, hkeeps.slot i slot hslot, ?_⟩
    rcases hpresent.step hstep with hpresent | ⟨c, hc, hcrash⟩
    · exact hpresent
    · exact absurd (.call hc hcrash) (horderly.patient i slot hslot ⟨key, hmem⟩)
  · rw [hidles.log] at hmem
    rw [hidles.shared]
    exact h.answered i slot answer hmem
  · rw [hidles.shared] at hslot
    exact h.own slot key answer hslot

/-- A result is put in the slot of the frame that it answers. -/
theorem own_of_happens (h : Tended w) (hw : Reachable HubState.Fresh mayStart w) {i : ℕ}
    {e : Event Hub} (horderly : Orderly w w') (hhappens : Happens w w' i e)
    (hmoves : w.shared.Moves e w'.shared) {slot : ℕ} {key : RequestKey} {answer : Answer}
    (hslot : w'.shared.slots slot = some ⟨key, .filled answer⟩) : answer.answers = some slot := by
  rcases hmoves.slots slot _ hslot with hold | hchange
  · exact h.own slot key answer hold
  · -- only a completion fills a slot
    generalize hvalue : (⟨key, .filled answer⟩ : Slot) = value at hchange
    cases hchange with
    | reserved _ => cases hvalue
    | removed _ _ => cases hvalue
    | dropped _ => cases hvalue
    | completed hlookup _ =>
        obtain rfl : answer = _ := SlotStatus.filled.inj (Slot.mk.inj hvalue).2
        have hmem := (books_of_reachable hw).lookup.mp hlookup
        exact h.completes_own hw hhappens
          (horderly.answered i _ _ _ _ hhappens.log) hmem

/-- The entries that are left have callers that wait. -/
theorem waiting_of_happens (h : Tended w) (hw : Reachable HubState.Fresh mayStart w)
    (hstep : Step mayStart w w') {i : ℕ} {e : Event Hub} (horderly : Orderly w w')
    (hhappens : Happens w w' i e) (hmoves : w.shared.Moves e w'.shared) {key : RequestKey}
    {slot : ℕ} (hmem : (key, slot) ∈ w'.shared.pending) :
    w'.shared.slots slot = some ⟨key, .waiting⟩ ∧ ∃ i, slotOf w' i = some slot ∧ Present w' i := by
  have hkeeps := keeps_of_step hw hstep
  have hbooks := books_of_reachable hw
  have hstays : ∀ j, Present w j → Present w' j := by
    intro j hpresent
    rcases hpresent.step hstep with hpresent | ⟨c, _, rfl⟩
    · exact hpresent
    · exact absurd hhappens.log.symm (List.cons_ne_self _ _)
  rcases hmoves.mem_pending hmem with hold | ⟨limit, rfl⟩
  · obtain ⟨hwaiting, j, hslot, hpresent⟩ := h.waiting key slot hold
    refine ⟨?_, j, hkeeps.slot j slot hslot, hstays j hpresent⟩
    obtain ⟨status, hstatus⟩ := hmoves.persists slot _ hwaiting
    rcases hmoves.slots slot _ hstatus with hsame | hchange
    · rw [hstatus, ← hsame, hwaiting]
    · exfalso
      have hcleared := hmoves.cleared _ hmem
      cases hchange with
      | reserved hfresh =>
          rw [hfresh] at hwaiting
          cases hwaiting
      | removed hlookup _ =>
          have hkey := hbooks.key_eq (hbooks.lookup.mp hlookup) hwaiting
          exact hcleared (congrArg some hkey.symm)
      | completed hlookup _ =>
          have hkey := hbooks.key_eq (hbooks.lookup.mp hlookup) hwaiting
          exact hcleared (congrArg some hkey.symm)
      | dropped _ => exact horderly.patient j slot hslot ⟨_, hold⟩ (.slot hhappens.log)
  · refine ⟨(HubState.reserved_of_commits hhappens.commits).2.2.1, i, ?_, ?_⟩
    · rw [slotOf, hhappens.of_self]
      rfl
    · exact hstays i hhappens.running.present

/-- An operation is performed. -/
theorem happens (h : Tended w) (hw : Reachable HubState.Fresh mayStart w)
    (hstep : Step mayStart w w') (horderly : Orderly w w') {i : ℕ} {e : Event Hub}
    (hhappens : Happens w w' i e) (hmoves : w.shared.Moves e w'.shared) : Tended w' := by
  have hcommits := hhappens.commits
  refine ⟨fun slot slot' key status status' hslot hslot' hunder hunder' => ?_,
    fun key slot hmem => h.waiting_of_happens hw hstep horderly hhappens hmoves hmem,
    fun j slot answer hmem => ?_,
    fun slot key answer hslot => h.own_of_happens hw horderly hhappens hmoves hslot⟩
  · -- a slot that is taken finds nothing under way at its key
    have hnew : ∀ {taken other : ℕ} {limit : Option ℕ} {status : SlotStatus},
        e = ⟨.reserve key limit, .reserved taken⟩ →
        w'.shared.slots other = some ⟨key, status⟩ → Underway w' other → other = taken := by
      rintro taken other limit status rfl hother hunder
      rcases key_of_moves hmoves hother with ⟨_, hold⟩ | ⟨_, he⟩
      · rcases hunder.of_happens hhappens hmoves with hunder | ⟨_, _, he⟩
        · exact absurd hunder (horderly.fresh i key limit taken hhappens.log other _ hold)
        · exact (reserve_inj he).symm
      · exact (reserve_inj he).symm
    rcases key_of_moves hmoves hslot with ⟨_, hold⟩ | ⟨_, he⟩
    · rcases key_of_moves hmoves hslot' with ⟨_, hold'⟩ | ⟨_, he⟩
      · rcases hunder.of_happens hhappens hmoves with hbefore | ⟨_, _, he⟩
        · rcases hunder'.of_happens hhappens hmoves with hbefore' | ⟨_, _, he⟩
          · exact h.one slot slot' key _ _ hold hold' hbefore hbefore'
          · exact absurd hold' (not_slot_of_reserve hcommits he)
        · exact absurd hold (not_slot_of_reserve hcommits he)
      · exact hnew he hslot hunder
    · exact (hnew he hslot' hunder').symm
  · rw [hhappens.log] at hmem
    rcases List.mem_cons.mp hmem with hnow | hbefore
    · obtain ⟨rfl, rfl⟩ := Prod.mk.inj hnow
      obtain ⟨hsame, value, hvalue, hfilled⟩ := hcommits
      obtain ⟨key, status⟩ := value
      obtain rfl : status = .filled answer := hfilled
      refine ⟨h.own slot key answer hvalue, fun key' hwaiting => ?_⟩
      rw [hsame, hvalue] at hwaiting
      cases hwaiting
    · obtain ⟨hanswers, hclosed⟩ := h.answered j slot answer hbefore
      refine ⟨hanswers, fun key hwaiting => ?_⟩
      rcases hmoves.slots slot _ hwaiting with hold | hchange
      · exact hclosed key hold
      · generalize hvalue : (⟨key, .waiting⟩ : Slot) = value at hchange
        cases hchange with
        | reserved hfresh =>
            have hslot := slotOf_of_mem hw hbefore (.inl rfl)
            exact (owned_of_reachable hw).fresh hslot hfresh
        | removed _ _ => cases hvalue
        | completed _ _ => cases hvalue
        | dropped _ => cases hvalue

end Tended

theorem Tended.step (h : Tended w) (hw : Reachable HubState.Fresh mayStart w)
    (hstep : Step mayStart w w') (horderly : Orderly w w') : Tended w' := by
  rcases hubStep_cases hw hstep with hidles | ⟨i, e, hhappens⟩
  · exact h.idles hw hstep horderly hidles
  · exact h.happens hw hstep horderly hhappens (HubState.moves_of_commits hhappens.commits)

namespace Sample

end Sample

end VorCommander
