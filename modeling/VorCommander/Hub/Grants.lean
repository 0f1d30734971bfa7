import VorCommander.Auth.Revocation
import VorCommander.Hub.Honest
import VorCommander.Hub.Pending

/-!
Grants and the sessions of the relay.

A connection asks for its grant once, before it has a channel. What is sent over it
was meant for the device that the grant names, and so was what its results
complete; the organisation of the grant is not looked at, and neither is the grant
looked at again.
-/

namespace VorCommander

open Crypto Steps Steps.Program Steps.World Text

/-! ### Answers -/

section Answers

variable {P : Primitives} {H : HubPrograms} {mayStart : World (H.system P) → H.Entry → Prop}
  {w w' : World (H.system P)}

/-- The channel is that of a connection of the device. -/
def ConnectionOf (w : World (H.system P)) (deviceId : String) (channel : ℕ) : Prop :=
  ∃ j, channelOf w j = some channel ∧ deviceOf w j = some deviceId

theorem ConnectionOf.keeps {deviceId : String} {channel : ℕ} (h : ConnectionOf w deviceId channel)
    (hkeeps : Keeps w w') : ConnectionOf w' deviceId channel := by
  obtain ⟨j, hchannel, hdevice⟩ := h
  exact ⟨j, hkeeps.channel j _ hchannel, hkeeps.device j _ hdevice⟩

/-- Whoever hands in a result is a connection of the device. -/
theorem connectionOf_of_complete {i channel : ℕ} {deviceId : String} {result : V1.ActionResult}
    {reply : Completion} (h : Happens w w' i ⟨.complete channel deviceId result, reply⟩) :
    ConnectionOf w deviceId channel := by
  obtain ⟨role, _, hfollows⟩ := h.role
  exact ⟨i, hfollows.complete⟩

/-- The result in a slot came in on a connection of the device that the slot is for. -/
theorem connectionOf_of_filled (hw : Reachable HubState.Fresh mayStart w) {slot : ℕ}
    {key : RequestKey} {answer : Answer}
    (h : w.shared.slots slot = some ⟨key, .filled answer⟩) :
    ConnectionOf w key.1 answer.channel := by
  refine reachable_induction (J := fun w : World (H.system P) =>
    w.shared.slots slot = some ⟨key, .filled answer⟩ → ConnectionOf w key.1 answer.channel)
      hw ?_ ?_ ?_ h
  · rintro s ⟨_, _, hslots, _⟩ h
    change s.slots slot = _ at h
    rw [hslots] at h
    cases h
  · intro w w' ih hkeeps hidles h
    rw [hidles.shared] at h
    exact (ih h).keeps hkeeps
  · intro w w' i e hw ih hkeeps hhappens hmoves h
    rcases hmoves.slots slot _ h with hold | hchange
    · exact (ih hold).keeps hkeeps
    · cases hchange with
      | completed hlookup hwaiting =>
          have hbooks := books_of_reachable hw
          have hkey := hbooks.key_eq (hbooks.lookup.mp hlookup) hwaiting
          subst hkey
          exact (connectionOf_of_complete hhappens).keeps hkeeps

/-- The answer that a caller receives came in on a connection of its device. -/
theorem connectionOf_of_answered (hw : Reachable HubState.Fresh mayStart w) {i slot : ℕ}
    {answer : Answer} (h : (i, ⟨.await slot, .answered answer⟩) ∈ w.log) :
    ∃ deviceId request, roleOf w i = some (.caller deviceId request) ∧
      ConnectionOf w deviceId answer.channel := by
  refine reachable_induction (J := fun w : World (H.system P) =>
    (i, ⟨.await slot, .answered answer⟩) ∈ w.log →
      ∃ deviceId request, roleOf w i = some (.caller deviceId request) ∧
        ConnectionOf w deviceId answer.channel) hw ?_ ?_ ?_ h
  · intro s _ h
    cases h
  · intro w w' ih hkeeps hidles h
    rw [hidles.log] at h
    obtain ⟨deviceId, request, hrole, hconnection⟩ := ih h
    exact ⟨deviceId, request, hkeeps.role i _ hrole, hconnection.keeps hkeeps⟩
  · intro w w' k e hw ih hkeeps hhappens _ h
    rw [hhappens.log] at h
    rcases List.mem_cons.mp h with hnew | hold
    · obtain ⟨rfl, rfl⟩ := Prod.mk.inj hnew
      obtain ⟨role, hrole, hfollows⟩ := hhappens.role
      obtain ⟨deviceId, request, rfl, hslot⟩ := hfollows.await
      obtain ⟨_, value, hvalue, hfilled⟩ := hhappens.commits
      obtain ⟨_, _, status, hrole', howned⟩ := (owned_of_reachable hw).slot i slot hslot
      obtain ⟨rfl, rfl⟩ := Role.caller.inj (Option.some.inj (hrole.symm.trans hrole'))
      obtain rfl := Option.some.inj (hvalue.symm.trans howned)
      obtain rfl : status = .filled answer := hfilled
      exact ⟨deviceId, request, hkeeps.role i _ hrole,
        (connectionOf_of_filled hw howned).keeps hkeeps⟩
    · obtain ⟨deviceId, request, hrole, hconnection⟩ := ih hold
      exact ⟨deviceId, request, hkeeps.role i _ hrole, hconnection.keeps hkeeps⟩

end Answers

/-! ### What a caller has checked -/

/-- The request can be read, and its envelope names the device. -/
def NamesDevice (L : Libraries) (deviceId : String) (request : V1.ActionRequest) : Prop :=
  ∃ canonical, Wire.actionRequestFromProto L request = .ok canonical ∧
    canonical.envelope.deviceId = deviceId

theorem namesDevice_of_actionChecks {L : Libraries} {deviceId : String}
    {request : V1.ActionRequest} (h : RelayHub.actionChecks L deviceId request = .ok ()) :
    NamesDevice L deviceId request := by
  simp only [RelayHub.actionChecks, bind_eq_ok, mapError_eq_ok, failIf_eq_ok, exists_unit, not_or,
    not_not] at h
  obtain ⟨canonical, hread, ⟨hdevice, _⟩, _⟩ := h
  exact ⟨canonical, hread, hdevice⟩

theorem namesDevice_of_approvedChecks {L : Libraries} {deviceId : String}
    {request : V1.ActionRequest} {approval : V1.ApprovalGrant}
    (h : RelayHub.approvedChecks L deviceId request approval = .ok ()) :
    NamesDevice L deviceId request := by
  simp only [RelayHub.approvedChecks, bind_eq_ok, mapError_eq_ok, failIf_eq_ok, exists_unit,
    not_or, not_not] at h
  obtain ⟨canonical, hread, _, _, ⟨hdevice, _⟩, _⟩ := h
  exact ⟨canonical, hread, hdevice⟩

/-- The call has passed its checks, if it has any. -/
def RelayEntry.Checked (L : Libraries) : RelayEntry → Prop
  | .dispatchAction deviceId request => NamesDevice L deviceId request
  | .dispatchApprovedAction deviceId request _ => NamesDevice L deviceId request
  | .deviceWs _ _ _ => True
  | .outside _ => True

section Relay

variable {L : Libraries} {C : FrameCodec}
  {w w' : World ((relay L C).system L.toPrimitives)}

/-- Whoever performs anything has passed the checks. -/
theorem safe_checked (entry : RelayEntry) :
    Safe (fun _ _ => True) ((fun (entry : RelayEntry) _ _ => entry.Checked L) entry)
      ((fun _ _ _ => True) entry) ((relay L C).body entry) [] := by
  cases entry with
  | dispatchAction deviceId request =>
      refine (safe_map _ _).mpr ?_
      rw [RelayHub.dispatchAction, safe_exceptT_bind, safe_check, then_iff]
      refine ⟨fun _ _ => trivial, fun _ hchecks => (safe_true _).guarantee fun _ _ _ => ?_⟩
      exact namesDevice_of_actionChecks hchecks
  | dispatchApprovedAction deviceId request approval =>
      refine (safe_map _ _).mpr ?_
      rw [RelayHub.dispatchApprovedAction, safe_exceptT_bind, safe_check, then_iff]
      refine ⟨fun _ _ => trivial, fun _ hchecks => (safe_true _).guarantee fun _ _ _ => ?_⟩
      exact namesDevice_of_approvedChecks hchecks
  | deviceWs | outside => exact (safe_true _).guarantee fun _ _ _ => trivial

/-- The request of a caller that has done something names its device. -/
theorem namesDevice_of_mem (hw : Reachable HubState.Fresh anyEntry w) {i : ℕ} {e : Event Hub}
    (he : (i, e) ∈ w.log) {deviceId : String} {request : V1.ActionRequest}
    (hrole : roleOf w i = some (.caller deviceId request)) : NamesDevice L deviceId request := by
  obtain ⟨later, earlier, hlog⟩ := List.append_of_mem he
  obtain ⟨⟨entry, _, _⟩, hc, hchecked⟩ :=
    hw.guarantee (fun entry => safe_checked entry) (allowed_true w.log) hlog
  rw [roleOf, hc] at hrole
  have hcaller := Option.some.inj hrole
  cases entry with
  | dispatchAction | dispatchApprovedAction =>
      obtain ⟨rfl, rfl⟩ := Role.caller.inj hcaller
      exact hchecked
  | deviceWs | outside => cases hcaller

/-! ### Sessions -/

/-- The connection was let in with this token, whose grant was this record. -/
def OpenedWith (w : World ((relay L C).system L.toPrimitives)) (j : ℕ) (token : String)
    (record : GrantRecord) : Prop :=
  ∃ now, (j, ⟨.validate token "relay.connect" now, .ok record⟩) ∈ w.log

/-- A connection of the relay has registered the device of its grant. -/
theorem openedWith_of_deviceOf (hw : Reachable HubState.Fresh anyEntry w) {j : ℕ}
    {deviceId : String} (h : deviceOf w j = some deviceId) :
    ∃ token record, OpenedWith w j token record ∧ record.actorId = deviceId := by
  refine reachable_induction (J := fun w : World ((relay L C).system L.toPrimitives) =>
    deviceOf w j = some deviceId →
      ∃ token record, OpenedWith w j token record ∧ record.actorId = deviceId) hw ?_ ?_ ?_ h
  · intro s _ h
    cases h
  · intro w w' ih _ hidles h
    rw [deviceOf, hidles.of] at h
    obtain ⟨token, record, ⟨now, hmem⟩, hactor⟩ := ih h
    exact ⟨token, record, ⟨now, by rwa [hidles.log]⟩, hactor⟩
  · intro w w' i e _ ih _ hhappens _ h
    rcases hhappens.deviceOf_cases j with hsame | ⟨rfl, _, found, channel, sessionId, rfl, hnew, _⟩
    · rw [hsame] at h
      obtain ⟨token, record, ⟨now, hmem⟩, hactor⟩ := ih h
      refine ⟨token, record, ⟨now, ?_⟩, hactor⟩
      rw [hhappens.log]
      exact List.mem_cons_of_mem _ hmem
    · obtain rfl := Option.some.inj (hnew.symm.trans h)
      obtain ⟨role, hrole, hfollows⟩ := hhappens.role
      obtain ⟨_, _, opens, registers, rfl, hregisters⟩ := hfollows.register
      obtain ⟨c, _, hentry⟩ := Option.map_eq_some_iff.mp hrole
      obtain ⟨entry, _, _⟩ := c
      cases entry with
      | deviceWs authorization deviceId rounds =>
          obtain ⟨_, hregister⟩ := Role.session.inj hentry
          rw [← hregister] at hregisters
          obtain ⟨rfl, token, now, record, _, hmem, hactor⟩ := hregisters
          refine ⟨token, record, ⟨now, ?_⟩, hactor⟩
          rw [hhappens.log]
          exact List.mem_cons_of_mem _ (Log.mem_of.mp hmem)
      | dispatchAction | dispatchApprovedAction | outside => cases hentry

/-- A connection writes what it has taken out of its channel, or what asks for nothing. -/
theorem taken_of_transmit (hw : Reachable HubState.Fresh anyEntry w) {j channel : ℕ}
    {item : Outgoing} {sent : Bool} (h : (j, ⟨.transmit channel item, sent⟩) ∈ w.log) :
    channelOf w j = some channel ∧ (Taken (w.log.of j) channel item ∨
      ∃ frame, item.content = .ok frame ∧ frame.request = none) := by
  refine reachable_induction (J := fun w : World ((relay L C).system L.toPrimitives) =>
    (j, ⟨.transmit channel item, sent⟩) ∈ w.log →
      channelOf w j = some channel ∧ (Taken (w.log.of j) channel item ∨
        ∃ frame, item.content = .ok frame ∧ frame.request = none)) hw ?_ ?_ ?_ h
  · intro s _ h
    cases h
  · intro w w' ih hkeeps hidles h
    rw [hidles.log] at h
    rw [hidles.of]
    obtain ⟨hchannel, hitem⟩ := ih h
    exact ⟨hkeeps.channel j _ hchannel, hitem⟩
  · intro w w' i e _ ih hkeeps hhappens _ h
    have hgrows : Taken (w.log.of j) channel item → Taken (w'.log.of j) channel item := by
      simp only [Taken, Log.mem_of, hhappens.log]
      rintro (⟨bound, hmem⟩ | hmem)
      · exact .inl ⟨bound, List.mem_cons_of_mem _ hmem⟩
      · exact .inr (List.mem_cons_of_mem _ hmem)
    rw [hhappens.log] at h
    rcases List.mem_cons.mp h with hnew | hold
    · obtain ⟨rfl, rfl⟩ := Prod.mk.inj hnew
      obtain ⟨role, hrole, hfollows⟩ := hhappens.role
      obtain ⟨⟨entry, _, _⟩, _, hentry⟩ := Option.map_eq_some_iff.mp hrole
      cases entry with
      | deviceWs authorization deviceId rounds =>
          subst hentry
          obtain ⟨hopened, hitem⟩ := hfollows
          exact ⟨hkeeps.channel j _ hopened, hitem.imp_left hgrows⟩
      | dispatchAction | dispatchApprovedAction | outside =>
          subst hentry
          exact hfollows.elim
    · obtain ⟨hchannel, hitem⟩ := ih hold
      exact ⟨hkeeps.channel j _ hchannel, hitem.imp_left hgrows⟩

/-- A request is written to the connection of the device that its envelope names. -/
theorem deviceOf_of_transmit (hw : Reachable HubState.Fresh anyEntry w) {j channel : ℕ}
    {item : Outgoing} {sent : Bool} (h : (j, ⟨.transmit channel item, sent⟩) ∈ w.log)
    {frame : V1.RelayFrame} (hframe : item.content = .ok frame) {request : V1.ActionRequest}
    (hrequest : frame.request = some request) :
    ∃ deviceId, NamesDevice L deviceId request ∧ deviceOf w j = some deviceId := by
  obtain ⟨hchannel, htaken | ⟨frame', hframe', hnone⟩⟩ := taken_of_transmit hw h
  · obtain ⟨_, _, hsent⟩ := sentTo_of_taken hw htaken
    cases origin_of_mem hw hsent with
    | @caller i k slot deviceId request' frame' hrole hslot hchannel' hdevice hrequest' _ =>
        obtain rfl : frame' = frame := Except.ok.inj hframe
        obtain rfl := Option.some.inj (hrequest'.symm.trans hrequest)
        obtain rfl := (wired_of_reachable hw).alone j k channel hchannel hchannel'
        obtain ⟨e, he⟩ : ∃ e, e ∈ w.log.of i := by
          apply List.exists_mem_of_ne_nil
          intro hnil
          rw [slotOf, hnil] at hslot
          cases hslot
        exact ⟨deviceId, namesDevice_of_mem hw (Log.mem_of.mp he) hrole, hdevice⟩
    | connection _ _ hnone _ =>
        obtain rfl := Except.ok.inj hframe
        rw [hnone] at hrequest
        cases hrequest
    | status => cases hframe
  · obtain rfl := Except.ok.inj (hframe'.symm.trans hframe)
    rw [hnone] at hrequest
    cases hrequest

/-- In every run of the relay, a request is written only to sessions that were opened with
a grant of the device that its envelope names, and only from such a session comes the
result that completes it. -/
theorem sessions_isolate_devices (L : Libraries) (C : FrameCodec)
    (w : World ((relay L C).system L.toPrimitives)) (hw : Reachable HubState.Fresh anyEntry w) :
    (∀ j channel item sent frame request,
      (j, ⟨.transmit channel item, sent⟩) ∈ w.log → item.content = .ok frame →
        frame.request = some request →
          ∃ canonical token record, Wire.actionRequestFromProto L request = .ok canonical ∧
            OpenedWith w j token record ∧ record.actorId = canonical.envelope.deviceId) ∧
    ∀ i deviceId request slot answer, roleOf w i = some (.caller deviceId request) →
      (i, ⟨.await slot, .answered answer⟩) ∈ w.log →
        ∃ canonical j token record, Wire.actionRequestFromProto L request = .ok canonical ∧
          channelOf w j = some answer.channel ∧ OpenedWith w j token record ∧
          record.actorId = canonical.envelope.deviceId := by
  constructor
  · intro j channel item sent frame request hmem hframe hrequest
    obtain ⟨deviceId, ⟨canonical, hread, hnames⟩, hdevice⟩ :=
      deviceOf_of_transmit hw hmem hframe hrequest
    obtain ⟨token, record, hopened, hactor⟩ := openedWith_of_deviceOf hw hdevice
    exact ⟨canonical, token, record, hread, hopened, hactor.trans hnames.symm⟩
  · intro i deviceId request slot answer hrole hmem
    obtain ⟨canonical, hread, hnames⟩ := namesDevice_of_mem hw hmem hrole
    obtain ⟨_, _, hrole', j, hchannel, hdevice⟩ := connectionOf_of_answered hw hmem
    obtain ⟨rfl, rfl⟩ := Role.caller.inj (Option.some.inj (hrole.symm.trans hrole'))
    obtain ⟨token, record, hopened, hactor⟩ := openedWith_of_deviceOf hw hdevice
    exact ⟨canonical, j, token, record, hread, hchannel, hopened, hactor.trans hnames.symm⟩

/-! ### Asking for a grant -/

/-- What the store has of the grant of a token. -/
def HubState.grantOf (P : Primitives) (s : HubState) (token : String) : Option GrantRecord :=
  s.grants.bind fun state => state.grants[GrantStore.tokenHashHex P token]?

/-- A grant that is found is there, is not revoked, and has not expired. -/
theorem grantOf_of_validate {P : Primitives} {s s' : HubState} {token scope : String} {now : ℕ}
    {record : GrantRecord} (h : (HubOp.validate token scope now).Commits P s (.ok record) s') :
    s.grantOf P token = some record ∧ record.revoked = false ∧ now < record.expiresAtUnixMs := by
  obtain ⟨_, hfound⟩ := h
  obtain ⟨state, hstate, hvalid⟩ := hfound record rfl
  obtain ⟨_, hget, hrevoked, hexpires, _⟩ := GrantStore.validate_eq_ok_iff.mp hvalid
  refine ⟨?_, hrevoked, hexpires⟩
  rw [HubState.grantOf, hstate]
  exact hget

theorem HubState.Takes.grants {s s' : HubState} {channel : ℕ} {item : Outgoing}
    (h : s.Takes channel item s') : s'.grants = s.grants := by
  obtain ⟨_, _, _, _, rfl⟩ := h
  rfl

theorem HubState.Answered.grants {s s' : HubState} {channel : ℕ} {result : V1.ActionResult}
    {answers : Option ℕ} (h : s.Answered channel result answers s') : s'.grants = s.grants := by
  cases answers with
  | none =>
      obtain rfl := h
      rfl
  | some slot =>
      obtain ⟨_, _, _, _, _, _, rfl⟩ := h
      rfl

theorem grants_vacate (s : HubState) (key : RequestKey) (status : SlotStatus) :
    (s.vacate key status).2.grants = s.grants := by
  unfold HubState.vacate
  cases s.pending.lookup key with
  | none => rfl
  | some slot =>
      simp only []
      split <;> rfl

/-- Only the store changes what it has. -/
theorem grants_of_commits {P : Primitives} {s s' : HubState} {e : Event Hub}
    (h : e.op.Commits P s e.reply s') : s'.grants = s.grants ∨ ∃ call draws state next,
      e = ⟨.store call draws, ()⟩ ∧ s.grants = some state ∧ s'.grants = some next ∧
        call.onState P draws state = .ok next := by
  obtain ⟨op, reply⟩ := e
  cases op with
  | store call draws =>
      obtain ⟨state, next, hstate, hnext, rfl⟩ := h
      exact .inr ⟨call, draws, state, next, rfl, hstate, rfl, hnext⟩
  | clock | validate | await =>
      obtain ⟨rfl, _⟩ := h
      exact .inl rfl
  | random | receive | transmit | control | elapse | register =>
      obtain rfl := h
      exact .inl rfl
  | lookup | openChannel =>
      obtain ⟨_, rfl⟩ := h
      exact .inl rfl
  | closeChannel | drop =>
      obtain ⟨_, _, rfl⟩ := h
      exact .inl rfl
  | unregister deviceId sessionId =>
      obtain rfl := h
      refine .inl ?_
      split <;> rfl
  | reserve key limit =>
      refine .inl ?_
      cases reply with
      | reserved slot =>
          obtain ⟨_, _, _, rfl⟩ := h
          rfl
      | duplicate =>
          obtain ⟨_, rfl⟩ := h
          rfl
      | tooMany =>
          obtain ⟨_, rfl, _⟩ := h
          rfl
  | remove key slot =>
      obtain ⟨_, rfl⟩ := h
      exact .inl (grants_vacate _ _ _)
  | complete channel deviceId result =>
      obtain ⟨s₁, hanswered, hvacated⟩ := h
      have hsame := congrArg (fun moved => moved.2.grants) hvacated
      exact .inl (hsame.trans ((grants_vacate _ _ _).trans hanswered.grants))
  | send channel item bounded =>
      obtain ⟨_, _, _, h⟩ := h
      refine .inl ?_
      cases reply with
      | sent =>
          obtain ⟨_, _, rfl⟩ := h
          rfl
      | closed | elapsed =>
          obtain ⟨_, rfl⟩ := h
          rfl
  | accept frame now =>
      refine .inl ?_
      rcases reply with (_ | error) | _
      · obtain rfl := h
        rfl
      · obtain ⟨_, rfl⟩ := h
        rfl
      · obtain ⟨_, rfl⟩ := h
        rfl
  | select channel bound =>
      refine .inl ?_
      cases reply with
      | outgoing item =>
          obtain ⟨_, _, _, htakes⟩ := h
          exact htakes.grants
      | incoming message =>
          obtain rfl := h
          rfl
  | take channel => exact .inl (HubState.Takes.grants h)

/-- A grant that has been revoked stays so while no token with its hash is issued. -/
theorem revoked_of_commits {P : Primitives} {s s' : HubState} {e : Event Hub} {token : String}
    (h : e.op.Commits P s e.reply s')
    (hrevoked : ∀ record, s.grantOf P token = some record → record.revoked = true) :
    (∀ record, s'.grantOf P token = some record → record.revoked = true) ∨
      ∃ call draws, e = ⟨.store call draws, ()⟩ ∧
        call.issuedToken P draws = some (GrantStore.tokenHashHex P token) := by
  rcases grants_of_commits h with hsame | ⟨call, draws, state, next, rfl, hstate, hnext, hcall⟩
  · left
    intro record hrecord
    rw [HubState.grantOf, hsame] at hrecord
    exact hrevoked record hrecord
  · by_cases hissued : call.issuedToken P draws = some (GrantStore.tokenHashHex P token)
    · exact .inr ⟨call, draws, rfl, hissued⟩
    · left
      intro record hrecord
      rw [HubState.grantOf, hnext] at hrecord
      rcases (GrantStoreCall.onState_evolves hcall).grants _ record hrecord with
        hnew | ⟨earlier, hearlier, hkept⟩
      · exact absurd hnew hissued
      · apply hkept
        apply hrevoked earlier
        rw [HubState.grantOf, hstate]
        exact hearlier

/-- A token whose grant has been revoked opens nothing, until a token with its hash is
issued. -/
theorem issued_of_validated (hw : Reachable HubState.Fresh anyEntry w) {token : String}
    (hrevoked : ∀ record, w.shared.grantOf L.toPrimitives token = some record →
      record.revoked = true)
    (hsteps : Relation.ReflTransGen (Step anyEntry) w w') :
    ∃ added, w'.log = added ++ w.log ∧
      ((∀ record, w'.shared.grantOf L.toPrimitives token = some record → record.revoked = true) ∧
        (∀ j scope now record, (j, ⟨.validate token scope now, .ok record⟩) ∉ added) ∨
      ∃ k call draws, (k, ⟨.store call draws, ()⟩) ∈ added ∧
        call.issuedToken L.toPrimitives draws =
          some (GrantStore.tokenHashHex L.toPrimitives token)) := by
  induction hsteps with
  | refl => exact ⟨[], rfl, .inl ⟨hrevoked, by simp⟩⟩
  | @tail w₁ w₂ hsteps hstep ih =>
      obtain ⟨added, hlog, hadded⟩ := ih
      rcases hubStep_cases (hw.steps hsteps) hstep with hidles | ⟨i, e, hhappens⟩
      · refine ⟨added, hidles.log.trans hlog, ?_⟩
        rwa [hidles.shared]
      · refine ⟨(i, e) :: added, by rw [hhappens.log, hlog, List.cons_append], ?_⟩
        rcases hadded with ⟨hstill, hnone⟩ | ⟨k, call, draws, hmem, hissued⟩
        · rcases revoked_of_commits hhappens.commits hstill with hkept | ⟨call, draws, rfl, hissued⟩
          · refine .inl ⟨hkept, fun j scope now record hmem => ?_⟩
            rcases List.mem_cons.mp hmem with hnew | hold
            · obtain ⟨rfl, rfl⟩ := Prod.mk.inj hnew
              obtain ⟨hfound, halive, _⟩ := grantOf_of_validate hhappens.commits
              rw [hstill record hfound] at halive
              cases halive
            · exact hnone j scope now record hold
          · exact .inr ⟨i, call, draws, List.mem_cons_self, hissued⟩
        · exact .inr ⟨k, call, draws, List.mem_cons_of_mem _ hmem, hissued⟩

/-- Only a connection asks for a grant, with the token that it was given and at the time
that it has read. -/
def AsksOnce (entry : RelayEntry) (h : History Hub) : HubOp → Prop
  | .validate token scope now => scope = "relay.connect" ∧ ⟨.clock, .ok now⟩ ∈ h ∧
      ∃ authorization deviceId rounds, entry = .deviceWs authorization deviceId rounds ∧
        bearerToken authorization = some token
  | _ => True

theorem asksOnce_of_follows {limit : Option ℕ} {sound : String → V1.RelayFrame → Prop}
    {role : Role} {entry : RelayEntry} {h : History Hub} {op : HubOp}
    (hf : Follows limit sound role h op)
    (hasked : ∀ opens registers, role = .session opens registers →
      ∃ token scope now reply, ⟨.validate token scope now, reply⟩ ∈ h) : AsksOnce entry h op := by
  cases op with
  | validate token scope now =>
      cases role with
      | session opens registers =>
          obtain ⟨token', scope', now', reply, hmem⟩ := hasked opens registers rfl
          exact absurd hmem (hf token' scope' now' reply)
      | caller | stream | outside => exact hf.elim
  | _ => trivial

theorem safe_asksOnce (entry : RelayEntry) :
    Safe (fun _ _ => True) ((fun entry h op => AsksOnce entry h op) entry)
      ((fun _ _ _ => True) entry) ((relay L C).body entry) [] := by
  have hfollows := (relay L C).follows entry
  cases entry with
  | deviceWs authorization deviceId rounds =>
      change Safe _ _ _ (Relay.deviceWs L.toPrimitives C authorization deviceId rounds) _
      unfold Relay.deviceWs
      cases htoken : bearerToken authorization with
      | none => exact (safe_done _).mpr trivial
      | some token =>
          refine safe_hubPerform .clock trivial fun reply _ => ?_
          cases reply with
          | error _ => exact (safe_done _).mpr trivial
          | ok now =>
              refine safe_hubPerform (.validate token "relay.connect" now)
                ⟨rfl, List.mem_cons_self, authorization, deviceId, rounds, rfl, htoken⟩
                fun reply _ => ?_
              cases reply with
              | error _ => exact (safe_done _).mpr trivial
              | ok record =>
                  change Safe _ _ _ (if record.actorId = deviceId then _ else _) _
                  split
                  · rename_i hactor
                    have hgranted : Granted authorization deviceId
                        [⟨.validate token "relay.connect" now, .ok record⟩, ⟨.clock, .ok now⟩] :=
                      ⟨token, now, record, htoken, List.mem_cons_self, hactor⟩
                    -- it has been asked once, and is not asked again
                    refine ((relayConnects_handleDevice rfl rfl hgranted).keeps
                      (K := fun h => ⟨.validate token "relay.connect" now, .ok record⟩ ∈ h)
                      (fun e h hmem => List.mem_cons_of_mem e hmem) List.mem_cons_self).mono
                        (fun _ _ _ => trivial) |>.guarantee ?_
                    rintro h op ⟨hf, hmem⟩
                    exact asksOnce_of_follows hf fun _ _ _ => ⟨_, _, _, _, hmem⟩
                  · exact (safe_done _).mpr trivial
  | dispatchAction | dispatchApprovedAction | outside =>
      refine (hfollows.mono fun _ _ _ => trivial).guarantee fun h op hf => ?_
      exact asksOnce_of_follows hf fun opens registers hrole => by cases hrole

/-- The store had the grant at a moment of the run. -/
theorem grantOf_of_mem (hw : Reachable HubState.Fresh anyEntry w) {j now : ℕ}
    {token scope : String} {record : GrantRecord}
    (h : (j, ⟨.validate token scope now, .ok record⟩) ∈ w.log) :
    record.revoked = false ∧ now < record.expiresAtUnixMs ∧
      ∃ w₀, Relation.ReflTransGen (Step anyEntry) w₀ w ∧
        w₀.shared.grantOf L.toPrimitives token = some record := by
  revert h
  apply hw.induction
    (P := fun w : World ((relay L C).system L.toPrimitives) =>
      (j, ⟨.validate token scope now, .ok record⟩) ∈ w.log → record.revoked = false ∧
        now < record.expiresAtUnixMs ∧ ∃ w₀, Relation.ReflTransGen (Step anyEntry) w₀ w ∧
          w₀.shared.grantOf L.toPrimitives token = some record)
  · intro s _ h
    cases h
  · intro w w' hw ih hstep h
    rcases hubStep_cases hw hstep with hidles | ⟨i, e, hhappens⟩
    · rw [hidles.log] at h
      obtain ⟨halive, hfresh, w₀, hsteps, hfound⟩ := ih h
      exact ⟨halive, hfresh, w₀, hsteps.tail hstep, hfound⟩
    · rw [hhappens.log] at h
      rcases List.mem_cons.mp h with hnew | hold
      · obtain ⟨rfl, rfl⟩ := Prod.mk.inj hnew
        obtain ⟨hfound, halive, hfresh⟩ := grantOf_of_validate hhappens.commits
        exact ⟨halive, hfresh, w, .single hstep, hfound⟩
      · obtain ⟨halive, hfresh, w₀, hsteps, hfound⟩ := ih hold
        exact ⟨halive, hfresh, w₀, hsteps.tail hstep, hfound⟩

/-- No connection asks twice. -/
theorem validate_unique (hw : Reachable HubState.Fresh anyEntry w) {j now now' : ℕ}
    {token token' scope scope' : String} {reply reply' : Except AuthError GrantRecord}
    (h : (j, ⟨.validate token scope now, reply⟩) ∈ w.log)
    (h' : (j, ⟨.validate token' scope' now', reply'⟩) ∈ w.log) :
    (⟨.validate token' scope' now', reply'⟩ : Event Hub) = ⟨.validate token scope now, reply⟩ := by
  -- whichever comes second has the other one before it
  have hfirst : ∀ {later earlier : Log Hub} {token scope : String} {now : ℕ}
      {reply : Except AuthError GrantRecord},
      w.log = later ++ (j, ⟨.validate token scope now, reply⟩) :: earlier →
      ∀ token' scope' now' reply', (j, ⟨.validate token' scope' now', reply'⟩) ∉ earlier := by
    intro later earlier token scope now reply hlog token' scope' now' reply' hmem
    obtain ⟨c, _, hfollows⟩ :=
      hw.guarantee (fun entry => safe_body entry) (allowed_true w.log) hlog
    cases hrole : (relay L C).role c.entry with
    | session opens registers =>
        rw [hrole] at hfollows
        exact hfollows token' scope' now' reply' (Log.mem_of.mpr hmem)
    | caller | stream | outside =>
        rw [hrole] at hfollows
        exact hfollows.elim
  obtain ⟨later, earlier, hlog⟩ := List.append_of_mem h
  rw [hlog] at h'
  rcases List.mem_append.mp h' with hlater | hcons
  · obtain ⟨later', middle, rfl⟩ := List.append_of_mem hlater
    rw [List.append_assoc, List.cons_append] at hlog
    exact absurd (List.mem_append_right _ List.mem_cons_self)
      (hfirst hlog token scope now reply)
  · rcases List.mem_cons.mp hcons with hsame | hearlier
    · exact (Prod.mk.inj hsame).2
    · exact absurd hearlier (hfirst hlog token' scope' now' reply')

theorem mem_of_openedChannel {h : History Hub} {channel : ℕ}
    (hopened : openedChannel h = some channel) : ⟨.openChannel, channel⟩ ∈ h := by
  induction h with
  | nil => cases hopened
  | cons e h ih =>
      rcases openedChannel_cons e h with hsame | ⟨found, rfl, hnew⟩
      · rw [hsame] at hopened
        exact List.mem_cons_of_mem _ (ih hopened)
      · obtain rfl := Option.some.inj (hnew.symm.trans hopened)
        exact List.mem_cons_self

/-- In every run of the relay, a session was opened by asking for its grant once, which the
store then had, neither revoked nor expired at the time that had been read; and a token
whose grant has been revoked opens no session any more, until one with its hash is
issued. -/
theorem sessions_ask_when_opened (L : Libraries) (C : FrameCodec)
    (w : World ((relay L C).system L.toPrimitives)) (hw : Reachable HubState.Fresh anyEntry w) :
    (∀ j channel, channelOf w j = some channel →
      ∃ authorization deviceId rounds c token now record, w.calls j = some c ∧
        c.entry = RelayEntry.deviceWs authorization deviceId rounds ∧
        bearerToken authorization = some token ∧ (j, ⟨.clock, .ok now⟩) ∈ w.log ∧
        (j, ⟨.validate token "relay.connect" now, .ok record⟩) ∈ w.log ∧
        (∀ token' scope now' reply, (j, ⟨.validate token' scope now', reply⟩) ∈ w.log →
          (⟨.validate token' scope now', reply⟩ : Event Hub) =
            ⟨.validate token "relay.connect" now, .ok record⟩) ∧
        record.actorId = deviceId ∧ record.revoked = false ∧ now < record.expiresAtUnixMs ∧
        ∃ w₀, Relation.ReflTransGen (Step anyEntry) w₀ w ∧
          w₀.shared.grantOf L.toPrimitives token = some record) ∧
    ∀ token, (∀ record, w.shared.grantOf L.toPrimitives token = some record →
      record.revoked = true) →
      ∀ w' added, Relation.ReflTransGen (Step anyEntry) w w' → w'.log = added ++ w.log →
        ∀ j now record, (j, ⟨.validate token "relay.connect" now, .ok record⟩) ∈ added →
          ∃ k call draws, (k, ⟨.store call draws, ()⟩) ∈ added ∧
            call.issuedToken L.toPrimitives draws =
              some (GrantStore.tokenHashHex L.toPrimitives token) := by
  constructor
  · intro j channel hchannel
    have hmem := Log.mem_of.mp (mem_of_openedChannel hchannel)
    obtain ⟨later, earlier, hlog⟩ := List.append_of_mem hmem
    obtain ⟨⟨entry, history, rest⟩, hc, hfollows⟩ :=
      hw.guarantee (fun entry => safe_body entry) (allowed_true w.log) hlog
    cases entry with
    | deviceWs authorization deviceId rounds =>
        obtain ⟨_, token, now, record, htoken, hvalidated, hactor⟩ := hfollows
        have hbefore : ∀ e, e ∈ Log.of earlier j → (j, e) ∈ w.log := by
          intro e he
          rw [hlog]
          exact List.mem_append_right _ (List.mem_cons_of_mem _ (Log.mem_of.mp he))
        obtain ⟨halive, hfresh, hmoment⟩ := grantOf_of_mem hw (hbefore _ hvalidated)
        obtain ⟨later', earlier', hlog'⟩ := List.append_of_mem (hbefore _ hvalidated)
        obtain ⟨_, _, _, hclock, _⟩ :=
          hw.guarantee (fun entry => safe_asksOnce entry) (allowed_true w.log) hlog'
        refine ⟨authorization, deviceId, rounds, _, token, now, record, hc, rfl, htoken, ?_,
          hbefore _ hvalidated,
          fun _ _ _ _ hmem => validate_unique hw (hbefore _ hvalidated) hmem, hactor, halive,
          hfresh, hmoment⟩
        rw [hlog']
        exact List.mem_append_right _ (List.mem_cons_of_mem _ (Log.mem_of.mp hclock))
    | dispatchAction | dispatchApprovedAction | outside => exact hfollows.elim
  · intro token hrevoked w' added hsteps hlog j now record hmem
    obtain ⟨added', hlog', hadded⟩ := issued_of_validated hw hrevoked hsteps
    obtain rfl : added = added' := List.append_cancel_right (hlog.symm.trans hlog')
    rcases hadded with ⟨_, hnone⟩ | hissued
    · exact absurd hmem (hnone j "relay.connect" now record)
    · exact hissued

end Relay

/-! ### A device of two organisations -/

namespace Sample

/-- A caller asks a device that has connected for a listing, which is handed to it. -/
def handedAfter (w : World (relayOfOne.system reference)) : World (relayOfOne.system reference) :=
  World.moves relayHub
    { w with
      calls := Function.update w.calls 1
        (some ⟨RelayEntry.dispatchAction "device" remoteListing, [],
          some (.action <$> (RelayHub.submit "device" "action-" remoteListing
            (.actionRequest remoteListing)).run)⟩) }
    [1, 1, 1, 1, 1, 0, 0]

theorem handedAfter_reachable {w : World (relayOfOne.system reference)}
    (hw : Reachable HubState.Fresh anyEntry w) (hfree : w.calls 1 = none) :
    Reachable HubState.Fresh anyEntry (handedAfter w) := by
  have hasked : Reachable HubState.Fresh anyEntry
      (w.start 1 (RelayEntry.dispatchAction "device" remoteListing)) := hw.start hfree trivial
  have hstarted := hasked.moves relayHub_sound [1, 1, 1, 1, 1, 0, 0]
  have hbody : (relayOfOne.system reference).body
      (RelayEntry.dispatchAction "device" remoteListing) =
        (.action <$> (RelayHub.submit "device" "action-" remoteListing
          (.actionRequest remoteListing)).run) :=
    congrArg (fun p => RelayOutcome.action <$> ExceptT.run p)
      (RelayHub.dispatchAction_of_checked remoteListing_checked)
  unfold World.start at hstarted
  rw [hbody] at hstarted
  exact hstarted

/-- The grant of a device with the same name in another organisation. -/
def otherGrant : GrantRecord := { relayGrant with grantId := "other", organizationId := "other" }

/-- A relay that knows the grants of both. -/
def sharedRelay : HubState :=
  { freshHub with
    grants := some
      { version := 1
        deviceId := "relay"
        grants := ((∅ : Std.ExtTreeMap String GrantRecord).insert
          (GrantStore.tokenHashHex reference "token") otherGrant).insert
            (GrantStore.tokenHashHex reference "local") relayGrant } }

/-- The device of the other organisation has connected. -/
def greetedOther : World (relayOfOne.system reference) :=
  (World.start (initial sharedRelay) 0
    (RelayEntry.deviceWs (some "Bearer token") "device" 3)).moves relayHub (List.replicate 10 0)

theorem greetedOther_reachable : Reachable HubState.Fresh anyEntry greetedOther := by
  have hfresh : sharedRelay.Fresh := ⟨rfl, rfl, rfl, rfl⟩
  exact ((reachable_initial hfresh).start rfl trivial).moves relayHub_sound _

theorem handedOther_reachable :
    Reachable HubState.Fresh anyEntry (handedAfter greetedOther) := by
  refine handedAfter_reachable greetedOther_reachable ?_
  rw [greetedOther]
  exact (moves_calls_of_notMem _ (by decide)).trans (start_calls_of_ne _ _ one_ne_zero)

/-- The session has been let in with a grant of the organisation. -/
def letIn (organizationId : String) : ℕ × Event Hub → Bool
  | (0, ⟨.validate "token" "relay.connect" 10, .ok record⟩) =>
      record.organizationId = organizationId && record.actorId = "device"
  | _ => false

/-- The listing has been written to the session. -/
def listingWritten : ℕ × Event Hub → Bool
  | (0, ⟨.transmit 0 ⟨.ok frame, some 0⟩, true⟩) => frame.request = some remoteListing
  | _ => false

theorem openedWith_of_letIn {w : World (relayOfOne.system reference)} {organizationId : String}
    (h : w.log.any (letIn organizationId) = true) :
    ∃ record, OpenedWith w 0 "token" record ∧ record.organizationId = organizationId ∧
      record.actorId = "device" := by
  obtain ⟨entry, hmem, hentry⟩ := List.any_eq_true.mp h
  unfold letIn at hentry
  split at hentry
  · rw [Bool.and_eq_true, decide_eq_true_iff, decide_eq_true_iff] at hentry
    exact ⟨_, ⟨10, hmem⟩, hentry⟩
  · cases hentry

theorem transmit_of_listingWritten {w : World (relayOfOne.system reference)}
    (h : w.log.any listingWritten = true) :
    ∃ item frame, (0, ⟨.transmit 0 item, true⟩) ∈ w.log ∧ item.content = .ok frame ∧
      frame.request = some remoteListing := by
  obtain ⟨entry, hmem, hentry⟩ := List.any_eq_true.mp h
  unfold listingWritten at hentry
  split at hentry
  · exact ⟨_, _, hmem, rfl, of_decide_eq_true hentry⟩
  · cases hentry

theorem handedOther_run : ((handedAfter greetedOther).log.any listingWritten &&
    (handedAfter greetedOther).log.any (letIn "other")) = true := by
  decide +kernel

/-- The grant of the device is revoked after a request has been handed to it. -/
def revokedLate : World (relayOfOne.system reference) :=
  (World.start handed 2 (RelayEntry.outside (.store (.revoke "grant")
    { deviceId := Vector.replicate 16 0, tokenBytes := Vector.replicate 32 0
      grantId := Vector.replicate 16 0, codeBytes := Vector.replicate 20 0
      pairingId := Vector.replicate 16 0 }))).moves relayHub [2]

/-- The device has answered. -/
def answeredRevoked : World (relayOfOne.system reference) :=
  revokedLate.moves relayHub [0, 0, 0, 0]

theorem revokedLate_reachable : Reachable HubState.Fresh anyEntry revokedLate := by
  have hfree : handed.calls 2 = none := by
    rw [handed_eq]
    refine (moves_calls_of_notMem _ (by decide)).trans
      ((start_calls_of_ne _ _ (by decide)).trans ?_)
    exact (moves_calls_of_notMem _ (by decide)).trans (start_calls_of_ne _ _ (by decide))
  exact (handed_reachable.start hfree trivial).moves relayHub_sound _

/-- A result has been taken from the session. -/
def resultTaken : ℕ × Event Hub → Bool
  | (0, ⟨.complete _ _ _, completion⟩) => completion.received
  | _ => false

theorem complete_of_resultTaken {log : Log Hub} (h : log.any resultTaken = true) :
    ∃ channel deviceId result completion,
      (0, ⟨.complete channel deviceId result, completion⟩) ∈ log ∧ completion.received = true := by
  obtain ⟨entry, hmem, hentry⟩ := List.any_eq_true.mp h
  unfold resultTaken at hentry
  split at hentry
  · exact ⟨_, _, _, _, hmem, hentry⟩
  · cases hentry

end Sample

open Sample in
/-- A device of one organisation is handed the request of another. -/
theorem organizations_not_isolated :
    ¬ ∀ w : World (relayOfOne.system reference), Reachable HubState.Fresh anyEntry w →
      ∀ j channel item sent frame request canonical token record,
        (j, ⟨.transmit channel item, sent⟩) ∈ w.log → item.content = .ok frame →
        frame.request = some request →
        Wire.actionRequestFromProto (libraries ∅) request = .ok canonical →
        OpenedWith w j token record →
          record.organizationId = canonical.envelope.organizationId := by
  intro h
  obtain ⟨hwritten, hlet⟩ := Bool.and_eq_true_iff.mp handedOther_run
  obtain ⟨item, frame, hmem, hframe, hrequest⟩ := transmit_of_listingWritten hwritten
  obtain ⟨record, hopened, horganization, _⟩ := openedWith_of_letIn hlet
  have hsame := h _ handedOther_reachable 0 0 item true frame remoteListing _ "token" record hmem
    hframe hrequest remoteListing_read hopened
  rw [horganization] at hsame
  exact absurd hsame (by decide)

open Sample in
/-- The device to which the listing is written has been let in as the one that it names. -/
theorem sessions_isolate_devices_listing :
    ∃ canonical token record,
      Wire.actionRequestFromProto (libraries ∅) remoteListing = .ok canonical ∧
        OpenedWith (handedAfter greetedOther) 0 token record ∧
        record.actorId = canonical.envelope.deviceId := by
  obtain ⟨hwritten, _⟩ := Bool.and_eq_true_iff.mp handedOther_run
  obtain ⟨item, frame, hmem, hframe, hrequest⟩ := transmit_of_listingWritten hwritten
  exact (sessions_isolate_devices (libraries ∅) relayCodec _ handedOther_reachable).1
    0 0 item true frame remoteListing hmem hframe hrequest

open Sample in
/-- The result of a device is taken although its grant has been revoked. -/
theorem revocation_not_immediate :
    ¬ ∀ w w' : World (relayOfOne.system reference), Reachable HubState.Fresh anyEntry w →
      Relation.ReflTransGen (Step anyEntry) w w' → ∀ j token record found added,
        OpenedWith w j token record → w.shared.grantOf reference token = some found →
        (found.revoked = true ∨ found.expiresAtUnixMs ≤ w.shared.nowUnixMs) →
        w'.log = added ++ w.log → ∀ channel deviceId result completion,
          (j, ⟨.complete channel deviceId result, completion⟩) ∈ added →
            completion.received = false := by
  intro h
  have hrun : (revokedLate.log.any (letIn "local") && answeredRevoked.log.any resultTaken &&
      revokedLate.log.all (fun entry => !resultTaken entry) &&
      (revokedLate.shared.grantOf reference "token").any (·.revoked)) = true := by decide +kernel
  simp only [Bool.and_eq_true] at hrun
  obtain ⟨⟨⟨hlet, htaken⟩, hnot⟩, hfound⟩ := hrun
  obtain ⟨record, hopened, _⟩ := openedWith_of_letIn hlet
  obtain ⟨found, hgrant, hrevoked⟩ := (Option.any_eq_true _ _).mp hfound
  have hsteps : Relation.ReflTransGen (Step anyEntry) revokedLate answeredRevoked :=
    moves_steps relayHub_sound _ _
  obtain ⟨added, hlog⟩ := log_of_steps hsteps
  rw [hlog, List.any_append, Bool.or_eq_true] at htaken
  rcases htaken with hnew | hold
  · obtain ⟨channel, deviceId, result, completion, hmem, hreceived⟩ := complete_of_resultTaken hnew
    have hunreceived := h _ _ revokedLate_reachable hsteps 0 "token" record found added hopened
      hgrant (.inl hrevoked) hlog channel deviceId result completion hmem
    rw [hreceived] at hunreceived
    cases hunreceived
  · obtain ⟨entry, hmem, htaken⟩ := List.any_eq_true.mp hold
    have hnever := List.all_eq_true.mp hnot entry hmem
    rw [htaken] at hnever
    cases hnever

open Sample in
/-- The session to which the listing is handed was opened with a grant that had not ended. -/
theorem sessions_ask_when_opened_handed :
    ∃ token record, OpenedWith handed 0 token record ∧ record.revoked = false := by
  have hchannel : channelOf handed 0 = some 0 := by decide +kernel
  obtain ⟨_, _, _, _, token, now, record, _, _, _, _, hvalidated, _, _, halive, _⟩ :=
    (sessions_ask_when_opened (libraries ∅) relayCodec handed handed_reachable).1 0 0 hchannel
  exact ⟨token, record, ⟨now, hvalidated⟩, halive⟩

end VorCommander
