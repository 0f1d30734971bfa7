import VorCommander.Auth.Isolation
import VorCommander.Auth.Stores
import VorCommander.Auth.StateSteps

/-!
The store of tenants holds together.

The maps of the store refer to one another: a membership to its organisation and
its user, a device to the workspaces of its organisation. `validate_tenant_state`
does not follow these references; they hold because an operation adds a record
only where what it refers to is there, and because nothing is ever taken out of
the maps that are referred to. So a state that an operation makes of one that
holds together holds together again, and the file holds no other one, whichever
processes use the store.
-/

namespace VorCommander

open Steps Steps.World Text

/-! ### States that hold together -/

/-- A state that is accepted, and whose records refer to records that are there. -/
structure TenantPersistedState.Sound (state : TenantPersistedState) : Prop where
  accepted : validateTenantState state = .ok ()
  memberships : ∀ (key : String) (record : MembershipRecord),
    state.memberships[key]? = some record →
    (∃ organization, state.organizations[record.organizationId]? = some organization) ∧
      ∃ user, state.users[record.userId]? = some user
  workspaces : ∀ (key : String) (record : TenantDeviceRecord), state.devices[key]? = some record →
    ∀ workspaceId ∈ record.workspaceIds, ∃ workspace : WorkspaceRecord,
      state.workspaces[tenantKey record.organizationId workspaceId]? = some workspace ∧
        workspace.organizationId = record.organizationId ∧ workspace.workspaceId = workspaceId

section Maps

variable {α : Type} {map : Std.ExtTreeMap String α} {key : String}

/-- What is in a map has a record there after an insertion as well. -/
theorem present_insert {key' : String} {record : α} (h : ∃ found, map[key]? = some found) :
    ∃ found, (map.insert key' record)[key]? = some found := by
  rw [Std.ExtTreeMap.getElem?_insert]
  split
  · exact ⟨record, rfl⟩
  · exact h

theorem present_of_contains (h : map.contains key = true) : ∃ found, map[key]? = some found := by
  rw [Std.ExtTreeMap.contains_eq_isSome_getElem?] at h
  exact Option.isSome_iff_exists.mp h

/-- A property of all records is one of those after an insertion. -/
theorem forall_insert {p : α → Prop} {record : α} (hrecord : p record)
    (h : ∀ (key : String) (found : α), map[key]? = some found → p found) (key' : String) (found : α)
    (hfound : (map.insert key record)[key']? = some found) : p found := by
  rw [Std.ExtTreeMap.getElem?_insert] at hfound
  split at hfound
  · obtain rfl := Option.some.inj hfound
    exact hrecord
  · exact h key' found hfound

end Maps

namespace TenantPersistedState

variable {state : TenantPersistedState}

/-- The state of a new file. -/
theorem sound_fresh : ({} : TenantPersistedState).Sound where
  accepted := by
    rw [validateTenantState_eq_ok_iff]
    exact ⟨rfl, TenantStoreSample.entries_empty, TenantStoreSample.entries_empty,
      TenantStoreSample.entries_empty, TenantStoreSample.entries_empty,
      TenantStoreSample.entries_empty, TenantStoreSample.entries_empty⟩
  memberships key record h := by simp at h
  workspaces key record h := by simp at h

theorem Sound.valid (h : state.Sound) : state.Valid := validateTenantState_eq_ok_iff.mp h.accepted

/-- The workspace at a key is the one that the key names. -/
theorem Valid.workspace (h : state.Valid) {organizationId workspaceId : String}
    (hpresent : ∃ workspace, state.workspaces[tenantKey organizationId workspaceId]? =
      some workspace) :
    ∃ workspace : WorkspaceRecord,
      state.workspaces[tenantKey organizationId workspaceId]? = some workspace ∧
        workspace.organizationId = organizationId ∧ workspace.workspaceId = workspaceId := by
  obtain ⟨workspace, hworkspace⟩ := hpresent
  obtain ⟨_, _, hkey⟩ := WorkspaceRecord.validate_eq_ok_iff.mp (h.workspaces _ _ hworkspace)
  obtain ⟨horganization, hname⟩ := tenantKey_inj hkey
  exact ⟨workspace, hworkspace, horganization.symm, hname.symm⟩

/-! A record may be put into a map where what it refers to is there. -/

theorem Sound.insertUser (h : state.Sound) {key : String} {record : UserRecord}
    (haccepted : validateTenantState { state with users := state.users.insert key record } =
      .ok ()) :
    Sound { state with users := state.users.insert key record } where
  accepted := haccepted
  memberships other found hfound := by
    obtain ⟨horganization, huser⟩ := h.memberships other found hfound
    exact ⟨horganization, present_insert huser⟩
  workspaces := h.workspaces

theorem Sound.insertOrganization (h : state.Sound) {key : String} {record : OrganizationRecord}
    (haccepted : validateTenantState
      { state with organizations := state.organizations.insert key record } = .ok ()) :
    Sound { state with organizations := state.organizations.insert key record } where
  accepted := haccepted
  memberships other found hfound := by
    obtain ⟨horganization, huser⟩ := h.memberships other found hfound
    exact ⟨present_insert horganization, huser⟩
  workspaces := h.workspaces

theorem Sound.insertWorkspace (h : state.Sound) {key : String} {record : WorkspaceRecord}
    (haccepted : validateTenantState
      { state with workspaces := state.workspaces.insert key record } = .ok ()) :
    Sound { state with workspaces := state.workspaces.insert key record } where
  accepted := haccepted
  memberships := h.memberships
  workspaces other found hfound workspaceId hmem := by
    obtain ⟨workspace, hworkspace, _⟩ := h.workspaces other found hfound workspaceId hmem
    exact (validateTenantState_eq_ok_iff.mp haccepted).workspace
      (present_insert ⟨workspace, hworkspace⟩)

theorem Sound.insertMembership (h : state.Sound) {key : String} {record : MembershipRecord}
    (horganization : ∃ organization, state.organizations[record.organizationId]? =
      some organization)
    (huser : ∃ user, state.users[record.userId]? = some user)
    (haccepted : validateTenantState
      { state with memberships := state.memberships.insert key record } = .ok ()) :
    Sound { state with memberships := state.memberships.insert key record } where
  accepted := haccepted
  memberships := forall_insert ⟨horganization, huser⟩ h.memberships
  workspaces := h.workspaces

theorem Sound.insertDevice (h : state.Sound) {key : String} {record : TenantDeviceRecord}
    (hworkspaces : ∀ workspaceId ∈ record.workspaceIds, ∃ workspace : WorkspaceRecord,
      state.workspaces[tenantKey record.organizationId workspaceId]? = some workspace ∧
        workspace.organizationId = record.organizationId ∧ workspace.workspaceId = workspaceId)
    (haccepted : validateTenantState
      { state with devices := state.devices.insert key record } = .ok ()) :
    Sound { state with devices := state.devices.insert key record } where
  accepted := haccepted
  memberships := h.memberships
  workspaces := forall_insert hworkspaces h.workspaces

theorem Sound.insertUsage (h : state.Sound) {key : String} {record : UsageRecord}
    (haccepted : validateTenantState { state with usage := state.usage.insert key record } =
      .ok ()) :
    Sound { state with usage := state.usage.insert key record } where
  accepted := haccepted
  memberships := h.memberships
  workspaces := h.workspaces

end TenantPersistedState

/-! ### Operations -/

namespace TenantStoreCall

variable {call : TenantStoreCall} {state state' : TenantPersistedState}

/-- What a call writes is accepted, as an organisation can tell that it does not
name. -/
theorem accepted_onState (h : call.onState state = .ok state') (hstate : state.Sound) :
    validateTenantState state' = .ok () := by
  obtain ⟨organizationId, hother⟩ : ∃ organizationId, some organizationId ≠ call.organization := by
    cases call.organization with
    | none => exact ⟨"", by simp⟩
    | some named =>
        refine ⟨named.push 'x', fun hsame => ?_⟩
        have hlength := congrArg String.length (Option.some.inj hsame)
        rw [String.length_push] at hlength
        omega
  rw [(onState_sameFor hother h).accepted]
  exact hstate.accepted

/-- What a call makes of a state that holds together holds together. -/
theorem sound_onState (h : call.onState state = .ok state') (hstate : state.Sound) :
    state'.Sound := by
  have haccepted := accepted_onState h hstate
  cases call with
  | upsertUser userId displayName =>
      simp only [onState, TenantStore.upsertUser, map_eq_ok, bind_eq_ok, exists_unit, Prod.exists,
        exists_eq_right, TenantStore.mutateState_eq_ok_iff, Except.ok.injEq, Prod.mk.injEq,
        true_and] at h
      obtain ⟨_, _, rfl⟩ := h
      exact hstate.insertUser haccepted
  | upsertOrganization organization name =>
      simp only [onState, TenantStore.upsertOrganization, map_eq_ok, bind_eq_ok, exists_unit,
        Prod.exists, exists_eq_right, TenantStore.mutateState_eq_ok_iff, Except.ok.injEq,
        Prod.mk.injEq, true_and] at h
      obtain ⟨_, _, rfl⟩ := h
      exact hstate.insertOrganization haccepted
  | upsertWorkspace organization workspaceId name =>
      simp only [onState, TenantStore.upsertWorkspace, map_eq_ok, bind_eq_ok, exists_unit,
        Prod.exists, exists_eq_right, TenantStore.mutateState_eq_ok_iff, failIf_eq_ok, pure_eq_ok,
        Prod.mk.injEq, true_and] at h
      obtain ⟨_, _, _, _, rfl⟩ := h
      exact hstate.insertWorkspace haccepted
  | setMembership organization userId role =>
      simp only [onState, TenantStore.setMembership, map_eq_ok, bind_eq_ok, exists_unit,
        Prod.exists, exists_eq_right, TenantStore.mutateState_eq_ok_iff, failIf_eq_ok, not_or,
        not_not, pure_eq_ok, Prod.mk.injEq, true_and] at h
      obtain ⟨_, _, _, ⟨horganization, huser⟩, rfl⟩ := h
      exact hstate.insertMembership (present_of_contains horganization) (present_of_contains huser)
        haccepted
  | revokeMembership organization userId =>
      simp only [onState, TenantStore.revokeMembership, map_eq_ok, bind_eq_ok, exists_unit,
        Prod.exists, exists_eq_right, TenantStore.mutateState_eq_ok_iff] at h
      obtain ⟨_, _, _, h⟩ := h
      split at h
      case h_1 =>
          obtain ⟨_, rfl⟩ := Prod.mk.inj (Except.ok.inj h)
          exact hstate
      case h_2 record hget =>
          obtain ⟨_, rfl⟩ := Prod.mk.inj (Except.ok.inj h)
          obtain ⟨horganization, huser⟩ := hstate.memberships _ record hget
          exact hstate.insertMembership horganization huser haccepted
  | pairDevice organization deviceId workspaceIds =>
      simp only [onState, TenantStore.pairDevice, map_eq_ok, bind_eq_ok, exists_unit, Prod.exists,
        exists_eq_right, TenantStore.mutateState_eq_ok_iff, failIf_eq_ok, not_not, pure_eq_ok,
        Prod.mk.injEq, true_and] at h
      obtain ⟨_, _, _, _, _, hworkspaces, rfl⟩ := h
      refine hstate.insertDevice ?_ haccepted
      intro workspaceId hmem
      exact hstate.valid.workspace (present_of_contains (hworkspaces workspaceId hmem))
  | revokeDevice organization deviceId =>
      simp only [onState, TenantStore.revokeDevice, map_eq_ok, bind_eq_ok, exists_unit,
        Prod.exists, exists_eq_right, TenantStore.mutateState_eq_ok_iff] at h
      obtain ⟨_, _, _, h⟩ := h
      split at h
      case h_1 =>
          obtain ⟨_, rfl⟩ := Prod.mk.inj (Except.ok.inj h)
          exact hstate
      case h_2 record hget =>
          obtain ⟨_, rfl⟩ := Prod.mk.inj (Except.ok.inj h)
          exact hstate.insertDevice (hstate.workspaces _ record hget) haccepted
  | removeDeviceWorkspace organization deviceId workspaceId =>
      simp only [onState, TenantStore.removeDeviceWorkspace, map_eq_ok, bind_eq_ok, exists_unit,
        Prod.exists, exists_eq_right, TenantStore.mutateState_eq_ok_iff] at h
      obtain ⟨_, _, _, _, _, h⟩ := h
      split at h
      case h_1 =>
          obtain ⟨_, rfl⟩ := Prod.mk.inj (Except.ok.inj h)
          exact hstate
      case h_2 record hget =>
          obtain ⟨_, rfl⟩ := Prod.mk.inj (Except.ok.inj h)
          refine hstate.insertDevice ?_ haccepted
          intro id hmem
          exact hstate.workspaces _ record hget id (Finset.mem_of_mem_erase hmem)
  | recordUsage organization workspaceId usageKey units =>
      simp only [onState, TenantStore.recordUsage, map_eq_ok, bind_eq_ok, exists_unit, Prod.exists,
        exists_eq_right, TenantStore.mutateState_eq_ok_iff, failIf_eq_ok, pure_eq_ok,
        Prod.mk.injEq, true_and] at h
      obtain ⟨_, _, _, _, _, rfl⟩ := h
      exact hstate.insertUsage haccepted

/-- The state that goes with the answer of a call is the one that the call writes. -/
theorem onState_of_mutate {answer : TenantStoreAnswer}
    (h : call.mutate state = .ok (answer, state')) : call.onState state = .ok state' := by
  cases call with
  | removeDeviceWorkspace organizationId deviceId workspaceId =>
      obtain ⟨removed, hremove, _⟩ := GrantStoreCall.answering_eq_ok.mp h
      rw [onState, hremove]
      rfl
  | _ =>
      simp only [mutate, map_eq_ok, Prod.mk.injEq, exists_eq_right_right] at h
      exact h.1

end TenantStoreCall

/-! ### What the processes of a store keep -/

section Runs

variable {S : Store} {files : StoreFiles S} {p : S.State → Prop}
  {mayStart : World (storeSystem S true) → StoreEntry S → Prop}
  {w w' : World (storeSystem S true)}

/-- The states that the calls of a store keep among themselves, with the one of a new
file. -/
structure Store.Keeps (S : Store) (p : S.State → Prop) : Prop where
  fresh : ∀ draws, p (S.fresh draws)
  change : ∀ call mutate draws before answer next, S.task call = .change mutate →
    mutate draws before = .ok (answer, next) → p before → p next

/-- Every state in play is one of them, and a process that has read or written a state
has left one in the file. -/
structure KeepsTogether (p : S.State → Prop) (w : World (storeSystem S true)) : Prop where
  inPlay : ∀ state, InPlay w state → p state
  text : w.shared.target ≠ some none
  present : ∀ i, (progresses w.log i).seen ≠ none ∨ (progresses w.log i).written ≠ none →
    w.shared.target ≠ none

/-- What a process puts in place is made of what it has read. -/
theorem Puts.keeps (hS : S.Keeps p) (h : KeepsTogether p w) {i : ℕ} {state : S.State}
    (hputs : Puts w w' i state) : p state := by
  have hintends := hputs.intends
  cases hentry : entryOf w i with
  | openStore =>
      rw [hentry] at hintends
      obtain ⟨_, _, draws, _, rfl⟩ := hintends
      exact hS.fresh draws
  | call call =>
      rw [hentry] at hintends
      obtain ⟨_, mutate, before, draws, answer, htask, hseen, _, hmutate⟩ := hintends
      exact hS.change call mutate draws before answer state htask hmutate
        (h.inPlay before (.inr ⟨i, hseen⟩))

/-- A step keeps it. -/
theorem KeepsTogether.step (hS : S.Keeps p) (h : KeepsTogether p w)
    (hw : Reachable (· = files) mayStart w) (hstep : Step mayStart w w') : KeepsTogether p w' := by
  have hinPlay : ∀ state, InPlay w' state → p state := by
    intro state hstate
    rcases inPlay_step hw hstep hstate with hbefore | ⟨i, hputs⟩
    · exact h.inPlay state hbefore
    · exact hputs.keeps hS h
  rcases step_cases hw hstep with ⟨hlog, hshared⟩ | ⟨i, e, hmoves⟩
  · refine ⟨hinPlay, by rw [hshared]; exact h.text, ?_⟩
    rw [hlog, hshared]
    exact h.present
  · cases hmoves.targetStep hw with
    | same hsame _ hwritten =>
        refine ⟨hinPlay, hsame ▸ h.text, fun j hj => ?_⟩
        rw [hsame]
        rcases hj with hseen | hput
        · obtain ⟨state, hseen⟩ := Option.ne_none_iff_exists'.mp hseen
          rcases hmoves.seen hseen with hbefore | ⟨_, htarget, _⟩
          · exact h.present j (.inl (by simp [hbefore]))
          · simp [htarget]
        · refine h.present j (.inr ?_)
          by_cases hj : j = i
          · subst hj
            rwa [hmoves.self, hwritten] at hput
          · rwa [hmoves.other hj] at hput
    | removed _ hwindows => cases hwindows
    | replaced state htarget =>
        refine ⟨hinPlay, ?_, fun _ _ => ?_⟩ <;> rw [htarget] <;> simp

theorem keepsTogether_of_reachable (hS : S.Keeps p) (htext : files.target ≠ some none)
    (hfiles : ∀ state, files.target = some (some state) → p state)
    (hw : Reachable (· = files) mayStart w) : KeepsTogether p w := by
  refine hw.induction ?_ fun w w' hw h hstep => h.step hS hw hstep
  rintro s rfl
  refine ⟨?_, htext, by simp [progresses, initial]⟩
  rintro state (htarget | ⟨i, hseen⟩)
  · exact hfiles state htarget
  · simp [progresses, initial] at hseen

theorem written_of_steps {w'' : World (storeSystem S true)} (hw : Reachable (· = files) mayStart w)
    (hsteps : Relation.ReflTransGen (Step mayStart) w w'') {i : ℕ}
    (hwritten : (progresses w.log i).written ≠ none) :
    (progresses w''.log i).written = (progresses w.log i).written := by
  induction hsteps with
  | refl => rfl
  | tail hsteps hstep ih =>
      rw [(written_of_step (hw.steps hsteps) hstep (by rwa [ih])).1, ih]

/-- A process that returns Ok has read a state or has written one, unless its task was
done before it began. -/
theorem present_of_returned (hw : Reachable (· = files) mayStart w) {i : ℕ}
    {c : Call (storeSystem S true)} {reply : StoreReply S} (hc : w.calls i = some c)
    (hreturned : c.rest = some (.done (.ok reply)))
    (htask : ∀ call answer, S.task call ≠ .done (.ok answer)) :
    (progresses w.log i).seen ≠ none ∨ (progresses w.log i).written ≠ none := by
  have houtcome := hw.result (Store.safe_body true) (hw.allowed fun _ _ _ _ _ => trivial) hc
    hreturned
  cases hentry : c.entry with
  | openStore =>
      rw [hentry] at houtcome
      obtain ⟨state, _, ⟨hseen, _⟩ | ⟨hwritten, _⟩⟩ := houtcome
      · left
        rw [progresses, hseen]
        exact Option.some_ne_none state
      · right
        rw [progresses, hwritten]
        exact Option.some_ne_none state
  | call call =>
      rw [hentry] at houtcome
      obtain ⟨answer, rfl, _⟩ := houtcome
      rcases outcome_of_returned hw hc hentry hreturned with
        ⟨hdone, _⟩ | ⟨_, _, _, hseen, _⟩ | ⟨_, _, _, _, _, hseen, _⟩
      · exact absurd hdone (htask call answer)
      · exact .inl (by simp [hseen])
      · exact .inl (by simp [hseen])

/-- A step of a process that is going to return an error leaves the file as it is. -/
theorem target_of_error (hw : Reachable (· = files) mayStart w) (hstep : Step mayStart w w')
    {w'' : World (storeSystem S true)} (hsteps : Relation.ReflTransGen (Step mayStart) w' w'')
    {i : ℕ} {e : Event (StateFile S)} {c : Call (storeSystem S true)} {error : AuthError}
    (hmoves : w'.log = (i, e) :: w.log) (hc : w''.calls i = some c)
    (hreturned : c.rest = some (.done (.error error))) :
    w'.shared.target = w.shared.target := by
  have hw' := hw.steps (.single hstep)
  rcases step_cases hw hstep with ⟨hlog, _⟩ | ⟨j, e', hmoved⟩
  · rw [hlog] at hmoves
    exact absurd hmoves.symm (List.cons_ne_self _ _)
  · obtain ⟨rfl, rfl⟩ : j = i ∧ e' = e := by
      simpa using (List.cons.inj (hmoved.log.symm.trans hmoves)).1
    cases hmoved.targetStep hw with
    | same hsame => exact hsame
    | removed _ hwindows => cases hwindows
    | replaced state _ _ _ hafter =>
        -- what a process has written it has written when it returns, too
        have hput : (progresses w'.log j).written = some state := by rw [hmoved.self, hafter]
        have hlater : (progresses w''.log j).written = some state := by
          rw [written_of_steps hw' hsteps (by simp [hput]), hput]
        rw [written_of_error (hw'.steps hsteps) hc hreturned] at hlater
        cases hlater

end Runs

/-! ### The store of tenants -/

theorem keeps_sound : tenants.Keeps TenantPersistedState.Sound where
  fresh _ := TenantPersistedState.sound_fresh
  change request mutate draws before answer next htask hmutate hsound := by
    cases request with
    | change call =>
        obtain ⟨_, hchange⟩ := StoreTask.after_eq_change.mp htask
        obtain rfl := StoreTask.change.inj hchange
        exact TenantStoreCall.sound_onState (TenantStoreCall.onState_of_mutate hmutate) hsound
    | verifyContext grant organizationId deviceId workspaceId requiredRole =>
        obtain ⟨_, hchange⟩ := StoreTask.after_eq_change.mp htask
        cases hchange
    | listUsageForOrg organizationId =>
        obtain ⟨_, hchange⟩ := StoreTask.after_eq_change.mp htask
        cases hchange

theorem TenantStoreRequest.task_ne_done (request : TenantStoreRequest)
    (answer : TenantStoreAnswer) :
    request.task ≠ .done (.ok answer) := by
  intro htask
  cases request <;>
    rcases StoreTask.after_eq_done.mp htask with ⟨e, _, h⟩ | ⟨_, h⟩ <;> cases h

/-- In every run of every number of processes the file of the store holds a state that
holds together, once an operation has returned Ok and in every state after that. No step
of an operation that returns an error changes the file. -/
theorem tenants_hold_together {files : StoreFiles tenants}
    {mayStart : World (storeSystem tenants true) → StoreEntry tenants → Prop}
    {w : World (storeSystem tenants true)}
    (hfiles : files.target = none ∨
      ∃ state : TenantPersistedState, files.target = some (some state) ∧ state.Sound)
    (hw : Reachable (· = files) mayStart w) :
    (∀ i c reply, w.calls i = some c → c.rest = some (.done (.ok reply)) →
      ∃ state : TenantPersistedState, w.shared.target = some (some state) ∧ state.Sound) ∧
    (∀ state : TenantPersistedState, w.shared.target = some (some state) → state.Sound) ∧
    ∀ i c error, w.calls i = some c → c.rest = some (.done (.error error)) →
      ∀ w₁ w₂ e, Reachable (· = files) mayStart w₁ → Step mayStart w₁ w₂ →
        w₂.log = (i, e) :: w₁.log → Relation.ReflTransGen (Step mayStart) w₂ w →
        w₂.shared.target = w₁.shared.target := by
  have htext : files.target ≠ some none := by
    rcases hfiles with hnone | ⟨state, hstate, _⟩
    · rw [hnone]
      exact (Option.some_ne_none _).symm
    · rw [hstate]
      intro h
      cases Option.some.inj h
  have hheld : ∀ state : TenantPersistedState, files.target = some (some state) → state.Sound := by
    intro state hstate
    rcases hfiles with hnone | ⟨found, hfound, hsound⟩
    · rw [hnone] at hstate
      cases hstate
    · obtain rfl := Option.some.inj (Option.some.inj (hstate.symm.trans hfound))
      exact hsound
  have hkeeps := keepsTogether_of_reachable keeps_sound htext hheld hw
  have hsound : ∀ state : TenantPersistedState,
      w.shared.target = some (some state) → state.Sound :=
    fun state hstate => hkeeps.inPlay state (.inl hstate)
  refine ⟨?_, hsound, ?_⟩
  · intro i c reply hc hreturned
    have hpresent := hkeeps.present i
      (present_of_returned hw hc hreturned TenantStoreRequest.task_ne_done)
    obtain ⟨content, hcontent⟩ := Option.ne_none_iff_exists'.mp hpresent
    cases content with
    | none => exact absurd hcontent hkeeps.text
    | some state => exact ⟨state, hcontent, hsound state hcontent⟩
  · intro i c error hc hreturned w₁ w₂ e hw₁ hstep hmoves hsteps
    exact target_of_error hw₁ hstep hsteps hmoves hc hreturned

/-! ### A device is paired -/

namespace TenantStateSample

def noFile : StoreFiles tenants := ⟨none, false, fun _ => none⟩

/-- The store is opened, an organisation is entered, and a device is to be paired with
another one, which is not there. -/
def started : World (storeSystem tenants true) :=
  (((initial (S := storeSystem tenants true) noFile).start 0 StoreEntry.openStore).start 1
    (StoreEntry.call (S := tenants) (.change (.upsertOrganization "a" "A")))).start 2
      (StoreEntry.call (S := tenants) (.change (.pairDevice "b" "d" ∅)))

def files (temp : ℕ) : Handler (StateFile tenants) (StoreFiles tenants) := workingFiles () temp

def refused : World (storeSystem tenants true) :=
  ((started.ticks (files 0) [0, 0, 0, 0, 0, 0, 0]).ticks (files 1)
    [1, 1, 1, 1, 1, 1, 1, 1, 1]).ticks
    (files 2) [2, 2, 2, 2, 2]

theorem refused_reachable : Reachable (· = noFile) anyEntry refused := by
  have hempty : Reachable (· = noFile) anyEntry
      (initial (S := storeSystem tenants true) noFile) := reachable_initial rfl
  have hstarted : Reachable (· = noFile) anyEntry started :=
    ((hempty.start rfl trivial).start rfl trivial).start rfl trivial
  have hsound : ∀ temp, (files temp).Sound (storeSystem tenants true) := fun temp =>
    workingFiles_sound (S := tenants) () temp
  exact ((hstarted.ticks (hsound 0) _).ticks (hsound 1) _).ticks (hsound 2) _

end TenantStateSample

open TenantStateSample in
theorem tenants_hold_together_refused :
    ∃ state : TenantPersistedState, refused.shared.target = some (some state) ∧ state.Sound :=
  (tenants_hold_together (.inl rfl) refused_reachable).1 1 _ (.answered .done) rfl rfl

end VorCommander
