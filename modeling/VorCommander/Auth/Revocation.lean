import VorCommander.Auth.StateSteps
import VorCommander.Auth.Stores

/-!
Revocations are not taken back.

A revocation is in the file when it returns. Whoever is inside of the lock
then works on a state that has it, and nobody makes a grant valid again: the
only states that are put in place without the lock have no grants. What is
assumed of tokens is that no two are issued with one hash.
-/

namespace VorCommander

open Crypto Steps Steps.Program Steps.World

variable {P : Primitives} {windows : Bool} {files : StoreFiles (grants P)}
  {mayStart : World (storeSystem (grants P) windows) → StoreEntry (grants P) → Prop}
  {w w' : World (storeSystem (grants P) windows)}

/-! ### Where grants come from -/

/-- The process issues, or has issued, a token with this hash. -/
def IssuesToken (w : World (storeSystem (grants P) windows)) (i : ℕ) (hash : String) : Prop :=
  ∃ call draws, entryOf w i = .call call ∧ (progresses w.log i).drawn = some draws ∧
    call.val.issuedToken P draws = some hash

/-- No two tokens have one hash, and no new one has that of a grant that was
in the file at the beginning. -/
structure TokensDiffer (files : StoreFiles (grants P))
    (w : World (storeSystem (grants P) windows)) : Prop where
  once : ∀ i j hash, IssuesToken w i hash → IssuesToken w j hash → i = j
  new : ∀ (i : ℕ) (hash : String) (state : PersistedState), IssuesToken w i hash →
    files.target = some (some state) → state.grants[hash]? = none

theorem issuesToken_of_step (hw : Reachable (· = files) mayStart w)
    (hstep : Step mayStart w w') {i : ℕ}
    {hash : String} (h : IssuesToken w i hash) : IssuesToken w' i hash := by
  obtain ⟨call, draws, hentry, hdrawn, hissues⟩ := h
  obtain ⟨hdrawn', hentry'⟩ := drawn_of_step hw hstep hdrawn
  exact ⟨call, draws, hentry'.trans hentry, hdrawn', hissues⟩

theorem TokensDiffer.of_step (hw : Reachable (· = files) mayStart w) (hstep : Step mayStart w w')
    (h : TokensDiffer files w') : TokensDiffer files w where
  once i j hash hi hj :=
    h.once i j hash (issuesToken_of_step hw hstep hi) (issuesToken_of_step hw hstep hj)
  new i hash state hi := h.new i hash state (issuesToken_of_step hw hstep hi)

/-- What a call puts in place is what it leaves of the state that it read. -/
theorem Puts.onState {i : ℕ} {state : PersistedState} {call : (grants P).Call}
    (h : Puts w w' i state) (hentry : entryOf w i = .call call) :
    ∃ (before : PersistedState) (draws : StoreDraws), (progresses w.log i).inside = true ∧
      (progresses w.log i).seen = some before ∧ (progresses w.log i).drawn = some draws ∧
      call.val.onState P draws before = .ok state := by
  have hintends := h.intends
  rw [hentry] at hintends
  obtain ⟨hinside, mutate, before, draws, answer, htask, hseen, hdrawn, hmutate⟩ := hintends
  exact ⟨before, draws, hinside, hseen, hdrawn, GrantStoreCall.onState_of_task htask hmutate⟩

/-- What an open puts in place has no grants and no pairings. -/
theorem Puts.fresh_of_open {i : ℕ} {state : PersistedState} (h : Puts w w' i state)
    (hentry : entryOf w i = .openStore) : state.grants = ∅ ∧ state.pairings = ∅ := by
  have hintends := h.intends
  rw [hentry] at hintends
  obtain ⟨_, _, draws, _, rfl⟩ := hintends
  exact ⟨rfl, rfl⟩

/-- A grant at this hash was in the file at the beginning, or was issued by a
process that has written. -/
def Originates (files : StoreFiles (grants P)) (w : World (storeSystem (grants P) windows))
    (hash : String) : Prop :=
  (∃ (first : PersistedState) (record : GrantRecord), files.target = some (some first) ∧
    first.grants[hash]? = some record) ∨
    ∃ j, IssuesToken w j hash ∧ (progresses w.log j).written ≠ none

theorem Originates.step {hash : String} (h : Originates files w hash)
    (hw : Reachable (· = files) mayStart w) (hstep : Step mayStart w w') :
    Originates files w' hash := by
  rcases h with hfirst | ⟨j, hissues, hwritten⟩
  · exact .inl hfirst
  · refine .inr ⟨j, issuesToken_of_step hw hstep hissues, ?_⟩
    rwa [(written_of_step hw hstep hwritten).1]

/-- A grant in a state in play has come from somewhere. -/
theorem originates_of_reachable (hw : Reachable (· = files) mayStart w) :
    ∀ (state : PersistedState) (hash : String) (record : GrantRecord), InPlay w state →
      state.grants[hash]? = some record → Originates files w hash := by
  refine Reachable.induction (P := fun w : World (storeSystem (grants P) windows) =>
    ∀ (state : PersistedState) (hash : String) (record : GrantRecord), InPlay w state →
      state.grants[hash]? = some record → Originates files w hash) hw ?_ ?_
  · rintro s rfl state hash record (htarget | ⟨i, hseen⟩) hget
    · exact .inl ⟨state, record, htarget, hget⟩
    · cases hseen
  intro w w' hw ih hstep state hash record hplay hget
  rcases inPlay_step hw hstep hplay with hplay | ⟨i, hputs⟩
  · exact (ih state hash record hplay hget).step hw hstep
  · cases hentry : entryOf w i with
    | openStore =>
        rw [(hputs.fresh_of_open hentry).1] at hget
        simp at hget
    | call call =>
        obtain ⟨before, draws, _, hseen, hdrawn, hstate⟩ := hputs.onState hentry
        rcases (GrantStoreCall.onState_evolves hstate).grants hash record hget with
          hissued | ⟨found, hfound, _⟩
        · refine .inr ⟨i, ⟨call, draws, hputs.entry.trans hentry, ?_, hissued⟩, ?_⟩
          · exact (drawn_of_step hw hstep hdrawn).1
          · rw [hputs.written]
            simp
        · exact (ih before hash found (.inr ⟨i, hseen⟩) hfound).step hw hstep

/-! ### What is revoked -/

/-- The hash of the grant that a revocation finds in a state. -/
def GrantStoreCall.revokes (state : PersistedState) : GrantStoreCall → Option String
  | .revoke grantId =>
      (state.grants.toList.find? fun entry => entry.2.grantId = grantId).map (·.1)
  | .revokeForTenant grantId organizationId =>
      (state.grants.toList.find? fun entry =>
        entry.2.grantId = grantId ∧ entry.2.organizationId = organizationId).map (·.1)
  | _ => none

/-- There is no grant at this hash, or it is revoked. -/
def Dead (hash : String) (state : PersistedState) : Prop :=
  ∀ record : GrantRecord, state.grants[hash]? = some record → record.revoked = true

/-- A process has revoked the grant at this hash. -/
def Revoked (w : World (storeSystem (grants P) windows)) (hash : String) : Prop :=
  ∃ (i : ℕ) (call : (grants P).Call) (before : PersistedState), entryOf w i = .call call ∧
    (progresses w.log i).seen = some before ∧ (progresses w.log i).written ≠ none ∧
    call.val.revokes before = some hash

/-- What is found among the grants is there. -/
theorem getElem?_of_find? {state : PersistedState} {p : String × GrantRecord → Bool} {hash : String}
    (hfind : (state.grants.toList.find? p).map (·.1) = some hash) :
    ∃ record, state.grants.toList.find? p = some (hash, record) ∧
      state.grants[hash]? = some record := by
  obtain ⟨⟨_, record⟩, hentry, rfl⟩ := Option.map_eq_some_iff.mp hfind
  have hmem := List.mem_of_find?_eq_some hentry
  rw [Std.ExtTreeMap.mem_toList_iff_getElem?_eq_some] at hmem
  exact ⟨record, hentry, hmem⟩

theorem revokes_found {call : GrantStoreCall} {state : PersistedState} {hash : String}
    (hrevokes : call.revokes state = some hash) :
    ∃ record : GrantRecord, state.grants[hash]? = some record := by
  cases call with
  | revoke | revokeForTenant =>
      obtain ⟨record, _, hget⟩ := getElem?_of_find? hrevokes
      exact ⟨record, hget⟩
  | _ => cases hrevokes

theorem revokeMatching_dead {state next : PersistedState} {grantId hash : String}
    {organizationId : Option String} {found : Bool}
    (hfind : (state.grants.toList.find? fun entry => entry.2.grantId = grantId ∧
      organizationId.all (entry.2.organizationId = ·)).map (·.1) = some hash)
    (h : GrantStore.revokeMatching grantId organizationId state = .ok (found, next)) :
    Dead hash next := by
  obtain ⟨record, hentry, _⟩ := getElem?_of_find? hfind
  obtain ⟨_, h⟩ := GrantStore.mutateState_eq_ok_iff.mp h
  simp only [hentry, Except.ok.injEq, Prod.mk.injEq] at h
  obtain ⟨_, rfl⟩ := h
  intro record' hget
  rw [Std.ExtTreeMap.getElem?_insert_self] at hget
  obtain rfl := Option.some.inj hget
  rfl

/-- The grant that a revocation finds is revoked in what it writes. -/
theorem revokes_dead {call : GrantStoreCall} {state next : PersistedState} {draws : StoreDraws}
    {hash : String} (hrevokes : call.revokes state = some hash)
    (h : call.onState P draws state = .ok next) : Dead hash next := by
  cases call with
  | revoke grantId =>
      obtain ⟨found, h⟩ := GrantStoreCall.written_eq_ok.mp h
      refine revokeMatching_dead ?_ h
      simpa only [GrantStoreCall.revokes, Option.all_none, and_true] using hrevokes
  | revokeForTenant grantId organizationId =>
      obtain ⟨found, h⟩ := GrantStoreCall.written_eq_ok.mp h
      obtain ⟨_, _, h⟩ := bind_eq_ok.mp h
      refine revokeMatching_dead ?_ h
      simpa only [GrantStoreCall.revokes, Option.all_some, decide_eq_true_eq] using hrevokes
  | _ => cases hrevokes

/-- Nobody works on a state in which the grant is valid. -/
structure Buried (w : World (storeSystem (grants P) windows)) (hash : String) : Prop where
  file : ∀ state : PersistedState, w.shared.target = some (some state) → Dead hash state
  inside : ∀ (j : ℕ) (state : PersistedState), (progresses w.log j).inside = true →
    (progresses w.log j).seen = some state → (progresses w.log j).written = none → Dead hash state

theorem revoked_step (hw : Reachable (· = files) mayStart w) (hstep : Step mayStart w w')
    {hash : String} (h : Revoked w' hash) :
    Revoked w hash ∨ ∃ (i : ℕ) (call : (grants P).Call) (before state : PersistedState),
      Puts w w' i state ∧ entryOf w i = .call call ∧ (progresses w.log i).seen = some before ∧
        call.val.revokes before = some hash := by
  obtain ⟨i, call, before, hentry, hseen, hwritten, hrevokes⟩ := h
  rcases written_cases hw hstep hwritten with hold | ⟨state, hputs⟩
  · obtain ⟨_, hsameSeen, hsameEntry⟩ := written_of_step hw hstep hold
    exact .inl ⟨i, call, before, hsameEntry.symm.trans hentry, hsameSeen.symm.trans hseen, hold,
      hrevokes⟩
  · exact .inr ⟨i, call, before, state, hputs, hputs.entry.symm.trans hentry,
      hputs.seen.symm.trans hseen, hrevokes⟩

/-- What is revoked stays so, since nobody issues its token again. -/
theorem Buried.step {hash : String} (h : Buried w hash) (hw : Reachable (· = files) mayStart w)
    (hstep : Step mayStart w w') (hfresh : TokensDiffer files w) (hrevoked : Revoked w hash) :
    Buried w' hash where
  file state htarget := by
    rcases target_step hw hstep with hsame | hnone | ⟨i, found, hputs⟩
    · rw [hsame] at htarget
      exact h.file state htarget
    · rw [hnone] at htarget
      cases htarget
    obtain rfl : found = state :=
      Option.some.inj (Option.some.inj (hputs.target.symm.trans htarget))
    cases hentry : entryOf w i with
    | openStore =>
        intro record hget
        rw [(hputs.fresh_of_open hentry).1] at hget
        simp at hget
    | call call =>
        obtain ⟨before, draws, hinside, hseen, hdrawn, hstate⟩ := hputs.onState hentry
        intro record hget
        rcases (GrantStoreCall.onState_evolves hstate).grants hash record hget with
          hissued | ⟨earlier, hearlier, hkept⟩
        · -- the process would be the one that has issued the grant, but it has not written
          obtain ⟨k, revocation, read, hrevokes, hread, hdone, hfinds⟩ := hrevoked
          have hissues : IssuesToken w i hash := ⟨call, draws, hentry, hdrawn, hissued⟩
          obtain ⟨found, hfound⟩ := revokes_found hfinds
          rcases originates_of_reachable hw read hash found (.inr ⟨k, hread⟩) hfound with
            ⟨first, record, hfirst, hgrant⟩ | ⟨j, hissued', hwritten⟩
          · rw [hfresh.new i hash first hissues hfirst] at hgrant
            cases hgrant
          · rw [hfresh.once j i hash hissued' hissues] at hwritten
            exact absurd hputs.fresh hwritten
        · exact hkept (h.inside i before hinside hseen hputs.fresh earlier hearlier)
  inside j state hinside hseen hwritten := by
    have hfreshBefore : (progresses w.log j).written = none := by
      by_contra hold
      rw [(written_of_step hw hstep hold).1] at hwritten
      exact hold hwritten
    rcases step_cases hw hstep with ⟨hlog, _⟩ | ⟨i, e, hmoves⟩
    · rw [hlog] at hinside hseen
      exact h.inside j state hinside hseen hfreshBefore
    · rcases hmoves.seen hseen with hold | ⟨_, htarget, _⟩
      · rcases hmoves.inside hinside with hwas | hnone
        · exact h.inside j state hwas hold hfreshBefore
        · rw [hnone] at hseen
          cases hseen
      · exact h.file state htarget

/-- The revocation itself leaves nobody who works on an older state. -/
theorem Buried.of_revocation {i : ℕ} {call : (grants P).Call} {before state : PersistedState}
    {hash : String} (hw : Reachable (· = files) mayStart w) (hstep : Step mayStart w w')
    (hputs : Puts w w' i state) (hentry : entryOf w i = .call call)
    (hread : (progresses w.log i).seen = some before)
    (hrevokes : call.val.revokes before = some hash) :
    Buried w' hash where
  file found htarget := by
    obtain rfl : state = found :=
      Option.some.inj (Option.some.inj (hputs.target.symm.trans htarget))
    obtain ⟨before', draws, _, hread', _, hstate⟩ := hputs.onState hentry
    obtain rfl : before = before' := Option.some.inj (hread.symm.trans hread')
    exact revokes_dead hrevokes hstate
  inside j found hinside _ hfresh := by
    obtain ⟨_, _, hholds, _⟩ := hputs.onState hentry
    have hwritten := hputs.written
    rw [← hputs.inside] at hholds
    have hkept := kept_of_reachable (hw.steps (.single hstep))
    rw [hkept.alone i j hholds hinside, hfresh] at hwritten
    cases hwritten

theorem buried_of_revoked (hw : Reachable (· = files) mayStart w) (hfresh : TokensDiffer files w)
    {hash : String} (h : Revoked w hash) : Buried w hash := by
  suffices hall : TokensDiffer files w → Revoked w hash → Buried w hash from hall hfresh h
  refine Reachable.induction (P := fun w : World (storeSystem (grants P) windows) =>
    TokensDiffer files w → Revoked w hash → Buried w hash) hw ?_ ?_
  · rintro s - - ⟨i, call, before, hentry, -⟩
    cases hentry
  intro w w' hw ih hstep hfresh h
  have hfreshBefore := hfresh.of_step hw hstep
  rcases revoked_step hw hstep h with hold |
    ⟨i, call, before, state, hputs, hentry, hread, hrevokes⟩
  · exact (ih hfreshBefore hold).step hw hstep hfreshBefore hold
  · exact .of_revocation hw hstep hputs hentry hread hrevokes

/-- A revocation is not forgotten. -/
theorem revoked_of_step (hw : Reachable (· = files) mayStart w) (hstep : Step mayStart w w')
    {hash : String} (h : Revoked w hash) : Revoked w' hash := by
  obtain ⟨i, call, before, hentry, hseen, hwritten, hrevokes⟩ := h
  obtain ⟨hsame, hsameSeen, hsameEntry⟩ := written_of_step hw hstep hwritten
  exact ⟨i, call, before, hsameEntry.trans hentry, hsameSeen.trans hseen,
    hsame ▸ hwritten, hrevokes⟩

/-! ### Validating a token -/

namespace GrantStoreCall

/-- The token that a call validates. -/
def validated : GrantStoreCall → Option String
  | .validate token _ _ => some token
  | .validateForTenant token _ _ _ _ => some token
  | _ => none

/-- A call that revokes a grant. -/
def Revokes (call : GrantStoreCall) : Prop :=
  (∃ grantId, call = .revoke grantId) ∨
    ∃ grantId organizationId, call = .revokeForTenant grantId organizationId

/-- Only a grant that is not revoked is validated. -/
theorem validated_alive {call : GrantStoreCall} {token : String}
    {query : PersistedState → Except AuthError GrantStoreAnswer} {state : PersistedState}
    {answer : GrantStoreAnswer} (hvalidated : call.validated = some token)
    (htask : call.task P = .query query) (hanswer : query state = .ok answer) :
    ¬ Dead (GrantStore.tokenHashHex P token) state := by
  have halive : ∀ {scope : String} {now : ℕ} {record : GrantRecord},
      GrantStore.validate P token scope now state = .ok record →
        ¬ Dead (GrantStore.tokenHashHex P token) state := by
    intro scope now record h hdead
    obtain ⟨_, hget, hrevoked, _⟩ := GrantStore.validate_eq_ok_iff.mp h
    rw [hdead record hget] at hrevoked
    cases hrevoked
  cases call with
  | validate token' scope now =>
      obtain rfl := Option.some.inj hvalidated
      obtain ⟨_, htask⟩ := StoreTask.after_eq_query.mp htask
      obtain rfl := StoreTask.query.inj htask
      obtain ⟨record, h, _⟩ := map_eq_ok.mp hanswer
      exact halive h
  | validateForTenant token' scope organizationId workspaceId now =>
      obtain rfl := Option.some.inj hvalidated
      obtain ⟨_, htask⟩ := StoreTask.after_eq_query.mp htask
      obtain rfl := StoreTask.query.inj htask
      obtain ⟨record, h, _⟩ := map_eq_ok.mp hanswer
      obtain ⟨found, h, _⟩ := bind_eq_ok.mp h
      exact halive h
  | _ => cases hvalidated

/-- To validate is to ask. -/
theorem task_of_validated {call : GrantStoreCall} {token : String}
    (hvalidated : call.validated = some token) :
    (∀ answer, call.task P ≠ .done (.ok answer)) ∧ ∀ mutate, call.task P ≠ .change mutate := by
  cases call with
  | validate | validateForTenant => constructor <;> intro x <;> simp [task]
  | _ => cases hvalidated

/-- To revoke is to change the state. -/
theorem task_of_revokes {call : GrantStoreCall} (hcall : call.Revokes) :
    (∀ answer, call.task P ≠ .done (.ok answer)) ∧ ∀ query, call.task P ≠ .query query := by
  rcases hcall with ⟨grantId, rfl⟩ | ⟨grantId, organizationId, rfl⟩
  · constructor <;> intro x <;> simp [task]
  · constructor <;> intro x <;> simp [task]

/-- A revocation that returns true has found a grant. -/
theorem revokes_of_true {call : GrantStoreCall} (hcall : call.Revokes)
    {mutate : StoreDraws → PersistedState → Except AuthError (GrantStoreAnswer × PersistedState)}
    {draws : StoreDraws} {state next : PersistedState} (htask : call.task P = .change mutate)
    (h : mutate draws state = .ok (.found true, next)) :
    ∃ hash, call.revokes state = some hash := by
  have hfinds : ∀ {grantId : String} {organizationId : Option String},
      GrantStore.revokeMatching grantId organizationId state = .ok (true, next) →
      ∃ hash, (state.grants.toList.find? fun entry => entry.2.grantId = grantId ∧
        organizationId.all (entry.2.organizationId = ·)).map (·.1) = some hash := by
    intro grantId organizationId h
    obtain ⟨_, h⟩ := GrantStore.mutateState_eq_ok_iff.mp h
    split at h
    case h_1 => exact absurd (congrArg Prod.fst (Except.ok.inj h)) Bool.false_ne_true
    case h_2 hash record hfind => exact ⟨hash, by rw [hfind]; rfl⟩
  rcases hcall with ⟨grantId, rfl⟩ | ⟨grantId, organizationId, rfl⟩
  · obtain rfl := StoreTask.change.inj htask
    obtain ⟨found, h, hanswer⟩ := answering_eq_ok.mp h
    obtain rfl : found = true := by injection hanswer
    obtain ⟨hash, hhash⟩ := hfinds h
    refine ⟨hash, ?_⟩
    simpa only [GrantStoreCall.revokes, Option.all_none, and_true] using hhash
  · obtain ⟨_, htask⟩ := StoreTask.after_eq_change.mp htask
    obtain rfl := StoreTask.change.inj htask
    obtain ⟨found, h, hanswer⟩ := answering_eq_ok.mp h
    obtain rfl : found = true := by injection hanswer
    obtain ⟨_, _, h⟩ := bind_eq_ok.mp h
    obtain ⟨hash, hhash⟩ := hfinds h
    refine ⟨hash, ?_⟩
    simpa only [GrantStoreCall.revokes, Option.all_some, decide_eq_true_eq] using hhash

end GrantStoreCall

/-- The processes that begin after a revocation see the grant revoked. -/
theorem later_sees_dead {w₁ w₂ : World (storeSystem (grants P) windows)} {hash : String}
    (hw₁ : Reachable (· = files) mayStart w₁) (hrevoked : Revoked w₁ hash)
    (hsteps : Relation.ReflTransGen (Step mayStart) w₁ w₂) (hfresh : TokensDiffer files w₂) :
    Revoked w₂ hash ∧ ∀ (j : ℕ) (state : PersistedState), w₁.calls j = none →
      (progresses w₂.log j).seen = some state → Dead hash state := by
  induction hsteps with
  | refl =>
      refine ⟨hrevoked, fun j state hj hseen => ?_⟩
      have hread := Log.mem_of.mp (read_of_seen hseen)
      obtain ⟨c, hc⟩ := hw₁.consistent.started j _ hread
      rw [hj] at hc
      cases hc
  | @tail w w' hsteps hstep ih =>
      have hw := hw₁.steps hsteps
      have hfreshBefore := hfresh.of_step hw hstep
      obtain ⟨hstill, hsees⟩ := ih hfreshBefore
      refine ⟨revoked_of_step hw hstep hstill, fun j state hj hseen => ?_⟩
      rcases step_cases hw hstep with ⟨hlog, _⟩ | ⟨i, e, hmoves⟩
      · rw [hlog] at hseen
        exact hsees j state hj hseen
      · rcases hmoves.seen hseen with hold | ⟨_, htarget, _⟩
        · exact hsees j state hj hold
        · exact (buried_of_revoked hw hfreshBefore hstill).file state htarget

/-- Once a revocation has returned true, no validation of the token of the
grant that it found, begun later by any handle, returns Ok. -/
theorem revoked_for_good {w₁ : World (storeSystem (grants P) windows)}
    (hw₁ : Reachable (· = files) anyEntry w₁) {i : ℕ} {c : Call (storeSystem (grants P) windows)}
    {call : (grants P).Call} (hc : w₁.calls i = some c) (hentry : c.entry = .call call)
    (hcall : call.val.Revokes) (hreturned : c.rest = some (.done (.ok (.answered (.found true))))) :
    ∃ (before : PersistedState) (hash : String), (progresses w₁.log i).seen = some before ∧
      call.val.revokes before = some hash ∧
      ∀ w₂, Relation.ReflTransGen (Step anyEntry) w₁ w₂ → TokensDiffer files w₂ →
        ∀ (j : ℕ) (c' : Call (storeSystem (grants P) windows)) (call' : (grants P).Call)
          (token : String) (answer : GrantStoreAnswer),
          w₁.calls j = none → w₂.calls j = some c' → c'.entry = .call call' →
          call'.val.validated = some token → GrantStore.tokenHashHex P token = hash →
          c'.rest ≠ some (.done (.ok (.answered answer))) := by
  obtain ⟨hnotDone, hnotQuery⟩ := GrantStoreCall.task_of_revokes (P := P) hcall
  rcases outcome_of_returned hw₁ hc hentry hreturned with ⟨hdone, _⟩ | ⟨query, _, hquery, _⟩ |
    ⟨mutate, before, draws, next, htask, hseen, hdrawn, hmutate, hwritten⟩
  · exact absurd hdone (hnotDone _)
  · exact absurd hquery (hnotQuery query)
  obtain ⟨hash, hrevokes⟩ := GrantStoreCall.revokes_of_true hcall htask hmutate
  refine ⟨before, hash, hseen, hrevokes, ?_⟩
  have hrevoked : Revoked w₁ hash := by
    refine ⟨i, call, before, ?_, hseen, ?_, hrevokes⟩
    · rw [entryOf, hc]
      exact hentry
    · rw [hwritten]
      exact Option.some_ne_none next
  rintro w₂ hsteps hfresh j c' call' token answer hnew hc' hentry' hvalidated rfl hvalid
  have hsees := (later_sees_dead hw₁ hrevoked hsteps hfresh).2 j
  have hw₂ := hw₁.steps hsteps
  obtain ⟨hnotDone, hnotChange⟩ := GrantStoreCall.task_of_validated (P := P) hvalidated
  rcases outcome_of_returned hw₂ hc' hentry' hvalid with ⟨hdone, _⟩ |
    ⟨query, state, hquery, hread, hgranted, _⟩ | ⟨mutate, _, _, _, hchange, _⟩
  · exact hnotDone answer hdone
  · exact GrantStoreCall.validated_alive hvalidated hquery hgranted (hsees state hnew hread)
  · exact hnotChange mutate hchange

/-! ### A grant is revoked and then presented -/

namespace RevocationSample

def draws : StoreDraws where
  deviceId := Vector.replicate 16 0
  tokenBytes := Vector.replicate 32 0
  grantId := Vector.replicate 16 0
  codeBytes := Vector.replicate 20 0
  pairingId := Vector.replicate 16 0

def record : GrantRecord where
  grantId := "g"
  organizationId := "o"
  actorId := "a"
  workspaceIds := ∅
  scopes := {"files.read"}
  issuedAtUnixMs := 0
  expiresAtUnixMs := 1000
  revoked := false

def state : PersistedState where
  version := 1
  deviceId := "d"
  grants := (∅ : Std.ExtTreeMap String GrantRecord).insert
    "e3b98a4da31a127d4bde6e43033f66ba274cab0eb7eb1c70ec41402bf6273dd8" record

def fileOfOne : StoreFiles (grants reference) := ⟨some (some state), false, fun _ => none⟩

def revoke : (grants reference).Call := ⟨.revoke "g", nofun⟩

def validate : (grants reference).Call := ⟨.validate "t" "files.read" 1, nofun⟩

def revoked : World (storeSystem (grants reference) true) :=
  ((initial (S := storeSystem (grants reference) true) fileOfOne).start 0
    (StoreEntry.call revoke)).ticks (workingFiles draws 0) [0, 0, 0, 0, 0, 0, 0, 0, 0, 0]

def presented : World (storeSystem (grants reference) true) :=
  (revoked.start 1 (StoreEntry.call validate)).ticks (workingFiles draws 1) [1, 1, 1, 1]

theorem revoked_reachable : Reachable (· = fileOfOne) anyEntry revoked := by
  have hempty : Reachable (· = fileOfOne) anyEntry
      (initial (S := storeSystem (grants reference) true) fileOfOne) := reachable_initial rfl
  exact (hempty.start rfl trivial).ticks (workingFiles_sound _ _) _

theorem presented_steps : Relation.ReflTransGen (Step anyEntry) revoked presented :=
  .head (.start rfl trivial) (ticks_steps (workingFiles_sound _ _) _ _)

theorem no_issues (i : ℕ) (hash : String) : ¬ IssuesToken presented i hash := by
  rintro ⟨call, drawn, hentry, _, hissued⟩
  by_cases h0 : i = 0
  · subst h0
    obtain rfl : revoke = call := StoreEntry.call.inj hentry
    cases hissued
  by_cases h1 : i = 1
  · subst h1
    obtain rfl : validate = call := StoreEntry.call.inj hentry
    cases hissued
  · have hnone : presented.calls i = none := by
      have hlate : i ∉ [1, 1, 1, 1] := by simpa using h1
      have hearly : i ∉ [0, 0, 0, 0, 0, 0, 0, 0, 0, 0] := by simpa using h0
      refine (ticks_calls_of_notMem _ hlate).trans ((Function.update_of_ne h1 _ _).trans ?_)
      exact (ticks_calls_of_notMem _ hearly).trans (Function.update_of_ne h0 _ _)
    rw [entryOf, hnone] at hentry
    cases hentry

theorem tokensDiffer : TokensDiffer fileOfOne presented where
  once i _ hash hi := absurd hi (no_issues i hash)
  new i hash _ hi := absurd hi (no_issues i hash)

theorem hash_of_token : GrantStore.tokenHashHex reference "t" =
    "e3b98a4da31a127d4bde6e43033f66ba274cab0eb7eb1c70ec41402bf6273dd8" := by
  decide +kernel

end RevocationSample

open RevocationSample in
/-- The token of the revoked grant is presented, and is not taken. -/
theorem revoked_for_good_presented : ∃ c, presented.calls 1 = some c ∧
    c.entry = .call validate ∧ ∀ answer, c.rest ≠ some (.done (.ok (.answered answer))) := by
  have hentry : ((revoked.calls 0).get rfl).entry = .call revoke := rfl
  obtain ⟨before, hash, hseen, hrevokes, hlater⟩ :=
    revoked_for_good revoked_reachable (i := 0) rfl hentry (.inl ⟨"g", rfl⟩) rfl
  obtain rfl : state = before := Option.some.inj hseen
  obtain rfl := Option.some.inj hrevokes
  exact ⟨_, rfl, rfl, fun answer =>
    hlater presented presented_steps tokensDiffer 1 _ validate "t"
      answer rfl rfl rfl rfl hash_of_token⟩

end VorCommander
