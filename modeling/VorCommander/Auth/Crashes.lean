import VorCommander.Auth.StateSteps
import VorCommander.Auth.Stores

/-!
What a process leaves behind that dies.

A process that changes the state works alone on a file that nobody holds, and
dies after any of its steps. Who comes later is told what it would be told by
a file with the state before or the state after, unless the dead process has
left its lock file, which nobody takes over, or has removed the state file and
not yet put the new one there.
-/

namespace VorCommander

open Crypto Steps Steps.Program Steps.World

variable {S : Store}

/-! ### Who comes later -/

/-- What a process is told that runs alone on these files. -/
def told (windows : Bool) (draws : S.Draws) (temp : ℕ) (entry : StoreEntry S) (s : StoreFiles S) :
    Except AuthError (StoreReply S) :=
  (exec (workingFiles draws temp) (S.body windows entry) s).1

/-- Files with a state that nobody works on. -/
def idleFiles (state : S.State) (temps : ℕ → Option (Option S.State)) : StoreFiles S :=
  ⟨some (some state), false, temps⟩

/-- Later processes see the state before, or they see a state that the change
makes of it, and do with it what they do. -/
def Recovers (windows : Bool) (before : S.State)
    (mutate : S.Draws → S.State → Except AuthError (S.Answer × S.State))
    (s : StoreFiles S) : Prop :=
  ∃ state, (state = before ∨ ∃ drawn answer, mutate drawn before = .ok (answer, state)) ∧
    ∀ entry draws temp,
      told windows draws temp entry s = told windows draws temp entry (idleFiles state s.temps)

section Exec

variable (draws : S.Draws) (temp : ℕ) {s : StoreFiles S} {windows : Bool}

theorem exec_createLock (s : StoreFiles S) :
    exec (workingFiles draws temp) StateFile.createLock.run s =
      (.ok (if s.lock = true then .alreadyExists else .created), { s with lock := true }) := by
  obtain ⟨target, lock, temps⟩ := s
  cases lock with
  | true => rfl
  | false => rfl

/-- A lock file that is not removed stops everybody. -/
theorem exec_acquireLock_held (hlock : s.lock = true) (attempts : ℕ) :
    (exec (workingFiles draws temp) (S.acquireLock attempts).run s).1 = .error .lockTimeout := by
  induction attempts generalizing s with
  | zero => rfl
  | succ attempts ih =>
      rw [Store.acquireLock, exec_exceptT_bind, exec_createLock, if_pos hlock, execThen_ok]
      exact ih rfl

theorem exec_acquireLock_free (hlock : s.lock = false) (attempts : ℕ) :
    exec (workingFiles draws temp) (S.acquireLock (attempts + 1)).run s =
      (.ok (), { s with lock := true }) := by
  rw [Store.acquireLock, exec_exceptT_bind, exec_createLock, hlock, if_neg Bool.false_ne_true,
    execThen_ok]
  rfl

/-- What is done while the lock is held. -/
theorem exec_locked_held {α : Type} (body : StateFileM S α) (hlock : s.lock = true) :
    (exec (workingFiles draws temp) (S.locked body).run s).1 = .error .lockTimeout := by
  have henter : exec (workingFiles draws temp) StateFile.enter.run s = (.ok (), s) := rfl
  have hheld := exec_acquireLock_held draws temp hlock Store.lockAttempts
  rw [Store.locked, exec_exceptT_bind, henter, execThen_ok, exec_exceptT_bind]
  rcases hrun : exec (workingFiles draws temp) (S.acquireLock Store.lockAttempts).run s with
    ⟨e | _, s'⟩
  · rw [hrun] at hheld
    obtain rfl := Except.error.inj hheld
    rfl
  · rw [hrun] at hheld
    cases hheld

theorem exec_locked_free {α : Type} (body : StateFileM S α) (hlock : s.lock = false) :
    (exec (workingFiles draws temp) (S.locked body).run s).1 =
      (exec (workingFiles draws temp) body.run { s with lock := true }).1 := by
  have henter : exec (workingFiles draws temp) StateFile.enter.run s = (.ok (), s) := rfl
  have hfree := exec_acquireLock_free draws temp hlock 99
  rw [Store.locked, exec_exceptT_bind, henter, execThen_ok, exec_exceptT_bind, Store.lockAttempts,
    hfree, execThen_ok, exec_exceptT_bind, exec_exceptT_lift, execThen_ok]
  rfl

variable {call : S.Call} {query : S.State → Except AuthError S.Answer}

theorem run_of_query (htask : S.task call = .query query) :
    S.run windows call = S.locked (do check (query (← StateFile.read))) := by
  simp only [Store.run, htask, Store.queryState]

/-- Nobody gets past a lock file that is left behind. -/
theorem told_of_lock (htask : S.task call = .query query) (hlock : s.lock = true) :
    told windows draws temp (.call call) s = .error .lockTimeout := by
  rw [told, Store.body, exec_map, run_of_query htask, exec_locked_held draws temp _ hlock]
  rfl

/-- A question is answered from the state in the file. -/
theorem told_of_idle (htask : S.task call = .query query) (state : S.State)
    (temps : ℕ → Option (Option S.State)) :
    told windows draws temp (.call call) (idleFiles state temps) =
      Except.map StoreReply.answered (query state) := by
  rw [told, Store.body, exec_map, run_of_query htask, exec_locked_free draws temp _ rfl]
  rfl

/-- Without a state file there is nothing to answer from. -/
theorem told_of_missing (htask : S.task call = .query query) (hlock : s.lock = false)
    (htarget : s.target = none) : told windows draws temp (.call call) s = .error .io := by
  obtain ⟨target, lock, temps⟩ := s
  obtain rfl := htarget
  rw [told, Store.body, exec_map, run_of_query htask, exec_locked_free draws temp _ hlock]
  rfl

end Exec

/-- An error that does not come from the files. -/
def Stated (e : AuthError) : Prop := e ≠ .lockTimeout ∧ e ≠ .io

/-- A call that asks, with its question. -/
structure Probe (S : Store) where
  call : S.Call
  query : S.State → Except AuthError S.Answer
  draws : S.Draws
  task : S.task call = .query query
  stated : ∀ state, FailsWith Stated (query state)

/-- The files that a process may leave behind: no lock file, and a state. -/
def Usable (s : StoreFiles S) : Prop := s.lock = false ∧ s.target ≠ none

/-- From files that are not usable nobody recovers. -/
theorem Probe.usable (probe : Probe S) {windows : Bool} {before : S.State}
    {mutate : S.Draws → S.State → Except AuthError (S.Answer × S.State)} {s : StoreFiles S}
    (h : Recovers windows before mutate s) : Usable s := by
  obtain ⟨state, _, hsame⟩ := h
  have htold := hsame (.call probe.call) probe.draws 0
  rw [told_of_idle _ _ probe.task] at htold
  have hunstated : ∀ e, Except.map StoreReply.answered (probe.query state) =
      (.error e : Except AuthError (StoreReply S)) → Stated e := by
    intro e he
    cases hquery : probe.query state with
    | ok answer =>
        rw [hquery] at he
        cases he
    | error e' =>
        rw [hquery] at he
        obtain rfl := Except.error.inj he
        exact probe.stated state e' hquery
  have hlock : s.lock = false := by
    by_contra hheld
    rw [told_of_lock _ _ probe.task (Bool.eq_true_of_not_eq_false hheld)] at htold
    exact (hunstated _ htold.symm).1 rfl
  refine ⟨hlock, fun hmissing => ?_⟩
  rw [told_of_missing _ _ probe.task hlock hmissing] at htold
  exact (hunstated _ htold.symm).2 rfl

/-! ### The process that dies -/

/-- This call is all that is ever started. -/
def Alone {windows : Bool} (call : S.Call) (w : World (storeSystem S windows))
    (entry : StoreEntry S) : Prop :=
  entry = .call call ∧ ∀ i, w.calls i = none

section Runs

variable {windows : Bool} {files : StoreFiles S} {call : S.Call} {before : S.State}
  {mutate : S.Draws → S.State → Except AuthError (S.Answer × S.State)}
  {w w' : World (storeSystem S windows)}

/-- One process makes one change of a state that it has read. -/
structure Changing (before : S.State)
    (mutate : S.Draws → S.State → Except AuthError (S.Answer × S.State))
    (w : World (storeSystem S windows)) : Prop where
  one : ∀ i j c c', w.calls i = some c → w.calls j = some c' → i = j
  seen : ∀ i state, (progresses w.log i).seen = some state → state = before
  target : ∀ content, w.shared.target = some content → content = some before ∨
    ∃ i drawn answer state, (progresses w.log i).written ≠ none ∧
      mutate drawn before = .ok (answer, state) ∧ content = some state

/-- A process that is there after a step was there before, unless it is the
one that is started. -/
theorem started_step (hstep : Step (Alone call) w w') :
    (∀ i c, w'.calls i = some c → ∃ c', w.calls i = some c') ∨
      ∃ i, ∀ j c, w'.calls j = some c → j = i := by
  cases hstep with
  | @start i entry hfresh hmay =>
      refine .inr ⟨i, fun j c hj => ?_⟩
      by_contra hne
      have hsame : (w.start i entry).calls j = w.calls j := Function.update_of_ne hne _ _
      rw [hsame, hmay.2 j] at hj
      cases hj
  | @commit i c op next reply s hc hrest hcommit =>
      refine .inl fun j c' hj => ?_
      by_cases hne : j = i
      · exact ⟨c, hne ▸ hc⟩
      · have hsame : (w.commit i c ⟨op, reply⟩ (next reply) s).calls j = w.calls j :=
          Function.update_of_ne hne _ _
        exact ⟨c', hsame ▸ hj⟩
  | @crash i c hc =>
      refine .inl fun j c' hj => ?_
      by_cases hne : j = i
      · exact ⟨c, hne ▸ hc⟩
      · have hsame : (w.crash i c).calls j = w.calls j := Function.update_of_ne hne _ _
        exact ⟨c', hsame ▸ hj⟩

theorem entry_of_alone (hw : Reachable (· = files) (Alone call) w) {i : ℕ}
    {c : Call (storeSystem S windows)} (hc : w.calls i = some c) :
    c.entry = StoreEntry.call call := by
  exact hw.entry
    (P := fun (entry : (storeSystem S windows).Entry) _ => entry = StoreEntry.call call)
    (fun _ _ _ hmay => hmay.1) (fun _ _ _ _ => id) hc

theorem Changing.step (h : Changing before mutate w)
    (hw : Reachable (· = files) (Alone call) w) (hstep : Step (Alone call) w w')
    (htask : S.task call = .change mutate) : Changing before mutate w' where
  one i j c c' hi hj := by
    rcases started_step hstep with hsame | ⟨k, honly⟩
    · obtain ⟨d, hd⟩ := hsame i c hi
      obtain ⟨d', hd'⟩ := hsame j c' hj
      exact h.one i j d d' hd hd'
    · rw [honly i c hi, honly j c' hj]
  seen i state hseen := by
    rcases step_cases hw hstep with ⟨hlog, _⟩ | ⟨k, e, hmoves⟩
    · rw [hlog] at hseen
      exact h.seen i state hseen
    · rcases hmoves.seen hseen with hold | ⟨rfl, htarget, _, hfresh⟩
      · exact h.seen i state hold
      · rcases h.target _ htarget with hbefore | ⟨j, _, _, _, hwritten, _⟩
        · exact Option.some.inj hbefore
        · -- nobody else is there, and a process reads before it writes
          have hprogress : progresses w.log j ≠ {} := by
            intro hempty
            rw [hempty] at hwritten
            exact hwritten rfl
          obtain ⟨c, hc⟩ := hmoves.started
          obtain ⟨c', hc'⟩ := started_of_progress hw hprogress
          rw [h.one j i c' c hc' hc] at hwritten
          exact absurd hfresh hwritten
  target content htarget := by
    rcases target_step hw hstep with hsame | hnone | ⟨i, state, hputs⟩
    · rw [hsame] at htarget
      rcases h.target content htarget with hbefore | ⟨j, drawn, answer, state, hwritten, hmade⟩
      · exact .inl hbefore
      · refine .inr ⟨j, drawn, answer, state, ?_, hmade⟩
        rwa [(written_of_step hw hstep hwritten).1]
    · rw [hnone] at htarget
      cases htarget
    · obtain rfl : content = some state :=
        Option.some.inj (htarget.symm.trans hputs.target)
      have hwritten : (progresses w'.log i).written ≠ none := by
        rw [hputs.written]
        exact Option.some_ne_none state
      have hprogress : progresses w'.log i ≠ {} := by
        intro hempty
        rw [hempty] at hwritten
        exact hwritten rfl
      have hw' := hw.steps (.single hstep)
      obtain ⟨c, hc⟩ := started_of_progress hw' hprogress
      have hentry : entryOf w i = .call call := by
        rw [← hputs.entry, entryOf, hc]
        exact entry_of_alone hw' hc
      have hintends := hputs.intends
      rw [hentry] at hintends
      obtain ⟨_, mutate', before', drawn, answer, htask', hseen, _, hmade⟩ := hintends
      obtain rfl : mutate = mutate' := StoreTask.change.inj (htask.symm.trans htask')
      obtain rfl := h.seen i before' hseen
      exact .inr ⟨i, drawn, answer, state, hwritten, hmade, rfl⟩

theorem changing_of_reachable (hw : Reachable (· = files) (Alone call) w)
    (hbefore : files.target = some (some before)) (htask : S.task call = .change mutate) :
    Changing before mutate w := by
  refine Reachable.induction (P := Changing before mutate) hw ?_ ?_
  · rintro s rfl
    refine ⟨?_, ?_, ?_⟩
    · intro i j c c' hi
      cases hi
    · intro i state hseen
      cases hseen
    · intro content htarget
      exact .inl (Option.some.inj (htarget.symm.trans hbefore))
  · exact fun w w' hw ih hstep => ih.step hw hstep htask

/-- From usable files later processes recover. -/
theorem recovers_of_usable (hw : Reachable (· = files) (Alone call) w)
    (hbefore : files.target = some (some before)) (htask : S.task call = .change mutate)
    (husable : Usable w.shared) : Recovers windows before mutate w.shared := by
  obtain ⟨hlock, hmissing⟩ := husable
  obtain ⟨content, htarget⟩ := Option.ne_none_iff_exists'.mp hmissing
  have hfiles : ∀ state, content = some state → w.shared = idleFiles state w.shared.temps := by
    rintro state rfl
    rw [idleFiles, ← htarget, ← hlock]
    rfl
  rcases (changing_of_reachable hw hbefore htask).target content htarget with
    hsame | ⟨_, drawn, answer, state, _, hmade, hstate⟩
  · refine ⟨before, .inl rfl, fun entry draws temp => ?_⟩
    rw [← hfiles before hsame]
  · refine ⟨state, .inr ⟨drawn, answer, hmade⟩, fun entry draws temp => ?_⟩
    rw [← hfiles state hstate]

end Runs

/-! ### Both stores -/

theorem stated_validateId (value : String) : FailsWith Stated (validateId value) :=
  .failIf ⟨nofun, nofun⟩

theorem stated_mapError {value : String} :
    FailsWith Stated ((validateId value).mapError fun _ => AuthError.invalidActor) :=
  .mapError fun _ => ⟨nofun, nofun⟩

theorem stated_validatePersistedState (state : PersistedState) :
    FailsWith Stated (validatePersistedState state) :=
  .bind (.failIf ⟨nofun, nofun⟩) fun _ => .forM fun _ =>
    .bind (stated_validateId _) fun _ => .bind stated_mapError fun _ => .failIf ⟨nofun, nofun⟩

theorem stated_forEntries {α : Type} {map : Std.ExtTreeMap String α}
    {validate : String → α → Except AuthError Unit}
    (h : ∀ key value, FailsWith Stated (validate key value)) :
    FailsWith Stated (forEntries map validate) :=
  .forM fun entry => h entry.1 entry.2

theorem stated_validateTenantState (state : TenantPersistedState) :
    FailsWith Stated (validateTenantState state) := by
  have hkey : ∀ {c : Prop} [Decidable c], FailsWith Stated (failIf c AuthError.invalidState) :=
    .failIf ⟨nofun, nofun⟩
  refine .bind hkey fun _ => .bind (stated_forEntries fun key record => ?_) fun _ =>
    .bind (stated_forEntries fun key record => ?_) fun _ =>
    .bind (stated_forEntries fun key record => ?_) fun _ =>
    .bind (stated_forEntries fun key record => ?_) fun _ =>
    .bind (stated_forEntries fun key record => ?_) fun _ =>
    stated_forEntries fun key record => ?_
  · exact .bind (stated_validateId _) fun _ => hkey
  · exact .bind stated_mapError fun _ => hkey
  · exact .bind (stated_validateId _) fun _ => .bind stated_mapError fun _ => hkey
  · exact .bind (stated_validateId _) fun _ => .bind (stated_validateId _) fun _ => hkey
  · exact .bind (stated_validateId _) fun _ => .bind (stated_validateId _) fun _ =>
      .bind hkey fun _ => .failIf ⟨nofun, nofun⟩
  · refine .bind (stated_validateId _) fun _ => .bind ?_ fun _ =>
      .bind (stated_validateId _) fun _ => hkey
    cases record.workspaceId with
    | none => exact .ok ()
    | some workspaceId => exact stated_validateId workspaceId

/-- The device is asked for its name. -/
def grantsProbe (P : Primitives) : Probe (grants P) where
  call := ⟨.deviceId, nofun⟩
  query state := .device <$> GrantStore.deviceId state
  draws := ⟨Vector.replicate 16 0, Vector.replicate 32 0, Vector.replicate 16 0,
    Vector.replicate 20 0, Vector.replicate 16 0⟩
  task := rfl
  stated state := .map (.bind (stated_validatePersistedState state) fun _ => .ok _)

/-- The usage of an organisation is asked for. -/
def tenantsProbe : Probe tenants where
  call := .listUsageForOrg "o"
  query state := .usage <$> TenantStore.listUsageForOrg "o" state
  draws := ()
  task := by
    have hvalid : validateId "o" = .ok () := by decide
    simp only [tenants, TenantStoreRequest.task, hvalid, StoreTask.after]
  stated state := .map (.bind (stated_validateId "o") fun _ =>
    .bind (stated_validateTenantState state) fun _ => .ok _)

/-- Later processes recover from the death of one that changes the state,
exactly if it leaves files that meet the condition. -/
def RecoversExactly (S : Store) (condition : StoreFiles S → Prop) : Prop :=
  ∀ (windows : Bool) (files : StoreFiles S) (before : S.State) (call : S.Call)
    (mutate : S.Draws → S.State → Except AuthError (S.Answer × S.State))
    (w : World (storeSystem S windows)),
    files.target = some (some before) → files.lock = false → S.task call = .change mutate →
    Reachable (· = files) (Alone call) w →
    (Recovers windows before mutate w.shared ↔ condition w.shared)

theorem Probe.recoversExactly (probe : Probe S) : RecoversExactly S Usable := by
  intro windows files before call mutate w hbefore _ htask hw
  exact ⟨probe.usable, recovers_of_usable hw hbefore htask⟩

/-- Both stores recover from a death exactly if the process has left no lock
file and has not taken the state away. -/
theorem recovers_iff_usable (P : Primitives) :
    RecoversExactly (grants P) Usable ∧ RecoversExactly tenants Usable :=
  ⟨(grantsProbe P).recoversExactly, tenantsProbe.recoversExactly⟩

/-! ### A process dies -/

namespace CrashSample

def draws : StoreDraws := (grantsProbe reference).draws

def state : PersistedState where
  version := 1
  deviceId := "d"

def fileOfOne : StoreFiles (grants reference) := ⟨some (some state), false, fun _ => none⟩

def prune : (grants reference).Call := ⟨.pruneExpired 0, nofun⟩

/-- The process dies after some steps. -/
def dead (windows : Bool) (steps : ℕ) : World (storeSystem (grants reference) windows) :=
  ((initial (S := storeSystem (grants reference) windows) fileOfOne).start 0
    (StoreEntry.call prune)).ticks (workingFiles draws 0) (List.replicate steps 0)

theorem dead_reachable (windows : Bool) (steps : ℕ) :
    Reachable (· = fileOfOne) (Alone prune) (dead windows steps) := by
  have hempty : Reachable (· = fileOfOne) (Alone prune)
      (initial (S := storeSystem (grants reference) windows) fileOfOne) := reachable_initial rfl
  exact (hempty.start rfl ⟨rfl, fun _ => rfl⟩).ticks (workingFiles_sound _ _) _

end CrashSample

open CrashSample in
/-- A process that dies once it has created the lock file stops everybody; one
that dies between removing the file and renaming the new one leaves a store
that is opened as an empty one. -/
theorem deaths_not_recovered :
    ¬ RecoversExactly (grants reference) (fun _ => True) ∧
      told false draws 1 .openStore (dead false 9).shared =
        .ok (.opened ((grants reference).fresh draws)) := by
  refine ⟨fun h => ?_, rfl⟩
  have hrecovers := (h true fileOfOne state prune _ (dead true 2) rfl rfl rfl
    (dead_reachable true 2)).mpr trivial
  have hlock := ((grantsProbe reference).usable hrecovers).1
  exact Bool.noConfusion (hlock : true = false)

end VorCommander
