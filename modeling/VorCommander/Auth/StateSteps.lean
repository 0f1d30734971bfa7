import VorCommander.Auth.StateRuns

/-!
What one step does to a store.

A step of a run starts or ends a call, which no file shows, or it is the next
operation of a process. Such an operation leaves the state file alone, or
removes it, or puts a state in place that its process intends to; all that is
said of runs of a store is read off this.
-/

namespace VorCommander

open Steps Steps.Program Steps.World

variable {S : Store}

/-! ### What the log says -/

/-- A step that puts a state in place. -/
def replaces : Event (StateFile S) → Bool
  | ⟨.moveReplace _, .ok _⟩ => true
  | ⟨.rename _, .ok _⟩ => true
  | _ => false

/-- The operations that have put a state in place, the last one first. -/
def writes : Log (StateFile S) → List (ℕ × S.Draws)
  | [] => []
  | (i, e) :: log =>
      match replaces e, (progresses log i).drawn with
      | true, some draws => (i, draws) :: writes log
      | _, _ => writes log

/-- The entry of a process. -/
def entryOf {windows : Bool} (w : World (storeSystem S windows)) (i : ℕ) : StoreEntry S :=
  match w.calls i with
  | some c => c.entry
  | none => .openStore

theorem writes_append (later log : Log (StateFile S)) :
    ∃ more, writes (later ++ log) = more ++ writes log := by
  induction later with
  | nil => exact ⟨[], rfl⟩
  | cons entry later ih =>
      obtain ⟨i, e⟩ := entry
      obtain ⟨more, hmore⟩ := ih
      rw [List.cons_append, writes]
      split
      case h_1 draws _ _ => exact ⟨(i, draws) :: more, by rw [hmore]; rfl⟩
      case h_2 => exact ⟨more, hmore⟩

/-- Only processes that have taken steps have written. -/
theorem mem_of_mem_writes {log : Log (StateFile S)} {op : ℕ × S.Draws} (hop : op ∈ writes log) :
    ∃ e, (op.1, e) ∈ log := by
  induction log with
  | nil => cases hop
  | cons entry log ih =>
      obtain ⟨i, e⟩ := entry
      rw [writes] at hop
      split at hop
      case h_1 =>
          rcases List.mem_cons.mp hop with rfl | hop
          · exact ⟨e, List.mem_cons_self⟩
          · obtain ⟨e', he'⟩ := ih hop
            exact ⟨e', List.mem_cons_of_mem _ he'⟩
      case h_2 =>
          obtain ⟨e', he'⟩ := ih hop
          exact ⟨e', List.mem_cons_of_mem _ he'⟩

/-- What a process has seen, it has read. -/
theorem read_of_seen {h : History (StateFile S)} {state : S.State}
    (hseen : (progress h).seen = some state) : (⟨.read, .ok state⟩ : Event (StateFile S)) ∈ h := by
  induction h with
  | nil => cases hseen
  | cons e h ih =>
      rw [progress_cons] at hseen
      obtain ⟨op, reply⟩ := e
      cases op with
      | createDir | enter | syncTemp | removeLock => exact List.mem_cons_of_mem _ (ih hseen)
      | draw | targetExists => exact List.mem_cons_of_mem _ (ih hseen)
      | createLock => cases reply <;> exact List.mem_cons_of_mem _ (ih hseen)
      | createTemp => cases reply <;> exact List.mem_cons_of_mem _ (ih hseen)
      | writeTemp | removeTarget | moveReplace | rename =>
          cases reply <;> exact List.mem_cons_of_mem _ (ih hseen)
      | read =>
          cases reply with
          | error e => exact List.mem_cons_of_mem _ (ih hseen)
          | ok found =>
              obtain rfl := Option.some.inj hseen
              exact List.mem_cons_self

/-! ### What a step does to the state file -/

section Step

variable {s s' : StoreFiles S} {P : ℕ → Progress S} {i : ℕ} {windows : Bool} {entry : StoreEntry S}
  {e : Event (StateFile S)}

/-- A step leaves the state file alone, or removes it, or puts the state in
place that its process intends to. -/
inductive TargetStep (windows : Bool) (entry : StoreEntry S) (p : Progress S)
    (e : Event (StateFile S)) (s s' : StoreFiles S) : Prop
  | same : s'.target = s.target → replaces e = false → (p.after e).written = p.written →
      TargetStep windows entry p e s s'
  | removed : s'.target = none → windows = false → p.written = none → p.after e = p →
      replaces e = false → TargetStep windows entry p e s s'
  | replaced (state : S.State) : s'.target = some (some state) → p.written = none →
      p.Intends state entry → p.after e = { p with temp := none, written := some state } →
      replaces e = true → TargetStep windows entry p e s s'

theorem Kept.targetStep (h : Kept s P) (hguarantee : (P i).Guarantees windows entry e.op)
    (hcommit : s.Commit e s') : TargetStep windows entry (P i) e s s' := by
  obtain ⟨op, reply⟩ := e
  cases op with
  | createDir | enter | syncTemp =>
      obtain rfl := hcommit
      exact .same rfl rfl rfl
  | draw =>
      obtain rfl := hcommit
      exact .same rfl rfl rfl
  | targetExists =>
      obtain ⟨rfl, _⟩ := hcommit
      exact .same rfl rfl rfl
  | read =>
      cases reply with
      | error _ =>
          obtain rfl := hcommit
          exact .same rfl rfl rfl
      | ok state =>
          obtain ⟨rfl, _⟩ := hcommit
          exact .same rfl rfl rfl
  | createLock =>
      cases reply with
      | created =>
          obtain ⟨_, rfl⟩ := hcommit
          exact .same rfl rfl rfl
      | alreadyExists =>
          obtain ⟨_, rfl⟩ := hcommit
          exact .same rfl rfl rfl
      | failed =>
          obtain rfl := hcommit
          exact .same rfl rfl rfl
  | removeLock =>
      rcases hcommit with rfl | rfl
      · exact .same rfl rfl rfl
      · exact .same rfl rfl rfl
  | createTemp =>
      cases reply with
      | error _ =>
          obtain rfl := hcommit
          exact .same rfl rfl rfl
      | ok temp =>
          obtain ⟨_, rfl⟩ := hcommit
          exact .same rfl rfl rfl
  | writeTemp temp state =>
      cases reply with
      | error _ =>
          obtain rfl := hcommit
          exact .same rfl rfl rfl
      | ok _ =>
          obtain rfl := hcommit
          exact .same rfl rfl rfl
  | removeTarget =>
      obtain ⟨hwindows, hwritten, _⟩ := hguarantee
      cases reply with
      | error _ =>
          obtain rfl := hcommit
          exact .same rfl rfl rfl
      | ok _ =>
          obtain rfl := hcommit
          exact .removed rfl hwindows hwritten rfl rfl
  | moveReplace temp | rename temp =>
      obtain ⟨state, htemp, hwritten, hintends⟩ := hguarantee
      cases reply with
      | error _ =>
          obtain rfl := hcommit
          exact .same rfl rfl rfl
      | ok _ =>
          obtain ⟨content, hcontent, rfl⟩ := hcommit
          -- the file holds what its process wrote
          obtain rfl : some state = content :=
            Option.some.inj ((h.temp i temp (some state) htemp).symm.trans hcontent)
          refine .replaced state rfl hwritten hintends ?_ rfl
          simp only [Progress.after, htemp, Option.bind_some]

/-- What a process has seen, it has read; it reads before it writes, and calls
read inside of the lock. -/
theorem seen_step (hguarantee : (P i).Guarantees windows entry e.op) (hcommit : s.Commit e s') :
    ((P i).after e).seen = (P i).seen ∨
      ∃ state, e = ⟨.read, .ok state⟩ ∧ s.target = some (some state) ∧ s' = s ∧
        (P i).written = none ∧ (P i).after e = { P i with seen := some state } := by
  obtain ⟨op, reply⟩ := e
  cases op with
  | createDir | enter | syncTemp | removeLock => exact .inl rfl
  | draw | targetExists => exact .inl rfl
  | read =>
      cases reply with
      | error _ => exact .inl rfl
      | ok state =>
          obtain ⟨rfl, htarget⟩ := hcommit
          exact .inr ⟨state, rfl, htarget, rfl, hguarantee.1, rfl⟩
  | createLock => cases reply <;> exact .inl rfl
  | createTemp => cases reply <;> exact .inl rfl
  | writeTemp | removeTarget | moveReplace | rename => cases reply <;> exact .inl rfl

/-- A process that enters has done nothing yet. -/
theorem inside_step (hguarantee : (P i).Guarantees windows entry e.op) (hcommit : s.Commit e s')
    (hinside : ((P i).after e).inside = true) :
    (P i).inside = true ∨ P i = {} ∧ (P i).after e = { inside := true } ∧
    s' = { s with lock := true } := by
  obtain ⟨op, reply⟩ := e
  cases op with
  | createDir | enter | syncTemp => exact .inl hinside
  | draw | targetExists => exact .inl hinside
  | removeLock => cases hinside
  | read => cases reply <;> exact .inl hinside
  | createTemp => cases reply <;> exact .inl hinside
  | writeTemp | removeTarget | moveReplace | rename => cases reply <;> exact .inl hinside
  | createLock =>
      have hempty : P i = {} := hguarantee
      cases reply with
      | created =>
          obtain ⟨_, rfl⟩ := hcommit
          exact .inr ⟨hempty, by rw [hempty]; rfl, rfl⟩
      | alreadyExists => exact .inl hinside
      | failed => exact .inl hinside

/-- What a process has read and drawn stays as it is once it has written. -/
theorem written_step (hguarantee : (P i).Guarantees windows entry e.op)
    (hwritten : (P i).written ≠ none) :
    ((P i).after e).seen = (P i).seen ∧ ((P i).after e).drawn = (P i).drawn := by
  obtain ⟨op, reply⟩ := e
  cases op with
  | createDir | enter | syncTemp | removeLock => exact ⟨rfl, rfl⟩
  | targetExists => exact ⟨rfl, rfl⟩
  | draw => exact absurd hguarantee.1 hwritten
  | read => exact absurd hguarantee.1 hwritten
  | createLock => cases reply <;> exact ⟨rfl, rfl⟩
  | createTemp => cases reply <;> exact ⟨rfl, rfl⟩
  | writeTemp | removeTarget | moveReplace | rename => cases reply <;> exact ⟨rfl, rfl⟩

/-- A process draws once. -/
theorem drawn_step (hguarantee : (P i).Guarantees windows entry e.op) :
    (P i).drawn = none ∨ ((P i).after e).drawn = (P i).drawn := by
  obtain ⟨op, reply⟩ := e
  cases op with
  | createDir | enter | syncTemp | removeLock | targetExists => exact .inr rfl
  | draw => exact .inl hguarantee.2.2
  | read => cases reply <;> exact .inr rfl
  | createLock => cases reply <;> exact .inr rfl
  | createTemp => cases reply <;> exact .inr rfl
  | writeTemp | removeTarget | moveReplace | rename => cases reply <;> exact .inr rfl

end Step

/-! ### Steps of a run -/

section Runs

variable {windows : Bool} {init : StoreFiles S → Prop}
  {mayStart : World (storeSystem S windows) → StoreEntry S → Prop}
  {w w' : World (storeSystem S windows)}

theorem entryOf_step (hstep : Step mayStart w w') {i : ℕ} {c : Call (storeSystem S windows)}
    (hc : w.calls i = some c) : entryOf w' i = entryOf w i := by
  obtain ⟨c', hc', hentry⟩ := hstep.entry hc
  rw [entryOf, entryOf, hc, hc']
  exact hentry

/-- The next operation of a process, in a run. -/
structure Moves (w w' : World (storeSystem S windows)) (i : ℕ)
    (e : Event (StateFile S)) : Prop where
  log : w'.log = (i, e) :: w.log
  guarantee : (progresses w.log i).Guarantees windows (entryOf w i) e.op
  commit : w.shared.Commit e w'.shared
  started : ∃ c, w.calls i = some c

/-- A step is the next operation of a process, or the files do not show it. -/
theorem step_cases (hw : Reachable init mayStart w) (hstep : Step mayStart w w') :
    (w'.log = w.log ∧ w'.shared = w.shared) ∨ ∃ i e, Moves w w' i e := by
  cases hstep with
  | start _ _ => exact .inl ⟨rfl, rfl⟩
  | crash _ => exact .inl ⟨rfl, rfl⟩
  | @commit i c op next reply s hc hrest hcommit =>
      refine .inr ⟨i, ⟨op, reply⟩, rfl, ?_, hcommit, c, hc⟩
      have hguarantee : (progresses w.log i).Guarantees windows c.entry op :=
        hw.guarantee_next (Store.safe_body windows) (hw.allowed fun _ _ _ _ _ => trivial) hc hrest
      have hentry : entryOf w i = c.entry := by rw [entryOf, hc]
      rwa [hentry]

/-- A process that has got somewhere has been started. -/
theorem started_of_progress (hw : Reachable init mayStart w) {i : ℕ}
    (hprogress : progresses w.log i ≠ {}) : ∃ c, w.calls i = some c := by
  cases hlog : w.log.of i with
  | nil =>
      rw [progresses, hlog] at hprogress
      exact absurd rfl hprogress
  | cons e h =>
      have hmem : (i, e) ∈ w.log := Log.mem_of.mp (by rw [hlog]; exact List.mem_cons_self)
      exact hw.consistent.started i e hmem

/-- The entry of a process that has taken a step does not change. -/
theorem entryOf_of_progress (hw : Reachable init mayStart w) (hstep : Step mayStart w w') {i : ℕ}
    (hprogress : progresses w.log i ≠ {}) : entryOf w' i = entryOf w i := by
  obtain ⟨c, hc⟩ := started_of_progress hw hprogress
  exact entryOf_step hstep hc

namespace Moves

variable {i j : ℕ} {e : Event (StateFile S)}

theorem self (h : Moves w w' i e) : progresses w'.log i = (progresses w.log i).after e := by
  rw [h.log, progresses_cons, Function.update_self]

theorem other (h : Moves w w' i e) (hj : j ≠ i) : progresses w'.log j = progresses w.log j := by
  rw [h.log, progresses_cons, Function.update_of_ne hj]

theorem targetStep (h : Moves w w' i e) (hw : Reachable init mayStart w) :
    TargetStep windows (entryOf w i) (progresses w.log i) e w.shared w'.shared :=
  (kept_of_reachable hw).targetStep h.guarantee h.commit

/-- What a process has drawn stays. -/
theorem drawn (h : Moves w w' i e) {draws : S.Draws}
    (hdrawn : (progresses w.log j).drawn = some draws) :
    (progresses w'.log j).drawn = some draws := by
  by_cases hj : j = i
  · subst hj
    rw [h.self]
    rcases drawn_step h.guarantee with hnone | hsame
    · rw [hnone] at hdrawn
      cases hdrawn
    · rw [hsame, hdrawn]
  · rw [h.other hj, hdrawn]

/-- What a process has seen now, it had seen before, or it is in the file. -/
theorem seen (h : Moves w w' i e) {state : S.State}
    (hseen : (progresses w'.log j).seen = some state) :
    (progresses w.log j).seen = some state ∨
      j = i ∧ w.shared.target = some (some state) ∧ w'.shared = w.shared ∧
        (progresses w.log j).written = none := by
  by_cases hj : j = i
  · subst hj
    rw [h.self] at hseen
    rcases seen_step h.guarantee h.commit with
      hsame | ⟨found, _, htarget, hshared, hfresh, hread⟩
    · rw [hsame] at hseen
      exact .inl hseen
    · rw [hread] at hseen
      obtain rfl := Option.some.inj hseen
      exact .inr ⟨rfl, htarget, hshared, hfresh⟩
  · rw [h.other hj] at hseen
    exact .inl hseen

/-- A process that has written has written for good. -/
theorem written (h : Moves w w' i e) (hw : Reachable init mayStart w)
    (hwritten : (progresses w.log j).written ≠ none) :
    (progresses w'.log j).written = (progresses w.log j).written := by
  by_cases hj : j = i
  · subst hj
    rw [h.self]
    cases h.targetStep hw with
    | same _ _ hsame => exact hsame
    | removed _ _ hnone => exact absurd hnone hwritten
    | replaced _ _ hnone => exact absurd hnone hwritten
  · rw [h.other hj]

/-- A process that is inside now was inside before, or has seen nothing. -/
theorem inside (h : Moves w w' i e) (hinside : (progresses w'.log j).inside = true) :
    (progresses w.log j).inside = true ∨ (progresses w'.log j).seen = none := by
  by_cases hj : j = i
  · subst hj
    rw [h.self] at hinside ⊢
    rcases inside_step h.guarantee h.commit hinside with hwas | ⟨_, henters, _⟩
    · exact .inl hwas
    · exact .inr (by rw [henters])
  · rw [h.other hj] at hinside
    exact .inl hinside

end Moves

/-! ### States in play -/

/-- A state that the file holds, or that some process has read. -/
def InPlay (w : World (storeSystem S windows)) (state : S.State) : Prop :=
  w.shared.target = some (some state) ∨ ∃ i, (progresses w.log i).seen = some state

/-- A process puts a state in place that it intends to. -/
structure Puts (w w' : World (storeSystem S windows)) (i : ℕ) (state : S.State) : Prop where
  fresh : (progresses w.log i).written = none
  intends : (progresses w.log i).Intends state (entryOf w i)
  written : (progresses w'.log i).written = some state
  inside : (progresses w'.log i).inside = (progresses w.log i).inside
  seen : (progresses w'.log i).seen = (progresses w.log i).seen
  entry : entryOf w' i = entryOf w i
  target : w'.shared.target = some (some state)

theorem Moves.puts {i : ℕ} {e : Event (StateFile S)} {state : S.State} (h : Moves w w' i e)
    (hw : Reachable init mayStart w) (hstep : Step mayStart w w')
    (htarget : w'.shared.target = some (some state)) (hfresh : (progresses w.log i).written = none)
    (hintends : (progresses w.log i).Intends state (entryOf w i))
    (hafter : (progresses w.log i).after e =
      { progresses w.log i with temp := none, written := some state }) : Puts w w' i state where
  fresh := hfresh
  intends := hintends
  written := by rw [h.self, hafter]
  inside := by rw [h.self, hafter]
  seen := by rw [h.self, hafter]
  entry := by
    apply entryOf_of_progress hw hstep
    intro hempty
    cases hop : entryOf w i with
    | openStore =>
        rw [hop, hempty] at hintends
        obtain ⟨_, _, draws, hdrawn, _⟩ := hintends
        cases hdrawn
    | call call =>
        rw [hop, hempty] at hintends
        exact Bool.false_ne_true hintends.1
  target := htarget

/-- What is in the file after a step was in it before, or has been put there. -/
theorem target_step (hw : Reachable init mayStart w) (hstep : Step mayStart w w') :
    w'.shared.target = w.shared.target ∨ w'.shared.target = none ∨ ∃ i state,
      Puts w w' i state := by
  rcases step_cases hw hstep with ⟨_, hshared⟩ | ⟨i, e, hmoves⟩
  · exact .inl (by rw [hshared])
  · cases hmoves.targetStep hw with
    | same hsame => exact .inl hsame
    | removed hnone => exact .inr (.inl hnone)
    | replaced state htarget hfresh hintends hafter hreplaces =>
        exact .inr (.inr ⟨i, state, hmoves.puts hw hstep htarget hfresh hintends hafter⟩)

theorem inPlay_step (hw : Reachable init mayStart w) (hstep : Step mayStart w w') {state : S.State}
    (h : InPlay w' state) : InPlay w state ∨ ∃ i, Puts w w' i state := by
  rcases h with htarget | ⟨j, hseen⟩
  · rcases target_step hw hstep with hsame | hnone | ⟨i, found, hputs⟩
    · exact .inl (.inl (hsame ▸ htarget))
    · rw [hnone] at htarget
      cases htarget
    · obtain rfl := Option.some.inj (Option.some.inj (htarget.symm.trans hputs.target))
      exact .inr ⟨i, hputs⟩
  · rcases step_cases hw hstep with ⟨hlog, _⟩ | ⟨i, e, hmoves⟩
    · rw [hlog] at hseen
      exact .inl (.inr ⟨j, hseen⟩)
    · rcases hmoves.seen hseen with hseen | ⟨_, htarget, _⟩
      · exact .inl (.inr ⟨j, hseen⟩)
      · exact .inl (.inl htarget)

/-- One process at a time puts a state in place. -/
theorem Puts.unique (hw : Reachable init mayStart w) (hstep : Step mayStart w w') {i j : ℕ}
    {state found : S.State} (h : Puts w w' i state) (h' : Puts w w' j found) : i = j := by
  rcases step_cases hw hstep with ⟨hlog, _⟩ | ⟨k, e, hmoves⟩
  · have hwritten := h.written
    rw [hlog, h.fresh] at hwritten
    cases hwritten
  · have hmoved : ∀ (l : ℕ) (state : S.State), Puts w w' l state → l = k := by
      intro l state hputs
      by_contra hl
      have hwritten := hputs.written
      rw [hmoves.other hl, hputs.fresh] at hwritten
      cases hwritten
    rw [hmoved i state h, hmoved j found h']

/-- A step adds an operation to those that have written exactly if it puts a
state in place. -/
theorem writes_step (hw : Reachable init mayStart w) (hstep : Step mayStart w w') :
    (writes w'.log = writes w.log ∧ ∀ i state, ¬ Puts w w' i state) ∨
      ∃ i state draws, Puts w w' i state ∧ (progresses w.log i).drawn = some draws ∧
        writes w'.log = (i, draws) :: writes w.log := by
  have hquiet : (∀ i, (progresses w'.log i).written = (progresses w.log i).written) →
      ∀ i state, ¬ Puts w w' i state := by
    intro hsame i state hputs
    have hwritten := hputs.written
    rw [hsame, hputs.fresh] at hwritten
    cases hwritten
  rcases step_cases hw hstep with ⟨hlog, _⟩ | ⟨i, e, hmoves⟩
  · exact .inl ⟨by rw [hlog], hquiet fun i => by rw [hlog]⟩
  · have hother : ((progresses w.log i).after e).written = (progresses w.log i).written →
        ∀ j, (progresses w'.log j).written = (progresses w.log j).written := by
      intro hself j
      by_cases hj : j = i
      · subst hj
        rw [hmoves.self, hself]
      · rw [hmoves.other hj]
    cases hmoves.targetStep hw with
    | same _ hreplaces hwritten =>
        exact .inl ⟨by rw [hmoves.log, writes, hreplaces], hquiet (hother hwritten)⟩
    | removed _ _ _ hafter hreplaces =>
        exact .inl ⟨by rw [hmoves.log, writes, hreplaces], hquiet (hother (by rw [hafter]))⟩
    | replaced state htarget hfresh hintends hafter hreplaces =>
        obtain ⟨draws, hdrawn⟩ : ∃ draws, (progresses w.log i).drawn = some draws := by
          cases hop : entryOf w i with
          | openStore =>
              rw [hop] at hintends
              obtain ⟨_, _, draws, hdrawn, _⟩ := hintends
              exact ⟨draws, hdrawn⟩
          | call call =>
              rw [hop] at hintends
              obtain ⟨_, _, _, draws, _, _, _, hdrawn, _⟩ := hintends
              exact ⟨draws, hdrawn⟩
        refine .inr
          ⟨i, state, draws, hmoves.puts hw hstep htarget hfresh hintends hafter, hdrawn, ?_⟩
        rw [hmoves.log, writes, hreplaces, hdrawn]

/-- A state that the file holds, or that a process works on inside of the
lock. -/
def Current (w : World (storeSystem S windows)) (state : S.State) : Prop :=
  w.shared.target = some (some state) ∨ ∃ i, (progresses w.log i).inside = true ∧
    (progresses w.log i).seen = some state ∧ (progresses w.log i).written = none

theorem current_step (hw : Reachable init mayStart w) (hstep : Step mayStart w w') {state : S.State}
    (h : Current w' state) : Current w state ∨ ∃ i, Puts w w' i state := by
  rcases h with htarget | ⟨j, hinside, hseen, hfresh⟩
  · rcases target_step hw hstep with hsame | hnone | ⟨i, found, hputs⟩
    · exact .inl (.inl (hsame ▸ htarget))
    · rw [hnone] at htarget
      cases htarget
    · obtain rfl := Option.some.inj (Option.some.inj (htarget.symm.trans hputs.target))
      exact .inr ⟨i, hputs⟩
  · rcases step_cases hw hstep with ⟨hlog, _⟩ | ⟨i, e, hmoves⟩
    · rw [hlog] at hinside hseen hfresh
      exact .inl (.inr ⟨j, hinside, hseen, hfresh⟩)
    · rcases hmoves.seen hseen with hold | ⟨_, htarget, _⟩
      · refine .inl (.inr ⟨j, ?_, hold, ?_⟩)
        · rcases hmoves.inside hinside with hwas | hnone
          · exact hwas
          · rw [hnone] at hseen
            cases hseen
        · by_contra hwritten
          rw [hmoves.written hw hwritten] at hfresh
          exact hwritten hfresh
      · exact .inl (.inl htarget)

/-- A process that puts a state in place inside of the lock leaves no other
one to work on. -/
theorem Puts.current (hw : Reachable init mayStart w) (hstep : Step mayStart w w') {i : ℕ}
    {state found : S.State} (h : Puts w w' i state) (hinside : (progresses w.log i).inside = true)
    (hcurrent : Current w' found) : found = state := by
  rcases hcurrent with htarget | ⟨j, hholds, _, hfresh⟩
  · exact Option.some.inj (Option.some.inj (htarget.symm.trans h.target))
  · rw [← h.inside] at hinside
    have hkept := kept_of_reachable (hw.steps (.single hstep))
    have hwritten := h.written
    rw [hkept.alone i j hinside hholds, hfresh] at hwritten
    cases hwritten

/-- What a process has drawn, it keeps. -/
theorem drawn_of_step (hw : Reachable init mayStart w) (hstep : Step mayStart w w') {i : ℕ}
    {draws : S.Draws} (hdrawn : (progresses w.log i).drawn = some draws) :
    (progresses w'.log i).drawn = some draws ∧ entryOf w' i = entryOf w i := by
  constructor
  · rcases step_cases hw hstep with ⟨hlog, _⟩ | ⟨j, e, hmoves⟩
    · rw [hlog, hdrawn]
    · exact hmoves.drawn hdrawn
  · apply entryOf_of_progress hw hstep
    intro hempty
    rw [hempty] at hdrawn
    cases hdrawn

/-- A process that has written stays as it was when it wrote. -/
theorem written_of_step (hw : Reachable init mayStart w) (hstep : Step mayStart w w') {i : ℕ}
    (hwritten : (progresses w.log i).written ≠ none) :
    (progresses w'.log i).written = (progresses w.log i).written ∧
      (progresses w'.log i).seen = (progresses w.log i).seen ∧ entryOf w' i = entryOf w i := by
  have hentry : entryOf w' i = entryOf w i := by
    apply entryOf_of_progress hw hstep
    intro hempty
    rw [hempty] at hwritten
    exact hwritten rfl
  rcases step_cases hw hstep with ⟨hlog, _⟩ | ⟨j, e, hmoves⟩
  · rw [hlog]
    exact ⟨rfl, rfl, hentry⟩
  · refine ⟨hmoves.written hw hwritten, ?_, hentry⟩
    by_cases hi : i = j
    · subst hi
      rw [hmoves.self]
      exact (written_step hmoves.guarantee hwritten).1
    · rw [hmoves.other hi]

/-- Who has written now had written before, or has just put its state in
place. -/
theorem written_cases (hw : Reachable init mayStart w) (hstep : Step mayStart w w') {i : ℕ}
    (hwritten : (progresses w'.log i).written ≠ none) :
    (progresses w.log i).written ≠ none ∨ ∃ state, Puts w w' i state := by
  rcases step_cases hw hstep with ⟨hlog, _⟩ | ⟨j, e, hmoves⟩
  · rw [hlog] at hwritten
    exact .inl hwritten
  · by_cases hi : i = j
    · subst hi
      cases hmoves.targetStep hw with
      | same _ _ hsame =>
          rw [hmoves.self, hsame] at hwritten
          exact .inl hwritten
      | removed _ _ hnone hafter =>
          rw [hmoves.self, hafter] at hwritten
          exact .inl hwritten
      | replaced state htarget hfresh hintends hafter hreplaces =>
          exact .inr ⟨state, hmoves.puts hw hstep htarget hfresh hintends hafter⟩
    · rw [hmoves.other hi] at hwritten
      exact .inl hwritten

/-- What a call has done that has returned Ok. -/
theorem outcome_of_returned (hw : Reachable init mayStart w) {i : ℕ}
    {c : Call (storeSystem S windows)} {call : S.Call} {answer : S.Answer}
    (hc : w.calls i = some c) (hentry : c.entry = .call call)
    (hreturned : c.rest = some (.done (.ok (.answered answer)))) :
    (S.task call = .done (.ok answer) ∧ (progresses w.log i).written = none) ∨
      (∃ query state, S.task call = .query query ∧ (progresses w.log i).seen = some state ∧
        query state = .ok answer ∧ (progresses w.log i).written = none) ∨
      ∃ mutate before draws next, S.task call = .change mutate ∧
        (progresses w.log i).seen = some before ∧ (progresses w.log i).drawn = some draws ∧
        mutate draws before = .ok (answer, next) ∧ (progresses w.log i).written = some next := by
  have houtcome := hw.result (Store.safe_body windows) (hw.allowed fun _ _ _ _ _ => trivial) hc
    hreturned
  rw [hentry] at houtcome
  obtain ⟨answer', hanswer, houtcome⟩ := houtcome
  obtain rfl : answer = answer' := by injection hanswer
  exact houtcome

/-- A call that returns an error has written nothing. -/
theorem written_of_error (hw : Reachable init mayStart w) {i : ℕ}
    {c : Call (storeSystem S windows)} {e : AuthError} (hc : w.calls i = some c)
    (hreturned : c.rest = some (.done (.error e))) : (progresses w.log i).written = none := by
  have houtcome := hw.result (Store.safe_body windows) (hw.allowed fun _ _ _ _ _ => trivial) hc
    hreturned
  cases hop : c.entry <;> rw [hop] at houtcome <;> exact houtcome

end Runs

end VorCommander
