import VorCommander.Auth.StateFile

/-!
What the processes of a store guarantee.

A process removes the lock file only if it created it, and puts only a state
in the place of another that it has computed: a new one, if it opened the
store, and otherwise what its call makes of the state that it read while it
held the lock. None of this depends on what the other processes do.
-/

namespace VorCommander

open Steps Steps.Program Steps.World

variable {S : Store}

/-- What a process has done so far: whether it holds the lock, the state that
it read, what it drew, its temporary file with what it wrote there, and the
state that it put in the place of another. -/
structure Progress (S : Store) where
  inside : Bool := false
  seen : Option S.State := none
  drawn : Option S.Draws := none
  temp : Option (ℕ × Option S.State) := none
  written : Option S.State := none

namespace Progress

def after (p : Progress S) : Event (StateFile S) → Progress S
  | ⟨.createLock, .created⟩ => { p with inside := true }
  | ⟨.removeLock, _⟩ => { p with inside := false }
  | ⟨.read, .ok state⟩ => { p with seen := some state }
  | ⟨.draw, draws⟩ => { p with drawn := some draws }
  | ⟨.createTemp, .ok temp⟩ => { p with temp := some (temp, none) }
  | ⟨.writeTemp temp state, .ok _⟩ => { p with temp := some (temp, some state) }
  | ⟨.moveReplace _, .ok _⟩ => { p with temp := none, written := p.temp.bind (·.2) }
  | ⟨.rename _, .ok _⟩ => { p with temp := none, written := p.temp.bind (·.2) }
  | _ => p

/-- The state that a process may put in the place of another. -/
def Intends (p : Progress S) (state : S.State) : StoreEntry S → Prop
  | .openStore => p.inside = false ∧ p.seen = none ∧
      ∃ draws, p.drawn = some draws ∧ state = S.fresh draws
  | .call call =>
      p.inside = true ∧ ∃ mutate before draws answer, S.task call = .change mutate ∧
        p.seen = some before ∧ p.drawn = some draws ∧ mutate draws before = .ok (answer, state)

/-- What a process guarantees of its next step. -/
def Guarantees (p : Progress S) (windows : Bool) (entry : StoreEntry S) : StoreOp S → Prop
  | .createLock => p = {}
  | .removeLock => p.inside = true
  | .read => p.written = none ∧ p.temp = none ∧ ∀ call, entry = .call call → p.inside = true
  | .draw => p.written = none ∧ p.temp = none ∧ p.drawn = none
  | .createTemp => p.temp = none ∧ p.written = none
  | .writeTemp temp state => p.temp = some (temp, none) ∧ p.written = none ∧ p.Intends state entry
  | .removeTarget => windows = false ∧ p.written = none ∧
      ∃ temp state, p.temp = some (temp, some state) ∧ p.Intends state entry
  | .moveReplace temp => ∃ state, p.temp = some (temp, some state) ∧ p.written = none ∧
      p.Intends state entry
  | .rename temp => ∃ state, p.temp = some (temp, some state) ∧ p.written = none ∧
      p.Intends state entry
  | _ => True

/-- What a process has done when it returns. -/
def Outcome (p : Progress S) : StoreEntry S → Except AuthError (StoreReply S) → Prop
  | _, .error _ => p.written = none
  | .openStore, .ok reply => ∃ state, reply = .opened state ∧
      (p.seen = some state ∧ S.accept state = .ok () ∧ p.written = none ∨
        p.written = some state ∧ p.Intends state .openStore)
  | .call call, .ok reply => ∃ answer, reply = .answered answer ∧
      (S.task call = .done (.ok answer) ∧ p.written = none ∨
        (∃ query state, S.task call = .query query ∧ p.seen = some state ∧
          query state = .ok answer ∧ p.written = none) ∨
        ∃ mutate before draws next, S.task call = .change mutate ∧ p.seen = some before ∧
          p.drawn = some draws ∧ mutate draws before = .ok (answer, next) ∧ p.written = some next)

end Progress

/-- How far a process is after a history. -/
def progress (h : History (StateFile S)) : Progress S := h.foldr (fun e p => p.after e) {}

@[simp] theorem progress_nil : progress ([] : History (StateFile S)) = {} := rfl

@[simp] theorem progress_cons (e : Event (StateFile S)) (h : History (StateFile S)) :
    progress (e :: h) = (progress h).after e := rfl

/-! ### Guarantees -/

namespace Store

/-- Nothing is assumed of the replies. -/
abbrev AnyReply (_ : History (StateFile S)) (_ : Event (StateFile S)) : Prop := True

abbrev Guaranteed {α : Type} (windows : Bool) (entry : StoreEntry S) (p : StateFileM S α)
    (h : History (StateFile S)) (Q : Progress S → Except AuthError α → Prop) : Prop :=
  Safe AnyReply (fun h op => (progress h).Guarantees windows entry op)
    (fun h r => Q (progress h) r) p.run h

variable {windows : Bool} {entry : StoreEntry S} {h : History (StateFile S)}

theorem guaranteed_acquireLock (attempts : ℕ) (hp : progress h = {}) :
    Guaranteed windows entry (S.acquireLock attempts) h fun p r =>
      (r = .ok () → p = { inside := true }) ∧ ∀ e, r = .error e → p = {} := by
  induction attempts generalizing h with
  | zero => exact (safe_exceptT_throw _).mpr ⟨by simp, fun _ _ => hp⟩
  | succ attempts ih =>
      simp only [Guaranteed, acquireLock, safe_exceptT_bind, safe_createLock, then_ok]
      refine ⟨hp, fun reply _ => ?_⟩
      cases reply with
      | created =>
          refine (safe_exceptT_pure _).mpr ⟨fun _ => ?_, by simp⟩
          rw [progress_cons, hp]
          rfl
      | alreadyExists => exact ih hp
      | failed => exact (safe_exceptT_throw _).mpr ⟨by simp, fun _ _ => hp⟩

/-- A temporary file that has been written may take the place of the state. -/
theorem guaranteed_atomicReplace {temp : ℕ} {state : S.State}
    (htemp : (progress h).temp = some (temp, some state)) (hwritten : (progress h).written = none)
    (hintends : (progress h).Intends state entry) :
    Guaranteed windows entry (S.atomicReplace windows temp) h fun p r =>
      (r = .ok () → p = { progress h with temp := none, written := some state }) ∧
        ∀ e, r = .error e → p = progress h := by
  have hmay : ∃ state, (progress h).temp = some (temp, some state) ∧ (progress h).written = none ∧
      (progress h).Intends state entry := ⟨state, htemp, hwritten, hintends⟩
  cases windows with
  | true =>
      simp only [Guaranteed, atomicReplace, if_true, safe_moveReplace]
      refine ⟨hmay, fun reply _ => ?_⟩
      cases reply with
      | error e => exact ⟨by simp, fun _ _ => rfl⟩
      | ok _ =>
          refine ⟨fun _ => ?_, by simp⟩
          rw [progress_cons, Progress.after, htemp]
          rfl
  | false =>
      have hrename : ∀ h', progress h' = progress h →
          Guaranteed false entry (StateFile.rename temp) h' fun p r =>
            (r = .ok () → p = { progress h with temp := none, written := some state }) ∧
              ∀ e, r = .error e → p = progress h := by
        intro h' hsame
        rw [Guaranteed, safe_rename, hsame]
        refine ⟨hmay, fun reply _ => ?_⟩
        cases reply with
        | error e => exact ⟨by simp, fun _ _ => hsame⟩
        | ok _ =>
            refine ⟨fun _ => ?_, by simp⟩
            rw [progress_cons, Progress.after, hsame, htemp]
            rfl
      simp only [Guaranteed, atomicReplace, Bool.false_eq_true, if_false, safe_exceptT_bind,
        safe_targetExists, then_ok]
      refine ⟨trivial, fun found _ => ?_⟩
      cases found with
      | false => exact hrename _ rfl
      | true =>
          simp only [if_true, safe_exceptT_bind, safe_removeTarget]
          refine ⟨⟨rfl, hwritten, temp, state, htemp, hintends⟩, fun reply _ => ?_⟩
          cases reply with
          | error e => exact ⟨by simp, fun _ _ => rfl⟩
          | ok _ => exact hrename _ rfl

/-- A state that a process intends to write is written, or nothing but its
temporary file is. -/
theorem guaranteed_persist {state : S.State} (htemp : (progress h).temp = none)
    (hwritten : (progress h).written = none) (hintends : (progress h).Intends state entry) :
    Guaranteed windows entry (S.persist windows state) h fun p r =>
      (r = .ok () → p = { progress h with written := some state }) ∧
        ∀ e, r = .error e → ∃ temp, p = { progress h with temp := temp } := by
  have hsame : progress h = { progress h with temp := none } := by rw [← htemp]
  simp only [Guaranteed, persist, safe_exceptT_bind, safe_createTemp]
  refine ⟨⟨htemp, hwritten⟩, fun reply _ => ?_⟩
  cases reply with
  | error e => exact ⟨by simp, fun _ _ => ⟨_, hsame⟩⟩
  | ok temp =>
      simp only [then_ok, safe_exceptT_bind, safe_writeTemp]
      refine ⟨⟨rfl, hwritten, ?_⟩, fun reply _ => ?_⟩
      · cases entry <;> exact hintends
      cases reply with
      | error e => exact ⟨by simp, fun _ _ => ⟨_, rfl⟩⟩
      | ok _ =>
          simp only [then_ok, safe_exceptT_bind, safe_syncTemp]
          refine ⟨trivial, fun reply _ => ?_⟩
          cases reply with
          | error e => exact ⟨by simp, fun _ _ => ⟨_, rfl⟩⟩
          | ok _ =>
              have hsynced :
                (progress (⟨.syncTemp temp, .ok ()⟩ :: ⟨.writeTemp temp state, .ok ()⟩ ::
                  ⟨.createTemp, .ok temp⟩ :: h)).temp = some (temp, some state) := rfl
              refine (guaranteed_atomicReplace hsynced hwritten ?_).mono ?_
              · cases entry <;> exact hintends
              rintro h' r ⟨hok, herror⟩
              refine ⟨fun hr => ?_, fun e hr => ⟨_, herror e hr⟩⟩
              rw [hok hr]
              exact congrArg (fun temp => { progress h with temp := temp, written := some state })
                htemp.symm

/-- What is done inside of the lock is done by a process that holds it. -/
theorem guaranteed_locked {α : Type} {work : StateFileM S α}
    {R : Progress S → Except AuthError α → Prop}
    (hwork : ∀ h, progress h = { inside := true } →
      Guaranteed windows entry work h fun p r => p.inside = true ∧ R { p with inside := false } r)
    (hearly : ∀ e, R {} (.error e)) :
    Guaranteed windows entry (S.locked work) [] R := by
  simp only [Guaranteed, locked, safe_exceptT_bind, safe_enter]
  refine ⟨trivial, fun reply _ => ?_⟩
  cases reply with
  | error e => exact hearly e
  | ok _ =>
      simp only [then_ok, safe_exceptT_bind]
      refine (guaranteed_acquireLock lockAttempts rfl).mono ?_
      rintro h (e | _) ⟨hok, herror⟩
      · rw [then_error, herror e rfl]
        exact hearly e
      · simp only [then_ok, safe_exceptT_bind, safe_exceptT_lift]
        refine (hwork h (hok rfl)).mono ?_
        rintro h' r ⟨hinside, hR⟩
        simp only [then_ok, safe_removeLock, safe_check]
        exact ⟨hinside, fun _ _ => hR⟩

theorem guaranteed_queryState {call : S.Call} {answer : S.State → Except AuthError S.Answer}
    (htask : S.task call = .query answer) :
    Guaranteed windows (.call call) (S.queryState answer) [] fun p r =>
      p.Outcome (.call call) (r.map .answered) := by
  refine guaranteed_locked ?_ fun e => rfl
  intro h hp
  simp only [safe_exceptT_bind, safe_readState, hp]
  refine ⟨⟨rfl, rfl, fun _ _ => rfl⟩, fun reply _ => ?_⟩
  cases reply with
  | error e =>
      simp only [then_error, progress_cons, hp]
      exact ⟨rfl, rfl⟩
  | ok state =>
      simp only [then_ok, safe_check, progress_cons, hp]
      refine ⟨rfl, ?_⟩
      cases hanswer : answer state with
      | error e => rfl
      | ok a => exact ⟨a, rfl, .inr (.inl ⟨answer, state, htask, rfl, hanswer, rfl⟩)⟩

theorem guaranteed_mutateState {call : S.Call}
    {mutate : S.Draws → S.State → Except AuthError (S.Answer × S.State)}
    (htask : S.task call = .change mutate) :
    Guaranteed windows (.call call) (S.mutateState windows mutate) [] fun p r =>
      p.Outcome (.call call) (r.map .answered) := by
  refine guaranteed_locked ?_ fun e => rfl
  intro h hp
  simp only [safe_exceptT_bind, safe_readState, hp]
  refine ⟨⟨rfl, rfl, fun _ _ => rfl⟩, fun reply _ => ?_⟩
  cases reply with
  | error e =>
      simp only [then_error, progress_cons, hp]
      exact ⟨rfl, rfl⟩
  | ok before =>
      simp only [then_ok, safe_exceptT_bind, safe_draw, safe_check, progress_cons, hp]
      refine ⟨⟨rfl, rfl, rfl⟩, fun draws _ => ?_⟩
      cases hmutate : mutate draws before with
      | error e =>
          simp only [then_error, progress_cons, hp]
          exact ⟨rfl, rfl⟩
      | ok changed =>
          obtain ⟨a, next⟩ := changed
          simp only [then_ok, safe_exceptT_bind]
          have hintends : (progress (⟨.draw, draws⟩ :: ⟨.read, .ok before⟩ :: h)).Intends next
              (.call call) := by
            simp only [progress_cons, hp]
            exact ⟨rfl, mutate, before, draws, a, htask, rfl, rfl, hmutate⟩
          refine (guaranteed_persist ?_ ?_ hintends).mono ?_
          · simp only [progress_cons, hp]
            rfl
          · simp only [progress_cons, hp]
            rfl
          rintro h' (e | _) ⟨hok, herror⟩
          · obtain ⟨temp, hp'⟩ := herror e rfl
            simp only [then_error, hp', progress_cons, hp]
            exact ⟨rfl, rfl⟩
          · simp only [then_ok, safe_exceptT_pure, hok rfl, progress_cons, hp]
            exact ⟨rfl, a, rfl,
              .inr (.inr ⟨mutate, before, draws, next, htask, rfl, rfl, hmutate, rfl⟩)⟩

theorem guaranteed_openStore :
    Guaranteed (S := S) windows .openStore (S.openStore windows) [] fun p r =>
      p.Outcome .openStore (r.map .opened) := by
  simp only [Guaranteed, openStore, safe_exceptT_bind, safe_createDir]
  refine ⟨trivial, fun reply _ => ?_⟩
  cases reply with
  | error e => rfl
  | ok _ =>
      simp only [then_ok, safe_exceptT_bind, safe_targetExists]
      refine ⟨trivial, fun found _ => ?_⟩
      cases found with
      | true =>
          simp only [if_true, safe_exceptT_bind, safe_readState]
          refine ⟨⟨rfl, rfl, by intro _ h; cases h⟩, fun reply _ => ?_⟩
          cases reply with
          | error e => rfl
          | ok state =>
              simp only [then_ok, safe_exceptT_bind, safe_check]
              cases haccept : S.accept state with
              | error e => rfl
              | ok _ =>
                  refine (safe_exceptT_pure state).mpr ⟨state, rfl, .inl ⟨rfl, haccept, rfl⟩⟩
      | false =>
          simp only [Bool.false_eq_true, if_false, safe_exceptT_bind, safe_draw]
          refine ⟨⟨rfl, rfl, rfl⟩, fun draws _ => ?_⟩
          simp only [then_ok, safe_exceptT_bind]
          have hintends : (progress (S := S)
            [⟨.draw, draws⟩, ⟨.targetExists, false⟩, ⟨.createDir, .ok ()⟩]).Intends
              (S.fresh draws) .openStore := ⟨rfl, rfl, draws, rfl, rfl⟩
          refine (guaranteed_persist rfl rfl hintends).mono ?_
          rintro h (e | _) ⟨hok, herror⟩
          · obtain ⟨temp, hp⟩ := herror e rfl
            rw [then_error, hp]
            rfl
          · rw [then_ok, safe_exceptT_pure, hok rfl]
            exact ⟨S.fresh draws, rfl, .inr ⟨rfl, rfl, rfl, draws, rfl, rfl⟩⟩

/-- What every process of a store guarantees, and what it has done when it
returns. -/
theorem safe_body (windows : Bool) (entry : StoreEntry S) :
    Safe AnyReply (fun h op => (progress h).Guarantees windows entry op)
      (fun h r => (progress h).Outcome entry r) (S.body windows entry) [] := by
  cases entry with
  | openStore => exact (safe_map _ _).mpr (guaranteed_openStore)
  | call call =>
      refine (safe_map _ _).mpr ?_
      unfold run
      split
      case h_1 result htask =>
          refine (safe_check result).mpr ?_
          cases result with
          | error e => rfl
          | ok a => exact ⟨a, rfl, .inl ⟨htask, rfl⟩⟩
      case h_2 answer htask => exact guaranteed_queryState htask
      case h_3 mutate htask => exact guaranteed_mutateState htask

end Store

/-! ### The lock and the temporary files -/

/-- How far every process is. -/
def progresses (log : Log (StateFile S)) (i : ℕ) : Progress S := progress (log.of i)

theorem progresses_cons (log : Log (StateFile S)) (i : ℕ) (e : Event (StateFile S)) :
    progresses ((i, e) :: log) =
      Function.update (progresses log) i ((progresses log i).after e) := by
  funext j
  by_cases hj : j = i
  · subst hj
    rw [Function.update_self, progresses, Log.of_cons_self, progress_cons]
    rfl
  · rw [Function.update_of_ne hj, progresses, Log.of_cons_ne log e (Ne.symm hj)]
    rfl

/-- At most one process is inside of the lock, and each one has its temporary
file for itself. -/
structure Kept (s : StoreFiles S) (P : ℕ → Progress S) : Prop where
  lock : ∀ i, (P i).inside = true → s.lock = true
  alone : ∀ i j, (P i).inside = true → (P j).inside = true → i = j
  temp : ∀ i temp content, (P i).temp = some (temp, content) → s.temps temp = some content
  own : ∀ i j temp content content', (P i).temp = some (temp, content) →
    (P j).temp = some (temp, content') → i = j

namespace Kept

variable {s s' : StoreFiles S} {P : ℕ → Progress S} {i : ℕ} {q : Progress S} {windows : Bool}
  {entry : StoreEntry S} {e : Event (StateFile S)}

/-- What touches neither the lock nor a temporary file. -/
theorem quiet (h : Kept s P) (hlock : s'.lock = s.lock) (htemps : s'.temps = s.temps)
    (hinside : q.inside = (P i).inside) (htemp : q.temp = (P i).temp) :
    Kept s' (Function.update P i q) := by
  have hsame : ∀ j, (Function.update P i q j).inside = (P j).inside ∧
      (Function.update P i q j).temp = (P j).temp := by
    intro j
    by_cases hj : j = i
    · subst hj
      rw [Function.update_self]
      exact ⟨hinside, htemp⟩
    · rw [Function.update_of_ne hj]
      exact ⟨rfl, rfl⟩
  constructor
  · intro j
    rw [(hsame j).1, hlock]
    exact h.lock j
  · intro j k
    rw [(hsame j).1, (hsame k).1]
    exact h.alone j k
  · intro j temp content
    rw [(hsame j).2, htemps]
    exact h.temp j temp content
  · intro j k temp content content'
    rw [(hsame j).2, (hsame k).2]
    exact h.own j k temp content content'

/-- A process enters when nobody is inside. -/
theorem createLock (h : Kept s P) (hfree : s.lock = false) :
    Kept { s with lock := true } (Function.update P i { P i with inside := true }) := by
  have hnobody : ∀ j, (P j).inside = false := by
    intro j
    rw [Bool.eq_false_iff]
    intro hj
    rw [h.lock j hj] at hfree
    cases hfree
  have hother : ∀ j, j ≠ i →
      (Function.update P i { P i with inside := true } j).inside = false := by
    intro j hj
    rw [Function.update_of_ne hj]
    exact hnobody j
  have htemp : ∀ j, (Function.update P i { P i with inside := true } j).temp = (P j).temp := by
    intro j
    by_cases hj : j = i
    · subst hj
      rw [Function.update_self]
    · rw [Function.update_of_ne hj]
  constructor
  · exact fun _ _ => rfl
  · intro j k hj hk
    by_contra hne
    rcases ne_or_eq j i with hji | rfl
    · rw [hother j hji] at hj
      cases hj
    · rw [hother k (Ne.symm hne)] at hk
      cases hk
  · intro j temp content
    rw [htemp]
    exact h.temp j temp content
  · intro j k temp content content'
    rw [htemp, htemp]
    exact h.own j k temp content content'

/-- The process that is inside leaves. -/
theorem removeLock (h : Kept s P) (hinside : (P i).inside = true)
    (hs' : s' = { s with lock := false } ∨ s' = s) :
    Kept s' (Function.update P i { P i with inside := false }) := by
  have hnobody : ∀ j, (Function.update P i { P i with inside := false } j).inside ≠ true := by
    intro j hj
    by_cases hji : j = i
    · subst hji
      rw [Function.update_self] at hj
      cases hj
    · rw [Function.update_of_ne hji] at hj
      exact hji (h.alone j i hj hinside)
  have htemp : ∀ j, (Function.update P i { P i with inside := false } j).temp = (P j).temp := by
    intro j
    by_cases hj : j = i
    · subst hj
      rw [Function.update_self]
    · rw [Function.update_of_ne hj]
  have htemps : s'.temps = s.temps := by rcases hs' with rfl | rfl <;> rfl
  constructor
  · exact fun j hj => absurd hj (hnobody j)
  · exact fun j k hj _ => absurd hj (hnobody j)
  · intro j temp content
    rw [htemp, htemps]
    exact h.temp j temp content
  · intro j k temp content content'
    rw [htemp, htemp]
    exact h.own j k temp content content'

/-- A process gets a temporary file, writes to it, or has put it in the place
of the state. -/
theorem setTemp (h : Kept s P) (temp : ℕ) (content : Option (Option S.State))
    (hmine : ∀ j content', (P j).temp = some (temp, content') → j = i)
    (hinside : q.inside = (P i).inside)
    (htemp : q.temp = content.map fun content => (temp, content)) (hlock : s'.lock = s.lock)
    (htemps : s'.temps = Function.update s.temps temp content) :
    Kept s' (Function.update P i q) := by
  have hsame : ∀ j, (Function.update P i q j).inside = (P j).inside := by
    intro j
    by_cases hj : j = i
    · subst hj
      rw [Function.update_self, hinside]
    · rw [Function.update_of_ne hj]
  -- what another process has is not the file in question
  have hother : ∀ j, j ≠ i → ∀ other content', (P j).temp = some (other, content') →
      other ≠ temp := by
    rintro j hj other content' hget rfl
    exact hj (hmine j content' hget)
  have hown : ∀ other content', q.temp = some (other, content') → other = temp ∧
      content = some content' := by
    intro other content' hget
    rw [htemp] at hget
    obtain ⟨found, hfound, heq⟩ := Option.map_eq_some_iff.mp hget
    obtain ⟨rfl, rfl⟩ := Prod.mk.inj heq
    exact ⟨rfl, hfound⟩
  constructor
  · intro j
    rw [hsame, hlock]
    exact h.lock j
  · intro j k
    rw [hsame, hsame]
    exact h.alone j k
  · intro j other content' hget
    rw [htemps]
    by_cases hj : j = i
    · subst hj
      rw [Function.update_self] at hget
      obtain ⟨rfl, hcontent⟩ := hown other content' hget
      rw [Function.update_self, hcontent]
    · rw [Function.update_of_ne hj] at hget
      rw [Function.update_of_ne (hother j hj other content' hget)]
      exact h.temp j other content' hget
  · intro j k other content' content'' hj hk
    by_cases hji : j = i <;> by_cases hki : k = i
    · rw [hji, hki]
    · subst hji
      rw [Function.update_self] at hj
      rw [Function.update_of_ne hki] at hk
      exact absurd (hown other content' hj).1 (hother k hki other content'' hk)
    · subst hki
      rw [Function.update_self] at hk
      rw [Function.update_of_ne hji] at hj
      exact absurd (hown other content'' hk).1 (hother j hji other content' hj)
    · rw [Function.update_of_ne hji] at hj
      rw [Function.update_of_ne hki] at hk
      exact h.own j k other content' content'' hj hk

/-- A step that a process guarantees keeps the lock and the files. -/
theorem step (h : Kept s P) (hguarantee : (P i).Guarantees windows entry e.op)
    (hcommit : s.Commit e s') :
    Kept s' (Function.update P i ((P i).after e)) := by
  have hmine : ∀ temp content, (P i).temp = some (temp, content) →
      ∀ j content', (P j).temp = some (temp, content') → j = i :=
    fun temp content hi j content' hj => h.own j i temp content' content hj hi
  obtain ⟨op, reply⟩ := e
  cases op with
  | createDir | enter | syncTemp =>
      obtain rfl := hcommit
      exact h.quiet rfl rfl rfl rfl
  | draw =>
      obtain rfl := hcommit
      exact h.quiet rfl rfl rfl rfl
  | targetExists =>
      obtain ⟨rfl, _⟩ := hcommit
      exact h.quiet rfl rfl rfl rfl
  | read =>
      cases reply with
      | error _ =>
          obtain rfl := hcommit
          exact h.quiet rfl rfl rfl rfl
      | ok state =>
          obtain ⟨rfl, _⟩ := hcommit
          exact h.quiet rfl rfl rfl rfl
  | createLock =>
      cases reply with
      | created =>
          obtain ⟨hfree, rfl⟩ := hcommit
          exact h.createLock hfree
      | alreadyExists =>
          obtain ⟨_, rfl⟩ := hcommit
          exact h.quiet rfl rfl rfl rfl
      | failed =>
          obtain rfl := hcommit
          exact h.quiet rfl rfl rfl rfl
  | removeLock => exact h.removeLock hguarantee hcommit
  | createTemp =>
      cases reply with
      | error _ =>
          obtain rfl := hcommit
          exact h.quiet rfl rfl rfl rfl
      | ok temp =>
          obtain ⟨hfree, rfl⟩ := hcommit
          refine h.setTemp temp (some none) (fun j content hj => ?_) rfl rfl rfl rfl
          rw [h.temp j temp content hj] at hfree
          cases hfree
  | writeTemp temp state =>
      obtain ⟨htemp, _⟩ := hguarantee
      cases reply with
      | ok _ =>
          obtain rfl := hcommit
          exact h.setTemp temp (some (some state)) (hmine temp none htemp) rfl rfl rfl rfl
      | error _ =>
          obtain rfl := hcommit
          exact h.setTemp temp (some none) (hmine temp none htemp) rfl htemp rfl rfl
  | removeTarget =>
      cases reply with
      | ok _ =>
          obtain rfl := hcommit
          exact h.quiet rfl rfl rfl rfl
      | error _ =>
          obtain rfl := hcommit
          exact h.quiet rfl rfl rfl rfl
  | moveReplace temp | rename temp =>
      obtain ⟨state, htemp, _⟩ := hguarantee
      cases reply with
      | error _ =>
          obtain rfl := hcommit
          exact h.quiet rfl rfl rfl rfl
      | ok _ =>
          -- the temporary file has become the target
          obtain ⟨content, _, rfl⟩ := hcommit
          exact h.setTemp temp none (hmine temp (some state) htemp) rfl rfl rfl rfl

end Kept

/-- In every run the lock excludes, and temporary files are not shared. -/
theorem kept_of_reachable {windows : Bool} {init : StoreFiles S → Prop}
    {mayStart : World (storeSystem S windows) → StoreEntry S → Prop}
    {w : World (storeSystem S windows)} (hw : Reachable init mayStart w) :
    Kept w.shared (progresses w.log) := by
  refine hw.invariant_of_guarantee (J := fun s log => Kept s (progresses log))
    (Store.safe_body windows) (fun _ _ _ _ _ => trivial) ?_ ?_
  · exact fun s _ => ⟨by simp [progresses], by simp [progresses], by simp [progresses],
      by simp [progresses]⟩
  · intro entry s log i e s' h hguarantee hcommit
    rw [progresses_cons]
    exact h.step hguarantee hcommit

end VorCommander
