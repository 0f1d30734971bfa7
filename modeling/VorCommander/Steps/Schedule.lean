import VorCommander.Steps.Pool

/-!
Runs that can be computed.

A `Handler` answers every operation by a function of the state. Run alone, a
program then has one result, computed by `exec`; in a pool, a schedule that
says which call moves next has one run, computed by `ticks`. A handler is
sound when its answers are among those the system allows, and then every
scheduled run is a run of the pool. Where an operation may have to wait,
`Answers` takes the place of a handler, and a call that has to wait does not
move.
-/

namespace VorCommander.Steps

/-- An answer to every operation, and the state after it. -/
structure Handler (I : Interface) (σ : Type) where
  answer : σ → (op : I.Op) → I.Reply op × σ

variable {I : Interface} {σ α β ε ε' : Type}

namespace Program

/-- The result of a program that runs alone, with the state it leaves. -/
def exec (H : Handler I σ) : Program I α → σ → α × σ
  | .done a, s => (a, s)
  | .step op next, s =>
      match H.answer s op with
      | (reply, s') => exec H (next reply) s'

variable {H : Handler I σ} {s s' : σ}

@[simp] theorem exec_done (a : α) : exec H (.done a) s = (a, s) := rfl

@[simp] theorem exec_step (op : I.Op) (next : I.Reply op → Program I α) :
    exec H (.step op next) s = exec H (next (H.answer s op).1) (H.answer s op).2 := rfl

@[simp] theorem exec_perform (op : I.Op) : exec H (perform op) s = H.answer s op := rfl

theorem exec_bind (p : Program I α) (f : α → Program I β) :
    exec H (p >>= f) s = exec H (f (exec H p s).1) (exec H p s).2 := by
  induction p generalizing s with
  | done a => rfl
  | step op next ih => simp only [step_bind, exec_step, ih]

theorem exec_map (f : α → β) (p : Program I α) :
    exec H (f <$> p) s = (f (exec H p s).1, (exec H p s).2) := by
  rw [map_eq_pure_bind, exec_bind]
  rfl

/-! ### Programs that can fail -/

/-- The run of what follows a fallible program. -/
def execThen (H : Handler I σ) (f : α → ExceptT ε (Program I) β) :
    Except ε α × σ → Except ε β × σ
  | (.ok a, s) => exec H (f a).run s
  | (.error e, s) => (.error e, s)

@[simp] theorem execThen_ok (f : α → ExceptT ε (Program I) β) (a : α) :
    execThen H f (.ok a, s) = exec H (f a).run s := rfl

@[simp] theorem execThen_error (f : α → ExceptT ε (Program I) β) (e : ε) :
    execThen H f (.error e, s) = (.error e, s) := rfl

theorem exec_exceptT_bind (p : ExceptT ε (Program I) α) (f : α → ExceptT ε (Program I) β) :
    exec H (p >>= f).run s = execThen H f (exec H p.run s) := by
  change exec H (ExceptT.run p >>= ExceptT.bindCont f) s = _
  rw [exec_bind]
  rcases exec H p.run s with ⟨e | a, s'⟩ <;> rfl

@[simp] theorem exec_exceptT_pure (a : α) :
    exec H (pure a : ExceptT ε (Program I) α).run s = (.ok a, s) := rfl

@[simp] theorem exec_exceptT_throw (e : ε) :
    exec H (throw e : ExceptT ε (Program I) α).run s = (.error e, s) := rfl

@[simp] theorem exec_check (r : Except ε α) :
    exec H (check r : ExceptT ε (Program I) α).run s = (r, s) := rfl

@[simp] theorem exec_attempt (p : Program I (Except ε α)) :
    exec H (attempt p).run s = exec H p s := rfl

theorem exec_exceptT_adapt (f : ε' → ε) (p : ExceptT ε' (Program I) α) :
    exec H (ExceptT.adapt f p).run s =
      ((exec H p.run s).1.mapError f, (exec H p.run s).2) :=
  exec_map _ _

@[simp] theorem exec_exceptT_lift (p : Program I α) :
    exec H (ExceptT.lift p : ExceptT ε (Program I) α).run s =
      (.ok (exec H p s).1, (exec H p s).2) :=
  exec_map _ _

end Program

/-! ### Recorded runs -/

/-- The handler that also writes down what it answers. -/
def Handler.recording (H : Handler I σ) : Handler I (σ × History I) where
  answer
    | (s, h), op =>
        match H.answer s op with
        | (reply, s') => (reply, (s', ⟨op, reply⟩ :: h))

namespace Program

variable {H : Handler I σ} {s : σ} {h : History I}

@[simp] theorem recording_answer (op : I.Op) :
    H.recording.answer (s, h) op =
      ((H.answer s op).1, ((H.answer s op).2, ⟨op, (H.answer s op).1⟩ :: h)) := rfl

/-- The rule of a program that performs one operation and reads its reply. -/
theorem exec_recording_call (op : I.Op) (f : I.Reply op → α) {reply : I.Reply op} {s' : σ}
    (hanswer : H.answer s op = (reply, s')) :
    exec H.recording (.step op fun reply => .done (f reply)) (s, h) =
      (f reply, (s', ⟨op, reply⟩ :: h)) := by
  rw [exec_step, recording_answer, hanswer]
  rfl

/-- Every step of a run passes a check. -/
def passes (H : Handler I σ) (ok : σ → History I → Event I → σ → Bool) :
    Program I α → σ → History I → Bool
  | .done _, _, _ => true
  | .step op next, s, h =>
      match H.answer s op with
      | (reply, s') => ok s h ⟨op, reply⟩ s' && passes H ok (next reply) s' (⟨op, reply⟩ :: h)

/-- What was recorded stays recorded. -/
theorem exec_recording_mem (p : Program I α) {e : Event I} (he : e ∈ h) :
    e ∈ (exec H.recording p (s, h)).2.2 := by
  induction p generalizing s h with
  | done a => exact he
  | step op next ih =>
      rw [exec_step, recording_answer]
      exact ih _ (List.mem_cons_of_mem _ he)

theorem execThen_recording_mem (f : α → ExceptT ε (Program I) β)
    {result : Except ε α × σ × History I} {e : Event I} (he : e ∈ result.2.2) :
    e ∈ (execThen H.recording f result).2.2 := by
  obtain ⟨error | a, s, h⟩ := result
  · exact he
  · exact exec_recording_mem _ he

/-- Recording changes neither the result nor the state. -/
theorem exec_recording (p : Program I α) :
    (exec H.recording p (s, h)).1 = (exec H p s).1 ∧
      (exec H.recording p (s, h)).2.1 = (exec H p s).2 := by
  induction p generalizing s h with
  | done a => exact ⟨rfl, rfl⟩
  | step op next ih =>
      rw [exec_step, exec_step, recording_answer]
      exact ih _

theorem exec_recording_of_exec {p : Program I α} {a : α} {s' : σ} (hp : exec H p s = (a, s')) :
    ∃ h', exec H.recording p (s, h) = (a, (s', h')) := by
  obtain ⟨ha, hs⟩ := exec_recording (H := H) (s := s) (h := h) p
  rw [hp] at ha hs
  exact ⟨(exec H.recording p (s, h)).2.2, Prod.ext ha (Prod.ext hs rfl)⟩

/-- A handler whose answers meet the assumption, as long as `J` relates the
state to what it has answered, makes a safe program meet its postcondition. -/
theorem Safe.exec {A : History I → Event I → Prop} {G : History I → I.Op → Prop}
    {Q : History I → α → Prop} {J : σ → History I → Prop} {p : Program I α}
    (hp : Safe A G Q p h)
    (answers : ∀ s h op, J s h → A h ⟨op, (H.answer s op).1⟩ ∧
      J (H.answer s op).2 (⟨op, (H.answer s op).1⟩ :: h))
    (hJ : J s h) :
    ∃ h', Q h' (exec H p s).1 ∧ J (exec H p s).2 h' := by
  induction p generalizing s h with
  | done a => exact ⟨h, (safe_done a).mp hp, hJ⟩
  | step op next ih =>
      obtain ⟨hA, hJ'⟩ := answers s h op hJ
      exact ih _ (((safe_step op next).mp hp).2 _ hA) hJ'

end Program

/-! ### Scheduled runs of a pool -/

/-- A handler whose answers a system allows. -/
def Handler.Sound (S : System I) (H : Handler I S.State) : Prop :=
  ∀ s op, S.Commit s ⟨op, (H.answer s op).1⟩ (H.answer s op).2

namespace World

variable {S : System I}

/-- Call `i` performs its next operation, if it has one. -/
def tick (H : Handler I S.State) (w : World S) (i : ℕ) : World S :=
  match w.calls i with
  | none => w
  | some c =>
      match c.rest with
      | some (.step op next) =>
          match H.answer w.shared op with
          | (reply, s) => w.commit i c ⟨op, reply⟩ (next reply) s
      | _ => w

/-- The calls move in the order of the schedule. -/
def ticks (H : Handler I S.State) (w : World S) (schedule : List ℕ) : World S :=
  schedule.foldl (tick H) w

variable {H : Handler I S.State} {init : S.State → Prop} {mayStart : World S → S.Entry → Prop}
  {w : World S}

theorem Reachable.tick (hw : Reachable init mayStart w) (hH : H.Sound S) (i : ℕ) :
    Reachable init mayStart (w.tick H i) := by
  unfold World.tick
  cases hc : w.calls i with
  | none => exact hw
  | some c =>
      simp only []
      cases hrest : c.rest with
      | none => exact hw
      | some p =>
          cases p with
          | done r => exact hw
          | step op next => exact hw.commit hc hrest (hH w.shared op)

/-- A scheduled run is a run. -/
theorem Reachable.ticks (hw : Reachable init mayStart w) (hH : H.Sound S) (schedule : List ℕ) :
    Reachable init mayStart (w.ticks H schedule) := by
  induction schedule generalizing w with
  | nil => exact hw
  | cons i schedule ih => exact ih (hw.tick hH i)

/-- A tick is a step of the pool, or nothing happens. -/
theorem tick_step (hH : H.Sound S) (w : World S) (i : ℕ) :
    w.tick H i = w ∨ Step mayStart w (w.tick H i) := by
  unfold World.tick
  cases hc : w.calls i with
  | none => exact .inl rfl
  | some c =>
      simp only []
      cases hrest : c.rest with
      | none => exact .inl rfl
      | some p =>
          cases p with
          | done r => exact .inl rfl
          | step op next => exact .inr (.commit hc hrest (hH w.shared op))

/-- A tick moves one call. -/
theorem tick_calls_of_ne (w : World S) {i j : ℕ} (h : j ≠ i) :
    (w.tick H i).calls j = w.calls j := by
  unfold World.tick
  cases hc : w.calls i with
  | none => rfl
  | some c =>
      simp only []
      cases hrest : c.rest with
      | none => rfl
      | some p =>
          cases p with
          | done r => rfl
          | step op next => exact Function.update_of_ne h _ _

/-- A scheduled run moves only the calls in the schedule. -/
theorem ticks_calls_of_notMem (w : World S) {schedule : List ℕ} {j : ℕ} (h : j ∉ schedule) :
    (w.ticks H schedule).calls j = w.calls j := by
  induction schedule generalizing w with
  | nil => rfl
  | cons i schedule ih =>
      rw [List.mem_cons, not_or] at h
      exact (ih (w.tick H i) h.2).trans (tick_calls_of_ne w h.1)

/-- A scheduled run consists of steps. -/
theorem ticks_steps (hH : H.Sound S) (w : World S) (schedule : List ℕ) :
    Relation.ReflTransGen (Step mayStart) w (w.ticks H schedule) := by
  induction schedule generalizing w with
  | nil => exact .refl
  | cons i schedule ih =>
      have hmoves : w.tick H i = w ∨ Step mayStart w (w.tick H i) := tick_step hH w i
      have hrest := ih (w.tick H i)
      rcases hmoves with hsame | hstep
      · rw [hsame] at hrest
        change Relation.ReflTransGen _ w (World.ticks H (w.tick H i) schedule)
        rwa [hsame]
      · exact .head hstep hrest

/-- A scheduled run stays within bounds if each of its worlds does. -/
theorem ReachableWithin.ticks {within : World S → Prop}
    (hw : ReachableWithin init mayStart within w) (hH : H.Sound S) (schedule : List ℕ)
    (hbounds : ∀ k ≤ schedule.length, within (w.ticks H (schedule.take k))) :
    ReachableWithin init mayStart within (w.ticks H schedule) := by
  induction schedule using List.reverseRecOn with
  | nil => exact hw
  | append_singleton schedule i ih =>
      have hlast : w.ticks H (schedule ++ [i]) = (w.ticks H schedule).tick H i := by
        rw [World.ticks, List.foldl_append]
        rfl
      have hearlier : ReachableWithin init mayStart within (w.ticks H schedule) := by
        apply ih
        intro k hk
        have hbound := hbounds k (by rw [List.length_append]; omega)
        rwa [List.take_append_of_le_length hk] at hbound
      have hend := hbounds (schedule ++ [i]).length le_rfl
      rw [List.take_length, hlast] at hend
      rw [hlast]
      have hmoves : (w.ticks H schedule).tick H i = w.ticks H schedule ∨
          Step mayStart (w.ticks H schedule) ((w.ticks H schedule).tick H i) := tick_step hH _ i
      rcases hmoves with hsame | hstep
      · rw [hsame]
        exact hearlier
      · exact hearlier.tail hstep hend

/-- The world after call `i` has run alone from its start to its end. -/
def after (H : Handler I S.State) (w : World S) (i : ℕ) (entry : S.Entry) : World S :=
  let run := Program.exec H.recording (S.body entry) (w.shared, [])
  { shared := run.2.1
    calls := Function.update w.calls i (some ⟨entry, run.2.2, some (.done run.1)⟩)
    log := run.2.2.map (i, ·) ++ w.log }

/-- A call that has run alone has returned what its program computes. -/
theorem after_call (H : Handler I S.State) (w : World S) (i : ℕ) (entry : S.Entry) :
    ∃ history, (w.after H i entry).calls i =
      some ⟨entry, history, some (.done (Program.exec H (S.body entry) w.shared).1)⟩ := by
  rw [← (Program.exec_recording (h := []) (S.body entry)).1]
  exact ⟨_, Function.update_self i _ w.calls⟩

/-- A call that runs alone is a run. -/
theorem Reachable.after (hw : Reachable init mayStart w) (hH : H.Sound S) {i : ℕ} {entry : S.Entry}
    (hfresh : w.calls i = none) (hmay : mayStart w entry) :
    Reachable init mayStart (w.after H i entry) := by
  -- the world in which the call still has `p` to do
  let standing (p : Program I S.Result) (s : S.State) (history : History I) : World S :=
    { shared := s
      calls := Function.update w.calls i (some ⟨entry, history, some p⟩)
      log := history.map (i, ·) ++ w.log }
  suffices h : ∀ p s history, Reachable init mayStart (standing p s history) →
      Reachable init mayStart (standing (.done (Program.exec H.recording p (s, history)).1)
        (Program.exec H.recording p (s, history)).2.1
        (Program.exec H.recording p (s, history)).2.2) from
    h _ _ [] (hw.start hfresh hmay)
  intro p
  induction p with
  | done r => exact fun s history hw' => hw'
  | step op next ih =>
      intro s history hw'
      have hcommit := hw'.commit (Function.update_self i _ _) rfl (hH s op)
      refine ih _ _ (⟨op, (H.answer s op).1⟩ :: history) ?_
      simpa [standing, World.commit] using hcommit

theorem reachable_initial {s : S.State} (hs : init s) :
    Reachable init mayStart (initial s : World S) :=
  ⟨s, hs, .refl⟩

/-- Call `i` of a world where it has performed what is in `history` and still has `p` to
do. -/
def standing (w : World S) (i : ℕ) (entry : S.Entry) (p : Program I S.Result) (s : S.State)
    (history : History I) : World S :=
  { shared := s
    calls := Function.update w.calls i (some ⟨entry, history, some p⟩)
    log := history.map (i, ·) ++ w.log }

/-- A call that runs alone meets a condition on its steps if each of its steps passes a
check. -/
theorem ReachableBy.standing {allowed : World S → World S → Prop}
    {ok : S.State → History I → Event I → S.State → Bool} (hH : H.Sound S) {i : ℕ}
    {entry : S.Entry}
    (hok : ∀ p q s history e s', ok s history e s' = true →
      allowed (w.standing i entry p s history) (w.standing i entry q s' (e :: history)))
    (p : Program I S.Result) {s : S.State} {history : History I}
    (hw : ReachableBy init mayStart allowed (w.standing i entry p s history))
    (hpasses : p.passes H ok s history = true) :
    ReachableBy init mayStart allowed
      (w.standing i entry (.done (Program.exec H.recording p (s, history)).1)
        (Program.exec H.recording p (s, history)).2.1
        (Program.exec H.recording p (s, history)).2.2) := by
  induction p generalizing s history with
  | done r => exact hw
  | step op next ih =>
      rw [Program.passes, Bool.and_eq_true] at hpasses
      refine ih _ (hw.tail ?_ (hok _ _ _ _ _ _ hpasses.1)) hpasses.2
      have hstep : Step mayStart (w.standing i entry (.step op next) s history)
          ((w.standing i entry (.step op next) s history).commit i _ _ _ _) :=
        .commit (Function.update_self i _ _) rfl (hH s op)
      simpa [World.standing, World.commit] using hstep

end World

/-! ### Answers that may be missing -/

/-- An answer to each operation that need not wait, and the state after it. -/
structure Answers (I : Interface) (σ : Type) where
  answer : σ → (op : I.Op) → Option (I.Reply op × σ)

/-- Answers that a system allows. -/
def Answers.Sound (S : System I) (A : Answers I S.State) : Prop :=
  ∀ s op reply s', A.answer s op = some (reply, s') → S.Commit s ⟨op, reply⟩ s'

/-- Answers to the operations of one kind only. -/
def Answers.only (A : Answers I σ) (kind : I.Op → Bool) : Answers I σ where
  answer s op := if kind op then A.answer s op else none

theorem Answers.only_eq_some {A : Answers I σ} {kind : I.Op → Bool} {s s' : σ} {op : I.Op}
    {reply : I.Reply op} (h : (A.only kind).answer s op = some (reply, s')) :
    kind op = true ∧ A.answer s op = some (reply, s') := by
  unfold Answers.only at h
  simp only [] at h
  split at h
  · rename_i hkind
    exact ⟨hkind, h⟩
  · cases h

theorem Answers.Sound.only {S : System I} {A : Answers I S.State} (hA : A.Sound S)
    (kind : I.Op → Bool) : (A.only kind).Sound S :=
  fun s op reply s' h => hA s op reply s' (only_eq_some h).2

namespace World

variable {S : System I} {A : Answers I S.State} {init : S.State → Prop}
  {mayStart : World S → S.Entry → Prop} {allowed : World S → World S → Prop} {w : World S}

/-- Call `i` performs its next operation, if it has one that need not wait. -/
def move (A : Answers I S.State) (w : World S) (i : ℕ) : World S :=
  match w.calls i with
  | none => w
  | some c =>
      match c.rest with
      | some (.step op next) =>
          match A.answer w.shared op with
          | none => w
          | some (reply, s) => w.commit i c ⟨op, reply⟩ (next reply) s
      | _ => w

/-- The calls move in the order of the schedule. -/
def moves (A : Answers I S.State) (w : World S) (schedule : List ℕ) : World S :=
  schedule.foldl (move A) w

/-- A call that has moved has performed an operation with the answer to it. -/
inductive Moved (A : Answers I S.State) (w : World S) (i : ℕ) : World S → Prop
  | commit {c : Call S} {op : I.Op} {next : I.Reply op → Program I S.Result} {reply : I.Reply op}
      {s : S.State} : w.calls i = some c → c.rest = some (.step op next) →
      A.answer w.shared op = some (reply, s) →
      Moved A w i (w.commit i c ⟨op, reply⟩ (next reply) s)

theorem move_cases (A : Answers I S.State) (w : World S) (i : ℕ) :
    w.move A i = w ∨ Moved A w i (w.move A i) := by
  unfold World.move
  cases hc : w.calls i with
  | none => exact .inl rfl
  | some c =>
      simp only []
      cases hrest : c.rest with
      | none => exact .inl rfl
      | some p =>
          cases p with
          | done r => exact .inl rfl
          | step op next =>
              simp only []
              cases hanswer : A.answer w.shared op with
              | none => exact .inl rfl
              | some answered =>
                  obtain ⟨reply, s⟩ := answered
                  exact .inr (.commit hc hrest hanswer)

theorem Moved.step {i : ℕ} {w' : World S} (h : Moved A w i w') (hA : A.Sound S) :
    Step mayStart w w' := by
  cases h with
  | commit hc hrest hanswer => exact .commit hc hrest (hA _ _ _ _ hanswer)

theorem Moved.calls_of_ne {i j : ℕ} {w' : World S} (h : Moved A w i w') (hj : j ≠ i) :
    w'.calls j = w.calls j := by
  cases h with
  | commit _ _ _ => exact Function.update_of_ne hj _ _

/-- A scheduled run moves only the calls in the schedule. -/
theorem moves_calls_of_notMem (w : World S) {schedule : List ℕ} {j : ℕ} (h : j ∉ schedule) :
    (w.moves A schedule).calls j = w.calls j := by
  induction schedule generalizing w with
  | nil => rfl
  | cons i schedule ih =>
      rw [List.mem_cons, not_or] at h
      refine (ih (w.move A i) h.2).trans ?_
      rcases move_cases A w i with hsame | hmoved
      · rw [hsame]
      · exact hmoved.calls_of_ne h.1

theorem reachableBy_initial {s : S.State} (hs : init s) :
    ReachableBy init mayStart allowed (initial s : World S) :=
  ⟨s, hs, .refl⟩

theorem moves_steps (hA : A.Sound S) (w : World S) (schedule : List ℕ) :
    Relation.ReflTransGen (Step mayStart) w (w.moves A schedule) := by
  induction schedule generalizing w with
  | nil => exact .refl
  | cons i schedule ih =>
      refine Relation.ReflTransGen.trans ?_ (ih (w.move A i))
      rcases move_cases A w i with hsame | hmoved
      · rw [hsame]
      · exact .single (hmoved.step hA)

theorem Reachable.moves (hw : Reachable init mayStart w) (hA : A.Sound S) (schedule : List ℕ) :
    Reachable init mayStart (w.moves A schedule) :=
  hw.steps (moves_steps hA w schedule)

theorem ReachableBy.move {i : ℕ} (hw : ReachableBy init mayStart allowed w) (hA : A.Sound S)
    (hallowed : ∀ w', Moved A w i w' → allowed w w') :
    ReachableBy init mayStart allowed (w.move A i) := by
  rcases move_cases A w i with hsame | hmoved
  · rw [hsame]
    exact hw
  · exact hw.tail (hmoved.step hA) (hallowed _ hmoved)

/-- A call moves by a step that is known. -/
theorem ReachableBy.moved {i : ℕ} (hw : ReachableBy init mayStart allowed w) (hA : A.Sound S)
    (hallowed : allowed w (w.move A i)) : ReachableBy init mayStart allowed (w.move A i) := by
  rcases move_cases A w i with hsame | hmoved
  · rw [hsame]
    exact hw
  · exact hw.tail (hmoved.step hA) hallowed

theorem ReachableBy.moves (hw : ReachableBy init mayStart allowed w) (hA : A.Sound S)
    (hallowed : ∀ w i w', Moved A w i w' → allowed w w') (schedule : List ℕ) :
    ReachableBy init mayStart allowed (w.moves A schedule) := by
  induction schedule generalizing w with
  | nil => exact hw
  | cons i schedule ih => exact ih (hw.move hA (hallowed w i))

end World

end VorCommander.Steps
