import Mathlib.Data.List.Basic
import Mathlib.Logic.Function.Basic
import Mathlib.Logic.Relation
import VorCommander.Steps.Program

/-!
A pool of programs interleaved over one shared state.

A `System` says which programs can be started and what one operation may do
to the shared state; `Commit` is a relation, so an operation may have several
replies and several effects. In a world any number of calls are in progress,
each somewhere inside its program. One step starts a call, performs the next
operation of one call, or ends the process a call runs in, after which that
call never moves again. Every interleaving is a run, and every operation is
recorded in the log with the number of the call that performed it.

The theorems at the end are the only way the rest of the development argues
about runs. A world invariant over the shared state and the log is checked
once for each committed operation (`Reachable.invariant`), and what `Safe`
says of the program of each entry point then holds of every call wherever it
stands (`Reachable.guarantee`, `Reachable.result`).
-/

namespace VorCommander.Steps

/-- The programs of a pool and the effect of one operation. -/
structure System (I : Interface) where
  State : Type
  Entry : Type
  Result : Type
  body : Entry → Program I Result
  Commit : State → Event I → State → Prop

variable {I : Interface}

/-- One call: what was started, what it has performed so far, and what it
still has to do. Nothing is left of a call whose process has ended. -/
structure Call (S : System I) where
  entry : S.Entry
  history : History I
  rest : Option (Program I S.Result)

/-- The events of all calls, the newest first, each with its call number. -/
abbrev Log (I : Interface) := List (ℕ × Event I)

/-- The events of one call. -/
def Log.of (log : Log I) (i : ℕ) : History I :=
  (log.filter fun entry => entry.1 = i).map (·.2)

@[simp] theorem Log.of_nil (i : ℕ) : Log.of ([] : Log I) i = [] := rfl

@[simp] theorem Log.of_cons_self (log : Log I) (i : ℕ) (e : Event I) :
    Log.of ((i, e) :: log) i = e :: Log.of log i := by
  simp [Log.of]

theorem Log.of_cons_ne (log : Log I) {i j : ℕ} (e : Event I) (h : j ≠ i) :
    Log.of ((j, e) :: log) i = Log.of log i := by
  simp [Log.of, h]

theorem Log.of_append (log log' : Log I) (i : ℕ) :
    Log.of (log ++ log') i = Log.of log i ++ Log.of log' i := by
  simp [Log.of]

@[simp] theorem Log.of_map_self (h : History I) (i : ℕ) : Log.of (h.map (i, ·)) i = h := by
  simp [Log.of, List.filter_map, Function.comp_def]

/-- The last event of a call in the log of all calls. -/
theorem Log.split_of_cons {log : Log I} {i : ℕ} {e : Event I} {h : History I}
    (hlog : Log.of log i = e :: h) :
    ∃ later earlier, log = later ++ (i, e) :: earlier ∧ Log.of earlier i = h := by
  induction log with
  | nil => simp at hlog
  | cons entry log ih =>
      obtain ⟨j, e'⟩ := entry
      by_cases hij : j = i
      · subst hij
        rw [Log.of_cons_self] at hlog
        obtain ⟨rfl, rfl⟩ := List.cons.inj hlog
        exact ⟨[], log, rfl, rfl⟩
      · rw [Log.of_cons_ne log e' hij] at hlog
        obtain ⟨later, earlier, rfl, hearlier⟩ := ih hlog
        exact ⟨(j, e') :: later, earlier, rfl, hearlier⟩

@[simp] theorem Log.mem_of {log : Log I} {i : ℕ} {e : Event I} :
    e ∈ Log.of log i ↔ (i, e) ∈ log := by
  simp only [Log.of, List.mem_map, List.mem_filter, decide_eq_true_eq, Prod.exists]
  constructor
  · rintro ⟨j, e', ⟨hmem, rfl⟩, rfl⟩
    exact hmem
  · exact fun hmem => ⟨i, e, ⟨hmem, rfl⟩, rfl⟩

/-- The shared state, the calls by number, and the log. -/
structure World (S : System I) where
  shared : S.State
  calls : ℕ → Option (Call S)
  log : Log I

namespace World

variable {S : System I}

/-- The world in which nothing has been started. -/
def initial (s : S.State) : World S := ⟨s, fun _ => none, []⟩

/-- Call `i` as it is when `entry` is started. -/
def start (w : World S) (i : ℕ) (entry : S.Entry) : World S :=
  { w with calls := Function.update w.calls i (some ⟨entry, [], some (S.body entry)⟩) }

/-- Call `i` after the event `e`, which leaves it with `rest`. -/
def commit (w : World S) (i : ℕ) (c : Call S) (e : Event I) (rest : Program I S.Result)
    (s : S.State) : World S :=
  { shared := s
    calls := Function.update w.calls i (some ⟨c.entry, e :: c.history, some rest⟩)
    log := (i, e) :: w.log }

/-- Call `i` after its process has ended. -/
def crash (w : World S) (i : ℕ) (c : Call S) : World S :=
  { w with calls := Function.update w.calls i (some ⟨c.entry, c.history, none⟩) }

/-- One step of a pool in which only admitted entries are started. -/
inductive Step (mayStart : World S → S.Entry → Prop) : World S → World S → Prop
  | start {w : World S} {i : ℕ} {entry : S.Entry} :
      w.calls i = none → mayStart w entry → Step mayStart w (w.start i entry)
  | commit {w : World S} {i : ℕ} {c : Call S} {op : I.Op}
      {next : I.Reply op → Program I S.Result} {reply : I.Reply op} {s : S.State} :
      w.calls i = some c → c.rest = some (.step op next) →
      S.Commit w.shared ⟨op, reply⟩ s →
      Step mayStart w (w.commit i c ⟨op, reply⟩ (next reply) s)
  | crash {w : World S} {i : ℕ} {c : Call S} :
      w.calls i = some c → Step mayStart w (w.crash i c)

/-- The worlds a run can reach from a shared state allowed by `init`. -/
def Reachable (init : S.State → Prop) (mayStart : World S → S.Entry → Prop) (w : World S) : Prop :=
  ∃ s, init s ∧ Relation.ReflTransGen (Step mayStart) (initial s) w

/-- Nothing restricts which calls are started. -/
def anyEntry (_ : World S) (_ : S.Entry) : Prop := True

variable {init : S.State → Prop} {mayStart : World S → S.Entry → Prop} {w : World S}

theorem Reachable.start {i : ℕ} {entry : S.Entry} (hw : Reachable init mayStart w)
    (hfresh : w.calls i = none) (hmay : mayStart w entry) :
    Reachable init mayStart (w.start i entry) := by
  obtain ⟨s, hs, run⟩ := hw
  exact ⟨s, hs, run.tail (.start hfresh hmay)⟩

theorem Reachable.commit {i : ℕ} {c : Call S} {op : I.Op}
    {next : I.Reply op → Program I S.Result} {reply : I.Reply op} {s : S.State}
    (hw : Reachable init mayStart w) (hc : w.calls i = some c)
    (hrest : c.rest = some (.step op next)) (hcommit : S.Commit w.shared ⟨op, reply⟩ s) :
    Reachable init mayStart (w.commit i c ⟨op, reply⟩ (next reply) s) := by
  obtain ⟨s₀, hs₀, run⟩ := hw
  exact ⟨s₀, hs₀, run.tail (.commit hc hrest hcommit)⟩

theorem Reachable.steps {w' : World S} (hw : Reachable init mayStart w)
    (hsteps : Relation.ReflTransGen (Step mayStart) w w') : Reachable init mayStart w' := by
  obtain ⟨s, hs, run⟩ := hw
  exact ⟨s, hs, run.trans hsteps⟩

/-- Induction over runs. -/
theorem Reachable.induction {P : World S → Prop} (hw : Reachable init mayStart w)
    (base : ∀ s, init s → P (initial s))
    (step : ∀ w w', Reachable init mayStart w → P w → Step mayStart w w' → P w') : P w := by
  obtain ⟨s, hs, run⟩ := hw
  induction run with
  | refl => exact base s hs
  | tail run hstep ih => exact step _ _ ⟨s, hs, run⟩ ih hstep

/-! ### Calls and the log -/

/-- Where call `i` stands agrees with what the log has of it. -/
structure Consistent (w : World S) : Prop where
  history : ∀ i c, w.calls i = some c → c.history = w.log.of i
  path : ∀ i c, w.calls i = some c → ∃ p, Program.Path (S.body c.entry) c.history p ∧
    ∀ q, c.rest = some q → q = p
  started : ∀ i e, (i, e) ∈ w.log → ∃ c, w.calls i = some c

theorem consistent_initial (s : S.State) : (initial s : World S).Consistent where
  history := by simp [initial]
  path := by simp [initial]
  started := by simp [initial]

theorem Consistent.step {w' : World S} (hw : w.Consistent) (hstep : Step mayStart w w') :
    w'.Consistent := by
  cases hstep with
  | @start i entry hfresh _ =>
      have hnone : w.log.of i = [] := by
        rw [List.eq_nil_iff_forall_not_mem]
        intro e he
        obtain ⟨c, hc⟩ := hw.started i e (Log.mem_of.mp he)
        simp [hfresh] at hc
      refine ⟨fun j c hj => ?_, fun j c hj => ?_, fun j e he => ?_⟩
      · by_cases h : j = i
        · subst h
          simp only [World.start, Function.update_self, Option.some.injEq] at hj
          simp [World.start, ← hj, hnone]
        · exact hw.history j c (by simpa [World.start, h] using hj)
      · by_cases h : j = i
        · subst h
          simp only [World.start, Function.update_self, Option.some.injEq] at hj
          subst hj
          exact ⟨_, .nil, fun q hq => (Option.some.inj hq).symm⟩
        · exact hw.path j c (by simpa [World.start, h] using hj)
      · by_cases h : j = i
        · simp [World.start, h]
        · simpa [World.start, h] using hw.started j e he
  | @commit i c op next reply s hc hrest _ =>
      refine ⟨fun j c' hj => ?_, fun j c' hj => ?_, fun j e he => ?_⟩
      · by_cases h : j = i
        · subst h
          simp only [World.commit, Function.update_self, Option.some.injEq] at hj
          simp [World.commit, ← hj, hw.history j c hc]
        · have hj' : w.calls j = some c' := by simpa [World.commit, h] using hj
          simpa [World.commit, Log.of_cons_ne _ _ (Ne.symm h)] using hw.history j c' hj'
      · by_cases h : j = i
        · subst h
          simp only [World.commit, Function.update_self, Option.some.injEq] at hj
          subst hj
          obtain ⟨p, path, hp⟩ := hw.path j c hc
          have hstep : Program.Path (S.body c.entry) c.history (.step op next) :=
            hp _ hrest ▸ path
          exact ⟨_, hstep.cons reply, fun q hq => (Option.some.inj hq).symm⟩
        · exact hw.path j c' (by simpa [World.commit, h] using hj)
      · by_cases h : j = i
        · simp [World.commit, h]
        · have he' : (j, e) ∈ w.log := by simpa [World.commit, h] using he
          simpa [World.commit, h] using hw.started j e he'
  | @crash i c hc =>
      refine ⟨fun j c' hj => ?_, fun j c' hj => ?_, fun j e he => ?_⟩
      · by_cases h : j = i
        · subst h
          simp only [World.crash, Function.update_self, Option.some.injEq] at hj
          simp [World.crash, ← hj, hw.history j c hc]
        · exact hw.history j c' (by simpa [World.crash, h] using hj)
      · by_cases h : j = i
        · subst h
          simp only [World.crash, Function.update_self, Option.some.injEq] at hj
          subst hj
          obtain ⟨p, path, _⟩ := hw.path j c hc
          exact ⟨p, path, by simp⟩
        · exact hw.path j c' (by simpa [World.crash, h] using hj)
      · by_cases h : j = i
        · simp [World.crash, h]
        · simpa [World.crash, h] using hw.started j e he

theorem Reachable.consistent (hw : Reachable init mayStart w) : w.Consistent :=
  hw.induction (fun s _ => consistent_initial s) fun _ _ _ hw hstep => hw.step hstep

/-! ### Invariants -/

/-- An invariant of the shared state and the log, checked for each committed
operation, holds in every reachable world. -/
theorem Reachable.invariant {J : S.State → Log I → Prop} (hw : Reachable init mayStart w)
    (base : ∀ s, init s → J s [])
    (preserve : ∀ s log i e s', J s log → S.Commit s e s' → J s' ((i, e) :: log)) :
    J w.shared w.log := by
  suffices h : ∀ w : World S, Reachable init mayStart w → J w.shared w.log from h w hw
  intro w hw
  apply hw.induction base
  intro w w' _ ih hstep
  cases hstep with
  | start _ _ => exact ih
  | commit _ _ hcommit => exact preserve _ _ _ _ _ ih hcommit
  | crash _ => exact ih

/-- What held of an entry when it was started keeps holding, if it is
monotone in the log. -/
theorem Reachable.entry {P : S.Entry → Log I → Prop} (hw : Reachable init mayStart w)
    (hmay : ∀ w entry, Reachable init mayStart w → mayStart w entry → P entry w.log)
    (grow : ∀ entry log i e, P entry log → P entry ((i, e) :: log))
    {i : ℕ} {c : Call S} (hc : w.calls i = some c) : P c.entry w.log := by
  suffices h : ∀ i c, w.calls i = some c → P c.entry w.log from h i c hc
  apply hw.induction
  · simp [initial]
  intro w w' hw ih hstep i c hc
  cases hstep with
  | @start j entry _ h =>
      by_cases hij : i = j
      · subst hij
        simp only [World.start, Function.update_self, Option.some.injEq] at hc
        subst hc
        exact hmay w entry hw h
      · exact ih i c (by simpa [World.start, hij] using hc)
  | @commit j c' op next reply s hc' _ _ =>
      by_cases hij : i = j
      · subst hij
        simp only [World.commit, Function.update_self, Option.some.injEq] at hc
        subst hc
        exact grow _ _ _ _ (ih i c' hc')
      · exact grow _ _ _ _ (ih i c (by simpa [World.commit, hij] using hc))
  | @crash j c' hc' =>
      by_cases hij : i = j
      · subst hij
        simp only [World.crash, Function.update_self, Option.some.injEq] at hc
        subst hc
        exact ih i c' hc'
      · exact ih i c (by simpa [World.crash, hij] using hc)

theorem start_calls (w : World S) (i : ℕ) (entry : S.Entry) :
    (w.start i entry).calls i = some ⟨entry, [], some (S.body entry)⟩ :=
  Function.update_self ..

theorem start_calls_of_ne (w : World S) {i j : ℕ} (entry : S.Entry) (h : j ≠ i) :
    (w.start i entry).calls j = w.calls j :=
  Function.update_of_ne h _ _

/-- A step adds to the log. -/
theorem Step.log {w' : World S} (hstep : Step mayStart w w') :
    ∃ added, w'.log = added ++ w.log := by
  cases hstep with
  | start _ _ => exact ⟨[], rfl⟩
  | @commit i c op next reply s _ _ _ => exact ⟨[(i, ⟨op, reply⟩)], rfl⟩
  | crash _ => exact ⟨[], rfl⟩

theorem log_of_steps {w' : World S} (hsteps : Relation.ReflTransGen (Step mayStart) w w') :
    ∃ added, w'.log = added ++ w.log := by
  induction hsteps with
  | refl => exact ⟨[], rfl⟩
  | tail _ hstep ih =>
      obtain ⟨added, hadded⟩ := ih
      obtain ⟨last, hlast⟩ := hstep.log
      exact ⟨last ++ added, by rw [hlast, hadded, List.append_assoc]⟩

/-- A call keeps its entry. -/
theorem Step.entry {w' : World S} (hstep : Step mayStart w w') {i : ℕ} {c : Call S}
    (hc : w.calls i = some c) : ∃ c', w'.calls i = some c' ∧ c'.entry = c.entry := by
  cases hstep with
  | @start j entry hfresh _ =>
      have hij : i ≠ j := by
        rintro rfl
        simp [hfresh] at hc
      exact ⟨c, by simpa [World.start, hij] using hc, rfl⟩
  | @commit j c' op next reply s hc' _ _ =>
      by_cases hij : i = j
      · subst hij
        obtain rfl := Option.some.inj (hc.symm.trans hc')
        exact ⟨_, Function.update_self i _ _, rfl⟩
      · exact ⟨c, by simpa [World.commit, hij] using hc, rfl⟩
  | @crash j c' hc' =>
      by_cases hij : i = j
      · subst hij
        obtain rfl := Option.some.inj (hc.symm.trans hc')
        exact ⟨_, Function.update_self i _ _, rfl⟩
      · exact ⟨c, by simpa [World.crash, hij] using hc, rfl⟩

/-- The world right before an event of the log, in which the call that is
about to perform it has been started. -/
theorem Reachable.before (hw : Reachable init mayStart w) {later earlier : Log I} {i : ℕ}
    {e : Event I} (hlog : w.log = later ++ (i, e) :: earlier) :
    ∃ w' c c', Reachable init mayStart w' ∧ w'.log = earlier ∧ w'.calls i = some c' ∧
      w.calls i = some c ∧ c.entry = c'.entry := by
  suffices h : ∀ later, w.log = later ++ (i, e) :: earlier → ∃ w' c c',
      Reachable init mayStart w' ∧ w'.log = earlier ∧ w'.calls i = some c' ∧
        w.calls i = some c ∧ c.entry = c'.entry from h later hlog
  apply hw.induction
  · simp [initial]
  intro w₁ w₂ hw₁ ih hstep later hlog
  -- only a commit lengthens the log, by one event
  have hstays : ∀ later, w₁.log = later ++ (i, e) :: earlier → ∃ w' c c',
      Reachable init mayStart w' ∧ w'.log = earlier ∧ w'.calls i = some c' ∧
        w₂.calls i = some c ∧ c.entry = c'.entry := by
    intro later hlog
    obtain ⟨w', c, c', hw', hlog', hc', hc, hentry⟩ := ih later hlog
    obtain ⟨c₂, hc₂, hentry₂⟩ := hstep.entry hc
    exact ⟨w', c₂, c', hw', hlog', hc', hc₂, hentry₂.trans hentry⟩
  cases hstep with
  | start _ _ => exact hstays later hlog
  | crash _ => exact hstays later hlog
  | @commit j c op next reply s hc _ _ =>
      cases later with
      | cons entry later => exact hstays later (List.cons.inj hlog).2
      | nil =>
          obtain ⟨hhead, hrest⟩ := List.cons.inj hlog
          obtain ⟨rfl, rfl⟩ := Prod.mk.inj hhead
          exact ⟨w₁, _, c, hw₁, hrest, hc, Function.update_self j _ _, rfl⟩

/-- The world of a run in which an event of its log was about to happen. -/
theorem Reachable.committed (hw : Reachable init mayStart w) {later earlier : Log I}
    {i : ℕ} {e : Event I} (hlog : w.log = later ++ (i, e) :: earlier) :
    ∃ w' s, Reachable init mayStart w' ∧ Relation.ReflTransGen (Step mayStart) w' w ∧
      w'.log = earlier ∧ S.Commit w'.shared e s := by
  suffices h : ∀ later, w.log = later ++ (i, e) :: earlier →
      ∃ w' s, Reachable init mayStart w' ∧ Relation.ReflTransGen (Step mayStart) w' w ∧
        w'.log = earlier ∧ S.Commit w'.shared e s from h later hlog
  apply hw.induction
  · simp [initial]
  intro w₁ w₂ hw₁ ih hstep later hlog
  have hstays : ∀ later, w₁.log = later ++ (i, e) :: earlier →
      ∃ w' s, Reachable init mayStart w' ∧ Relation.ReflTransGen (Step mayStart) w' w₂ ∧
        w'.log = earlier ∧ S.Commit w'.shared e s := by
    intro later hlog
    obtain ⟨w', s, hw', hsteps, hrest⟩ := ih later hlog
    exact ⟨w', s, hw', hsteps.tail hstep, hrest⟩
  cases hstep with
  | start _ _ => exact hstays later hlog
  | crash _ => exact hstays later hlog
  | @commit j c op next reply s hc hrest hcommit =>
      cases later with
      | cons entry later => exact hstays later (List.cons.inj hlog).2
      | nil =>
          obtain ⟨hhead, htail⟩ := List.cons.inj hlog
          obtain ⟨rfl, rfl⟩ := Prod.mk.inj hhead
          exact ⟨w₁, s, hw₁, .single (.commit hc hrest hcommit), htail, hcommit⟩

/-- A log in which every reply was allowed when it was given. -/
def Allowed (A : ℕ → History I → Event I → Prop) : Log I → Prop
  | [] => True
  | (i, e) :: log => A i (Log.of log i) e ∧ Allowed A log

theorem Allowed.respects {A : ℕ → History I → Event I → Prop} {log : Log I}
    (h : Allowed A log) (i : ℕ) : Program.Respects (A i) (Log.of log i) := by
  induction log with
  | nil => trivial
  | cons entry log ih =>
      obtain ⟨j, e⟩ := entry
      by_cases hij : j = i
      · subst hij
        rw [Log.of_cons_self]
        exact ⟨h.1, ih h.2⟩
      · rw [Log.of_cons_ne _ _ hij]
        exact ih h.2

theorem Allowed.of_mem {A : ℕ → History I → Event I → Prop} {log : Log I} (h : Allowed A log)
    {i : ℕ} {e : Event I} (he : (i, e) ∈ log) : ∃ history, A i history e := by
  induction log with
  | nil => simp at he
  | cons entry log ih =>
      rcases List.mem_cons.mp he with rfl | he
      · exact ⟨_, h.1⟩
      · exact ih h.2 he

theorem Allowed.suffix {A : ℕ → History I → Event I → Prop} {later log : Log I}
    (h : Allowed A (later ++ log)) : Allowed A log := by
  induction later with
  | nil => exact h
  | cons entry later ih => exact ih h.2

theorem allowed_true (log : Log I) : Allowed (fun _ _ _ => True) log := by
  induction log with
  | nil => trivial
  | cons entry log ih => exact ⟨trivial, ih⟩

/-- What every commit allows is allowed in the log. -/
theorem Reachable.allowed {A : History I → Event I → Prop} (hw : Reachable init mayStart w)
    (hcommit : ∀ history s e s', S.Commit s e s' → A history e) :
    Allowed (fun _ => A) w.log := by
  refine hw.invariant (J := fun _ log => Allowed (fun _ => A) log) (fun _ _ => trivial) ?_
  intro s log i e s' hlog h
  exact ⟨hcommit _ s e s' h, hlog⟩

/-- Every operation in the log was guaranteed by the program that performed
it. -/
theorem Reachable.guarantee {A : History I → Event I → Prop}
    {G : S.Entry → History I → I.Op → Prop} {Q : S.Entry → History I → S.Result → Prop}
    (hw : Reachable init mayStart w)
    (hsafe : ∀ entry, Program.Safe A (G entry) (Q entry) (S.body entry) [])
    (hallowed : Allowed (fun _ => A) w.log)
    {later earlier : Log I} {i : ℕ} {e : Event I} (hlog : w.log = later ++ (i, e) :: earlier) :
    ∃ c, w.calls i = some c ∧ G c.entry (earlier.of i) e.op := by
  obtain ⟨c, hc⟩ := hw.consistent.started i e (by simp [hlog])
  obtain ⟨p, path, _⟩ := hw.consistent.path i c hc
  rw [hw.consistent.history i c hc, hlog, Log.of_append, Log.of_cons_self] at path
  refine ⟨c, hc, path.guarantee (hsafe c.entry) ?_⟩
  rw [hlog] at hallowed
  exact (hallowed.suffix.2).respects i

/-- The next operation of a call is guaranteed. -/
theorem Reachable.guarantee_next {A : History I → Event I → Prop}
    {G : S.Entry → History I → I.Op → Prop} {Q : S.Entry → History I → S.Result → Prop}
    (hw : Reachable init mayStart w)
    (hsafe : ∀ entry, Program.Safe A (G entry) (Q entry) (S.body entry) [])
    (hallowed : Allowed (fun _ => A) w.log) {i : ℕ} {c : Call S} {op : I.Op}
    {next : I.Reply op → Program I S.Result} (hc : w.calls i = some c)
    (hrest : c.rest = some (.step op next)) : G c.entry (w.log.of i) op := by
  obtain ⟨p, path, hp⟩ := hw.consistent.path i c hc
  obtain rfl := hp _ hrest
  rw [hw.consistent.history i c hc] at path
  exact ((Program.safe_step op next).mp (path.safe (hsafe c.entry) (hallowed.respects i))).1

/-- Every result of a finished call satisfies the postcondition of its
program. -/
theorem Reachable.result {A : History I → Event I → Prop}
    {G : S.Entry → History I → I.Op → Prop} {Q : S.Entry → History I → S.Result → Prop}
    (hw : Reachable init mayStart w)
    (hsafe : ∀ entry, Program.Safe A (G entry) (Q entry) (S.body entry) [])
    (hallowed : Allowed (fun _ => A) w.log)
    {i : ℕ} {c : Call S} {r : S.Result} (hc : w.calls i = some c) (hr : c.rest = some (.done r)) :
    Q c.entry (w.log.of i) r := by
  obtain ⟨p, path, hp⟩ := hw.consistent.path i c hc
  obtain rfl := hp _ hr
  rw [hw.consistent.history i c hc] at path
  exact (Program.safe_done r).mp (path.safe (hsafe c.entry) (hallowed.respects i))

/-- An invariant of the shared state and the log may be checked with what each
operation is guaranteed to satisfy. -/
theorem Reachable.invariant_of_guarantee {A : History I → Event I → Prop}
    {G : S.Entry → History I → I.Op → Prop} {Q : S.Entry → History I → S.Result → Prop}
    {J : S.State → Log I → Prop} (hw : Reachable init mayStart w)
    (hsafe : ∀ entry, Program.Safe A (G entry) (Q entry) (S.body entry) [])
    (hcommit : ∀ history s e s', S.Commit s e s' → A history e)
    (base : ∀ s, init s → J s [])
    (preserve : ∀ entry s log i e s', J s log → G entry (Log.of log i) e.op →
      S.Commit s e s' → J s' ((i, e) :: log)) :
    J w.shared w.log := by
  suffices h : ∀ w : World S, Reachable init mayStart w → J w.shared w.log from h w hw
  intro w hw
  apply hw.induction base
  intro w w' hw ih hstep
  cases hstep with
  | start _ _ => exact ih
  | commit hc hrest hstep =>
      have hG := hw.guarantee_next hsafe (hw.allowed hcommit) hc hrest
      exact preserve _ _ _ _ _ _ ih hG hstep
  | crash _ => exact ih

/-! ### Runs that stay within bounds -/

/-- The worlds a run can reach that has never left the worlds in `within`. -/
def ReachableWithin (init : S.State → Prop) (mayStart : World S → S.Entry → Prop)
    (within : World S → Prop) (w : World S) : Prop :=
  ∃ s, init s ∧ within (initial s) ∧
    Relation.ReflTransGen (fun w w' => Step mayStart w w' ∧ within w') (initial s) w

variable {within : World S → Prop}

theorem ReachableWithin.reachable (hw : ReachableWithin init mayStart within w) :
    Reachable init mayStart w := by
  obtain ⟨s, hs, _, run⟩ := hw
  refine ⟨s, hs, ?_⟩
  induction run with
  | refl => exact .refl
  | tail _ hstep ih => exact ih.tail hstep.1

theorem ReachableWithin.bounds (hw : ReachableWithin init mayStart within w) : within w := by
  obtain ⟨s, _, hinitial, run⟩ := hw
  cases run with
  | refl => exact hinitial
  | tail _ h => exact h.2

theorem ReachableWithin.tail {w' : World S} (hw : ReachableWithin init mayStart within w)
    (hstep : Step mayStart w w') (hw' : within w') : ReachableWithin init mayStart within w' := by
  obtain ⟨s, hs, hinitial, run⟩ := hw
  exact ⟨s, hs, hinitial, run.tail ⟨hstep, hw'⟩⟩

/-- Induction over runs that stay within bounds. -/
theorem ReachableWithin.induction {P : World S → Prop}
    (hw : ReachableWithin init mayStart within w) (base : ∀ s, init s → P (initial s))
    (step : ∀ w w', ReachableWithin init mayStart within w → P w → Step mayStart w w' →
      within w' → P w') : P w := by
  obtain ⟨s, hs, hinitial, run⟩ := hw
  induction run with
  | refl => exact base s hs
  | tail run hstep ih => exact step _ _ ⟨s, hs, hinitial, run⟩ ih hstep.1 hstep.2

/-! ### Runs whose steps meet a condition -/

/-- The worlds a run can reach each step of which is allowed. -/
def ReachableBy (init : S.State → Prop) (mayStart : World S → S.Entry → Prop)
    (allowed : World S → World S → Prop) (w : World S) : Prop :=
  ∃ s, init s ∧ Relation.ReflTransGen (fun w w' => Step mayStart w w' ∧ allowed w w') (initial s) w

variable {allowed : World S → World S → Prop}

theorem ReachableBy.reachable (hw : ReachableBy init mayStart allowed w) :
    Reachable init mayStart w := by
  obtain ⟨s, hs, run⟩ := hw
  refine ⟨s, hs, ?_⟩
  induction run with
  | refl => exact .refl
  | tail _ hstep ih => exact ih.tail hstep.1

theorem ReachableBy.tail {w' : World S} (hw : ReachableBy init mayStart allowed w)
    (hstep : Step mayStart w w') (hallowed : allowed w w') :
    ReachableBy init mayStart allowed w' := by
  obtain ⟨s, hs, run⟩ := hw
  exact ⟨s, hs, run.tail ⟨hstep, hallowed⟩⟩

/-- What every allowed step lets a call perform is what the call has performed. -/
theorem ReachableBy.respects {A : History I → Event I → Prop} {i : ℕ}
    (hw : ReachableBy init mayStart allowed w)
    (hstep : ∀ w w' e, Reachable init mayStart w → Step mayStart w w' → allowed w w' →
      w'.log = (i, e) :: w.log → A (w.log.of i) e) : Program.Respects A (w.log.of i) := by
  obtain ⟨s, hs, run⟩ := hw
  induction run with
  | refl => trivial
  | @tail w w' run hlast ih =>
      have hw : Reachable init mayStart w := (show ReachableBy init mayStart allowed w from
        ⟨s, hs, run⟩).reachable
      have hA := fun e => hstep w w' e hw hlast.1 hlast.2
      cases hlast.1 with
      | start _ _ => exact ih
      | crash _ => exact ih
      | @commit j c op next reply s' hc hrest hcommit =>
          show Program.Respects A (Log.of ((j, ⟨op, reply⟩) :: w.log) i)
          by_cases hij : j = i
          · subst hij
            rw [Log.of_cons_self]
            exact ⟨hA _ rfl, ih⟩
          · rw [Log.of_cons_ne _ _ hij]
            exact ih

/-- Induction over runs whose steps meet a condition. -/
theorem ReachableBy.induction {P : World S → Prop} (hw : ReachableBy init mayStart allowed w)
    (base : ∀ s, init s → P (initial s))
    (step : ∀ w w', ReachableBy init mayStart allowed w → P w → Step mayStart w w' →
      allowed w w' → P w') : P w := by
  obtain ⟨s, hs, run⟩ := hw
  induction run with
  | refl => exact base s hs
  | tail run hstep ih => exact step _ _ ⟨s, hs, run⟩ ih hstep.1 hstep.2

end World

end VorCommander.Steps
