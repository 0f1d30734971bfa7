import Mathlib.Tactic.Ring
import Mathlib.Control.Monad.Basic
import VorCommander.Steps.Checks

/-!
Programs as trees of atomic operations.

A program is either finished, or it names one operation of its interface
and says how it goes on for every reply. Nothing about the operations is
fixed here: the same tree is run by one handler alone, or interleaved with
other programs over a shared state, and one property of the tree, `Safe`,
is what both semantics are reasoned with.

`Safe A G Q p h` reads: with `h` the operations already performed (newest
first), every operation `p` performs satisfies the guarantee `G` at the
history it is performed in, and every result satisfies `Q`, provided that
every reply satisfies the assumption `A`. It is a weakest precondition, so
it is computed from the program by the rules of the first section, and no
user unfolds a program tree by hand.
-/

namespace VorCommander.Steps

/-- The operations a program can ask for, and the reply type of each. -/
structure Interface where
  Op : Type
  Reply : Op → Type

/-- An operation together with the reply it received. -/
structure Event (I : Interface) where
  op : I.Op
  reply : I.Reply op

/-- A history of events, the newest first. -/
abbrev History (I : Interface) := List (Event I)

/-- A program over the operations of `I` with result in `α`. -/
inductive Program (I : Interface) (α : Type) : Type
  | done (a : α)
  | step (op : I.Op) (next : I.Reply op → Program I α)

variable {I : Interface} {α β ε ε' : Type}

namespace Program

/-- Sequential composition. -/
def bind : Program I α → (α → Program I β) → Program I β
  | .done a, f => f a
  | .step op next, f => .step op fun reply => (next reply).bind f

instance : Monad (Program I) where
  pure := .done
  bind := bind

@[simp] theorem pure_eq (a : α) : (pure a : Program I α) = .done a := rfl

@[simp] theorem done_bind (a : α) (f : α → Program I β) :
    (Program.done a >>= f) = f a := rfl

@[simp] theorem step_bind (op : I.Op) (next : I.Reply op → Program I α) (f : α → Program I β) :
    (Program.step op next >>= f) = .step op fun reply => next reply >>= f := rfl

theorem bind_done (p : Program I α) : (p >>= .done) = p := by
  induction p with
  | done a => rfl
  | step op next ih =>
      rw [step_bind]
      congr 1
      funext reply
      exact ih reply

theorem bind_assoc {γ : Type} (p : Program I α) (f : α → Program I β) (g : β → Program I γ) :
    (p >>= f) >>= g = p >>= fun a => f a >>= g := by
  induction p with
  | done a => rfl
  | step op next ih =>
      simp only [step_bind]
      congr 1
      funext reply
      exact ih reply

instance : LawfulMonad (Program I) :=
  LawfulMonad.mk' (Program I) bind_done (fun _ _ => rfl) bind_assoc

/-- The program that performs one operation and returns its reply. -/
def perform (op : I.Op) : Program I (I.Reply op) := .step op .done

/-! ### The safety judgment -/

/-- Every operation `p` performs from history `h` on satisfies `G`, and
every result `Q`, if every reply satisfies `A`. -/
def Safe (A : History I → Event I → Prop) (G : History I → I.Op → Prop)
    (Q : History I → α → Prop) : Program I α → History I → Prop
  | .done a, h => Q h a
  | .step op next, h =>
      G h op ∧ ∀ reply, A h ⟨op, reply⟩ → Safe A G Q (next reply) (⟨op, reply⟩ :: h)

variable {A : History I → Event I → Prop} {G : History I → I.Op → Prop}
  {Q R : History I → α → Prop} {h : History I}

@[simp] theorem safe_done (a : α) : Safe A G Q (.done a) h ↔ Q h a := Iff.rfl

@[simp] theorem safe_step (op : I.Op) (next : I.Reply op → Program I α) :
    Safe A G Q (.step op next) h ↔
      G h op ∧ ∀ reply, A h ⟨op, reply⟩ → Safe A G Q (next reply) (⟨op, reply⟩ :: h) :=
  Iff.rfl

/-- The rule of a program that performs one operation and reads its reply. -/
theorem safe_call (op : I.Op) (f : I.Reply op → α) :
    Safe A G Q (.step op fun reply => .done (f reply)) h ↔
      G h op ∧ ∀ reply, A h ⟨op, reply⟩ → Q (⟨op, reply⟩ :: h) (f reply) :=
  Iff.rfl

@[simp] theorem safe_perform (op : I.Op) {Q : History I → I.Reply op → Prop} :
    Safe A G Q (perform op) h ↔
      G h op ∧ ∀ reply, A h ⟨op, reply⟩ → Q (⟨op, reply⟩ :: h) reply :=
  Iff.rfl

theorem safe_bind (p : Program I α) (f : α → Program I β) {Q : History I → β → Prop} :
    Safe A G Q (p >>= f) h ↔ Safe A G (fun h' a => Safe A G Q (f a) h') p h := by
  induction p generalizing h with
  | done a => rfl
  | step op next ih => simp only [step_bind, safe_step, ih]

theorem safe_map (f : α → β) (p : Program I α) {Q : History I → β → Prop} :
    Safe A G Q (f <$> p) h ↔ Safe A G (fun h' a => Q h' (f a)) p h := by
  rw [map_eq_pure_bind, safe_bind]
  rfl

/-- A postcondition can be weakened. -/
theorem Safe.mono {p : Program I α} (hp : Safe A G Q p h) (hQ : ∀ h' a, Q h' a → R h' a) :
    Safe A G R p h := by
  induction p generalizing h with
  | done a => exact hQ h a hp
  | step op next ih =>
      obtain ⟨hG, hnext⟩ := hp
      exact ⟨hG, fun reply hA => ih reply (hnext reply hA)⟩

/-- Nothing is asked of a program. -/
theorem safe_true (p : Program I α) : Safe A (fun _ _ => True) (fun _ _ => True) p h := by
  induction p generalizing h with
  | done a => trivial
  | step op next ih => exact ⟨trivial, fun reply _ => ih reply⟩

/-- Two postconditions established by the same program hold together. -/
theorem Safe.and {p : Program I α} (hp : Safe A G Q p h) (hq : Safe A G R p h) :
    Safe A G (fun h' a => Q h' a ∧ R h' a) p h := by
  induction p generalizing h with
  | done a => exact ⟨hp, hq⟩
  | step op next ih =>
      exact ⟨hp.1, fun reply hA => ih reply (hp.2 reply hA) (hq.2 reply hA)⟩

/-- A program only adds to the history. -/
theorem Safe.grows {p : Program I α} (hp : Safe A G Q p h) :
    Safe A G (fun h' a => Q h' a ∧ ∃ added, h' = added ++ h) p h := by
  induction p generalizing h with
  | done a => exact ⟨hp, [], rfl⟩
  | step op next ih =>
      refine ⟨hp.1, fun reply hA => (ih reply (hp.2 reply hA)).mono ?_⟩
      rintro h' a ⟨hQ, added, rfl⟩
      exact ⟨hQ, added ++ [⟨op, reply⟩], by simp⟩

/-- A guarantee can be weakened. -/
theorem Safe.guarantee {p : Program I α} {G' : History I → I.Op → Prop} (hp : Safe A G Q p h)
    (hG : ∀ h' op, G h' op → G' h' op) : Safe A G' Q p h := by
  induction p generalizing h with
  | done a => exact hp
  | step op next ih => exact ⟨hG h op hp.1, fun reply hA => ih reply (hp.2 reply hA)⟩

/-- What every event keeps holds throughout. -/
theorem Safe.keeps {p : Program I α} {K : History I → Prop} (hp : Safe A G Q p h)
    (hK : ∀ e h, K h → K (e :: h)) (h₀ : K h) :
    Safe A (fun h op => G h op ∧ K h) (fun h a => Q h a ∧ K h) p h := by
  induction p generalizing h with
  | done a => exact ⟨hp, h₀⟩
  | step op next ih =>
      exact ⟨⟨hp.1, h₀⟩, fun reply hA => ih reply (hp.2 reply hA) (hK _ _ h₀)⟩

/-- What a program that only performs operations of one kind adds to the
history is of that kind. -/
theorem Safe.performs {p : Program I α} {kind : I.Op → Prop}
    (hp : Safe A (fun _ op => kind op) Q p h) :
    Safe A (fun _ op => kind op)
      (fun h' a => Q h' a ∧ ∃ added, h' = added ++ h ∧ ∀ e ∈ added, kind e.op) p h := by
  induction p generalizing h with
  | done a => exact ⟨hp, [], rfl, by simp⟩
  | step op next ih =>
      refine ⟨hp.1, fun reply hA => (ih reply (hp.2 reply hA)).mono ?_⟩
      rintro h' a ⟨hQ, added, rfl, hadded⟩
      refine ⟨hQ, added ++ [⟨op, reply⟩], by simp, ?_⟩
      intro e he
      rcases List.mem_append.mp he with he | he
      · exact hadded e he
      · obtain rfl := List.mem_singleton.mp he
        exact hp.1

/-! ### Programs that can fail

A fallible program is `ExceptT ε (Program I) α`; its rules follow the
shape of the `do` block that built it. -/

/-- The outcome of a check that performs no operation. -/
def check (r : Except ε α) : ExceptT ε (Program I) α := ExceptT.mk (.done r)

/-- A program that returns an error as its result, as a fallible program. -/
def attempt (p : Program I (Except ε α)) : ExceptT ε (Program I) α := ExceptT.mk p

/-- What a fallible program still owes once its first part has returned. -/
def Then (A : History I → Event I → Prop) (G : History I → I.Op → Prop)
    (Q : History I → Except ε β → Prop) (f : α → ExceptT ε (Program I) β) :
    History I → Except ε α → Prop
  | h, .ok a => Safe A G Q (f a).run h
  | h, .error e => Q h (.error e)

section ExceptT

variable {Q : History I → Except ε β → Prop}

@[simp] theorem then_ok (f : α → ExceptT ε (Program I) β) (a : α) :
    Then A G Q f h (.ok a) = Safe A G Q (f a).run h := rfl

@[simp] theorem then_error (f : α → ExceptT ε (Program I) β) (e : ε) :
    Then A G Q f h (.error e) = Q h (.error e) := rfl

/-- A check that fails ends the program; one that holds lets it go on. -/
theorem then_failIf (f : Unit → ExceptT ε (Program I) β) (c : Prop) [Decidable c] (e : ε) :
    Then A G Q f h (failIf c e) ↔ (c → Q h (.error e)) ∧ (¬ c → Safe A G Q (f ()).run h) := by
  by_cases hc : c <;> simp [hc]

theorem then_iff (f : α → ExceptT ε (Program I) β) (r : Except ε α) :
    Then A G Q f h r ↔
      (∀ e, r = .error e → Q h (.error e)) ∧ ∀ a, r = .ok a → Safe A G Q (f a).run h := by
  cases r <;> simp

/-- Where an error settles the postcondition, only success is left. -/
theorem then_of_ok {f : α → ExceptT ε (Program I) β} {r : Except ε α}
    (herror : ∀ e, Q h (.error e)) (hok : ∀ a, r = .ok a → Safe A G Q (f a).run h) :
    Then A G Q f h r :=
  (then_iff f r).mpr ⟨fun e _ => herror e, hok⟩

theorem then_mapError (f : α → ExceptT ε (Program I) β) (r : Except ε' α) (g : ε' → ε) :
    Then A G Q f h (r.mapError g) ↔
      (∀ e, r = .error e → Q h (.error (g e))) ∧ ∀ a, r = .ok a → Safe A G Q (f a).run h := by
  cases r <;> simp

theorem then_orFail (f : α → ExceptT ε (Program I) β) (o : Option α) (e : ε) :
    Then A G Q f h (orFail o e) ↔
      (o = none → Q h (.error e)) ∧ ∀ a, o = some a → Safe A G Q (f a).run h := by
  cases o <;> simp

theorem safe_exceptT_bind (p : ExceptT ε (Program I) α) (f : α → ExceptT ε (Program I) β) :
    Safe A G Q (p >>= f).run h ↔ Safe A G (Then A G Q f) p.run h := by
  change Safe A G Q (ExceptT.run p >>= ExceptT.bindCont f) h ↔ _
  rw [safe_bind]
  have hcont : (fun h' a => Safe A G Q (ExceptT.bindCont f a) h') = Then A G Q f := by
    funext h' r
    cases r <;> rfl
  rw [hcont]

@[simp] theorem safe_exceptT_pure (b : β) :
    Safe A G Q (pure b : ExceptT ε (Program I) β).run h ↔ Q h (.ok b) := Iff.rfl

@[simp] theorem safe_exceptT_throw (e : ε) :
    Safe A G Q (throw e : ExceptT ε (Program I) β).run h ↔ Q h (.error e) := Iff.rfl

theorem safe_exceptT_adapt (f : ε' → ε) (p : ExceptT ε' (Program I) β) :
    Safe A G Q (ExceptT.adapt f p).run h ↔
      Safe A G (fun h' r => Q h' (r.mapError f)) p.run h :=
  safe_map _ _

@[simp] theorem safe_exceptT_lift (p : Program I β) :
    Safe A G Q (ExceptT.lift p).run h ↔ Safe A G (fun h' b => Q h' (.ok b)) p h :=
  safe_map _ _

@[simp] theorem safe_check (r : Except ε β) : Safe A G Q (check r).run h ↔ Q h r := Iff.rfl

/-- A check before a program, where an error settles the postcondition. -/
theorem safe_check_bind {f : α → ExceptT ε (Program I) β} {r : Except ε α}
    (herror : ∀ e, Q h (.error e)) (hok : ∀ a, r = .ok a → Safe A G Q (f a).run h) :
    Safe A G Q (check r >>= f).run h :=
  (safe_exceptT_bind _ _).mpr ((safe_check _).mpr (then_of_ok herror hok))

@[simp] theorem safe_attempt (p : Program I (Except ε β)) :
    Safe A G Q (attempt p).run h ↔ Safe A G Q p h := Iff.rfl

end ExceptT

/-! ### Programs of one kind of operations -/

/-- Whatever the replies, every operation of `p` is of a kind. -/
def Only (kind : I.Op → Prop) (p : Program I α) : Prop :=
  ∀ h, Safe (fun _ _ => True) (fun _ op => kind op) (fun _ _ => True) p h

namespace Only

variable {kind : I.Op → Prop}

theorem perform {op : I.Op} (hop : kind op) : Only kind (perform op) :=
  fun _ => (safe_perform op).mpr ⟨hop, fun _ _ => trivial⟩

theorem done (a : α) : Only kind (.done a : Program I α) := fun _ => (safe_done a).mpr trivial

theorem bind {p : Program I α} {f : α → Program I β} (hp : Only kind p)
    (hf : ∀ a, Only kind (f a)) : Only kind (p >>= f) :=
  fun h => (safe_bind p f).mpr ((hp h).mono fun h' a _ => hf a h')

theorem map {p : Program I α} (hp : Only kind p) (f : α → β) : Only kind (f <$> p) :=
  fun h => (safe_map f p).mpr (hp h)

theorem check (r : Except ε α) : Only kind (check r : ExceptT ε (Program I) α).run := done r

theorem attempt {p : Program I (Except ε α)} (hp : Only kind p) : Only kind (attempt p).run := hp

theorem lift {p : Program I α} (hp : Only kind p) :
    Only kind (ExceptT.lift p : ExceptT ε (Program I) α).run := hp.map _

theorem adapt {p : ExceptT ε' (Program I) α} (hp : Only kind p.run) (f : ε' → ε) :
    Only kind (ExceptT.adapt f p).run := hp.map _

theorem exceptT_bind {p : ExceptT ε (Program I) α} {f : α → ExceptT ε (Program I) β}
    (hp : Only kind p.run) (hf : ∀ a, Only kind (f a).run) : Only kind (p >>= f).run := by
  intro h
  refine (safe_exceptT_bind p f).mpr ((hp h).mono fun h' r _ => ?_)
  exact (then_iff f r).mpr ⟨fun _ _ => trivial, fun a _ => hf a h'⟩

theorem throw (e : ε) : Only kind (throw e : ExceptT ε (Program I) α).run :=
  done (Except.error e)

theorem pure (a : α) : Only kind (pure a : ExceptT ε (Program I) α).run := done (Except.ok a)

/-- What every event keeps holds before every operation and in the end. -/
theorem keeps {p : Program I α} (hp : Only kind p) {K : History I → Prop}
    (hK : ∀ e h, K h → K (e :: h)) {h : History I} (h₀ : K h) :
    Safe (fun _ _ => True) (fun h op => kind op ∧ K h) (fun h _ => K h) p h :=
  ((hp h).keeps hK h₀).mono fun _ _ => And.right

end Only

/-! ### Partial runs -/

/-- `Path p h q`: after the events `h` the program `p` has become `q`. -/
inductive Path (p : Program I α) : History I → Program I α → Prop
  | nil : Path p [] p
  | cons {h : History I} {op : I.Op} {next : I.Reply op → Program I α} (reply : I.Reply op) :
      Path p h (.step op next) → Path p (⟨op, reply⟩ :: h) (next reply)

/-- A run can be continued. -/
theorem Path.trans {p q r : Program I α} {h' : History I} (path : Path p h q) (rest : Path q h' r) :
    Path p (h' ++ h) r := by
  induction rest with
  | nil => exact path
  | cons reply _ ih => exact .cons reply ih

/-- The run of the first part of a sequence. -/
theorem Path.first {p q : Program I α} (path : Path p h q) (f : α → Program I β) :
    Path (p >>= f) h (q >>= f) := by
  induction path with
  | nil => exact .nil
  | cons reply _ ih => exact .cons reply ih

theorem Path.bind {p : Program I α} {f : α → Program I β} {a : α} {q : Program I β}
    {h' : History I} (path : Path p h (.done a)) (rest : Path (f a) h' q) :
    Path (p >>= f) (h' ++ h) q :=
  (path.first f).trans rest

theorem Path.map {p : Program I α} {a : α} (path : Path p h (.done a)) (f : α → β) :
    Path (f <$> p) h (.done (f a)) := by
  rw [map_eq_pure_bind]
  exact path.bind .nil

theorem Path.perform {op : I.Op} (reply : I.Reply op) :
    Path (perform op) [⟨op, reply⟩] (.done reply) :=
  .cons reply .nil

/-- The run of a sequence whose first part succeeds. -/
theorem Path.exceptT_bind {p : ExceptT ε (Program I) α} {f : α → ExceptT ε (Program I) β} {a : α}
    {q : Program I (Except ε β)} {h' : History I} (path : Path p.run h (.done (.ok a)))
    (rest : Path (f a).run h' q) : Path (p >>= f).run (h' ++ h) q :=
  Path.bind (f := ExceptT.bindCont f) path rest

theorem Path.check {r : Except ε α} {a : α} (hr : r = .ok a) :
    Path (check r : ExceptT ε (Program I) α).run [] (.done (.ok a)) := by
  rw [hr]
  exact .nil

/-- Every event of a history satisfies `A` at the history before it. -/
def Respects (A : History I → Event I → Prop) : History I → Prop
  | [] => True
  | e :: h => A h e ∧ Respects A h

theorem Respects.suffix {A : History I → Event I → Prop} {later h : History I}
    (hA : Respects A (later ++ h)) : Respects A h := by
  induction later with
  | nil => exact hA
  | cons e later ih => exact ih hA.2

/-- What is safe stays safe along a run. -/
theorem Path.safe {p q : Program I α} (path : Path p h q) (hp : Safe A G Q p [])
    (hA : Respects A h) : Safe A G Q q h := by
  induction path with
  | nil => exact hp
  | cons reply _ ih => exact (ih hA.2).2 reply hA.1

/-- Every operation performed along a run was guaranteed. -/
theorem Path.guarantee {p q : Program I α} {e : Event I} {later earlier : History I}
    (path : Path p (later ++ e :: earlier) q) (hp : Safe A G Q p [])
    (hA : Respects A earlier) : G earlier e.op := by
  generalize hh : later ++ e :: earlier = h at path
  induction path generalizing later with
  | nil => simp at hh
  | cons reply path ih =>
      cases later with
      | nil =>
          obtain ⟨rfl, rfl⟩ := List.cons.inj hh
          exact (path.safe hp hA).1
      | cons e' later => exact ih (List.cons.inj hh).2

/- From here on a judgment is taken apart by its rules only; the elaborator
would otherwise run the program to see what the judgment says. -/
attribute [irreducible] Safe

end Program

end VorCommander.Steps
