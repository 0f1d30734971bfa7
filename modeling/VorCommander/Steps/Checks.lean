import Mathlib.Algebra.BigOperators.Group.Finset.Basic
import Mathlib.Algebra.Order.Ring.Nat
import Mathlib.Tactic.Common

/-!
Checks in sequence.

A function that returns early is a `do` block of `Except`; each early return
is a `failIf`. The lemmas here turn the statement that such a block succeeds
into the conjunction of its checks, in order.
-/

namespace VorCommander.Steps

variable {α β ε ε' : Type}

/-- Return the error if the condition holds, go on otherwise. -/
def failIf (c : Prop) [Decidable c] (e : ε) : Except ε Unit :=
  if c then .error e else .ok ()

@[simp] theorem failIf_eq_ok {c : Prop} [Decidable c] {e : ε} {u : Unit} :
    failIf c e = .ok u ↔ ¬ c := by
  unfold failIf
  split <;> simp_all

@[simp] theorem failIf_of_true {c : Prop} [Decidable c] {e : ε} (h : c) :
    failIf c e = .error e := if_pos h

@[simp] theorem failIf_of_false {c : Prop} [Decidable c] {e : ε} (h : ¬ c) :
    failIf c e = .ok () := if_neg h

@[simp] theorem bind_eq_ok {x : Except ε α} {f : α → Except ε β} {b : β} :
    x >>= f = .ok b ↔ ∃ a, x = .ok a ∧ f a = .ok b := by
  cases x <;> simp [bind, Except.bind]

@[simp] theorem map_eq_ok {x : Except ε α} {f : α → β} {b : β} :
    f <$> x = .ok b ↔ ∃ a, x = .ok a ∧ f a = b := by
  cases x <;> simp [Functor.map, Except.map]

/-- A result is an error or it is not. -/
theorem forall_except {p : Except ε α → Prop} :
    (∀ r, p r) ↔ (∀ e, p (.error e)) ∧ ∀ a, p (.ok a) :=
  ⟨fun h => ⟨fun _ => h _, fun _ => h _⟩, fun h r => r.casesOn h.1 h.2⟩

/-- A check has only one way to succeed. -/
@[simp] theorem exists_unit {p : Unit → Prop} : (∃ u, p u) ↔ p () :=
  ⟨fun ⟨_, h⟩ => h, fun h => ⟨(), h⟩⟩

theorem forall_unit {p : Unit → Prop} : (∀ u, p u) ↔ p () := ⟨fun h => h (), fun h _ => h⟩

@[simp] theorem pure_eq_ok {a b : α} : (pure a : Except ε α) = .ok b ↔ a = b := by
  simp [pure, Except.pure]

/-- A check of every member of a list. -/
theorem forM_eq_ok {f : α → Except ε Unit} {l : List α} :
    l.forM f = .ok () ↔ ∀ a ∈ l, f a = .ok () := by
  induction l with
  | nil => simp [List.forM]
  | cons a l ih =>
      rw [List.forM]
      simp only [bind_eq_ok, exists_unit, ih, List.forall_mem_cons]

@[simp] theorem mapError_eq_ok {f : ε → ε'} {x : Except ε α} {a : α} :
    x.mapError f = .ok a ↔ x = .ok a := by
  cases x <;> simp [Except.mapError]

@[simp] theorem mapError_ok {f : ε → ε'} {a : α} :
    (Except.ok a : Except ε α).mapError f = .ok a := rfl

@[simp] theorem mapError_error {f : ε → ε'} {e : ε} :
    (Except.error e : Except ε α).mapError f = .error (f e) := rfl

@[simp] theorem ok_bind {a : α} {f : α → Except ε β} : (Except.ok a >>= f) = f a := rfl

@[simp] theorem error_bind {e : ε} {f : α → Except ε β} :
    (Except.error e >>= f) = .error e := rfl

@[simp] theorem toOption_eq_some {x : Except ε α} {a : α} :
    x.toOption = some a ↔ x = .ok a := by
  cases x <;> simp [Except.toOption]

/-- The value of an option, or an error. -/
def orFail (x : Option α) (e : ε) : Except ε α :=
  match x with
  | some a => .ok a
  | none => .error e

@[simp] theorem orFail_eq_ok {x : Option α} {e : ε} {a : α} :
    orFail x e = .ok a ↔ x = some a := by
  cases x <;> simp [orFail]

@[simp] theorem orFail_some {a : α} {e : ε} : orFail (some a) e = .ok a := rfl

@[simp] theorem orFail_none {e : ε} : orFail (none : Option α) e = .error e := rfl

/-! ### Errors -/

/-- Whatever error there is, it is one of these. -/
def FailsWith (p : ε → Prop) (r : Except ε α) : Prop := ∀ e, r = .error e → p e

namespace FailsWith

variable {p : ε → Prop}

theorem ok (a : α) : FailsWith p (.ok a : Except ε α) := by
  intro e h
  cases h

theorem failIf {c : Prop} [Decidable c] {e : ε} (h : p e) : FailsWith p (failIf c e) := by
  intro e' he
  unfold Steps.failIf at he
  split at he
  · obtain rfl := Except.error.inj he
    exact h
  · cases he

theorem orFail {x : Option α} {e : ε} (h : p e) : FailsWith p (orFail x e) := by
  cases x with
  | none =>
      intro e' he
      obtain rfl := Except.error.inj he
      exact h
  | some a => exact ok a

theorem bind {x : Except ε α} {f : α → Except ε β} (hx : FailsWith p x)
    (hf : ∀ a, FailsWith p (f a)) : FailsWith p (x >>= f) := by
  cases x with
  | error e =>
      intro e' he
      obtain rfl := Except.error.inj he
      exact hx e rfl
  | ok a => exact hf a

theorem map {x : Except ε α} {f : α → β} (hx : FailsWith p x) : FailsWith p (f <$> x) := by
  cases x with
  | error e =>
      intro e' he
      obtain rfl := Except.error.inj he
      exact hx e rfl
  | ok a => exact ok (f a)

theorem mapError {f : ε' → ε} {x : Except ε' α} (h : ∀ e, p (f e)) :
    FailsWith p (x.mapError f) := by
  cases x with
  | error e =>
      intro e' he
      obtain rfl := Except.error.inj he
      exact h e
  | ok a => exact ok a

theorem forM {f : α → Except ε Unit} {l : List α} (h : ∀ a, FailsWith p (f a)) :
    FailsWith p (l.forM f) := by
  induction l with
  | nil => exact ok ()
  | cons a l ih =>
      rw [List.forM]
      exact (h a).bind fun _ => ih

end FailsWith

end VorCommander.Steps
