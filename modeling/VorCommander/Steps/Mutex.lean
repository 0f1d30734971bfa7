import Mathlib.Data.Set.Basic

/-!
A mutex that a panic poisons.

A call that panics while it holds the mutex leaves what is guarded as it is at
that moment, and poisons the mutex. A later call is then refused, unless it takes
the guard out of the error and clears the poison. `returning` is the call that
gives an error where it would have panicked.
-/

namespace VorCommander.Steps

/-- How a call ends. -/
inductive Ending (α : Type)
  | panicked
  | returned (value : α)
  deriving DecidableEq

/-- What a mutex guards, and whether a holder has panicked. -/
structure Mutex (σ : Type) where
  inner : σ
  poisoned : Bool := false

variable {σ ε α : Type}

/-- What is to be done while a mutex is held. -/
abbrev Guarded (σ α : Type) := σ → Ending α × σ

namespace Mutex

/-- A call is made while the mutex is held. -/
def hold (m : Mutex σ) (call : Guarded σ α) : Ending α × Mutex σ :=
  match call m.inner with
  | (.panicked, s) => (.panicked, ⟨s, true⟩)
  | (.returned value, s) => (.returned value, ⟨s, m.poisoned⟩)

/-- The call is not made if the mutex is poisoned. -/
def withLock (m : Mutex σ) (call : Guarded σ α) : Option (Ending α) × Mutex σ :=
  if m.poisoned then (none, m)
  else
    match m.hold call with
    | (ending, m') => (some ending, m')

/-- The poison is cleared, and the call is made in any case. -/
def withRecovered (m : Mutex σ) (call : Guarded σ α) : Ending α × Mutex σ :=
  hold { m with poisoned := false } call

/-- The mutex as it were without the panics. -/
def unpoisoned (m : Mutex σ) : Mutex σ := { m with poisoned := false }

end Mutex

/-- The call returns an error where it would panic. -/
def returning (error : ε) (call : Guarded σ (Except ε α)) : Guarded σ (Except ε α) := fun s =>
  match call s with
  | (.panicked, s') => (.returned (.error error), s')
  | (.returned value, s') => (.returned value, s')

/-- What a call has to give, if it neither panics nor returns an error. -/
def Ending.result : Ending (Except ε α) → Option α
  | .returned (.ok a) => some a
  | _ => none

variable {m : Mutex σ} {error : ε} {call : Guarded σ (Except ε α)}

/-- A call that returns an error gives as little as one that panics, and leaves the
same behind, but no poison. -/
theorem Mutex.hold_returning (m : Mutex σ) (error : ε) (call : Guarded σ (Except ε α)) :
    (m.unpoisoned.hold (returning error call)).1.result = (m.hold call).1.result ∧
      (m.unpoisoned.hold (returning error call)).2 = (m.hold call).2.unpoisoned := by
  unfold Mutex.hold returning Mutex.unpoisoned
  cases call m.inner with
  | mk ending s => cases ending <;> exact ⟨rfl, rfl⟩

theorem Mutex.withRecovered_returning (m : Mutex σ) (error : ε) (call : Guarded σ (Except ε α)) :
    (m.unpoisoned.withRecovered (returning error call)).1.result =
        (m.withRecovered call).1.result ∧
      (m.unpoisoned.withRecovered (returning error call)).2 =
        (m.withRecovered call).2.unpoisoned :=
  hold_returning { m with poisoned := false } error call

@[simp] theorem Mutex.withLock_of_poisoned {call : Guarded σ α} (h : m.poisoned = true) :
    m.withLock call = (none, m) := by
  rw [Mutex.withLock, if_pos h]

theorem Mutex.withLock_of_not_poisoned {call : Guarded σ α} (h : m.poisoned = false) :
    m.withLock call = (some (m.hold call).1, (m.hold call).2) := by
  rw [Mutex.withLock, if_neg (by simp [h])]

@[simp] theorem Mutex.unpoisoned_poisoned (m : Mutex σ) : m.unpoisoned.poisoned = false := rfl

end VorCommander.Steps
