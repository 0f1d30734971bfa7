import Mathlib.Data.Set.Basic

/-!
Machines that take their inputs one after the other.

A machine has an output for each input. `Alike` is how two machines are compared:
as long as a condition holds, related states have the same output and remain
related, and where it fails the outputs differ. Then two runs have the same
outputs exactly if the condition holds all along.
-/

namespace VorCommander.Steps

/-- What is done with an input, and the state after it. -/
structure Machine (σ ι ο : Type) where
  step : σ → ι → ο × σ

namespace Machine

variable {σ τ ι ο : Type}

/-- The outputs of a run. -/
def outputs (M : Machine σ ι ο) : σ → List ι → List ο
  | _, [] => []
  | s, i :: inputs => (M.step s i).1 :: outputs M (M.step s i).2 inputs

/-- A condition holds before each step of a run. -/
def Throughout (M : Machine σ ι ο) (c : σ → ι → Prop) : σ → List ι → Prop
  | _, [] => True
  | s, i :: inputs => c s i ∧ Throughout M c (M.step s i).2 inputs

/-- Two machines do the same in related states as long as a condition holds. -/
structure Alike (M : Machine σ ι ο) (N : Machine τ ι ο) (R : σ → τ → Prop) (c : σ → ι → Prop) :
    Prop where
  output : ∀ s t i, R s t → c s i → (M.step s i).1 = (N.step t i).1
  next : ∀ s t i, R s t → c s i → R (M.step s i).2 (N.step t i).2
  differ : ∀ s t i, R s t → ¬ c s i → (M.step s i).1 ≠ (N.step t i).1

/-- Two runs have the same outputs exactly if the condition holds all along. The
first step at which it fails has two outputs. -/
theorem Alike.outputs_eq_iff {M : Machine σ ι ο} {N : Machine τ ι ο} {R : σ → τ → Prop}
    {c : σ → ι → Prop} (halike : Alike M N R c) {s : σ} {t : τ} (hR : R s t) (inputs : List ι) :
    M.outputs s inputs = N.outputs t inputs ↔ M.Throughout c s inputs := by
  induction inputs generalizing s t with
  | nil => exact ⟨fun _ => trivial, fun _ => rfl⟩
  | cons i inputs ih =>
      constructor
      · intro h
        obtain ⟨hfirst, hrest⟩ := List.cons.inj h
        have hc : c s i := by
          by_contra hc
          exact halike.differ s t i hR hc hfirst
        exact ⟨hc, (ih (halike.next s t i hR hc)).mp hrest⟩
      · rintro ⟨hc, hrest⟩
        show (M.step s i).1 :: _ = (N.step t i).1 :: _
        rw [halike.output s t i hR hc, (ih (halike.next s t i hR hc)).mpr hrest]

end Machine

end VorCommander.Steps
