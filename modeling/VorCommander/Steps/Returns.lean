import VorCommander.Steps.Program

/-!
What has happened when a program returns a value.

`Returns A Q p h` is the part of `Safe` that is left where nothing is asked of the
operations and nothing of the errors. Each step of a program then has one case, since
an error ends the program and leaves nothing to show.
-/

namespace VorCommander.Steps.Program

variable {I : Interface} {α β ε ε' : Type}

/-- If every reply satisfies `A`, every value that `p` returns satisfies `Q`. -/
def Returns (A : History I → Event I → Prop) (Q : History I → α → Prop)
    (p : ExceptT ε (Program I) α) (h : History I) : Prop :=
  Safe A (fun _ _ => True) (fun h' r => ∀ a, r = .ok a → Q h' a) p.run h

variable {A : History I → Event I → Prop} {Q R : History I → α → Prop} {h : History I}

theorem Returns.of_safe {G : History I → I.Op → Prop} {S : History I → Except ε α → Prop}
    {p : ExceptT ε (Program I) α} (hp : Safe A G S p.run h)
    (hQ : ∀ h' a, S h' (.ok a) → Q h' a) : Returns A Q p h := by
  refine (hp.guarantee fun _ _ _ => trivial).mono ?_
  rintro h' r hS a rfl
  exact hQ h' a hS

theorem Returns.mono {p : ExceptT ε (Program I) α} (hp : Returns A Q p h)
    (hQ : ∀ h' a, Q h' a → R h' a) : Returns A R p h :=
  Safe.mono hp fun h' _ hQ' a ha => hQ h' a (hQ' a ha)

@[simp] theorem returns_pure (a : α) :
    Returns A Q (pure a : ExceptT ε (Program I) α) h ↔ Q h a := by
  rw [Returns, safe_exceptT_pure]
  simp

@[simp] theorem returns_throw (e : ε) : Returns A Q (throw e : ExceptT ε (Program I) α) h := by
  rw [Returns, safe_exceptT_throw]
  simp

@[simp] theorem returns_check (r : Except ε α) :
    Returns A Q (check r) h ↔ ∀ a, r = .ok a → Q h a := by
  rw [Returns, safe_check]

theorem returns_bind {Q : History I → β → Prop} (p : ExceptT ε (Program I) α)
    (f : α → ExceptT ε (Program I) β) :
    Returns A Q (p >>= f) h ↔ Returns A (fun h' a => Returns A Q (f a) h') p h := by
  have hthen : Then A (fun _ _ => True) (fun h' r => ∀ b, r = .ok b → Q h' b) f =
      fun h' r => ∀ a, r = .ok a → Returns A Q (f a) h' := by
    funext h' r
    cases r with
    | error e => simp
    | ok a => simp [Returns]
  rw [Returns, safe_exceptT_bind, hthen, Returns]

/-- After a check that holds. -/
theorem returns_check_bind {Q : History I → β → Prop} {r : Except ε α}
    {f : α → ExceptT ε (Program I) β} :
    Returns A Q (check r >>= f) h ↔ ∀ a, r = .ok a → Returns A Q (f a) h := by
  rw [returns_bind, returns_check]

theorem returns_adapt (f : ε' → ε) (p : ExceptT ε' (Program I) α) :
    Returns A Q (ExceptT.adapt f p) h ↔ Returns A Q p h := by
  have hok : ∀ (r : Except ε' α) a, r.mapError f = .ok a ↔ r = .ok a := fun r a => mapError_eq_ok
  rw [Returns, safe_exceptT_adapt, Returns]
  simp only [hok]

/-- Where nothing is known of the first part, the rest has to do with any value. -/
theorem returns_bind_of_forall {Q : History I → β → Prop} {p : ExceptT ε (Program I) α}
    {f : α → ExceptT ε (Program I) β} (hf : ∀ h' a, Returns A Q (f a) h') :
    Returns A Q (p >>= f) h := by
  rw [returns_bind]
  refine Returns.of_safe (safe_true p.run) ?_
  intro h' a _
  exact hf h' a

theorem returns_bind_throw {Q : History I → β → Prop} (p : ExceptT ε (Program I) α) (e : ε) :
    Returns A Q (p >>= fun _ => throw e) h :=
  returns_bind_of_forall fun _ _ => returns_throw e

/-- A program whose errors are read as well. -/
theorem returns_lift_bind {Q : History I → β → Prop} (p : Program I α)
    (f : α → ExceptT ε (Program I) β) :
    Returns A Q (ExceptT.lift p >>= f) h ↔
      Safe A (fun _ _ => True) (fun h' a => Returns A Q (f a) h') p h := by
  rw [returns_bind, Returns, safe_exceptT_lift]
  simp

end VorCommander.Steps.Program
