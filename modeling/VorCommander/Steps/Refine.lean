import VorCommander.Steps.Schedule

/-!
Programs whose operations are carried out by other programs.

`refine carry p` runs `p` with each of its operations replaced by a program
over a finer interface. What `Safe` says of `p` is carried over once, for any
such replacement: if every operation is carried out safely and in such a way
that the coarse history keeps standing for the fine one, the refined program
is safe, and it ends in a fine history that a final coarse history of `p`
stands for.
-/

namespace VorCommander.Steps

variable {I J : Interface} {α β : Type}

namespace Program

/-- Each operation replaced by the program that carries it out. -/
def refine (carry : (op : I.Op) → Program J (I.Reply op)) : Program I α → Program J α
  | .done a => .done a
  | .step op next => carry op >>= fun reply => (next reply).refine carry

variable {carry : (op : I.Op) → Program J (I.Reply op)}

@[simp] theorem refine_done (a : α) : (Program.done a : Program I α).refine carry = .done a := rfl

@[simp] theorem refine_step (op : I.Op) (next : I.Reply op → Program I α) :
    (Program.step op next).refine carry = carry op >>= fun reply => (next reply).refine carry :=
  rfl

theorem refine_bind (p : Program I α) (f : α → Program I β) :
    (p >>= f).refine carry = p.refine carry >>= fun a => (f a).refine carry := by
  induction p with
  | done a => rfl
  | step op next ih =>
      rw [step_bind, refine_step, refine_step, bind_assoc]
      congr 1
      funext reply
      exact ih reply

/-- Safety of the coarse program is safety of the refined one. `Stands g h`
reads: the fine history `h` carries out the coarse history `g`. -/
theorem Safe.refine {A : History I → Event I → Prop} {G : History I → I.Op → Prop}
    {Q : History I → α → Prop} {B : History J → Event J → Prop} {H : History J → J.Op → Prop}
    (Stands : History I → History J → Prop)
    (hcarry : ∀ g h op, Stands g h → G g op → Safe B H
      (fun h' reply => A g ⟨op, reply⟩ ∧ Stands (⟨op, reply⟩ :: g) h') (carry op) h)
    {p : Program I α} {g : History I} {h : History J} (hp : Safe A G Q p g) (hg : Stands g h) :
    Safe B H (fun h' a => ∃ g', Stands g' h' ∧ Q g' a) (p.refine carry) h := by
  induction p generalizing g h with
  | done a =>
      rw [refine_done, safe_done]
      exact ⟨g, hg, (safe_done a).mp hp⟩
  | step op next ih =>
      obtain ⟨hG, hnext⟩ := (safe_step op next).mp hp
      rw [refine_step, safe_bind]
      refine (hcarry g h op hg hG).mono ?_
      rintro h' reply ⟨hA, hg'⟩
      exact ih reply (hnext reply hA) hg'

end Program

/-- The handler that answers an operation by running the program that carries
it out. -/
def Handler.through {σ : Type} (H : Handler J σ) (carry : (op : I.Op) → Program J (I.Reply op)) :
    Handler I σ where
  answer s op := Program.exec H (carry op) s

/-- Running a refined program is running the program itself, with each
operation carried out. -/
theorem Program.exec_refine {σ : Type} {H : Handler J σ}
    {carry : (op : I.Op) → Program J (I.Reply op)} (p : Program I α) (s : σ) :
    Program.exec H (p.refine carry) s = Program.exec (H.through carry) p s := by
  induction p generalizing s with
  | done a => rfl
  | step op next ih =>
      rw [refine_step, exec_bind, exec_step]
      exact ih _ _

end VorCommander.Steps
