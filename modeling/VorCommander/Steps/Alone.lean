import VorCommander.Steps.Schedule

/-!
Programs that run alone.

While no other call moves, the state is changed by one program only, and can be
followed along with it. `Runs` is one such run, from the first operation to the
result. `During` is the judgment about all of them: an invariant holds after
every operation, also if the program never gets to its end, and what the program
leaves satisfies a postcondition. It has one rule for each way in which programs
are put together.
-/

namespace VorCommander.Steps

variable {I : Interface} {σ α β ε ε' : Type}

namespace Program

/-- One run of a program that is alone, with what it performs, the newest
first. -/
inductive Runs (Commit : σ → Event I → σ → Prop) :
    Program I α → σ → History I → α → σ → History I → Prop
  | done (a : α) (s : σ) (h : History I) : Runs Commit (.done a) s h a s h
  | step {op : I.Op} {next : I.Reply op → Program I α} {reply : I.Reply op} {s s' s'' : σ}
      {h h' : History I} {a : α} :
      Commit s ⟨op, reply⟩ s' → Runs Commit (next reply) s' (⟨op, reply⟩ :: h) a s'' h' →
      Runs Commit (.step op next) s h a s'' h'

/-- Whatever the replies, `J` holds after every operation of `p`, and `Q` of what
`p` returns. -/
def During (Commit : σ → Event I → σ → Prop) (J : σ → History I → Prop)
    (Q : α → σ → History I → Prop) : Program I α → σ → History I → Prop
  | .done a, s, h => Q a s h
  | .step op next, s, h => ∀ reply s', Commit s ⟨op, reply⟩ s' →
      J s' (⟨op, reply⟩ :: h) ∧ During Commit J Q (next reply) s' (⟨op, reply⟩ :: h)

variable {Commit : σ → Event I → σ → Prop} {J : σ → History I → Prop}
  {Q R : α → σ → History I → Prop} {s : σ} {h : History I}

@[simp] theorem during_done (a : α) : During Commit J Q (.done a) s h ↔ Q a s h := Iff.rfl

theorem during_step (op : I.Op) (next : I.Reply op → Program I α) :
    During Commit J Q (.step op next) s h ↔
      ∀ reply s', Commit s ⟨op, reply⟩ s' →
        J s' (⟨op, reply⟩ :: h) ∧ During Commit J Q (next reply) s' (⟨op, reply⟩ :: h) :=
  Iff.rfl

/-- The rule of one operation. -/
theorem during_call (op : I.Op) (f : I.Reply op → α) :
    During Commit J Q (.step op fun reply => .done (f reply)) s h ↔
      ∀ reply s', Commit s ⟨op, reply⟩ s' →
        J s' (⟨op, reply⟩ :: h) ∧ Q (f reply) s' (⟨op, reply⟩ :: h) :=
  Iff.rfl

theorem during_bind (p : Program I α) (f : α → Program I β) {Q : β → σ → History I → Prop} :
    During Commit J Q (p >>= f) s h ↔
      During Commit J (fun a s h => During Commit J Q (f a) s h) p s h := by
  induction p generalizing s h with
  | done a => rfl
  | step op next ih => simp only [step_bind, during_step, ih]

theorem during_map (f : α → β) (p : Program I α) {Q : β → σ → History I → Prop} :
    During Commit J Q (f <$> p) s h ↔ During Commit J (fun a s h => Q (f a) s h) p s h := by
  rw [map_eq_pure_bind, during_bind]
  rfl

/-- A postcondition can be weakened. -/
theorem During.mono {p : Program I α} (hp : During Commit J Q p s h)
    (hQ : ∀ a s h, Q a s h → R a s h) : During Commit J R p s h := by
  induction p generalizing s h with
  | done a => exact hQ a s h hp
  | step op next ih =>
      intro reply s' hcommit
      obtain ⟨hJ, hnext⟩ := hp reply s' hcommit
      exact ⟨hJ, ih reply hnext⟩

/-- An invariant can be weakened. -/
theorem During.weaken {J' : σ → History I → Prop} {p : Program I α} (hp : During Commit J Q p s h)
    (hJ : ∀ s h, J s h → J' s h) : During Commit J' Q p s h := by
  induction p generalizing s h with
  | done a => exact hp
  | step op next ih =>
      intro reply s' hcommit
      obtain ⟨hinv, hnext⟩ := hp reply s' hcommit
      exact ⟨hJ _ _ hinv, ih reply hnext⟩

theorem during_true (p : Program I α) :
    During Commit (fun _ _ => True) (fun _ _ _ => True) p s h := by
  induction p generalizing s h with
  | done a => trivial
  | step op next ih => exact fun reply s' _ => ⟨trivial, ih reply⟩

/-- What every event keeps holds throughout. -/
theorem During.keeps {K : History I → Prop} {p : Program I α} (hp : During Commit J Q p s h)
    (hK : ∀ e h, K h → K (e :: h)) (h₀ : K h) :
    During Commit (fun s h => J s h ∧ K h) (fun a s h => Q a s h ∧ K h) p s h := by
  induction p generalizing s h with
  | done a => exact ⟨hp, h₀⟩
  | step op next ih =>
      intro reply s' hcommit
      obtain ⟨hinv, hnext⟩ := hp reply s' hcommit
      have hkept := hK ⟨op, reply⟩ h h₀
      exact ⟨⟨hinv, hkept⟩, ih reply hnext hkept⟩

/-- A run up to some point, at which `q` is left of the program. -/
inductive Leads (Commit : σ → Event I → σ → Prop) :
    Program I α → σ → History I → Program I α → σ → History I → Prop
  | refl (p : Program I α) (s : σ) (h : History I) : Leads Commit p s h p s h
  | step {op : I.Op} {next : I.Reply op → Program I α} {reply : I.Reply op} {s s' s'' : σ}
      {h h' : History I} {q : Program I α} :
      Commit s ⟨op, reply⟩ s' → Leads Commit (next reply) s' (⟨op, reply⟩ :: h) q s'' h' →
      Leads Commit (.step op next) s h q s'' h'

/-- A run can be continued. -/
theorem Leads.tail {p : Program I α} {op : I.Op} {next : I.Reply op → Program I α}
    {reply : I.Reply op} {s' s'' : σ} {h' : History I}
    (hleads : Leads Commit p s h (.step op next) s' h')
    (hcommit : Commit s' ⟨op, reply⟩ s'') :
    Leads Commit p s h (next reply) s'' (⟨op, reply⟩ :: h') := by
  generalize hq : Program.step op next = q at hleads
  induction hleads with
  | refl p s h =>
      subst hq
      exact .step hcommit (.refl _ _ _)
  | step hfirst _ ih => exact .step hfirst (ih hcommit hq)

/-- What is left of a run can be run to its end. -/
theorem Leads.runs {p q : Program I α} {s' s'' : σ} {h' h'' : History I} {a : α}
    (hleads : Leads Commit p s h q s' h') (hruns : Runs Commit q s' h' a s'' h'') :
    Runs Commit p s h a s'' h'' := by
  induction hleads with
  | refl p s h => exact hruns
  | step hcommit _ ih => exact .step hcommit (ih hruns)

/-- The states a history leads through from `s`. -/
inductive Committed (Commit : σ → Event I → σ → Prop) (s : σ) : History I → σ → Prop
  | nil : Committed Commit s [] s
  | cons {h : History I} {e : Event I} {s' s'' : σ} :
      Committed Commit s h s' → Commit s' e s'' → Committed Commit s (e :: h) s''

/-- A partial run whose events commit one after the other is one of the program alone. -/
theorem Path.leads {p q : Program I α} {s' : σ} (path : Path p h q)
    (hcommitted : Committed Commit s h s') : Leads Commit p s [] q s' h := by
  induction path generalizing s' with
  | nil =>
      cases hcommitted
      exact .refl p s []
  | cons reply _ ih =>
      cases hcommitted with
      | cons hearlier hcommit => exact (ih hearlier).tail hcommit

/-- The invariant holds wherever a run has led. -/
theorem Leads.during {p q : Program I α} {s' : σ} {h' : History I}
    (hleads : Leads Commit p s h q s' h') (hp : During Commit J Q p s h) (hJ : J s h) :
    J s' h' ∧ During Commit J Q q s' h' := by
  induction hleads with
  | refl p s h => exact ⟨hJ, hp⟩
  | step hcommit _ ih =>
      obtain ⟨hinv, hnext⟩ := hp _ _ hcommit
      exact ih hnext hinv

/-- What the judgment says of one run. -/
theorem Runs.during {p : Program I α} {s' : σ} {h' : History I} {a : α}
    (hruns : Runs Commit p s h a s' h') (hp : During Commit J Q p s h) : Q a s' h' := by
  induction hruns with
  | done a s h => exact hp
  | step hcommit _ ih => exact ih (hp _ _ hcommit).2

theorem Runs.leads {p : Program I α} {s' : σ} {h' : History I} {a : α}
    (hruns : Runs Commit p s h a s' h') : Leads Commit p s h (.done a) s' h' := by
  induction hruns with
  | done a s h => exact .refl _ s h
  | step hcommit _ ih => exact .step hcommit ih

/-- A handler whose answers are allowed leads to a run, in which it has given the
answers. -/
theorem runs_of_exec {H : Handler I σ}
    (hH : ∀ s op, Commit s ⟨op, (H.answer s op).1⟩ (H.answer s op).2) (p : Program I α) :
    ∃ h', Runs Commit p s h (exec H p s).1 (exec H p s).2 h' ∧
      ∀ e ∈ h', e ∈ h ∨ ∃ s, e.reply = (H.answer s e.op).1 := by
  induction p generalizing s h with
  | done a => exact ⟨h, .done a s h, fun e he => .inl he⟩
  | step op next ih =>
      obtain ⟨h', hruns, hanswers⟩ := ih (H.answer s op).1
      refine ⟨h', .step (hH s op) hruns, fun e he => ?_⟩
      rcases hanswers e he with hmem | hanswer
      · rcases List.mem_cons.mp hmem with rfl | hmem
        · exact .inr ⟨s, rfl⟩
        · exact .inl hmem
      · exact .inr hanswer

/-- The run that answers lead to, if they are never missing. -/
def follow (A : Answers I σ) : Program I α → σ → History I → Option (α × σ × History I)
  | .done a, s, h => some (a, s, h)
  | .step op next, s, h =>
      match A.answer s op with
      | none => none
      | some (reply, s') => follow A (next reply) s' (⟨op, reply⟩ :: h)

theorem runs_of_follow {A : Answers I σ}
    (hA : ∀ s op reply s', A.answer s op = some (reply, s') → Commit s ⟨op, reply⟩ s')
    {p : Program I α} {a : α} {s' : σ} {h' : History I} (hp : follow A p s h = some (a, s', h')) :
    Runs Commit p s h a s' h' := by
  induction p generalizing s h with
  | done b =>
      obtain ⟨rfl, rfl, rfl⟩ : b = a ∧ s = s' ∧ h = h' := by simpa [follow] using hp
      exact .done b s h
  | step op next ih =>
      rw [follow] at hp
      split at hp
      · cases hp
      · rename_i reply s₁ hanswer
        exact .step (hA s op reply s₁ hanswer) (ih reply hp)

/-! ### Programs that can fail -/

/-- What a fallible program still owes once its first part has returned. -/
def DuringThen (Commit : σ → Event I → σ → Prop) (J : σ → History I → Prop)
    (Q : Except ε β → σ → History I → Prop) (f : α → ExceptT ε (Program I) β) :
    Except ε α → σ → History I → Prop
  | .ok a, s, h => During Commit J Q (f a).run s h
  | .error e, s, h => Q (.error e) s h

section ExceptT

variable {Q : Except ε β → σ → History I → Prop}

@[simp] theorem duringThen_ok (f : α → ExceptT ε (Program I) β) (a : α) :
    DuringThen Commit J Q f (.ok a) s h = During Commit J Q (f a).run s h := rfl

@[simp] theorem duringThen_error (f : α → ExceptT ε (Program I) β) (e : ε) :
    DuringThen Commit J Q f (.error e) s h = Q (.error e) s h := rfl

theorem during_exceptT_bind (p : ExceptT ε (Program I) α) (f : α → ExceptT ε (Program I) β) :
    During Commit J Q (p >>= f).run s h ↔
      During Commit J (DuringThen Commit J Q f) p.run s h := by
  change During Commit J Q (ExceptT.run p >>= ExceptT.bindCont f) s h ↔ _
  rw [during_bind]
  have hcont : (fun a s h => During Commit J Q (ExceptT.bindCont f a) s h) =
      DuringThen Commit J Q f := by
    funext r s h
    cases r <;> rfl
  rw [hcont]

@[simp] theorem during_exceptT_pure (b : β) :
    During Commit J Q (pure b : ExceptT ε (Program I) β).run s h ↔ Q (.ok b) s h := Iff.rfl

@[simp] theorem during_exceptT_throw (e : ε) :
    During Commit J Q (throw e : ExceptT ε (Program I) β).run s h ↔ Q (.error e) s h := Iff.rfl

@[simp] theorem during_exceptT_lift (p : Program I β) :
    During Commit J Q (ExceptT.lift p).run s h ↔
      During Commit J (fun b s h => Q (.ok b) s h) p s h :=
  during_map _ _

theorem during_exceptT_adapt (f : ε' → ε) (p : ExceptT ε' (Program I) β) :
    During Commit J Q (ExceptT.adapt f p).run s h ↔
      During Commit J (fun r s h => Q (r.mapError f) s h) p.run s h :=
  during_map _ _

@[simp] theorem during_check (r : Except ε β) :
    During Commit J Q (check r).run s h ↔ Q r s h := Iff.rfl

@[simp] theorem during_attempt (p : Program I (Except ε β)) :
    During Commit J Q (attempt p).run s h ↔ During Commit J Q p s h := Iff.rfl

theorem duringThen_iff (f : α → ExceptT ε (Program I) β) (r : Except ε α) :
    DuringThen Commit J Q f r s h ↔
      (∀ e, r = .error e → Q (.error e) s h) ∧
        ∀ a, r = .ok a → During Commit J Q (f a).run s h := by
  cases r <;> simp

end ExceptT

/- The judgment is taken apart by its rules only. -/
attribute [irreducible] During

end Program

end VorCommander.Steps
