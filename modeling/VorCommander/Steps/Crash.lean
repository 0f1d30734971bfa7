import VorCommander.Steps.Alone

/-!
Programs that can be stopped at any moment.

`Triple` is Hoare's judgment for programs that run alone, with a fourth part: a
condition that holds after every operation, so that it is what is left if the program is
stopped there. Its rules are those of the program text. `Sessions` are the runs of a
process that performs one program after the other, is stopped now and then in the middle
of one, and then starts anew without what it had in memory.
-/

namespace VorCommander.Steps

variable {I : Interface} {σ τ α β ε ε' : Type}

namespace Program

/-- Started where `pre` holds, and whatever the replies, `p` has `crash` hold after each
of its operations, and `post` of what it returns. -/
def Triple (Commit : σ → Event I → σ → Prop) (crash pre : σ → Prop) (p : Program I α)
    (post : α → σ → Prop) : Prop :=
  ∀ s h, pre s → During Commit (fun s _ => crash s) (fun a s _ => post a s) p s h

/-- A condition on what a fallible program returns. -/
def either (err : ε → σ → Prop) (ok : α → σ → Prop) : Except ε α → σ → Prop
  | .error e => err e
  | .ok a => ok a

@[simp] theorem either_error (err : ε → σ → Prop) (ok : α → σ → Prop) (e : ε) :
    either err ok (.error e) = err e := rfl

@[simp] theorem either_ok (err : ε → σ → Prop) (ok : α → σ → Prop) (a : α) :
    either err ok (.ok a) = ok a := rfl

namespace Triple

variable {Commit : σ → Event I → σ → Prop} {crash crash' pre pre' : σ → Prop}

section Plain

variable {post post' : α → σ → Prop}

/-- The rule of consequence. -/
theorem mono {p : Program I α} (hp : Triple Commit crash pre p post)
    (hpre : ∀ s, pre' s → pre s) (hpost : ∀ a s, post a s → post' a s) :
    Triple Commit crash pre' p post' :=
  fun s h hs => (hp s h (hpre s hs)).mono fun a s _ ha => hpost a s ha

theorem weaken {p : Program I α} (hp : Triple Commit crash pre p post)
    (hcrash : ∀ s, crash s → crash' s) : Triple Commit crash' pre p post :=
  fun s h hs => (hp s h hs).weaken fun s _ hs => hcrash s hs

theorem done {a : α} (h : ∀ s, pre s → post a s) : Triple Commit crash pre (.done a) post :=
  fun s _ hs => (during_done a).mpr (h s hs)

theorem bind {p : Program I α} {f : α → Program I β} {M : α → σ → Prop} {post : β → σ → Prop}
    (hp : Triple Commit crash pre p M) (hf : ∀ a, Triple Commit crash (M a) (f a) post) :
    Triple Commit crash pre (p >>= f) post :=
  fun s h hs => (during_bind p f).mpr ((hp s h hs).mono fun a s h ha => hf a s h ha)

theorem map {p : Program I α} {f : α → β} {post : β → σ → Prop}
    (hp : Triple Commit crash pre p fun a => post (f a)) : Triple Commit crash pre (f <$> p) post :=
  fun s h hs => (during_map f p).mpr (hp s h hs)

theorem perform {op : I.Op} {post : I.Reply op → σ → Prop}
    (h : ∀ s reply s', pre s → Commit s ⟨op, reply⟩ s' → crash s' ∧ post reply s') :
    Triple Commit crash pre (perform op) post :=
  fun s _ hs => (during_call op id).mpr fun reply s' hcommit => h s reply s' hs hcommit

/-- What is known of the state before may be taken apart. -/
theorem of_forall {p : Program I α} {holds : β → σ → Prop}
    (hp : ∀ b, Triple Commit crash (holds b) p post) :
    Triple Commit crash (fun s => ∃ b, holds b s) p post :=
  fun s h ⟨b, hb⟩ => hp b s h hb

/-- A part of the condition before that does not depend on the state. -/
theorem of_pure {p : Program I α} {c : Prop} (hp : c → Triple Commit crash pre p post) :
    Triple Commit crash (fun s => c ∧ pre s) p post :=
  fun s h ⟨hc, hs⟩ => hp hc s h hs

/-- A program of operations that keep the condition. -/
theorem of_only {kind : I.Op → Prop} {p : Program I α} (hp : Only kind p)
    (hkeep : ∀ s op reply s', kind op → crash s → Commit s ⟨op, reply⟩ s' → crash s') :
    Triple Commit crash crash p fun _ => crash := by
  intro s h hs
  have hsafe := hp h
  clear hp
  induction p generalizing s h with
  | done a => exact (during_done a).mpr hs
  | step op next ih =>
      obtain ⟨hkind, hnext⟩ := (safe_step op next).mp hsafe
      refine (during_step op next).mpr fun reply s' hcommit => ?_
      have hs' := hkeep s op reply s' hkind hs hcommit
      exact ⟨hs', ih reply s' _ hs' (hnext reply trivial)⟩

end Plain

section ExceptT

variable {err : ε → σ → Prop} {ok : α → σ → Prop}

theorem pure {a : α} (h : ∀ s, pre s → ok a s) :
    Triple Commit crash pre (pure a : ExceptT ε (Program I) α).run (either err ok) := done h

theorem throw {e : ε} (h : ∀ s, pre s → err e s) :
    Triple Commit crash pre (throw e : ExceptT ε (Program I) α).run (either err ok) := done h

theorem check {r : Except ε α} (h : ∀ s, pre s → either err ok r s) :
    Triple Commit crash pre (check r).run (either err ok) := done h

/-- Any condition on what is returned is one on errors and one on results. -/
theorem of_either {p : Program I (Except ε α)} {post : Except ε α → σ → Prop} :
    Triple Commit crash pre p post ↔
      Triple Commit crash pre p (either (fun e => post (.error e)) fun a => post (.ok a)) := by
  constructor <;> refine fun hp => hp.mono (fun _ hs => hs) ?_ <;> rintro (e | a) s hs <;> exact hs

/-- The rule of consequence for what is returned. -/
theorem relax {err' : ε → σ → Prop} {ok' : α → σ → Prop} {p : ExceptT ε (Program I) α}
    (hp : Triple Commit crash pre p.run (either err ok)) (herr : ∀ e s, err e s → err' e s)
    (hok : ∀ a s, ok a s → ok' a s) : Triple Commit crash pre p.run (either err' ok') := by
  refine hp.mono (fun _ hs => hs) ?_
  rintro (e | a) s hs
  · exact herr e s hs
  · exact hok a s hs

theorem exceptT_bind {p : ExceptT ε (Program I) α} {f : α → ExceptT ε (Program I) β}
    {M : α → σ → Prop} {ok : β → σ → Prop} (hp : Triple Commit crash pre p.run (either err M))
    (hf : ∀ a, Triple Commit crash (M a) (f a).run (either err ok)) :
    Triple Commit crash pre (p >>= f).run (either err ok) := by
  refine fun s h hs => (during_exceptT_bind p f).mpr ((hp s h hs).mono ?_)
  rintro (e | a) s h hr
  · exact hr
  · exact hf a s h hr

/-- A check that succeeds before the rest. -/
theorem check_bind {r : Except ε α} {f : α → ExceptT ε (Program I) β} {ok : β → σ → Prop}
    (herr : ∀ e, r = .error e → ∀ s, pre s → err e s)
    (hf : ∀ a, r = .ok a → Triple Commit crash pre (f a).run (either err ok)) :
    Triple Commit crash pre (Program.check r >>= f).run (either err ok) := by
  intro s h hs
  refine (during_exceptT_bind _ _).mpr ((during_check r).mpr ((duringThen_iff f r).mpr ?_))
  exact ⟨fun e he => herr e he s hs, fun a ha => hf a ha s h hs⟩

theorem lift {p : Program I α} {ok : α → σ → Prop} (hp : Triple Commit crash pre p ok) :
    Triple Commit crash pre (ExceptT.lift p : ExceptT ε (Program I) α).run (either err ok) :=
  fun s h hs => (during_exceptT_lift p).mpr (hp s h hs)

theorem adapt {p : ExceptT ε' (Program I) α} {f : ε' → ε}
    (hp : Triple Commit crash pre p.run (either (fun e => err (f e)) ok)) :
    Triple Commit crash pre (ExceptT.adapt f p).run (either err ok) := by
  refine fun s h hs => (during_exceptT_adapt f p).mpr ((hp s h hs).mono ?_)
  rintro (e | a) s h hr <;> exact hr

theorem attempt {p : Program I (Except ε α)} (hp : Triple Commit crash pre p (either err ok)) :
    Triple Commit crash pre (attempt p).run (either err ok) := hp

end ExceptT

/-! ### Runs -/

/-- Wherever a run is stopped, the condition holds. -/
theorem leads {p q : Program I α} {post : α → σ → Prop} {s s' : σ} {h h' : History I}
    (hp : Triple Commit crash pre p post) (hpre : pre s) (hcrash : crash s)
    (hleads : Leads Commit p s h q s' h') : crash s' :=
  (hleads.during (hp s h hpre) hcrash).1

theorem runs {p : Program I α} {post : α → σ → Prop} {s s' : σ} {h h' : History I} {a : α}
    (hp : Triple Commit crash pre p post) (hpre : pre s) (hruns : Runs Commit p s h a s' h') :
    post a s' :=
  hruns.during (hp s h hpre)

end Triple

end Program

/-- A run goes on where the first part has succeeded. -/
theorem Program.exec_of_ok {H : Handler I σ} {p : ExceptT ε (Program I) α} {a : α} {s s' : σ}
    (hp : exec H p.run s = (.ok a, s')) (f : α → ExceptT ε (Program I) β) :
    exec H (p >>= f).run s = exec H (f a).run s' := by
  rw [exec_exceptT_bind, hp, execThen_ok]

/-! ### Sessions -/

open Program

/-- The states of the host and of a process that performs one program after the other:
`may m p` says that it may perform `p` while it has `m` in memory, and a program returns
what it then has there. `others` is what happens to the host in between. -/
inductive Sessions (Commit : σ → Event I → σ → Prop) (others : σ → σ → Prop) (init : σ → Prop)
    (fresh : τ) (may : τ → Program I τ → Prop) : σ → τ → Prop
  | init {s : σ} : init s → Sessions Commit others init fresh may s fresh
  | others {s s' : σ} {m : τ} : Sessions Commit others init fresh may s m → others s s' →
      Sessions Commit others init fresh may s' m
  | returned {s s' : σ} {m m' : τ} {p : Program I τ} {h : History I} :
      Sessions Commit others init fresh may s m → may m p → Runs Commit p s [] m' s' h →
      Sessions Commit others init fresh may s' m'
  | stopped {s s' : σ} {m : τ} {p q : Program I τ} {h : History I} :
      Sessions Commit others init fresh may s m → may m p → Leads Commit p s [] q s' h →
      Sessions Commit others init fresh may s' fresh

/-- The rule of invariants: each program leads from the invariant to the invariant, and
the invariant of a fresh process holds whenever it is stopped. -/
theorem Sessions.invariant {Commit : σ → Event I → σ → Prop} {others : σ → σ → Prop}
    {init : σ → Prop} {fresh : τ} {may : τ → Program I τ → Prop} {inv : τ → σ → Prop}
    (hinit : ∀ s, init s → inv fresh s) (hothers : ∀ s s' m, inv m s → others s s' → inv m s')
    (hfresh : ∀ s m, inv m s → inv fresh s)
    (hmay : ∀ m p, may m p → Triple Commit (inv fresh) (inv m) p inv) {s : σ} {m : τ}
    (hs : Sessions Commit others init fresh may s m) : inv m s := by
  induction hs with
  | init h => exact hinit _ h
  | others _ hstep ih => exact hothers _ _ _ ih hstep
  | returned _ hp hruns ih => exact (hmay _ _ hp).runs ih hruns
  | stopped _ hp hleads ih => exact (hmay _ _ hp).leads ih (hfresh _ _ ih) hleads

/-! ### Refinement -/

/-- The calls that were made on a host, the newest first, and what each has returned; a
call that was stopped on the way has returned nothing. -/
inductive Trace {κ : Type} {ρ : κ → Type} (Commit : σ → Event I → σ → Prop) (others : σ → σ → Prop)
    (init : σ) (program : (c : κ) → Program I (ρ c)) : List (Σ c, Option (ρ c)) → σ → Prop
  | init : Trace Commit others init program [] init
  | others {log : List (Σ c, Option (ρ c))} {s s' : σ} : Trace Commit others init program log s →
      others s s' → Trace Commit others init program log s'
  | returned {log : List (Σ c, Option (ρ c))} {s s' : σ} {c : κ} {r : ρ c} {h : History I} :
      Trace Commit others init program log s → Runs Commit (program c) s [] r s' h →
      Trace Commit others init program (⟨c, some r⟩ :: log) s'
  | stopped {log : List (Σ c, Option (ρ c))} {s s' : σ} {c : κ}
    {q : Program I (ρ c)} {h : History I} :
      Trace Commit others init program log s → Leads Commit (program c) s [] q s' h →
      Trace Commit others init program (⟨c, none⟩ :: log) s'

/-- The log is one of an abstract state that each call takes at once to the next one. -/
inductive Explained {κ : Type} {ρ : κ → Type}
    (spec : (c : κ) → Option (ρ c) → α → α → Prop) (init : α) :
    List (Σ c, Option (ρ c)) → α → Prop
  | init : Explained spec init [] init
  | call {log : List (Σ c, Option (ρ c))} {c : κ} {r : Option (ρ c)} {a a' : α} :
      Explained spec init log a → spec c r a a' → Explained spec init (⟨c, r⟩ :: log) a'

/-- What was called later starts where the earlier calls have led. -/
theorem Explained.append {κ : Type} {ρ : κ → Type} {spec : (c : κ) → Option (ρ c) → α → α → Prop}
    {init a : α} {later earlier : List (Σ c, Option (ρ c))}
    (h : Explained spec init (later ++ earlier) a) :
    ∃ a', Explained spec init earlier a' ∧ Explained spec a' later a := by
  induction later generalizing a with
  | nil => exact ⟨a, h, .init⟩
  | cons entry later ih =>
      cases h with
      | call hlog hspec =>
          obtain ⟨a', hearlier, hlater⟩ := ih hlog
          exact ⟨a', hearlier, .call hlater hspec⟩

/-- What every call keeps, all calls keep, and it holds before each of them. -/
theorem Explained.invariant {κ : Type} {ρ : κ → Type} {spec : (c : κ) → Option (ρ c) → α → α → Prop}
    {J : α → Prop} {init a : α} {log : List (Σ c, Option (ρ c))} (h : Explained spec init log a)
    (hinit : J init)
    (hcalls : ∀ c r a a', ⟨c, r⟩ ∈ log → spec c r a a' → J a → J a') :
    J a ∧ ∀ c r, ⟨c, r⟩ ∈ log → ∃ a a', J a ∧ spec c r a a' := by
  induction h with
  | init => exact ⟨hinit, fun c r hmem => absurd hmem List.not_mem_nil⟩
  | call hlog hspec ih =>
      obtain ⟨ha, hbefore⟩ := ih fun c r a a' hmem => hcalls c r a a' (List.mem_cons_of_mem _ hmem)
      refine ⟨hcalls _ _ _ _ List.mem_cons_self hspec ha, fun c r hmem => ?_⟩
      rcases List.mem_cons.mp hmem with heq | hmem
      · cases heq
        exact ⟨_, _, ha, hspec⟩
      · exact hbefore c r hmem

/-- The rule of refinement: wherever a call is stopped, and when it returns, the host is
where the abstract state has been taken by it. -/
theorem Trace.explained {κ : Type} {ρ : κ → Type} {Commit : σ → Event I → σ → Prop}
    {others : σ → σ → Prop} {init : σ} {program : (c : κ) → Program I (ρ c)}
    {spec : (c : κ) → Option (ρ c) → α → α → Prop} {R : σ → α → Prop} {a₀ : α} (hinit : R init a₀)
    (hothers : ∀ s s' a, R s a → others s s' → R s' a) (hnone : ∀ c a, spec c none a a)
    (hcalls : ∀ c a, Triple Commit (fun s => ∃ a', spec c none a a' ∧ R s a') (fun s => R s a)
      (program c) (fun r s => ∃ a', spec c (some r) a a' ∧ R s a'))
    {log : List (Σ c, Option (ρ c))} {s : σ} (hs : Trace Commit others init program log s) :
    ∃ a, Explained spec a₀ log a ∧ R s a := by
  induction hs with
  | init => exact ⟨a₀, .init, hinit⟩
  | others _ hstep ih =>
      obtain ⟨a, hlog, hR⟩ := ih
      exact ⟨a, hlog, hothers _ _ _ hR hstep⟩
  | returned _ hruns ih =>
      obtain ⟨a, hlog, hR⟩ := ih
      obtain ⟨a', hspec, hR'⟩ := (hcalls _ a).runs hR hruns
      exact ⟨a', .call hlog hspec, hR'⟩
  | stopped _ hleads ih =>
      obtain ⟨a, hlog, hR⟩ := ih
      obtain ⟨a', hspec, hR'⟩ := (hcalls _ a).leads hR ⟨a, hnone _ a, hR⟩ hleads
      exact ⟨a', .call hlog hspec, hR'⟩

end VorCommander.Steps
