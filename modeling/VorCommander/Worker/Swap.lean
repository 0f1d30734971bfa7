import VorCommander.Worker.Racing
import VorCommander.Worker.Retry

/-!
Runs of writers of the same files.

A write promises to replace only what it has been told to expect. In a run it does so
as long as its target stays as it is between the second look and the replacement, and
two writes that expect the same never both succeed as long as nobody puts back what
has been replaced.
-/

namespace VorCommander

open Crypto Steps Steps.Program Text Files FsWorker

variable {P : Primitives} {w w' : World (writeSystem P)} {i j : ℕ} {worker worker' : FsWorker}
  {authorization authorization' : Authorization} {expected : TargetPrecondition}
  {target : String}

/-! ### What a write promises -/

/-- Call `i` is a write that expects something of its target. -/
def Writing (w : World (writeSystem P)) (i : ℕ) (worker : FsWorker)
    (authorization : Authorization) (expected : TargetPrecondition) : Prop :=
  ∃ c content, w.calls i = some c ∧ c.entry = .write worker authorization content ∧
    authorization.requiredTargetPrecondition = .ok expected

/-- Call `i` has written and has returned a receipt. -/
def HasWritten (w : World (writeSystem P)) (i : ℕ) (worker : FsWorker)
    (authorization : Authorization) (receipt : WriteReceipt) : Prop :=
  ∃ c content, w.calls i = some c ∧ c.entry = .write worker authorization content ∧
    c.rest = some (.done (.ok receipt))

/-- There was a moment in the run that led to `w` at which call `i` replaced the target,
and found there what it expected. -/
def Swapped (w : World (writeSystem P)) (i : ℕ) (expected : TargetPrecondition)
    (target : String) : Prop :=
  ∃ before after : World (writeSystem P),
    World.Reachable (fun _ => True) World.anyEntry before ∧
    World.Step World.anyEntry before after ∧
    Relation.ReflTransGen (World.Step World.anyEntry) after w ∧
    (∃ source, after.log = (i, ⟨.rename source target, .ok ()⟩) :: before.log) ∧
    Meets P (some expected) (before.shared target)

/-- A step that disturbs no write. Between its second look and the replacement the
target of a write stays as it is; once a write has replaced its target, what it expected
is not there again; and where `exists` has no answer there is nothing. -/
structure SparesWrites (w w' : World (writeSystem P)) : Prop where
  kept : ∀ i worker authorization expected target,
    Writing w i worker authorization expected →
    worker.Checked P authorization.request expected (w.log.of i) target →
    (∃ e, w'.log = (i, e) :: w.log ∧ worker.Replaces authorization.request e.op target) ∨
      w'.shared target = w.shared target
  gone : ∀ i worker authorization expected target,
    Writing w' i worker authorization expected →
    HasReplaced worker authorization.request (w'.log.of i) target →
    ¬ Meets P (some expected) (w'.shared target)
  answered : ∀ i worker authorization expected path e,
    Writing w i worker authorization expected →
    w'.log = (i, ⟨.probe path, .error e⟩) :: w.log → w.shared path = none

/-! ### One step -/

/-- A write has checked its target before an event, or the event was the look. -/
theorem FsWorker.Checked.of_cons {e : Event Files} {h : History Files} {s s' : FileSystem}
    (hc : worker.Checked P authorization.request expected (e :: h) target)
    (hcommit : e.op.Commits s e.reply s')
    (hanswered : ∀ path error, e = ⟨.probe path, .error error⟩ → s path = none) :
    (worker.Checked P authorization.request expected h target ∧
        ¬ worker.Replaces authorization.request e.op target) ∨
      s' = s ∧ Meets P (some expected) (s target) := by
  obtain ⟨⟨found, hlook, hmeets⟩, hbefore⟩ := hc
  have hnot : ¬ worker.Replaces authorization.request e.op target :=
    hbefore e List.mem_cons_self
  have hearlier : ∀ e ∈ h, ¬ worker.Replaces authorization.request e.op target :=
    fun e he => hbefore e (List.mem_cons_of_mem _ he)
  -- where the event is the look, it has seen what is there
  have hlooked : ∀ {path : String} {seen : Option (List UInt8)}, s' = s → s path = seen →
      (if h.any isSync then some (path, seen) else none) = some (target, found) →
      s' = s ∧ Meets P (some expected) (s target) := by
    intro path seen hs hseen hlook
    split at hlook
    · obtain ⟨rfl, rfl⟩ := Prod.mk.inj (Option.some.inj hlook)
      exact ⟨hs, hseen ▸ hmeets⟩
    · cases hlook
  -- only what asks for a file can be the last look
  obtain ⟨op, reply⟩ := e
  by_cases hasks : op.asks = true
  swap
  · rw [lastLook_cons h (by simpa using hasks)] at hlook
    exact .inl ⟨⟨⟨found, hlook, hmeets⟩, hearlier⟩, hnot⟩
  have hs : s' = s := hcommit.eq_of_asks hasks
  cases op with
  | probe path =>
      cases reply with
      | error error => exact .inr (hlooked hs (hanswered path error rfl) hlook)
      | ok there =>
          cases there with
          | true => exact .inl ⟨⟨⟨found, hlook, hmeets⟩, hearlier⟩, hnot⟩
          | false =>
              have hnone : s path = none := by
                have hfound : false = (s path).isSome := hcommit.2
                simpa using hfound.symm
              exact .inr (hlooked hs hnone hlook)
  | read path =>
      cases reply with
      | error error => exact .inl ⟨⟨⟨found, hlook, hmeets⟩, hearlier⟩, hnot⟩
      | ok content => exact .inr (hlooked hs hcommit.2 hlook)
  | lookup path => exact .inl ⟨⟨⟨found, hlook, hmeets⟩, hearlier⟩, hnot⟩
  | canonicalize path => exact .inl ⟨⟨⟨found, hlook, hmeets⟩, hearlier⟩, hnot⟩
  | rejectReparse path => exact .inl ⟨⟨⟨found, hlook, hmeets⟩, hearlier⟩, hnot⟩
  | createNew _ | createTruncated _ | write _ _ | sync _ | copy _ _ | rename _ _ | remove _ =>
      cases hasks

/-! ### Runs -/

/-- What holds of the writes of a run that nobody disturbs. -/
structure Settled (w : World (writeSystem P)) : Prop where
  checked : ∀ i worker authorization expected target,
    Writing w i worker authorization expected →
    worker.Checked P authorization.request expected (w.log.of i) target →
    Meets P (some expected) (w.shared target)
  gone : ∀ i worker authorization expected target,
    Writing w i worker authorization expected →
    HasReplaced worker authorization.request (w.log.of i) target →
    ¬ Meets P (some expected) (w.shared target)
  swapped : ∀ i worker authorization expected target,
    Writing w i worker authorization expected →
    HasReplaced worker authorization.request (w.log.of i) target → Swapped w i expected target
  once : ∀ i j worker worker' authorization authorization' expected target,
    Writing w i worker authorization expected → Writing w j worker' authorization' expected →
    HasReplaced worker authorization.request (w.log.of i) target →
    HasReplaced worker' authorization'.request (w.log.of j) target → i = j

theorem Swapped.step (hs : Swapped w i expected target) (hstep : World.Step World.anyEntry w w') :
    Swapped w' i expected target := by
  obtain ⟨before, after, hbefore, hfirst, hrun, hrest⟩ := hs
  exact ⟨before, after, hbefore, hfirst, hrun.tail hstep, hrest⟩

/-- A write replaces what it expects. -/
theorem Settled.replaces (hs : Settled w)
    (hw : World.Reachable (fun _ => True) World.anyEntry w)
    (hwriting : Writing w i worker authorization expected) {c : Call (writeSystem P)}
    {op : FileOp} {next : op.Reply → Program Files (Except FsError WriteReceipt)}
    (hc : w.calls i = some c) (hrest : c.rest = some (.step op next))
    (hreplaces : worker.Replaces authorization.request op target) :
    Meets P (some expected) (w.shared target) := by
  have hguarantee := hw.guarantee_next (WriteEntry.safe_body P)
    (hw.allowed fun _ _ _ _ _ => trivial) hc hrest
  obtain ⟨c', content, hc', hentry, hexpected⟩ := hwriting
  obtain rfl := Option.some.inj (hc.symm.trans hc')
  rw [hentry] at hguarantee
  obtain ⟨expected', hexpected', hchecked⟩ := hguarantee target hreplaces
  obtain rfl := Except.ok.inj (hexpected.symm.trans hexpected')
  exact hs.checked i worker authorization expected target
    ⟨c, content, hc, hentry, hexpected⟩ hchecked

/-- A call that writes after a step wrote before it, or has just been started. -/
theorem Writing.before (hstep : World.Step World.anyEntry w w') (hw : w.Consistent)
    (hwriting : Writing w' i worker authorization expected) :
    Writing w i worker authorization expected ∨ w'.log.of i = [] := by
  obtain ⟨c', content, hc', hentry, hexpected⟩ := hwriting
  cases hc : w.calls i with
  | some c =>
      left
      obtain ⟨c'', hc'', hsame⟩ := hstep.entry hc
      obtain rfl := Option.some.inj (hc''.symm.trans hc')
      exact ⟨c, content, hc, hsame.symm.trans hentry, hexpected⟩
  | none =>
      right
      have hnothing : w.log.of i = [] := by
        rw [List.eq_nil_iff_forall_not_mem]
        intro e he
        obtain ⟨c, hc'⟩ := hw.started i e (Log.mem_of.mp he)
        rw [hc] at hc'
        cases hc'
      -- only a call that has been started adds to the log
      cases hstep with
      | start _ _ => exact hnothing
      | crash _ => exact hnothing
      | @commit j c op next reply s hj _ _ =>
          have hji : j ≠ i := by
            rintro rfl
            rw [hc] at hj
            cases hj
          exact (Log.of_cons_ne w.log ⟨op, reply⟩ hji).trans hnothing

theorem not_checked_nil :
    ¬ worker.Checked P authorization.request expected [] target := by
  rintro ⟨⟨found, hlook, -⟩, -⟩
  cases hlook

theorem not_hasReplaced_nil : ¬ HasReplaced worker authorization.request [] target := by
  rintro ⟨source, hmem, -⟩
  cases hmem

/-- A write that has replaced its target had done so before a step, or has found there
what it expected. -/
theorem Settled.replaced (hs : Settled w)
    (hw : World.Reachable (fun _ => True) World.anyEntry w)
    (hstep : World.Step World.anyEntry w w')
    (hwriting : Writing w' i worker authorization expected)
    (hreplaced : HasReplaced worker authorization.request (w'.log.of i) target) :
    Writing w i worker authorization expected ∧
      (HasReplaced worker authorization.request (w.log.of i) target ∨
        (∃ source, w'.log = (i, ⟨.rename source target, .ok ()⟩) :: w.log) ∧
          Meets P (some expected) (w.shared target)) := by
  have hwrote : Writing w i worker authorization expected := by
    refine (hwriting.before hstep hw.consistent).resolve_right fun hnil => ?_
    rw [hnil] at hreplaced
    exact not_hasReplaced_nil hreplaced
  refine ⟨hwrote, ?_⟩
  cases hstep with
  | start _ _ => exact .inl hreplaced
  | crash _ => exact .inl hreplaced
  | @commit k c op next reply s hc hrest hcommit =>
      by_cases hik : k = i
      swap
      · exact .inl (Log.of_cons_ne w.log ⟨op, reply⟩ hik ▸ hreplaced)
      subst hik
      obtain ⟨source, hmem, hreplaces⟩ := hreplaced
      change _ ∈ Log.of ((k, ⟨op, reply⟩) :: w.log) k at hmem
      rw [Log.of_cons_self, List.mem_cons] at hmem
      rcases hmem with heq | hmem
      · cases heq
        exact .inr ⟨⟨source, rfl⟩, hs.replaces hw hwrote hc hrest hreplaces⟩
      · exact .inl ⟨source, hmem, hreplaces⟩

/-- A write that has checked its target still finds there what it expects. -/
theorem Settled.still (hs : Settled w)
    (hw : World.Reachable (fun _ => True) World.anyEntry w)
    (hstep : World.Step World.anyEntry w w') (hspares : SparesWrites w w')
    (hwriting : Writing w' i worker authorization expected)
    (hchecked : worker.Checked P authorization.request expected (w'.log.of i) target) :
    Meets P (some expected) (w'.shared target) := by
  have hwrote : Writing w i worker authorization expected := by
    refine (hwriting.before hstep hw.consistent).resolve_right fun hnil => ?_
    rw [hnil] at hchecked
    exact not_checked_nil hchecked
  have hkept := hspares.kept i worker authorization expected target hwrote
  -- a write that had checked its target before the step and has not replaced it in it
  have hearlier : worker.Checked P authorization.request expected (w.log.of i) target →
      (∀ e, w'.log = (i, e) :: w.log → ¬ worker.Replaces authorization.request e.op target) →
      Meets P (some expected) (w'.shared target) := by
    intro hchecked hnot
    rcases hkept hchecked with ⟨e, hlog, hreplaces⟩ | hsame
    · exact absurd hreplaces (hnot e hlog)
    · rw [hsame]
      exact hs.checked i worker authorization expected target hwrote hchecked
  cases hstep with
  | start _ _ => exact hs.checked i worker authorization expected target hwrote hchecked
  | crash _ => exact hs.checked i worker authorization expected target hwrote hchecked
  | @commit k c op next reply s hc hrest hcommit =>
      by_cases hik : k = i
      · subst hik
        change worker.Checked P authorization.request expected
          (Log.of ((k, ⟨op, reply⟩) :: w.log) k) target at hchecked
        rw [Log.of_cons_self] at hchecked
        have hanswered := fun path error heq =>
          hspares.answered k worker authorization expected path error hwrote
            (congrArg (fun e => (k, e) :: w.log) heq)
        rcases hchecked.of_cons hcommit hanswered with ⟨hbefore, hnot⟩ | ⟨hsame, hmeets⟩
        · refine hearlier hbefore fun e hlog => ?_
          obtain ⟨hentry, -⟩ := List.cons.inj hlog
          obtain ⟨-, rfl⟩ := Prod.mk.inj hentry
          exact hnot
        · change Meets P (some expected) (s target)
          rw [hsame]
          exact hmeets
      · refine hearlier (Log.of_cons_ne w.log ⟨op, reply⟩ hik ▸ hchecked) fun e hlog => ?_
        obtain ⟨hentry, -⟩ := List.cons.inj hlog
        exact absurd (Prod.mk.inj hentry).1 hik

theorem Settled.step (hs : Settled w) (hw : World.Reachable (fun _ => True) World.anyEntry w)
    (hstep : World.Step World.anyEntry w w') (hspares : SparesWrites w w') : Settled w' where
  checked i worker authorization expected target hwriting hchecked :=
    hs.still hw hstep hspares hwriting hchecked
  gone := hspares.gone
  swapped := by
    intro i worker authorization expected target hwriting hreplaced
    obtain ⟨hwriting, hearlier | ⟨hnow, hmeets⟩⟩ := hs.replaced hw hstep hwriting hreplaced
    · exact (hs.swapped i worker authorization expected target hwriting hearlier).step hstep
    · exact ⟨w, w', hw, hstep, .refl, hnow, hmeets⟩
  once := by
    intro i j worker worker' authorization authorization' expected target hi hj hreplaced hreplaced'
    obtain ⟨hi, hearlier | ⟨⟨source, hnow⟩, hmeets⟩⟩ := hs.replaced hw hstep hi hreplaced
    · obtain ⟨hj, hearlier' | ⟨-, hmeets⟩⟩ := hs.replaced hw hstep hj hreplaced'
      · exact hs.once i j worker worker' authorization authorization' expected target hi hj
          hearlier hearlier'
      · exact absurd hmeets (hs.gone i worker authorization expected target hi hearlier)
    · obtain ⟨hj, hearlier' | ⟨⟨source', hnow'⟩, -⟩⟩ := hs.replaced hw hstep hj hreplaced'
      · exact absurd hmeets (hs.gone j worker' authorization' expected target hj hearlier')
      · exact (Prod.mk.inj (List.cons.inj (hnow.symm.trans hnow')).1).1

/-- A write that has returned a receipt has replaced its target. -/
theorem HasWritten.replaced {receipt : WriteReceipt}
    (hw : World.Reachable (fun _ => True) World.anyEntry w)
    (hwritten : HasWritten w i worker authorization receipt) :
    ∃ expected, Writing w i worker authorization expected ∧
      HasReplaced worker authorization.request (w.log.of i) receipt.target := by
  obtain ⟨c, content, hc, hentry, hrest⟩ := hwritten
  have hanyOutcome := hw.allowed (A := AnyOutcome) fun _ _ _ _ _ => trivial
  have houtcome := hw.result (WriteEntry.safe_body P) hanyOutcome hc hrest
  rw [hentry] at houtcome
  have hreplaced : HasReplaced worker authorization.request (w.log.of i) receipt.target :=
    houtcome receipt rfl
  obtain ⟨source, hmem, hreplaces⟩ := hreplaced
  obtain ⟨later, earlier, hlog⟩ := List.append_of_mem (Log.mem_of.mp hmem)
  obtain ⟨c', hc', hguarantee⟩ := hw.guarantee (WriteEntry.safe_body P) hanyOutcome hlog
  obtain rfl := Option.some.inj (hc.symm.trans hc')
  rw [hentry] at hguarantee
  obtain ⟨expected, hexpected, -⟩ := hguarantee receipt.target hreplaces
  exact ⟨expected, ⟨c, content, hc, hentry, hexpected⟩, source, hmem, hreplaces⟩

namespace Sample

/-- The target a call has written, once it has returned a receipt. -/
def written (w : World (writeSystem reference)) (i : ℕ) : Option String :=
  match w.calls i with
  | some ⟨_, _, some (.done (.ok receipt))⟩ => some receipt.target
  | _ => none

end Sample

namespace Sample

/-- What is asked of a step of the note for it to disturb nobody. -/
def calm (s : FileSystem) (h : History Files) (e : Event Files) (s' : FileSystem) : Bool :=
  (match lastLook h with
    | some (target, _) =>
        (match e.op with
          | .rename source path => source != noteTransaction.journalTemp && path == target
          | _ => false) || s' target == s target
    | none => true) &&
  (e :: h).all (fun
    | ⟨.rename source target, .ok ()⟩ =>
        source == noteTransaction.journalTemp || (s' target).isSome
    | _ => true) &&
  match e with
    | ⟨.probe path, .error _⟩ => (s path).isNone
    | _ => true

/-- The world in which the note alone has been started. -/
def alone (p : Program Files (Except FsError WriteReceipt)) (s : FileSystem) (h : History Files) :
    World (writeSystem reference) :=
  (World.initial fun _ => none : World (writeSystem reference)).standing 0
    (.write noteWorker note noteContent) p s h

end Sample

end VorCommander
