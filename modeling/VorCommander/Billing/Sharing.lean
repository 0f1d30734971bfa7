import VorCommander.Billing.SharedPath

/-!
Processes that share a path.

A process that rewrites the file does it from the step on by which it changes its
state in memory, or creates the file, until the new file has the name of the path.
If no other process is at it when a process begins, and the state it has in memory
is that of the file with more events applied, then nothing of the file is lost.
-/

namespace VorCommander

open Steps Steps.Program Steps.World Text

variable {same : Bool} {base state : PersistedBillingState} {deliveries more : List Delivery}
  {delivery : Option Delivery} {s s' : BillingDisk} {log : Log BillingFile}
  {h h₀ : History BillingFile}

/-! ### What a process has done before it writes -/

/-- The event is applied to the state, by which it gets to be `next`. -/
def AppliesTo (state next : PersistedBillingState) (event : Value) (now : ℕ) : Prop :=
  ∃ eventId eventType result applied, requiredStr event "id" = .ok eventId ∧
    requiredStr event "type" = .ok eventType ∧ state.events.contains eventId = false ∧
    applyEventToState state eventId eventType event now = .ok (result, applied) ∧
    next = applied.record eventId eventType now result

/-- What a process has performed that is going to write `state` to the file, for an
event if there is one. -/
def Intends (entry : BillingEntry) (h : History BillingFile) (delivery : Option Delivery)
    (state : PersistedBillingState) : Prop :=
  match entry with
  | .openStore _ =>
      h = [⟨.targetExists, false⟩, ⟨.createDir, .ok ()⟩] ∧ delivery = none ∧ state = {}
  | .webhook store event now =>
      ∃ entered, h = [⟨.store store state, ()⟩, ⟨.enter store, some entered⟩] ∧
        delivery = some (event, now) ∧ AppliesTo entered state event now

/-- What is performed before each step by which the file is written. -/
def Precedes (delivery : Option Delivery) (state : PersistedBillingState)
    (h₀ h : History BillingFile) : BillingOp → Prop
  | .openTemp => h = h₀
  | .write file state' => state' = state ∧ h = ⟨.openTemp, .ok file⟩ :: h₀
  | .newline file => h = ⟨.write file state, .ok ()⟩ :: ⟨.openTemp, .ok file⟩ :: h₀
  | .sync file =>
      h = ⟨.newline file, .ok ()⟩ :: ⟨.write file state, .ok ()⟩ :: ⟨.openTemp, .ok file⟩ :: h₀
  | .rename delivery' => delivery' = delivery ∧ ∃ file, h = ⟨.sync file, .ok ()⟩ ::
      ⟨.newline file, .ok ()⟩ :: ⟨.write file state, .ok ()⟩ :: ⟨.openTemp, .ok file⟩ :: h₀
  | _ => False

/-- What a process has done before each operation. -/
def Sequenced (entry : BillingEntry) (h : History BillingFile) (op : BillingOp) : Prop :=
  match op with
  | .store store state =>
      ∃ delivery, Intends entry (⟨.store store state, ()⟩ :: h) delivery state
  | .createDir | .targetExists | .read | .create _ _ | .enter _ | .leave _ => True
  | op => ∃ delivery state h₀, Intends entry h₀ delivery state ∧ Precedes delivery state h₀ h op

/-- What a process has done that has answered an event: it had the event in memory,
or the file that it wrote for it has been renamed. -/
def Answered (entry : BillingEntry) (h : History BillingFile)
    (r : Except BillingError BillingReply) : Prop :=
  ∀ result, r = .ok (.answered result) → ∃ store event now,
    entry = .webhook store event now ∧
      if result.duplicate then ∃ state, ⟨.enter store, some state⟩ ∈ h ∧ Processed state event
      else ⟨.rename (some (event, now)), .ok ()⟩ ∈ h

/-- Nothing is assumed of a reply. -/
abbrev AnyFileReply (_ : History BillingFile) (_ : Event BillingFile) : Prop := True

theorem safe_persistState {entry : BillingEntry} (hintends : Intends entry h₀ delivery state) :
    Safe AnyFileReply (Sequenced entry)
      (fun h r => r = .ok () → ⟨.rename delivery, .ok ()⟩ ∈ h)
      (persistState state delivery).run h₀ := by
  -- a step that fails ends the program, and the file is not renamed
  refine (safe_exceptT_bind _ _).mpr ((safe_call _ _).mpr
    ⟨⟨delivery, state, h₀, hintends, rfl⟩, fun reply _ => ?_⟩)
  cases reply with
  | error e => rintro ⟨⟩
  | ok file =>
    refine (safe_exceptT_bind _ _).mpr ((safe_call _ _).mpr
      ⟨⟨delivery, state, h₀, hintends, rfl, rfl⟩, fun reply _ => ?_⟩)
    cases reply with
    | error e => rintro ⟨⟩
    | ok _ =>
      refine (safe_exceptT_bind _ _).mpr ((safe_call _ _).mpr
        ⟨⟨delivery, state, h₀, hintends, rfl⟩, fun reply _ => ?_⟩)
      cases reply with
      | error e => rintro ⟨⟩
      | ok _ =>
        refine (safe_exceptT_bind _ _).mpr ((safe_call _ _).mpr
          ⟨⟨delivery, state, h₀, hintends, rfl⟩, fun reply _ => ?_⟩)
        cases reply with
        | error e => rintro ⟨⟩
        | ok _ =>
          refine (safe_call _ _).mpr ⟨⟨delivery, state, h₀, hintends, rfl, file, rfl⟩, ?_⟩
          rintro _ - rfl
          exact List.mem_cons_self

theorem safe_openStore (store : ℕ) :
    Safe AnyFileReply (Sequenced (.openStore store)) (fun _ _ => True)
      (BillingStore.openStore store).run [] := by
  refine (safe_exceptT_bind _ _).mpr ((safe_call _ _).mpr ⟨trivial, fun reply _ => ?_⟩)
  cases reply with
  | error e => trivial
  | ok _ =>
    refine (safe_exceptT_bind _ _).mpr ((safe_call _ _).mpr ⟨trivial, fun found _ => ?_⟩)
    cases found with
    | true =>
      refine (safe_exceptT_bind _ _).mpr ((safe_call _ _).mpr ⟨trivial, fun reply _ => ?_⟩)
      cases reply with
      | error e => trivial
      | ok state =>
        refine (safe_exceptT_bind _ _).mpr ((safe_check _).mpr ?_)
        refine (then_failIf _ _ _).mpr ⟨fun _ => trivial, fun _ => ?_⟩
        exact (safe_call _ _).mpr ⟨trivial, fun _ _ => trivial⟩
    | false =>
      have hpersists : Safe AnyFileReply (Sequenced (.openStore store)) _ (persistState {} none).run
          [⟨.targetExists, false⟩, ⟨.createDir, .ok ()⟩] :=
        safe_persistState ⟨rfl, rfl, rfl⟩
      refine (safe_exceptT_bind _ _).mpr (hpersists.mono fun h r _ => ?_)
      cases r with
      | error e => trivial
      | ok _ => exact (safe_call _ _).mpr ⟨trivial, fun _ _ => trivial⟩

theorem safe_applyLocked {store now : ℕ} {event : Value} {eventId eventType : String}
    (hid : requiredStr event "id" = .ok eventId)
    (htype : requiredStr event "type" = .ok eventType) :
    Safe AnyFileReply (Sequenced (.webhook store event now))
      (fun h r => Answered (.webhook store event now) h (r.map .answered))
      (BillingStore.applyLocked true store eventId eventType event now state).run
      [⟨.enter store, some state⟩] := by
  rw [BillingStore.applyLocked]
  by_cases hprocessed : state.events.contains eventId
  · rw [if_pos hprocessed]
    refine (safe_exceptT_pure _).mpr ?_
    rintro result ⟨⟩
    exact ⟨store, event, now, rfl, state, List.mem_cons_self, eventId, hid, hprocessed⟩
  rw [if_neg hprocessed]
  refine (safe_exceptT_bind _ _).mpr ((safe_check _).mpr ?_)
  cases happly : applyEventToState state eventId eventType event now with
  | error e => rintro _ ⟨⟩
  | ok applied =>
    obtain ⟨result, next⟩ := applied
    have hintends : Intends (.webhook store event now)
        [⟨.store store (next.record eventId eventType now result), ()⟩, ⟨.enter store, some state⟩]
        (some (event, now)) (next.record eventId eventType now result) :=
      ⟨state, rfl, rfl, eventId, eventType, result, next, hid, htype,
        (Bool.not_eq_true _).mp hprocessed, happly, rfl⟩
    refine (safe_exceptT_bind _ _).mpr ((safe_call _ _).mpr ⟨⟨_, hintends⟩, fun _ _ => ?_⟩)
    refine (safe_exceptT_bind _ _).mpr ((safe_persistState hintends).mono fun h r hrenamed => ?_)
    cases r with
    | error e => rintro _ ⟨⟩
    | ok _ =>
      refine (safe_exceptT_pure _).mpr ?_
      rintro _ ⟨⟩
      exact ⟨store, event, now, rfl, hrenamed rfl⟩

theorem Answered.leave {entry : BillingEntry} {r : Except BillingError BillingReply}
    (hanswered : Answered entry h r) (e : Event BillingFile) : Answered entry (e :: h) r := by
  intro result hresult
  obtain ⟨store, event, now, hentry, hcause⟩ := hanswered result hresult
  refine ⟨store, event, now, hentry, ?_⟩
  split at hcause
  · obtain ⟨state, henter, hprocessed⟩ := hcause
    rw [if_pos ‹_›]
    exact ⟨state, List.mem_cons_of_mem _ henter, hprocessed⟩
  · rw [if_neg ‹_›]
    exact List.mem_cons_of_mem _ hcause

theorem safe_applyTestWebhook (store : ℕ) (event : Value) (now : ℕ) :
    Safe AnyFileReply (Sequenced (.webhook store event now))
      (fun h r => Answered (.webhook store event now) h (r.map .answered))
      (BillingStore.applyTestWebhook true store event now).run [] := by
  refine (safe_exceptT_bind _ _).mpr ((safe_check _).mpr ?_)
  cases hid : requiredStr event "id" with
  | error e => rintro _ ⟨⟩
  | ok eventId =>
    refine (safe_exceptT_bind _ _).mpr ((safe_check _).mpr ?_)
    cases htype : requiredStr event "type" with
    | error e => rintro _ ⟨⟩
    | ok eventType =>
      refine (safe_exceptT_bind _ _).mpr ((safe_call _ _).mpr ⟨trivial, fun locked _ => ?_⟩)
      refine (safe_exceptT_bind _ _).mpr ((safe_check _).mpr ?_)
      cases locked with
      | none => rintro _ ⟨⟩
      | some state =>
        refine (safe_exceptT_bind _ _).mpr ((safe_exceptT_lift _).mpr ?_)
        refine (safe_applyLocked hid htype).mono fun h r hanswered => ?_
        refine (safe_exceptT_bind _ _).mpr ((safe_call _ _).mpr ⟨trivial, fun _ _ => ?_⟩)
        exact (safe_check _).mpr (hanswered.leave _)

/-- What every process does. -/
theorem safe_billing (entry : BillingEntry) :
    Safe AnyFileReply (Sequenced entry) (Answered entry) entry.body [] := by
  cases entry with
  | openStore store =>
    refine (safe_map _ _).mpr ((safe_openStore store).mono fun h r _ => ?_)
    intro result hresult
    cases r <;> cases hresult
  | webhook store event now => exact (safe_map _ _).mpr (safe_applyTestWebhook store event now)

/-! ### Processes that rewrite the file -/

/-- What has been performed last by a process that rewrites the file. -/
def Rewrites : History BillingFile → Prop
  | ⟨.store _ _, _⟩ :: _ => True
  | ⟨.openTemp, .ok _⟩ :: _ => True
  | ⟨.write _ _, .ok _⟩ :: _ => True
  | ⟨.newline _, .ok _⟩ :: _ => True
  | ⟨.sync _, .ok _⟩ :: _ => True
  | _ => False

/-- A process is rewriting the file. -/
def Rewriting (w : World (billingSystem same)) (i : ℕ) : Prop :=
  ∃ c p, w.calls i = some c ∧ c.rest = some p ∧ Rewrites c.history

/-- The second state is the first with more events applied. -/
def StateExtends (state state' : PersistedBillingState) : Prop :=
  ∃ more, AllApply state more ∧ state' = leaves state more

/-- What a process may do. An event that is a duplicate for the store is in the
file. No other process rewrites the file when one begins; the state that a process
works on is that of the file with more events applied; and a file is created only
where there is none. -/
def Considerate (w : World (billingSystem same)) (i : ℕ) : Event BillingFile → Prop
  | ⟨.enter store, some state⟩ => ∀ c event now, w.calls i = some c →
      c.entry = .webhook store event now → Processed state event →
      ∃ stored, w.shared.stored = some stored ∧ Processed stored event
  | ⟨.store store _, _⟩ => (∀ j, ¬ Rewriting w j) ∧ ∃ stored entered,
      w.shared.stored = some stored ∧
        (w.log.of i).head? = some ⟨.enter store, some entered⟩ ∧ StateExtends stored entered
  | ⟨.openTemp, .ok _⟩ => ∀ c store, w.calls i = some c → c.entry = .openStore store →
      (∀ j, ¬ Rewriting w j) ∧ w.shared.target = none
  | _ => True

/-- The process that moves is considerate. -/
def InTurn (w w' : World (billingSystem same)) : Prop :=
  ∀ i e, w'.log = (i, e) :: w.log → Considerate w i e

/-- What a process is going to write, in terms of deliveries. -/
structure Plan (base : PersistedBillingState) (entry : BillingEntry) (h₀ : History BillingFile)
    (before more : List Delivery) (delivery : Option Delivery) (state : PersistedBillingState)
    (log : Log BillingFile) : Prop where
  intends : Intends entry h₀ delivery state
  apply : AllApply base (before ++ more)
  among : delivery.toList.Sublist more
  state_eq : state = leaves base (before ++ more)
  has : (renamed log).Sublist before

/-- What has been performed once the state is in the temporary file. -/
inductive Wrote (state : PersistedBillingState) (h₀ : History BillingFile) (file : ℕ) :
    History BillingFile → Prop
  | write : Wrote state h₀ file (⟨.write file state, .ok ()⟩ :: ⟨.openTemp, .ok file⟩ :: h₀)
  | newline : Wrote state h₀ file
      (⟨.newline file, .ok ()⟩ :: ⟨.write file state, .ok ()⟩ :: ⟨.openTemp, .ok file⟩ :: h₀)
  | sync : Wrote state h₀ file (⟨.sync file, .ok ()⟩ ::
      ⟨.newline file, .ok ()⟩ :: ⟨.write file state, .ok ()⟩ :: ⟨.openTemp, .ok file⟩ :: h₀)

/-- How far a process has come that rewrites the file, and what the file holds. -/
inductive Midway (same : Bool) (base : PersistedBillingState) (s : BillingDisk)
    (log : Log BillingFile) (entry : BillingEntry) : History BillingFile → List Delivery → Prop
  | begun {h₀ before more delivery state} : Plan base entry h₀ before more delivery state log →
      Midway same base s log entry h₀ before
  | opened {h₀ before more delivery state file} :
      Plan base entry h₀ before more delivery state log → WritesTo same s file →
      s.contents file = .empty → Midway same base s log entry (⟨.openTemp, .ok file⟩ :: h₀) before
  | written {h h₀ before more delivery state file} :
      Plan base entry h₀ before more delivery state log → WritesTo same s file →
      s.contents file = .state state → Wrote state h₀ file h →
      Midway same base s log entry h (if same then before ++ more else before)

variable {entry : BillingEntry} {file i : ℕ} {delivery' : Option Delivery}
  {state' : PersistedBillingState} {h₀' : History BillingFile}

theorem Intends.head {e : Event BillingFile} (hintends : Intends entry (e :: h) delivery state) :
    e.op = .targetExists ∨ ∃ store, e.op = .store store state := by
  cases entry with
  | openStore store =>
      obtain ⟨rfl, -⟩ := List.cons.inj hintends.1
      exact .inl rfl
  | webhook store event now =>
      obtain ⟨entered, hh, -⟩ := hintends
      obtain ⟨rfl, -⟩ := List.cons.inj hh
      exact .inr ⟨store, rfl⟩

/-- What has been performed says what is going to be written. -/
theorem Intends.unique (hintends : Intends entry h₀ delivery state)
    (hintends' : Intends entry h₀ delivery' state') : delivery' = delivery ∧ state' = state := by
  cases entry with
  | openStore store =>
      obtain ⟨-, rfl, rfl⟩ := hintends
      exact hintends'.2
  | webhook store event now =>
      obtain ⟨entered, rfl, rfl, -⟩ := hintends
      obtain ⟨entered', hh, rfl, -⟩ := hintends'
      have hstore := (Event.mk.inj (List.cons.inj hh).1).1
      exact ⟨rfl, (BillingOp.store.inj hstore).2.symm⟩

/-- Where a process stands that has not opened the file. -/
theorem Midway.of_intends (hmidway : Midway same base s log entry h₀ deliveries)
    (hintends : Intends entry h₀ delivery state) :
    ∃ more, Plan base entry h₀ deliveries more delivery state log := by
  cases hmidway with
  | begun hplan =>
      obtain ⟨rfl, rfl⟩ := hplan.intends.unique hintends
      exact ⟨_, hplan⟩
  | opened => exact absurd hintends.head (by simp)
  | written _ _ _ hwrote => cases hwrote <;> exact absurd hintends.head (by simp)

theorem Midway.of_opened
    (hmidway : Midway same base s log entry (⟨.openTemp, .ok file⟩ :: h₀) deliveries)
    (hintends : Intends entry h₀ delivery state) :
    ∃ more, Plan base entry h₀ deliveries more delivery state log ∧ WritesTo same s file ∧
      s.contents file = .empty := by
  generalize hh : (⟨.openTemp, .ok file⟩ :: h₀ : History BillingFile) = h at hmidway
  cases hmidway with
  | begun hplan =>
      subst hh
      exact absurd hplan.intends.head (by simp)
  | opened hplan hwrites hempty =>
      cases hh
      obtain ⟨rfl, rfl⟩ := hplan.intends.unique hintends
      exact ⟨_, hplan, hwrites, hempty⟩
  | written _ _ _ hwrote => cases hwrote <;> cases hh

theorem Midway.of_wrote (hmidway : Midway same base s log entry h deliveries)
    (hwrote : Wrote state h₀ file h) (hintends : Intends entry h₀ delivery state) :
    ∃ before more, deliveries = (if same then before ++ more else before) ∧
      Plan base entry h₀ before more delivery state log ∧ WritesTo same s file ∧
      s.contents file = .state state := by
  cases hmidway with
  | begun hplan => cases hwrote <;> exact absurd hplan.intends.head (by simp)
  | opened => cases hwrote
  | @written h h₁ before more delivery₁ state₁ file₁ hplan hwrites htext hwrote' =>
      obtain ⟨rfl, rfl⟩ : file₁ = file ∧ h₁ = h₀ := by
        cases hwrote <;> cases hwrote' <;> exact ⟨rfl, rfl⟩
      obtain ⟨rfl, rfl⟩ := hplan.intends.unique hintends
      exact ⟨before, more, rfl, hplan, hwrites, htext⟩

/-! ### What holds in every world -/

/-- The file has the deliveries; at most one process rewrites it, and has come as
far as it has. -/
structure Shared (base : PersistedBillingState) (w : World (billingSystem same))
    (deliveries : List Delivery) : Prop where
  holds : FileHas base deliveries w.shared w.log
  alone : ∀ i j, Rewriting w i → Rewriting w j → i = j
  midway : ∀ i c p, w.calls i = some c → c.rest = some p → Rewrites c.history →
    Midway same base w.shared w.log c.entry c.history deliveries

variable {w : World (billingSystem same)} {e : Event BillingFile} {c : Call (billingSystem same)}
  {rest : Program BillingFile (billingSystem same).Result} {deliveries' : List Delivery}

/-- What is to be shown of a step by process `i`. -/
theorem Shared.commit (hw : Shared base w deliveries)
    (hholds : FileHas base deliveries' s' ((i, e) :: w.log))
    (hself : Rewrites (e :: c.history) →
      Midway same base s' ((i, e) :: w.log) c.entry (e :: c.history) deliveries')
    (hothers : ∀ j c' p, j ≠ i → w.calls j = some c' → c'.rest = some p → Rewrites c'.history →
      ¬ Rewrites (e :: c.history) ∧
        Midway same base s' ((i, e) :: w.log) c'.entry c'.history deliveries') :
    Shared base (w.commit i c e rest s') deliveries' := by
  have hcases : ∀ j c' p, (w.commit i c e rest s').calls j = some c' → c'.rest = some p →
      Rewrites c'.history → j = i ∧ c' = ⟨c.entry, e :: c.history, some rest⟩ ∨
        j ≠ i ∧ w.calls j = some c' := by
    intro j c' p hc' hp hrewrites
    by_cases hji : j = i
    · subst hji
      simp only [World.commit, Function.update_self, Option.some.injEq] at hc'
      exact .inl ⟨rfl, hc'.symm⟩
    · exact .inr ⟨hji, by simpa [World.commit, hji] using hc'⟩
  refine ⟨hholds, ?_, ?_⟩
  · rintro j k ⟨c₁, p₁, hc₁, hp₁, hrewrites₁⟩ ⟨c₂, p₂, hc₂, hp₂, hrewrites₂⟩
    rcases hcases j c₁ p₁ hc₁ hp₁ hrewrites₁ with ⟨rfl, rfl⟩ | ⟨hj, hc₁'⟩ <;>
      rcases hcases k c₂ p₂ hc₂ hp₂ hrewrites₂ with ⟨rfl, rfl⟩ | ⟨hk, hc₂'⟩
    · rfl
    · exact absurd hrewrites₁ (hothers k c₂ p₂ hk hc₂' hp₂ hrewrites₂).1
    · exact absurd hrewrites₂ (hothers j c₁ p₁ hj hc₁' hp₁ hrewrites₁).1
    · exact hw.alone j k ⟨c₁, p₁, hc₁', hp₁, hrewrites₁⟩ ⟨c₂, p₂, hc₂', hp₂, hrewrites₂⟩
  · intro j c' p hc' hp hrewrites
    rcases hcases j c' p hc' hp hrewrites with ⟨rfl, rfl⟩ | ⟨hj, hc''⟩
    · exact hself hrewrites
    · exact (hothers j c' p hj hc'' hp hrewrites).2

theorem Plan.cons {before more : List Delivery}
    (hplan : Plan base entry h₀ before more delivery state log) (hrename : renameOf e = none) :
    Plan base entry h₀ before more delivery state ((i, e) :: log) := by
  refine { hplan with has := ?_ }
  rw [renamed_cons, hrename, Option.toList_none, List.append_nil]
  exact hplan.has

/-- A process has come as far as it has while others leave the files alone. -/
theorem Midway.keeps (hmidway : Midway same base s log entry h deliveries)
    (hrename : renameOf e = none) (hcontents : s'.contents = s.contents)
    (htarget : s'.target = s.target) (htemp : s'.temp = s.temp) :
    Midway same base s' ((i, e) :: log) entry h deliveries := by
  have hwrites : ∀ file, WritesTo same s file → WritesTo same s' file := by
    intro file
    rw [WritesTo, WritesTo, htarget, htemp]
    exact id
  cases hmidway with
  | begun hplan => exact .begun (hplan.cons hrename)
  | opened hplan hto hempty =>
      exact .opened (hplan.cons hrename) (hwrites _ hto) (by rw [hcontents, hempty])
  | written hplan hto htext hwrote =>
      exact .written (hplan.cons hrename) (hwrites _ hto) (by rw [hcontents, htext]) hwrote

/-- A step that leaves the files alone, by a process that does not rewrite the file
after it. -/
theorem Shared.quiet (hw : Shared base w deliveries) (hnot : ¬ Rewrites (e :: c.history))
    (hrename : renameOf e = none)
    (hread : ∀ state, readOf e = some state → w.shared.stored = some state)
    (hcontents : s'.contents = w.shared.contents) (htarget : s'.target = w.shared.target)
    (htemp : s'.temp = w.shared.temp) (hfiles : s'.files = w.shared.files) :
    Shared base (w.commit i c e rest s') deliveries := by
  refine hw.commit (hw.holds.keeps hrename hread hcontents htarget htemp hfiles)
    (fun hrewrites => absurd hrewrites hnot) fun j c' p _ hc' hp hrewrites => ⟨hnot, ?_⟩
  exact (hw.midway j c' p hc' hp hrewrites).keeps hrename hcontents htarget htemp

/-- A step by a process that rewrites the file. -/
theorem Shared.writer (hw : Shared base w deliveries) (hwriting : Rewriting w i)
    (hholds : FileHas base deliveries' s' ((i, e) :: w.log))
    (hself : Rewrites (e :: c.history) →
      Midway same base s' ((i, e) :: w.log) c.entry (e :: c.history) deliveries') :
    Shared base (w.commit i c e rest s') deliveries' := by
  refine hw.commit hholds hself fun j c' p hj hc' hp hrewrites => ?_
  exact absurd (hw.alone j i ⟨c', p, hc', hp, hrewrites⟩ hwriting) hj

/-- A step by which a process begins to rewrite the file. -/
theorem Shared.begins (hw : Shared base w deliveries) (hnone : ∀ j, ¬ Rewriting w j)
    (hholds : FileHas base deliveries' s' ((i, e) :: w.log))
    (hself : Midway same base s' ((i, e) :: w.log) c.entry (e :: c.history) deliveries') :
    Shared base (w.commit i c e rest s') deliveries' := by
  refine hw.commit hholds (fun _ => hself) fun j c' p _ hc' hp hrewrites => ?_
  exact absurd ⟨c', p, hc', hp, hrewrites⟩ (hnone j)

/-! ### The steps -/

/-- The state with which a process begins that applies an event. -/
theorem Shared.plan (hw : Shared base w deliveries) {now : ℕ} {event : Value}
    {stored entered : PersistedBillingState} (hstored : w.shared.stored = some stored)
    (hextends : StateExtends stored entered) (happlies : AppliesTo entered state event now)
    (hrename : renameOf e = none)
    (hintends : Intends entry h₀ (some (event, now)) state) :
    ∃ more, Plan base entry h₀ deliveries more (some (event, now)) state ((i, e) :: w.log) := by
  obtain rfl := hw.holds.stored stored hstored
  obtain ⟨more, hmore, rfl⟩ := hextends
  obtain ⟨eventId, eventType, result, applied, hid, htype, hnew, happlied, rfl⟩ := happlies
  rw [← leaves_append] at hnew happlied
  have hall : AllApply base (deliveries ++ more) := hw.holds.apply.append hmore
  refine ⟨more ++ [(event, now)], hintends, ?_, List.sublist_append_right _ _, ?_, ?_⟩
  · rw [← List.append_assoc]
    exact hall.concat ⟨eventId, eventType, _, hid, htype, hnew, happlied⟩
  · rw [← List.append_assoc, leaves_concat hid htype hnew happlied]
  · rw [renamed_cons, hrename, Option.toList_none, List.append_nil]
    exact hw.holds.has

theorem BillingDisk.setText_self (s : BillingDisk) (file : ℕ) :
    s.setText file (s.contents file) = s := by
  rw [BillingDisk.setText, Function.update_eq_self]

section Steps

variable {store : ℕ} {text : StateText}
  {rest' : Program BillingFile (billingSystem same).Result}

theorem Shared.stores (hw : Shared base w deliveries) (hhistory : c.history = w.log.of i)
    (hG : Sequenced c.entry c.history (.store store state))
    (hconsiderate : Considerate w i ⟨.store store state, ()⟩) :
    Shared base (w.commit i c ⟨.store store state, ()⟩ rest
      { w.shared with memory := Function.update w.shared.memory store (some state) })
      deliveries := by
  obtain ⟨delivery, hintends⟩ := hG
  obtain ⟨hnone, stored, entered, hstored, hhead, hextends⟩ := hconsiderate
  cases hentry : c.entry with
  | openStore store' =>
      rw [hentry] at hintends
      cases hintends.1
  | webhook store' event now =>
      rw [hentry] at hintends
      obtain ⟨entered', hh, rfl, happlies⟩ := id hintends
      -- the state it works on is the one it has entered with
      obtain rfl : entered' = entered := by
        rw [← hhistory, (List.cons.inj hh).2] at hhead
        cases hhead
        rfl
      obtain ⟨more, hplan⟩ := hw.plan (i := i) (e := ⟨.store store state, ()⟩) hstored hextends
        happlies rfl hintends
      refine hw.begins hnone (hw.holds.keeps rfl (by rintro _ ⟨⟩) rfl rfl rfl rfl) ?_
      rw [hentry]
      exact .begun hplan

theorem Shared.opens (hw : Shared base w deliveries) (hc : w.calls i = some c)
    (hrest : c.rest = some rest') (hG : Sequenced c.entry c.history .openTemp)
    (hconsiderate : Considerate w i ⟨.openTemp, .ok file⟩) (hopens : w.shared.Opens same file s') :
    Shared base (w.commit i c ⟨.openTemp, .ok file⟩ rest s') deliveries := by
  obtain ⟨delivery, state, h₀, hintends, rfl⟩ := hG
  obtain ⟨hempty, hwrites, hholds⟩ := hw.holds.opens (i := i) hopens
  cases hentry : c.entry with
  | openStore store =>
      obtain ⟨hnone, htarget⟩ := hconsiderate c store hc hentry
      obtain ⟨rfl, rfl⟩ := hw.holds.missing htarget
      rw [hentry] at hintends
      have hplan : Plan {} (.openStore store) c.history [] [] delivery state
          ((i, ⟨.openTemp, .ok file⟩) :: w.log) := by
        obtain ⟨hh, rfl, rfl⟩ := id hintends
        exact ⟨hintends, allApply_nil, List.Sublist.refl _, rfl, hholds.has⟩
      refine hw.begins hnone hholds ?_
      rw [hentry]
      exact .opened hplan hwrites hempty
  | webhook store event now =>
      have hrewrites : Rewrites c.history := by
        rw [hentry] at hintends
        obtain ⟨entered, hh, -⟩ := hintends
        rw [hh]
        trivial
      obtain ⟨more, hplan⟩ := (hw.midway i c _ hc hrest hrewrites).of_intends hintends
      exact hw.writer ⟨c, _, hc, hrest, hrewrites⟩ hholds fun _ =>
        .opened (hplan.cons rfl) hwrites hempty

theorem Shared.writes (hw : Shared base w deliveries) (hc : w.calls i = some c)
    (hrest : c.rest = some rest') (hG : Sequenced c.entry c.history (.write file state))
    (htext : w.shared.contents file = .empty → text = .state state) :
    ∃ deliveries', deliveries <+: deliveries' ∧
      Shared base (w.commit i c ⟨.write file state, .ok ()⟩ rest (w.shared.setText file text))
        deliveries' := by
  obtain ⟨delivery, _, h₀, hintends, rfl, hh⟩ := hG
  have hrewrites : Rewrites c.history := by
    rw [hh]
    trivial
  have hmidway := hw.midway i c _ hc hrest hrewrites
  rw [hh] at hmidway
  obtain ⟨more, hplan, hwrites, hempty⟩ := hmidway.of_opened hintends
  obtain rfl := htext hempty
  have hpending := hw.holds.written (i := i) (e := ⟨.write file state, .ok ()⟩) hplan.apply hwrites
    rfl rfl
  rw [← hplan.state_eq] at hpending
  refine ⟨if same then deliveries ++ more else deliveries, ?_,
    hw.writer ⟨c, _, hc, hrest, hrewrites⟩ hpending.holds fun _ => ?_⟩
  · split
    · exact List.prefix_append _ _
    · exact List.prefix_refl _
  · rw [hh]
    exact .written (hplan.cons rfl) hpending.writesTo (Function.update_self ..) .write

theorem Shared.write_fails (hw : Shared base w deliveries) (hc : w.calls i = some c)
    (hrest : c.rest = some rest') (hG : Sequenced c.entry c.history (.write file state))
    {error : BillingError}
    (htext : w.shared.contents file = .empty → text = .empty ∨ text = .other ∨
      text = .state state) :
    ∃ deliveries', deliveries <+: deliveries' ∧
      Shared base (w.commit i c ⟨.write file state, .error error⟩ rest (w.shared.setText file text))
        deliveries' := by
  obtain ⟨delivery, _, h₀, hintends, rfl, hh⟩ := hG
  have hrewrites : Rewrites c.history := by
    rw [hh]
    trivial
  have hmidway := hw.midway i c _ hc hrest hrewrites
  rw [hh] at hmidway
  obtain ⟨more, hplan, hwrites, hempty⟩ := hmidway.of_opened hintends
  have htexts := htext hempty
  rw [hplan.state_eq] at htexts
  obtain ⟨deliveries', hgrows, hholds⟩ := hw.holds.failed (i := i)
    (e := ⟨.write file state, .error error⟩) hplan.apply hwrites rfl rfl htexts
  exact ⟨deliveries', hgrows, hw.writer ⟨c, _, hc, hrest, hrewrites⟩ hholds (by rintro ⟨⟩)⟩

/-- A step of a process that has written the state and leaves the files alone. -/
theorem Shared.goes_on (hw : Shared base w deliveries) (hc : w.calls i = some c)
    (hrest : c.rest = some rest') (hrewrites : Rewrites c.history)
    (hintends : Intends c.entry h₀ delivery state) (hwrote : Wrote state h₀ file c.history)
    (hnext : Rewrites (e :: c.history) → Wrote state h₀ file (e :: c.history))
    (hrename : renameOf e = none) (hread : readOf e = none) :
    Shared base (w.commit i c e rest w.shared) deliveries := by
  refine hw.writer ⟨c, _, hc, hrest, hrewrites⟩
    (hw.holds.keeps hrename (by simp [hread]) rfl rfl rfl rfl) fun hnot => ?_
  obtain ⟨before, more, rfl, hplan, hwrites, htext⟩ :=
    (hw.midway i c _ hc hrest hrewrites).of_wrote hwrote hintends
  exact .written (hplan.cons hrename) hwrites htext (hnext hnot)

theorem Shared.ends_line (hw : Shared base w deliveries) (hc : w.calls i = some c)
    (hrest : c.rest = some rest') (hG : Sequenced c.entry c.history (.newline file))
    (htext : ∀ state, w.shared.contents file = .state state → text = .state state)
    (reply : Except BillingError Unit) :
    Shared base (w.commit i c ⟨.newline file, reply⟩ rest (w.shared.setText file text))
      deliveries := by
  obtain ⟨delivery, state, h₀, hintends, hh⟩ := hG
  have hrewrites : Rewrites c.history := by
    rw [hh]
    trivial
  have hwrote : Wrote state h₀ file c.history := by
    rw [hh]
    exact .write
  obtain ⟨-, -, -, -, -, hcontents⟩ :=
    (hw.midway i c _ hc hrest hrewrites).of_wrote hwrote hintends
  obtain rfl : text = w.shared.contents file := (htext state hcontents).trans hcontents.symm
  have hself : w.shared.setText file (w.shared.contents file) = w.shared :=
    BillingDisk.setText_self w.shared file
  rw [hself]
  refine hw.goes_on hc hrest hrewrites hintends hwrote (fun hnext => ?_) rfl rfl
  cases reply with
  | error e => cases hnext
  | ok _ =>
      rw [hh]
      exact .newline

theorem Shared.syncs (hw : Shared base w deliveries) (hc : w.calls i = some c)
    (hrest : c.rest = some rest') (hG : Sequenced c.entry c.history (.sync file))
    (reply : Except BillingError Unit) :
    Shared base (w.commit i c ⟨.sync file, reply⟩ rest w.shared) deliveries := by
  obtain ⟨delivery, state, h₀, hintends, hh⟩ := hG
  have hrewrites : Rewrites c.history := by
    rw [hh]
    trivial
  have hwrote : Wrote state h₀ file c.history := by
    rw [hh]
    exact .newline
  refine hw.goes_on hc hrest hrewrites hintends hwrote (fun hnext => ?_) rfl rfl
  cases reply with
  | error e => cases hnext
  | ok _ =>
      rw [hh]
      exact .sync

theorem Shared.renames (hw : Shared base w deliveries) (hc : w.calls i = some c)
    (hrest : c.rest = some rest') (hG : Sequenced c.entry c.history (.rename delivery))
    (hrenames : w.shared.Renames same s') :
    ∃ deliveries', deliveries <+: deliveries' ∧
      Shared base (w.commit i c ⟨.rename delivery, .ok ()⟩ rest s') deliveries' := by
  obtain ⟨_, state, h₀, hintends, rfl, file, hh⟩ := hG
  have hrewrites : Rewrites c.history := by
    rw [hh]
    trivial
  have hwrote : Wrote state h₀ file c.history := by
    rw [hh]
    exact .sync
  obtain ⟨before, more, rfl, hplan, hwrites, hcontents⟩ :=
    (hw.midway i c _ hc hrest hrewrites).of_wrote hwrote hintends
  rw [hplan.state_eq] at hcontents
  have hpending : PendingText same base before more file w.shared w.log :=
    ⟨hcontents, hwrites, hplan.has, hw.holds⟩
  refine ⟨before ++ more, ?_, hw.writer ⟨c, _, hc, hrest, hrewrites⟩
    (hpending.renames hplan.apply hplan.among hrenames) (by rintro ⟨⟩)⟩
  split
  · exact List.prefix_refl _
  · exact List.prefix_append _ _

/-- What one operation preserves. The deliveries of the file may only get more. -/
theorem Shared.step (hw : Shared base w deliveries) (hhistory : c.history = w.log.of i)
    (hc : w.calls i = some c) (hrest : c.rest = some rest') (hG : Sequenced c.entry c.history e.op)
    (hcommit : w.shared.Commit same e s') (hconsiderate : Considerate w i e) :
    ∃ deliveries', deliveries <+: deliveries' ∧
      Shared base (w.commit i c e rest s') deliveries' := by
  have hsame : Shared base (w.commit i c e rest s') deliveries → ∃ deliveries',
      deliveries <+: deliveries' ∧ Shared base (w.commit i c e rest s') deliveries' :=
    fun h => ⟨deliveries, List.prefix_refl _, h⟩
  obtain ⟨op, reply⟩ := e
  cases op with
  | createDir =>
      obtain rfl := hcommit
      exact hsame (hw.quiet id rfl (by rintro _ ⟨⟩) rfl rfl rfl rfl)
  | targetExists =>
      obtain ⟨rfl, -⟩ := hcommit
      exact hsame (hw.quiet id rfl (by rintro _ ⟨⟩) rfl rfl rfl rfl)
  | read =>
      cases reply with
      | error error =>
          obtain rfl := hcommit
          exact hsame (hw.quiet id rfl (by rintro _ ⟨⟩) rfl rfl rfl rfl)
      | ok state =>
          obtain ⟨rfl, hstored⟩ := hcommit
          refine hsame (hw.quiet id rfl ?_ rfl rfl rfl rfl)
          rintro _ ⟨⟩
          exact hstored
  | openTemp =>
      cases reply with
      | error error =>
          obtain rfl := hcommit
          exact hsame (hw.quiet id rfl (by rintro _ ⟨⟩) rfl rfl rfl rfl)
      | ok file => exact hsame (hw.opens hc hrest hG hconsiderate hcommit)
  | write file state =>
      cases reply with
      | error error =>
          obtain ⟨text, htext, rfl⟩ := hcommit
          exact hw.write_fails hc hrest hG htext
      | ok _ =>
          obtain ⟨text, htext, rfl⟩ := hcommit
          exact hw.writes hc hrest hG htext
  | newline file =>
      obtain ⟨text, htext, rfl⟩ := hcommit
      exact hsame (hw.ends_line hc hrest hG htext reply)
  | sync file =>
      obtain rfl := hcommit
      exact hsame (hw.syncs hc hrest hG reply)
  | rename delivery =>
      cases reply with
      | error error =>
          obtain rfl := hcommit
          exact hsame (hw.quiet id rfl (by rintro _ ⟨⟩) rfl rfl rfl rfl)
      | ok _ => exact hw.renames hc hrest hG hcommit
  | create store state =>
      obtain ⟨-, rfl⟩ := hcommit
      exact hsame (hw.quiet id rfl (by rintro _ ⟨⟩) rfl rfl rfl rfl)
  | enter store =>
      cases reply with
      | none =>
          obtain rfl := hcommit
          exact hsame (hw.quiet id rfl (by rintro _ ⟨⟩) rfl rfl rfl rfl)
      | some state =>
          obtain ⟨-, -, rfl⟩ := hcommit
          exact hsame (hw.quiet id rfl (by rintro _ ⟨⟩) rfl rfl rfl rfl)
  | store store state =>
      obtain rfl := hcommit
      exact hsame (hw.stores hhistory hG hconsiderate)
  | leave store =>
      obtain rfl := hcommit
      exact hsame (hw.quiet id rfl (by rintro _ ⟨⟩) rfl rfl rfl rfl)

end Steps

end VorCommander
