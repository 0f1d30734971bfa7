import VorCommander.Terminal.Sessions

/-!
What the callers of a manager and the threads of its sessions guarantee.

A caller looks at a cell, or sets its flag, only if it has found the cell in the
registry under an owner that is its own; it takes a session out of the registry only if
it has found it there or has put it there itself. A thread finishes its own cell only,
and does so once. None of this depends on what the others do.
-/

namespace VorCommander

open Steps Steps.Program TerminalSessions

/-! ### Rules -/

section Rules

variable {A : History TerminalSessions → Event TerminalSessions → Prop}
  {G : History TerminalSessions → TerminalSessions.Op → Prop} {h : History TerminalSessions}

@[simp] theorem safe_prepare {spec : TerminalSpec}
    {Q : History TerminalSessions → Except TerminalError Unit → Prop} :
    Safe A G Q (prepare spec).run h ↔
      G h (.prepare spec) ∧ ∀ r, A h ⟨.prepare spec, r⟩ → Q (⟨.prepare spec, r⟩ :: h) r :=
  safe_call _ _

@[simp] theorem safe_drawIds
    {Q : History TerminalSessions → Except TerminalError SessionDraws → Prop} :
    Safe A G Q draw.run h ↔ G h .draw ∧ ∀ r, A h ⟨.draw, r⟩ → Q (⟨.draw, r⟩ :: h) (.ok r) :=
  safe_call _ _

@[simp] theorem safe_register {owner : TerminalSessionOwner} {candidates : List String}
    {Q : History TerminalSessions → Except TerminalError (String × ℕ) → Prop} :
    Safe A G Q (register owner candidates).run h ↔
      G h (.register owner candidates) ∧ ∀ r, A h ⟨.register owner candidates, r⟩ →
        Q (⟨.register owner candidates, r⟩ :: h) r :=
  safe_call _ _

@[simp] theorem safe_spawn {cell : ℕ} {spec : TerminalSpec}
    {Q : History TerminalSessions → Except TerminalError (Except TerminalError Unit) → Prop} :
    Safe A G Q (spawn cell spec).run h ↔
      G h (.spawn cell spec) ∧ ∀ r, A h ⟨.spawn cell spec, r⟩ →
        Q (⟨.spawn cell spec, r⟩ :: h) (.ok r) :=
  safe_call _ _

@[simp] theorem safe_lookup {sessionId : String}
    {Q : History TerminalSessions → Except TerminalError (Option ManagedTerminalSession) → Prop} :
    Safe A G Q (lookup sessionId).run h ↔
      G h (.lookup sessionId) ∧ ∀ r, A h ⟨.lookup sessionId, r⟩ →
        Q (⟨.lookup sessionId, r⟩ :: h) r :=
  safe_call _ _

@[simp] theorem safe_readCell {cell : ℕ}
    {Q : History TerminalSessions → Except TerminalError ManagedTerminalState → Prop} :
    Safe A G Q (readState cell).run h ↔
      G h (.readState cell) ∧ ∀ r, A h ⟨.readState cell, r⟩ → Q (⟨.readState cell, r⟩ :: h) r :=
  safe_call _ _

@[simp] theorem safe_setCancelled {cell : ℕ}
    {Q : History TerminalSessions → Except TerminalError Unit → Prop} :
    Safe A G Q (setCancelled cell).run h ↔
      G h (.setCancelled cell) ∧ ∀ r, A h ⟨.setCancelled cell, r⟩ →
        Q (⟨.setCancelled cell, r⟩ :: h) (.ok r) :=
  safe_call _ _

@[simp] theorem safe_removeSession {sessionId : String}
    {Q : History TerminalSessions → Except TerminalError (Except TerminalError Unit) → Prop} :
    Safe A G Q (removeSession sessionId).run h ↔
      G h (.removeSession sessionId) ∧ ∀ r, A h ⟨.removeSession sessionId, r⟩ →
        Q (⟨.removeSession sessionId, r⟩ :: h) (.ok r) :=
  safe_call _ _

@[simp] theorem safe_sessionCount {Q : History TerminalSessions → Except TerminalError ℕ → Prop} :
    Safe A G Q sessionCount.run h ↔
      G h .sessionCount ∧ ∀ r, A h ⟨.sessionCount, r⟩ → Q (⟨.sessionCount, r⟩ :: h) r :=
  safe_call _ _

end Rules

/-! ### Guarantees -/

/-- A caller has found a session. -/
def Found (h : History TerminalSessions) (sessionId : String) (managed : ManagedTerminalSession) :
    Prop :=
  ⟨.lookup sessionId, .ok (some managed)⟩ ∈ h

/-- A caller has entered a session. -/
def Entered (h : History TerminalSessions) (sessionId : String) (managed : ManagedTerminalSession) :
    Prop :=
  ∃ candidates, ⟨.register managed.owner candidates, .ok (sessionId, managed.cell)⟩ ∈ h

/-- What a call guarantees of its next operation. -/
def TerminalEntry.Guarantees (entry : TerminalEntry) (h : History TerminalSessions) :
    TerminalOp → Prop
  | .register owner candidates => entry.owner = some owner ∧
      (∃ draws, ⟨.draw, draws⟩ ∈ h ∧ candidates = draws.candidates) ∧
      ∀ e ∈ h, ∀ owner candidates, e.op ≠ .register owner candidates
  | .readState cell | .setCancelled cell => ∃ sessionId managed, Found h sessionId managed ∧
      managed.cell = cell ∧ entry.owner = some managed.owner
  | .removeSession sessionId => ∃ managed, entry.owner = some managed.owner ∧
      (Found h sessionId managed ∨ Entered h sessionId managed)
  | .finish cell _ => (∃ spec, entry = .worker cell spec) ∧
      ∀ e ∈ h, ∀ cell outcome, e.op ≠ .finish cell outcome
  | _ => True

/-- A caller has been told that a lock is poisoned. -/
def Poisoned (h : History TerminalSessions) (e : TerminalError) : Prop :=
  (∃ sessionId, ⟨.lookup sessionId, .error e⟩ ∈ h) ∨ ∃ cell, ⟨.readState cell, .error e⟩ ∈ h

/-- Why a session is not given to a caller. -/
def Refused (sessionId : String) (owner : TerminalSessionOwner) (h : History TerminalSessions)
    (e : TerminalError) : Prop :=
  Poisoned h e ∨ ⟨.lookup sessionId, .ok none⟩ ∈ h ∨
    ∃ managed, Found h sessionId managed ∧ managed.owner ≠ owner

/-- What a poll reports. -/
def Polled (sessionId : String) (owner : TerminalSessionOwner) (h : History TerminalSessions) :
    Except TerminalError TerminalSessionSnapshot → Prop
  | .ok snapshot => ∃ managed state, Found h sessionId managed ∧ managed.owner = owner ∧
      ⟨.readState managed.cell, .ok state⟩ ∈ h ∧ snapshot = sessionSnapshot sessionId state
  | .error e => Refused sessionId owner h e

/-- What is left of a call when it returns. -/
def TerminalEntry.Outcome (h : History TerminalSessions) (r : Except TerminalError TerminalReply) :
    TerminalEntry → Prop
  | .poll sessionId owner => ∃ polled, r = polled.map .snapshot ∧ Polled sessionId owner h polled
  | .pollOnce sessionId owner => ∀ snapshot, r = .ok (.snapshot snapshot) →
      Polled sessionId owner h (.ok snapshot)
  | _ => True

namespace TerminalSessionManager

/-- Nothing is assumed of the replies. -/
abbrev Guaranteed {α : Type} (entry : TerminalEntry) (p : SessionM α)
    (h : History TerminalSessions)
    (Q : History TerminalSessions → Except TerminalError α → Prop) : Prop :=
  Safe (fun _ _ => True) entry.Guarantees Q p.run h

variable {entry : TerminalEntry} {sessionId : String} {owner : TerminalSessionOwner}
  {h : History TerminalSessions}

/-- A session that is given to a caller is its own. -/
theorem guaranteed_session : Guaranteed entry (session sessionId owner) h fun h r =>
    (∀ managed, r = .ok managed → Found h sessionId managed ∧ managed.owner = owner) ∧
      ∀ e, r = .error e → Refused sessionId owner h e := by
  simp only [Guaranteed, session, safe_exceptT_bind, safe_lookup]
  refine ⟨trivial, fun found _ => ?_⟩
  cases found with
  | error e =>
      refine ⟨by simp, ?_⟩
      rintro _ ⟨⟩
      exact .inl (.inl ⟨sessionId, List.mem_cons_self⟩)
  | ok found =>
      simp only [then_ok, safe_exceptT_bind, safe_check, then_orFail, then_failIf,
        safe_exceptT_pure]
      refine ⟨?_, ?_⟩
      · rintro rfl
        exact ⟨by simp, fun _ _ => .inr (.inl List.mem_cons_self)⟩
      · rintro managed rfl
        refine ⟨fun hother => ⟨by simp, fun _ _ => ?_⟩, fun hown => ⟨?_, by simp⟩⟩
        · exact .inr (.inr ⟨managed, List.mem_cons_self, hother⟩)
        · rintro _ ⟨⟩
          exact ⟨List.mem_cons_self, not_not.mp hown⟩

theorem guaranteed_poll (howner : entry.owner = some owner) :
    Guaranteed entry (poll sessionId owner) h (Polled sessionId owner) := by
  simp only [Guaranteed, poll, safe_exceptT_bind]
  refine guaranteed_session.mono fun h r hr => ?_
  cases r with
  | error e => exact hr.2 e rfl
  | ok managed =>
      obtain ⟨hfound, rfl⟩ := hr.1 managed rfl
      simp only [then_ok, safe_exceptT_bind, safe_readCell]
      refine ⟨⟨sessionId, managed, hfound, rfl, howner⟩, fun state _ => ?_⟩
      cases state with
      | error e => exact .inl (.inr ⟨managed.cell, List.mem_cons_self⟩)
      | ok state =>
          exact (safe_exceptT_pure _).mpr
            ⟨managed, state, List.mem_cons_of_mem _ hfound, rfl, List.mem_cons_self, rfl⟩

theorem guaranteed_cancel (howner : entry.owner = some owner) :
    Guaranteed entry (cancel sessionId owner) h fun _ _ => True := by
  simp only [Guaranteed, cancel, safe_exceptT_bind]
  refine guaranteed_session.mono fun h r hr => ?_
  cases r with
  | error e => trivial
  | ok managed =>
      obtain ⟨hfound, rfl⟩ := hr.1 managed rfl
      simp only [then_ok, safe_exceptT_bind, safe_readCell]
      refine ⟨⟨sessionId, managed, hfound, rfl, howner⟩, fun state _ => ?_⟩
      cases state with
      | error e => trivial
      | ok state =>
          rw [then_ok]
          split
          · simp only [safe_exceptT_bind, safe_setCancelled, then_ok, safe_exceptT_pure]
            exact ⟨⟨sessionId, managed, List.mem_cons_of_mem _ hfound, rfl, howner⟩,
              fun _ _ => trivial⟩
          · exact (safe_exceptT_pure _).mpr trivial

theorem guaranteed_remove (howner : entry.owner = some owner) :
    Guaranteed entry (remove sessionId owner) h fun _ _ => True := by
  simp only [Guaranteed, remove, safe_exceptT_bind]
  refine guaranteed_session.mono fun h r hr => ?_
  cases r with
  | error e => trivial
  | ok managed =>
      obtain ⟨hfound, rfl⟩ := hr.1 managed rfl
      simp only [then_ok, safe_exceptT_bind, safe_readCell]
      refine ⟨⟨sessionId, managed, hfound, rfl, howner⟩, fun state _ => ?_⟩
      cases state with
      | error e => trivial
      | ok state =>
          simp only [then_ok, safe_exceptT_bind, safe_check, then_failIf, safe_removeSession]
          refine ⟨fun _ => trivial, fun _ => ⟨⟨managed, howner, .inl ?_⟩, fun removed _ => ?_⟩⟩
          · exact List.mem_cons_of_mem _ hfound
          · cases removed <;> simp

theorem polled_append {polled : TerminalSessionSnapshot} {added : History TerminalSessions}
    (hpolled : Polled sessionId owner h (.ok polled)) :
    Polled sessionId owner (added ++ h) (.ok polled) := by
  obtain ⟨managed, state, hfound, howner, hread, rfl⟩ := hpolled
  exact ⟨managed, state, List.mem_append_right _ hfound, howner, List.mem_append_right _ hread, rfl⟩

theorem guaranteed_pollOnce (howner : entry.owner = some owner) :
    Guaranteed entry (pollOnce sessionId owner) h fun h r =>
      ∀ snapshot, r = .ok snapshot → Polled sessionId owner h (.ok snapshot) := by
  simp only [Guaranteed, pollOnce, safe_exceptT_bind]
  refine (guaranteed_poll howner).mono fun h r hpolled => ?_
  cases r with
  | error e => simp
  | ok snapshot =>
      rw [then_ok]
      split
      · simp only [safe_exceptT_bind]
        refine (guaranteed_remove howner).grows.mono ?_
        rintro h' r ⟨-, added, rfl⟩
        cases r with
        | error e => simp
        | ok removed =>
            refine (safe_exceptT_pure _).mpr fun found hfound => ?_
            obtain rfl := Except.ok.inj hfound
            exact polled_append hpolled
      · refine (safe_exceptT_pure _).mpr fun found hfound => ?_
        obtain rfl := Except.ok.inj hfound
        exact hpolled

theorem guaranteed_start {spec : TerminalSpec} :
    Guaranteed (.start owner spec) (start owner spec) [] fun _ _ => True := by
  simp only [Guaranteed, start, safe_exceptT_bind, safe_check, then_iff]
  refine ⟨fun _ _ => trivial, fun checked hchecked => ?_⟩
  obtain rfl : checked = owner := by
    simp only [Worker.withWorkspace, bind_eq_ok, pure_eq_ok] at hchecked
    exact hchecked.choose_spec.2.symm
  simp only [safe_prepare]
  refine ⟨trivial, fun prepared _ => ?_⟩
  cases prepared with
  | error e => trivial
  | ok _ =>
      simp only [then_ok, safe_exceptT_bind, safe_drawIds, safe_register]
      refine ⟨trivial, fun draws _ => ⟨⟨rfl, ⟨draws, List.mem_cons_self, rfl⟩, ?_⟩, ?_⟩⟩
      · simp
      · intro registered _
        cases registered with
        | error e => trivial
        | ok registered =>
            obtain ⟨sessionId, cell⟩ := registered
            simp only [then_ok, safe_exceptT_bind, safe_spawn]
            refine ⟨trivial, fun spawned _ => ?_⟩
            cases spawned with
            | ok _ => exact (safe_exceptT_pure _).mpr trivial
            | error e =>
                -- without a thread the caller takes its session back
                simp only [safe_exceptT_bind, safe_removeSession, then_ok]
                refine ⟨⟨⟨checked, cell⟩, rfl, .inr ⟨draws.candidates, ?_⟩⟩, ?_⟩
                · exact List.mem_cons_of_mem _ List.mem_cons_self
                · exact fun _ _ => (safe_exceptT_throw _).mpr trivial

theorem guaranteed_worker {cell : ℕ} {spec : TerminalSpec} :
    Guaranteed (.worker cell spec) (worker cell spec) [] fun _ _ => True := by
  simp only [Guaranteed, worker, safe_exceptT_bind, safe_exceptT_lift, then_ok]
  refine (safe_call _ _).mpr ⟨trivial, fun result _ => ?_⟩
  refine (safe_call _ _).mpr ⟨⟨⟨spec, rfl⟩, by simp⟩, fun _ _ => ?_⟩
  exact (safe_exceptT_pure _).mpr trivial

end TerminalSessionManager

/-- What every call guarantees. -/
theorem TerminalEntry.safe_body (entry : TerminalEntry) :
    Safe (fun _ _ => True) entry.Guarantees (fun h r => entry.Outcome h r) entry.body [] := by
  cases entry with
  | start owner spec =>
      exact (safe_map _ _).mpr (TerminalSessionManager.guaranteed_start.mono fun _ _ _ => trivial)
  | poll sessionId owner =>
      refine (safe_map _ _).mpr ((TerminalSessionManager.guaranteed_poll rfl).mono ?_)
      exact fun h polled hpolled => ⟨polled, rfl, hpolled⟩
  | cancel sessionId owner =>
      exact (safe_map _ _).mpr
        ((TerminalSessionManager.guaranteed_cancel rfl).mono fun _ _ _ => trivial)
  | remove sessionId owner =>
      exact (safe_map _ _).mpr
        ((TerminalSessionManager.guaranteed_remove rfl).mono fun _ _ _ => trivial)
  | pollOnce sessionId owner =>
      refine (safe_map _ _).mpr ((TerminalSessionManager.guaranteed_pollOnce rfl).mono ?_)
      intro h polled hpolled snapshot heq
      cases polled with
      | error e => cases heq
      | ok _ =>
          cases heq
          exact hpolled snapshot rfl
  | sessionCount => exact (safe_map _ _).mpr (safe_sessionCount.mpr ⟨trivial, fun _ _ => trivial⟩)
  | worker cell spec =>
      exact (safe_map _ _).mpr (TerminalSessionManager.guaranteed_worker.mono fun _ _ _ => trivial)

end VorCommander
