import VorCommander.Steps.Schedule
import VorCommander.Terminal.Guarantee

/-!
What a manager keeps for its callers.

Whatever the interleaving of callers and threads, a session belongs to the one who
started it: nobody else sees its state, cancels it or takes it out of the registry. Its
thread finishes it once, and from then on it is what every poll of its owner reports.
The identifiers that are drawn for two sessions differ; a caller that is about to remove
a session would otherwise remove a later one of the same name.
-/

namespace VorCommander

open Steps Steps.Program Steps.World Text

variable {maxSessions : ℕ} {w w' : World (terminalSystem maxSessions)}

/-- A session has been entered into the registry, at some time. -/
def Registered (log : Log TerminalSessions) (sessionId : String)
    (managed : ManagedTerminalSession) : Prop :=
  ∃ i candidates, (i, ⟨.register managed.owner candidates, .ok (sessionId, managed.cell)⟩) ∈ log

/-- What two calls draw differs. -/
def SessionDrawsDiffer (log : Log TerminalSessions) : Prop :=
  ∀ i j, i ≠ j → ∀ drawn drawn', (i, ⟨.draw, drawn⟩) ∈ log → (j, ⟨.draw, drawn'⟩) ∈ log →
    ∀ bytes ∈ SessionDraws.candidates drawn, bytes ∉ SessionDraws.candidates drawn'

theorem Registered.cons {log : Log TerminalSessions} {sessionId : String}
    {managed : ManagedTerminalSession} (h : Registered log sessionId managed)
    (entry : ℕ × Event TerminalSessions) : Registered (entry :: log) sessionId managed := by
  obtain ⟨i, candidates, hmem⟩ := h
  exact ⟨i, candidates, List.mem_cons_of_mem _ hmem⟩

/-! ### The registry -/

/-- What the registry holds, and what callers have found there, has been entered; each
session has a cell of its own. -/
structure Tracked (maxSessions : ℕ) (s : TerminalRegistry) (log : Log TerminalSessions) : Prop where
  size : s.sessions.size ≤ maxSessions
  held : ∀ (sessionId : String) (managed : ManagedTerminalSession),
    s.sessions[sessionId]? = some managed → Registered log sessionId managed
  found : ∀ i sessionId managed, (i, ⟨.lookup sessionId, .ok (some managed)⟩) ∈ log →
    Registered log sessionId managed
  candidate : ∀ i owner candidates sessionId cell,
    (i, ⟨.register owner candidates, .ok (sessionId, cell)⟩) ∈ log →
      sessionId ∈ candidates ∧ cell < s.nextCell
  cell : ∀ sessionId sessionId' managed managed', Registered log sessionId managed →
    Registered log sessionId' managed' → managed.cell = managed'.cell →
      sessionId = sessionId' ∧ managed = managed'
  finished : ∀ cell outcome, (s.cells cell).state = .finished outcome →
    ∃ i, (i, ⟨.finish cell outcome, .ok ()⟩) ∈ log

namespace Tracked

variable {s s' : TerminalRegistry} {log : Log TerminalSessions} {i : ℕ}

/-- Nothing is entered by an event other than that of `register`. -/
theorem registered_cons {e : Event TerminalSessions}
    (hregister : ∀ owner candidates reply, e ≠ ⟨.register owner candidates, .ok reply⟩)
    {sessionId : String} {managed : ManagedTerminalSession}
    (h : Registered ((i, e) :: log) sessionId managed) : Registered log sessionId managed := by
  obtain ⟨j, candidates, hmem⟩ := h
  rcases List.mem_cons.mp hmem with heq | hmem
  · exact absurd (Prod.mk.inj heq).2.symm (hregister _ _ _)
  · exact ⟨j, candidates, hmem⟩

/-- An operation that enters nothing. -/
theorem quiet (h : Tracked maxSessions s log) {e : Event TerminalSessions}
    (hregister : ∀ owner candidates reply, e ≠ ⟨.register owner candidates, .ok reply⟩)
    (hsessions : ∀ (sessionId : String) (managed : ManagedTerminalSession),
      s'.sessions[sessionId]? = some managed → s.sessions[sessionId]? = some managed)
    (hsize : s'.sessions.size ≤ s.sessions.size) (hnext : s'.nextCell = s.nextCell)
    (hlookup : ∀ (sessionId : String) (managed : ManagedTerminalSession), e =
      ⟨.lookup sessionId, .ok (some managed)⟩ →
      s.sessions[sessionId]? = some managed)
    (hcells : ∀ cell outcome, (s'.cells cell).state = .finished outcome →
      (s.cells cell).state = .finished outcome ∨ e = ⟨.finish cell outcome, .ok ()⟩) :
    Tracked maxSessions s' ((i, e) :: log) where
  size := hsize.trans h.size
  held sessionId managed hheld := (h.held sessionId managed (hsessions _ _ hheld)).cons _
  found j sessionId managed hmem := by
    rcases List.mem_cons.mp hmem with heq | hmem
    · exact (h.held sessionId managed (hlookup _ _ (Prod.mk.inj heq).2.symm)).cons _
    · exact (h.found j sessionId managed hmem).cons _
  candidate j owner candidates sessionId cell hmem := by
    rw [hnext]
    rcases List.mem_cons.mp hmem with heq | hmem
    · exact absurd (Prod.mk.inj heq).2.symm (hregister _ _ _)
    · exact h.candidate j owner candidates sessionId cell hmem
  cell sessionId sessionId' managed managed' hfirst hsecond hcell :=
    h.cell _ _ _ _ (registered_cons hregister hfirst) (registered_cons hregister hsecond) hcell
  finished cell outcome hstate := by
    rcases hcells cell outcome hstate with hbefore | rfl
    · obtain ⟨j, hmem⟩ := h.finished cell outcome hbefore
      exact ⟨j, List.mem_cons_of_mem _ hmem⟩
    · exact ⟨i, List.mem_cons_self⟩

theorem registered_cases {owner : TerminalSessionOwner} {candidates : List String}
    {sessionId sessionId' : String} {cell : ℕ} {managed : ManagedTerminalSession}
    (h : Registered ((i, ⟨.register owner candidates, .ok (sessionId, cell)⟩) :: log) sessionId'
      managed) :
    (sessionId' = sessionId ∧ managed = ⟨owner, cell⟩) ∨ Registered log sessionId' managed := by
  obtain ⟨j, candidates', hmem⟩ := h
  rcases List.mem_cons.mp hmem with heq | hmem
  · obtain ⟨rfl, heq⟩ := Prod.mk.inj heq
    obtain ⟨owner', cell'⟩ := managed
    cases heq
    exact .inl ⟨rfl, rfl⟩
  · exact .inr ⟨j, candidates', hmem⟩

theorem cell_lt (h : Tracked maxSessions s log) {sessionId : String}
    {managed : ManagedTerminalSession} (hregistered : Registered log sessionId managed) :
    managed.cell < s.nextCell := by
  obtain ⟨j, candidates, hmem⟩ := hregistered
  exact (h.candidate j _ _ _ _ hmem).2

/-- A session is entered. -/
theorem entered (h : Tracked maxSessions s log) {owner : TerminalSessionOwner}
    {candidates : List String} {reply : String × ℕ}
    (hregister : s.register maxSessions owner candidates = .ok (reply, s')) :
    Tracked maxSessions s' ((i, ⟨.register owner candidates, .ok reply⟩) :: log) := by
  obtain ⟨hsize, hcandidate, hfree, hcell, rfl⟩ := TerminalRegistry.register_eq_ok hregister
  obtain ⟨sessionId, cell⟩ := reply
  obtain rfl : cell = s.nextCell := hcell
  refine ⟨?_, ?_, ?_, ?_, ?_, ?_⟩
  · show (s.sessions.insert sessionId _).size ≤ maxSessions
    have hgrows : (s.sessions.insert sessionId ⟨owner, s.nextCell⟩).size ≤ s.sessions.size + 1 := by
      rw [Std.ExtTreeMap.size_insert]
      split <;> omega
    omega
  · intro other managed hheld
    replace hheld : (s.sessions.insert sessionId ⟨owner, s.nextCell⟩)[other]? = some managed :=
      hheld
    rw [Std.ExtTreeMap.getElem?_insert] at hheld
    split at hheld
    case isTrue hkey =>
        obtain rfl : sessionId = other := Std.compare_eq_iff_eq.mp hkey
        obtain rfl := Option.some.inj hheld
        exact ⟨i, candidates, List.mem_cons_self⟩
    case isFalse => exact (h.held other managed hheld).cons _
  · intro j other managed hmem
    rcases List.mem_cons.mp hmem with heq | hmem
    · cases (Prod.mk.inj heq).2
    · exact (h.found j other managed hmem).cons _
  · intro j owner' candidates' other cell hmem
    rcases List.mem_cons.mp hmem with heq | hmem
    · cases heq
      exact ⟨hcandidate, Nat.lt_succ_self _⟩
    · obtain ⟨hmem, hlt⟩ := h.candidate j owner' candidates' other cell hmem
      exact ⟨hmem, Nat.lt_succ_of_lt hlt⟩
  · intro first second managed managed' hfirst hsecond hcell
    rcases registered_cases hfirst with ⟨hid, hnew⟩ | hold <;>
      rcases registered_cases hsecond with ⟨hid', hnew'⟩ | hold'
    · exact ⟨hid.trans hid'.symm, hnew.trans hnew'.symm⟩
    · rw [hnew] at hcell
      exact absurd hcell (h.cell_lt hold').ne'
    · rw [hnew'] at hcell
      exact absurd hcell (h.cell_lt hold).ne
    · exact h.cell _ _ _ _ hold hold' hcell
  · intro cell outcome hstate
    replace hstate : (Function.update s.cells s.nextCell {} cell).state = .finished outcome :=
      hstate
    by_cases hnew : cell = s.nextCell
    · rw [hnew, Function.update_self] at hstate
      cases hstate
    · rw [Function.update_of_ne hnew] at hstate
      obtain ⟨j, hmem⟩ := h.finished cell outcome hstate
      exact ⟨j, List.mem_cons_of_mem _ hmem⟩

/-- An operation keeps it. -/
theorem step (h : Tracked maxSessions s log) {e : Event TerminalSessions}
    (hcommit : s.Commit maxSessions e s') : Tracked maxSessions s' ((i, e) :: log) := by
  cases TerminalRegistry.action_of_commit hcommit with
  | asked hregister hlookup _ =>
      refine h.quiet hregister (fun _ _ => id) le_rfl rfl ?_ fun _ _ => .inl
      intro sessionId managed heq
      exact (hlookup sessionId _ heq).symm
  | entered hregister => exact h.entered hregister
  | cancelled cell =>
      refine h.quiet (by simp) (fun _ _ => id) le_rfl rfl (by simp) fun other outcome hstate => ?_
      rw [TerminalRegistry.setCell_cells] at hstate
      split at hstate
      case isTrue hsame => exact .inl (hsame ▸ hstate)
      case isFalse => exact .inl hstate
  | removed sessionId =>
      refine h.quiet (by simp) ?_ Std.ExtTreeMap.size_erase_le rfl (by simp) fun _ _ => .inl
      intro other managed hheld
      rw [Std.ExtTreeMap.getElem?_erase] at hheld
      split at hheld
      · cases hheld
      · exact hheld
  | finished cell outcome =>
      refine h.quiet (by simp) (fun _ _ => id) le_rfl rfl (by simp) fun other found hstate => ?_
      rw [TerminalRegistry.setCell_cells] at hstate
      split at hstate
      case isTrue hsame =>
          obtain rfl := ManagedTerminalState.finished.inj hstate
          exact .inr (by rw [hsame])
      case isFalse => exact .inl hstate

end Tracked

/-! ### Runs -/

theorem tracked_of_reachable (hw : Reachable (· = ({} : TerminalRegistry)) MayBegin w) :
    Tracked maxSessions w.shared w.log := by
  refine hw.invariant (J := Tracked maxSessions) ?_ fun s log i e s' h hcommit => h.step hcommit
  rintro s rfl
  refine ⟨by simp, ?_, ?_, ?_, ?_, ?_⟩ <;> simp [Registered]

/-- What a call has guaranteed of an operation. -/
theorem guarantee_of_log (hw : Reachable (· = ({} : TerminalRegistry)) MayBegin w) {i : ℕ}
    {e : Event TerminalSessions} (hmem : (i, e) ∈ w.log) :
    ∃ (c : Call (terminalSystem maxSessions)) (later earlier : Log TerminalSessions),
      w.calls i = some c ∧ w.log = later ++ (i, e) :: earlier ∧
        c.entry.Guarantees (earlier.of i) e.op := by
  obtain ⟨later, earlier, hlog⟩ := List.append_of_mem hmem
  obtain ⟨c, hc, hguarantee⟩ := hw.guarantee TerminalEntry.safe_body (allowed_true w.log) hlog
  exact ⟨c, later, earlier, hc, hlog, hguarantee⟩

/-- A session that a caller has found has been entered. -/
theorem registered_of_found (hw : Reachable (· = ({} : TerminalRegistry)) MayBegin w) {i : ℕ}
    {sessionId : String} {managed : ManagedTerminalSession}
    (h : Found (w.log.of i) sessionId managed) : Registered w.log sessionId managed :=
  (tracked_of_reachable hw).found i sessionId managed (Log.mem_of.mp h)

theorem registered_of_entered {i : ℕ} {sessionId : String} {managed : ManagedTerminalSession}
    (h : Entered (w.log.of i) sessionId managed) : Registered w.log sessionId managed := by
  obtain ⟨candidates, hmem⟩ := h
  exact ⟨i, candidates, Log.mem_of.mp hmem⟩

/-- What is left of a history further back is left in the log. -/
theorem mem_of_earlier {later earlier : Log TerminalSessions} {i : ℕ} {e : Event TerminalSessions}
    (hlog : w.log = later ++ earlier) (h : e ∈ earlier.of i) : e ∈ w.log.of i := by
  rw [hlog, Log.of_append]
  exact List.mem_append_right _ h

/-- What a call does only if it has not done it before, it does once. -/
theorem performs_once (hw : Reachable (· = ({} : TerminalRegistry)) MayBegin w)
    {kind : TerminalOp → Prop}
    (honce : ∀ (entry : TerminalEntry) h op, kind op → entry.Guarantees h op →
      ∀ e ∈ h, ¬ kind e.op)
    {i : ℕ} {e e' : Event TerminalSessions} (he : kind e.op) (he' : kind e'.op)
    (hmem : (i, e) ∈ w.log) (hmem' : (i, e') ∈ w.log) : e = e' := by
  have hearlier : ∀ {e e' : Event TerminalSessions} {later earlier : Log TerminalSessions},
      kind e.op → kind e'.op → w.log = later ++ (i, e) :: earlier → (i, e') ∉ earlier := by
    intro e e' later earlier he he' hlog hin
    obtain ⟨c, _, hguarantee⟩ := hw.guarantee TerminalEntry.safe_body (allowed_true w.log) hlog
    exact honce c.entry _ e.op he hguarantee e' (Log.mem_of.mpr hin) he'
  obtain ⟨later, earlier, hlog⟩ := List.append_of_mem hmem
  rw [hlog] at hmem'
  rcases List.mem_append.mp hmem' with hlater | hmem'
  · obtain ⟨last, between, rfl⟩ := List.append_of_mem hlater
    rw [List.append_assoc, List.cons_append] at hlog
    exact absurd (List.mem_append_right _ List.mem_cons_self) (hearlier he' he hlog)
  · rcases List.mem_cons.mp hmem' with heq | hin
    · exact (Prod.mk.inj heq).2.symm
    · exact absurd hin (hearlier he he' hlog)

/-- A call enters one session. -/
theorem register_once (hw : Reachable (· = ({} : TerminalRegistry)) MayBegin w) {i : ℕ}
    {e e' : Event TerminalSessions} (he : ∃ owner candidates, e.op = .register owner candidates)
    (he' : ∃ owner candidates, e'.op = .register owner candidates) (hmem : (i, e) ∈ w.log)
    (hmem' : (i, e') ∈ w.log) : e = e' := by
  have honce : ∀ (entry : TerminalEntry) h op,
      (∃ owner candidates, op = .register owner candidates) → entry.Guarantees h op →
      ∀ e ∈ h, ¬ ∃ owner candidates, e.op = .register owner candidates := by
    rintro entry h _ ⟨owner, candidates, rfl⟩ ⟨_, _, honce⟩ e hin ⟨owner', candidates', heq⟩
    exact honce e hin owner' candidates' heq
  exact performs_once hw honce he he' hmem hmem'

/-- A session is known by its identifier, if what is drawn differs. -/
theorem registered_unique (hw : Reachable (· = ({} : TerminalRegistry)) MayBegin w)
    (hdraws : SessionDrawsDiffer w.log) {sessionId : String}
    {managed managed' : ManagedTerminalSession}
    (h : Registered w.log sessionId managed) (h' : Registered w.log sessionId managed') :
    managed = managed' := by
  obtain ⟨i, candidates, hmem⟩ := h
  obtain ⟨j, candidates', hmem'⟩ := h'
  have hdrawn : ∀ {k : ℕ} {owner : TerminalSessionOwner} {candidates : List String} {cell : ℕ},
      (k, ⟨.register owner candidates, .ok (sessionId, cell)⟩) ∈ w.log →
      ∃ draws, (k, ⟨.draw, draws⟩) ∈ w.log ∧ sessionId ∈ SessionDraws.candidates draws := by
    intro k owner candidates cell hmem
    obtain ⟨_, later, earlier, _, hlog, _, ⟨draws, hdraw, rfl⟩, _⟩ := guarantee_of_log hw hmem
    rw [List.append_cons] at hlog
    exact ⟨draws, Log.mem_of.mp (mem_of_earlier hlog hdraw),
      ((tracked_of_reachable hw).candidate _ _ _ _ _ hmem).1⟩
  obtain ⟨draws, hdraw, hin⟩ := hdrawn hmem
  obtain ⟨draws', hdraw', hin'⟩ := hdrawn hmem'
  by_cases hij : i = j
  · subst hij
    have hsame := register_once hw ⟨_, _, rfl⟩ ⟨_, _, rfl⟩ hmem hmem'
    obtain ⟨owner, cell⟩ := managed
    obtain ⟨owner', cell'⟩ := managed'
    cases hsame
    rfl
  · exact absurd hin' (hdraws i j hij draws draws' hdraw hdraw' _ hin)

/-! ### Threads -/

/-- A call was there before a step, or it has just been started. -/
theorem started_before (hstep : Step MayBegin w w') {i : ℕ} {c : Call (terminalSystem maxSessions)}
    (hc : w'.calls i = some c) :
    (∃ c', w.calls i = some c' ∧ c'.entry = c.entry) ∨
      w.calls i = none ∧ MayBegin w c.entry ∧ w' = w.start i c.entry := by
  cases hstep with
  | @start j entry hfresh hmay =>
      by_cases hij : i = j
      · subst hij
        rw [start_calls] at hc
        obtain rfl := Option.some.inj hc
        exact .inr ⟨hfresh, hmay, rfl⟩
      · rw [start_calls_of_ne _ _ hij] at hc
        exact .inl ⟨c, hc, rfl⟩
  | @commit j found op next reply s hfound _ _ =>
      by_cases hij : i = j
      · subst hij
        obtain rfl : _ = c := by simpa [World.commit] using hc
        exact .inl ⟨found, hfound, rfl⟩
      · exact .inl ⟨c, by simpa [World.commit, hij] using hc, rfl⟩
  | @crash j found hfound =>
      by_cases hij : i = j
      · subst hij
        obtain rfl : _ = c := by simpa [World.crash] using hc
        exact .inl ⟨found, hfound, rfl⟩
      · exact .inl ⟨c, by simpa [World.crash, hij] using hc, rfl⟩

/-- The thread of a session is one call. -/
theorem worker_unique (hw : Reachable (· = ({} : TerminalRegistry)) MayBegin w) {i j : ℕ}
    {c c' : Call (terminalSystem maxSessions)} {cell : ℕ} {spec spec' : TerminalSpec}
    (hc : w.calls i = some c) (hc' : w.calls j = some c') (hentry : c.entry = .worker cell spec)
    (hentry' : c'.entry = .worker cell spec') : i = j := by
  suffices h : ∀ i j c c' spec spec', w.calls i = some c → w.calls j = some c' →
      c.entry = TerminalEntry.worker cell spec → c'.entry = TerminalEntry.worker cell spec' → i = j
    from h i j c c' spec spec' hc hc' hentry hentry'
  apply hw.induction
  · intro s _ i j c c' spec spec' hc
    cases hc
  · intro w w' _ ih hstep i j c c' spec spec' hc hc' hentry hentry'
    -- a thread begins only if there is none of its cell yet
    rcases started_before hstep hc with ⟨b, hb, hsame⟩ | ⟨hfresh, hmay, rfl⟩ <;>
      rcases started_before hstep hc' with ⟨b', hb', hsame'⟩ | ⟨hfresh', hmay', hstart⟩
    · exact ih i j b b' spec spec' hb hb' (hsame.trans hentry) (hsame'.trans hentry')
    · exact absurd (hsame.trans hentry) ((hmay' cell spec' hentry').2 i b spec hb)
    · exact absurd (hsame'.trans hentry') ((hmay cell spec hentry).2 j b' spec' hb')
    · by_contra hij
      rw [start_calls_of_ne _ _ (Ne.symm hij), hfresh'] at hc'
      cases hc'

/-! ### Steps -/

/-- A call performs its next operation. -/
structure Performs (w w' : World (terminalSystem maxSessions)) (i : ℕ)
    (c : Call (terminalSystem maxSessions)) (e : Event TerminalSessions) : Prop where
  call : w.calls i = some c
  log : w'.log = (i, e) :: w.log
  guarantee : c.entry.Guarantees (w.log.of i) e.op
  action : w.shared.Action maxSessions e w'.shared

theorem performs_cases (hw : Reachable (· = ({} : TerminalRegistry)) MayBegin w)
    (hstep : Step MayBegin w w') :
    (w'.log = w.log ∧ w'.shared = w.shared) ∨ ∃ i c e, Performs w w' i c e := by
  cases hstep with
  | start _ _ => exact .inl ⟨rfl, rfl⟩
  | crash _ => exact .inl ⟨rfl, rfl⟩
  | @commit i c op next reply s hc hrest hcommit =>
      refine .inr ⟨i, c, ⟨op, reply⟩, hc, rfl, ?_, TerminalRegistry.action_of_commit hcommit⟩
      exact hw.guarantee_next TerminalEntry.safe_body (allowed_true w.log) hc hrest

variable {i : ℕ} {c : Call (terminalSystem maxSessions)} {e : Event TerminalSessions}
  {sessionId : String} {managed : ManagedTerminalSession}

/-- Only its owner takes a session out of the registry. -/
theorem Performs.held (h : Performs w w' i c e)
    (hw : Reachable (· = ({} : TerminalRegistry)) MayBegin w) (hdraws : SessionDrawsDiffer w.log)
    (hheld : w.shared.sessions[sessionId]? = some managed) :
    w'.shared.sessions[sessionId]? = some managed ∨ c.entry.owner = some managed.owner := by
  rcases h.action.held hheld with hkept | hremoved
  · exact .inl hkept
  · have hguarantee := h.guarantee
    rw [hremoved] at hguarantee
    obtain ⟨managed', howner, hfound⟩ := hguarantee
    have hregistered' : Registered w.log sessionId managed' := by
      rcases hfound with hfound | hentered
      · exact registered_of_found hw hfound
      · exact registered_of_entered hentered
    have hregistered := (tracked_of_reachable hw).held sessionId managed hheld
    rw [registered_unique hw hdraws hregistered hregistered']
    exact .inr howner

/-- Only its owner sets the flag of a session, and only its thread finishes it. -/
theorem Performs.cell (h : Performs w w' i c e)
    (hw : Reachable (· = ({} : TerminalRegistry)) MayBegin w)
    (hregistered : Registered w.log sessionId managed) :
    w'.shared.cells managed.cell = w.shared.cells managed.cell ∨
      c.entry.owner = some managed.owner ∨ ∃ spec, c.entry = .worker managed.cell spec := by
  have hguarantee := h.guarantee
  rcases h.action.cell ((tracked_of_reachable hw).cell_lt hregistered) with
    hsame | ⟨hcancelled, _⟩ | ⟨outcome, hfinished⟩
  · exact .inl hsame
  · rw [hcancelled] at hguarantee
    obtain ⟨other, managed', hfound, hcell, howner⟩ := hguarantee
    have hsame := ((tracked_of_reachable hw).cell _ _ _ _ hregistered
      (registered_of_found hw hfound) hcell.symm).2
    rw [hsame]
    exact .inr (.inl howner)
  · rw [hfinished] at hguarantee
    exact .inr (.inr hguarantee.1)

/-- A session that is finished stays as it is. -/
theorem Performs.finished (h : Performs w w' i c e)
    (hw : Reachable (· = ({} : TerminalRegistry)) MayBegin w)
    (hregistered : Registered w.log sessionId managed)
    {outcome : Except TerminalSessionFailure TerminalRunResult}
    (hstate : (w.shared.cells managed.cell).state = .finished outcome) :
    (w'.shared.cells managed.cell).state = .finished outcome := by
  rcases h.action.cell ((tracked_of_reachable hw).cell_lt hregistered) with
    hsame | ⟨_, hsame⟩ | ⟨outcome', hfinished⟩
  · rw [hsame]
    exact hstate
  · rw [hsame]
    exact hstate
  · -- it has been finished before, and its thread does so once
    obtain ⟨k, hbefore⟩ := (tracked_of_reachable hw).finished _ _ hstate
    obtain ⟨c', later, earlier, hc', hlog, hguarantee'⟩ := guarantee_of_log hw hbefore
    have hguarantee := h.guarantee
    rw [hfinished] at hguarantee
    obtain ⟨⟨spec, hentry⟩, honce⟩ := hguarantee
    obtain ⟨⟨spec', hentry'⟩, _⟩ := hguarantee'
    obtain rfl := worker_unique hw h.call hc' hentry hentry'
    exact absurd rfl (honce _ (Log.mem_of.mpr hbefore) managed.cell outcome)

/-! ### Runs of steps -/

/-- What the steps from one world to another keep. -/
theorem kept_of_steps (hw : Reachable (· = ({} : TerminalRegistry)) MayBegin w)
    (hsteps : Relation.ReflTransGen (Step MayBegin) w w') :
    w.shared.nextCell ≤ w'.shared.nextCell ∧
      ∀ sessionId managed outcome, Registered w.log sessionId managed →
        (w.shared.cells managed.cell).state = .finished outcome →
        Registered w'.log sessionId managed ∧
          (w'.shared.cells managed.cell).state = .finished outcome := by
  induction hsteps with
  | refl => exact ⟨le_rfl, fun _ _ _ hregistered hstate => ⟨hregistered, hstate⟩⟩
  | tail hsteps hstep ih =>
      obtain ⟨hnext, hkept⟩ := ih
      rcases performs_cases (hw.steps hsteps) hstep with ⟨hlog, hshared⟩ | ⟨i, c, e, hperforms⟩
      · rw [hlog, hshared]
        exact ⟨hnext, hkept⟩
      · refine ⟨hnext.trans hperforms.action.nextCell_le, ?_⟩
        intro sessionId managed outcome hregistered hstate
        obtain ⟨hregistered, hstate⟩ := hkept sessionId managed outcome hregistered hstate
        rw [hperforms.log]
        exact ⟨hregistered.cons _, hperforms.finished (hw.steps hsteps) hregistered hstate⟩

/-- A cell that has been looked at belongs to a session. -/
theorem registered_of_read (hw : Reachable (· = ({} : TerminalRegistry)) MayBegin w) {cell : ℕ}
    (hmem : (i, e) ∈ w.log) (hop : e.op = .readState cell ∨ e.op = .setCancelled cell) :
    ∃ c sessionId managed, w.calls i = some c ∧ Registered w.log sessionId managed ∧
      managed.cell = cell ∧ c.entry.owner = some managed.owner := by
  obtain ⟨c, later, earlier, hc, hlog, hguarantee⟩ := guarantee_of_log hw hmem
  have hfound : ∃ sessionId managed, Found (earlier.of i) sessionId managed ∧
      managed.cell = cell ∧ c.entry.owner = some managed.owner := by
    rcases hop with hop | hop <;>
    · rw [hop] at hguarantee
      exact hguarantee
  obtain ⟨sessionId, managed, hfound, hcell, howner⟩ := hfound
  rw [List.append_cons] at hlog
  exact ⟨c, sessionId, managed, hc,
    registered_of_found hw (mem_of_earlier hlog hfound), hcell, howner⟩

/-- What a caller has seen finished is finished so. -/
theorem state_of_read (hw : Reachable (· = ({} : TerminalRegistry)) MayBegin w) :
    ∀ i cell outcome, (i, ⟨.readState cell, .ok (.finished outcome)⟩) ∈ w.log →
      (w.shared.cells cell).state = .finished outcome := by
  apply hw.induction
  · intro s _ i cell outcome hmem
    cases hmem
  · intro w w' hw ih hstep
    rcases performs_cases hw hstep with ⟨hlog, hshared⟩ | ⟨j, c, e, hperforms⟩
    · rw [hlog, hshared]
      exact ih
    · intro i cell outcome hmem
      rw [hperforms.log] at hmem
      rcases List.mem_cons.mp hmem with heq | hmem
      · obtain ⟨_, rfl⟩ := Prod.mk.inj heq
        obtain ⟨hstate, hshared⟩ := hperforms.action.read
        rw [hshared, ← hstate]
      · obtain ⟨_, sessionId, managed, _, hregistered, rfl, _⟩ :=
          registered_of_read hw hmem (.inl rfl)
        exact hperforms.finished hw hregistered (ih i _ outcome hmem)

/-- While a session that is finished stays in the registry, it is found there, and it is
seen to be finished. -/
theorem seen_since (hw : Reachable (· = ({} : TerminalRegistry)) MayBegin w)
    (hsteps : Relation.ReflTransGen (Step MayBegin) w w')
    (hheld : w.shared.sessions[sessionId]? = some managed)
    {outcome : Except TerminalSessionFailure TerminalRunResult}
    (hstate : (w.shared.cells managed.cell).state = .finished outcome)
    (hheld' : w'.shared.sessions[sessionId]? = some managed) :
    (∀ i found, (i, ⟨.lookup sessionId, .ok found⟩) ∈ w'.log →
      (i, ⟨.lookup sessionId, .ok found⟩) ∈ w.log ∨ found = some managed) ∧
    ∀ i state, (i, ⟨.readState managed.cell, .ok state⟩) ∈ w'.log →
      (i, ⟨.readState managed.cell, .ok state⟩) ∈ w.log ∨ state = .finished outcome := by
  have hregistered := (tracked_of_reachable hw).held sessionId managed hheld
  have hlt := (tracked_of_reachable hw).cell_lt hregistered
  induction hsteps with
  | refl => exact ⟨fun _ _ => .inl, fun _ _ => .inl⟩
  | @tail x y hsteps hstep ih =>
      obtain ⟨hnext, hkept⟩ := kept_of_steps hw hsteps
      have hx := (hkept sessionId managed outcome hregistered hstate).2
      rcases performs_cases (hw.steps hsteps) hstep with ⟨hlog, hshared⟩ | ⟨j, c, e, hperforms⟩
      · rw [hshared] at hheld'
        rw [hlog]
        exact ih hheld'
      · -- the session was in the registry before the step: it would have another cell
        have hbefore : x.shared.sessions[sessionId]? = some managed := by
          rcases hperforms.action.held_before hheld' with hbefore | hnew
          · exact hbefore
          · exact absurd hnew (hlt.trans_le hnext).ne
        obtain ⟨hlookups, hreads⟩ := ih hbefore
        rw [hperforms.log]
        constructor
        · intro i found hmem
          rcases List.mem_cons.mp hmem with heq | hmem
          · obtain ⟨_, rfl⟩ := Prod.mk.inj heq
            rw [(hperforms.action.found).1, hbefore]
            exact .inr rfl
          · exact hlookups i found hmem
        · intro i state hmem
          rcases List.mem_cons.mp hmem with heq | hmem
          · obtain ⟨_, rfl⟩ := Prod.mk.inj heq
            rw [(hperforms.action.read).1, hx]
            exact .inr rfl
          · exact hreads i state hmem

/-! ### What a manager keeps -/

/-- What holds of the sessions in a world, and of every step and run from it. -/
structure KeepsSessions (maxSessions : ℕ) (w : World (terminalSystem maxSessions)) : Prop where
  bounded : w.shared.sessions.size ≤ maxSessions
  /-- Whoever has looked at a session, or has cancelled it, is its owner. -/
  observed : ∀ sessionId managed, Registered w.log sessionId managed →
    ∀ i e, (i, e) ∈ w.log → e.op = .readState managed.cell ∨ e.op = .setCancelled managed.cell →
      ∃ c, w.calls i = some c ∧ c.entry.owner = some managed.owner
  removed : ∀ w' i e c, Step MayBegin w w' → w'.log = (i, e) :: w.log → w.calls i = some c →
    ∀ (sessionId : String) managed, w.shared.sessions[sessionId]? = some managed →
      w'.shared.sessions[sessionId]? ≠ some managed → c.entry.owner = some managed.owner
  others : ∀ w' i e c owner, Step MayBegin w w' → w'.log = (i, e) :: w.log →
    w.calls i = some c → c.entry.owner = some owner →
      ∀ (sessionId : String) managed, w.shared.sessions[sessionId]? = some managed →
        managed.owner ≠ owner → w'.shared.sessions[sessionId]? = some managed ∧
          w'.shared.cells managed.cell = w.shared.cells managed.cell
  once : ∀ w', Relation.ReflTransGen (Step MayBegin) w w' → ∀ sessionId managed outcome,
    Registered w.log sessionId managed →
      (w.shared.cells managed.cell).state = .finished outcome →
        (w'.shared.cells managed.cell).state = .finished outcome
  /-- A poll reports its own session, which still runs or is finished as it says. -/
  reported : ∀ i c sessionId owner snapshot, w.calls i = some c →
    c.entry = .poll sessionId owner ∨ c.entry = .pollOnce sessionId owner →
      c.rest = some (.done (.ok (.snapshot snapshot))) →
        ∃ managed state, Registered w.log sessionId managed ∧ managed.owner = owner ∧
          snapshot = sessionSnapshot sessionId state ∧
            (state = .running ∨ (w.shared.cells managed.cell).state = state)
  /-- A poll of the owner reports how a session is finished until it is removed, unless a
  lock is poisoned. -/
  polled : ∀ w', Relation.ReflTransGen (Step MayBegin) w w' →
    ∀ (sessionId : String) managed outcome, w.shared.sessions[sessionId]? = some managed →
      (w.shared.cells managed.cell).state = .finished outcome →
      w'.shared.sessions[sessionId]? = some managed → ∀ i c r, w.calls i = none →
        w'.calls i = some c → c.entry = .poll sessionId managed.owner →
        c.rest = some (.done r) →
          r = .ok (.snapshot (sessionSnapshot sessionId (.finished outcome))) ∨
            ∃ e, r = .error e ∧ Poisoned (w'.log.of i) e

/-- A call of the log performs its next operation. -/
theorem performs_of_step (hw : Reachable (· = ({} : TerminalRegistry)) MayBegin w)
    (hstep : Step MayBegin w w') (hlog : w'.log = (i, e) :: w.log) (hc : w.calls i = some c) :
    Performs w w' i c e := by
  rcases performs_cases hw hstep with ⟨hsame, _⟩ | ⟨j, c', e', hperforms⟩
  · rw [hsame] at hlog
    exact absurd hlog.symm (List.cons_ne_self _ _)
  · obtain ⟨rfl, rfl⟩ := Prod.mk.inj (List.cons.inj (hperforms.log.symm.trans hlog)).1
    obtain rfl := Option.some.inj (hperforms.call.symm.trans hc)
    exact hperforms

/-- What a poll has reported is what it has seen. -/
theorem reported_of_polled (hw : Reachable (· = ({} : TerminalRegistry)) MayBegin w)
    {owner : TerminalSessionOwner} {snapshot : TerminalSessionSnapshot}
    (hpolled : Polled sessionId owner (w.log.of i) (.ok snapshot)) :
    ∃ managed state, Registered w.log sessionId managed ∧ managed.owner = owner ∧
      snapshot = sessionSnapshot sessionId state ∧
        (state = .running ∨ (w.shared.cells managed.cell).state = state) := by
  obtain ⟨managed, state, hfound, howner, hread, rfl⟩ := hpolled
  refine ⟨managed, state, registered_of_found hw hfound, howner, rfl, ?_⟩
  cases state with
  | running => exact .inl rfl
  | finished outcome => exact .inr (state_of_read hw i managed.cell outcome (Log.mem_of.mp hread))

/-- In every run each session is its owner's, and is finished once. -/
theorem keepsSessions_of_reachable (maxSessions : ℕ) (w : World (terminalSystem maxSessions))
    (hw : Reachable (· = ({} : TerminalRegistry)) MayBegin w)
    (hdraws : SessionDrawsDiffer w.log) : KeepsSessions maxSessions w where
  bounded := (tracked_of_reachable hw).size
  observed sessionId managed hregistered i e hmem hop := by
    obtain ⟨c, other, managed', hc, hregistered', hcell, howner⟩ := registered_of_read hw hmem hop
    have hsame := ((tracked_of_reachable hw).cell _ _ _ _ hregistered hregistered' hcell.symm).2
    rw [hsame]
    exact ⟨c, hc, howner⟩
  removed w' i e c hstep hlog hc sessionId managed hheld hgone := by
    rcases (performs_of_step hw hstep hlog hc).held hw hdraws hheld with hkept | howner
    · exact absurd hkept hgone
    · exact howner
  others w' i e c owner hstep hlog hc howner sessionId managed hheld hother := by
    have hperforms := performs_of_step hw hstep hlog hc
    have hne : c.entry.owner ≠ some managed.owner := by
      rw [howner]
      intro hsame
      exact hother (Option.some.inj hsame).symm
    constructor
    · exact (hperforms.held hw hdraws hheld).resolve_right hne
    · rcases hperforms.cell hw ((tracked_of_reachable hw).held _ _ hheld) with
        hsame | hsame | ⟨spec, hworker⟩
      · exact hsame
      · exact absurd hsame hne
      · rw [hworker] at howner
        cases howner
  once w' hsteps sessionId managed outcome hregistered hstate :=
    ((kept_of_steps hw hsteps).2 sessionId managed outcome hregistered hstate).2
  reported i c sessionId owner snapshot hc hentry hreturned := by
    have houtcome := hw.result TerminalEntry.safe_body (allowed_true w.log) hc hreturned
    rcases hentry with hentry | hentry
    · rw [hentry] at houtcome
      obtain ⟨polled, hreply, hpolled⟩ := houtcome
      cases polled with
      | error e => cases hreply
      | ok found =>
          cases hreply
          exact reported_of_polled hw hpolled
    · rw [hentry] at houtcome
      exact reported_of_polled hw (houtcome snapshot rfl)
  polled w' hsteps sessionId managed outcome hheld hstate hheld' i c r hfresh hc
    hentry hreturned := by
    have hw' := hw.steps hsteps
    obtain ⟨hlookups, hreads⟩ := seen_since hw hsteps hheld hstate hheld'
    -- the call has been started since, so what it has seen was there since
    have hnew : ∀ e, (i, e) ∉ w.log := by
      intro e hmem
      obtain ⟨c', hc'⟩ := hw.consistent.started i e hmem
      rw [hfresh] at hc'
      cases hc'
    have hfound : ∀ found, ⟨.lookup sessionId, .ok found⟩ ∈ w'.log.of i → found = some managed :=
      fun found hmem => (hlookups i found (Log.mem_of.mp hmem)).resolve_left (hnew _)
    have houtcome := hw'.result TerminalEntry.safe_body (allowed_true w'.log) hc hreturned
    rw [hentry] at houtcome
    obtain ⟨polled, rfl, hpolled⟩ := houtcome
    cases polled with
    | ok snapshot =>
        obtain ⟨managed', state, hmem, _, hread, rfl⟩ := hpolled
        obtain rfl := Option.some.inj (hfound _ hmem)
        obtain rfl := (hreads i state (Log.mem_of.mp hread)).resolve_left (hnew _)
        exact .inl rfl
    | error e =>
        rcases hpolled with hpoisoned | hnone | ⟨managed', hmem, hother⟩
        · exact .inr ⟨e, rfl, hpoisoned⟩
        · cases hfound _ hnone
        · obtain rfl := Option.some.inj (hfound _ hmem)
          exact absurd rfl hother

/-! ### A session from its start to its end -/

namespace SessionSample

def owner : TerminalSessionOwner where
  organizationId := "local"
  actorId := "agent"
  deviceId := "device"
  workspaceId := none

def spec : TerminalSpec where
  argv := ["echo"]
  environment := ∅
  cwd := "C:\\"
  timeoutMs := 1000
  maxOutputBytes := 1024
  columns := 80
  rows := 25

def draws : SessionDraws := Vector.replicate 16 (Vector.replicate 16 7)

/-- A registry in which no lock is poisoned, and whose threads write one byte. -/
def answer (s : TerminalRegistry) : (op : TerminalOp) → op.Reply × TerminalRegistry
  | .prepare _ => (.ok (), s)
  | .draw => (draws, s)
  | .register owner candidates =>
      match s.register 1 owner candidates with
      | .ok (reply, s') => (.ok reply, s')
      | .error e => (.error e, s)
  | .spawn _ _ => (.ok (), s)
  | .lookup sessionId => (.ok s.sessions[sessionId]?, s)
  | .readState cell => (.ok (s.cells cell).state, s)
  | .setCancelled cell => ((), s.setCell cell { s.cells cell with cancelled := true })
  | .removeSession sessionId => (.ok (), { s with sessions := s.sessions.erase sessionId })
  | .sessionCount => (.ok s.sessions.size, s)
  | .run _ _ => (some (.ok { exitCode := 0, output := [7] }), s)
  | .finish cell outcome =>
    (.ok (), s.setCell cell { s.cells cell with state := .finished outcome })

def registry : Handler TerminalSessions TerminalRegistry where
  answer s op := answer s op

theorem registry_sound : registry.Sound (terminalSystem 1) := by
  intro (s : TerminalRegistry) (op : TerminalOp)
  change s.Commit 1 ⟨op, (answer s op).1⟩ (answer s op).2
  cases op with
  | register owner candidates =>
      cases hregister : s.register 1 owner candidates with
      | ok registered =>
          simp only [answer, hregister]
          exact hregister
      | error e => simp only [answer, hregister, TerminalRegistry.Commit, true_and, true_or]
  | prepare _ | draw | spawn _ _ | setCancelled _ | removeSession _ | run _ _ | finish _ _ => rfl
  | lookup _ | readState _ | sessionCount => exact ⟨rfl, rfl⟩

/-- The session is started, and its thread has been spawned. -/
def started : World (terminalSystem 1) :=
  ((initial (S := terminalSystem 1) ({} : TerminalRegistry)).start 0
    (TerminalEntry.start owner spec)).ticks registry [0, 0, 0, 0]

/-- The thread has finished, and the owner polls. -/
def polled : World (terminalSystem 1) :=
  ((started.start 1 (TerminalEntry.worker 0 spec)).start 2 (TerminalEntry.poll
    (hexEncode (List.replicate 16 7)) owner)).ticks registry [1, 1, 2, 2]

theorem polled_reachable : Reachable (· = ({} : TerminalRegistry)) MayBegin polled := by
  have hstarted : Reachable (· = ({} : TerminalRegistry)) MayBegin started := by
    have hempty : Reachable (· = ({} : TerminalRegistry)) MayBegin
        (initial (S := terminalSystem 1) ({} : TerminalRegistry)) := reachable_initial rfl
    exact (hempty.start rfl (by simp [MayBegin])).ticks registry_sound _
  have hspawned : MayBegin started (TerminalEntry.worker 0 spec) := by
    intro cell spec' hentry
    obtain ⟨rfl, rfl⟩ := TerminalEntry.worker.inj hentry
    refine ⟨⟨0, List.mem_of_mem_head? rfl⟩, fun i c _ hc => ?_⟩
    by_cases hi : i = 0
    · subst hi
      obtain rfl := Option.some.inj hc
      exact TerminalEntry.noConfusion
    · have hnone : started.calls i = none :=
        (ticks_calls_of_notMem _ (by simp [hi])).trans (start_calls_of_ne _ _ hi)
      rw [hnone] at hc
      cases hc
  exact ((hstarted.start rfl hspawned).start rfl (by simp [MayBegin])).ticks registry_sound _

theorem draws_differ : SessionDrawsDiffer polled.log := by
  have hdrawn : ∀ i drawn, (i, ⟨.draw, drawn⟩) ∈ polled.log → i = 0 := by
    intro i drawn hmem
    have hlog : polled.log.map (fun entry => (entry.1, entry.2.op)) =
        [(2, .readState 0), (2, .lookup (hexEncode (List.replicate 16 7))),
          (1, .finish 0 (.ok ⟨0, [7]⟩)), (1, .run 0 spec), (0, .spawn 0 spec),
          (0, .register owner draws.candidates), (0, .draw), (0, .prepare spec)] := rfl
    have hop : (i, TerminalOp.draw) ∈ polled.log.map fun entry => (entry.1, entry.2.op) :=
      List.mem_map_of_mem hmem
    rw [hlog] at hop
    simpa using hop
  intro i j hij drawn drawn' hmem hmem'
  exact absurd ((hdrawn i drawn hmem).trans (hdrawn j drawn' hmem').symm) hij

end SessionSample

open SessionSample in
theorem keepsSessions_polled :
    ∃ managed state, Registered polled.log (hexEncode (List.replicate 16 7)) managed ∧
      managed.owner = owner ∧
        (state = .running ∨ (polled.shared.cells managed.cell).state = state) := by
  obtain ⟨managed, state, hregistered, howner, _, hstate⟩ :=
    (keepsSessions_of_reachable 1 polled polled_reachable draws_differ).reported 2 _
      (hexEncode (List.replicate 16 7)) owner
      (sessionSnapshot (hexEncode (List.replicate 16 7)) (.finished (.ok ⟨0, [7]⟩))) rfl
        (.inl rfl) rfl
  exact ⟨managed, state, hregistered, howner, hstate⟩

end VorCommander
