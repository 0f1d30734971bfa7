import VorCommander.Steps.Pool
import VorCommander.Worker.Terminal

/-!
The sessions of a terminal.

A manager keeps the sessions that have been started under identifiers drawn at
random. Each has an owner, and shares its state and the flag of its cancellation
with the thread that runs it; both are known here by the number of a cell. The
registry and each cell have a lock of their own, which is held for one operation at
a time: a caller looks its session up, lets go of the registry, and only then looks
at the cell, and the thread or another caller may be in between.
-/

namespace VorCommander

open Steps Steps.Program Text

/-! ### Sessions -/

inductive TerminalSessionState
  | running
  | completed
  | cancelled
  | timedOut
  | failed
  deriving DecidableEq

structure TerminalRunResult where
  exitCode : ℕ
  output : List UInt8
  deriving DecidableEq

structure TerminalSessionSnapshot where
  sessionId : String
  state : TerminalSessionState
  exitCode : Option ℕ
  output : List UInt8
  errorCode : Option String
  deriving DecidableEq

structure TerminalSessionFailure where
  state : TerminalSessionState
  errorCode : String
  deriving DecidableEq

/-- `TerminalSessionFailure::from_error`. -/
def TerminalSessionFailure.fromError : TerminalError → TerminalSessionFailure
  | .cancelled => { state := .cancelled, errorCode := "terminal_cancelled" }
  | .timeout _ => { state := .timedOut, errorCode := "terminal_timeout" }
  | .outputLimitExceeded _ => { state := .failed, errorCode := "terminal_output_limit_exceeded" }
  | .other _ => { state := .failed, errorCode := "terminal_error" }

inductive ManagedTerminalState
  | running
  | finished (outcome : Except TerminalSessionFailure TerminalRunResult)
  deriving DecidableEq

/-- A session in the registry, with the number of what it shares with its thread. -/
structure ManagedTerminalSession where
  owner : TerminalSessionOwner
  cell : ℕ
  deriving DecidableEq

/-- What a session shares with its thread. -/
structure TerminalCell where
  state : ManagedTerminalState := .running
  cancelled : Bool := false
  deriving DecidableEq

/-- `session_snapshot`. -/
def sessionSnapshot (sessionId : String) : ManagedTerminalState → TerminalSessionSnapshot
  | .running =>
      { sessionId, state := .running, exitCode := none, output := [], errorCode := none }
  | .finished (.ok result) =>
      { sessionId, state := .completed, exitCode := some result.exitCode, output := result.output
        errorCode := none }
  | .finished (.error failure) =>
      { sessionId, state := failure.state, exitCode := none, output := []
        errorCode := some failure.errorCode }

/-- What a thread makes of a run, which may have panicked. -/
def sessionOutcome :
    Option (Except TerminalError TerminalRunResult) →
      Except TerminalSessionFailure TerminalRunResult
  | some result => result.mapError TerminalSessionFailure.fromError
  | none => .error { state := .failed, errorCode := "terminal_worker_panicked" }

/-! ### Operations -/

/-- The identifiers that `start` draws until one of them is free. -/
abbrev SessionDraws := Vector (Vector UInt8 16) 16

def SessionDraws.candidates (draws : SessionDraws) : List String :=
  draws.toList.map fun bytes => hexEncode bytes.toList

inductive TerminalOp
  | prepare (spec : TerminalSpec)
  | draw
  | register (owner : TerminalSessionOwner) (candidates : List String)
  | spawn (cell : ℕ) (spec : TerminalSpec)
  | lookup (sessionId : String)
  | readState (cell : ℕ)
  | setCancelled (cell : ℕ)
  | removeSession (sessionId : String)
  | sessionCount
  | run (cell : ℕ) (spec : TerminalSpec)
  | finish (cell : ℕ) (outcome : Except TerminalSessionFailure TerminalRunResult)

/-- What each operation replies. -/
@[reducible] def TerminalOp.Reply : TerminalOp → Type
  | .prepare _ => Except TerminalError Unit
  | .draw => SessionDraws
  | .register _ _ => Except TerminalError (String × ℕ)
  | .spawn _ _ => Except TerminalError Unit
  | .lookup _ => Except TerminalError (Option ManagedTerminalSession)
  | .readState _ => Except TerminalError ManagedTerminalState
  | .setCancelled _ => Unit
  | .removeSession _ => Except TerminalError Unit
  | .sessionCount => Except TerminalError ℕ
  | .run _ _ => Option (Except TerminalError TerminalRunResult)
  | .finish _ _ => Except TerminalError Unit

/-- The interface of the sessions. -/
abbrev TerminalSessions : Interface := ⟨TerminalOp, TerminalOp.Reply⟩

abbrev SessionM (α : Type) := ExceptT TerminalError (Program TerminalSessions) α

namespace TerminalSessions

def prepare (spec : TerminalSpec) : SessionM Unit :=
  attempt (perform (I := TerminalSessions) (.prepare spec))

def draw : SessionM SessionDraws := ExceptT.lift (perform (I := TerminalSessions) .draw)

def register (owner : TerminalSessionOwner) (candidates : List String) : SessionM (String × ℕ) :=
  attempt (perform (I := TerminalSessions) (.register owner candidates))

/-- The reply is a value: `start` takes its session back if there is no thread. -/
def spawn (cell : ℕ) (spec : TerminalSpec) : SessionM (Except TerminalError Unit) :=
  ExceptT.lift (perform (I := TerminalSessions) (.spawn cell spec))

def lookup (sessionId : String) : SessionM (Option ManagedTerminalSession) :=
  attempt (perform (I := TerminalSessions) (.lookup sessionId))

def readState (cell : ℕ) : SessionM ManagedTerminalState :=
  attempt (perform (I := TerminalSessions) (.readState cell))

def setCancelled (cell : ℕ) : SessionM Unit :=
  ExceptT.lift (perform (I := TerminalSessions) (.setCancelled cell))

def removeSession (sessionId : String) : SessionM (Except TerminalError Unit) :=
  ExceptT.lift (perform (I := TerminalSessions) (.removeSession sessionId))

def sessionCount : SessionM ℕ := attempt (perform (I := TerminalSessions) .sessionCount)

end TerminalSessions

/-! ### The manager -/

namespace TerminalSessionManager

open TerminalSessions

/-- `TerminalSessionManager::start`. It asks the same of the owner as `with_workspace`. -/
def start (owner : TerminalSessionOwner) (spec : TerminalSpec) : SessionM String := do
  let owner ← check (Worker.withWorkspace owner)
  prepare spec
  let draws ← draw
  let (sessionId, cell) ← register owner draws.candidates
  match ← spawn cell spec with
  | .ok _ => return sessionId
  | .error e => do
      let _ ← removeSession sessionId
      throw e

/-- `TerminalSessionManager::session`. -/
def session (sessionId : String) (owner : TerminalSessionOwner) :
    SessionM ManagedTerminalSession := do
  let found ← lookup sessionId
  let managed ← check (orFail found (.other "terminal session was not found"))
  check (failIf (managed.owner ≠ owner) (.other "terminal session owner does not match"))
  return managed

def poll (sessionId : String) (owner : TerminalSessionOwner) :
    SessionM TerminalSessionSnapshot := do
  let managed ← session sessionId owner
  let state ← readState managed.cell
  return sessionSnapshot sessionId state

def cancel (sessionId : String) (owner : TerminalSessionOwner) : SessionM Bool := do
  let managed ← session sessionId owner
  let state ← readState managed.cell
  let running := decide (state = .running)
  if running then setCancelled managed.cell
  return running

def remove (sessionId : String) (owner : TerminalSessionOwner) :
    SessionM TerminalSessionSnapshot := do
  let managed ← session sessionId owner
  let state ← readState managed.cell
  check (failIf (state = .running) (.other "terminal session is still running"))
  let removed ← removeSession sessionId
  check removed
  return sessionSnapshot sessionId state

/-- `terminal.poll`: the dispatcher removes a session once it has answered with its
result. -/
def pollOnce (sessionId : String) (owner : TerminalSessionOwner) :
    SessionM TerminalSessionSnapshot := do
  let snapshot ← poll sessionId owner
  if snapshot.state ≠ .running then
    let _ ← remove sessionId owner
  return snapshot

/-- The thread of a session. -/
def worker (cell : ℕ) (spec : TerminalSpec) : SessionM Unit := do
  let result ← ExceptT.lift (perform (I := TerminalSessions) (.run cell spec))
  let _ ← ExceptT.lift (perform (I := TerminalSessions) (.finish cell (sessionOutcome result)))
  return ()

end TerminalSessionManager

/-! ### The system -/

/-- What callers ask for, and the threads of sessions. -/
inductive TerminalEntry
  | start (owner : TerminalSessionOwner) (spec : TerminalSpec)
  | poll (sessionId : String) (owner : TerminalSessionOwner)
  | cancel (sessionId : String) (owner : TerminalSessionOwner)
  | remove (sessionId : String) (owner : TerminalSessionOwner)
  | pollOnce (sessionId : String) (owner : TerminalSessionOwner)
  | sessionCount
  | worker (cell : ℕ) (spec : TerminalSpec)

/-- For whom a call is made. -/
def TerminalEntry.owner : TerminalEntry → Option TerminalSessionOwner
  | .start owner _ => some owner
  | .poll _ owner => some owner
  | .cancel _ owner => some owner
  | .remove _ owner => some owner
  | .pollOnce _ owner => some owner
  | .sessionCount => none
  | .worker _ _ => none

inductive TerminalReply
  | started (sessionId : String)
  | snapshot (snapshot : TerminalSessionSnapshot)
  | cancelRequested (running : Bool)
  | count (sessions : ℕ)
  | ended

/-- The program of an entry. -/
def TerminalEntry.body :
    TerminalEntry → Program TerminalSessions (Except TerminalError TerminalReply)
  | .start owner spec => Except.map .started <$> (TerminalSessionManager.start owner spec).run
  | .poll sessionId owner =>
      Except.map .snapshot <$> (TerminalSessionManager.poll sessionId owner).run
  | .cancel sessionId owner =>
      Except.map .cancelRequested <$> (TerminalSessionManager.cancel sessionId owner).run
  | .remove sessionId owner =>
      Except.map .snapshot <$> (TerminalSessionManager.remove sessionId owner).run
  | .pollOnce sessionId owner =>
      Except.map .snapshot <$> (TerminalSessionManager.pollOnce sessionId owner).run
  | .sessionCount => Except.map .count <$> TerminalSessions.sessionCount.run
  | .worker cell spec =>
      Except.map (fun _ => .ended) <$> (TerminalSessionManager.worker cell spec).run

/-- The registry, the cells, and the number of the next cell. -/
structure TerminalRegistry where
  sessions : Std.ExtTreeMap String ManagedTerminalSession := ∅
  cells : ℕ → TerminalCell := fun _ => {}
  nextCell : ℕ := 0

namespace TerminalRegistry

/-- The lock of the registry or of a cell is poisoned. -/
def unavailable : TerminalError := .other "terminal session registry is unavailable"

def setCell (s : TerminalRegistry) (cell : ℕ) (content : TerminalCell) : TerminalRegistry :=
  { s with cells := Function.update s.cells cell content }

theorem setCell_cells (s : TerminalRegistry) (cell other : ℕ) (content : TerminalCell) :
    (s.setCell cell content).cells other = if other = cell then content else s.cells other :=
  Function.update_apply s.cells cell content other

/-- What `start` does while it holds the lock of the registry. -/
def register (s : TerminalRegistry) (maxSessions : ℕ) (owner : TerminalSessionOwner)
    (candidates : List String) : Except TerminalError ((String × ℕ) × TerminalRegistry) := do
  failIf (maxSessions ≤ s.sessions.size) (.other s!"terminal session limit {maxSessions} reached")
  let sessionId ← orFail (candidates.find? fun candidate => !s.sessions.contains candidate)
    (.other "terminal session id generation exhausted")
  return ((sessionId, s.nextCell),
    { s.setCell s.nextCell {} with
      sessions := s.sessions.insert sessionId { owner, cell := s.nextCell }
      nextCell := s.nextCell + 1 })

/-- What an operation may be answered, and what it does. A lock that is poisoned lets
nobody in. -/
def Commit (maxSessions : ℕ) (s : TerminalRegistry) :
    Event TerminalSessions → TerminalRegistry → Prop
  | ⟨.prepare _, _⟩, s' => s' = s
  | ⟨.draw, _⟩, s' => s' = s
  | ⟨.register owner candidates, .ok reply⟩, s' =>
      s.register maxSessions owner candidates = .ok (reply, s')
  | ⟨.register owner candidates, .error e⟩, s' =>
      s' = s ∧ (s.register maxSessions owner candidates = .error e ∨ e = unavailable)
  | ⟨.spawn _ _, _⟩, s' => s' = s
  | ⟨.lookup sessionId, .ok found⟩, s' => s' = s ∧ found = s.sessions[sessionId]?
  | ⟨.lookup _, .error e⟩, s' => s' = s ∧ e = unavailable
  | ⟨.readState cell, .ok state⟩, s' => s' = s ∧ state = (s.cells cell).state
  | ⟨.readState _, .error e⟩, s' => s' = s ∧ e = unavailable
  | ⟨.setCancelled cell, _⟩, s' => s' = s.setCell cell { s.cells cell with cancelled := true }
  | ⟨.removeSession sessionId, .ok _⟩, s' => s' = { s with sessions := s.sessions.erase sessionId }
  | ⟨.removeSession _, .error e⟩, s' => s' = s ∧ e = unavailable
  | ⟨.sessionCount, .ok count⟩, s' => s' = s ∧ count = s.sessions.size
  | ⟨.sessionCount, .error e⟩, s' => s' = s ∧ e = unavailable
  | ⟨.run _ _, _⟩, s' => s' = s
  | ⟨.finish cell outcome, .ok _⟩, s' =>
      s' = s.setCell cell { s.cells cell with state := .finished outcome }
  | ⟨.finish _ _, .error e⟩, s' => s' = s ∧ e = unavailable

/-- What an operation can do: it asks, or it enters a session, sets a flag, takes a
session out, or finishes one. -/
inductive Action (maxSessions : ℕ) (s : TerminalRegistry) :
    Event TerminalSessions → TerminalRegistry → Prop
  | asked {e : Event TerminalSessions} :
      (∀ owner candidates reply, e ≠ ⟨.register owner candidates, .ok reply⟩) →
      (∀ sessionId found, e = ⟨.lookup sessionId, .ok found⟩ → found = s.sessions[sessionId]?) →
      (∀ cell state, e = ⟨.readState cell, .ok state⟩ → state = (s.cells cell).state) →
      Action maxSessions s e s
  | entered {owner : TerminalSessionOwner} {candidates : List String} {reply : String × ℕ}
      {s' : TerminalRegistry} : s.register maxSessions owner candidates = .ok (reply, s') →
      Action maxSessions s ⟨.register owner candidates, .ok reply⟩ s'
  | cancelled (cell : ℕ) : Action maxSessions s ⟨.setCancelled cell, ()⟩
      (s.setCell cell { s.cells cell with cancelled := true })
  | removed (sessionId : String) : Action maxSessions s ⟨.removeSession sessionId, .ok ()⟩
      { s with sessions := s.sessions.erase sessionId }
  | finished (cell : ℕ) (outcome : Except TerminalSessionFailure TerminalRunResult) :
      Action maxSessions s ⟨.finish cell outcome, .ok ()⟩
        (s.setCell cell { s.cells cell with state := .finished outcome })

theorem action_of_commit {maxSessions : ℕ} {s s' : TerminalRegistry} {e : Event TerminalSessions}
    (hcommit : s.Commit maxSessions e s') : s.Action maxSessions e s' := by
  obtain ⟨op, reply⟩ := e
  cases op with
  | prepare spec | draw | spawn cell spec | run cell spec =>
      obtain rfl := hcommit
      exact .asked (by simp) (by simp) (by simp)
  | register owner candidates =>
      cases reply with
      | ok reply => exact .entered hcommit
      | error e =>
          obtain ⟨rfl, _⟩ := hcommit
          exact .asked (by simp) (by simp) (by simp)
  | lookup sessionId =>
      cases reply with
      | ok found =>
          obtain ⟨rfl, hfound⟩ := hcommit
          refine .asked (by simp) ?_ (by simp)
          intro other _ heq
          simp only [Event.mk.injEq, TerminalOp.lookup.injEq] at heq
          obtain ⟨rfl, heq⟩ := heq
          rw [← Except.ok.inj (eq_of_heq heq), hfound]
      | error e =>
          obtain ⟨rfl, _⟩ := hcommit
          exact .asked (by simp) (by simp) (by simp)
  | readState cell =>
      cases reply with
      | ok state =>
          obtain ⟨rfl, hstate⟩ := hcommit
          refine .asked (by simp) (by simp) ?_
          intro other _ heq
          simp only [Event.mk.injEq, TerminalOp.readState.injEq] at heq
          obtain ⟨rfl, heq⟩ := heq
          rw [← Except.ok.inj (eq_of_heq heq), hstate]
      | error e =>
          obtain ⟨rfl, _⟩ := hcommit
          exact .asked (by simp) (by simp) (by simp)
  | sessionCount =>
      cases reply <;>
      · obtain ⟨rfl, _⟩ := hcommit
        exact .asked (by simp) (by simp) (by simp)
  | setCancelled cell =>
      obtain rfl := hcommit
      exact .cancelled cell
  | removeSession sessionId =>
      cases reply with
      | ok _ =>
          obtain rfl := hcommit
          exact .removed sessionId
      | error e =>
          obtain ⟨rfl, _⟩ := hcommit
          exact .asked (by simp) (by simp) (by simp)
  | finish cell outcome =>
      cases reply with
      | ok _ =>
          obtain rfl := hcommit
          exact .finished cell outcome
      | error e =>
          obtain ⟨rfl, _⟩ := hcommit
          exact .asked (by simp) (by simp) (by simp)

theorem register_eq_ok {maxSessions : ℕ} {s s' : TerminalRegistry} {owner : TerminalSessionOwner}
    {candidates : List String} {reply : String × ℕ}
    (h : s.register maxSessions owner candidates = .ok (reply, s')) :
    s.sessions.size < maxSessions ∧ reply.1 ∈ candidates ∧ s.sessions.contains reply.1 = false ∧
      reply.2 = s.nextCell ∧
      s' = { s.setCell s.nextCell {} with
        sessions := s.sessions.insert reply.1 { owner, cell := s.nextCell }
        nextCell := s.nextCell + 1 } := by
  simp only [TerminalRegistry.register, bind_eq_ok, exists_unit, failIf_eq_ok, orFail_eq_ok,
    pure_eq_ok, Prod.mk.injEq] at h
  obtain ⟨hsize, sessionId, hfind, rfl, rfl⟩ := h
  have hfree := List.find?_some hfind
  refine ⟨by omega, List.mem_of_find?_eq_some hfind, ?_, rfl, rfl⟩
  simpa using hfree

namespace Action

variable {maxSessions : ℕ} {s s' : TerminalRegistry} {e : Event TerminalSessions}

theorem nextCell_le (h : s.Action maxSessions e s') : s.nextCell ≤ s'.nextCell := by
  cases h with
  | asked _ _ _ | cancelled _ | removed _ | finished _ _ => exact le_rfl
  | entered hregister =>
      obtain ⟨_, _, _, _, rfl⟩ := register_eq_ok hregister
      exact Nat.le_succ _

theorem found {sessionId : String} {found : Option ManagedTerminalSession}
    (h : s.Action maxSessions ⟨.lookup sessionId, .ok found⟩ s') :
    found = s.sessions[sessionId]? ∧ s' = s := by
  cases h with
  | asked _ hlookup _ => exact ⟨hlookup sessionId found rfl, rfl⟩

theorem read {cell : ℕ} {state : ManagedTerminalState}
    (h : s.Action maxSessions ⟨.readState cell, .ok state⟩ s') :
    state = (s.cells cell).state ∧ s' = s := by
  cases h with
  | asked _ _ hread => exact ⟨hread cell state rfl, rfl⟩

/-- A session stays in the registry until it is taken out. -/
theorem held (h : s.Action maxSessions e s') {sessionId : String}
    {managed : ManagedTerminalSession} (hheld : s.sessions[sessionId]? = some managed) :
    s'.sessions[sessionId]? = some managed ∨ e.op = .removeSession sessionId := by
  cases h with
  | asked _ _ _ | cancelled _ | finished _ _ => exact .inl hheld
  | @entered owner candidates reply _ hregister =>
      obtain ⟨_, _, hfree, _, rfl⟩ := register_eq_ok hregister
      have hne : reply.1 ≠ sessionId := by
        rintro rfl
        rw [Std.ExtTreeMap.contains_eq_isSome_getElem?, hheld] at hfree
        cases hfree
      left
      show (s.sessions.insert reply.1 _)[sessionId]? = some managed
      rw [Std.ExtTreeMap.getElem?_insert, if_neg (by simpa using hne)]
      exact hheld
  | removed other =>
      by_cases hsame : other = sessionId
      · exact .inr (by rw [hsame])
      · left
        show (s.sessions.erase other)[sessionId]? = some managed
        rw [Std.ExtTreeMap.getElem?_erase, if_neg (by simpa using hsame)]
        exact hheld

/-- A session was in the registry before, or its cell is new. -/
theorem held_before (h : s.Action maxSessions e s') {sessionId : String}
    {managed : ManagedTerminalSession} (hheld : s'.sessions[sessionId]? = some managed) :
    s.sessions[sessionId]? = some managed ∨ managed.cell = s.nextCell := by
  cases h with
  | asked _ _ _ | cancelled _ | finished _ _ => exact .inl hheld
  | @entered owner candidates reply _ hregister =>
      obtain ⟨_, _, _, _, rfl⟩ := register_eq_ok hregister
      replace hheld : (s.sessions.insert reply.1 ⟨owner, s.nextCell⟩)[sessionId]? = some managed :=
        hheld
      rw [Std.ExtTreeMap.getElem?_insert] at hheld
      split at hheld
      · obtain rfl := Option.some.inj hheld
        exact .inr rfl
      · exact .inl hheld
  | removed other =>
      left
      rw [Std.ExtTreeMap.getElem?_erase] at hheld
      split at hheld
      · cases hheld
      · exact hheld

/-- A cell that is in use changes when its flag is set or when it is finished. -/
theorem cell (h : s.Action maxSessions e s') {cell : ℕ} (hcell : cell < s.nextCell) :
    s'.cells cell = s.cells cell ∨
      (e.op = .setCancelled cell ∧ (s'.cells cell).state = (s.cells cell).state) ∨
      ∃ outcome, e.op = .finish cell outcome := by
  cases h with
  | asked _ _ _ | removed _ => exact .inl rfl
  | entered hregister =>
      obtain ⟨_, _, _, _, rfl⟩ := register_eq_ok hregister
      left
      show (s.setCell s.nextCell {}).cells cell = _
      rw [setCell_cells, if_neg hcell.ne]
  | cancelled other =>
      by_cases hsame : cell = other
      · subst hsame
        refine .inr (.inl ⟨rfl, ?_⟩)
        rw [setCell_cells, if_pos rfl]
      · left
        rw [setCell_cells, if_neg hsame]
  | finished other outcome =>
      by_cases hsame : cell = other
      · subst hsame
        exact .inr (.inr ⟨outcome, rfl⟩)
      · left
        rw [setCell_cells, if_neg hsame]

end Action

end TerminalRegistry

/-- The callers of a manager, and the threads of its sessions. -/
def terminalSystem (maxSessions : ℕ) : System TerminalSessions where
  State := TerminalRegistry
  Entry := TerminalEntry
  Result := Except TerminalError TerminalReply
  body := TerminalEntry.body
  Commit := TerminalRegistry.Commit maxSessions

/-- Anybody may call; a thread begins once, after it has been spawned. -/
def MayBegin {maxSessions : ℕ} (w : World (terminalSystem maxSessions)) (entry : TerminalEntry) :
    Prop :=
  ∀ cell spec, entry = .worker cell spec →
    (∃ i, (i, ⟨.spawn cell spec, .ok ()⟩) ∈ w.log) ∧
      ∀ i c spec', w.calls i = some c → c.entry ≠ TerminalEntry.worker cell spec'

end VorCommander
