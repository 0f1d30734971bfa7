import VorCommander.Maintainer.Approved

/-!
What an update leaves behind.

Once the old agent has been terminated, an update should end with a result that says
what has happened and, unless a binary cannot be launched at all, with an agent. It
does exactly if none of the steps after that point stops it, and one of the binaries
survives its health window. An account of what has happened is kept along each run.
-/

namespace VorCommander

open Crypto Steps Steps.Program

namespace Maintainer

/-! ### The device -/

/-- The binaries an agent can run from. -/
inductive Binary
  | previous
  | staged
  deriving DecidableEq

/-- The binary at the path of the agent, and the binary the agent runs from. -/
structure AgentHost where
  target : Option Binary
  agent : Option Binary

/-- What the operations do to the device. A swap or a rollback that fails leaves any
binary or none at the path of the agent. -/
def Commits (s : AgentHost) (e : Event Maintenance) (s' : AgentHost) : Prop :=
  match e with
  | ⟨.terminate _ _, .ok _⟩ => s' = { s with agent := none }
  | ⟨.terminate _ _, .error _⟩ => s'.target = s.target ∧ (s'.agent = s.agent ∨ s'.agent = none)
  | ⟨.swap _, .ok _⟩ => s' = { s with target := some .staged }
  | ⟨.swap _, .error _⟩ => s'.agent = s.agent
  | ⟨.rollback _, .ok _⟩ => s' = { s with target := some .previous }
  | ⟨.rollback _, .error _⟩ => s'.agent = s.agent
  | ⟨.recoverPrevious _, .ok _⟩ => s' = { s with target := some .previous }
  | ⟨.recoverPrevious _, .error _⟩ => s'.agent = s.agent
  | ⟨.spawn _, .ok _⟩ => ∃ binary, s.target = some binary ∧ s' = { s with agent := some binary }
  | ⟨.remainsAlive _ _, .ok false⟩ => s' = { s with agent := none }
  | ⟨.remainsAlive _ _, .error _⟩ =>
      s'.target = s.target ∧ (s'.agent = s.agent ∨ s'.agent = none)
  | ⟨.kill _, _⟩ | ⟨.wait _, _⟩ => s'.target = s.target ∧ (s'.agent = s.agent ∨ s'.agent = none)
  | _ => s' = s

/-- What has happened in a run, as far as it matters for its end: a step has failed
after which nothing more is done, the update has been committed, the hash of a file
was not to be had after that, a binary could not be launched, one has survived its
health window, and a result has been written. -/
structure Account where
  stopped : Bool := false
  committed : Bool := false
  unhashed : Bool := false
  launchFailed : Bool := false
  survived : Bool := false
  reported : Bool := false

/-- The account after one more event. -/
def Account.after (a : Account) : Event Maintenance → Account
  | ⟨.begin _, .error _⟩ | ⟨.swap _, .error _⟩ | ⟨.commit _, .error _⟩ | ⟨.rollback _, .error _⟩
  | ⟨.remainsAlive _ _, .error _⟩ | ⟨.writeResult _ _, .error _⟩ => { a with stopped := true }
  | ⟨.commit _, .ok _⟩ => { a with committed := true }
  | ⟨.read _, .error _⟩ => { a with unhashed := a.unhashed || a.committed }
  | ⟨.spawn _, .error _⟩ => { a with launchFailed := true }
  | ⟨.remainsAlive _ _, .ok true⟩ => { a with survived := true }
  | ⟨.writeResult _ _, .ok _⟩ => { a with reported := true }
  | _ => a

def account : History Maintenance → Account
  | [] => {}
  | e :: h => (account h).after e

/-- A result has been written and, unless a binary could not be launched, an agent
runs. -/
def LeavesAgent (s : AgentHost) (h : History Maintenance) : Prop :=
  (account h).reported = true ∧ ((account h).launchFailed = true ∨ s.agent.isSome = true)

/-- No step has stopped the update, the hash of the committed binary was to be had, and
one of the binaries has survived unless one could not be launched. -/
def CarriedThrough (h : History Maintenance) : Prop :=
  (account h).stopped = false ∧ (account h).unhashed = false ∧
    ((account h).launchFailed = true ∨ (account h).survived = true)

/-! ### Operations -/

variable {L : Libraries} {C : MaintenanceCodec} {args : AuthorizedPlanArgs} {s : AgentHost}
  {h : History Maintenance}

/-- Wherever a program ends, `Q` holds of what it returns and leaves. -/
abbrev Ends {α : Type} (Q : α → AgentHost → History Maintenance → Prop) (p : Program Maintenance α)
    (s : AgentHost) (h : History Maintenance) : Prop :=
  During Commits (fun _ _ => True) Q p s h

theorem ends_perform (op : MaintainerOp) {Q : op.Reply → AgentHost → History Maintenance → Prop} :
    Ends Q (perform (I := Maintenance) op) s h ↔
      ∀ (reply : op.Reply) s', Commits s ⟨op, reply⟩ s' → Q reply s' (⟨op, reply⟩ :: h) := by
  refine (during_call (I := Maintenance) op id).trans ?_
  exact forall₃_congr fun _ _ _ => ⟨And.right, fun hQ => ⟨trivial, hQ⟩⟩

section Rules

variable {α ε : Type} {Q : Except MaintainerError α → AgentHost → History Maintenance → Prop}

theorem ends_onHost (p : Program Maintenance (Except HostError α)) :
    Ends Q (onHost p).run s h ↔ Ends (fun r s h => Q (r.mapError .host) s h) p s h := by
  rw [onHost, Ends, during_exceptT_adapt, during_attempt]

theorem ends_maintaining (p : MaintenanceM α) :
    Ends Q (maintaining p).run s h ↔
      Ends (fun r s h => Q (r.mapError .maintenance) s h) p.run s h :=
  during_exceptT_adapt _ _

end Rules

/-! ### Starting an agent -/

/-- What an attempt to start an agent leaves. -/
inductive Launched (s : AgentHost) (h : History Maintenance) :
    Except HostError ℕ → AgentHost → History Maintenance → Prop
  | running {pid : ℕ} {s' : AgentHost} {h' : History Maintenance} :
      s'.agent.isSome = true → account h' = account h → Launched s h (.ok pid) s' h'
  | refused {e : HostError} {h' : History Maintenance} :
      account h' = account h ∨ account h' = { account h with launchFailed := true } →
      Launched s h (.error e) s h'

theorem ends_createLogParent (path : String) :
    Ends (fun _ s' h' => s' = s ∧ account h' = account h) (createLogParent path).run s h := by
  rw [createLogParent, Ends, during_exceptT_bind, during_check, duringThen_iff]
  refine ⟨fun e _ => ⟨rfl, rfl⟩, fun directory _ => ?_⟩
  rw [call, during_attempt]
  refine (ends_perform (.createDirAll directory)).mpr fun reply s' hcommit => ?_
  exact ⟨hcommit, rfl⟩

theorem ends_openLog (path : String) :
    Ends (fun _ s' h' => s' = s ∧ account h' = account h)
      (call (perform (I := Maintenance) (.openLog path))).run s h := by
  rw [call, Ends, during_attempt]
  refine (ends_perform (.openLog path)).mpr fun reply s' hcommit => ?_
  exact ⟨hcommit, rfl⟩

/-- An agent is started, or the files of its logs are not to be had, or its binary
cannot be launched. -/
theorem ends_spawnTarget (update : ValidatedUpdate) :
    Ends (Launched s h) (spawnTarget update).run s h := by
  -- a part that only prepares the launch
  have hpart : ∀ {h'} (e : HostError), account h' = account h → Launched s h (.error e) s h' :=
    fun e haccount => .refused (.inl haccount)
  rw [spawnTarget, Ends, during_exceptT_bind]
  refine (ends_createLogParent update.stdoutLog).mono ?_
  rintro r s₁ h₁ ⟨rfl, h₁⟩
  rw [duringThen_iff]
  refine ⟨fun e _ => hpart e h₁, fun _ _ => ?_⟩
  rw [during_exceptT_bind]
  refine (ends_createLogParent update.stderrLog).mono ?_
  rintro r s₂ h₂ ⟨rfl, h₂⟩
  rw [duringThen_iff]
  refine ⟨fun e _ => hpart e (h₂.trans h₁), fun _ _ => ?_⟩
  rw [during_exceptT_bind]
  refine (ends_openLog update.stdoutLog).mono ?_
  rintro r s₃ h₃ ⟨rfl, h₃⟩
  rw [duringThen_iff]
  refine ⟨fun e _ => hpart e (h₃.trans (h₂.trans h₁)), fun _ _ => ?_⟩
  rw [during_exceptT_bind]
  refine (ends_openLog update.stderrLog).mono ?_
  rintro r s₄ h₄ ⟨rfl, h₄⟩
  rw [duringThen_iff]
  have haccount := h₄.trans (h₃.trans (h₂.trans h₁))
  refine ⟨fun e _ => hpart e haccount, fun _ _ => ?_⟩
  rw [call, during_attempt]
  refine (ends_perform (.spawn update)).mpr fun reply s₅ hcommit => ?_
  cases reply with
  | error e =>
      obtain rfl : s₅ = s₄ := hcommit
      exact .refused (.inr (congrArg (fun a : Account => { a with launchFailed := true }) haccount))
  | ok pid =>
      obtain ⟨binary, -, rfl⟩ := hcommit
      exact .running rfl haccount

/-! ### Results -/

/-- Before a commit it does not matter whether a file can be hashed. -/
theorem account_read {path : String} (reply : Except String (List UInt8))
    (hcommitted : (account h).committed = false) :
    account (⟨.read path, reply⟩ :: h) = account h := by
  cases reply with
  | ok _ => rfl
  | error e =>
      show { account h with unhashed := (account h).unhashed || (account h).committed } = account h
      rw [hcommitted, Bool.or_false]

theorem ends_sha256File (path : String)
    {Q : Except MaintenanceError String → AgentHost → History Maintenance → Prop} :
    Ends Q (sha256File L path).run s h ↔ ∀ reply : Except String (List UInt8),
      Q ((reply.map (sha256Hex L.toPrimitives)).mapError .io) s (⟨.read path, reply⟩ :: h) := by
  rw [sha256File, Ends, during_exceptT_bind, onFile, during_exceptT_adapt, during_attempt]
  refine (ends_perform (.read path)).trans ?_
  constructor
  · intro hall reply
    have hnow := hall reply s rfl
    cases reply with
    | ok content => exact (during_exceptT_pure _).mp hnow
    | error e => exact hnow
  · intro hall reply s' hcommit
    obtain rfl : s' = s := hcommit
    have hnow := hall reply
    cases reply with
    | ok content => exact (during_exceptT_pure _).mpr hnow
    | error e => exact hnow

/-- A result is written, or the update stops. -/
theorem ends_writeResult (path : String) (result : ApplyResult) :
    Ends (fun r s' h' => s' = s ∧
        ((r = .ok () ∧ account h' = { account h with reported := true }) ∨
          (∃ e, r = .error e) ∧ account h' = { account h with stopped := true }))
      (onHost (perform (I := Maintenance) (.writeResult path result))).run s h := by
  rw [ends_onHost]
  refine (ends_perform (.writeResult path result)).mpr fun reply s' hcommit => ⟨hcommit, ?_⟩
  cases reply with
  | ok _ => exact .inl ⟨rfl, rfl⟩
  | error e => exact .inr ⟨⟨_, rfl⟩, rfl⟩

theorem ends_report (update : ValidatedUpdate) (status : String) (newPid : Option ℕ) (text : String)
    (hcommitted : (account h).committed = false) :
    Ends (fun r s' h' => s' = s ∧
        ((r = .ok () ∧ account h' = { account h with reported := true }) ∨
          (∃ e, r = .error e) ∧ account h' = { account h with stopped := true }))
      (report L update status newPid text).run s h := by
  rw [report, Ends, during_exceptT_bind, during_exceptT_lift, observeSha256, during_map]
  refine ends_sha256File update.target |>.mpr fun reply => ?_
  rw [duringThen_ok, ← @account_read h update.target reply hcommitted]
  exact ends_writeResult _ _

/-! ### The end of an update -/

/-- What is to be shown wherever an update ends. -/
def Decides (s : AgentHost) (h : History Maintenance) : Prop :=
  LeavesAgent s h ↔ CarriedThrough h

/-- An update that has stopped has left no result. -/
theorem decides_of_stopped (hstopped : (account h).stopped = true)
    (hreported : (account h).reported = false) : Decides s h := by
  simp [Decides, LeavesAgent, CarriedThrough, hstopped, hreported]

/-- An update that has stopped without an agent, and has launched all it tried to launch. -/
theorem decides_of_agentless (hstopped : (account h).stopped = true)
    (hlaunched : (account h).launchFailed = false) (hagent : s.agent = none) : Decides s h := by
  simp [Decides, LeavesAgent, CarriedThrough, hstopped, hlaunched, hagent]

/-- An update that has left a result has left an agent exactly if one has survived. -/
theorem decides_of_reported (hreported : (account h).reported = true)
    (hstopped : (account h).stopped = false) (hunhashed : (account h).unhashed = false)
    (hagent : s.agent.isSome = (account h).survived) : Decides s h := by
  simp [Decides, LeavesAgent, CarriedThrough, hstopped, hreported, hunhashed, hagent]

/-- What holds until an agent has survived. -/
structure Open (h : History Maintenance) : Prop where
  stopped : (account h).stopped = false
  committed : (account h).committed = false
  unhashed : (account h).unhashed = false
  survived : (account h).survived = false
  reported : (account h).reported = false

theorem Open.of_account_eq {h' : History Maintenance} (hopen : Open h)
    (haccount : account h' = account h ∨ account h' = { account h with launchFailed := true }) :
    Open h' := by
  obtain ⟨hstopped, hcommitted, hunhashed, hsurvived, hreported⟩ := hopen
  rcases haccount with heq | heq <;> constructor <;> rw [heq] <;> assumption

/-- After a report the update is decided. -/
theorem decides_of_report {r : Except MaintainerError Unit} {h' : History Maintenance}
    (hstopped : (account h).stopped = false) (hunhashed : (account h).unhashed = false)
    (hreported : (account h).reported = false) (hagent : s.agent.isSome = (account h).survived)
    (hreport : (r = .ok () ∧ account h' = { account h with reported := true }) ∨
      (∃ e, r = .error e) ∧ account h' = { account h with stopped := true }) :
    Decides s h' := by
  rcases hreport with ⟨-, haccount⟩ | ⟨-, haccount⟩
  · refine decides_of_reported ?_ ?_ ?_ ?_ <;> rw [haccount] <;> assumption
  · refine decides_of_stopped ?_ ?_ <;> rw [haccount]
    exact hreported

/-- An update that is stopped by a step before any agent has survived. -/
theorem Open.decides_of_stop {h' : History Maintenance} (hopen : Open h)
    (haccount : account h' = { account h with stopped := true }) : Decides s h' := by
  refine decides_of_stopped ?_ ?_ <;> rw [haccount]
  exact hopen.reported

/-- The health window has passed, and the agent runs if it has survived. -/
structure Watched (alive : Bool) (s : AgentHost) (h : History Maintenance) : Prop where
  stopped : (account h).stopped = false
  committed : (account h).committed = false
  unhashed : (account h).unhashed = false
  reported : (account h).reported = false
  survived : (account h).survived = alive
  agent : s.agent.isSome = alive

/-- An agent is watched, or the update stops. -/
theorem ends_remainsAlive (pid millis : ℕ) (hopen : Open h) (hagent : s.agent.isSome = true) :
    Ends (fun r s' h' => (∃ e, r = .error e ∧ Decides s' h') ∨
        ∃ alive, r = .ok alive ∧ Watched alive s' h')
      (onHost (perform (I := Maintenance) (.remainsAlive pid millis))).run s h := by
  refine (ends_onHost _).mpr ((ends_perform (.remainsAlive pid millis)).mpr ?_)
  intro reply s' hcommit
  obtain ⟨hstopped, hcommitted, hunhashed, hsurvived, hreported⟩ := hopen
  cases reply with
  | error e => exact .inl ⟨_, rfl, decides_of_stopped rfl hreported⟩
  | ok alive =>
      refine .inr ⟨alive, rfl, ?_⟩
      cases alive with
      | true =>
          obtain rfl : s' = s := hcommit
          exact ⟨hstopped, hcommitted, hunhashed, hreported, rfl, hagent⟩
      | false =>
          obtain rfl : s' = { s with agent := none } := hcommit
          exact ⟨hstopped, hcommitted, hunhashed, hreported, hsurvived, rfl⟩

theorem ends_rollbackAndRestart (transaction : ValidatedUpdate) (failedPid : Option ℕ)
    (reason : String) (hopen : Open h) (hagent : s.agent = none) :
    Ends (fun _ => Decides) (rollbackAndRestart L transaction failedPid reason).run s h := by
  rw [rollbackAndRestart, Ends, during_exceptT_bind]
  refine (ends_maintaining _).mpr ((ends_perform (.rollback transaction)).mpr ?_)
  intro reply s₁ h₁
  cases reply with
  | error e => exact hopen.decides_of_stop rfl
  | ok _ =>
      obtain rfl : s₁ = { s with target := some .previous } := h₁
      show During _ _ _ _ _ _
      rw [during_exceptT_bind, during_exceptT_lift]
      refine (ends_spawnTarget transaction).mono fun r s₂ h₂ hlaunched => ?_
      have hopen₁ : Open (⟨.rollback transaction, .ok ()⟩ :: h) := hopen.of_account_eq (.inl rfl)
      rw [duringThen_ok]
      cases hlaunched with
      | @refused e h₂ haccount =>
          have hopen₂ := hopen₁.of_account_eq haccount
          show During _ _ _ _ _ _
          rw [during_exceptT_bind]
          refine (ends_report transaction _ _ _ hopen₂.committed).mono ?_
          rintro r s₃ h₃ ⟨rfl, hreport⟩
          have hdecides := decides_of_report hopen₂.stopped hopen₂.unhashed hopen₂.reported
            ((congrArg Option.isSome hagent).trans hopen₂.survived.symm) hreport
          cases r with
          | error e => exact hdecides
          | ok _ => exact (during_exceptT_throw _).mpr hdecides
      | @running pid s₂ h₂ hagent₂ haccount =>
          have hopen₂ := hopen₁.of_account_eq (.inl haccount)
          show During _ _ _ _ _ _
          rw [during_exceptT_bind]
          refine (ends_remainsAlive pid _ hopen₂ hagent₂).mono ?_
          rintro r s₃ h₃ (⟨e, rfl, hdecides⟩ | ⟨alive, rfl, hwatched⟩)
          · exact hdecides
          rw [duringThen_ok, during_exceptT_bind]
          refine (ends_report transaction _ _ _ hwatched.committed).mono ?_
          rintro r s₄ h₄ ⟨rfl, hreport⟩
          have hdecides := decides_of_report hwatched.stopped hwatched.unhashed hwatched.reported
            (hwatched.agent.trans hwatched.survived.symm) hreport
          cases r with
          | error e => exact hdecides
          | ok _ => exact (during_exceptT_throw _).mpr hdecides

theorem ends_commitUpdate (update transaction : ValidatedUpdate) (newPid : ℕ)
    (hwatched : Watched true s h) :
    Ends (fun _ => Decides) (commitUpdate L update transaction newPid).run s h := by
  rw [commitUpdate, Ends, during_exceptT_bind]
  refine (ends_maintaining _).mpr ((ends_perform (.commit transaction)).mpr ?_)
  intro reply s₁ h₁
  obtain rfl : s₁ = s := by
    cases reply <;> exact h₁
  cases reply with
  | error e => exact decides_of_stopped rfl hwatched.reported
  | ok _ =>
      show During _ _ _ _ _ _
      rw [during_exceptT_bind]
      refine (ends_maintaining _).mpr ((ends_sha256File update.target).mpr ?_)
      intro reply
      cases reply with
      | error e =>
          -- nothing is written, and the account says why
          have hunhashed : (account (⟨.read update.target, .error e⟩ ::
              ⟨.commit transaction, .ok ()⟩ :: h)).unhashed = true := Bool.or_true _
          have hreported : (account (⟨.read update.target, .error e⟩ ::
              ⟨.commit transaction, .ok ()⟩ :: h)).reported = false := hwatched.reported
          show Decides _ _
          simp [Decides, LeavesAgent, CarriedThrough, hunhashed, hreported]
      | ok content =>
          show During _ _ _ _ _ _
          refine (ends_writeResult _ _).mono ?_
          rintro r s₂ h₂ ⟨rfl, hreport⟩
          exact decides_of_report
            (h := ⟨.read update.target, .ok content⟩ :: ⟨.commit transaction, .ok ()⟩ :: h)
            hwatched.stopped hwatched.unhashed hwatched.reported
            (hwatched.agent.trans hwatched.survived.symm) hreport

/-- The agent that has not survived is not there any more. -/
theorem ends_dismissed (op : MaintainerOp) (hop : (∃ pid, op = .kill pid) ∨ ∃ pid, op = .wait pid)
    (hagent : s.agent = none) :
    Ends (fun _ s' h' => s'.agent = none ∧ account h' = account h) (perform (I := Maintenance) op)
      s h := by
  refine (ends_perform op).mpr ?_
  rcases hop with ⟨pid, rfl⟩ | ⟨pid, rfl⟩
  · rintro reply s' ⟨-, hsame | hnone⟩
    · exact ⟨hsame.trans hagent, rfl⟩
    · exact ⟨hnone, rfl⟩
  · rintro reply s' ⟨-, hsame | hnone⟩
    · exact ⟨hsame.trans hagent, rfl⟩
    · exact ⟨hnone, rfl⟩

theorem Watched.isOpen (hwatched : Watched false s h) : Open h :=
  ⟨hwatched.stopped, hwatched.committed, hwatched.unhashed, hwatched.survived, hwatched.reported⟩

theorem ends_startUpdated (update transaction : ValidatedUpdate) (hopen : Open h)
    (hagent : s.agent = none) :
    Ends (fun _ => Decides) (startUpdated L update transaction).run s h := by
  rw [startUpdated, Ends, during_exceptT_bind, during_exceptT_lift]
  refine (ends_spawnTarget transaction).mono fun r s₁ h₁ hlaunched => ?_
  rw [duringThen_ok]
  cases hlaunched with
  | @refused e h₁ haccount =>
      exact ends_rollbackAndRestart transaction none _ (hopen.of_account_eq haccount) hagent
  | @running pid s₁ h₁ hagent₁ haccount =>
      show During _ _ _ _ _ _
      rw [during_exceptT_bind]
      refine (ends_remainsAlive pid _ (hopen.of_account_eq (.inl haccount)) hagent₁).mono ?_
      rintro r s₂ h₂ (⟨e, rfl, hdecides⟩ | ⟨alive, rfl, hwatched⟩)
      · exact hdecides
      rw [duringThen_ok]
      cases alive with
      | true => exact ends_commitUpdate update transaction pid hwatched
      | false =>
          have hgone : s₂.agent = none := by simpa using hwatched.agent
          have hopen₂ := hwatched.isOpen
          rw [if_neg Bool.false_ne_true, during_exceptT_bind, during_exceptT_lift]
          refine (ends_dismissed (.kill pid) (.inl ⟨pid, rfl⟩) hgone).mono ?_
          rintro _ s₃ h₃ ⟨hgone, h₃⟩
          rw [duringThen_ok, during_exceptT_bind, during_exceptT_lift]
          refine (ends_dismissed (.wait pid) (.inr ⟨pid, rfl⟩) hgone).mono ?_
          rintro _ s₄ h₄ ⟨hgone, h₄⟩
          rw [duringThen_ok]
          exact ends_rollbackAndRestart transaction (some pid) _
            (hopen₂.of_account_eq (.inl (h₄.trans h₃))) hgone

/-- The end of an update, from the moment its old agent is gone. -/
theorem ends_replaceAgent (update : ValidatedUpdate) (hopen : Open h) (hagent : s.agent = none)
    (hlaunched : (account h).launchFailed = false) :
    Ends (fun _ => Decides) (replaceAgent L update).run s h := by
  rw [replaceAgent, Ends, during_exceptT_bind]
  refine (ends_maintaining _).mpr ((ends_perform (.begin update.plan)).mpr ?_)
  intro reply s₁ h₁
  obtain rfl : s₁ = s := h₁
  cases reply with
  | error e => exact hopen.decides_of_stop rfl
  | ok paths =>
      have hopen₁ : Open (⟨.begin update.plan, .ok paths⟩ :: h) := hopen.of_account_eq (.inl rfl)
      show During _ _ _ _ _ _
      rw [during_exceptT_bind, during_exceptT_lift]
      refine (ends_perform (.swap { toResolvedPaths := paths, plan := update.plan })).mpr ?_
      intro reply s₂ h₂
      rw [duringThen_ok]
      cases reply with
      | ok _ =>
          obtain rfl : s₂ = { s₁ with target := some .staged } := h₂
          exact ends_startUpdated update _ (hopen₁.of_account_eq (.inl rfl)) hagent
      | error e =>
          -- the swap has stopped the update: there is no agent, whatever is written
          show During _ _ _ _ _ _
          rw [during_exceptT_bind]
          have hgone : s₂.agent = none := Eq.trans h₂ hagent
          refine (ends_report update _ _ _
            (h := ⟨.swap _, .error e⟩ :: ⟨.begin update.plan, .ok paths⟩ :: h)
            hopen₁.committed).mono ?_
          rintro r s₃ h₃ ⟨rfl, hreport⟩
          have hdecides : Decides s₃ h₃ := by
            rcases hreport with ⟨-, haccount⟩ | ⟨-, haccount⟩
            · refine decides_of_agentless ?_ ?_ hgone <;> rw [haccount]
              · rfl
              · exact hlaunched
            · refine decides_of_agentless ?_ ?_ hgone <;> rw [haccount]
              exact hlaunched
          cases r with
          | error e => exact hdecides
          | ok _ => exact (during_exceptT_throw _).mpr hdecides

/-! ### Until the old agent is gone -/

/-- Nothing has been done yet. -/
def Quiet (h : History Maintenance) : Prop := ∀ e ∈ h, e.op.prepares = true

/-- The old agent has been terminated. -/
def Terminated (h : History Maintenance) : Prop :=
  ∃ handle pid, ⟨.terminate handle pid, .ok ()⟩ ∈ h

theorem Quiet.not_terminated (hquiet : Quiet h) : ¬ Terminated h := by
  rintro ⟨handle, pid, hmem⟩
  cases hquiet _ hmem

theorem commits_of_prepares {e : Event Maintenance} {s' : AgentHost} (he : e.op.prepares = true)
    (hcommit : Commits s e s') : s' = s := by
  obtain ⟨op, reply⟩ := e
  cases op <;> first | exact hcommit | cases he

theorem account_of_prepares {e : Event Maintenance} (he : e.op.prepares = true)
    (hcommitted : (account h).committed = false) : account (e :: h) = account h := by
  obtain ⟨op, reply⟩ := e
  cases op <;> first | rfl | exact account_read reply hcommitted | cases he

/-- Until something is done there is nothing in the account. -/
theorem Quiet.account (hquiet : Quiet h) : account h = {} := by
  induction h with
  | nil => rfl
  | cons e h ih =>
      have hrest := ih fun e' he' => hquiet e' (.tail e he')
      rw [account_of_prepares (hquiet e (.head h)) (by rw [hrest]), hrest]

theorem ends_of_prepares {α : Type} {Q : History Maintenance → α → Prop}
    {p : Program Maintenance α} (hp : Safe AnyReply Prepares Q p h) (hquiet : Quiet h) :
    Ends (fun _ s' h' => s' = s ∧ Quiet h') p s h := by
  induction p generalizing h with
  | done a => exact (during_done a).mpr ⟨rfl, hquiet⟩
  | step op next ih =>
      obtain ⟨hop, hnext⟩ := (safe_step op next).mp hp
      refine (during_step op next).mpr fun reply s' hcommit => ⟨trivial, ?_⟩
      obtain rfl : s' = s := commits_of_prepares hop hcommit
      exact ih reply (hnext reply trivial) (List.forall_mem_cons.mpr ⟨hop, hquiet⟩)

/-- The rule of a sequence whose first part only prepares. -/
theorem ends_prepared {α β : Type}
    {Q : Except MaintainerError β → AgentHost → History Maintenance → Prop}
    {R : History Maintenance → Except MaintainerError α → Prop}
    {p : MaintainerM α} {f : α → MaintainerM β} (hp : Safe AnyReply Prepares R p.run h)
    (hquiet : Quiet h) (herror : ∀ e h', Quiet h' → Q (.error e) s h')
    (hf : ∀ a h', Quiet h' → Ends Q (f a).run s h') : Ends Q (p >>= f).run s h := by
  rw [Ends, during_exceptT_bind]
  refine (ends_of_prepares hp hquiet).mono ?_
  rintro r s' h' ⟨rfl, hquiet'⟩
  exact (duringThen_iff f r).mpr ⟨fun e _ => herror e h' hquiet', fun a _ => hf a h' hquiet'⟩

/-- What is known once an update has been prepared: it was refused with the old agent in
place, or the old agent is gone. -/
inductive Prepared :
    Except MaintainerError ValidatedUpdate → AgentHost → History Maintenance → Prop
  | refused {e : MaintainerError} {s : AgentHost} {h : History Maintenance} :
      ¬ Terminated h → Prepared (.error e) s h
  | ready {update : ValidatedUpdate} {s : AgentHost} {h : History Maintenance} :
      s.agent = none → account h = {} → Prepared (.ok update) s h

theorem prepared_of_quiet (e : MaintainerError) (h : History Maintenance) (hquiet : Quiet h) :
    Prepared (.error e) s h :=
  .refused hquiet.not_terminated

theorem ends_prepareUpdate : Ends Prepared (prepareUpdate L C args).run s [] := by
  rw [prepareUpdate, Ends, during_exceptT_bind, during_exceptT_lift]
  refine (ends_perform (.sleep applyGraceMs)).mpr fun slept s' hslept => ?_
  obtain rfl : s' = s := hslept
  rw [duringThen_ok]
  have hquiet : Quiet [⟨.sleep applyGraceMs, slept⟩] := by
    intro e he
    rw [List.mem_singleton.mp he]
    rfl
  refine ends_prepared (safe_loadVerified rfl) hquiet prepared_of_quiet fun update h₁ hquiet => ?_
  refine ends_prepared (@safe_verifyAuthorization L C h₁ args .apply update)
    hquiet prepared_of_quiet
    fun evidence h₂ hquiet => ?_
  refine ends_prepared (only_createResultParent (fun _ => rfl) _ h₂) hquiet prepared_of_quiet
    fun _ h₃ hquiet => ?_
  have hopened : Only (fun op : MaintainerOp => op.prepares = true)
    (onHost (perform (I := Maintenance)
      (.openProcess update.plan.currentPid update.target))).run :=
    only_call (.openProcess _ _) (by exact rfl) (Except.mapError _)
  refine ends_prepared (hopened h₃) hquiet prepared_of_quiet fun currentProcess h₄ hquiet => ?_
  refine ends_prepared
    (only_consumeAuthorization (fun _ => rfl) (fun _ _ => rfl) update evidence h₄)
    hquiet prepared_of_quiet fun _ h₅ hquiet => ?_
  rw [Ends, during_exceptT_bind]
  refine (ends_onHost _).mpr ((ends_perform (.terminate currentProcess _)).mpr ?_)
  intro reply s₁ hcommit
  cases reply with
  | error e =>
      refine .refused ?_
      rintro ⟨handle, pid, hmem⟩
      rcases List.mem_cons.mp hmem with heq | hmem
      · cases heq
      · exact hquiet.not_terminated ⟨handle, pid, hmem⟩
  | ok _ =>
      obtain rfl : s₁ = { s' with agent := none } := hcommit
      exact (during_exceptT_pure _).mpr (.ready rfl hquiet.account)

theorem ends_applyUpdate :
    Ends (fun _ s h => Terminated h → Decides s h) (applyUpdate L C args).run s [] := by
  rw [applyUpdate, Ends, during_exceptT_bind]
  refine ends_prepareUpdate.mono fun r s' h' hprepared => ?_
  cases hprepared with
  | refused hterminated => exact fun h => absurd h hterminated
  | ready hagent haccount =>
      have hopen : Open h' := by constructor <;> rw [haccount]
      exact (ends_replaceAgent _ hopen hagent (by rw [haccount])).mono fun _ _ _ hdecides _ =>
        hdecides

/-- However an update ends whose old agent has been terminated, it leaves a result and an
agent exactly if no step has stopped it and a binary has survived. -/
theorem apply_leavesAgent_iff (L : Libraries) (C : MaintenanceCodec) (args : AuthorizedPlanArgs)
    {r : Except MaintainerError Unit} {s s' : AgentHost} {h : History Maintenance}
    (hruns : Runs Commits (applyUpdate L C args).run s [] r s' h) (hterminated : Terminated h) :
    LeavesAgent s' h ↔ CarriedThrough h :=
  hruns.during ends_applyUpdate hterminated

/-! ### An update that cannot begin -/

theorem Quiet.committed (hquiet : Quiet h) (s : AgentHost) : Committed Commits s h s := by
  induction h with
  | nil => exact .nil
  | cons e h ih =>
      refine .cons (ih fun e' he' => hquiet e' (.tail e he')) ?_
      have he := hquiet e (.head h)
      obtain ⟨op, reply⟩ := e
      cases op <;> first | rfl | cases he

namespace Rewritten

/-- The device before the update. -/
def device : AgentHost := { target := some .previous, agent := some .previous }

/-- The approved update, until the old agent is gone. -/
theorem prepared : ∃ h, Quiet h ∧
    Path (prepareUpdate libraries codec approvedArgs).run
      (⟨.terminate 1 7, .ok ()⟩ :: h) (.done (.ok ⟨paths, planWith []⟩)) ∧
    Committed Commits device (⟨.terminate 1 7, .ok ()⟩ :: h) { device with agent := none } := by
  obtain ⟨h, path, hquiet⟩ := reaches [] plan_approved (by decide +kernel)
  exact ⟨h, hquiet, path, .cons (Quiet.committed hquiet device) rfl⟩

/-- The transaction cannot begin, since its journal is there already. -/
theorem unbegun : ∃ r h,
    Runs Commits (applyUpdate libraries codec approvedArgs).run device [] r
      { device with agent := none } h ∧ Terminated h ∧ (account h).launchFailed = false ∧
    (account h).reported = false := by
  obtain ⟨h, hquiet, path, hcommitted⟩ := prepared
  have hbegin : Path (replaceAgent libraries ⟨paths, planWith []⟩).run
      [⟨.begin (planWith []), .error .journalExists⟩]
      (.done (.error (.maintenance .journalExists))) :=
    path_op (.begin _) _ (.error .journalExists)
  have hfailed : Path (applyUpdate libraries codec approvedArgs).run
      (⟨.begin (planWith []), .error .journalExists⟩ :: ⟨.terminate 1 7, .ok ()⟩ :: h)
      (.done (.error (.maintenance .journalExists))) := path.exceptT_bind hbegin
  have haccount : account h = {} := hquiet.account
  refine ⟨_, _, (hfailed.leads (.cons hcommitted rfl)).runs (.done _ _ _), ⟨1, 7, by simp⟩, ?_, ?_⟩
  · simp [account, Account.after, haccount]
  · simp [account, Account.after, haccount]

end Rewritten

/-- If the transaction cannot begin, the old agent is gone and nothing says why. -/
theorem unbegun_leaves_nothing : ∃ r s h,
    Runs Commits (applyUpdate Rewritten.libraries Rewritten.codec Rewritten.approvedArgs).run
      Rewritten.device [] r s h ∧ Terminated h ∧ (account h).launchFailed = false ∧
    (account h).reported = false ∧ s.agent = none := by
  obtain ⟨r, h, hruns, hterminated, hlaunched, hreported⟩ := Rewritten.unbegun
  exact ⟨r, _, h, hruns, hterminated, hlaunched, hreported, rfl⟩

/-- That run, which was not carried through. -/
theorem apply_leavesAgent_iff_unbegun : ∃ r s h,
    Runs Commits (applyUpdate Rewritten.libraries Rewritten.codec Rewritten.approvedArgs).run
      Rewritten.device [] r s h ∧ (LeavesAgent s h ↔ CarriedThrough h) := by
  obtain ⟨r, h, hruns, hterminated, -⟩ := Rewritten.unbegun
  exact ⟨r, _, h, hruns, apply_leavesAgent_iff _ _ _ hruns hterminated⟩

end Maintainer

end VorCommander
