import VorCommander.Process.Worker

/-!
What is terminated.

Between any two calls of the system processes end and others are started, possibly with
the same number. All the same, what the worker terminates is the process that was
approved: it runs with the approved path since the approved moment, and it is neither the
agent, nor a part of the system, nor critical.
-/

namespace VorCommander

open Steps Steps.Program Text WindowsPath

/-! ### The system -/

namespace ProcessTable

variable {table table' table'' : ProcessTable}

theorem Evolves.refl (table : ProcessTable) : table.Evolves table :=
  fun _ object h => ⟨object, h, rfl, rfl, rfl, id⟩

theorem Evolves.trans (h : table.Evolves table') (h' : table'.Evolves table'') :
    table.Evolves table'' := by
  intro handle object hobject
  obtain ⟨object', hobject', hpid, hpath, hcreated, hrunning⟩ := h handle object hobject
  obtain ⟨object'', hobject'', hpid', hpath', hcreated', hrunning'⟩ := h' handle object' hobject'
  exact ⟨object'', hobject'', hpid'.trans hpid, hpath'.trans hpath, hcreated'.trans hcreated,
    hrunning ∘ hrunning'⟩

end ProcessTable

namespace ProcessOp

def terminates : ProcessOp → Bool
  | .terminateProcess _ _ => true
  | _ => false

end ProcessOp

namespace Processes

variable {s s' : ProcessTable} {e : Event Processes}

theorem Commit.evolves (h : Commit s e s') : s.Evolves s' := by
  obtain ⟨found, hevolves, -, heffect⟩ := h
  split at heffect
  · exact hevolves.trans heffect.1
  · exact heffect ▸ hevolves

/-- What was answered is so when the answer is there. -/
theorem Commit.answers (h : Commit s e s') (hop : e.op.terminates = false) :
    e.op.answers s' e.reply := by
  obtain ⟨found, -, hanswers, heffect⟩ := h
  split at heffect
  · rename_i heq
    rw [heq] at hop
    cases hop
  · exact heffect ▸ hanswers

end Processes

namespace ProcessWorker

open NativeProcessApi

variable {currentPid : ℕ} {expected : ProcessIdentity} {s s' : ProcessTable} {h : History Processes}

/-- What a handle stands for is the process with this identity. -/
def Is (s : ProcessTable) (handle : ℕ) (identity : ProcessIdentity) : Prop :=
  ∃ object, s handle = some object ∧
    ProcessIdentity.ofNative object.pid object.imagePath object.created = .ok identity

theorem Is.evolves {handle : ℕ} {identity : ProcessIdentity} (hs : Is s handle identity)
    (hevolves : s.Evolves s') : Is s' handle identity := by
  obtain ⟨object, hobject, hidentity⟩ := hs
  obtain ⟨object', hobject', hpid, hpath, hcreated, -⟩ := hevolves handle object hobject
  exact ⟨object', hobject', by rw [hpid, hpath, hcreated, hidentity]⟩

/-- The process ran when the worker asked. -/
def WasRunning (h : History Processes) (handle : ℕ) : Prop :=
  ∃ lastError, ⟨.waitForSingleObject handle 0, (ProcessOp.waitTimeout, lastError)⟩ ∈ h

/-- Why a process may be terminated. -/
structure Justified (currentPid : ℕ) (expected : ProcessIdentity) (s : ProcessTable)
    (h : History Processes) (handle exitCode : ℕ) : Prop where
  is_expected : Is s handle expected
  ne_current : expected.pid ≠ currentPid
  unprotected : rejectProtectedIdentity expected = .ok ()
  not_critical : ⟨.isProcessCritical handle, Except.ok false⟩ ∈ h
  was_running : WasRunning h handle
  exitCode_eq : exitCode = terminationExitCode

theorem Justified.step {e : Event Processes} {handle exitCode : ℕ}
    (hj : Justified currentPid expected s h handle exitCode) (hevolves : s.Evolves s') :
    Justified currentPid expected s' (e :: h) handle exitCode where
  is_expected := hj.is_expected.evolves hevolves
  ne_current := hj.ne_current
  unprotected := hj.unprotected
  not_critical := List.mem_cons_of_mem _ hj.not_critical
  was_running := hj.was_running.imp fun _ => List.mem_cons_of_mem _
  exitCode_eq := hj.exitCode_eq

/-- Nothing was terminated without a reason, and nothing twice. -/
def Restrained (currentPid : ℕ) (expected : ProcessIdentity) (s : ProcessTable)
    (h : History Processes) :
    Prop :=
  (∀ handle exitCode reply, ⟨.terminateProcess handle exitCode, reply⟩ ∈ h →
    Justified currentPid expected s h handle exitCode) ∧
  (h.filter fun e => e.op.terminates).length ≤ 1

/-- Nothing was terminated. -/
def Quiet (h : History Processes) : Prop := ∀ e ∈ h, e.op.terminates = false

theorem Quiet.cons {e : Event Processes} (hh : Quiet h) (he : e.op.terminates = false) :
    Quiet (e :: h) := by
  intro e' he'
  rcases List.mem_cons.mp he' with rfl | he'
  · exact he
  · exact hh e' he'

theorem Quiet.filter_eq_nil (hh : Quiet h) : (h.filter fun e => e.op.terminates) = [] :=
  List.filter_eq_nil_iff.mpr fun e he => by simp [hh e he]

theorem Quiet.restrained (hh : Quiet h) : Restrained currentPid expected s h := by
  constructor
  · intro handle exitCode reply hmem
    cases hh _ hmem
  · rw [hh.filter_eq_nil]
    exact Nat.zero_le 1

/-- A question after which more is known, and nothing was terminated. -/
theorem during_ask {J : ProcessTable → History Processes → Prop}
    (hJ : ∀ s h, Quiet h → J s h) (op : ProcessOp) (hop : op.terminates = false)
    (hh : Quiet h) :
    During Processes.Commit J (fun reply s' h' =>
      h' = ⟨op, reply⟩ :: h ∧ Quiet h' ∧ s.Evolves s' ∧ op.answers s' reply)
      (perform (I := Processes) op) s h := by
  refine (during_call (I := Processes) op id).mpr fun reply s' hcommit => ?_
  have hquiet : Quiet (⟨op, reply⟩ :: h) := hh.cons hop
  exact ⟨hJ _ _ hquiet, rfl, hquiet, hcommit.evolves, hcommit.answers hop⟩

/-! ### Questions -/

theorem status_eq_of_timeout {status lastError : ℕ} (h : waitStatus status lastError = .timeout) :
    status = ProcessOp.waitTimeout := by
  unfold waitStatus at h
  split_ifs at h
  assumption

theorem status_eq_of_object0 {status lastError : ℕ} (h : waitStatus status lastError = .object0) :
    status = ProcessOp.waitObject0 := by
  unfold waitStatus at h
  split_ifs at h
  assumption

section Questions

variable {J : ProcessTable → History Processes → Prop} (hJ : ∀ s h, Quiet h → J s h)

/-- The handle was opened on a process with this number. -/
def Opened (s : ProcessTable) (handle pid : ℕ) : Prop :=
  ∃ object, s handle = some object ∧ object.pid = pid

theorem Opened.evolves {handle pid : ℕ} (hs : Opened s handle pid) (hevolves : s.Evolves s') :
    Opened s' handle pid := by
  obtain ⟨object, hobject, rfl⟩ := hs
  obtain ⟨object', hobject', hpid, -⟩ := hevolves handle object hobject
  exact ⟨object', hobject', hpid⟩

include hJ

theorem during_openProcess (pid : ℕ) (access : ProcessAccess) (hh : Quiet h) :
    During Processes.Commit J (fun r s' h' =>
      Quiet h' ∧ ∀ handle, r = .ok handle → Opened s' handle pid)
      (openProcess pid access).run s h := by
  have hask := during_ask (s := s) hJ (.openProcess pid access) rfl hh
  refine (during_exceptT_adapt _ _).mpr ((during_attempt _).mpr (hask.mono ?_))
  rintro (e | handle) s' h' ⟨-, hh', -, hanswers⟩
  · exact ⟨hh', fun _ hr => by cases hr⟩
  · refine ⟨hh', fun handle' hr => ?_⟩
    obtain rfl : handle = handle' := Except.ok.inj hr
    exact hanswers

theorem during_wait (handle timeoutMs : ℕ) (hh : Quiet h) :
    During Processes.Commit J (fun r s' h' => ∃ reply,
      r = .ok (waitStatus reply.1 reply.2) ∧
      h' = ⟨.waitForSingleObject handle timeoutMs, reply⟩ :: h ∧ Quiet h' ∧ s.Evolves s')
      (wait handle timeoutMs).run s h := by
  refine (during_exceptT_lift _).mpr ((during_map _ _).mpr ((during_ask hJ _ rfl hh).mono ?_))
  rintro reply s' h' ⟨hh', hquiet, hevolves, -⟩
  exact ⟨reply, rfl, hh', hquiet, hevolves⟩

theorem during_ensureStillRunning {pid handle : ℕ} (hh : Quiet h) (hs : Opened s handle pid) :
    During Processes.Commit J (fun r s' h' =>
      Quiet h' ∧ (r = .ok () → Opened s' handle pid ∧ WasRunning h' handle))
      (ensureStillRunning pid handle).run s h := by
  refine (during_exceptT_bind _ _).mpr ((during_wait hJ handle 0 hh).mono ?_)
  rintro r s' h' ⟨⟨status, lastError⟩, rfl, rfl, hquiet, hevolves⟩
  rw [duringThen_ok]
  cases hstatus : waitStatus status lastError with
  | timeout =>
      refine (during_exceptT_pure _).mpr ⟨hquiet, fun _ => ⟨hs.evolves hevolves, lastError, ?_⟩⟩
      rw [status_eq_of_timeout hstatus]
      exact List.mem_cons_self
  | object0 => exact (during_exceptT_throw _).mpr ⟨hquiet, fun hr => by cases hr⟩
  | failed errorCode => exact (during_exceptT_throw _).mpr ⟨hquiet, fun hr => by cases hr⟩
  | unexpected status => exact (during_exceptT_throw _).mpr ⟨hquiet, fun hr => by cases hr⟩

/-- The identity is that of the process the handle stands for. -/
theorem during_identity {pid handle : ℕ} (hh : Quiet h) (hs : Opened s handle pid)
    (hrunning : WasRunning h handle) :
    During Processes.Commit J (fun r s' h' => Quiet h' ∧ WasRunning h' handle ∧
      ∀ actual, r = .ok actual → Is s' handle actual)
      (NativeProcessApi.identity pid handle).run s h := by
  have hpath := during_ask (s := s) hJ (.queryFullProcessImageName handle) rfl hh
  refine (during_exceptT_bind _ _).mpr ((during_exceptT_adapt _ _).mpr
    ((during_attempt _).mpr (hpath.mono ?_)))
  rintro (e | image) s₁ h₁ ⟨rfl, hquiet, hevolves, hanswers⟩
  · exact ⟨hquiet, hrunning.imp fun _ => List.mem_cons_of_mem _, fun _ hr => by cases hr⟩
  rw [mapError_ok, duringThen_ok]
  have hs₁ := hs.evolves hevolves
  refine (during_exceptT_bind _ _).mpr ((during_check _).mpr ((duringThen_iff _ _).mpr ⟨?_, ?_⟩))
  · exact fun e _ => ⟨hquiet, hrunning.imp fun _ => List.mem_cons_of_mem _, fun _ hr => by cases hr⟩
  rintro ⟨imagePath, executableName⟩ hnames
  have htimes := during_ask (s := s₁) hJ (.getProcessTimes handle) rfl hquiet
  refine (during_exceptT_bind _ _).mpr ((during_exceptT_adapt _ _).mpr
    ((during_attempt _).mpr (htimes.mono ?_)))
  rintro (e | created) s₂ h₂ ⟨rfl, hquiet₂, hevolves₂, hanswers₂⟩
  · exact ⟨hquiet₂, hrunning.imp fun _ hmem => List.mem_cons_of_mem _ (List.mem_cons_of_mem _ hmem),
      fun _ hr => by cases hr⟩
  rw [mapError_ok, duringThen_ok]
  refine (during_exceptT_pure _).mpr ⟨hquiet₂,
    hrunning.imp fun _ hmem => List.mem_cons_of_mem _ (List.mem_cons_of_mem _ hmem), ?_⟩
  intro actual hactual
  obtain rfl := Except.ok.inj hactual
  obtain ⟨object, hobject, hpid⟩ := hs₁
  obtain ⟨object', hobject', hpid', hpath', -⟩ := hevolves₂ handle object hobject
  refine ⟨object', hobject', ?_⟩
  have himage : image = object.imagePath := hanswers object hobject
  have hcreated : created = object'.created := hanswers₂ object' hobject'
  rw [hpid', hpid, hpath', ← himage, ← hcreated, ProcessIdentity.ofNative, hnames]
  rfl

theorem during_criticality {handle : ℕ} (hh : Quiet h) :
    During Processes.Commit J (fun r s' h' => Quiet h' ∧ s.Evolves s' ∧ (∃ e, h' = e :: h) ∧
      (r = .ok .notCritical → ⟨.isProcessCritical handle, Except.ok false⟩ ∈ h'))
      (criticality handle).run s h := by
  have hask := during_ask (s := s) hJ (.isProcessCritical handle) rfl hh
  refine (during_exceptT_bind _ _).mpr ((during_exceptT_adapt _ _).mpr
    ((during_attempt _).mpr (hask.mono ?_)))
  rintro (e | critical) s' h' ⟨rfl, hquiet, hevolves, -⟩
  · exact ⟨hquiet, hevolves, ⟨_, rfl⟩, fun hr => by cases hr⟩
  rw [mapError_ok, duringThen_ok]
  refine (during_exceptT_pure _).mpr ⟨hquiet, hevolves, ⟨_, rfl⟩, fun hr => ?_⟩
  cases critical with
  | false => exact List.mem_cons_self
  | true => cases hr

end Questions

/-! ### Termination -/

/-- The process with the identity has been terminated, and has ended. -/
structure Terminated (s : ProcessTable) (h : History Processes)
    (identity : ProcessIdentity) : Prop where
  ended : ∃ handle object, s handle = some object ∧ object.running = false ∧
    ProcessIdentity.ofNative object.pid object.imagePath object.created = .ok identity ∧
    ⟨.terminateProcess handle terminationExitCode, Except.ok ()⟩ ∈ h

/-- The errors after which the process may have ended. -/
def mayHaveEnded : ProcessError → Bool
  | .terminateFailed _ => true
  | .terminationUnconfirmed _ _ => true
  | _ => false

/-- What is known after a call. -/
def Outcome (expected : ProcessIdentity) (s : ProcessTable) (h : History Processes) :
    Except ProcessError ProcessTerminateReceipt → Prop
  | .ok receipt => confirm expected .object0 = .ok receipt ∧ Terminated s h expected
  | .error e => mayHaveEnded e = false → Quiet h

theorem mayHaveEnded_of_confirm {status : WaitStatus} {e : ProcessError}
    (h : confirm expected status = .error e) : mayHaveEnded e = true := by
  cases status <;> cases h <;> rfl

/-- The first termination is justified. -/
theorem Justified.restrained {handle : ℕ} {reply : Except ℕ Unit} (hh : Quiet h)
    (hj : Justified currentPid expected s
      (⟨.terminateProcess handle terminationExitCode, reply⟩ :: h)
      handle terminationExitCode) :
    Restrained currentPid expected s
      (⟨.terminateProcess handle terminationExitCode, reply⟩ :: h) := by
  constructor
  · intro handle' exitCode' reply' hmem
    rcases List.mem_cons.mp hmem with heq | hmem
    · cases heq
      exact hj
    · cases hh _ hmem
  · rw [List.filter_cons_of_pos rfl, hh.filter_eq_nil]
    exact Nat.le_refl 1

/-- What is no termination leaves nothing to be justified. -/
theorem Restrained.step {e : Event Processes} (hr : Restrained currentPid expected s h)
    (hevolves : s.Evolves s') (he : e.op.terminates = false) :
    Restrained currentPid expected s' (e :: h) := by
  constructor
  · intro handle exitCode reply hmem
    rcases List.mem_cons.mp hmem with rfl | hmem
    · cases he
    · exact (hr.1 handle exitCode reply hmem).step hevolves
  · rw [List.filter_cons_of_neg (by rw [he]; exact Bool.false_ne_true)]
    exact hr.2

/-- The end of the call: all that is to be known is known. -/
theorem during_terminate {handle : ℕ} (hh : Quiet h)
    (hj : Justified currentPid expected s h handle terminationExitCode) :
    During Processes.Commit (Restrained currentPid expected)
      (fun r s' h' => Outcome expected s' h' r)
      (do terminate handle terminationExitCode
          let status ← wait handle terminateWaitMs
          check (confirm expected status)
        : ProcessM ProcessTerminateReceipt).run s h := by
  refine (during_exceptT_bind _ _).mpr ((during_exceptT_adapt _ _).mpr ((during_attempt _).mpr
    ((during_call (I := Processes) (.terminateProcess handle terminationExitCode) id).mpr ?_)))
  intro reply s₁ hcommit
  have hrestrained : Restrained currentPid expected s₁
      (⟨.terminateProcess handle terminationExitCode, reply⟩ :: h) :=
    (hj.step hcommit.evolves).restrained hh
  refine ⟨hrestrained, ?_⟩
  rcases reply with source | ⟨⟨⟩⟩
  · intro hfailed
    cases hfailed
  change During _ _ _ (ExceptT.run _) _ _
  refine (during_exceptT_bind _ _).mpr ((during_exceptT_lift _).mpr ((during_map _ _).mpr
    ((during_call (I := Processes) (.waitForSingleObject handle terminateWaitMs) id).mpr ?_)))
  rintro ⟨status, lastError⟩ s₂ hwait
  refine ⟨hrestrained.step hwait.evolves rfl, ?_⟩
  change During _ _ _ (check (confirm expected (waitStatus status lastError))).run _ _
  rw [during_check]
  cases hconfirm : confirm expected (waitStatus status lastError) with
  | error e =>
      intro hnot
      rw [mayHaveEnded_of_confirm hconfirm] at hnot
      cases hnot
  | ok receipt =>
      have hstatus : waitStatus status lastError = .object0 := by
        revert hconfirm
        cases waitStatus status lastError <;> intro hconfirm <;> cases hconfirm
        rfl
      rw [hstatus] at hconfirm
      obtain ⟨object, hobject, hidentity⟩ :=
        (hj.is_expected.evolves hcommit.evolves).evolves hwait.evolves
      have hended := (hwait.answers rfl object hobject).1 (status_eq_of_object0 hstatus)
      exact ⟨hconfirm, handle, object, hobject, hended, hidentity,
        List.mem_cons_of_mem _ List.mem_cons_self⟩

theorem during_terminateWithApi (hh : Quiet h) :
    During Processes.Commit (Restrained currentPid expected)
      (fun r s' h' => Outcome expected s' h' r)
      (terminateWithApi currentPid expected).run s h := by
  have hJ : ∀ (s : ProcessTable) (h : History Processes),
    Quiet h → Restrained currentPid expected s h :=
    fun _ _ hh => hh.restrained
  have hnone (s : ProcessTable) {h : History Processes} (hh : Quiet h) :
      ∀ e, Outcome expected s h (.error e) := fun _ _ => hh
  refine (during_exceptT_bind _ _).mpr ((during_check _).mpr ((duringThen_iff _ _).mpr
    ⟨fun e _ => hnone s hh e, fun _ hpid => ?_⟩))
  refine (during_exceptT_bind _ _).mpr ((during_openProcess hJ expected.pid .terminate hh).mono ?_)
  rintro r s₁ h₁ ⟨hh₁, hopened⟩
  refine (duringThen_iff _ _).mpr ⟨fun e _ => hnone s₁ hh₁ e, fun handle hr => ?_⟩
  refine (during_exceptT_bind _ _).mpr
    ((during_ensureStillRunning hJ hh₁ (hopened handle hr)).mono ?_)
  rintro r s₂ h₂ ⟨hh₂, hstill⟩
  refine (duringThen_iff _ _).mpr ⟨fun e _ => hnone s₂ hh₂ e, fun _ hr => ?_⟩
  obtain ⟨hopened, hrunning⟩ := hstill hr
  refine (during_exceptT_bind _ _).mpr ((during_identity hJ hh₂ hopened hrunning).mono ?_)
  rintro r s₃ h₃ ⟨hh₃, hrunning, his⟩
  refine (duringThen_iff _ _).mpr ⟨fun e _ => hnone s₃ hh₃ e, fun actual hactual => ?_⟩
  refine (during_exceptT_bind _ _).mpr ((during_check _).mpr ((duringThen_iff _ _).mpr
    ⟨fun e _ => hnone s₃ hh₃ e, fun _ hsame => ?_⟩))
  obtain rfl : actual = expected := not_not.mp (failIf_eq_ok.mp hsame)
  refine (during_exceptT_bind _ _).mpr ((during_check _).mpr ((duringThen_iff _ _).mpr
    ⟨fun e _ => hnone s₃ hh₃ e, fun _ hunprotected => ?_⟩))
  refine (during_exceptT_bind _ _).mpr ((during_criticality hJ hh₃).mono ?_)
  rintro r s₄ h₄ ⟨hh₄, hevolves, ⟨e, rfl⟩, hcritical⟩
  refine (duringThen_iff _ _).mpr ⟨fun e _ => hnone s₄ hh₄ e, fun criticality hr => ?_⟩
  refine (during_exceptT_bind _ _).mpr ((during_check _).mpr ((duringThen_iff _ _).mpr
    ⟨fun e _ => hnone s₄ hh₄ e, fun _ hnot => ?_⟩))
  have hnotCritical : criticality = .notCritical := by
    cases criticality with
    | critical => cases failIf_eq_ok.mp hnot rfl
    | notCritical => rfl
  exact during_terminate hh₄
    { is_expected := (his actual hactual).evolves hevolves
      ne_current := failIf_eq_ok.mp hpid
      unprotected := hunprotected
      not_critical := hcritical (hnotCritical ▸ hr)
      was_running := hrunning.imp fun _ => List.mem_cons_of_mem _
      exitCode_eq := rfl }

end ProcessWorker

namespace ProcessSample

/-- An application with the number 7. -/
def application (running : Bool) : ProcessObject where
  pid := 7
  imagePath := "C:\\app.exe".toList.flatMap units
  created := (1, 0)
  critical := false
  running

def running : ProcessTable := fun handle => if handle = 1 then some (application true) else none

def ended : ProcessTable := fun handle => if handle = 1 then some (application false) else none

/-- A request to terminate it, approved. -/
def execution : ExecutionAuthorization where
  authorization :=
    { request :=
        { envelope :=
            { requestId := "request", organizationId := "local", actorId := "agent"
              deviceId := "device", action := "process.terminate", target := "7"
              parameters := .ofList
                [("executable_name", Value.string "app.exe"),
                 ("image_path", Value.string "C:\\app.exe"),
                 ("created_at_windows_filetime_100ns", Value.posInt (2 ^ 32))]
              requestedCapabilities := [], expiresAtUnixMs := 1000
              nonce := List.replicate 16 7 }
          envelopeDigest := Vector.replicate 32 0 }
      decision :=
        { requestId := "request", envelopeDigest := Vector.replicate 32 0, kind := .approval
          policyId := "sample", reasonCode := "process", requiredCapability := none } }
  approverId := "approver"
  approvalExpiresAtUnixMs := 1000

def approved : ProcessIdentity := ⟨7, "app.exe", "C:\\app.exe", 2 ^ 32⟩

theorem approvedIdentity_execution : ProcessWorker.approvedIdentity execution = .ok approved := by
  decide

/-- A host on which nothing happens by itself. -/
def host : Handler Processes ProcessTable where
  answer s
    | .snapshot => (.ok [], s)
    | .openProcess pid _ =>
      (if (s 1).any fun object => object.pid = pid then .ok 1 else .error 87, s)
    | .waitForSingleObject handle _ =>
        (match s handle with
          | some object =>
            (if object.running then ProcessOp.waitTimeout else ProcessOp.waitObject0, 0)
          | none => (ProcessOp.waitFailed, 6), s)
    | .queryFullProcessImageName handle =>
        (((s handle).map ProcessObject.imagePath).elim (.error 6) .ok, s)
    | .getProcessTimes handle => (((s handle).map ProcessObject.created).elim (.error 6) .ok, s)
    | .isProcessCritical handle => (((s handle).map ProcessObject.critical).elim (.error 6) .ok, s)
    | .terminateProcess handle _ =>
        (((s handle).map fun _ => ()).elim (.error 6) .ok, fun other =>
          if other = handle then (s handle).map fun object => { object with running := false }
          else s other)

theorem host_sound (s : ProcessTable) (op : ProcessOp) :
    Processes.Commit s ⟨op, (host.answer s op).1⟩ (host.answer s op).2 := by
  refine ⟨s, .refl s, ?_, ?_⟩
  · cases op with
    | snapshot => trivial
    | openProcess pid access =>
        cases hobject : s 1 with
        | none => simp [host, ProcessOp.answers, hobject]
        | some object =>
            by_cases hpid : object.pid = pid <;> simp [host, ProcessOp.answers, hobject, hpid]
    | waitForSingleObject handle timeoutMs =>
        intro object hobject
        cases hrunning : object.running <;>
          simp [hobject, hrunning, ProcessOp.waitTimeout, ProcessOp.waitObject0]
    | queryFullProcessImageName handle =>
        cases hobject : s handle <;> simp [host, ProcessOp.answers, hobject]
    | getProcessTimes handle =>
        cases hobject : s handle <;> simp [host, ProcessOp.answers, hobject]
    | isProcessCritical handle =>
        cases hobject : s handle <;> simp [host, ProcessOp.answers, hobject]
    | terminateProcess handle exitCode => cases hobject : s handle <;> trivial
  · cases op with
    | terminateProcess handle exitCode =>
        refine ⟨fun other object hobject => ?_, fun other hother => if_neg hother⟩
        by_cases hother : other = handle
        · subst hother
          refine ⟨{ object with running := false }, ?_, rfl, rfl, rfl, fun h => by cases h⟩
          simp [host, hobject]
        · exact ⟨object, (if_neg hother).trans hobject, rfl, rfl, rfl, id⟩
    | _ => rfl

def receipt : ProcessTerminateReceipt :=
  ⟨7, "app.exe", "C:\\app.exe", 2 ^ 32, true, .waitObject0⟩

theorem imageNames_application :
    imageNames (application true).imagePath = .ok ("C:\\app.exe", "app.exe") := by
  have hname : fileName "C:\\app.exe" = some "app.exe" := by decide
  rw [imageNames, application, decodeUnits_flatMap_units, Option.map_some, String.ofList_toList,
    orFail_some, ok_bind, hname]
  rfl

open ProcessWorker NativeProcessApi in
theorem exec_identity :
    exec host (NativeProcessApi.identity approved.pid 1).run running = (.ok approved, running) := by
  have hpath : exec host (ExceptT.adapt (ProcessError.identityQueryFailed approved.pid)
      (attempt (perform (I := Processes) (.queryFullProcessImageName 1)))).run running =
      (.ok (application true).imagePath, running) := rfl
  have hnames : exec host (check (imageNames (application true).imagePath)).run running =
      (.ok ("C:\\app.exe", "app.exe"), running) := by rw [exec_check, imageNames_application]
  rw [NativeProcessApi.identity, exec_of_ok hpath, exec_of_ok hnames]
  rfl

open ProcessWorker NativeProcessApi in
theorem exec_execution :
    exec host (terminateApproved 1 execution).run running = (.ok receipt, ended) := by
  have hexpected : exec host (check (approvedIdentity execution)).run running =
      (.ok approved, running) := by rw [exec_check, approvedIdentity_execution]
  have hunprotected : exec host (check (rejectProtectedIdentity approved)).run running =
      (.ok (), running) := by
    have happroved : rejectProtectedIdentity approved = .ok () := by decide
    rw [exec_check, happroved]
  have hopen : exec host (openProcess approved.pid .terminate).run running = (.ok 1, running) := rfl
  have hstill : exec host (ensureStillRunning approved.pid 1).run running = (.ok (), running) := rfl
  have hend : exec host (terminate 1 terminationExitCode).run running = (.ok (), ended) := by
    have hended : (host.answer running (.terminateProcess 1 terminationExitCode)).2 = ended := by
      funext handle
      by_cases hhandle : handle = 1
      · subst hhandle
        rfl
      · simp [host, ended, running, hhandle]
    rw [terminate, exec_exceptT_adapt, exec_attempt, exec_perform, hended]
    rfl
  rw [terminateApproved, exec_of_ok hexpected, terminateWithApi]
  have hcritical : exec host (criticality 1).run running = (.ok .notCritical, running) := rfl
  have hwait : exec host (wait 1 terminateWaitMs).run ended = (.ok .object0, ended) := rfl
  have hcheck {c : Prop} [Decidable c] {e : ProcessError} (hc : ¬ c) :
      exec host (check (failIf c e)).run running = (.ok (), running) := by
    rw [exec_check, failIf_of_false hc]
  rw [exec_of_ok (hcheck (by decide)), exec_of_ok hopen, exec_of_ok hstill,
    exec_of_ok exec_identity,
    exec_of_ok (hcheck (not_not.mpr rfl)), exec_of_ok hunprotected, exec_of_ok hcritical,
    exec_of_ok (hcheck (by decide)), exec_of_ok hend, exec_of_ok hwait]
  rfl

theorem runs_execution : ∃ h, Runs Processes.Commit
    (ProcessWorker.terminateApproved 1 execution).run running [] (.ok receipt) ended h := by
  obtain ⟨h, hruns, -⟩ := runs_of_exec (s := running) (h := []) host_sound
    (ProcessWorker.terminateApproved 1 execution).run
  rw [exec_execution] at hruns
  exact ⟨h, hruns⟩

end ProcessSample

/-! ### Main results -/

namespace ProcessWorker

variable {currentPid : ℕ} {s s' : ProcessTable} {h : History Processes}

theorem during_terminateApproved (execution : ExecutionAuthorization) (hh : Quiet h) :
    During Processes.Commit
      (fun s h => Quiet h ∨ ∃ expected, approvedIdentity execution = .ok expected ∧
        Restrained currentPid expected s h)
      (fun r s h => (∃ e, r = .error e ∧ Quiet h) ∨ ∃ expected,
        approvedIdentity execution = .ok expected ∧ Outcome expected s h r)
      (terminateApproved currentPid execution).run s h := by
  refine (during_exceptT_bind _ _).mpr ((during_check _).mpr ((duringThen_iff _ _).mpr
    ⟨fun e _ => .inl ⟨e, rfl, hh⟩, fun expected hexpected => ?_⟩))
  exact ((during_terminateWithApi hh).weaken fun _ _ hr => .inr ⟨expected, hexpected, hr⟩).mono
    fun _ _ _ houtcome => .inr ⟨expected, hexpected, houtcome⟩

/-- Whatever the processes do meanwhile, what is terminated is the approved process, and
it is terminated once. -/
theorem only_approved_terminated {execution : ExecutionAuthorization}
    {q : Program Processes (Except ProcessError ProcessTerminateReceipt)}
    (hleads : Leads Processes.Commit (terminateApproved currentPid execution).run s [] q s' h) :
    (h.filter fun e => e.op.terminates).length ≤ 1 ∧
    ∀ handle exitCode reply, ⟨.terminateProcess handle exitCode, reply⟩ ∈ h →
      ∃ expected, approvedIdentity execution = .ok expected ∧
        Justified currentPid expected s' h handle exitCode := by
  have hquiet : Quiet [] := fun _ he => by cases he
  rcases (hleads.during (during_terminateApproved execution hquiet) (.inl hquiet)).1 with
    hh | ⟨expected, hexpected, hjustified, honce⟩
  · constructor
    · rw [hh.filter_eq_nil]
      exact Nat.zero_le 1
    · intro handle exitCode reply hmem
      cases hh _ hmem
  · exact ⟨honce, fun handle exitCode reply hmem =>
      ⟨expected, hexpected, hjustified handle exitCode reply hmem⟩⟩

open ProcessSample in
/-- The application is terminated, and is the approved one. -/
theorem only_approved_terminated_application : ∃ handle h,
    Leads Processes.Commit (terminateApproved 1 execution).run running []
      (.done (.ok receipt)) ended h ∧
    ⟨.terminateProcess handle terminationExitCode, Except.ok ()⟩ ∈ h ∧
    Justified 1 approved ended h handle terminationExitCode := by
  obtain ⟨h, hruns⟩ := runs_execution
  have hquiet : Quiet [] := fun _ he => by cases he
  obtain ⟨handle, object, -, -, -, hmem⟩ : Terminated ended h approved := by
    rcases hruns.during (during_terminateApproved execution hquiet) with
      ⟨e, he, -⟩ | ⟨expected, hexpected, houtcome⟩
    · cases he
    · obtain rfl := Except.ok.inj (approvedIdentity_execution.symm.trans hexpected)
      exact houtcome.2
  obtain ⟨expected, hexpected, hjustified⟩ :=
    (only_approved_terminated hruns.leads).2 handle terminationExitCode (.ok ()) hmem
  obtain rfl := Except.ok.inj (approvedIdentity_execution.symm.trans hexpected)
  exact ⟨handle, h, hruns.leads, hmem, hjustified⟩

/-- A receipt is given for the approved process, which the call has terminated and which
has ended. An error that does not say that the end is unknown is given where nothing was
terminated. -/
theorem termination_outcome {execution : ExecutionAuthorization}
    {r : Except ProcessError ProcessTerminateReceipt}
    (hruns : Runs Processes.Commit (terminateApproved currentPid execution).run s [] r s' h) :
    (∀ receipt, r = .ok receipt → ∃ expected, approvedIdentity execution = .ok expected ∧
      confirm expected .object0 = .ok receipt ∧ Terminated s' h expected) ∧
    ∀ e, r = .error e → mayHaveEnded e = false → Quiet h := by
  have hquiet : Quiet [] := fun _ he => by cases he
  rcases hruns.during (during_terminateApproved execution hquiet) with
    ⟨e, rfl, hh⟩ | ⟨expected, hexpected, houtcome⟩
  · refine ⟨fun receipt hr => ?_, fun _ _ _ => hh⟩
    cases hr
  · constructor
    · rintro receipt rfl
      exact ⟨expected, hexpected, houtcome⟩
    · rintro e rfl
      exact houtcome

open ProcessSample in
/-- The receipt of the application. -/
theorem termination_outcome_application : ∃ h,
    Runs Processes.Commit (terminateApproved 1 execution).run running [] (.ok receipt) ended h ∧
    Terminated ended h approved := by
  obtain ⟨h, hruns⟩ := runs_execution
  obtain ⟨expected, hexpected, -, hterminated⟩ := (termination_outcome hruns).1 receipt rfl
  obtain rfl := Except.ok.inj (approvedIdentity_execution.symm.trans hexpected)
  exact ⟨h, hruns, hterminated⟩

end ProcessWorker

end VorCommander
