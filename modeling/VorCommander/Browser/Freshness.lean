import VorCommander.Browser.Sessions

/-!
What a click may rely on.

A click names the generation that it was approved for. It is executed if this is
the generation of the session, and refused before anything is sent if it is not.
The generation is that of the document that a navigation has brought: since it
became what it is, no navigation has succeeded. A click does not change it, whatever
it does to the page.
-/

namespace VorCommander

open Crypto Steps Steps.Program Text

/-! ### Generations -/

section Generations

variable (sessionId : String)

/-- The driver of a session has been started. -/
def startsSession : Event Browser → Bool
  | ⟨.launch _ id _, .ok _⟩ => id = sessionId
  | _ => false

/-- A session has been navigated. -/
def navigates : Event Browser → Bool
  | ⟨.navigate _ id _, .ok _⟩ => id = sessionId
  | _ => false

/-- The generation of a session after what has been performed. -/
def generationIn : History Browser → Option ℕ
  | [] => none
  | e :: h =>
      if startsSession sessionId e then some 0
      else if navigates sessionId e then (generationIn h).map fun g => (g + 1) % 2 ^ 64
      else generationIn h

/-- The generation became `g` with an event, and no navigation has succeeded
since. -/
def CurrentSince (h : History Browser) (g : ℕ) : Prop :=
  ∃ later e earlier, h = later ++ e :: earlier ∧
    (startsSession sessionId e = true ∨ navigates sessionId e = true) ∧
    generationIn sessionId (e :: earlier) = some g ∧
    ∀ e' ∈ later, startsSession sessionId e' = false ∧ navigates sessionId e' = false

theorem generationIn_cons {e : Event Browser} {h : History Browser}
    (hstarts : startsSession sessionId e = false) (hnavigates : navigates sessionId e = false) :
    generationIn sessionId (e :: h) = generationIn sessionId h := by
  simp [generationIn, hstarts, hnavigates]

theorem currentSince_of_generationIn {h : History Browser} {g : ℕ}
    (hg : generationIn sessionId h = some g) : CurrentSince sessionId h g := by
  induction h with
  | nil => cases hg
  | cons e h ih =>
      by_cases hchanges : startsSession sessionId e = true ∨ navigates sessionId e = true
      · exact ⟨[], e, h, rfl, hchanges, hg, fun _ hmem => by cases hmem⟩
      · obtain ⟨hstarts, hnavigates⟩ := not_or.mp hchanges
        rw [generationIn_cons sessionId (Bool.eq_false_iff.mpr hstarts)
          (Bool.eq_false_iff.mpr hnavigates)] at hg
        obtain ⟨later, e', earlier, rfl, he', hg', hlater⟩ := ih hg
        refine ⟨e :: later, e', earlier, rfl, he', hg', ?_⟩
        rintro e'' hmem
        rcases List.mem_cons.mp hmem with rfl | hmem
        · exact ⟨Bool.eq_false_iff.mpr hstarts, Bool.eq_false_iff.mpr hnavigates⟩
        · exact hlater e'' hmem

end Generations

/-- The sessions of a worker have the generations that follow from what has been
performed. -/
def UpToDate (worker : BrowserSessionWorker) (h : History Browser) : Prop :=
  ∀ sessionId session, worker.sessions[sessionId]? = some session →
    generationIn sessionId h = some session.generation

/-- What a click is guaranteed. -/
def ClicksCurrent : History Browser → BrowserOp → Prop
  | h, .click execution sessionId _ =>
      ∃ g, execution.requiredU64 "generation" = .ok g ∧ CurrentSince sessionId h g
  | _, _ => True

namespace BrowserSessionWorker

variable {worker : BrowserSessionWorker} {execution : ExecutionAuthorization} {h : History Browser}
  {sessionId : String} {session : ManagedBrowserSession}

theorem sessionMut_eq_ok (hsession : worker.sessionMut execution = .ok (sessionId, session)) :
    worker.sessions[sessionId]? = some session := by
  simp only [sessionMut, bind_eq_ok, orFail_eq_ok, failIf_eq_ok, exists_unit, pure_eq_ok,
    Prod.mk.injEq] at hsession
  obtain ⟨_, _, _, hfound, _, rfl, rfl⟩ := hsession
  exact hfound

/-- What an operation that fails or succeeds leaves agrees. -/
def Leaves (worker : BrowserSessionWorker) (h : History Browser) :
    Except BrowserError (Value × BrowserSessionWorker) → Prop
  | .ok (_, worker') => UpToDate worker' h
  | .error _ => UpToDate worker h

end BrowserSessionWorker

/-- An event that changes no generation. -/
def Idle (e : Event Browser) : Prop :=
  ∀ sessionId, startsSession sessionId e = false ∧ navigates sessionId e = false

theorem UpToDate.idle {worker : BrowserSessionWorker} {h : History Browser} {e : Event Browser}
    (hdate : UpToDate worker h) (he : Idle e) : UpToDate worker (e :: h) := by
  intro sessionId session hsession
  rw [generationIn_cons sessionId (he sessionId).1 (he sessionId).2]
  exact hdate sessionId session hsession

/-- A session takes the place of one, and the others stay. -/
theorem UpToDate.withSession {worker : BrowserSessionWorker} {h h' : History Browser}
    {sessionId : String} {session : ManagedBrowserSession} (hdate : UpToDate worker h)
    (hsession : generationIn sessionId h' = some session.generation)
    (hothers : ∀ id, id ≠ sessionId → generationIn id h' = generationIn id h) :
    UpToDate (worker.withSession sessionId session) h' := by
  intro id session' hfound
  change (worker.sessions.insert sessionId session)[id]? = some session' at hfound
  rw [Std.ExtTreeMap.getElem?_insert] at hfound
  split at hfound
  case isTrue heq =>
      obtain rfl : sessionId = id := compare_eq_iff_eq.mp heq
      obtain rfl := Option.some.inj hfound
      exact hsession
  case isFalse hne =>
      have hid : id ≠ sessionId := fun heq => hne (compare_eq_iff_eq.mpr heq.symm)
      rw [hothers id hid]
      exact hdate id session' hfound

theorem UpToDate.forget {worker : BrowserSessionWorker} {h : History Browser}
    (hdate : UpToDate worker h) (sessionId : String) :
    UpToDate { worker with sessions := worker.sessions.erase sessionId } h := by
  intro id session hfound
  change (worker.sessions.erase sessionId)[id]? = some session at hfound
  rw [Std.ExtTreeMap.getElem?_erase] at hfound
  split at hfound
  case isTrue => cases hfound
  case isFalse => exact hdate id session hfound

section Rules

variable {A : History Browser → Event Browser → Prop} {G : History Browser → BrowserOp → Prop}
  {h : History Browser}

@[simp] theorem safe_call_browser {op : BrowserOp}
    {Q : History Browser → Except BrowserError op.Result → Prop} :
    Safe A G Q op.call.run h ↔
      G h op ∧ ∀ reply : Except BrowserError op.Result, A h ⟨op, reply⟩ →
        Q (⟨op, reply⟩ :: h) reply :=
  safe_call (I := Browser) op id

/-- A command is sent if the session is open. -/
theorem safe_command (session : ManagedBrowserSession) (op : BrowserOp)
    {Q : History Browser → Except BrowserError op.Result → Prop} (herror : ∀ e, Q h (.error e))
    (hsent : G h op ∧ ∀ reply : Except BrowserError op.Result, A h ⟨op, reply⟩ →
      Q (⟨op, reply⟩ :: h) reply) :
    Safe A G Q (session.command op).run h := by
  refine safe_check_bind herror fun _ _ => ?_
  exact safe_call_browser.mpr hsent

/-- Nothing but a query is sent to find an element. -/
theorem safe_findCss {session : ManagedBrowserSession} {sessionId selector : String}
    {Q : History Browser → Except BrowserError String → Prop}
    (hG : G h (.findElement sessionId selector)) (hbefore : ∀ e, Q h (.error e))
    (hafter : ∀ reply r, Q (⟨.findElement sessionId selector, reply⟩ :: h) r) :
    Safe A G Q (session.findCss sessionId selector).run h := by
  refine (safe_exceptT_bind _ _).mpr ?_
  refine safe_command session (.findElement sessionId selector) hbefore ⟨hG, fun reply _ => ?_⟩
  cases reply with
  | error e => exact hafter _ _
  | ok value => exact (safe_check _).mpr (hafter _ _)

theorem safe_prepareDownload {session : ManagedBrowserSession}
    {sessionId operationId fileName : String}
    {Q : History Browser → Except BrowserError Unit → Prop}
    (hG : G h (.downloadTarget sessionId fileName)) (hbefore : ∀ e, Q h (.error e))
    (hafter : ∀ reply r, Q (⟨.downloadTarget sessionId fileName, reply⟩ :: h) r) :
    Safe A G Q (session.prepareDownload sessionId operationId fileName).run h := by
  refine safe_check_bind hbefore fun _ _ => ?_
  refine safe_check_bind hbefore fun _ _ => ?_
  exact safe_call_browser.mpr ⟨hG, fun reply _ => hafter reply reply⟩

/-- What the close of a bridge sends, if anything. -/
theorem safe_closeBridge {sessionId : String} {session : ManagedBrowserSession}
    {Q : History Browser → Except BrowserError Unit × BrowserCloseState → Prop}
    (hG : G h (.delete sessionId))
    (hQ : ∀ h' r, (h' = h ∨ ∃ reply, h' = ⟨.delete sessionId, reply⟩ :: h) → Q h' r) :
    Safe A G Q (BrowserSessionWorker.closeBridge sessionId session) h := by
  rw [BrowserSessionWorker.closeBridge]
  cases session.closeState with
  | opened =>
      refine (safe_bind _ _).mpr ((safe_perform _).mpr ⟨hG, fun reply _ => ?_⟩)
      cases reply with
      | ok _ => exact (safe_done _).mpr (hQ _ _ (Or.inr ⟨_, rfl⟩))
      | error e => exact (safe_done _).mpr (hQ _ _ (Or.inr ⟨_, rfl⟩))
  | _ => exact (safe_done _).mpr (hQ _ _ (Or.inl rfl))

theorem safe_launchOrRemove {config : BrowserWorkerConfig} {sessionId root : String}
    {Q : History Browser → Except BrowserError Unit → Prop}
    (hlaunch : G h (.launch config sessionId root))
    (hremove : ∀ h', G h' (.removeRoot config.labRoot root))
    (hok : Q (⟨.launch config sessionId root, .ok ()⟩ :: h) (.ok ()))
    (herror : ∀ e reply, Q (⟨.removeRoot config.labRoot root, reply⟩ ::
      ⟨.launch config sessionId root, .error e⟩ :: h) (.error e)) :
    Safe A G Q (BrowserSessionWorker.launchOrRemove config sessionId root).run h := by
  refine (safe_bind _ _).mpr ((safe_perform _).mpr ⟨hlaunch, fun reply _ => ?_⟩)
  cases reply with
  | ok _ => exact (safe_done _).mpr hok
  | error e =>
      refine (safe_bind _ _).mpr ((safe_perform _).mpr ⟨hremove _, fun reply _ => ?_⟩)
      exact (safe_done _).mpr (herror e reply)

end Rules

/-! ### Each operation -/

namespace BrowserSessionWorker

variable {worker : BrowserSessionWorker} {execution : ExecutionAuthorization} {h : History Browser}

theorem startSession_leaves (hdate : UpToDate worker h) :
    Safe (fun _ _ => True) ClicksCurrent (fun h' r => Leaves worker h' r)
      (worker.startSession execution).run h := by
  refine safe_check_bind (fun _ => hdate) ?_
  intro config _
  refine safe_check_bind (fun _ => hdate) ?_
  intro _ _
  refine safe_check_bind (fun _ => hdate) ?_
  intro _ _
  refine (safe_exceptT_bind _ _).mpr (safe_call_browser.mpr ⟨trivial, fun reply _ => ?_⟩)
  have hallocated : UpToDate worker (⟨.allocateRoot config.labRoot
      (opaqueSessionId execution.authorization.request.envelopeDigest), reply⟩ :: h) :=
    hdate.idle fun _ => ⟨rfl, rfl⟩
  cases reply with
  | error e => exact hallocated
  | ok root =>
      refine (safe_exceptT_bind _ _).mpr (safe_launchOrRemove trivial (fun _ => trivial) ?_ ?_)
      · refine (safe_exceptT_pure _).mpr (hallocated.withSession ?_ ?_)
        · simp [generationIn, startsSession]
        · intro id hid
          refine generationIn_cons id ?_ rfl
          simpa [startsSession] using hid.symm
      · intro e reply
        exact (hallocated.idle fun _ => ⟨rfl, rfl⟩).idle fun _ => ⟨rfl, rfl⟩

theorem navigate_leaves (hdate : UpToDate worker h) :
    Safe (fun _ _ => True) ClicksCurrent (fun h' r => Leaves worker h' r)
      (worker.navigate execution).run h := by
  refine safe_check_bind (fun _ => hdate) ?_
  intro target _
  refine safe_check_bind (fun _ => hdate) ?_
  intro config _
  refine safe_check_bind (fun _ => hdate) ?_
  intro _ _
  refine safe_check_bind (fun _ => hdate) ?_
  rintro ⟨sessionId, session⟩ hsession
  have hgeneration := hdate sessionId session (sessionMut_eq_ok hsession)
  refine (safe_exceptT_bind _ _).mpr ?_
  refine safe_command session (.navigate execution sessionId target) (fun _ => hdate) ?_
  refine ⟨trivial, fun reply _ => ?_⟩
  cases reply with
  | error e => exact hdate.idle fun _ => ⟨rfl, rfl⟩
  | ok _ =>
      refine (safe_exceptT_pure _).mpr (hdate.withSession ?_ ?_)
      · simp [generationIn, startsSession, navigates, hgeneration]
      · intro id hid
        refine generationIn_cons id rfl ?_
        simpa [navigates] using hid.symm

theorem observe_leaves (hdate : UpToDate worker h) :
    Safe (fun _ _ => True) ClicksCurrent (fun h' r => Leaves worker h' r)
      (worker.observe execution).run h := by
  refine safe_check_bind (fun _ => hdate) ?_
  rintro ⟨sessionId, session⟩ hsession
  refine (safe_exceptT_bind _ _).mpr ?_
  refine safe_command session (.snapshot sessionId) (fun _ => hdate) ?_
  refine ⟨trivial, fun reply _ => ?_⟩
  have hidle : UpToDate worker (⟨.snapshot sessionId, reply⟩ :: h) :=
    hdate.idle fun _ => ⟨rfl, rfl⟩
  cases reply with
  | error e => exact hidle
  | ok _ => exact (safe_exceptT_pure _).mpr hidle

/-- A click that is executed names the generation of the session. -/
theorem clicksCurrent {g : ℕ} {sessionId element : String} {session : ManagedBrowserSession}
    (hdate : UpToDate worker h) (hsession : worker.sessionMut execution = .ok (sessionId, session))
    (hg : execution.requiredU64 "generation" = .ok g) (hsame : g = session.generation) :
    ClicksCurrent h (.click execution sessionId element) := by
  refine ⟨g, hg, currentSince_of_generationIn sessionId ?_⟩
  rw [hsame]
  exact hdate sessionId session (sessionMut_eq_ok hsession)

/-- An element is found and clicked, and what comes then. -/
theorem clickFound_leaves {g : ℕ} {sessionId selector : String} {session : ManagedBrowserSession}
    {rest : BrowserM (Value × BrowserSessionWorker)} (hdate : UpToDate worker h)
    (hsession : worker.sessionMut execution = .ok (sessionId, session))
    (hg : execution.requiredU64 "generation" = .ok g) (hsame : g = session.generation)
    (hrest : ∀ h', UpToDate worker h' →
      Safe (fun _ _ => True) ClicksCurrent (fun h' r => Leaves worker h' r) rest.run h') :
    Safe (fun _ _ => True) ClicksCurrent (fun h' r => Leaves worker h' r)
      (do
        let element ← session.findCss sessionId selector
        session.command (.click execution sessionId element)
        rest : BrowserM (Value × BrowserSessionWorker)).run h := by
  refine (safe_exceptT_bind _ _).mpr (safe_findCss trivial (fun _ => hdate) fun reply r => ?_)
  have hfound : UpToDate worker (⟨.findElement sessionId selector, reply⟩ :: h) :=
    hdate.idle fun _ => ⟨rfl, rfl⟩
  cases r with
  | error e => exact hfound
  | ok element =>
      refine (safe_exceptT_bind _ _).mpr ?_
      refine safe_command session (.click execution sessionId element) (fun _ => hfound)
        ⟨clicksCurrent hfound hsession hg hsame, fun reply _ => ?_⟩
      have hclicked := hfound.idle (e := ⟨.click execution sessionId element, reply⟩)
        fun _ => ⟨rfl, rfl⟩
      cases reply with
      | error e => exact hclicked
      | ok _ => exact hrest _ hclicked

theorem click_leaves (hdate : UpToDate worker h) :
    Safe (fun _ _ => True) ClicksCurrent (fun h' r => Leaves worker h' r)
      (worker.click execution).run h := by
  refine safe_check_bind (fun _ => hdate) ?_
  intro selector _
  refine safe_check_bind (fun _ => hdate) ?_
  intro g hg
  refine safe_check_bind (fun _ => hdate) ?_
  rintro ⟨sessionId, session⟩ hsession
  refine safe_check_bind (fun _ => hdate) ?_
  intro _ hsame
  refine clickFound_leaves hdate hsession hg (not_not.mp (failIf_eq_ok.mp hsame)) ?_
  exact fun h' hdate' => (safe_exceptT_pure _).mpr hdate'

theorem download_leaves (hdate : UpToDate worker h) :
    Safe (fun _ _ => True) ClicksCurrent (fun h' r => Leaves worker h' r)
      (worker.download execution).run h := by
  refine safe_check_bind (fun _ => hdate) ?_
  intro selector _
  refine safe_check_bind (fun _ => hdate) ?_
  intro fileName _
  refine safe_check_bind (fun _ => hdate) ?_
  intro operationId _
  refine safe_check_bind (fun _ => hdate) ?_
  intro g hg
  refine safe_check_bind (fun _ => hdate) ?_
  rintro ⟨sessionId, session⟩ hsession
  refine safe_check_bind (fun _ => hdate) ?_
  intro _ hsame
  refine (safe_exceptT_bind _ _).mpr ?_
  refine safe_prepareDownload trivial (fun _ => hdate) fun reply r => ?_
  have hprepared : UpToDate worker (⟨.downloadTarget sessionId fileName, reply⟩ :: h) :=
    hdate.idle fun _ => ⟨rfl, rfl⟩
  cases r with
  | error e => exact hprepared
  | ok _ =>
      -- none of the checks sends anything, and the target is prepared before the click
      refine clickFound_leaves hprepared hsession hg (not_not.mp (failIf_eq_ok.mp hsame)) ?_
      intro h' hdate'
      refine (safe_exceptT_bind _ _).mpr ?_
      refine safe_command session (.awaitDownload sessionId operationId fileName)
        (fun _ => hdate') ⟨trivial, fun reply _ => ?_⟩
      have hawaited := hdate'.idle (e := ⟨.awaitDownload sessionId operationId fileName, reply⟩)
        fun _ => ⟨rfl, rfl⟩
      cases reply with
      | error e => exact hawaited
      | ok _ => exact (safe_exceptT_pure _).mpr hawaited

theorem close_leaves (hdate : UpToDate worker h) :
    Safe (fun _ _ => True) ClicksCurrent (fun h' r => UpToDate r.2 h')
      (worker.close execution) h := by
  rw [close]
  cases hsession : worker.sessionMut execution with
  | error e => exact (safe_done _).mpr hdate
  | ok found =>
      obtain ⟨sessionId, session⟩ := found
      refine (safe_bind _ _).mpr (safe_closeBridge trivial ?_)
      rintro h' ⟨outcome, closeState⟩ hquiet
      have hdate' : UpToDate worker h' := by
        rcases hquiet with rfl | ⟨reply, rfl⟩
        · exact hdate
        · exact hdate.idle fun _ => ⟨rfl, rfl⟩
      cases outcome with
      | error e =>
          refine (safe_done _).mpr (hdate'.withSession ?_ fun _ _ => rfl)
          exact hdate' sessionId session (sessionMut_eq_ok hsession)
      | ok _ =>
          have hforgotten := hdate'.forget sessionId
          cases hconfig : worker.config with
          | none => exact (safe_done _).mpr hforgotten
          | some config =>
              refine (safe_bind _ _).mpr ((safe_perform _).mpr ⟨trivial, fun reply _ => ?_⟩)
              exact (safe_done _).mpr (hforgotten.idle fun _ => ⟨rfl, rfl⟩)

/-- What one request leaves agrees, whatever becomes of it. -/
theorem executeApproved_leaves (hdate : UpToDate worker h) :
    Safe (fun _ _ => True) ClicksCurrent (fun h' r => UpToDate r.2 h')
      (worker.executeApproved execution) h := by
  have hkeeping : ∀ p : BrowserM (Value × BrowserSessionWorker),
      Safe (fun _ _ => True) ClicksCurrent (fun h' r => Leaves worker h' r) p.run h →
      Safe (fun _ _ => True) ClicksCurrent (fun h' r => UpToDate r.2 h') (worker.keeping p) h := by
    intro p hp
    refine (safe_map _ _).mpr (hp.mono fun h' r hr => ?_)
    cases r with
    | error e => exact hr
    | ok _ => exact hr
  rw [executeApproved]
  split_ifs
  · exact (safe_done _).mpr hdate
  · split
    case h_1 => exact (safe_done _).mpr hdate
    case h_2 =>
        split_ifs
        · exact hkeeping _ (startSession_leaves hdate)
        · exact hkeeping _ (navigate_leaves hdate)
        · exact hkeeping _ (observe_leaves hdate)
        · exact hkeeping _ (click_leaves hdate)
        · exact hkeeping _ (download_leaves hdate)
        · exact close_leaves hdate
        · exact (safe_done _).mpr hdate

/-- So does a sequence of requests. -/
theorem executeAll_leaves (executions : List ExecutionAuthorization) (hdate : UpToDate worker h) :
    Safe (fun _ _ => True) ClicksCurrent (fun h' worker' => UpToDate worker' h')
      (worker.executeAll executions) h := by
  induction executions generalizing worker h with
  | nil => exact (safe_done _).mpr hdate
  | cons execution executions ih =>
      refine (safe_bind _ _).mpr ((executeApproved_leaves hdate).mono ?_)
      rintro h' ⟨_, worker'⟩ hdate'
      exact ih hdate'

end BrowserSessionWorker

/-! ### What is executed and what is refused -/

/-- A click or a download that has all its parameters, for a session of its
owner, and names a generation. -/
structure AsksClick (worker : BrowserSessionWorker) (execution : ExecutionAuthorization)
    (session : ManagedBrowserSession) (g : ℕ) : Prop where
  action : execution.authorization.request.envelope.action = "browser.session.use"
  operation : execution.requiredStr "operation" = .ok "click" ∨
    execution.requiredStr "operation" = .ok "download" ∧
      (∃ fileName, execution.requiredStr "file_name" = .ok fileName) ∧
      ∃ operationId, execution.requiredStr "operation_id" = .ok operationId
  selector : ∃ selector, execution.requiredStr "selector" = .ok selector
  generation : execution.requiredU64 "generation" = .ok g
  session : ∃ sessionId, worker.sessionMut execution = .ok (sessionId, session)

/-- In every sequence of requests, and whatever the driver answers, a click is sent
only if it names the generation of its session, which no navigation that succeeded
has changed since it became this one. A click that names another generation is
refused as stale, and nothing is sent. -/
theorem clicks_current (config : Option BrowserWorkerConfig)
    (executions : List ExecutionAuthorization) :
    Safe (fun _ _ => True) ClicksCurrent (fun _ _ => True)
      (BrowserSessionWorker.executeAll ⟨config, ∅⟩ executions) [] ∧
    ∀ (worker : BrowserSessionWorker) (execution : ExecutionAuthorization)
      (session : ManagedBrowserSession) (g : ℕ), AsksClick worker execution session g →
      g ≠ session.generation →
        worker.executeApproved execution = .done (.error .staleElement, worker) := by
  constructor
  · have hempty : UpToDate ⟨config, ∅⟩ [] := by
      intro sessionId session hfound
      simp at hfound
    exact (BrowserSessionWorker.executeAll_leaves executions hempty).mono fun _ _ _ => trivial
  · intro worker execution session g hasks hstale
    obtain ⟨selector, hselector⟩ := hasks.selector
    obtain ⟨sessionId, hsession⟩ := hasks.session
    -- an operation that fails before it asks for anything leaves the worker as it was
    have hkeeping : ∀ p : BrowserM (Value × BrowserSessionWorker),
        p.run = .done (.error .staleElement) →
          worker.keeping p = .done (.error .staleElement, worker) := by
      intro p hp
      rw [BrowserSessionWorker.keeping, hp]
      rfl
    rw [BrowserSessionWorker.executeApproved, if_neg (not_not.mpr hasks.action)]
    rcases hasks.operation with hclick | ⟨hdownload, ⟨fileName, hfile⟩, operationId, hid⟩
    · rw [hclick]
      refine hkeeping (worker.click execution) ?_
      rw [BrowserSessionWorker.click, hselector, hasks.generation, hsession]
      change ExceptT.run
        (check (failIf (g ≠ session.generation) BrowserError.staleElement) >>= _) = _
      rw [failIf_of_true hstale]
      rfl
    · rw [hdownload]
      refine hkeeping (worker.download execution) ?_
      rw [BrowserSessionWorker.download, hselector, hfile, hid, hasks.generation, hsession]
      change ExceptT.run
        (check (failIf (g ≠ session.generation) BrowserError.staleElement) >>= _) = _
      rw [failIf_of_true hstale]
      rfl

/-! ### Clicks after clicks -/

section Fresh

variable (sessionId : String)

/-- The commands that may change the page of a session. -/
def changesPage : BrowserOp → Bool
  | .navigate _ id _ => id = sessionId
  | .click _ id _ => id = sessionId
  | _ => false

/-- What a session shows has been reported. -/
def observes : Event Browser → Bool
  | ⟨.snapshot id, .ok _⟩ => id = sessionId
  | _ => false

/-- The generation became `g`, or was reported as `g` with what the page shows, and
no command that may change the page has been sent since. -/
def FreshSince (h : History Browser) (g : ℕ) : Prop :=
  ∃ later e earlier, h = later ++ e :: earlier ∧
    (startsSession sessionId e = true ∨ navigates sessionId e = true ∨
      observes sessionId e = true) ∧
    generationIn sessionId (e :: earlier) = some g ∧
    ∀ e' ∈ later, changesPage sessionId e'.op = false

end Fresh

/-- What a click would be guaranteed if it changed the generation. -/
def ClicksFresh : History Browser → BrowserOp → Prop
  | h, .click execution sessionId _ =>
      ∃ g, execution.requiredU64 "generation" = .ok g ∧ FreshSince sessionId h g
  | _, _ => True

theorem BrowserOp.call_path (op : BrowserOp) (result : op.Result) :
    Path op.call.run [⟨op, .ok result⟩] (.done (.ok result)) :=
  Path.cons (I := Browser) (Except.ok result) .nil

namespace ManagedBrowserSession

variable {session : ManagedBrowserSession}

/-- A command to an open session that succeeds. -/
theorem command_path (hopened : session.closeState = .opened) (op : BrowserOp)
    (result : op.Result) :
    Path (session.command op).run [⟨op, .ok result⟩] (.done (.ok result)) := by
  have hopen : session.ensureOpen = .ok () := by rw [ensureOpen, hopened]
  rw [command, hopen]
  exact op.call_path result

theorem findCss_path (hopened : session.closeState = .opened) (sessionId selector : String)
    {value : Value} {element : String} (helement : elementId value = some element) :
    Path (session.findCss sessionId selector).run [⟨.findElement sessionId selector, .ok value⟩]
      (.done (.ok element)) := by
  have hread : Path (check (orFail (elementId value)
      (BrowserError.other "WebDriver response is missing field: web element id")) :
        BrowserM String).run [] (.done (.ok element)) := Path.check (orFail_eq_ok.mpr helement)
  rw [findCss]
  refine Path.exceptT_bind (command_path hopened (.findElement sessionId selector) value)
    (?_ : Path _ [] _)
  exact hread

end ManagedBrowserSession

namespace BrowserSessionWorker

variable {worker : BrowserSessionWorker} {execution : ExecutionAuthorization}
  {session : ManagedBrowserSession}

/-- A click of the generation of its session is executed, as long as the driver
answers. -/
theorem click_path {g : ℕ} {sessionId selector element : String} {value : Value}
    (haction : execution.authorization.request.envelope.action = "browser.session.use")
    (hoperation : execution.requiredStr "operation" = .ok "click")
    (hselector : execution.requiredStr "selector" = .ok selector)
    (hg : execution.requiredU64 "generation" = .ok g)
    (hsession : worker.sessionMut execution = .ok (sessionId, session))
    (hsame : g = session.generation) (hopened : session.closeState = .opened)
    (helement : elementId value = some element) :
    ∃ r, Path (worker.executeApproved execution)
      [⟨.click execution sessionId element, .ok ()⟩, ⟨.findElement sessionId selector, .ok value⟩]
      (.done (r, worker)) := by
  have hclick : ∃ v, Path (worker.click execution).run
      [⟨.click execution sessionId element, .ok ()⟩, ⟨.findElement sessionId selector, .ok value⟩]
      (.done (.ok (v, worker))) := by
    rw [click, hselector, hg, hsession]
    change ∃ v, Path (ExceptT.run (check (failIf (g ≠ session.generation)
      BrowserError.staleElement) >>= _)) _ _
    rw [failIf_of_false (not_not.mpr hsame)]
    have hsend := session.command_path hopened (.click execution sessionId element) ()
    refine ⟨jsonObject [("session_id", .string sessionId),
      ("generation", .posInt session.generation), ("clicked", .bool true)], ?_⟩
    change Path (ExceptT.run (session.findCss sessionId selector >>= _)) ([_] ++ [_]) _
    exact Path.exceptT_bind (session.findCss_path hopened sessionId selector helement)
      (Path.exceptT_bind hsend .nil)
  obtain ⟨v, hclick⟩ := hclick
  refine ⟨.ok v, ?_⟩
  rw [executeApproved, if_neg (not_not.mpr haction), hoperation]
  exact hclick.map _

/-- A session is started where the driver can be. -/
theorem start_path {config : BrowserWorkerConfig} {sessionId root : String}
    (haction : execution.authorization.request.envelope.action = "browser.session.use")
    (hoperation : execution.requiredStr "operation" = .ok "start")
    (hconfig : worker.config = some config)
    (hid : opaqueSessionId execution.authorization.request.envelopeDigest = sessionId)
    (hnew : worker.sessions.contains sessionId = false)
    (hsafe : isSingleSafeComponent sessionId = true) :
    ∃ r, Path (worker.executeApproved execution)
      [⟨.launch config sessionId root, .ok ()⟩, ⟨.allocateRoot config.labRoot sessionId, .ok root⟩]
      (.done (r, worker.withSession sessionId ⟨execution.browserOwner, .opened, 0, root⟩)) := by
  subst hid
  let sessionId := opaqueSessionId execution.authorization.request.envelopeDigest
  let answer := jsonObject [("session_id", .string sessionId), ("generation", .posInt 0)]
  have hstart : Path (worker.startSession execution).run
      [⟨.launch config sessionId root, .ok ()⟩, ⟨.allocateRoot config.labRoot sessionId, .ok root⟩]
      (.done (.ok (answer,
        worker.withSession sessionId ⟨execution.browserOwner, .opened, 0, root⟩))) := by
    rw [startSession, hconfig, orFail_some]
    change Path (ExceptT.run (check (failIf (worker.sessions.contains sessionId = true)
      (BrowserError.other "browser session already exists")) >>= _)) _ _
    rw [failIf_of_false (Bool.eq_false_iff.mp hnew)]
    change Path (ExceptT.run (check (failIf (isSingleSafeComponent sessionId = false)
      (BrowserError.other "browser session id is not a safe storage component")) >>= _)) _ _
    rw [failIf_of_false (by rw [hsafe]; decide)]
    -- the root is allocated and the browser launched, and each of the two succeeds
    have hallocate : Path (BrowserOp.allocateRoot config.labRoot sessionId).call.run
        [⟨.allocateRoot config.labRoot sessionId, .ok root⟩] (.done (.ok root)) :=
      BrowserOp.call_path (.allocateRoot config.labRoot sessionId) root
    have hlaunch : Path (launchOrRemove config sessionId root).run
        [⟨.launch config sessionId root, .ok ()⟩] (.done (.ok ())) := by
      have hperformed : Path (perform (I := Browser) (.launch config sessionId root))
          [⟨.launch config sessionId root, .ok ()⟩] (.done (.ok ())) := Path.perform _
      exact hperformed.bind .nil
    change Path (ExceptT.run ((BrowserOp.allocateRoot config.labRoot sessionId).call >>= _))
      ([_] ++ [_]) _
    exact Path.exceptT_bind hallocate (Path.exceptT_bind hlaunch .nil)
  refine ⟨.ok answer, ?_⟩
  rw [executeApproved, if_neg (not_not.mpr haction), hoperation]
  exact hstart.map _

/-- Requests after one that has been executed. -/
theorem executeAll_path {worker' : BrowserSessionWorker} {executions : List ExecutionAuthorization}
    {r : Except BrowserError Value} {h h' : History Browser}
    {q : Program Browser BrowserSessionWorker}
    (path : Path (worker.executeApproved execution) h (.done (r, worker')))
    (rest : Path (worker'.executeAll executions) h' q) :
    Path (worker.executeAll (execution :: executions)) (h' ++ h) q :=
  path.bind rest

end BrowserSessionWorker

namespace BrowserSample

def config : BrowserWorkerConfig :=
  ⟨"geckodriver.exe", "firefox.exe", "C:\\lab", "http://localhost"⟩

/-- A request with some parameters, approved. -/
def execution (parameters : Parameters) : ExecutionAuthorization where
  authorization :=
    { request :=
        { envelope :=
            { requestId := "request", organizationId := "local", actorId := "agent"
              deviceId := "device", action := "browser.session.use", target := "browser"
              parameters, requestedCapabilities := [], expiresAtUnixMs := 1000
              nonce := List.replicate 16 7 }
          envelopeDigest := Vector.replicate 32 0 }
      decision :=
        { requestId := "request", envelopeDigest := Vector.replicate 32 0, kind := .approval
          policyId := "sample", reasonCode := "browser", requiredCapability := none } }
  approverId := "approver"
  approvalExpiresAtUnixMs := 1000

def sessionId : String := opaqueSessionId (Vector.replicate 32 0)

/-- The start of a session. -/
def starting : ExecutionAuthorization := execution (.ofList [("operation", Value.string "start")])

/-- A click on the first page. -/
def clicking : ExecutionAuthorization :=
  execution (.ofList
    [("generation", Value.posInt 0), ("operation", Value.string "click"),
     ("selector", Value.string "a"), ("session_id", Value.string sessionId)])

/-- The session as it is started. -/
def started : ManagedBrowserSession := ⟨starting.browserOwner, .opened, 0, "C:\\lab\\s"⟩

def worker : BrowserSessionWorker :=
  (⟨some config, ∅⟩ : BrowserSessionWorker).withSession sessionId started

theorem clicking_session : worker.sessionMut clicking = .ok (sessionId, started) := by
  decide

/-- The session after a navigation. -/
def navigated : BrowserSessionWorker :=
  (⟨some config, ∅⟩ : BrowserSessionWorker).withSession sessionId { started with generation := 1 }

/-- A driver that finds an element. -/
def found : Value := .object [(webElementKey, .string "e")]

end BrowserSample

open BrowserSample in
/-- A click on the page before a navigation is refused. -/
theorem clicks_current_navigated :
    navigated.executeApproved clicking = .done (.error .staleElement, navigated) := by
  refine (clicks_current none []).2 navigated clicking { started with generation := 1 } 0 ?_ ?_
  · exact
      { action := rfl
        operation := Or.inl (by decide)
        selector := ⟨"a", by decide⟩
        generation := by decide
        session := ⟨sessionId, by decide⟩ }
  · decide

open BrowserSample BrowserSessionWorker in
/-- A second click is sent although the first may have changed the page. -/
theorem click_after_click :
    ¬ ∀ (config : Option BrowserWorkerConfig) (executions : List ExecutionAuthorization),
      Safe (fun _ _ => True) ClicksFresh (fun _ _ => True)
        (executeAll ⟨config, ∅⟩ executions) [] := by
  intro h
  have hsafe := h (some config) [starting, clicking, clicking]
  have hstart : ∃ r, Path (executeApproved ⟨some config, ∅⟩ starting)
      [⟨.launch config sessionId "C:\\lab\\s", .ok ()⟩,
       ⟨.allocateRoot config.labRoot sessionId, .ok "C:\\lab\\s"⟩] (.done (r, worker)) :=
    start_path rfl (by decide) rfl rfl (by decide) (by decide)
  have hclick : ∃ r, Path (worker.executeApproved clicking)
      [⟨.click clicking sessionId "e", .ok ()⟩, ⟨.findElement sessionId "a", .ok found⟩]
      (.done (r, worker)) := by
    have hselector : clicking.requiredStr "selector" = .ok "a" := by decide
    have hgeneration : clicking.requiredU64 "generation" = .ok 0 := by decide
    have hfound : elementId found = some "e" := by decide
    exact click_path rfl (by decide) hselector hgeneration clicking_session rfl rfl hfound
  obtain ⟨_, hstart⟩ := hstart
  obtain ⟨_, hclick⟩ := hclick
  have hlast : Path (worker.executeAll [clicking]) _ _ := executeAll_path hclick .nil
  have hpath := executeAll_path hstart (executeAll_path hclick hlast)
  have hhead : Path (executeAll ⟨some config, ∅⟩ [starting, clicking, clicking])
      ([] ++ ⟨.click clicking sessionId "e", .ok ()⟩ :: ⟨.findElement sessionId "a", .ok found⟩ ::
        ⟨.click clicking sessionId "e", .ok ()⟩ :: _) _ := hpath
  have hsecond := hhead.guarantee hsafe ⟨trivial, trivial, trivial, trivial, trivial, trivial⟩
  obtain ⟨_, _, later, e, earlier, hsplit, hevent, _, hlater⟩ := hsecond
  -- the query and the first click report nothing, so the click is among what came later
  match later, hsplit with
  | [], hsplit =>
      obtain ⟨rfl, _⟩ := List.cons.inj hsplit
      revert hevent
      decide
  | [_], hsplit =>
      obtain ⟨rfl, _⟩ := List.cons.inj (List.cons.inj hsplit).2
      revert hevent
      decide
  | _ :: e' :: _, hsplit =>
      obtain ⟨rfl, _⟩ := List.cons.inj (List.cons.inj hsplit).2
      have hquiet := hlater _ (List.mem_cons_of_mem _ List.mem_cons_self)
      revert hquiet
      decide

end VorCommander
