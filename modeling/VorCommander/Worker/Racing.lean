import VorCommander.Steps.Pool
import VorCommander.Worker.Progress

/-!
Writes of one target at the same time.

A write looks at its target a second time once its content is staged, and replaces it
some steps later, by name. Other writes and other programs move in between. What a
write may rely on is that nobody changes its target between that look and the
replacement; then it replaces what it was told to expect.
-/

namespace VorCommander

open Crypto Steps Steps.Program Text WindowsPath Files

/-! ### Looking and replacing -/

/-- Operations may have any outcome. -/
abbrev AnyOutcome (_ : History Files) (_ : Event Files) : Prop := True

/-- A file was synced. -/
def isSync : Event Files → Bool
  | ⟨.sync _, .ok _⟩ => true
  | _ => false

/-- What a write has last seen where, once it has synced a file. Where `exists` has no
answer it takes it that there is nothing. -/
def lastLook : History Files → Option (String × Option (List UInt8))
  | [] => none
  | ⟨.probe path, .ok false⟩ :: h => if h.any isSync then some (path, none) else none
  | ⟨.probe path, .error _⟩ :: h => if h.any isSync then some (path, none) else none
  | ⟨.read path, .ok content⟩ :: h => if h.any isSync then some (path, some content) else none
  | _ :: h => lastLook h

theorem lastLook_cons {e : Event Files} (h : History Files) (hasks : e.op.asks = false) :
    lastLook (e :: h) = lastLook h := by
  obtain ⟨op, reply⟩ := e
  cases op <;> first | rfl | cases hasks

namespace FsWorker

variable (P : Primitives) (worker : FsWorker) (request : ActionRequest)

/-- The operation replaces the target of a write, not its journal. -/
def Replaces (op : FileOp) (target : String) : Prop :=
  ∃ source, op = .rename source target ∧
    source ≠ join worker.journalDir (request.digestHex ++ ".json.tmp")

/-- A write has looked at its target, has found what it expects, and has not replaced
it yet. -/
def Checked (expected : TargetPrecondition) (h : History Files) (target : String) : Prop :=
  (∃ found, lastLook h = some (target, found) ∧ Meets P (some expected) found) ∧
    ∀ e ∈ h, ¬ worker.Replaces request e.op target

variable {P worker request} {expected : TargetPrecondition} {h : History Files}
  {target : String} {t : Transaction} {content : List UInt8}

/-- An operation that neither looks nor replaces. -/
theorem Checked.cons {e : Event Files} (hc : worker.Checked P request expected h target)
    (hasks : e.op.asks = false) (hreplaces : ¬ worker.Replaces request e.op target) :
    worker.Checked P request expected (e :: h) target := by
  obtain ⟨⟨found, hlook, hmeets⟩, hbefore⟩ := hc
  refine ⟨⟨found, (lastLook_cons h hasks).trans hlook, hmeets⟩, ?_⟩
  intro e' he'
  rcases List.mem_cons.mp he' with rfl | he'
  · exact hreplaces
  · exact hbefore e' he'

/-- Only what has been checked is replaced. -/
def ReplacesChecked (P : Primitives) (worker : FsWorker) (authorization : Authorization)
    (h : History Files) (op : FileOp) : Prop :=
  ∀ target, worker.Replaces authorization.request op target →
    ∃ expected, authorization.requiredTargetPrecondition = .ok expected ∧
      worker.Checked P authorization.request expected h target

theorem not_replaces {op : FileOp} (hop : ∀ source path, op ≠ .rename source path)
    (target : String) : ¬ worker.Replaces request op target := by
  rintro ⟨source, heq, -⟩
  exact hop source target heq

theorem not_replaces_of_asks {op : FileOp} (hasks : op.asks = true) (target : String) :
    ¬ worker.Replaces request op target := by
  apply not_replaces
  rintro source path rfl
  cases hasks

/-- The journal is not a target. -/
theorem not_replaces_journal (directory path target : String) :
    ¬ worker.Replaces request
      (.rename (worker.transaction request directory).journalTemp path) target := by
  rintro ⟨source, heq, hsource⟩
  obtain ⟨rfl, -⟩ := FileOp.rename.inj heq
  exact hsource rfl

theorem replacesChecked_of_not {authorization : Authorization} {op : FileOp}
    (hop : ∀ target, ¬ worker.Replaces authorization.request op target) :
    ReplacesChecked P worker authorization h op :=
  fun target hreplaces => absurd hreplaces (hop target)

/-! ### The parts of a write -/

/-- Nothing has been replaced yet. -/
def Before (worker : FsWorker) (request : ActionRequest) (h : History Files) : Prop :=
  ∀ e ∈ h, ∀ target, ¬ worker.Replaces request e.op target

theorem before_nil : Before worker request [] := fun _ he => absurd he List.not_mem_nil

theorem Before.append {added : History Files} (hb : Before worker request h)
    (hadded : ∀ e ∈ added, ∀ target, ¬ worker.Replaces request e.op target) :
    Before worker request (added ++ h) := by
  intro e he
  rcases List.mem_append.mp he with he | he
  · exact hadded e he
  · exact hb e he

theorem Before.cons {e : Event Files} (hb : Before worker request h)
    (he : ∀ target, ¬ worker.Replaces request e.op target) : Before worker request (e :: h) := by
  intro e' he'
  rcases List.mem_cons.mp he' with rfl | he'
  · exact he
  · exact hb e' he'

section Asking

variable {G : History Files → FileOp → Prop}

theorem safe_ask (op : FileOp) {Q : History Files → op.Reply → Prop} :
    Safe AnyOutcome G Q (call op).run h ↔
      G h op ∧ ∀ reply, Q (⟨op, reply⟩ :: h) reply := by
  rw [call, safe_attempt]
  refine (safe_perform (I := Files) op).trans (and_congr_right fun _ => ?_)
  exact forall_congr' fun _ => forall_prop_of_true trivial

theorem safe_pathExists {path : String} {Q : History Files → Except FsError Bool → Prop} :
    Safe AnyOutcome G Q (pathExists path).run h ↔
      G h (.probe path) ∧ ∀ reply : Except FsError Bool,
        Q (⟨.probe path, reply⟩ :: h) (.ok (reply.toOption.getD false)) := by
  rw [pathExists, safe_exceptT_lift, safe_map]
  refine (safe_perform (I := Files) (.probe path)).trans (and_congr_right fun _ => ?_)
  exact forall_congr' fun _ => forall_prop_of_true trivial

end Asking

/-- Finding the target is asking. -/
theorem resolve_asks (requested : String) :
    Safe AnyOutcome (fun _ op => op.asks = true) (fun _ _ => True)
      (worker.resolveWriteTarget requested).run h := by
  have hcanonical : ∀ path, ∀ h, Safe AnyOutcome (fun _ op => op.asks = true) (fun _ _ => True)
      (call (.canonicalize path)).run h := fun path h => (safe_ask _).mpr ⟨rfl, fun _ => trivial⟩
  rw [resolveWriteTarget, safe_exceptT_bind, safe_check, then_iff]
  refine ⟨fun _ _ => trivial, fun _ _ => ?_⟩
  rw [safe_exceptT_bind]
  refine (safe_ask (.lookup requested)).mpr ⟨rfl, fun reply => ?_⟩
  rw [then_iff]
  refine ⟨fun _ _ => trivial, fun found _ => ?_⟩
  cases found with
  | true =>
      rw [if_pos rfl, safe_exceptT_bind]
      refine (hcanonical requested _).mono fun h' r _ => ?_
      rw [then_iff]
      refine ⟨fun _ _ => trivial, fun resolved _ => ?_⟩
      rw [safe_exceptT_bind, safe_check, then_iff]
      exact ⟨fun _ _ => trivial, fun _ _ => (safe_exceptT_pure _).mpr trivial⟩
  | false =>
      rw [if_neg Bool.false_ne_true, safe_exceptT_bind, safe_check, then_iff]
      refine ⟨fun _ _ => trivial, fun directory _ => ?_⟩
      rw [safe_exceptT_bind, safe_check, then_iff]
      refine ⟨fun _ _ => trivial, fun name _ => ?_⟩
      rw [safe_exceptT_bind]
      refine (hcanonical directory _).mono fun h' r _ => ?_
      rw [then_iff]
      refine ⟨fun _ _ => trivial, fun resolved _ => ?_⟩
      rw [safe_exceptT_bind, safe_check, then_iff]
      exact ⟨fun _ _ => trivial, fun _ _ => (safe_exceptT_pure _).mpr trivial⟩

/-- Looking at the target is asking. What has been seen after a sync is what was to be
expected. -/
theorem verify_asks (expected : TargetPrecondition) :
    Safe AnyOutcome (fun _ op => op.asks = true)
      (fun h' r => r = .ok () → h.any isSync = true →
        ∃ found, lastLook h' = some (target, found) ∧ Meets P (some expected) found)
      (verifyIfRequired P target (some expected)).run h := by
  cases expected with
  | absent =>
      rw [verifyIfRequired, verifyTargetPrecondition, safe_exceptT_bind]
      refine safe_pathExists.mpr ⟨rfl, fun reply => ?_⟩
      rw [then_ok, safe_check]
      intro hok hsync
      refine ⟨none, ?_, rfl⟩
      cases reply with
      | error e => exact if_pos hsync
      | ok found =>
          rw [failIf_eq_ok] at hok
          obtain rfl : found = false := by simpa [Except.toOption] using hok
          exact if_pos hsync
  | sha256 digest =>
      rw [verifyIfRequired, verifyTargetPrecondition, safe_exceptT_bind]
      refine safe_pathExists.mpr ⟨rfl, fun reply => ?_⟩
      rw [then_ok]
      refine safe_check_bind (fun e hok => by cases hok) fun _ _ => ?_
      rw [safe_exceptT_bind]
      refine (safe_ask (.read target)).mpr ⟨rfl, fun reply => ?_⟩
      cases reply with
      | error e => exact fun hok => by cases hok
      | ok content =>
          rw [then_ok, safe_check]
          intro hok hsync
          have hmeets : eqIgnoreAsciiCase (sha256Hex P content) digest = true := by simpa using hok
          exact ⟨some content, if_pos hsync, content, rfl, hmeets⟩

section Parts

variable {authorization : Authorization} {directory : String}

/-- A part that only asks. -/
theorem Before.of_asks {α : Type} {p : FileM α} {Q : History Files → Except FsError α → Prop}
    (hb : Before worker authorization.request h)
    (hp : Safe AnyOutcome (fun _ op => op.asks = true) Q p.run h) :
    Safe AnyOutcome (ReplacesChecked P worker authorization)
      (fun h' r => Before worker authorization.request h' ∧ Q h' r) p.run h := by
  refine (hp.performs.guarantee ?_).mono ?_
  · exact fun h' op hasks => replacesChecked_of_not (not_replaces_of_asks hasks)
  · rintro h' r ⟨hQ, added, rfl, hadded⟩
    exact ⟨hb.append fun e he => not_replaces_of_asks (hadded e he), hQ⟩

/-- An operation that replaces no target keeps what such operations keep. -/
theorem safe_still {K : History Files → Prop} (op : FileOp) (hh : K h)
    (hK : ∀ reply : op.Reply, K h → K (⟨op, reply⟩ :: h))
    (hop : ∀ target, ¬ worker.Replaces authorization.request op target) :
    Safe AnyOutcome (ReplacesChecked P worker authorization) (fun h' _ => K h') (call op).run h :=
  (safe_ask op).mpr ⟨replacesChecked_of_not hop, fun reply => hK reply hh⟩

/-- What operations keep that neither look nor replace. -/
def Kept (worker : FsWorker) (request : ActionRequest) (K : History Files → Prop) : Prop :=
  ∀ e h, e.op.asks = false → (∀ target, ¬ worker.Replaces request e.op target) →
    K h → K (e :: h)

theorem safe_persistJournal {K : History Files → Prop} {record : JournalRecord}
    (hK : Kept worker authorization.request K) (hh : K h) :
    Safe AnyOutcome (ReplacesChecked P worker authorization) (fun h' _ => K h')
      (persistJournal (worker.transaction authorization.request directory) record).run h := by
  set t := worker.transaction authorization.request directory with ht
  have hstep : ∀ op h, op.asks = false →
      (∀ target, ¬ worker.Replaces authorization.request op target) → K h →
      Safe AnyOutcome (ReplacesChecked P worker authorization) (fun h' _ => K h')
        (call op).run h := by
    intro op h hasks hop hh
    exact safe_still op hh (fun reply => hK ⟨op, reply⟩ h hasks hop) hop
  rw [persistJournal, safe_exceptT_bind]
  refine (hstep (.createTruncated t.journalTemp) h rfl (not_replaces (by simp)) hh).mono ?_
  intro h r hh
  rw [then_iff]
  refine ⟨fun _ _ => hh, fun _ _ => ?_⟩
  rw [safe_exceptT_bind]
  refine (hstep (.write t.journalTemp record.bytes) h rfl (not_replaces (by simp)) hh).mono ?_
  intro h r hh
  rw [then_iff]
  refine ⟨fun _ _ => hh, fun _ _ => ?_⟩
  rw [safe_exceptT_bind]
  refine (hstep (.sync t.journalTemp) h rfl (not_replaces (by simp)) hh).mono ?_
  intro h r hh
  rw [then_iff]
  refine ⟨fun _ _ => hh, fun _ _ => ?_⟩
  exact hstep (.rename t.journalTemp t.journal) h rfl (not_replaces_journal directory _) hh

/-- The content is staged by syncing a file. -/
theorem safe_stage (hb : Before worker authorization.request h) (tempPath : String) :
    Safe AnyOutcome (ReplacesChecked P worker authorization)
      (fun h' r => Before worker authorization.request h' ∧ (r = .ok () → h'.any isSync = true))
      (stage tempPath content).run h := by
  have hstep : ∀ op h, (∀ source path, op ≠ .rename source path) →
      Before worker authorization.request h →
      Safe AnyOutcome (ReplacesChecked P worker authorization)
        (fun h' _ => Before worker authorization.request h') (call op).run h := by
    intro op h hop hb
    refine safe_still op hb (fun reply hb => ?_) (not_replaces hop)
    exact hb.cons (e := ⟨op, reply⟩) (not_replaces hop)
  rw [stage, safe_exceptT_bind]
  refine (hstep (.createNew tempPath) h (by simp) hb).mono fun h r hb => ?_
  rw [then_iff]
  refine ⟨fun _ _ => ⟨hb, fun hok => by cases hok⟩, fun _ _ => ?_⟩
  rw [safe_exceptT_bind]
  refine (hstep (.write tempPath content) h (by simp) hb).mono fun h r hb => ?_
  rw [then_iff]
  refine ⟨fun _ _ => ⟨hb, fun hok => by cases hok⟩, fun _ _ => ?_⟩
  refine (safe_ask (.sync tempPath)).mpr ⟨replacesChecked_of_not (not_replaces (by simp)), ?_⟩
  intro reply
  refine ⟨hb.cons (e := ⟨.sync tempPath, reply⟩) (not_replaces (by simp)), ?_⟩
  rintro rfl
  rfl

/-- The second look. -/
theorem safe_verifyAgain (hb : Before worker authorization.request h)
    (hsync : h.any isSync = true) (tempPath : String) :
    Safe AnyOutcome (ReplacesChecked P worker authorization)
      (fun h' r => r = .ok () → worker.Checked P authorization.request expected h' target)
      (verifyAgain P target tempPath (some expected)).run h := by
  rw [verifyAgain, safe_attempt, safe_bind]
  refine (hb.of_asks (verify_asks expected)).mono ?_
  rintro h' r ⟨hb, hlook⟩
  cases r with
  | ok _ => exact (safe_done _).mpr fun _ => ⟨hlook rfl hsync, fun e he => hb e he target⟩
  | error e =>
      rw [safe_map, cleanUpTempAfterError, safe_map]
      refine (safe_perform (I := Files) (.remove tempPath)).mpr ?_
      exact ⟨replacesChecked_of_not (not_replaces (by simp)), fun _ _ hok => by cases hok⟩

theorem kept_checked : Kept worker authorization.request
    (worker.Checked P authorization.request expected · target) :=
  fun _ _ hasks hreplaces hc => hc.cons hasks (hreplaces target)

/-- Nothing that a write does between the second look and the replacement is a look or
a replacement. -/
theorem safe_backUp (hc : worker.Checked P authorization.request expected h target) :
    (backupPath : Option String) →
    Safe AnyOutcome (ReplacesChecked P worker authorization)
      (fun h' _ => worker.Checked P authorization.request expected h' target)
      (backUp target backupPath).run h
  | none => (safe_exceptT_pure _).mpr hc
  | some backup => by
      rw [backUp, safe_exceptT_bind]
      refine (safe_still (K := (worker.Checked P authorization.request expected · target))
        (.copy target backup) hc (fun reply => ?_) (not_replaces (by simp))).mono fun h r hc => ?_
      · exact kept_checked ⟨.copy target backup, reply⟩ h rfl (not_replaces (by simp))
      rw [then_iff]
      refine ⟨fun _ _ => hc, fun _ _ => ?_⟩
      refine safe_still (K := (worker.Checked P authorization.request expected · target))
        (.sync backup) hc (fun reply => ?_) (not_replaces (by simp))
      exact kept_checked ⟨.sync backup, reply⟩ h rfl (not_replaces (by simp))

/-- A write has replaced its target. -/
def HasReplaced (worker : FsWorker) (request : ActionRequest) (h : History Files)
    (target : String) : Prop :=
  ∃ source, ⟨.rename source target, .ok ()⟩ ∈ h ∧
    worker.Replaces request (.rename source target) target

theorem HasReplaced.cons {e : Event Files} (hr : HasReplaced worker request h target) :
    HasReplaced worker request (e :: h) target := by
  obtain ⟨source, hmem, hreplaces⟩ := hr
  exact ⟨source, List.mem_cons_of_mem _ hmem, hreplaces⟩

/-- A write that has returned a receipt has replaced the target it names. -/
def ReturnsReplaced (worker : FsWorker) (request : ActionRequest) (h : History Files)
    (r : Except FsError WriteReceipt) : Prop :=
  ∀ receipt, r = .ok receipt → HasReplaced worker request h receipt.target

theorem returnsReplaced_error (e : FsError) : ReturnsReplaced worker request h (.error e) := by
  intro receipt hok
  cases hok

theorem safe_confirm {record : JournalRecord}
    (hr : HasReplaced worker authorization.request h target) :
    Safe AnyOutcome (ReplacesChecked P worker authorization)
      (ReturnsReplaced worker authorization.request)
      (confirm P target (worker.transaction authorization.request directory) record).run h := by
  have hkept : Kept worker authorization.request
      (HasReplaced worker authorization.request · target) := fun e h _ _ hr => hr.cons
  rw [confirm, safe_exceptT_bind]
  refine (safe_persistJournal hkept hr).mono fun h r hr => ?_
  refine then_of_ok returnsReplaced_error fun _ _ => ?_
  rw [safe_exceptT_bind]
  refine (safe_ask (.read target)).mpr ⟨replacesChecked_of_not (not_replaces (by simp)), ?_⟩
  intro reply
  have hr := hr.cons (e := ⟨.read target, reply⟩)
  refine then_of_ok returnsReplaced_error fun written _ => ?_
  refine safe_check_bind returnsReplaced_error fun _ _ => ?_
  rw [safe_exceptT_bind]
  refine (safe_persistJournal hkept hr).mono fun h r hr => ?_
  refine then_of_ok returnsReplaced_error fun _ _ => (safe_exceptT_pure _).mpr ?_
  intro receipt hok
  obtain rfl := Except.ok.inj hok
  exact hr

/-- A write replaces what it has looked at. -/
theorem safe_replaceTarget {record : JournalRecord}
    (hexpected : authorization.requiredTargetPrecondition = .ok expected)
    (hc : worker.Checked P authorization.request expected h target) :
    Safe AnyOutcome (ReplacesChecked P worker authorization)
      (ReturnsReplaced worker authorization.request)
      (replaceTarget P target (worker.transaction authorization.request directory) record).run
      h := by
  set t := worker.transaction authorization.request directory with ht
  rw [replaceTarget, safe_exceptT_bind]
  refine (safe_persistJournal kept_checked hc).mono fun h r hc => ?_
  refine then_of_ok returnsReplaced_error fun _ _ => ?_
  rw [safe_exceptT_bind]
  refine (safe_ask (.rename t.temp target)).mpr ⟨?_, fun reply => ?_⟩
  · rintro target' ⟨source, heq, -⟩
    obtain ⟨-, rfl⟩ := FileOp.rename.inj heq
    exact ⟨expected, hexpected, hc⟩
  refine then_of_ok returnsReplaced_error fun _ hok => ?_
  obtain rfl : reply = .ok () := hok
  have hne : t.temp ≠ t.journalTemp := by
    have hnodup := worker.transaction_nodup authorization.request directory
    simp only [Transaction.paths, List.nodup_cons, List.mem_cons, not_or] at hnodup
    exact hnodup.1.2.1
  exact safe_confirm ⟨t.temp, List.mem_cons_self, t.temp, rfl, hne⟩

theorem safe_writeTarget (hexpected : authorization.requiredTargetPrecondition = .ok expected)
    (hb : Before worker authorization.request h) :
    Safe AnyOutcome (ReplacesChecked P worker authorization)
      (ReturnsReplaced worker authorization.request)
      (writeTarget P authorization content (some expected) target
        (worker.transaction authorization.request directory)).run h := by
  set t := worker.transaction authorization.request directory with ht
  have hprobe : ∀ path, ∀ h, Safe AnyOutcome (fun _ op => op.asks = true) (fun _ _ => True)
      (pathExists path).run h := fun path h => safe_pathExists.mpr ⟨rfl, fun _ => trivial⟩
  rw [writeTarget, safe_exceptT_bind]
  refine (hb.of_asks (hprobe target h)).mono ?_
  rintro h r ⟨hb, -⟩
  refine then_of_ok returnsReplaced_error fun found _ => ?_
  rw [safe_exceptT_bind]
  have hleftOver : Safe AnyOutcome (fun _ op => op.asks = true) (fun _ _ => True)
      (transactionExists t).run h := by
    rw [transactionExists, safe_exceptT_bind]
    refine (hprobe t.temp h).mono fun h r _ => ?_
    rw [then_iff]
    refine ⟨fun _ _ => trivial, fun found _ => ?_⟩
    cases found with
    | true => exact (safe_exceptT_pure _).mpr trivial
    | false => exact hprobe t.journal h
  refine (hb.of_asks hleftOver).mono ?_
  rintro h r ⟨hb, -⟩
  refine then_of_ok returnsReplaced_error fun leftOver _ => ?_
  refine safe_check_bind returnsReplaced_error fun _ _ => ?_
  rw [safe_exceptT_bind]
  refine (safe_stage hb t.temp).mono ?_
  rintro h r ⟨hb, hsync⟩
  refine then_of_ok returnsReplaced_error fun _ hstaged => ?_
  rw [safe_exceptT_bind]
  refine (safe_verifyAgain hb (hsync hstaged) t.temp).mono fun h r hc => ?_
  refine then_of_ok returnsReplaced_error fun _ hverified => ?_
  rw [safe_exceptT_bind]
  refine (safe_backUp (hc hverified) _).mono fun h r hc => ?_
  exact then_of_ok returnsReplaced_error fun _ _ => safe_replaceTarget hexpected hc

end Parts

/-- A write replaces what it has checked, and has replaced its target if it succeeds. -/
theorem safe_writeInner (authorization : Authorization) (content : List UInt8) :
    Safe AnyOutcome (ReplacesChecked P worker authorization)
      (ReturnsReplaced worker authorization.request)
      (worker.writeInner P authorization content true).run [] := by
  rw [writeInner]
  refine safe_check_bind returnsReplaced_error fun digest _ => ?_
  refine safe_check_bind returnsReplaced_error fun _ _ => ?_
  rw [safe_exceptT_bind]
  refine (before_nil.of_asks (resolve_asks _)).mono ?_
  rintro h r ⟨hb, -⟩
  refine then_of_ok returnsReplaced_error fun target _ => ?_
  refine safe_check_bind returnsReplaced_error fun _ _ => ?_
  rw [safe_exceptT_bind]
  have hreject : Safe AnyOutcome (fun _ op => op.asks = true) (fun _ _ => True)
      (call (.rejectReparse authorization.request.envelope.target)).run h :=
    (safe_ask _).mpr ⟨rfl, fun _ => trivial⟩
  refine (hb.of_asks hreject).mono ?_
  rintro h r ⟨hb, -⟩
  refine then_of_ok returnsReplaced_error fun _ _ => ?_
  refine safe_check_bind returnsReplaced_error fun precondition hprecondition => ?_
  rw [if_pos rfl] at hprecondition
  obtain ⟨expected, hexpected, rfl⟩ := map_eq_ok.mp hprecondition
  rw [safe_exceptT_bind]
  refine (hb.of_asks (verify_asks expected)).mono ?_
  rintro h r ⟨hb, -⟩
  refine then_of_ok returnsReplaced_error fun _ _ => ?_
  refine safe_check_bind returnsReplaced_error fun directory _ => ?_
  exact safe_writeTarget hexpected hb

end FsWorker

/-! ### Writers and others -/

/-- Writes that have a precondition, and whatever else uses the files. -/
inductive WriteEntry
  | write (worker : FsWorker) (authorization : Authorization) (content : List UInt8)
  | other (program : Program Files (Except FsError WriteReceipt))

namespace WriteEntry

def body (P : Primitives) : WriteEntry → Program Files (Except FsError WriteReceipt)
  | .write worker authorization content => (worker.writeInner P authorization content true).run
  | .other program => program

/-- Only what has been checked is replaced by a write. -/
def Guarantees (P : Primitives) : WriteEntry → History Files → FileOp → Prop
  | .write worker authorization _ => FsWorker.ReplacesChecked P worker authorization
  | .other _ => fun _ _ => True

def Outcome : WriteEntry → History Files → Except FsError WriteReceipt → Prop
  | .write worker authorization _ => FsWorker.ReturnsReplaced worker authorization.request
  | .other _ => fun _ _ => True

theorem safe_body (P : Primitives) (entry : WriteEntry) :
    Safe AnyOutcome (entry.Guarantees P) entry.Outcome (entry.body P) [] := by
  cases entry with
  | write worker authorization content => exact FsWorker.safe_writeInner authorization content
  | other program => exact safe_true program

end WriteEntry

/-- The writers of the files of one host, and whatever else uses them. -/
def writeSystem (P : Primitives) : System Files where
  State := FileSystem
  Entry := WriteEntry
  Result := Except FsError WriteReceipt
  body := WriteEntry.body P
  Commit files e files' := e.op.Commits files e.reply files'

end VorCommander
