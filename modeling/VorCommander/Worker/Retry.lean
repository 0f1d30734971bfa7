import VorCommander.Worker.Progress

/-!
Writing again.

A write that has failed can be repeated if it has left neither a temporary file nor a
record of its transaction behind. It takes its temporary file away at one place only,
where it finds that its target has been changed; wherever else it fails once the
temporary file is there, something stays, and every further attempt is refused.
-/

namespace VorCommander

open Crypto Steps Steps.Program Text WindowsPath Files

/-- A change that is made if it can be. -/
def answered (files : FileSystem) (changed : Option FileSystem) :
    Except FsError Unit × FileSystem :=
  changed.elim (.error .io, files) fun files' => (.ok (), files')

/-- A host on which everything works that can. The requested path stands for `target`,
in the directory `directory`. -/
def untroubled (requested target directory : String) : Handler Files FileSystem where
  answer files
    | .lookup _ => (.ok (files target).isSome, files)
    | .canonicalize path => (.ok (if path = requested then target else directory), files)
    | .rejectReparse _ => (.ok (), files)
    | .probe path => (.ok (files path).isSome, files)
    | .read path => ((files path).elim (.error .io) .ok, files)
    | .createNew path => answered files (FileOp.change files (.createNew path))
    | .createTruncated path => answered files (FileOp.change files (.createTruncated path))
    | .write path content => answered files (FileOp.change files (.write path content))
    | .sync path => answered files (FileOp.change files (.sync path))
    | .copy source path => answered files (FileOp.change files (.copy source path))
    | .rename source path => answered files (FileOp.change files (.rename source path))
    | .remove path => answered files (FileOp.change files (.remove path))

variable {P : Primitives} {worker : FsWorker} {authorization : Authorization}
  {content : List UInt8} {requested target directory : String} {s s' : FileSystem}
  {t : Transaction} {h : History Files}

/-- This is a host. -/
theorem untroubled_sound (requested target directory : String) (s : FileSystem) (op : FileOp) :
    Files.Commit s ⟨op, ((untroubled requested target directory).answer s op).1⟩
      ((untroubled requested target directory).answer s op).2 := by
  cases op with
  | lookup path | canonicalize path | rejectReparse path | probe path =>
      exact ⟨⟨rfl, by trivial⟩, trivial⟩
  | read path =>
      change Files.Commit s ⟨.read path, (s path).elim (.error .io) .ok⟩ s
      cases hfound : s path with
      | none => exact ⟨.inl rfl, trivial⟩
      | some bytes => exact ⟨⟨rfl, hfound⟩, trivial⟩
  | createNew path | createTruncated path | write path bytes | sync path | copy source path
  | rename source path | remove path =>
      dsimp only [untroubled, answered]
      generalize hchange : FileOp.change s _ = changed
      cases changed with
      | none => exact ⟨.inl rfl, by trivial⟩
      | some files => exact ⟨⟨hchange, by trivial⟩, by trivial⟩

namespace Files

/-- An operation that succeeds. -/
theorem exec_call {H : Handler Files FileSystem} (op : FileOp) :
    exec H (call op).run s = H.answer s op :=
  exec_perform (I := Files) op

theorem exec_pathExists (path : String) :
    exec (untroubled requested target directory) (pathExists path).run s =
      (.ok (s path).isSome, s) := by
  rw [pathExists, exec_exceptT_lift, exec_map, exec_perform]
  rfl

end Files

namespace FsWorker

/-- What a request must say to be carried out on a target. -/
structure Admissible (P : Primitives) (worker : FsWorker) (authorization : Authorization)
    (content : List UInt8) (target directory : String) (precondition : TargetPrecondition) :
    Prop where
  digest : ∃ expected, authorization.requiredContentDigest = .ok expected ∧
    eqIgnoreAsciiCase expected (sha256Hex P content) = true
  precondition : authorization.requiredTargetPrecondition = .ok precondition
  absolute : ensureNoParentDir authorization.request.envelope.target = .ok ()
  place : ∃ path name, parent authorization.request.envelope.target = some path ∧
    path ≠ authorization.request.envelope.target ∧
    fileName authorization.request.envelope.target = some name ∧ join directory name = target
  allowed : worker.ensureAllowed target = .ok () ∧ worker.ensureAllowed directory = .ok ()
  plain : ¬ (authorization.isAuto ∧ sensitivePath target = true)

variable {precondition : TargetPrecondition}

theorem exec_resolve
    (hadm : Admissible P worker authorization content target directory precondition) :
    exec (untroubled authorization.request.envelope.target target directory)
      (worker.resolveWriteTarget authorization.request.envelope.target).run s =
        (.ok target, s) := by
  obtain ⟨path, name, hparent, hne, hname, hjoin⟩ := hadm.place
  rw [resolveWriteTarget, exec_exceptT_bind, exec_check, hadm.absolute, execThen_ok,
    exec_exceptT_bind, exec_call]
  change execThen _ _ (Except.ok (s target).isSome, s) = _
  rw [execThen_ok]
  cases hfound : (s target).isSome with
  | true =>
      rw [if_pos rfl, exec_exceptT_bind, exec_call]
      change execThen _ _ (Except.ok (if authorization.request.envelope.target =
        authorization.request.envelope.target then target else directory), s) = _
      rw [if_pos rfl, execThen_ok, exec_exceptT_bind, exec_check, hadm.allowed.1, execThen_ok]
      rfl
  | false =>
      rw [if_neg Bool.false_ne_true, exec_exceptT_bind, exec_check, hparent, orFail_some,
        execThen_ok, exec_exceptT_bind, exec_check, hname, orFail_some, execThen_ok,
        exec_exceptT_bind, exec_call]
      change execThen _ _ (Except.ok (if path = authorization.request.envelope.target
        then target else directory), s) = _
      rw [if_neg hne, execThen_ok, exec_exceptT_bind, exec_check, hadm.allowed.2, execThen_ok,
        exec_exceptT_pure, hjoin]

theorem exec_verify {precondition : Option TargetPrecondition}
    (hmeets : Meets P precondition (s target)) {host : Handler Files FileSystem}
    (hhost : host = untroubled requested target directory) :
    exec host (verifyIfRequired P target precondition).run s = (.ok (), s) := by
  subst hhost
  cases precondition with
  | none => rfl
  | some precondition =>
      cases precondition with
      | absent =>
          have hnone : s target = none := hmeets
          rw [verifyIfRequired, verifyTargetPrecondition, exec_exceptT_bind, exec_pathExists,
            execThen_ok, exec_check, hnone]
          rfl
      | sha256 expected =>
          obtain ⟨bytes, hsome, hequal⟩ := hmeets
          rw [verifyIfRequired, verifyTargetPrecondition, exec_exceptT_bind, exec_pathExists,
            execThen_ok, exec_exceptT_bind, exec_check, hsome, failIf_of_false (by simp),
            execThen_ok, exec_exceptT_bind, exec_call]
          change execThen _ _ ((s target).elim (Except.error FsError.io) .ok, s) = _
          rw [hsome]
          change execThen _ _ (Except.ok bytes, s) = _
          rw [execThen_ok, exec_check, failIf_of_false (by simp [hequal])]

/-- A rename of a file that is there. -/
theorem exec_rename {source path : String} {bytes : List UInt8} (hsource : s source = some bytes) :
    exec (untroubled requested target directory) (call (.rename source path)).run s =
      (.ok (), Function.update (Function.update s source none) path (some bytes)) := by
  rw [exec_call]
  change answered s ((s source).map _) = _
  rw [hsource]
  rfl

/-- A record is written. -/
theorem exec_persistJournal (requested target directory : String) (t : Transaction)
    (record : JournalRecord) (s : FileSystem) :
    ∃ s', exec (untroubled requested target directory) (persistJournal t record).run s
        = (.ok (), s') ∧ ∀ path, path ≠ t.journal → path ≠ t.journalTemp → s' path = s path := by
  rw [persistJournal, exec_exceptT_bind, exec_call]
  change ∃ s', execThen _ _ (Except.ok (), _) = _ ∧ _
  rw [execThen_ok, exec_exceptT_bind, exec_call]
  change ∃ s', execThen _ _ (Except.ok (), _) = _ ∧ _
  rw [execThen_ok, exec_exceptT_bind, exec_call]
  change ∃ s', execThen _ _ (Except.ok (), _) = _ ∧ _
  rw [execThen_ok, exec_rename (Function.update_self _ _ _)]
  refine ⟨_, rfl, fun path hjournal htemp => ?_⟩
  rw [Function.update_of_ne hjournal, Function.update_of_ne htemp, Function.update_of_ne htemp,
    Function.update_of_ne htemp]

/-- The temporary file is written. -/
theorem exec_stage {tempPath : String} (hfree : s tempPath = none) :
    exec (untroubled requested target directory) (stage tempPath content).run s =
      (.ok (), Function.update s tempPath (some content)) := by
  rw [stage, exec_exceptT_bind, exec_call]
  change execThen _ _ (answered s (if s tempPath = none then _ else none)) = _
  rw [if_pos hfree]
  change execThen _ _ (Except.ok (), _) = _
  rw [execThen_ok, exec_exceptT_bind, exec_call]
  change execThen _ _ (Except.ok (), _) = _
  rw [execThen_ok, exec_call]
  change (Except.ok (), Function.update (Function.update s tempPath _) tempPath _) = _
  rw [Function.update_idem]

/-- The target is copied if it is there. -/
theorem exec_backUp (requested target directory backup : String) (s : FileSystem) :
    ∃ s', exec (untroubled requested target directory)
        (backUp target (if (s target).isSome then some backup else none)).run s = (.ok (), s') ∧
      ∀ path, path ≠ backup → s' path = s path := by
  cases hfound : s target with
  | none => exact ⟨s, rfl, fun _ _ => rfl⟩
  | some bytes =>
      change ∃ s', exec _ (backUp target (some backup)).run s = _ ∧ _
      rw [backUp, exec_exceptT_bind, exec_call]
      change ∃ s', execThen _ _ (answered s ((s target).map _)) = _ ∧ _
      rw [hfound]
      change ∃ s', execThen _ _ (Except.ok (), _) = _ ∧ _
      rw [execThen_ok, exec_call]
      exact ⟨_, rfl, fun path hpath => Function.update_of_ne hpath _ _⟩

/-- The target is replaced and the write committed. -/
theorem exec_replaceTarget (hnodup : (target :: t.paths).Nodup) {record : JournalRecord}
    (htemp : s t.temp = some content) (hdigest : record.contentSha256 = sha256Hex P content) :
    ∃ receipt, (exec (untroubled requested target directory)
      (replaceTarget P target t record).run s).1 = .ok receipt := by
  obtain ⟨-, hjournal, hjournalTemp, -, htj, htt, -⟩ := paths_ne hnodup
  obtain ⟨s₁, hprepared, hkept⟩ := exec_persistJournal requested target directory t record s
  rw [replaceTarget, exec_exceptT_bind, hprepared, execThen_ok, exec_exceptT_bind,
    exec_rename ((hkept _ htj htt).trans htemp), execThen_ok]
  set s₂ := Function.update (Function.update s₁ t.temp none) target (some content) with hs₂
  have hnew : s₂ target = some content := Function.update_self _ _ _
  obtain ⟨s₃, hreplaced, hkept⟩ := exec_persistJournal requested target directory t
    { record with state := .replaced } s₂
  have hread := (hkept _ hjournal hjournalTemp).trans hnew
  obtain ⟨s₄, hcommitted, -⟩ := exec_persistJournal requested target directory t
    { record with state := .committed } s₃
  rw [confirm, exec_exceptT_bind, hreplaced, execThen_ok, exec_exceptT_bind, exec_call]
  change ∃ receipt, (execThen _ _ ((s₃ target).elim (Except.error FsError.io) .ok, s₃)).1 = _
  rw [hread]
  change ∃ receipt, (execThen _ _ (Except.ok content, s₃)).1 = _
  rw [execThen_ok, exec_exceptT_bind, exec_check, failIf_of_false (by rw [hdigest]; simp),
    execThen_ok, exec_exceptT_bind, hcommitted, execThen_ok]
  exact ⟨_, rfl⟩

/-- Where nothing of the transaction is left over, the write succeeds; where something
is, it is refused. -/
theorem exec_writeTarget (hnodup : (target :: t.paths).Nodup)
    {precondition : Option TargetPrecondition} (hmeets : Meets P precondition (s target)) :
    (∃ receipt, (exec (untroubled requested target directory)
      (writeTarget P authorization content precondition target t).run s).1 = .ok receipt) ↔
      t.Free s := by
  obtain ⟨htarget, -, -, -, -, -, hbackup, -⟩ := paths_ne hnodup
  rw [writeTarget, exec_exceptT_bind, exec_pathExists, execThen_ok, exec_exceptT_bind,
    transactionExists, exec_exceptT_bind, exec_pathExists, execThen_ok]
  cases htemp : s t.temp with
  | some bytes =>
      have hleft : ¬ t.Free s := fun hfree => by simp [hfree.1] at htemp
      refine iff_of_false ?_ hleft
      rintro ⟨receipt, hok⟩
      cases hok
  | none =>
      change (∃ receipt, (execThen _ _ (exec _ (pathExists t.journal).run s)).1 = _) ↔ _
      rw [exec_pathExists, execThen_ok, exec_exceptT_bind, exec_check]
      cases hjournal : s t.journal with
      | some bytes =>
          have hleft : ¬ t.Free s := fun hfree => by simp [hfree.2] at hjournal
          refine iff_of_false ?_ hleft
          rintro ⟨receipt, hok⟩
          cases hok
      | none =>
          refine iff_of_true ?_ ⟨htemp, hjournal⟩
          set s₁ := Function.update s t.temp (some content) with hs₁
          have hsame : s₁ target = s target := Function.update_of_ne htarget _ _
          have hmeets₁ : Meets P precondition (s₁ target) := by
            rw [hsame]
            exact hmeets
          obtain ⟨s₂, hbacked, hkept⟩ := exec_backUp requested target directory t.backup s₁
          rw [failIf_of_false (by simp), execThen_ok, exec_exceptT_bind, exec_stage htemp,
            execThen_ok, exec_exceptT_bind, verifyAgain, exec_attempt, exec_bind,
            exec_verify hmeets₁ rfl]
          change ∃ receipt, (execThen _ _ (Except.ok (), s₁)).1 = _
          rw [execThen_ok, exec_exceptT_bind, ← hsame, hbacked, execThen_ok]
          exact exec_replaceTarget hnodup
            ((hkept _ hbackup).trans (Function.update_self _ _ _)) rfl

/-! ### A write and its repetition -/

/-- The whole write, where the request can be carried out. -/
theorem exec_writeInner {precondition : TargetPrecondition} {path : String}
    (hadm : Admissible P worker authorization content target directory precondition)
    (hparent : parent target = some path)
    (hout : target ∉ (worker.transaction authorization.request path).paths)
    (hmeets : Meets P (some precondition) (s target)) :
    (∃ receipt, (exec (untroubled authorization.request.envelope.target target directory)
      (worker.writeInner P authorization content true).run s).1 = .ok receipt) ↔
      (worker.transaction authorization.request path).Free s := by
  obtain ⟨expected, hdigest, hequal⟩ := hadm.digest
  rw [writeInner, exec_exceptT_bind, exec_check, hdigest, execThen_ok, exec_exceptT_bind,
    exec_check, failIf_of_false (by simp [hequal]), execThen_ok, exec_exceptT_bind,
    exec_resolve hadm, execThen_ok, exec_exceptT_bind, exec_check, failIf_of_false hadm.plain,
    execThen_ok, exec_exceptT_bind, exec_call]
  change (∃ receipt, (execThen _ _ (Except.ok (), s)).1 = _) ↔ _
  rw [execThen_ok, exec_exceptT_bind, exec_check, if_pos rfl, hadm.precondition]
  change (∃ receipt, (execThen _ _ (Except.ok (some precondition), s)).1 = _) ↔ _
  rw [execThen_ok, exec_exceptT_bind, exec_verify hmeets rfl, execThen_ok, exec_exceptT_bind,
    exec_check, hparent, orFail_some, execThen_ok]
  exact exec_writeTarget (List.nodup_cons.mpr ⟨hout, worker.transaction_nodup _ _⟩) hmeets

/-- A write can be repeated from `s` if it succeeds once the host does its part: nothing
fails, and the target holds what it is expected to hold. -/
def Retriable (P : Primitives) (worker : FsWorker) (authorization : Authorization)
    (content : List UInt8) (target directory : String) (precondition : TargetPrecondition)
    (t : Transaction) (s : FileSystem) : Prop :=
  ∀ s' : FileSystem, (∀ path ∈ t.paths, s' path = s path) →
    Meets P (some precondition) (s' target) →
    ∃ receipt, (exec (untroubled authorization.request.envelope.target target directory)
      (worker.writeInner P authorization content true).run s').1 = .ok receipt

/-- It can be if nothing of it is left over. -/
theorem retriable_iff_free {precondition : TargetPrecondition} {path : String}
    (hadm : Admissible P worker authorization content target directory precondition)
    (hparent : parent target = some path)
    (hout : target ∉ (worker.transaction authorization.request path).paths)
    (hcan : ∃ found, Meets P (some precondition) found) :
    Retriable P worker authorization content target directory precondition
      (worker.transaction authorization.request path) s ↔
        (worker.transaction authorization.request path).Free s := by
  set t := worker.transaction authorization.request path with ht
  have htemp : t.temp ∈ t.paths := by simp [Transaction.paths]
  have hjournal : t.journal ∈ t.paths := by simp [Transaction.paths]
  constructor
  · intro hretry
    obtain ⟨found, hmeets⟩ := hcan
    have hsame : ∀ path ∈ t.paths, Function.update s target found path = s path := by
      intro path hpath
      apply Function.update_of_ne
      rintro rfl
      exact hout hpath
    have hfound : Meets P (some precondition) (Function.update s target found target) := by
      rw [Function.update_self]
      exact hmeets
    obtain ⟨hnone, hnone'⟩ := (exec_writeInner hadm hparent hout hfound).mp
      (hretry _ hsame hfound)
    exact ⟨(hsame _ htemp).symm.trans hnone, (hsame _ hjournal).symm.trans hnone'⟩
  · intro hfree s' hsame hmeets
    refine (exec_writeInner hadm hparent hout hmeets).mpr ⟨?_, ?_⟩
    · exact (hsame _ htemp).trans hfree.1
    · exact (hsame _ hjournal).trans hfree.2

end FsWorker

namespace Transaction

/-- What is left over at each point of a write. -/
theorem Progress.free_iff (hp : t.Progress target content s s' h) :
    t.Free s' ↔ t.Free s ∧ (t.created ∉ h ∨ t.removed ∈ h) := by
  cases hp with
  | untouched unchanged hcreated _ =>
      rw [unchanged]
      exact ⟨fun hfree => ⟨hfree, .inl hcreated⟩, And.left⟩
  | staged hstaged =>
      have htemp := hstaged.temp
      refine iff_of_false ?_ ?_
      · intro hfree
        simp [hfree.1] at htemp
      · rintro ⟨-, hnot | hremoved⟩
        · exact hnot hstaged.created
        · exact hstaged.removed hremoved
  | withdrawn hfree hremoved hfree' _ =>
      exact iff_of_true hfree' ⟨hfree, .inr hremoved⟩
  | replaced hreplaced =>
      obtain ⟨record, hrecord, -⟩ := hreplaced.recorded
      refine iff_of_false ?_ ?_
      · intro hfree
        simp [hfree.2] at hrecord
      · rintro ⟨-, hnot | hremoved⟩
        · exact hnot hreplaced.created
        · exact hreplaced.removed hremoved

end Transaction

namespace FsWorker

/-- A write that fails leaves no temporary file and can be repeated exactly if nothing
was left over when it began, and it fails before it has created its temporary file, or
has taken it away again. -/
theorem write_retriable_iff (P : Primitives) (worker : FsWorker) (authorization : Authorization)
    (content : List UInt8) (target directory path : String) (precondition : TargetPrecondition)
    (s s' : FileSystem) (h : History Files) (e : FsError)
    (hadm : Admissible P worker authorization content target directory precondition)
    (hparent : parent target = some path)
    (hout : target ∉ (worker.transaction authorization.request path).paths)
    (hcan : ∃ found, Meets P (some precondition) found)
    (hruns : Runs Files.Commit (worker.writeInner P authorization content true).run s []
      (.error e) s' h)
    (hsame : ∀ found, Resolved authorization.request.envelope.target h found → found = target) :
    (s' (worker.transaction authorization.request path).temp = none ∧
        Retriable P worker authorization content target directory precondition
          (worker.transaction authorization.request path) s') ↔
      (worker.transaction authorization.request path).Free s ∧
        ((worker.transaction authorization.request path).created ∉ h ∨
          (worker.transaction authorization.request path).removed ∈ h) := by
  rw [retriable_iff_free hadm hparent hout hcan]
  have hquiet : Quiet [] := by
    intro e he
    cases he
  have hfree : (worker.transaction authorization.request path).Free s' ↔
      (worker.transaction authorization.request path).Free s ∧
        ((worker.transaction authorization.request path).created ∉ h ∨
          (worker.transaction authorization.request path).removed ∈ h) := by
    obtain ⟨⟨rfl, hh⟩ | hof, -⟩ :=
      hruns.during (during_writeInner worker authorization content true hquiet)
    · have hcreated : (worker.transaction authorization.request path).created ∉ h :=
        fun hmem => Bool.false_ne_true (hh _ hmem)
      exact ⟨fun hfree => ⟨hfree, .inl hcreated⟩, And.left⟩
    · obtain ⟨found, found', hresolved, hfound', hprogress⟩ := hof
      obtain rfl := hsame found hresolved
      obtain rfl := Option.some.inj (hfound'.symm.trans hparent)
      exact (hprogress hout).free_iff
  rw [← hfree]
  exact ⟨And.right, fun hfree => ⟨hfree.1, hfree⟩⟩

end FsWorker

/-! ### A failed write -/

/-- A host some of whose operations fail. -/
def Files.failing (host : Handler Files FileSystem) (fails : FileOp → Bool) :
    Handler Files FileSystem where
  answer files op := if fails op then (.error .io, files) else host.answer files op

/-- An operation that fails is allowed to. -/
theorem Files.failing_sound {host : Handler Files FileSystem} (fails : FileOp → Bool)
    (hhost : ∀ s op, Files.Commit s ⟨op, (host.answer s op).1⟩ (host.answer s op).2)
    (hprobe : ∀ path, fails (.probe path) = false) (s : FileSystem) (op : FileOp) :
    Files.Commit s ⟨op, ((failing host fails).answer s op).1⟩
      ((failing host fails).answer s op).2 := by
  unfold failing
  cases hfails : fails op with
  | false => simpa [hfails] using hhost s op
  | true =>
      simp only [hfails, if_true]
      refine ⟨.inl rfl, ?_⟩
      cases op with
      | probe path => simp [hprobe] at hfails
      | _ => trivial

/-- On such a host the requested path stands for the target. -/
theorem FsWorker.Admissible.resolved {precondition : TargetPrecondition}
    (hadm : Admissible P worker authorization content target directory precondition)
    (fails : FileOp → Bool)
    (hanswers : ∀ e ∈ h, ∃ s, e.reply = ((failing (untroubled authorization.request.envelope.target
      target directory) fails).answer s e.op).1) {found : String}
    (hresolved : FsWorker.Resolved authorization.request.envelope.target h found) :
    found = target := by
  obtain ⟨path, name, hparent, hne, hname, hjoin⟩ := hadm.place
  have hreply : ∀ path resolved, (⟨.canonicalize path, .ok resolved⟩ : Event Files) ∈ h →
      resolved = if path = authorization.request.envelope.target then target else directory := by
    intro path resolved hmem
    obtain ⟨s, hs⟩ := hanswers _ hmem
    cases hfails : fails (.canonicalize path) <;>
      simp [failing, hfails, untroubled] at hs
    exact hs
  rcases hresolved with hmem | ⟨path', resolved, name', hparent', hname', hmem, rfl⟩
  · rw [hreply _ _ hmem, if_pos rfl]
  · obtain rfl := Option.some.inj (hparent.symm.trans hparent')
    obtain rfl := Option.some.inj (hname.symm.trans hname')
    rw [hreply _ _ hmem, if_neg hne, hjoin]

namespace Sample

def noteContent : List UInt8 := utf8 "note"

def noteEnvelope : ActionEnvelope :=
  { requestId := "request", organizationId := "local", actorId := "agent", deviceId := "device"
    action := "filesystem.write", target := "C:\\work\\note.txt"
    parameters := .ofList
      [("content_sha256",
          Value.string "edb465624291e4053c6c5ea4b7eb320dec773e10a57d26b95dcf0564f8e310f8"),
       ("expected_target_sha256", Value.string "absent")]
    requestedCapabilities := [], expiresAtUnixMs := 1000, nonce := List.replicate 16 7 }

/-- The request, with the digest of its envelope. -/
def noteRequest : ActionRequest :=
  { envelope := noteEnvelope
    envelopeDigest :=
      #v[166, 101, 19, 48, 12, 46, 254, 0, 164, 103, 253, 130, 179, 17, 131, 232, 81, 28, 208, 125,
        64, 190, 212, 15, 77, 164, 116, 5, 72, 245, 25, 59] }

/-- The write of a note that is not there yet. -/
def note : Authorization :=
  { request := noteRequest
    decision :=
      { requestId := "request", kind := .auto, policyId := "sample", reasonCode := "auto"
        requiredCapability := none, envelopeDigest := noteRequest.envelopeDigest } }

def noteWorker : FsWorker := { allowedRoots := ["C:\\work"], journalDir := "C:\\journal" }

def noteTransaction : Transaction := noteWorker.transaction noteRequest "C:\\work"

def noteHost : Handler Files FileSystem :=
  untroubled "C:\\work\\note.txt" "C:\\work\\note.txt" "C:\\work"

/-- The temporary file of the note cannot be synced. -/
def syncFails : FileOp → Bool
  | .sync path => path = noteTransaction.temp
  | _ => false

def unsynced : Handler Files FileSystem := Files.failing noteHost syncFails

theorem note_admissible : FsWorker.Admissible reference noteWorker note noteContent
    "C:\\work\\note.txt" "C:\\work" .absent where
  digest := ⟨_, rfl, by decide +kernel⟩
  precondition := by decide
  absolute := by decide
  place :=
    ⟨"C:\\work", "note.txt", by decide, by decide, by decide, by decide⟩
  allowed := ⟨by decide, by decide⟩
  plain := by decide

theorem unsynced_exec :
    (exec unsynced (noteWorker.writeInner reference note noteContent true).run fun _ => none).1
        = .error .io ∧
      ((exec unsynced (noteWorker.writeInner reference note noteContent true).run
        fun _ => none).2 noteTransaction.temp).isSome = true := by
  decide +kernel

/-- What a failed sync leads to. -/
theorem unsynced_run : ∃ s' h,
    Runs Files.Commit (noteWorker.writeInner reference note noteContent true).run (fun _ => none) []
      (.error .io) s' h ∧ (s' noteTransaction.temp).isSome ∧
    ∀ found, FsWorker.Resolved "C:\\work\\note.txt" h found → found = "C:\\work\\note.txt" := by
  have hsound := Files.failing_sound syncFails
    (untroubled_sound "C:\\work\\note.txt" "C:\\work\\note.txt" "C:\\work") fun _ => rfl
  obtain ⟨h, hruns, hanswers⟩ := runs_of_exec hsound (h := [])
    (noteWorker.writeInner reference note noteContent true).run (s := fun _ => none)
  obtain ⟨herror, htemp⟩ := unsynced_exec
  refine ⟨_, h, ?_, htemp, ?_⟩
  · rw [← herror]
    exact hruns
  · intro found
    refine note_admissible.resolved syncFails fun e he => ?_
    exact (hanswers e he).resolve_left (by simp)

end Sample

open Sample in
/-- A write whose temporary file cannot be synced is refused for good. -/
theorem unsynced_note_blocked :
    ¬ ∀ e s' h, Runs Files.Commit (noteWorker.writeInner reference note noteContent true).run
        (fun _ => none) [] (.error e) s' h →
      s' noteTransaction.temp = none ∧
        FsWorker.Retriable reference noteWorker note noteContent "C:\\work\\note.txt" "C:\\work"
          .absent noteTransaction s' := by
  intro hall
  obtain ⟨s', h, hruns, htemp, -⟩ := unsynced_run
  have hnone := (hall _ _ _ hruns).1
  rw [hnone] at htemp
  cases htemp

open Sample in
theorem write_retriable_iff_unsynced : ∃ s' h,
    Runs Files.Commit (noteWorker.writeInner reference note noteContent true).run (fun _ => none) []
      (.error .io) s' h ∧
    ((s' noteTransaction.temp = none ∧
        FsWorker.Retriable reference noteWorker note noteContent "C:\\work\\note.txt" "C:\\work"
          .absent noteTransaction s') ↔
      noteTransaction.Free (fun _ => none) ∧
        (noteTransaction.created ∉ h ∨ noteTransaction.removed ∈ h)) := by
  obtain ⟨s', h, hruns, -, hsame⟩ := unsynced_run
  exact ⟨s', h, hruns, FsWorker.write_retriable_iff reference noteWorker note noteContent
    "C:\\work\\note.txt" "C:\\work" "C:\\work" .absent _ s' h .io note_admissible
    (by decide) (by decide) ⟨none, rfl⟩ hruns hsame⟩

end VorCommander
