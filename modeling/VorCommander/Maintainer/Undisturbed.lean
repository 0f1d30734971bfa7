import VorCommander.Maintainer.Recovery

/-!
Calls that are not disturbed.

On a host that carries out what it can, a recovery of a plan succeeds as long as the backup
is there: it brings the previous binary back. Together with what is kept this says that the
maintainer can be stopped anywhere. An update of such a host succeeds as a whole, and what
its calls say is so on every host.
-/

namespace VorCommander

open Crypto Steps Steps.Program Text WindowsPath

namespace Update

variable {P : Primitives} {canonical : String → String} {isDirectory : String → Bool}
  {digest : String} {plan : UpdatePlan} {s : FileSystem} {path root : String}

/-! ### Questions -/

theorem exec_call (op : UpdateOp) :
    exec (calm canonical isDirectory) (call op).run s =
      (((calm canonical isDirectory).answer s op).1.mapError .io,
        ((calm canonical isDirectory).answer s op).2) := by
  rw [call, exec_exceptT_adapt, exec_attempt, exec_perform]

theorem exec_asks (holds : FileKind → Bool) :
    exec (calm canonical isDirectory) (asks path holds).run s =
      (.ok (((if (s path).isSome then some FileKind.file
        else if isDirectory path then some .directory else none).map holds).getD false), s) := by
  rw [asks, exec_exceptT_lift, exec_map, exec_perform]
  cases hfile : (s path).isSome <;> cases hdirectory : isDirectory path <;>
    simp [calm, hfile, hdirectory, Except.toOption]

theorem exec_pathExists (h : (s path).isSome ∨ isDirectory path = true) :
    exec (calm canonical isDirectory) (pathExists path).run s = (.ok true, s) := by
  rw [pathExists, exec_asks]
  by_cases hfile : (s path).isSome = true
  · rw [if_pos hfile]
    rfl
  · rw [if_neg hfile, if_pos (h.resolve_left hfile)]
    rfl

theorem exec_pathExists_of_not (h : ¬ ((s path).isSome ∨ isDirectory path = true)) :
    exec (calm canonical isDirectory) (pathExists path).run s = (.ok false, s) := by
  rw [not_or] at h
  rw [pathExists, exec_asks, if_neg h.1, if_neg h.2]
  rfl

theorem exec_isFile_of_some (h : (s path).isSome) :
    exec (calm canonical isDirectory) (isFile path).run s = (.ok true, s) := by
  rw [isFile, exec_asks, if_pos h]
  rfl

theorem exec_isDir (habsent : s path = none) (h : isDirectory path = true) :
    exec (calm canonical isDirectory) (isDir path).run s = (.ok true, s) := by
  rw [isDir, exec_asks, habsent, if_neg (by simp), if_pos h]
  rfl

theorem exec_canonicalize :
    exec (calm canonical isDirectory) (call (.canonicalize path)).run s =
      (.ok (canonical path), s) :=
  exec_call _

theorem exec_ensureWithin (h : pathWithin path root = true) :
    exec (calm canonical isDirectory) (check (ensureWithin path root)).run s = (.ok (), s) := by
  rw [exec_check, ensureWithin, failIf_of_false (by simp [h])]

theorem exec_failIf {c : Prop} [Decidable c] {e : MaintenanceError} (h : ¬ c) :
    exec (calm canonical isDirectory) (check (failIf c e)).run s = (.ok (), s) := by
  rw [exec_check, failIf_of_false h]

theorem exec_canonicalFileWithin (hfile : (s (canonical path)).isSome)
    (hwithin : pathWithin (canonical path) root = true) :
    exec (calm canonical isDirectory) (canonicalFileWithin path root).run s =
      (.ok (canonical path), s) := by
  rw [canonicalFileWithin, exec_of_ok exec_canonicalize, exec_of_ok (exec_isFile_of_some hfile),
    exec_of_ok (exec_failIf (by simp)), exec_of_ok (exec_ensureWithin hwithin)]
  rfl

theorem exec_canonicalDirectoryWithin (habsent : s (canonical path) = none)
    (hdirectory : isDirectory (canonical path) = true)
    (hwithin : pathWithin (canonical path) root = true) :
    exec (calm canonical isDirectory) (canonicalDirectoryWithin path root).run s =
      (.ok (canonical path), s) := by
  rw [canonicalDirectoryWithin, exec_of_ok exec_canonicalize,
    exec_of_ok (exec_isDir habsent hdirectory), exec_of_ok (exec_failIf (by simp)),
    exec_of_ok (exec_ensureWithin hwithin)]
  rfl

/-- A path for output, in a directory of the root. -/
structure Output (canonical : String → String) (isDirectory : String → Bool) (root path : String) :
    Prop where
  shape : rejectRelativeComponents path = .ok ()
  absolute : isAbsolute path = true
  within : pathWithin (canonical path) root = true
  directory : ∃ directory, parent path = some directory ∧ isDirectory directory = true ∧
    pathWithin (canonical directory) root = true

theorem normalParts_pos {path directory : String} (h : parent path = some directory) :
    0 < (normalParts path).length := by
  obtain ⟨name, hname, -⟩ := Option.map_eq_some_iff.mp h
  refine List.length_pos_of_mem (a := name) ?_
  simp only [fileName] at hname
  split at hname
  · cases hname
  · rename_i hlast
    have hmem := List.mem_of_getLast? hname
    obtain ⟨hpart, hkept⟩ := List.mem_filter.mp hmem
    refine List.mem_filter.mpr ⟨hpart, ?_⟩
    have hne : name ≠ ".." := by
      rintro rfl
      exact hlast hname
    simpa [hne] using hkept

theorem exec_ensureOutputPathWithin (h : Output canonical isDirectory root path) :
    exec (calm canonical isDirectory) (ensureOutputPathWithin path root).run s = (.ok (), s) := by
  obtain ⟨directory, hparent, hdirectory, hwithin⟩ := h.directory
  have hancestor : ∃ existing, pathWithin (canonical existing) root = true ∧
      exec (calm canonical isDirectory)
        (existingAncestor ((normalParts path).length + 1) path).run s = (.ok existing, s) := by
    rw [existingAncestor]
    by_cases hfound : (s path).isSome ∨ isDirectory path = true
    · refine ⟨path, h.within, ?_⟩
      rw [exec_of_ok (exec_pathExists hfound), if_pos rfl]
      rfl
    · obtain ⟨ancestors, hancestors⟩ := Nat.exists_eq_succ_of_ne_zero (normalParts_pos hparent).ne'
      refine ⟨directory, hwithin, ?_⟩
      rw [exec_of_ok (exec_pathExists_of_not hfound), if_neg Bool.false_ne_true, hparent,
        orFail_some, exec_of_ok (exec_check _), hancestors, existingAncestor,
        exec_of_ok (exec_pathExists (.inr hdirectory)), if_pos rfl]
      rfl
  obtain ⟨existing, hexisting, hexec⟩ := hancestor
  rw [ensureOutputPathWithin, h.shape, exec_of_ok (exec_check _),
    exec_of_ok (exec_failIf (by simp [h.absolute])), exec_of_ok hexec,
    exec_of_ok exec_canonicalize, exec_ensureWithin hexisting]

theorem exec_outputPathWithin (h : Output canonical isDirectory root path) :
    exec (calm canonical isDirectory) (outputPathWithin path root).run s = (.ok path, s) := by
  rw [outputPathWithin, exec_of_ok (exec_ensureOutputPathWithin h)]
  rfl

/-! ### The recovery -/

/-- What a recovery needs besides the backup: the paths of the plan lead where they should,
and the staged binary is still there. -/
structure Recoverable (canonical : String → String) (isDirectory : String → Bool)
    (plan : UpdatePlan) (s : FileSystem) : Prop where
  shape : validatePlanShape plan = .ok ()
  root_absent : s (canonical plan.allowedRoot) = none
  root_directory : isDirectory (canonical plan.allowedRoot) = true
  directory_within : pathWithin (directoryOf canonical plan) (canonical plan.allowedRoot) = true
  name_plain : PlainName (nameOf plan)
  staged_isSome : (s (canonical plan.stagedExecutable)).isSome
  staged_within :
    pathWithin (canonical plan.stagedExecutable) (canonical plan.allowedRoot) = true
  working_absent : s (canonical plan.restart.workingDirectory) = none
  working_directory : isDirectory (canonical plan.restart.workingDirectory) = true
  working_within :
    pathWithin (canonical plan.restart.workingDirectory) (canonical plan.allowedRoot) = true
  outputs : ∀ path ∈ [plan.journalDirectory, plan.resultFile, plan.restart.stdoutLog,
    plan.restart.stderrLog], Output canonical isDirectory (canonical plan.allowedRoot) path
  target_file : isDirectory (targetOf canonical plan) = false
  canonical_target : canonical (targetOf canonical plan) = targetOf canonical plan
  journal_parent : (parent (journalOf plan)).isSome

/-- The update of a recovery. -/
def recoveryUpdate (canonical : String → String) (plan : UpdatePlan) : ValidatedUpdate where
  plan := plan
  root := canonical plan.allowedRoot
  target := targetOf canonical plan
  staged := canonical plan.stagedExecutable
  workingDirectory := canonical plan.restart.workingDirectory
  backup := backupOf canonical plan
  temp := tempOf canonical plan
  journal := journalOf plan
  resultFile := plan.resultFile
  stdoutLog := plan.restart.stdoutLog
  stderrLog := plan.restart.stderrLog

/-- A file that has the digest is verified. -/
theorem exec_verifyFileSha256 {expected : String}
    (hexpected : normalizeSha256 expected = .ok digest) (h : HasDigest P digest (s path)) :
    exec (calm canonical isDirectory) (verifyFileSha256 P path expected).run s = (.ok (), s) := by
  obtain ⟨content, hcontent, hdigest⟩ := h
  have hread : exec (calm canonical isDirectory) (call (.read path)).run s = (.ok content, s) := by
    rw [exec_call]
    simp [calm, hcontent, Except.mapError]
  have hsha : exec (calm canonical isDirectory) (sha256File P path).run s = (.ok digest, s) := by
    rw [sha256File, exec_of_ok hread, hdigest]
    rfl
  rw [verifyFileSha256, hexpected, exec_of_ok (exec_check _), exec_of_ok hsha,
    exec_failIf (by simp)]

theorem exec_removeTarget {update : ValidatedUpdate} (hfile : isDirectory update.target = false) :
    exec (calm canonical isDirectory) (removeTarget update).run s =
      (.ok (), Function.update s update.target none) := by
  rw [removeTarget]
  by_cases hsome : (s update.target).isSome
  · rw [exec_of_ok (exec_pathExists (.inl hsome)), if_pos rfl, exec_call]
    simp [calm, hsome, Except.mapError]
  · have hnot : ¬ ((s update.target).isSome ∨ isDirectory update.target = true) := by
      simp [hsome, hfile]
    have hnone : s update.target = none := by simpa using hsome
    rw [exec_of_ok (exec_pathExists_of_not hnot), if_neg Bool.false_ne_true, exec_exceptT_pure,
      ← hnone, Function.update_eq_self]

theorem exec_rename {source target : String} {content : List UInt8}
    (hsource : s source = some content) :
    exec (calm canonical isDirectory) (call (.rename source target)).run s =
      (.ok (), Function.update (Function.update s source none) target (some content)) := by
  rw [exec_call]
  simp [calm, hsource, Except.mapError]

/-- Whether or not there is something to remove, nothing else changes. -/
theorem exec_ignoring_remove {other : String} (hne : other ≠ path) :
    ∃ s', exec (calm canonical isDirectory) (ignoring (.remove path)).run s = (.ok (), s') ∧
      s' other = s other := by
  refine ⟨((calm canonical isDirectory).answer s (.remove path)).2, ?_, ?_⟩
  · rw [ignoring, exec_exceptT_lift, exec_map, exec_perform]
  · cases hsome : (s path).isSome <;> simp [calm, hsome, hne]

theorem exec_putBack {update : ValidatedUpdate}
    (hdigest : normalizeSha256 update.plan.expectedCurrentSha256 = .ok digest)
    (hbackup : HasDigest P digest (s update.backup)) (hne : update.target ≠ update.backup)
    (htemp : update.target ≠ update.temp) (hfile : isDirectory update.target = false) :
    ∃ s', exec (calm canonical isDirectory) (putBack P update).run s = (.ok (), s') ∧
      HasDigest P digest (s' update.target) := by
  obtain ⟨content, hcontent, hsha⟩ := hbackup
  have hmoved : Function.update s update.target none update.backup = some content := by
    rw [Function.update_of_ne hne.symm, hcontent]
  obtain ⟨s', hremoved, hsame⟩ : ∃ s', exec (calm canonical isDirectory)
      (ignoring (.remove update.temp)).run (Function.update (Function.update
        (Function.update s update.target none) update.backup none) update.target (some content)) =
        (.ok (), s') ∧ s' update.target = some content := by
    obtain ⟨s', hremoved, hsame⟩ := exec_ignoring_remove htemp
    exact ⟨s', hremoved, hsame.trans (Function.update_self ..)⟩
  have htarget : HasDigest P digest (s' update.target) := ⟨content, hsame, hsha⟩
  refine ⟨s', ?_, htarget⟩
  rw [putBack, exec_of_ok (exec_removeTarget hfile), exec_of_ok (exec_rename hmoved),
    exec_of_ok hremoved, exec_verifyFileSha256 hdigest htarget]

theorem exec_append {content old : List UInt8} (hold : s path = some old) :
    exec (calm canonical isDirectory) (perform (I := UpdateFiles) (.append path content)) s =
      (.ok (), Function.update s path (some (old ++ content))) := by
  rw [exec_perform]
  simp [calm, hold]

theorem exec_appendJournal {update : ValidatedUpdate} (state : Maintainer.JournalState)
    (createNew : Bool) (hnew : createNew = true → s update.journal = none)
    (hparent : (parent update.journal).isSome) :
    ∃ lines, exec (calm canonical isDirectory) (appendJournal update state createNew).run s =
      (.ok (), Function.update s update.journal (some lines)) := by
  obtain ⟨directory, hdirectory⟩ := Option.isSome_iff_exists.mp hparent
  have hcreated : exec (calm canonical isDirectory) (createParent update.journal).run s =
      (.ok (), s) := by
    rw [createParent, hdirectory, orFail_some, exec_of_ok (exec_check _), exec_call]
    rfl
  have hentry (old : List UInt8) : exec (calm canonical isDirectory)
      (ExceptT.adapt MaintenanceError.json (attempt (perform (I := UpdateFiles)
        (.append update.journal (entry update state).toJson.toBytes)))).run
      (Function.update s update.journal (some old)) = (.ok (), Function.update s update.journal
        (some (old ++ (entry update state).toJson.toBytes))) := by
    rw [exec_exceptT_adapt, exec_attempt, exec_append (Function.update_self ..),
      Function.update_idem]
    rfl
  have hline (old : List UInt8) : exec (calm canonical isDirectory)
      (call (.append update.journal (utf8 "\n"))).run
      (Function.update s update.journal (some old)) =
      (.ok (), Function.update s update.journal (some (old ++ utf8 "\n"))) := by
    rw [call, exec_exceptT_adapt, exec_attempt, exec_append (Function.update_self ..),
      Function.update_idem]
    rfl
  have hwritten {opening : UpdateM Unit}
      (hopened : exec (calm canonical isDirectory) opening.run s =
        (.ok (), Function.update s update.journal (some ((s update.journal).getD [])))) :
      exec (calm canonical isDirectory) (do
        opening
        ExceptT.adapt MaintenanceError.json (attempt (perform (I := UpdateFiles)
          (.append update.journal (entry update state).toJson.toBytes)))
        call (.append update.journal (utf8 "\n"))
        call (.sync update.journal)).run s =
        (.ok (), Function.update s update.journal (some ((s update.journal).getD [] ++
          (entry update state).toJson.toBytes ++ utf8 "\n"))) := by
    rw [exec_of_ok hopened, exec_of_ok (hentry _), exec_of_ok (hline _), exec_call]
    rfl
  refine ⟨(s update.journal).getD [] ++ (entry update state).toJson.toBytes ++ utf8 "\n", ?_⟩
  rw [appendJournal, exec_of_ok hcreated]
  cases createNew with
  | true =>
      refine hwritten ?_
      rw [exec_call]
      simp [calm, hnew rfl, Except.mapError]
  | false =>
      refine hwritten ?_
      rw [exec_call]
      rfl

theorem RecoverySample.agentPlan_shape : validatePlanShape agentPlan = .ok () := by
  simp only [validatePlanShape, bind_eq_ok, exists_unit, failIf_eq_ok]
  exact ⟨by decide, by decide, _, normalizeSha256_sha256Hex .., _, normalizeSha256_sha256Hex ..,
    by decide, rfl, rfl⟩

theorem RecoverySample.agentPlan_outputs :
    ∀ path ∈ [agentPlan.journalDirectory, agentPlan.resultFile, agentPlan.restart.stdoutLog,
      agentPlan.restart.stderrLog] ++
        [backupOf id agentPlan, tempOf id agentPlan, journalOf agentPlan],
      Output id RecoverySample.isDirectory "C:\\vor" path := by
  simp only [List.forall_mem_append, List.forall_mem_cons]
  refine ⟨⟨?_, ?_, ?_, ?_, by simp⟩, ?_, ?_, ?_, by simp⟩
  iterate 6 exact ⟨by decide, by decide, by decide, "C:\\vor", by decide, by decide, by decide⟩
  exact ⟨by decide, by decide, by decide, "C:\\vor\\journal", by decide, by decide, by decide⟩

/-- What a transaction needs: the paths of the plan lead where they should, the binaries are
those that the plan names, and the files that a transaction makes are not there. -/
structure Preparable (P : Primitives) (canonical : String → String) (isDirectory : String → Bool)
    (plan : UpdatePlan) (digest staged : String) (s : FileSystem) : Prop where
  shape : validatePlanShape plan = .ok ()
  root_absent : s (canonical plan.allowedRoot) = none
  root_directory : isDirectory (canonical plan.allowedRoot) = true
  target_digest : HasDigest P digest (s (targetOf canonical plan))
  target_file : isDirectory (targetOf canonical plan) = false
  target_within : pathWithin (targetOf canonical plan) (canonical plan.allowedRoot) = true
  staged_digest : HasDigest P staged (s (canonical plan.stagedExecutable))
  staged_within :
    pathWithin (canonical plan.stagedExecutable) (canonical plan.allowedRoot) = true
  staged_eq : normalizeSha256 plan.expectedStagedSha256 = .ok staged
  distinct : Maintainer.samePath (targetOf canonical plan) (canonical plan.stagedExecutable) = false
  working_absent : s (canonical plan.restart.workingDirectory) = none
  working_directory : isDirectory (canonical plan.restart.workingDirectory) = true
  working_within :
    pathWithin (canonical plan.restart.workingDirectory) (canonical plan.allowedRoot) = true
  outputs : ∀ path ∈ [plan.journalDirectory, plan.resultFile, plan.restart.stdoutLog,
    plan.restart.stderrLog, backupOf canonical plan, tempOf canonical plan, journalOf plan],
    Output canonical isDirectory (canonical plan.allowedRoot) path
  made_absent : ∀ path ∈ [backupOf canonical plan, tempOf canonical plan, journalOf plan],
    s path = none ∧ isDirectory path = false
  journal_ne_temp : journalOf plan ≠ tempOf canonical plan

theorem HasDigest.isSome {content : Option (List UInt8)} (h : HasDigest P digest content) :
    content.isSome := by
  obtain ⟨bytes, rfl, -⟩ := h
  rfl

theorem exec_validatePlan {staged : String} (h : Planned canonical plan digest)
    (hp : Preparable P canonical isDirectory plan digest staged s) :
    exec (calm canonical isDirectory) (validatePlan P plan).run s =
      (.ok (recoveryUpdate canonical plan), s) := by
  have hout := hp.outputs
  simp only [List.forall_mem_cons] at hout
  have htarget : exec (calm canonical isDirectory)
      (canonicalFileWithin plan.targetExecutable (canonical plan.allowedRoot)).run s =
        (.ok (targetOf canonical plan), s) := by
    rw [← h.canonical_target]
    refine exec_canonicalFileWithin ?_ ?_
    · rw [h.canonical_target]
      exact hp.target_digest.isSome
    · rw [h.canonical_target]
      exact hp.target_within
  rw [validatePlan, hp.shape, exec_of_ok (exec_check _), exec_of_ok exec_canonicalize,
    exec_of_ok (exec_isDir hp.root_absent hp.root_directory), exec_of_ok (exec_failIf (by simp)),
    exec_of_ok htarget,
    exec_of_ok (exec_canonicalFileWithin hp.staged_digest.isSome hp.staged_within),
    exec_of_ok (exec_failIf (by simp [hp.distinct])),
    exec_of_ok (exec_verifyFileSha256 h.digest_eq hp.target_digest),
    exec_of_ok (exec_verifyFileSha256 hp.staged_eq hp.staged_digest),
    exec_of_ok (exec_canonicalDirectoryWithin hp.working_absent hp.working_directory
      hp.working_within),
    exec_of_ok (exec_outputPathWithin hout.1), exec_of_ok (exec_outputPathWithin hout.2.1),
    exec_of_ok (exec_outputPathWithin hout.2.2.1), exec_of_ok (exec_outputPathWithin hout.2.2.2.1),
    h.fileName_target, orFail_some, exec_of_ok (exec_check _), h.parent_target, orFail_some,
    exec_of_ok (exec_check _)]
  change exec _ (do
    ensureOutputPathWithin (backupOf canonical plan) (canonical plan.allowedRoot)
    ensureOutputPathWithin (tempOf canonical plan) (canonical plan.allowedRoot)
    ensureOutputPathWithin (journalOf plan) (canonical plan.allowedRoot)
    return recoveryUpdate canonical plan).run s = _
  rw [exec_of_ok (exec_ensureOutputPathWithin hout.2.2.2.2.1),
    exec_of_ok (exec_ensureOutputPathWithin hout.2.2.2.2.2.1),
    exec_of_ok (exec_ensureOutputPathWithin hout.2.2.2.2.2.2.1)]
  rfl

/-- The transaction that is begun. -/
def begunTransaction (canonical : String → String) (plan : UpdatePlan) :
    Maintainer.MaintenanceTransaction where
  update := recoveryUpdate canonical plan
  state := .validated

theorem exec_begin {staged : String} (h : Planned canonical plan digest)
    (hp : Preparable P canonical isDirectory plan digest staged s) :
    ∃ lines, exec (calm canonical isDirectory) (begin P plan).run s =
      (.ok (begunTransaction canonical plan), Function.update s (journalOf plan) (some lines)) := by
  have habsent := hp.made_absent
  simp only [List.forall_mem_cons] at habsent
  obtain ⟨-, -, ⟨hnone, hdirectory⟩, -⟩ := habsent
  obtain ⟨parentOf, hparent, -⟩ := (hp.outputs (journalOf plan) (by simp)).directory
  have hcreated : exec (calm canonical isDirectory)
      (createParent (recoveryUpdate canonical plan).journal).run s = (.ok (), s) := by
    change exec _ (createParent (journalOf plan)).run s = _
    rw [createParent, hparent, orFail_some, exec_of_ok (exec_check _), exec_call]
    rfl
  have hfound : exec (calm canonical isDirectory)
      (pathExists (recoveryUpdate canonical plan).journal).run s = (.ok false, s) :=
    exec_pathExists_of_not (by simp [recoveryUpdate, hnone, hdirectory])
  obtain ⟨lines, hjournal⟩ : ∃ lines, exec (calm canonical isDirectory)
      (appendJournal (recoveryUpdate canonical plan) .validated true).run s =
      (.ok (), Function.update s (journalOf plan) (some lines)) :=
    exec_appendJournal .validated true (fun _ => hnone) (by
      change (parent (journalOf plan)).isSome
      rw [hparent]
      rfl)
  refine ⟨lines, ?_⟩
  rw [begin, exec_of_ok (exec_validatePlan h hp), exec_of_ok hcreated, exec_of_ok hfound,
    exec_of_ok (exec_failIf (by simp)), exec_of_ok hjournal]
  rfl

theorem exec_eitherExists {backup temp : String}
    (hbackup : s backup = none ∧ isDirectory backup = false)
    (htemp : s temp = none ∧ isDirectory temp = false) :
    exec (calm canonical isDirectory) (eitherExists backup temp).run s = (.ok false, s) := by
  rw [eitherExists, exec_of_ok (exec_pathExists_of_not (by simp [hbackup])),
    if_neg Bool.false_ne_true, exec_pathExists_of_not (by simp [htemp])]

theorem exec_copySynced {source destination : String} {content : List UInt8}
    (hsource : s source = some content) (hdestination : s destination = none) :
    exec (calm canonical isDirectory) (copySynced source destination).run s =
      (.ok (), Function.update s destination (some content)) := by
  have hne : source ≠ destination := by
    rintro rfl
    rw [hsource] at hdestination
    cases hdestination
  have hopened : exec (calm canonical isDirectory) (call (.openRead source)).run s =
      (.ok (), s) := by
    rw [exec_call]
    simp [calm, hsource, Except.mapError]
  have hcreated : exec (calm canonical isDirectory) (call (.createNew destination)).run s =
      (.ok (), Function.update s destination (some [])) := by
    rw [exec_call]
    simp [calm, hdestination, Except.mapError]
  have hcopied : exec (calm canonical isDirectory) (call (.copy source destination)).run
      (Function.update s destination (some [])) =
      (.ok (), Function.update s destination (some content)) := by
    rw [exec_call]
    simp [calm, hne, hsource, Except.mapError]
  rw [copySynced, exec_of_ok hopened, exec_of_ok hcreated, exec_of_ok hcopied, exec_call]
  rfl

/-- A transaction that is begun, as it finds the files. -/
structure Swappable (P : Primitives) (isDirectory : String → Bool) (update : ValidatedUpdate)
    (digest staged : String) (s : FileSystem) : Prop where
  target_digest : HasDigest P digest (s update.target)
  staged_digest : HasDigest P staged (s update.staged)
  backup_absent : s update.backup = none ∧ isDirectory update.backup = false
  temp_absent : s update.temp = none ∧ isDirectory update.temp = false

theorem exec_lift_rename {source target : String} {content : List UInt8}
    (hsource : s source = some content) :
    exec (calm canonical isDirectory)
      (ExceptT.lift (perform (I := UpdateFiles) (.rename source target)) :
        UpdateM (Except String Unit)).run s =
      (.ok (.ok ()), Function.update (Function.update s source none) target (some content)) := by
  rw [exec_exceptT_lift, exec_perform]
  simp [calm, hsource]

theorem exec_moveOut {update : ValidatedUpdate} {staged : String}
    (habout : About update.target update.backup digest update)
    (hstaged : normalizeSha256 update.plan.expectedStagedSha256 = .ok staged)
    (hs : Swappable P isDirectory update digest staged s) :
    ∃ s', exec (calm canonical isDirectory) (moveOut P update).run s = (.ok (), s') ∧
      HasDigest P staged (s' update.temp) ∧ HasDigest P digest (s' update.backup) := by
  obtain ⟨old, hold, hdigest⟩ := hs.target_digest
  obtain ⟨new, hnew, hsha⟩ := hs.staged_digest
  have hcopied : exec (calm canonical isDirectory) (copySynced update.staged update.temp).run s =
      (.ok (), Function.update s update.temp (some new)) :=
    exec_copySynced hnew hs.temp_absent.1
  have htemp : HasDigest P staged (Function.update s update.temp (some new) update.temp) :=
    ⟨new, Function.update_self .., hsha⟩
  have htarget : Function.update s update.temp (some new) update.target = some old := by
    rw [Function.update_of_ne habout.temp_ne_target.symm, hold]
  refine ⟨Function.update (Function.update (Function.update s update.temp (some new)) update.target
    none) update.backup (some old), ?_, ?_, old, Function.update_self .., hdigest⟩
  · rw [moveOut, exec_of_ok (exec_verifyFileSha256 habout.digest_eq hs.target_digest),
      exec_of_ok (exec_verifyFileSha256 hstaged hs.staged_digest),
      exec_of_ok (exec_eitherExists hs.backup_absent hs.temp_absent),
      exec_of_ok (exec_failIf (by simp)), exec_of_ok hcopied,
      exec_of_ok (exec_verifyFileSha256 hstaged htemp), exec_of_ok (exec_lift_rename htarget)]
    rfl
  · rw [Function.update_of_ne habout.temp_ne_backup, Function.update_of_ne habout.temp_ne_target]
    exact htemp

theorem exec_moveIn {update : ValidatedUpdate} {staged : String}
    (htemp : HasDigest P staged (s update.temp)) (hbackup : HasDigest P digest (s update.backup))
    (hne : update.target ≠ update.backup) (htempNe : update.temp ≠ update.backup) :
    ∃ s', exec (calm canonical isDirectory) (moveIn update).run s = (.ok (), s') ∧
      HasDigest P staged (s' update.target) ∧ HasDigest P digest (s' update.backup) := by
  obtain ⟨new, hnew, hsha⟩ := htemp
  refine ⟨Function.update (Function.update s update.temp none) update.target (some new), ?_,
    ⟨new, Function.update_self .., hsha⟩, ?_⟩
  · rw [moveIn, exec_of_ok (exec_lift_rename hnew)]
    rfl
  · rw [Function.update_of_ne hne.symm, Function.update_of_ne htempNe.symm]
    exact hbackup

theorem exec_confirmSwap {update : ValidatedUpdate} {staged : String}
    (hstaged : normalizeSha256 update.plan.expectedStagedSha256 = .ok staged)
    (htarget : HasDigest P staged (s update.target)) :
    exec (calm canonical isDirectory) (confirmSwap P update).run s =
      (.ok (.swapped, .ok ()), s) := by
  have hverified : exec (calm canonical isDirectory) (ExceptT.lift
      (verifyFileSha256 P update.target update.plan.expectedStagedSha256).run :
        UpdateM (Except MaintenanceError Unit)).run s = (.ok (.ok ()), s) := by
    rw [exec_exceptT_lift, exec_verifyFileSha256 hstaged htarget]
  rw [confirmSwap, exec_of_ok hverified]
  rfl

/-- What is recorded once the work is done. -/
theorem exec_advance {transaction : Maintainer.MaintenanceTransaction} {s' : FileSystem}
    {state : Maintainer.JournalState} {result : Except MaintenanceError Unit}
    {work : UpdateM (Maintainer.JournalState × Except MaintenanceError Unit)}
    (hwork : exec (calm canonical isDirectory) work.run s = (.ok (state, result), s'))
    (hparent : (parent transaction.update.journal).isSome) :
    ∃ lines, exec (calm canonical isDirectory) (advance transaction work) s =
      ((result, { transaction with state }),
        Function.update s' transaction.update.journal (some lines)) := by
  obtain ⟨lines, hjournal⟩ : ∃ lines, exec (calm canonical isDirectory)
      (appendJournal transaction.update state false).run s' =
      (.ok (), Function.update s' transaction.update.journal (some lines)) :=
    exec_appendJournal state false (fun h => by cases h) hparent
  refine ⟨lines, ?_⟩
  rw [advance, exec_bind, hwork]
  change exec _ ((appendJournal transaction.update state false).run >>= _) s' = _
  rw [exec_bind, hjournal]
  rfl

section Transactions

variable (transaction : Maintainer.MaintenanceTransaction) {staged : String}
  (habout : About transaction.update.target transaction.update.backup digest transaction.update)
  (hne : transaction.update.target ≠ transaction.update.backup)
  (hparent : (parent transaction.update.journal).isSome)

include habout hparent

theorem exec_commit
    (hstaged : normalizeSha256 transaction.update.plan.expectedStagedSha256 = .ok staged)
    (hstate : transaction.state = .swapped)
    (htarget : HasDigest P staged (s transaction.update.target)) :
    ∃ s', exec (calm canonical isDirectory) (transaction.commit P) s =
      ((.ok (), { transaction with state := .committed }), s') ∧
        HasDigest P staged (s' transaction.update.target) := by
  have hwork : exec (calm canonical isDirectory) (do
      check (failIf (transaction.state ≠ .swapped) .invalidState)
      verifyFileSha256 P transaction.update.target transaction.update.plan.expectedStagedSha256
      return (.committed, .ok ()) :
        UpdateM (Maintainer.JournalState × Except MaintenanceError Unit)).run s =
      (.ok (.committed, .ok ()), s) := by
    rw [exec_of_ok (exec_failIf (by simp [hstate])),
      exec_of_ok (exec_verifyFileSha256 hstaged htarget)]
    rfl
  obtain ⟨lines, hadvance⟩ := exec_advance hwork hparent
  refine ⟨_, hadvance, ?_⟩
  rw [Function.update_of_ne habout.journal_ne_target.symm]
  exact htarget

include hne

theorem exec_swap
    (hstaged : normalizeSha256 transaction.update.plan.expectedStagedSha256 = .ok staged)
    (hstate : transaction.state = .validated)
    (hs : Swappable P isDirectory transaction.update digest staged s) :
    ∃ s', exec (calm canonical isDirectory) (transaction.swap P) s =
      ((.ok (), { transaction with state := .swapped }), s') ∧
        HasDigest P staged (s' transaction.update.target) ∧
          HasDigest P digest (s' transaction.update.backup) := by
  obtain ⟨s₁, hmovedOut, htemp, hheld⟩ : ∃ s₁, exec (calm canonical isDirectory)
      (moveOut P transaction.update).run s = (.ok (), s₁) ∧
        HasDigest P staged (s₁ transaction.update.temp) ∧
          HasDigest P digest (s₁ transaction.update.backup) :=
    exec_moveOut habout hstaged hs
  obtain ⟨s₂, hmovedIn, htarget, hbackup⟩ : ∃ s₂, exec (calm canonical isDirectory)
      (moveIn transaction.update).run s₁ = (.ok (), s₂) ∧
        HasDigest P staged (s₂ transaction.update.target) ∧
          HasDigest P digest (s₂ transaction.update.backup) :=
    exec_moveIn htemp hheld hne habout.temp_ne_backup
  have hwork : exec (calm canonical isDirectory) (do
      check (failIf (transaction.state ≠ .validated) .invalidState)
      moveOut P transaction.update
      moveIn transaction.update
      confirmSwap P transaction.update :
        UpdateM (Maintainer.JournalState × Except MaintenanceError Unit)).run s =
          (.ok (.swapped, .ok ()), s₂) := by
    rw [exec_of_ok (exec_failIf (by simp [hstate])), exec_of_ok hmovedOut, exec_of_ok hmovedIn,
      exec_confirmSwap hstaged htarget]
  obtain ⟨lines, hadvance⟩ := exec_advance hwork hparent
  refine ⟨_, hadvance, ?_, ?_⟩
  · rw [Function.update_of_ne habout.journal_ne_target.symm]
    exact htarget
  · rw [Function.update_of_ne habout.journal_ne_backup.symm]
    exact hbackup

theorem exec_rollback (hstate : transaction.state = .swapped)
    (hfile : isDirectory transaction.update.target = false)
    (hbackup : HasDigest P digest (s transaction.update.backup)) :
    ∃ s', exec (calm canonical isDirectory) (transaction.rollback P) s =
      ((.ok (), { transaction with state := .rolledBack }), s') ∧
        HasDigest P digest (s' transaction.update.target) := by
  obtain ⟨s₁, hput, htarget⟩ : ∃ s₁, exec (calm canonical isDirectory)
      (putBack P transaction.update).run s = (.ok (), s₁) ∧
        HasDigest P digest (s₁ transaction.update.target) :=
    exec_putBack habout.digest_eq hbackup hne habout.temp_ne_target.symm hfile
  have hwork : exec (calm canonical isDirectory) (do
      check (failIf (transaction.state ≠ .swapped ∧ transaction.state ≠ .validated) .invalidState)
      rollbackPaths P transaction.update
      return (.rolledBack, .ok ()) :
        UpdateM (Maintainer.JournalState × Except MaintenanceError Unit)).run s =
      (.ok (.rolledBack, .ok ()), s₁) := by
    have hrolledBack : exec (calm canonical isDirectory)
        (rollbackPaths P transaction.update).run s = (.ok (), s₁) := by
      rw [rollbackPaths, exec_of_ok (exec_isFile_of_some hbackup.isSome),
        exec_of_ok (exec_failIf (by simp)), hput]
    rw [exec_of_ok (exec_failIf (by simp [hstate])), exec_of_ok hrolledBack]
    rfl
  obtain ⟨lines, hadvance⟩ := exec_advance hwork hparent
  refine ⟨_, hadvance, ?_⟩
  rw [Function.update_of_ne habout.journal_ne_target.symm]
  exact htarget

end Transactions

/-- The transaction finds the binaries as they were when it was begun. -/
theorem Preparable.begun {staged : String} (h : Planned canonical plan digest)
    (hp : Preparable P canonical isDirectory plan digest staged s) (lines : List UInt8) :
    Swappable P isDirectory (recoveryUpdate canonical plan) digest staged
      (Function.update s (journalOf plan) (some lines)) := by
  have habsent := hp.made_absent
  simp only [List.forall_mem_cons] at habsent
  obtain ⟨hbackup, htemp, hjournal, -⟩ := habsent
  have hstaged : canonical plan.stagedExecutable ≠ journalOf plan := by
    intro heq
    have hsome := hp.staged_digest.isSome
    rw [heq, hjournal.1] at hsome
    cases hsome
  have hsame {path : String} (hne : path ≠ journalOf plan) :
      Function.update s (journalOf plan) (some lines) path = s path := Function.update_of_ne hne ..
  refine ⟨?_, ?_, ?_, ?_⟩
  · change HasDigest P digest (Function.update s _ _ (targetOf canonical plan))
    rw [hsame h.journal_ne_target.symm]
    exact hp.target_digest
  · change HasDigest P staged (Function.update s _ _ (canonical plan.stagedExecutable))
    rw [hsame hstaged]
    exact hp.staged_digest
  · change Function.update s _ _ (backupOf canonical plan) = none ∧ _
    rw [hsame h.journal_ne_backup.symm]
    exact hbackup
  · change Function.update s _ _ (tempOf canonical plan) = none ∧ _
    rw [hsame hp.journal_ne_temp.symm]
    exact htemp

/-- An update that nothing disturbs succeeds, and can then be committed or rolled back. -/
theorem undisturbed_update {staged : String} (h : Planned canonical plan digest)
    (hp : Preparable P canonical isDirectory plan digest staged s) :
    ∃ begun s₁ swapped s₂,
      exec (calm canonical isDirectory) (begin P plan).run s = (.ok begun, s₁) ∧
      exec (calm canonical isDirectory) (begun.swap P) s₁ = ((.ok (), swapped), s₂) ∧
      HasDigest P staged (s₂ (targetOf canonical plan)) ∧
      HasDigest P digest (s₂ (backupOf canonical plan)) ∧
      (∃ committed s₃, exec (calm canonical isDirectory) (swapped.commit P) s₂ =
        ((.ok (), committed), s₃) ∧ HasDigest P staged (s₃ (targetOf canonical plan))) ∧
      ∃ restored s₃, exec (calm canonical isDirectory) (swapped.rollback P) s₂ =
        ((.ok (), restored), s₃) ∧ HasDigest P digest (s₃ (targetOf canonical plan)) := by
  obtain ⟨lines, hbegin⟩ := exec_begin h hp
  have hstarts := hp.begun h lines
  have habout : About (targetOf canonical plan) (backupOf canonical plan) digest
      (recoveryUpdate canonical plan) := h.about rfl rfl rfl rfl rfl
  have hparent : (parent (journalOf plan)).isSome := by
    obtain ⟨directory, hparent, -⟩ := (hp.outputs (journalOf plan) (by simp)).directory
    rw [hparent]
    rfl
  obtain ⟨s₂, hswap, htarget, hbackup⟩ :=
    exec_swap (begunTransaction canonical plan) habout targetOf_ne_backupOf hparent hp.staged_eq rfl
      hstarts
  refine ⟨_, _, _, s₂, hbegin, hswap, htarget, hbackup, ?_, ?_⟩
  · obtain ⟨s₃, hcommit, hcommitted⟩ :=
      exec_commit { begunTransaction canonical plan with state := .swapped } habout hparent
        hp.staged_eq rfl htarget
    exact ⟨_, s₃, hcommit, hcommitted⟩
  · obtain ⟨s₃, hrollback, hrestored⟩ :=
      exec_rollback { begunTransaction canonical plan with state := .swapped } habout
        targetOf_ne_backupOf hparent rfl hp.target_file hbackup
    exact ⟨_, s₃, hrollback, hrestored⟩

open RecoverySample in
theorem preparable_installed : Preparable reference id RecoverySample.isDirectory agentPlan
    agentPlan.expectedCurrentSha256 agentPlan.expectedStagedSha256 installed where
  shape := agentPlan_shape
  root_absent := by decide
  root_directory := by decide
  target_digest := ⟨utf8 "old", by decide, rfl⟩
  target_file := by decide
  target_within := by decide
  staged_digest := ⟨utf8 "new", by decide, rfl⟩
  staged_within := by decide
  staged_eq := normalizeSha256_sha256Hex ..
  distinct := by decide
  working_absent := by decide
  working_directory := by decide
  working_within := by decide
  outputs := agentPlan_outputs
  made_absent := by
    simp only [List.forall_mem_cons]
    exact ⟨by decide, by decide, by decide, by simp⟩
  journal_ne_temp := by decide

open RecoverySample in
theorem undisturbed_update_installed : ∃ begun s₁ swapped s₂,
    exec (calm id RecoverySample.isDirectory) (begin reference agentPlan).run installed =
      (.ok begun, s₁) ∧
    exec (calm id RecoverySample.isDirectory) (begun.swap reference) s₁ = ((.ok (), swapped), s₂) ∧
    HasDigest reference agentPlan.expectedStagedSha256 (s₂ (targetOf id agentPlan)) := by
  obtain ⟨begun, s₁, swapped, s₂, hbegin, hswap, htarget, -⟩ :=
    undisturbed_update planned preparable_installed
  exact ⟨begun, s₁, swapped, s₂, hbegin, hswap, htarget⟩

end Update

end VorCommander
