import VorCommander.Maintainer.Kept
import VorCommander.Text.Delimited

/-!
Everything that is done with a plan.

The sessions of a maintainer are any sequence of transactions and recoveries under one
plan, each call of which may fail or be stopped anywhere. In all of them the previous
binary is kept.
-/

namespace VorCommander

open Crypto Steps Steps.Program Text WindowsPath

namespace Update

variable {P : Primitives} {canonical : String → String} {digest : String} {plan : UpdatePlan}
  {K : Option (List UInt8) → Option (List UInt8) → Prop}

/-! ### Plans -/

section

variable (canonical : String → String) (plan : UpdatePlan)

/-- The directory of the target of a plan. -/
def directoryOf : String := canonical ((parent plan.targetExecutable).getD "")

def nameOf : String := (fileName plan.targetExecutable).getD ""

def targetOf : String := join (directoryOf canonical plan) (nameOf plan)

def backupOf : String :=
  join (directoryOf canonical plan) (backupName (nameOf plan) plan.requestId)

def tempOf : String := join (directoryOf canonical plan) (tempName (nameOf plan) plan.requestId)

def journalOf : String := join plan.journalDirectory (journalName plan.requestId)

/-- The target of the plan is spelled as the host spells it, and is not a link. The journal
is another file than the target and the backup. -/
structure Planned (digest : String) : Prop where
  parent_isSome : (parent plan.targetExecutable).isSome
  fileName_isSome : (fileName plan.targetExecutable).isSome
  canonical_target : canonical plan.targetExecutable = targetOf canonical plan
  fileName_target : fileName (targetOf canonical plan) = some (nameOf plan)
  parent_target : parent (targetOf canonical plan) = some (directoryOf canonical plan)
  canonical_backup : canonical (backupOf canonical plan) = backupOf canonical plan
  journal_ne_target : journalOf plan ≠ targetOf canonical plan
  journal_ne_backup : journalOf plan ≠ backupOf canonical plan
  digest_eq : normalizeSha256 plan.expectedCurrentSha256 = .ok digest

end

theorem backupName_ne (name requestId : String) : name ≠ backupName name requestId := by
  intro h
  have hlength := congrArg (fun text => text.toList.length) h
  simp [backupName] at hlength
  omega

theorem tempName_ne (name requestId : String) : tempName name requestId ≠ name := by
  intro h
  have hlength := congrArg (fun text => text.toList.length) h
  simp [tempName] at hlength
  omega

theorem tempName_ne_backupName (name requestId : String) :
    tempName name requestId ≠ backupName name requestId := by
  intro h
  have hend := congrArg String.toList h
  simp [tempName, backupName] at hend

theorem targetOf_ne_backupOf : targetOf canonical plan ≠ backupOf canonical plan :=
  fun heq => backupName_ne _ _ (join_injective heq)

namespace Planned

variable (h : Planned canonical plan digest)

include h

/-- What a validated update is, wherever its other files are. -/
theorem about {update : ValidatedUpdate} (hplan : update.plan = plan)
    (htarget : update.target = targetOf canonical plan)
    (hbackup : update.backup = backupOf canonical plan)
    (htemp : update.temp = tempOf canonical plan) (hjournal : update.journal = journalOf plan) :
    About (targetOf canonical plan) (backupOf canonical plan) digest update where
  target_eq := htarget
  backup_eq := hbackup
  digest_eq := hplan ▸ h.digest_eq
  temp_ne_target := htemp ▸ fun heq => tempName_ne _ _ (join_injective heq)
  temp_ne_backup := htemp ▸ fun heq => tempName_ne_backupName _ _ (join_injective heq)
  journal_ne_target := hjournal ▸ h.journal_ne_target
  journal_ne_backup := hjournal ▸ h.journal_ne_backup

end Planned

section Validate

variable {target backup : String} (hK : ∀ t b, K t b → Kept P digest t b)

include hK

theorem keeps_canonicalize (path : String) :
    Keeps P canonical target backup digest (At target backup K) (call (.canonicalize path)).run
      (either (fun _ => At target backup K)
        fun resolved s => resolved = canonical path ∧ At target backup K s) := by
  refine keeps_call fun s reply s' hs hcommit => ?_
  have hs' := at_of_avoids hs (avoids_of_quiet _ rfl) hcommit
  refine ⟨hK _ _ hs', ?_⟩
  obtain ⟨found, -, hcommits⟩ := hcommit
  cases reply with
  | error e => exact hs'
  | ok resolved => exact ⟨hcommits.2, hs'⟩

theorem keeps_canonicalFileWithin (path root : String) :
    Keeps P canonical target backup digest (At target backup K)
      (canonicalFileWithin path root).run
      (either (fun _ => At target backup K)
        fun resolved s => resolved = canonical path ∧ At target backup K s) := by
  refine Triple.exceptT_bind (keeps_canonicalize hK path) fun resolved => ?_
  refine Triple.of_pure fun hresolved => ?_
  refine Triple.exceptT_bind (keeps_asks _ _ hK) fun file => ?_
  refine Triple.check_bind (fun _ _ _ hs => hs) fun _ _ => ?_
  refine Triple.check_bind (fun _ _ _ hs => hs) fun _ _ => ?_
  exact Triple.pure fun s hs => ⟨hresolved, hs⟩

/-- A path that is only checked. -/
theorem keeps_outputPathWithin (path root : String) :
    Keeps P canonical target backup digest (At target backup K) (outputPathWithin path root).run
      (either (fun _ => At target backup K)
        fun output s => output = path ∧ At target backup K s) := by
  refine Triple.exceptT_bind
    (keeps_of_only (only_ensureOutputPathWithin avoids_of_quiet path root) hK) fun _ => ?_
  exact Triple.pure fun s hs => ⟨rfl, hs⟩

end Validate

/-- What is at the target and at the backup of the plan. -/
abbrev AtPlan (canonical : String → String) (plan : UpdatePlan)
    (K : Option (List UInt8) → Option (List UInt8) → Prop) : FileSystem → Prop :=
  At (targetOf canonical plan) (backupOf canonical plan) K

abbrev KeepsPlan {α : Type} (P : Primitives) (canonical : String → String) (plan : UpdatePlan)
    (digest : String) (pre : FileSystem → Prop) (p : Program UpdateFiles α)
    (post : α → FileSystem → Prop) : Prop :=
  Keeps P canonical (targetOf canonical plan) (backupOf canonical plan) digest pre p post

/-- An update under the plan. -/
def Under (canonical : String → String) (plan : UpdatePlan) (digest : String)
    (update : ValidatedUpdate) : Prop :=
  update.plan = plan ∧
    About (targetOf canonical plan) (backupOf canonical plan) digest update

theorem keeps_validateBackup {update : ValidatedUpdate} (hplan : update.plan = plan)
    (habout : About (targetOf canonical plan) (backupOf canonical plan) digest update) :
    KeepsPlan P canonical plan digest (AtPlan canonical plan (Kept P digest))
      (validateBackup P update).run
      (either (fun _ => AtPlan canonical plan (Kept P digest))
        fun validated s =>
          Under canonical plan digest validated ∧ AtPlan canonical plan (BackedUp P digest) s) := by
  have hkept : ∀ t b, Kept P digest t b → Kept P digest t b := fun _ _ ht => ht
  rw [validateBackup, habout.backup_eq]
  refine Triple.exceptT_bind (keeps_of_only (only_asks avoids_of_quiet _ _) hkept) fun _ => ?_
  refine Triple.check_bind (fun _ _ _ hs => hs) fun _ _ => ?_
  refine Triple.exceptT_bind (keeps_of_only (only_call (avoids_of_quiet _ rfl)) hkept) fun _ => ?_
  refine Triple.check_bind (fun _ _ _ hs => hs) fun _ _ => ?_
  refine Triple.exceptT_bind (M := fun _ => AtPlan canonical plan (BackedUp P digest)) ?_
    fun _ => ?_
  · exact (keeps_verifyFileSha256 _ _ hkept).relax (fun _ _ hs => hs)
      fun _ _ hs => hs.2 _ habout.digest_eq
  have hrest {α : Type} {p : UpdateM α}
      (hp : Only (Avoids (targetOf canonical plan) (backupOf canonical plan)) p.run) :
      KeepsPlan P canonical plan digest (AtPlan canonical plan (BackedUp P digest)) p.run
        (either (fun _ => AtPlan canonical plan (Kept P digest))
          fun _ => AtPlan canonical plan (BackedUp P digest)) :=
    (keeps_of_only hp fun _ _ => BackedUp.kept).relax (fun _ _ hs => hs.kept) fun _ _ hs => hs
  refine Triple.exceptT_bind (hrest (only_asks avoids_of_quiet _ _)) fun found => ?_
  cases found with
  | false => exact Triple.pure fun s hs => ⟨⟨hplan, habout⟩, hs⟩
  | true =>
      refine Triple.exceptT_bind (hrest (only_call (avoids_of_quiet _ rfl))) fun _ => ?_
      refine Triple.exceptT_bind (hrest (Only.check _)) fun _ => ?_
      refine Triple.exceptT_bind (hrest (only_asks avoids_of_quiet _ _)) fun _ => ?_
      refine Triple.exceptT_bind (hrest (Only.check _)) fun _ => ?_
      exact Triple.pure fun s hs => ⟨⟨hplan, habout⟩, hs⟩

namespace Planned

variable (h : Planned canonical plan digest) (hK : ∀ t b, K t b → Kept P digest t b)

include h hK

theorem keeps_validatePlan :
    KeepsPlan P canonical plan digest (AtPlan canonical plan K)
      (validatePlan P plan).run
      (either (fun _ => AtPlan canonical plan K)
        fun update s => Under canonical plan digest update ∧ AtPlan canonical plan K s) := by
  refine Triple.check_bind (fun _ _ _ hs => hs) fun _ _ => ?_
  refine Triple.exceptT_bind (keeps_of_only (only_call (avoids_of_quiet _ rfl)) hK) fun root => ?_
  refine Triple.exceptT_bind (keeps_asks _ _ hK) fun found => ?_
  refine Triple.check_bind (fun _ _ _ hs => hs) fun _ _ => ?_
  refine Triple.exceptT_bind (keeps_canonicalFileWithin hK _ _) fun target => ?_
  refine Triple.of_pure fun htarget => ?_
  rw [h.canonical_target] at htarget
  refine Triple.exceptT_bind
    (keeps_of_only (only_canonicalFileWithin avoids_of_quiet _ _) hK) fun staged => ?_
  refine Triple.check_bind (fun _ _ _ hs => hs) fun _ _ => ?_
  refine Triple.exceptT_bind
    (keeps_of_only (only_verifyFileSha256 avoids_of_quiet _ _) hK) fun _ => ?_
  refine Triple.exceptT_bind
    (keeps_of_only (only_verifyFileSha256 avoids_of_quiet _ _) hK) fun _ => ?_
  refine Triple.exceptT_bind
    (keeps_of_only (only_canonicalDirectoryWithin avoids_of_quiet _ _) hK) fun _ => ?_
  refine Triple.exceptT_bind (keeps_outputPathWithin hK _ _) fun journalDirectory => ?_
  refine Triple.of_pure fun hjournal => ?_
  refine Triple.exceptT_bind
    (keeps_of_only (only_outputPathWithin avoids_of_quiet _ _) hK) fun _ => ?_
  refine Triple.exceptT_bind
    (keeps_of_only (only_outputPathWithin avoids_of_quiet _ _) hK) fun _ => ?_
  refine Triple.exceptT_bind
    (keeps_of_only (only_outputPathWithin avoids_of_quiet _ _) hK) fun _ => ?_
  refine Triple.check_bind (fun _ _ _ hs => hs) fun name hname => ?_
  refine Triple.check_bind (fun _ _ _ hs => hs) fun directory hdirectory => ?_
  refine Triple.exceptT_bind
    (keeps_of_only (only_ensureOutputPathWithin avoids_of_quiet _ _) hK) fun _ => ?_
  refine Triple.exceptT_bind
    (keeps_of_only (only_ensureOutputPathWithin avoids_of_quiet _ _) hK) fun _ => ?_
  refine Triple.exceptT_bind
    (keeps_of_only (only_ensureOutputPathWithin avoids_of_quiet _ _) hK) fun _ => ?_
  refine Triple.pure fun s hs => ⟨⟨rfl, ?_⟩, hs⟩
  subst htarget hjournal
  have hname : name = nameOf plan :=
    Option.some.inj ((orFail_eq_ok.mp hname).symm.trans h.fileName_target)
  have hdirectory : directory = directoryOf canonical plan :=
    Option.some.inj ((orFail_eq_ok.mp hdirectory).symm.trans h.parent_target)
  subst hname hdirectory
  exact h.about rfl rfl rfl rfl rfl

theorem keeps_begin :
    KeepsPlan P canonical plan digest (AtPlan canonical plan K) (begin P plan).run
      (either (fun _ => AtPlan canonical plan K) fun transaction s =>
        Under canonical plan digest transaction.update ∧ AtPlan canonical plan K s) := by
  refine Triple.exceptT_bind (h.keeps_validatePlan hK) fun update => ?_
  refine Triple.of_pure fun hunder => ?_
  refine Triple.exceptT_bind
    (keeps_of_only (only_createParent avoids_of_quiet _) hK) fun _ => ?_
  refine Triple.exceptT_bind (keeps_asks _ _ hK) fun _ => ?_
  refine Triple.check_bind (fun _ _ _ hs => hs) fun _ _ => ?_
  refine Triple.exceptT_bind (keeps_of_only (hunder.2.only_appendJournal _ _) hK) fun _ => ?_
  exact Triple.pure fun s hs => ⟨hunder, hs⟩

omit hK

theorem keeps_validateRecoveryPlan :
    KeepsPlan P canonical plan digest (AtPlan canonical plan (Kept P digest))
      (validateRecoveryPlan P plan).run
      (either (fun _ => AtPlan canonical plan (Kept P digest))
        fun update s =>
          Under canonical plan digest update ∧ AtPlan canonical plan (BackedUp P digest) s) := by
  have hK : ∀ t b, Kept P digest t b → Kept P digest t b := fun _ _ ht => ht
  refine Triple.check_bind (fun _ _ _ hs => hs) fun _ _ => ?_
  refine Triple.exceptT_bind (keeps_of_only (only_call (avoids_of_quiet _ rfl)) hK) fun root => ?_
  refine Triple.exceptT_bind (keeps_asks _ _ hK) fun found => ?_
  refine Triple.check_bind (fun _ _ _ hs => hs) fun _ _ => ?_
  refine Triple.check_bind (fun _ _ _ hs => hs) fun targetParent hparent => ?_
  refine Triple.exceptT_bind (keeps_canonicalize hK _) fun directory => ?_
  refine Triple.of_pure fun hdirectory => ?_
  refine Triple.check_bind (fun _ _ _ hs => hs) fun _ _ => ?_
  refine Triple.check_bind (fun _ _ _ hs => hs) fun name hname => ?_
  refine Triple.exceptT_bind
    (keeps_of_only (only_canonicalFileWithin avoids_of_quiet _ _) hK) fun staged => ?_
  refine Triple.exceptT_bind
    (keeps_of_only (only_canonicalDirectoryWithin avoids_of_quiet _ _) hK) fun _ => ?_
  refine Triple.exceptT_bind (keeps_outputPathWithin hK _ _) fun journalDirectory => ?_
  refine Triple.of_pure fun hjournal => ?_
  refine Triple.exceptT_bind
    (keeps_of_only (only_outputPathWithin avoids_of_quiet _ _) hK) fun _ => ?_
  refine Triple.exceptT_bind
    (keeps_of_only (only_outputPathWithin avoids_of_quiet _ _) hK) fun _ => ?_
  refine Triple.exceptT_bind
    (keeps_of_only (only_outputPathWithin avoids_of_quiet _ _) hK) fun _ => ?_
  have hdirectory : directory = directoryOf canonical plan := by
    rw [hdirectory, directoryOf, orFail_eq_ok.mp hparent]
    rfl
  have hname : name = nameOf plan := by
    rw [nameOf, orFail_eq_ok.mp hname]
    rfl
  subst hdirectory hname hjournal
  exact keeps_validateBackup rfl (h.about rfl rfl rfl rfl rfl)

theorem keeps_recoverPrevious :
    KeepsPlan P canonical plan digest (AtPlan canonical plan (Kept P digest))
      (recoverPrevious P plan).run
      (either (fun _ => AtPlan canonical plan (Kept P digest))
        fun _ => AtPlan canonical plan (Restored P digest)) := by
  refine Triple.exceptT_bind h.keeps_validateRecoveryPlan fun update => ?_
  refine Triple.of_pure fun hunder => ?_
  refine Triple.exceptT_bind (hunder.2.keeps_putBack targetOf_ne_backupOf) fun _ => ?_
  refine Triple.exceptT_bind ((keeps_of_only (hunder.2.only_appendJournal _ _)
    fun _ _ => Restored.kept).relax (fun _ _ hs => hs.kept) fun _ _ hs => hs) fun _ => ?_
  exact Triple.pure fun _ hs => hs

end Planned

/-! ### A host -/

/-- The host on which every operation succeeds that can. Apart from the regular files it
has directories. -/
def calm (canonical : String → String) (isDirectory : String → Bool) :
    Handler UpdateFiles FileSystem where
  answer files op := match op with
    | .metadata path =>
        (if (files path).isSome then .ok .file
          else if isDirectory path then .ok .directory else .error "not found", files)
    | .canonicalize path => (.ok (canonical path), files)
    | .read path => ((files path).elim (.error "not found") .ok, files)
    | .openRead path => (if (files path).isSome then .ok () else .error "not found", files)
    | .createDirAll _ => (.ok (), files)
    | .sync _ => (.ok (), files)
    | .createNew path =>
        if files path = none then (.ok (), Function.update files path (some []))
        else (.error "file exists", files)
    | .openAppend path => (.ok (), Function.update files path (some ((files path).getD [])))
    | .copy source target =>
        match files source with
        | some content => (.ok (), Function.update files target (some content))
        | none => (.error "not found", files)
    | .append path content =>
        match files path with
        | some old => (.ok (), Function.update files path (some (old ++ content)))
        | none => (.error "not found", files)
    | .rename source target =>
        match files source with
        | some content =>
            (.ok (), Function.update (Function.update files source none) target (some content))
        | none => (.error "not found", files)
    | .remove path =>
        if (files path).isSome then (.ok (), Function.update files path none)
        else (.error "not found", files)

/-- What such a host does, a host may do. -/
theorem calm_sound (isDirectory : String → Bool) (mine : List String)
    (s : FileSystem) (op : UpdateOp) :
    UpdateFiles.Commit canonical mine s ⟨op, ((calm canonical isDirectory).answer s op).1⟩
      ((calm canonical isDirectory).answer s op).2 := by
  refine ⟨s, fun _ _ => rfl, ?_⟩
  cases op with
  | metadata path =>
      cases hfile : (s path).isSome <;> cases hdirectory : isDirectory path <;>
        simp [calm, UpdateOp.Commits, UpdateOp.change, UpdateOp.answers, hfile, hdirectory]
  | read path =>
      cases hfile : s path <;>
        simp [calm, UpdateOp.Commits, UpdateOp.change, UpdateOp.answers, hfile]
  | openRead path =>
      cases hfile : s path <;>
        simp [calm, UpdateOp.Commits, UpdateOp.change, UpdateOp.answers, hfile]
  | createNew path =>
      cases hfile : s path <;>
        simp [calm, UpdateOp.Commits, UpdateOp.change, UpdateOp.answers, hfile]
  | copy source target =>
      cases hfile : s source <;>
        simp [calm, UpdateOp.Commits, UpdateOp.change, UpdateOp.answers, hfile]
  | append path content =>
      cases hfile : s path <;>
        simp [calm, UpdateOp.Commits, UpdateOp.change, UpdateOp.answers, hfile]
  | rename source target =>
      cases hfile : s source <;>
        simp [calm, UpdateOp.Commits, UpdateOp.change, UpdateOp.answers, hfile]
  | remove path =>
      cases hfile : s path <;>
        simp [calm, UpdateOp.Commits, UpdateOp.change, UpdateOp.answers, hfile]
  | _ => exact ⟨rfl, by trivial⟩

/-! ### Sessions -/

/-- What a maintainer may do with a plan, with a transaction at hand or without one. -/
inductive Call (P : Primitives) (plan : UpdatePlan) :
    Option Maintainer.MaintenanceTransaction →
      Program UpdateFiles (Option Maintainer.MaintenanceTransaction) → Prop
  | begin (held : Option Maintainer.MaintenanceTransaction) :
      Call P plan held (Except.toOption <$> (begin P plan).run)
  | swap (transaction : Maintainer.MaintenanceTransaction) :
      Call P plan (some transaction) ((fun out => some out.2) <$> transaction.swap P)
  | commit (transaction : Maintainer.MaintenanceTransaction) :
      Call P plan (some transaction) ((fun out => some out.2) <$> transaction.commit P)
  | rollback (transaction : Maintainer.MaintenanceTransaction) :
      Call P plan (some transaction) ((fun out => some out.2) <$> transaction.rollback P)
  | recoverPrevious (held : Option Maintainer.MaintenanceTransaction) :
      Call P plan held ((fun _ => held) <$> (recoverPrevious P plan).run)

/-- Other programs leave the target and the backup alone. -/
def Others (canonical : String → String) (plan : UpdatePlan) (s s' : FileSystem) : Prop :=
  s' (targetOf canonical plan) = s (targetOf canonical plan) ∧
    s' (backupOf canonical plan) = s (backupOf canonical plan)

/-- The files, and the transaction at hand, in the course of the sessions under a plan. In
the beginning the previous binary is the target, and there is no backup. -/
abbrev Managed (P : Primitives) (canonical : String → String) (plan : UpdatePlan)
    (digest : String) : FileSystem → Option Maintainer.MaintenanceTransaction → Prop :=
  Sessions (UpdateFiles.Commit canonical [targetOf canonical plan, backupOf canonical plan])
    (Others canonical plan) (AtPlan canonical plan (Restored P digest)) none (Call P plan)

/-- What holds between two calls. -/
def Sound (P : Primitives) (canonical : String → String) (plan : UpdatePlan) (digest : String)
    (held : Option Maintainer.MaintenanceTransaction) (s : FileSystem) : Prop :=
  (∀ transaction, held = some transaction → Under canonical plan digest transaction.update) ∧
    AtPlan canonical plan (Kept P digest) s

theorem sound_none {s : FileSystem} :
    Sound P canonical plan digest none s ↔ AtPlan canonical plan (Kept P digest) s := by
  simp [Sound]

/-- Each call leads from what holds between two calls to what holds between two calls. -/
theorem Planned.sound_of_call (h : Planned canonical plan digest)
    {held : Option Maintainer.MaintenanceTransaction}
    {p : Program UpdateFiles (Option Maintainer.MaintenanceTransaction)} (hp : Call P plan held p) :
    Triple (UpdateFiles.Commit canonical [targetOf canonical plan, backupOf canonical plan])
      (Sound P canonical plan digest none) (Sound P canonical plan digest held) p
      (Sound P canonical plan digest) := by
  refine Triple.weaken ?_ fun _ => sound_none.mpr
  refine Triple.of_pure fun hheld => ?_
  have hstays : ∀ {transaction : Maintainer.MaintenanceTransaction},
      Under canonical plan digest transaction.update →
      ∀ (out : Except MaintenanceError Unit × Maintainer.MaintenanceTransaction) s,
      AtPlan canonical plan (Kept P digest) s ∧ out.2.update = transaction.update →
      Sound P canonical plan digest (some out.2) s := by
    rintro transaction hunder out s ⟨hkept, hupdate⟩
    refine ⟨fun transaction' htransaction => ?_, hkept⟩
    obtain rfl := Option.some.inj htransaction
    exact hupdate ▸ hunder
  cases hp with
  | begin held =>
      refine Triple.map ((h.keeps_begin fun _ _ hs => hs).mono (fun _ hs => hs) ?_)
      rintro (e | transaction) s hs
      · exact sound_none.mpr hs
      · refine ⟨fun transaction' htransaction => ?_, hs.2⟩
        obtain rfl := Option.some.inj htransaction
        exact hs.1
  | swap transaction =>
      have hunder := hheld transaction rfl
      exact Triple.map ((keeps_swap hunder.2 targetOf_ne_backupOf h.canonical_backup).mono
        (fun _ hs => hs) fun out s hs => hstays hunder out s ⟨hs.1, hs.2.1⟩)
  | commit transaction =>
      have hunder := hheld transaction rfl
      exact Triple.map ((keeps_commit hunder.2).mono (fun _ hs => hs)
        fun out s hs => hstays hunder out s ⟨hs.1, hs.2.1⟩)
  | rollback transaction =>
      have hunder := hheld transaction rfl
      exact Triple.map ((keeps_rollback hunder.2 targetOf_ne_backupOf h.canonical_backup).mono
        (fun _ hs => hs) fun out s hs => hstays hunder out s ⟨hs.1, hs.2.1⟩)
  | recoverPrevious held =>
      refine Triple.map (h.keeps_recoverPrevious.mono (fun _ hs => hs) ?_)
      rintro (e | update) s hs
      · exact ⟨hheld, hs⟩
      · exact ⟨hheld, hs.kept⟩

theorem Planned.sound (h : Planned canonical plan digest) {s : FileSystem}
    {held : Option Maintainer.MaintenanceTransaction}
    (hs : Managed P canonical plan digest s held) : Sound P canonical plan digest held s := by
  refine hs.invariant (fun _ hs => sound_none.mpr hs.kept) ?_ ?_ ?_
  · rintro s s' m ⟨hm, hs⟩ ⟨htarget, hbackup⟩
    refine ⟨hm, ?_⟩
    show Kept P digest (s' _) (s' _)
    rw [htarget, hbackup]
    exact hs
  · exact fun s m hs => sound_none.mpr hs.2
  · exact fun m p hp => h.sound_of_call hp

/-- Whatever is done with a plan, wherever it is stopped, the previous binary is kept. -/
theorem previous_binary_kept (h : Planned canonical plan digest) {s : FileSystem}
    {held : Option Maintainer.MaintenanceTransaction}
    (hs : Managed P canonical plan digest s held) :
    Kept P digest (s (targetOf canonical plan)) (s (backupOf canonical plan)) :=
  (h.sound hs).2

/-! ### A plan -/

theorem trim_of_forall {text : String} (h : ∀ c ∈ text.toList, isWhitespace c = false) :
    trim text = text := by
  have hkept {chars : List Char} (h : ∀ c ∈ chars, isWhitespace c = false) :
      chars.dropWhile isWhitespace = chars := by
    cases chars with
    | nil => rfl
    | cons c chars => rw [List.dropWhile_cons_of_neg (by simp [h c List.mem_cons_self])]
  rw [trim, hkept h, hkept fun c hc => h c (List.mem_reverse.mp hc), List.reverse_reverse,
    String.ofList_toList]

/-- A digest that has been written is read as it is. -/
theorem normalizeSha256_sha256Hex (P : Primitives) (content : List UInt8) :
    normalizeSha256 (sha256Hex P content) = .ok (sha256Hex P content) := by
  have hdigits : ∀ n < 16, isWhitespace (hexDigit n) = false ∧ (hexValue (hexDigit n)).isSome := by
    decide
  have hchars : ∀ c ∈ (sha256Hex P content).toList,
      isWhitespace c = false ∧ (hexValue c).isSome := by
    intro c hc
    rw [sha256Hex, hexEncode, String.toList_ofList] at hc
    obtain ⟨b, -, hb⟩ := List.mem_flatMap.mp hc
    have hlt := b.toNat_lt
    rcases List.mem_pair.mp hb with rfl | rfl
    · exact hdigits _ (by omega)
    · exact hdigits _ (by omega)
  have hlength : byteLength (sha256Hex P content) = 64 := by
    rw [sha256Hex, byteLength_hexEncode, Vector.length_toList]
  have hlower : toAsciiLowercase (sha256Hex P content) = sha256Hex P content := by
    rw [toAsciiLowercase, sha256Hex, asciiLower_hexEncode, String.ofList_toList]
  rw [normalizeSha256, trim_of_forall fun c hc => (hchars c hc).1, failIf_of_false, ok_bind, hlower]
  · rfl
  · rw [not_or, not_not, Bool.not_eq_false, List.all_eq_true]
    exact ⟨hlength, fun c hc => (hchars c hc).2⟩
namespace RecoverySample

/-- The previous binary is the text `old`, the staged one the text `new`. -/
def agentPlan : UpdatePlan where
  schema := 1
  requestId := "update-1"
  allowedRoot := "C:\\vor"
  targetExecutable := "C:\\vor\\agent.exe"
  stagedExecutable := "C:\\vor\\staged.exe"
  expectedCurrentSha256 := sha256Hex reference (utf8 "old")
  expectedStagedSha256 := sha256Hex reference (utf8 "new")
  journalDirectory := "C:\\vor\\journal"
  resultFile := "C:\\vor\\result.json"
  currentPid := 123
  restart :=
    { args := [], environment := ∅, workingDirectory := "C:\\vor"
      stdoutLog := "C:\\vor\\out.log", stderrLog := "C:\\vor\\err.log", healthWaitMs := 1000 }

def isDirectory (path : String) : Bool := path = "C:\\vor" || path = "C:\\vor\\journal"

def installed : FileSystem := fun path =>
  if path = "C:\\vor\\agent.exe" then some (utf8 "old")
  else if path = "C:\\vor\\staged.exe" then some (utf8 "new") else none

theorem planned : Planned id agentPlan agentPlan.expectedCurrentSha256 where
  parent_isSome := by decide
  fileName_isSome := by decide
  canonical_target := by decide
  fileName_target := by decide
  parent_target := by decide
  canonical_backup := rfl
  journal_ne_target := by decide
  journal_ne_backup := by decide
  digest_eq := normalizeSha256_sha256Hex reference _

theorem managed_installed :
    Managed reference id agentPlan agentPlan.expectedCurrentSha256 installed none :=
  .init ⟨by decide, utf8 "old", by decide, rfl⟩

/-- The transaction is begun. -/
theorem managed_begun :
    Managed reference id agentPlan agentPlan.expectedCurrentSha256
      (exec (calm id isDirectory) (Except.toOption <$> (begin reference agentPlan).run) installed).2
      (exec (calm id isDirectory)
        (Except.toOption <$> (begin reference agentPlan).run) installed).1 := by
  obtain ⟨h, hruns, -⟩ := runs_of_exec (h := []) (s := installed)
    (H := calm id isDirectory) (calm_sound isDirectory _)
    (Except.toOption <$> (begin reference agentPlan).run)
  exact .returned managed_installed (.begin none) hruns

end RecoverySample

open RecoverySample in
/-- While the transaction is begun the previous binary stays where it is. -/
theorem previous_binary_kept_begun :
    Kept reference agentPlan.expectedCurrentSha256
      ((exec (calm id isDirectory) (Except.toOption <$> (begin reference agentPlan).run)
        installed).2 (targetOf id agentPlan))
      ((exec (calm id isDirectory) (Except.toOption <$> (begin reference agentPlan).run)
        installed).2 (backupOf id agentPlan)) :=
  previous_binary_kept planned managed_begun

end Update

end VorCommander
