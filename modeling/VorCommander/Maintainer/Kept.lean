import VorCommander.Maintainer.Update

/-!
What becomes of the previous binary.

While other programs leave the target and the backup of a plan alone, one of the two is
the previous binary at every moment, whatever is done with the plan, whatever fails on
the way, and wherever the maintainer is stopped. The backup, where there is one, is
always the previous binary.
-/

namespace VorCommander

open Crypto Steps Steps.Program Text WindowsPath

/-! ### Operations -/

namespace UpdateOp

variable {canonical : String → String} {files files' : FileSystem} {op : UpdateOp}
  {reply : op.Reply} {path : String}

theorem change_of_notMem (h : op.change files = some files') (hpath : path ∉ op.touches) :
    files' path = files path := by
  cases op <;>
    simp only [change, touches, List.mem_cons, List.not_mem_nil, or_false, not_or,
      not_false_eq_true, Option.some.injEq, Option.map_eq_some_iff,
      Option.ite_none_right_eq_some] at h hpath
  case createNew => rw [← h.2, Function.update_of_ne hpath]
  case openAppend => rw [← h, Function.update_of_ne hpath]
  case copy =>
      obtain ⟨_, _, rfl⟩ := h
      exact Function.update_of_ne hpath ..
  case append =>
      obtain ⟨_, _, rfl⟩ := h
      exact Function.update_of_ne hpath ..
  case rename =>
      obtain ⟨_, _, rfl⟩ := h
      rw [Function.update_of_ne hpath.2, Function.update_of_ne hpath.1]
  case remove =>
      obtain ⟨_, _, rfl⟩ := h
      exact Function.update_of_ne hpath ..
  all_goals rw [h]

theorem mem_touches_of_fills (h : op.fills = some path) : path ∈ op.touches := by
  cases op <;> simp_all [fills, touches]

/-- An operation leaves the files it does not touch. -/
theorem Commits.untouched (h : op.Commits canonical files reply files')
    (hpath : path ∉ op.touches) :
    files' path = files path := by
  cases reply with
  | ok result => exact change_of_notMem h.1 hpath
  | error e =>
      rcases h with rfl | hchange | ⟨filled, content, hfills, rfl⟩
      · rfl
      · exact change_of_notMem hchange hpath
      · have hne : path ≠ filled := by
          rintro rfl
          exact hpath (mem_touches_of_fills hfills)
        exact Function.update_of_ne hne ..

/-- A file that was moved is where it was moved to, or nothing has happened. -/
theorem Commits.rename {source target : String} {reply : Except String Unit}
    (h : Commits canonical files (.rename source target) reply files') :
    reply ≠ .ok () ∧ files' = files ∨
      ∃ content, files source = some content ∧
        files' = Function.update (Function.update files source none) target (some content) := by
  have hmoved : (UpdateOp.rename source target).change files = some files' →
      ∃ content, files source = some content ∧
        files' = Function.update (Function.update files source none) target (some content) := by
    intro hchange
    obtain ⟨content, hsource, rfl⟩ := Option.map_eq_some_iff.mp hchange
    exact ⟨content, hsource, rfl⟩
  cases reply with
  | ok result => exact .inr (hmoved h.1)
  | error e =>
      rcases h with rfl | hchange | ⟨_, _, hfills, _⟩
      · exact .inl ⟨by simp, rfl⟩
      · exact .inr (hmoved hchange)
      · cases hfills

end UpdateOp

namespace Update

/-- The file has a digest. -/
def HasDigest (P : Primitives) (digest : String) (content : Option (List UInt8)) : Prop :=
  ∃ bytes, content = some bytes ∧ sha256Hex P bytes = digest

/-- What is at the target and at the backup. -/
def At (target backup : String) (K : Option (List UInt8) → Option (List UInt8) → Prop)
    (files : FileSystem) : Prop :=
  K (files target) (files backup)

section

variable (P : Primitives) (digest : String)

/-- The previous binary is the backup, or there is no backup and it is the target. -/
def Kept (target backup : Option (List UInt8)) : Prop :=
  HasDigest P digest backup ∨ backup = none ∧ HasDigest P digest target

/-- The previous binary is the backup. -/
def BackedUp (_ backup : Option (List UInt8)) : Prop := HasDigest P digest backup

/-- The previous binary is the target, and there is no backup. -/
def Restored (target backup : Option (List UInt8)) : Prop :=
  backup = none ∧ HasDigest P digest target

end

variable {P : Primitives} {canonical : String → String} {target backup digest : String}
  {K K' : Option (List UInt8) → Option (List UInt8) → Prop} {s s' : FileSystem}

theorem BackedUp.kept {t b : Option (List UInt8)} (h : BackedUp P digest t b) : Kept P digest t b :=
  .inl h

theorem Restored.kept {t b : Option (List UInt8)} (h : Restored P digest t b) : Kept P digest t b :=
  .inr h

/-- A binary that is at the target is not the only one, or there is no backup. -/
theorem Kept.backedUp {t b : Option (List UInt8)} (h : Kept P digest t b) (hb : b.isSome) :
    BackedUp P digest t b := by
  rcases h with h | ⟨rfl, -⟩
  · exact h
  · cases hb

/-- The target has the digest that was expected, as far as that is one. -/
def Expected (P : Primitives) (expected : String) (target : Option (List UInt8)) : Prop :=
  ∀ d, normalizeSha256 expected = .ok d → HasDigest P d target

/-- The staged binary is the target, and the previous one the backup. -/
def Replaced (P : Primitives) (staged digest : String) (target backup : Option (List UInt8)) :
    Prop :=
  Expected P staged target ∧ HasDigest P digest backup

theorem Replaced.kept {staged : String} {t b : Option (List UInt8)}
    (h : Replaced P staged digest t b) : Kept P digest t b :=
  .inl h.2

/-- Operations that leave the target and the backup alone. -/
def Avoids (target backup : String) (op : UpdateOp) : Prop :=
  target ∉ op.touches ∧ backup ∉ op.touches

/-- Operations that leave the backup alone. -/
def Spares (backup : String) (op : UpdateOp) : Prop := backup ∉ op.touches

/-! ### Rules of the operations -/

/-- What an operation that leaves the target and the backup alone has to say of them. -/
theorem at_of_avoids {e : Event UpdateFiles} (hs : At target backup K s)
    (hop : Avoids target backup e.op)
    (hcommit : UpdateFiles.Commit canonical [target, backup] s e s') : At target backup K s' := by
  obtain ⟨found, hsame, hcommits⟩ := hcommit
  show K (s' target) (s' backup)
  rw [hcommits.untouched hop.1, hcommits.untouched hop.2, hsame target (by simp),
    hsame backup (by simp)]
  exact hs

theorem backedUp_of_spares {e : Event UpdateFiles} (hs : At target backup (BackedUp P digest) s)
    (hop : Spares backup e.op) (hcommit : UpdateFiles.Commit canonical [target, backup] s e s') :
    At target backup (BackedUp P digest) s' := by
  obtain ⟨found, hsame, hcommits⟩ := hcommit
  show HasDigest P digest (s' backup)
  rw [hcommits.untouched hop, hsame backup (by simp)]
  exact hs

/-- The triples of this module. -/
abbrev Keeps {α : Type} (P : Primitives) (canonical : String → String)
    (target backup digest : String) (pre : FileSystem → Prop) (p : Program UpdateFiles α)
    (post : α → FileSystem → Prop) : Prop :=
  Triple (UpdateFiles.Commit canonical [target, backup]) (At target backup (Kept P digest)) pre p
    post

/-- A program that leaves both files alone. -/
theorem triple_of_only {α : Type} {p : Program UpdateFiles α}
    (hp : Only (Avoids target backup) p)
    (hK : ∀ t b, K t b → Kept P digest t b) :
    Keeps P canonical target backup digest (At target backup K) p fun _ => At target backup K :=
  (Triple.of_only hp fun _ _ _ _ hop hs hcommit => at_of_avoids hs hop hcommit).weaken
    fun _ hs => hK _ _ hs

/-- A program that leaves the backup alone. -/
theorem triple_of_spares {α : Type} {p : Program UpdateFiles α} (hp : Only (Spares backup) p) :
    Keeps P canonical target backup digest (At target backup (BackedUp P digest)) p
      fun _ => At target backup (BackedUp P digest) :=
  (Triple.of_only hp fun _ _ _ _ hop hs hcommit => backedUp_of_spares hs hop hcommit).weaken
    fun _ hs => hs.kept

/-! ### Questions -/

section Only

variable {kind : UpdateOp → Prop} (hquiet : ∀ op : UpdateOp, op.touches = [] → kind op)

theorem only_call {op : UpdateOp} (hop : kind op) : Only kind (call op).run :=
  (Only.attempt (Only.perform hop)).adapt _

theorem only_ignoring {op : UpdateOp} (hop : kind op) : Only kind (ignoring op).run :=
  Only.lift ((Only.perform hop).map _)

include hquiet

theorem only_asks (path : String) (holds : FileKind → Bool) : Only kind (asks path holds).run :=
  Only.lift ((Only.perform (hquiet _ rfl)).map _)

theorem only_verifyFileSha256 (path expected : String) :
    Only kind (verifyFileSha256 P path expected).run := by
  refine Only.exceptT_bind (Only.check _) fun _ => ?_
  refine Only.exceptT_bind ?_ fun _ => Only.check _
  exact Only.exceptT_bind (only_call (hquiet _ rfl)) fun _ => Only.pure _

theorem only_canonicalFileWithin (path root : String) :
    Only kind (canonicalFileWithin path root).run := by
  refine Only.exceptT_bind (only_call (hquiet _ rfl)) fun _ => ?_
  refine Only.exceptT_bind (only_asks hquiet _ _) fun _ => ?_
  refine Only.exceptT_bind (Only.check _) fun _ => ?_
  exact Only.exceptT_bind (Only.check _) fun _ => Only.pure _

theorem only_canonicalDirectoryWithin (path root : String) :
    Only kind (canonicalDirectoryWithin path root).run := by
  refine Only.exceptT_bind (only_call (hquiet _ rfl)) fun _ => ?_
  refine Only.exceptT_bind (only_asks hquiet _ _) fun _ => ?_
  refine Only.exceptT_bind (Only.check _) fun _ => ?_
  exact Only.exceptT_bind (Only.check _) fun _ => Only.pure _

theorem only_existingAncestor (ancestors : ℕ) (path : String) :
    Only kind (existingAncestor ancestors path).run := by
  induction ancestors generalizing path with
  | zero => exact Only.throw _
  | succ ancestors ih =>
      refine Only.exceptT_bind (only_asks hquiet _ _) fun found => ?_
      cases found with
      | true => exact Only.pure _
      | false => exact Only.exceptT_bind (Only.check _) fun directory => ih directory

theorem only_ensureOutputPathWithin (path root : String) :
    Only kind (ensureOutputPathWithin path root).run := by
  refine Only.exceptT_bind (Only.check _) fun _ => ?_
  refine Only.exceptT_bind (Only.check _) fun _ => ?_
  refine Only.exceptT_bind (only_existingAncestor hquiet _ _) fun _ => ?_
  exact Only.exceptT_bind (only_call (hquiet _ rfl)) fun _ => Only.check _

theorem only_outputPathWithin (path root : String) :
    Only kind (outputPathWithin path root).run :=
  Only.exceptT_bind (only_ensureOutputPathWithin hquiet _ _) fun _ => Only.pure _

theorem only_createParent (path : String) : Only kind (createParent path).run :=
  Only.exceptT_bind (Only.check _) fun _ => only_call (hquiet _ rfl)

theorem only_copySynced {source destination : String}
    (hnew : kind (.createNew destination)) (hcopy : kind (.copy source destination)) :
    Only kind (copySynced source destination).run := by
  refine Only.exceptT_bind (only_call (hquiet _ rfl)) fun _ => ?_
  refine Only.exceptT_bind (only_call hnew) fun _ => ?_
  exact Only.exceptT_bind (only_call hcopy) fun _ => only_call (hquiet _ rfl)

theorem only_appendJournal {update : ValidatedUpdate} (state : Maintainer.JournalState)
    (createNew : Bool) (hnew : kind (.createNew update.journal))
    (hopen : kind (.openAppend update.journal))
    (happend : ∀ content, kind (.append update.journal content)) :
    Only kind (appendJournal update state createNew).run := by
  refine Only.exceptT_bind (only_createParent hquiet _) fun _ => ?_
  have hrest : Only kind (do
      ExceptT.adapt MaintenanceError.json (attempt (perform (I := UpdateFiles)
        (.append update.journal (entry update state).toJson.toBytes)))
      call (.append update.journal (utf8 "\n"))
      call (.sync update.journal) : UpdateM Unit).run := by
    refine Only.exceptT_bind ((Only.attempt (Only.perform (happend _))).adapt _) fun _ => ?_
    exact Only.exceptT_bind (only_call (happend _)) fun _ => only_call (hquiet _ rfl)
  cases createNew with
  | true => exact Only.exceptT_bind (only_call hnew) fun _ => hrest
  | false => exact Only.exceptT_bind (only_call hopen) fun _ => hrest

end Only

/-! ### Rules of the parts -/

theorem avoids_of_quiet (op : UpdateOp) (hop : op.touches = []) : Avoids target backup op := by
  simp [Avoids, hop]

theorem spares_of_quiet (op : UpdateOp) (hop : op.touches = []) : Spares backup op := by
  simp [Spares, hop]

/-- A fallible program that leaves both files alone. -/
theorem keeps_of_only {α : Type} {p : UpdateM α} (hp : Only (Avoids target backup) p.run)
    (hK : ∀ t b, K t b → Kept P digest t b) :
    Keeps P canonical target backup digest (At target backup K) p.run
      (either (fun _ => At target backup K) fun _ => At target backup K) := by
  refine (triple_of_only hp hK).mono (fun _ hs => hs) ?_
  rintro (e | a) s hs <;> exact hs

theorem keeps_of_spares {α : Type} {p : UpdateM α} (hp : Only (Spares backup) p.run) :
    Keeps P canonical target backup digest (At target backup (BackedUp P digest)) p.run
      (either (fun _ => At target backup (BackedUp P digest))
        fun _ => At target backup (BackedUp P digest)) := by
  refine (triple_of_spares hp).mono (fun _ hs => hs) ?_
  rintro (e | a) s hs <;> exact hs

/-- The rule of one operation. -/
theorem keeps_call {op : UpdateOp} {pre : FileSystem → Prop} {err : FileSystem → Prop}
    {ok : op.Result → FileSystem → Prop}
    (h : ∀ s (reply : op.Reply) s', pre s →
      UpdateFiles.Commit canonical [target, backup] s ⟨op, reply⟩ s' →
      At target backup (Kept P digest) s' ∧ either (fun _ => err) ok reply s') :
    Keeps P canonical target backup digest pre (call op).run (either (fun _ => err) ok) :=
  Triple.adapt (Triple.attempt (Triple.perform h))

/-- A file whose digest was verified has it. -/
theorem keeps_verifyFileSha256 (path expected : String)
    (hK : ∀ t b, K t b → Kept P digest t b) :
    Keeps P canonical target backup digest (At target backup K)
      (verifyFileSha256 P path expected).run
      (either (fun _ => At target backup K)
        fun _ s => At target backup K s ∧ Expected P expected (s path)) := by
  refine Triple.check_bind (fun _ _ _ hs => hs) fun d hd => ?_
  have hread : Keeps P canonical target backup digest (At target backup K) (sha256File P path).run
      (either (fun _ => At target backup K)
        fun actual s => At target backup K s ∧ HasDigest P actual (s path)) := by
    refine Triple.exceptT_bind (M := fun content s =>
      At target backup K s ∧ s path = some content) ?_ fun content => ?_
    · refine keeps_call fun s reply s' hs hcommit => ?_
      have hs' := at_of_avoids hs (avoids_of_quiet _ rfl) hcommit
      refine ⟨hK _ _ hs', ?_⟩
      cases reply with
      | error e => exact hs'
      | ok content =>
          obtain ⟨found, -, hchange, hcontent⟩ := hcommit
          obtain rfl : found = s' := Option.some.inj hchange
          exact ⟨hs', hcontent⟩
    · exact Triple.pure fun s hs => ⟨hs.1, content, hs.2, rfl⟩
  refine Triple.exceptT_bind hread fun actual => ?_
  refine Triple.check fun s hs => ?_
  by_cases hsame : actual ≠ d
  · rw [failIf_of_true hsame]
    exact hs.1
  · rw [failIf_of_false hsame]
    refine ⟨hs.1, fun d' hd' => ?_⟩
    obtain rfl : d = d' := Except.ok.inj (hd.symm.trans hd')
    rw [← not_not.mp hsame]
    exact hs.2

/-- A question about a file, the answer to which is not used. -/
theorem keeps_asks (path : String) (holds : FileKind → Bool)
    (hK : ∀ t b, K t b → Kept P digest t b) :
    Keeps P canonical target backup digest (At target backup K) (asks path holds).run
      (either (fun _ => At target backup K) fun _ => At target backup K) :=
  keeps_of_only (only_asks avoids_of_quiet _ _) hK

/-- A backup that is there is the previous binary. -/
theorem keeps_isFile_backup (hcanonical : canonical backup = backup) :
    Keeps P canonical target backup digest (At target backup (Kept P digest)) (isFile backup).run
      (either (fun _ => At target backup (Kept P digest)) fun file s =>
        At target backup (Kept P digest) s ∧
          (file = true → At target backup (BackedUp P digest) s)) := by
  refine Triple.lift (Triple.map (Triple.perform fun s reply s' hs hcommit => ?_))
  have hs' := at_of_avoids hs (avoids_of_quiet _ rfl) hcommit
  refine ⟨hs', hs', fun hfile => hs'.backedUp ?_⟩
  obtain ⟨found, -, hcommits⟩ := hcommit
  cases reply with
  | error e => cases hfile
  | ok kind =>
      obtain ⟨hchange, hanswer⟩ := hcommits
      obtain rfl : found = s' := Option.some.inj hchange
      exact hanswer hcanonical (of_decide_eq_true hfile)

/-- The target is moved to the backup. -/
theorem triple_rename_out :
    Keeps P canonical target backup digest
      (fun s => At target backup (Kept P digest) s ∧ HasDigest P digest (s target))
      (perform (I := UpdateFiles) (.rename target backup))
      fun reply s => At target backup (Kept P digest) s ∧
        (reply = Except.ok () → At target backup (BackedUp P digest) s) := by
  refine Triple.perform fun s reply s' hs hcommit => ?_
  obtain ⟨found, hsame, hcommits⟩ := hcommit
  rcases hcommits.rename with ⟨hreply, rfl⟩ | ⟨content, htarget, rfl⟩
  · have hs' : At target backup (Kept P digest) s' := by
      show Kept P digest (s' target) (s' backup)
      rw [hsame target (by simp), hsame backup (by simp)]
      exact hs.1
    exact ⟨hs', hs', fun hok => absurd hok hreply⟩
  · obtain ⟨bytes, hbytes, hdigest⟩ := hs.2
    have hmoved : At target backup (BackedUp P digest)
        (Function.update (Function.update found target none) backup (some content)) := by
      show HasDigest P digest _
      rw [Function.update_self, ← htarget, hsame target (by simp), hbytes]
      exact ⟨bytes, rfl, hdigest⟩
    exact ⟨hmoved.kept, hmoved.kept, fun _ => hmoved⟩

/-- The backup is moved to the target. -/
theorem triple_rename_back (hne : target ≠ backup) :
    Keeps P canonical target backup digest (At target backup (BackedUp P digest))
      (perform (I := UpdateFiles) (.rename backup target))
      fun reply s => At target backup (Kept P digest) s ∧
        (reply = Except.ok () → At target backup (Restored P digest) s) := by
  refine Triple.perform fun s reply s' hs hcommit => ?_
  obtain ⟨found, hsame, hcommits⟩ := hcommit
  have hfound : HasDigest P digest (found backup) := by
    rw [hsame backup (by simp)]
    exact hs
  rcases hcommits.rename with ⟨hreply, rfl⟩ | ⟨content, hbackup, rfl⟩
  · have hs' : At target backup (Kept P digest) s' := .inl hfound
    exact ⟨hs', hs', fun hok => absurd hok hreply⟩
  · have hmoved : At target backup (Restored P digest)
        (Function.update (Function.update found backup none) target (some content)) := by
      refine ⟨?_, ?_⟩
      · rw [Function.update_of_ne hne.symm, Function.update_self]
      · rw [Function.update_self, ← hbackup]
        exact hfound
    exact ⟨hmoved.kept, hmoved.kept, fun _ => hmoved⟩

/-- An update with this target, this backup and this previous binary. -/
structure About (target backup digest : String) (update : ValidatedUpdate) : Prop where
  target_eq : update.target = target
  backup_eq : update.backup = backup
  digest_eq : normalizeSha256 update.plan.expectedCurrentSha256 = .ok digest
  temp_ne_target : update.temp ≠ target
  temp_ne_backup : update.temp ≠ backup
  journal_ne_target : update.journal ≠ target
  journal_ne_backup : update.journal ≠ backup

namespace About

variable {update : ValidatedUpdate} (h : About target backup digest update)
  (hne : target ≠ backup)

include h

theorem avoids_temp {op : UpdateOp} (hop : op.touches = [update.temp]) :
    Avoids target backup op := by
  simp [Avoids, hop, h.temp_ne_target.symm, h.temp_ne_backup.symm]

theorem avoids_journal {op : UpdateOp} (hop : op.touches = [update.journal]) :
    Avoids target backup op := by
  simp [Avoids, hop, h.journal_ne_target.symm, h.journal_ne_backup.symm]

theorem only_appendJournal (state : Maintainer.JournalState) (createNew : Bool) :
    Only (Avoids target backup) (appendJournal update state createNew).run :=
  Update.only_appendJournal avoids_of_quiet state createNew (h.avoids_journal rfl)
    (h.avoids_journal rfl) fun _ => h.avoids_journal rfl

/-- The previous binary is moved to the backup after all that can be checked has been. -/
theorem keeps_moveOut :
    Keeps P canonical target backup digest (At target backup (Kept P digest))
      (moveOut P update).run
      (either (fun _ => At target backup (Kept P digest))
        fun _ => At target backup (BackedUp P digest)) := by
  have hK : ∀ t b, Kept P digest t b ∧ HasDigest P digest t → Kept P digest t b :=
    fun _ _ => And.left
  have hquiet {α : Type} {p : UpdateM α} (hp : Only (Avoids target backup) p.run) :
      Keeps P canonical target backup digest
        (At target backup fun t b => Kept P digest t b ∧ HasDigest P digest t) p.run
        (either (fun _ => At target backup (Kept P digest))
          fun _ => At target backup fun t b => Kept P digest t b ∧ HasDigest P digest t) :=
    (keeps_of_only hp hK).relax (fun _ _ hs => hs.1) fun _ _ hs => hs
  rw [moveOut, h.target_eq, h.backup_eq]
  refine Triple.exceptT_bind (M := fun _ =>
    At target backup fun t b => Kept P digest t b ∧ HasDigest P digest t) ?_ fun _ => ?_
  · exact (keeps_verifyFileSha256 _ _ fun _ _ hs => hs).relax (fun _ _ hs => hs)
      fun _ _ hs => ⟨hs.1, hs.2 _ h.digest_eq⟩
  refine Triple.exceptT_bind (hquiet (only_verifyFileSha256 avoids_of_quiet _ _)) fun _ => ?_
  refine Triple.exceptT_bind (hquiet ?_) fun _ => ?_
  · refine Only.exceptT_bind (only_asks avoids_of_quiet _ _) fun found => ?_
    cases found with
    | true => exact Only.pure _
    | false => exact only_asks avoids_of_quiet _ _
  refine Triple.exceptT_bind (hquiet (Only.check _)) fun _ => ?_
  refine Triple.exceptT_bind (hquiet (only_copySynced avoids_of_quiet (h.avoids_temp rfl)
    (h.avoids_temp rfl))) fun _ => ?_
  refine Triple.exceptT_bind (hquiet (only_verifyFileSha256 avoids_of_quiet _ _)) fun _ => ?_
  refine Triple.exceptT_bind (M := fun reply s => At target backup (Kept P digest) s ∧
    (reply = Except.ok () → At target backup (BackedUp P digest) s))
    (Triple.lift (triple_rename_out.mono (fun _ hs => hs) fun _ _ hs => hs)) fun reply => ?_
  cases reply with
  | ok result => exact Triple.pure fun s hs => hs.2 rfl
  | error e =>
      refine Triple.exceptT_bind (M := fun _ => At target backup (Kept P digest)) ?_ fun _ =>
        Triple.throw fun _ hs => hs
      refine (keeps_of_only (only_ignoring (h.avoids_temp rfl)) fun _ _ hs => hs).mono ?_
        fun _ _ hs => hs
      exact fun s hs => hs.1

include hne

theorem keeps_removeTarget :
    Keeps P canonical target backup digest (At target backup (BackedUp P digest))
      (removeTarget update).run
      (either (fun _ => At target backup (BackedUp P digest))
        fun _ => At target backup (BackedUp P digest)) := by
  refine keeps_of_spares (Only.exceptT_bind (only_asks spares_of_quiet _ _) fun found => ?_)
  cases found with
  | true =>
      refine only_call ?_
      simp [Spares, UpdateOp.touches, h.target_eq, hne.symm]
  | false => exact Only.pure _

/-- Once there is a backup that is the previous binary, the target can be given up. -/
theorem keeps_putBack :
    Keeps P canonical target backup digest (At target backup (BackedUp P digest))
      (putBack P update).run
      (either (fun _ => At target backup (Kept P digest))
        fun _ => At target backup (Restored P digest)) := by
  refine Triple.exceptT_bind
    ((h.keeps_removeTarget hne).relax (fun _ _ hs => hs.kept) fun _ _ hs => hs) fun _ => ?_
  refine Triple.exceptT_bind (M := fun _ => At target backup (Restored P digest)) ?_ fun _ => ?_
  · rw [h.target_eq, h.backup_eq]
    refine Triple.adapt (Triple.attempt ((triple_rename_back hne).mono (fun _ hs => hs) ?_))
    rintro (e | ⟨⟩) s ⟨hkept, hrestored⟩
    · exact hkept
    · exact hrestored rfl
  refine Triple.exceptT_bind
    ((keeps_of_only (only_ignoring (h.avoids_temp rfl)) fun _ _ => Restored.kept).relax
      (fun _ _ hs => hs.kept) fun _ _ hs => hs) fun _ => ?_
  exact (keeps_verifyFileSha256 _ _ fun _ _ => Restored.kept).relax (fun _ _ hs => hs.kept)
    fun _ _ hs => hs.1

theorem keeps_rollbackPaths (hcanonical : canonical backup = backup) :
    Keeps P canonical target backup digest (At target backup (Kept P digest))
      (rollbackPaths P update).run
      (either (fun _ => At target backup (Kept P digest))
        fun _ => At target backup (Restored P digest)) := by
  rw [rollbackPaths, h.backup_eq]
  refine Triple.exceptT_bind (keeps_isFile_backup hcanonical) fun file => ?_
  refine Triple.check_bind (fun _ _ _ hs => hs.1) fun _ hfile => ?_
  refine (h.keeps_putBack hne).mono (fun s hs => hs.2 ?_) fun _ _ hs => hs
  simpa using hfile

/-- The staged binary is moved in, or the previous one is moved back. -/
theorem keeps_moveIn :
    Keeps P canonical target backup digest (At target backup (BackedUp P digest))
      (moveIn update).run
      (either (fun _ => At target backup (Kept P digest))
        fun _ => At target backup (BackedUp P digest)) := by
  rw [moveIn, h.target_eq, h.backup_eq]
  refine Triple.exceptT_bind (M := fun _ => At target backup (BackedUp P digest))
    (Triple.lift ?_) fun reply => ?_
  · refine triple_of_spares (Only.perform ?_)
    simp [Spares, UpdateOp.touches, hne.symm, h.temp_ne_backup.symm]
  cases reply with
  | ok result => exact Triple.pure fun s hs => hs
  | error e =>
      refine Triple.exceptT_bind (M := fun _ => At target backup (Kept P digest))
        (Triple.lift ((triple_rename_back hne).mono (fun _ hs => hs) fun _ _ hs => hs.1))
        fun restored => ?_
      refine Triple.exceptT_bind (keeps_of_only (only_ignoring (h.avoids_temp rfl))
        fun _ _ hs => hs) fun _ => ?_
      cases restored <;> exact Triple.throw fun _ hs => hs

/-- What was moved in is what was staged, or the previous binary is moved back. -/
theorem keeps_confirmSwap (hcanonical : canonical backup = backup) :
    Keeps P canonical target backup digest (At target backup (BackedUp P digest))
      (confirmSwap P update).run
      (either (fun _ => At target backup (Kept P digest)) fun r => At target backup fun t b =>
        Kept P digest t b ∧
          (r.2 = .ok () → Replaced P update.plan.expectedStagedSha256 digest t b)) := by
  rw [confirmSwap]
  refine Triple.exceptT_bind (M := fun r s => At target backup (BackedUp P digest) s ∧
    (r = .ok () → Expected P update.plan.expectedStagedSha256 (s target)))
    (Triple.lift ?_) fun r => ?_
  · refine (keeps_verifyFileSha256 _ _ fun _ _ => BackedUp.kept).mono (fun _ hs => hs) ?_
    rintro (e | ⟨⟩) s hs
    · exact ⟨hs, fun hok => by cases hok⟩
    · refine ⟨hs.1, fun _ => ?_⟩
      rw [← h.target_eq]
      exact hs.2
  cases r with
  | ok result => exact Triple.pure fun s hs => ⟨hs.1.kept, fun _ => ⟨hs.2 rfl, hs.1⟩⟩
  | error e =>
      refine Triple.exceptT_bind (M := fun _ => At target backup (Kept P digest))
        (Triple.lift ?_) fun rolledBack => ?_
      · refine (h.keeps_rollbackPaths hne hcanonical).mono (fun s hs => hs.1.kept) ?_
        rintro (e | a) s hs
        · exact hs
        · exact hs.kept
      cases rolledBack with
      | ok result => exact Triple.pure fun s hs => ⟨hs, fun hok => by cases hok⟩
      | error e => exact Triple.throw fun _ hs => hs

end About

section Advance

variable {transaction : Maintainer.MaintenanceTransaction}
  {work : UpdateM (Maintainer.JournalState × Except MaintenanceError Unit)}
  {pre : FileSystem → Prop}

/-- The journal is written where it does no harm. -/
theorem keeps_advance (h : About target backup digest transaction.update)
    {K : Except MaintenanceError Unit → Option (List UInt8) → Option (List UInt8) → Prop}
    (hK : ∀ r t b, K r t b → Kept P digest t b)
    (hwork : Keeps P canonical target backup digest pre work.run
      (either (fun _ => At target backup (Kept P digest)) fun r => At target backup (K r.2))) :
    Keeps P canonical target backup digest pre (advance transaction work) fun out s =>
      At target backup (Kept P digest) s ∧ out.2.update = transaction.update ∧
        (out.1 = .ok () → At target backup (K (.ok ())) s) := by
  refine Triple.bind hwork fun r => ?_
  rcases r with e | ⟨state, result⟩
  · exact Triple.done fun s hs => ⟨hs, rfl, fun hok => by cases hok⟩
  · refine Triple.bind (triple_of_only (h.only_appendJournal state false) (hK result)) fun r => ?_
    rcases r with e | a
    · exact Triple.done fun s hs => ⟨hK result _ _ hs, rfl, fun hok => by cases hok⟩
    · refine Triple.done fun s hs => ⟨hK result _ _ hs, rfl, fun hok => ?_⟩
      obtain rfl : result = .ok () := hok
      exact hs

variable (h : About target backup digest transaction.update) (hne : target ≠ backup)
  (hcanonical : canonical backup = backup)

include h hne hcanonical

theorem keeps_swap :
    Keeps P canonical target backup digest (At target backup (Kept P digest))
      (transaction.swap P) fun out s =>
      At target backup (Kept P digest) s ∧ out.2.update = transaction.update ∧
        (out.1 = .ok () → At target backup
          (Replaced P transaction.update.plan.expectedStagedSha256 digest) s) := by
  refine (keeps_advance (K := fun r t b => Kept P digest t b ∧ (r = .ok () →
    Replaced P transaction.update.plan.expectedStagedSha256 digest t b)) h (fun _ _ _ => And.left)
      ?_).mono (fun _ hs => hs) ?_
  · refine Triple.check_bind (fun _ _ _ hs => hs) fun _ _ => ?_
    refine Triple.exceptT_bind h.keeps_moveOut fun _ => ?_
    refine Triple.exceptT_bind (h.keeps_moveIn hne) fun _ => ?_
    exact h.keeps_confirmSwap hne hcanonical
  · rintro out s ⟨hkept, hupdate, hok⟩
    exact ⟨hkept, hupdate, fun hout => (hok hout).2 rfl⟩

omit hne hcanonical in
theorem keeps_commit :
    Keeps P canonical target backup digest (At target backup (Kept P digest))
      (transaction.commit P) fun out s =>
      At target backup (Kept P digest) s ∧ out.2.update = transaction.update ∧
        (out.1 = .ok () → At target backup (fun t b => Kept P digest t b ∧
          Expected P transaction.update.plan.expectedStagedSha256 t) s) := by
  refine keeps_advance (K := fun _ t b => Kept P digest t b ∧
    Expected P transaction.update.plan.expectedStagedSha256 t) h (fun _ _ _ => And.left) ?_
  refine Triple.check_bind (fun _ _ _ hs => hs) fun _ _ => ?_
  refine Triple.exceptT_bind (keeps_verifyFileSha256 _ _ fun _ _ hs => hs) fun _ => ?_
  refine Triple.pure fun s hs => ⟨hs.1, ?_⟩
  rw [← h.target_eq]
  exact hs.2

theorem keeps_rollback :
    Keeps P canonical target backup digest (At target backup (Kept P digest))
      (transaction.rollback P) fun out s =>
      At target backup (Kept P digest) s ∧ out.2.update = transaction.update ∧
        (out.1 = .ok () → At target backup (Restored P digest) s) := by
  refine keeps_advance (K := fun _ => Restored P digest) h (fun _ _ _ => Restored.kept) ?_
  refine Triple.check_bind (fun _ _ _ hs => hs) fun _ _ => ?_
  exact Triple.exceptT_bind (h.keeps_rollbackPaths hne hcanonical) fun _ =>
    Triple.pure fun _ hs => hs

end Advance

end Update

end VorCommander
