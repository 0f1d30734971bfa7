import VorCommander.Secrets.Store

/-!
The store of secrets is a map.

Whatever calls are made, and wherever they are stopped, the files are those of a map of
secrets by their names, and each call has read it and changed it as it has returned. A
call that was stopped has changed it as a whole or not at all.
-/

namespace VorCommander

open Steps Steps.Program Text WindowsPath

variable {H : SecretHost} {root : String}

/-! ### Files -/

theorem toList_fileKey_join (directory name : String) :
    (fileKey (join directory name)).toList =
      asciiLower (entryPrefix directory) ++ asciiLower name.toList := by
  rw [fileKey, toAsciiLowercase, String.toList_ofList, toList_join, asciiLower, List.map_append]
  rfl

theorem fileKey_join_inj {name name' : String} :
    fileKey (join root name) = fileKey (join root name') ↔
      asciiLower name.toList = asciiLower name'.toList := by
  rw [← String.toList_inj, toList_fileKey_join, toList_fileKey_join, List.append_cancel_left_eq]

theorem fileKey_secretPath_inj {name name' : String} :
    fileKey (secretPath root name) = fileKey (secretPath root name') ↔
      toAsciiLowercase name = toAsciiLowercase name' := by
  rw [secretPath, secretPath, fileKey_join_inj, String.toList_append, String.toList_append,
    asciiLower, asciiLower, List.map_append, List.map_append, List.append_cancel_right_eq,
    toAsciiLowercase_eq_iff]
  rfl

/-- A file that is written is not that of a secret. -/
theorem fileKey_secretTempPath_ne (name name' : String) (suffix : List UInt8) :
    fileKey (secretTempPath root name suffix) ≠ fileKey (secretPath root name') := by
  intro h
  rw [secretTempPath, secretPath, fileKey_join_inj] at h
  have hlast := congrArg List.getLast? h
  have htemp : (".tmp").toList = ['.', 't', 'm', 'p'] := rfl
  have hsecret : (".dpapi").toList = ['.', 'd', 'p', 'a', 'p', 'i'] := rfl
  simp only [asciiLower, String.toList_append, List.map_append, htemp, hsecret] at hlast
  rw [List.getLast?_append_of_ne_nil _ (by simp),
    List.getLast?_append_of_ne_nil _ (by simp)] at hlast
  revert hlast
  decide

theorem SameIn.secret {files files' : FileSystem} (h : SameIn root files files') (name : String) :
    files' (fileKey (secretPath root name)) = files (fileKey (secretPath root name)) :=
  h _

theorem SameIn.temp {files files' : FileSystem} (h : SameIn root files files') (name : String)
    (suffix : List UInt8) :
    files' (fileKey (secretTempPath root name suffix)) =
      files (fileKey (secretTempPath root name suffix)) :=
  h _

/-! ### The map -/

/-- The secrets by the names in small letters. -/
abbrev SecretMap := String → Option (List UInt8)

namespace SecretMap

def get (m : SecretMap) (name : String) : Option (List UInt8) := m (toAsciiLowercase name)

def set (m : SecretMap) (name : String) (secret : Option (List UInt8)) : SecretMap :=
  Function.update m (toAsciiLowercase name) secret

@[simp] theorem get_set_self (m : SecretMap) (name : String) (secret : Option (List UInt8)) :
    (m.set name secret).get name = secret :=
  Function.update_self ..

theorem get_set_of_ne (m : SecretMap) {name name' : String} (secret : Option (List UInt8))
    (h : toAsciiLowercase name ≠ toAsciiLowercase name') :
    (m.set name' secret).get name = m.get name :=
  Function.update_of_ne h ..

/-- What is not there is not removed. -/
theorem set_none {m : SecretMap} {name : String} (h : m.get name = none) : m.set name none = m := by
  rw [set, ← show m (toAsciiLowercase name) = none from h, Function.update_eq_self]

theorem get_congr (m : SecretMap) {name name' : String}
    (h : toAsciiLowercase name = toAsciiLowercase name') : m.get name = m.get name' :=
  congrArg m h

end SecretMap

/-- A file of a secret. -/
structure Sealed (H : SecretHost) (secret content : List UInt8) : Prop where
  ne_nil : secret ≠ []
  length_le : secret.length ≤ maxSecretBytes
  blob : ∃ blob, content = fileMagic ++ blob ∧ H.opens blob appEntropy = some secret

/-- There is a file where there is a secret. -/
inductive Stored (H : SecretHost) : Option (List UInt8) → Option (List UInt8) → Prop
  | absent : Stored H none none
  | sealed {secret content : List UInt8} : Sealed H secret content →
      Stored H (some secret) (some content)

theorem Stored.isSome_eq {secret content : Option (List UInt8)} (h : Stored H secret content) :
    content.isSome = secret.isSome := by
  cases h <;> rfl

/-- The files of the secrets are those of the map. -/
def Reflects (H : SecretHost) (root : String) (m : SecretMap) (files : FileSystem) : Prop :=
  ∀ name, Stored H (m.get name) (files (fileKey (secretPath root name)))

namespace Reflects

variable {m : SecretMap} {files files' : FileSystem} {name : String} {suffix : List UInt8}

theorem of_sameIn (h : Reflects H root m files) (hsame : SameIn root files files') :
    Reflects H root m files' :=
  fun name => hsame.secret name ▸ h name

theorem update_temp (h : Reflects H root m files) (content : Option (List UInt8)) :
    Reflects H root m
      (Function.update files (fileKey (secretTempPath root name suffix)) content) := by
  intro name'
  rw [Function.update_of_ne (fileKey_secretTempPath_ne name name' suffix).symm]
  exact h name'

theorem update_secret (h : Reflects H root m files) {secret content : Option (List UInt8)}
    (hstored : Stored H secret content) :
    Reflects H root (m.set name secret)
      (Function.update files (fileKey (secretPath root name)) content) := by
  intro name'
  by_cases hname : toAsciiLowercase name' = toAsciiLowercase name
  · rw [SecretMap.get_congr _ hname, SecretMap.get_set_self, fileKey_secretPath_inj.mpr hname,
      Function.update_self]
    exact hstored
  · rw [SecretMap.get_set_of_ne _ _ hname,
    Function.update_of_ne (mt fileKey_secretPath_inj.mp hname)]
    exact h name'

theorem isSome_eq (h : Reflects H root m files) (name : String) :
    (files (fileKey (secretPath root name))).isSome = (m.get name).isSome :=
  (h name).isSome_eq

theorem eq_none (h : Reflects H root m files)
    (hfile : files (fileKey (secretPath root name)) = none) : m.get name = none := by
  have hsome := h.isSome_eq name
  rw [hfile] at hsome
  exact Option.isNone_iff_eq_none.mp (by simpa using hsome.symm)

end Reflects

/-! ### Operations -/

namespace SecretOp

/-- The operations that change no file. -/
def isQuestion : SecretOp → Bool
  | .createNew _ | .writeAll _ _ | .moveFile _ _ | .removeFile _ => false
  | _ => true

theorem Commits.eq_of_isQuestion {op : SecretOp} {files files' : FileSystem} {reply : op.Reply}
    (h : op.Commits H files reply files') (hop : op.isQuestion = true) : files' = files := by
  obtain ⟨-, h⟩ := h
  cases op <;> first
    | exact absurd hop Bool.false_ne_true
    | exact h.elim id fun h => (Option.some.inj h).symm

end SecretOp

section Operations

variable {m : SecretMap} {crash pre : FileSystem → Prop}

/-- One operation, before which the files of the store are as they were. -/
theorem triple_op {op : SecretOp} {post : op.Reply → FileSystem → Prop}
    (hsame : ∀ s s', SameIn root s s' → pre s → pre s')
    (h : ∀ s reply s', pre s → op.Commits H s reply s' → crash s' ∧ post reply s') :
    Triple (SecretFiles.Commit H root) crash pre (perform (I := SecretFiles) op) post :=
  Triple.perform fun s reply s' hs ⟨found, hfound, hcommits⟩ =>
    h found reply s' (hsame s found hfound hs) hcommits

theorem triple_question {op : SecretOp} (hop : op.isQuestion = true) :
    Triple (SecretFiles.Commit H root) (Reflects H root m) (Reflects H root m)
      (perform (I := SecretFiles) op)
        (fun reply s => op.answers H s reply ∧ Reflects H root m s) := by
  refine triple_op (fun s s' hsame hs => hs.of_sameIn hsame) fun s reply s' hs hcommits => ?_
  obtain rfl := hcommits.eq_of_isQuestion hop
  exact ⟨hs, hcommits.1, hs⟩

/-- Wherever it was stopped, the map is the old one or the new one. -/
def ReflectsOr (H : SecretHost) (root : String) (m m' : SecretMap) (files : FileSystem) : Prop :=
  Reflects H root m files ∨ Reflects H root m' files

variable {m' : SecretMap} {name : String} {suffix : List UInt8}

/-- The files while a secret is written. -/
def HalfWritten (H : SecretHost) (root : String) (m : SecretMap) (name : String)
    (suffix content : List UInt8)
    (files : FileSystem) : Prop :=
  Reflects H root m files ∧ files (fileKey (secretTempPath root name suffix)) = some content

theorem HalfWritten.of_sameIn {content : List UInt8} {s s' : FileSystem} (hsame : SameIn root s s')
    (h : HalfWritten H root m name suffix content s) :
    HalfWritten H root m name suffix content s' :=
  ⟨h.1.of_sameIn hsame, (hsame.temp name suffix).trans h.2⟩

theorem triple_createNew :
    Triple (SecretFiles.Commit H root) (ReflectsOr H root m m') (Reflects H root m)
    (ExceptT.adapt SecretError.io (attempt (perform (I := SecretFiles)
      (.createNew (secretTempPath root name suffix))))).run
    (either (fun _ => ReflectsOr H root m m') fun _ => HalfWritten H root m name suffix []) := by
  refine Triple.adapt (Triple.attempt (triple_op (fun s s' hsame hs => hs.of_sameIn hsame) ?_))
  have hcreated {s s' : FileSystem} (hs : Reflects H root m s)
      (hchange : (SecretOp.createNew (secretTempPath root name suffix)).change s = some s') :
      HalfWritten H root m name suffix [] s' := by
    obtain ⟨-, hupdate⟩ := Option.ite_none_right_eq_some.mp hchange
    obtain rfl := Option.some.inj hupdate
    exact ⟨hs.update_temp _, Function.update_self ..⟩
  rintro s (e | ⟨⟨⟩⟩) s' hs ⟨-, hcommits⟩
  · have hkept : Reflects H root m s' := by
      rcases hcommits with rfl | hchange
      · exact hs
      · exact (hcreated hs hchange).1
    exact ⟨.inl hkept, .inl hkept⟩
  · have hwriting := hcreated hs hcommits
    exact ⟨.inl hwriting.1, hwriting⟩

theorem triple_writeAll (old content : List UInt8) : Triple (SecretFiles.Commit H root)
    (ReflectsOr H root m m') (HalfWritten H root m name suffix old)
    (ExceptT.adapt SecretError.io (attempt (perform (I := SecretFiles)
      (.writeAll (secretTempPath root name suffix) content)))).run
    (either (fun _ => ReflectsOr H root m m') fun _ =>
      HalfWritten H root m name suffix (old ++ content)) := by
  refine Triple.adapt (Triple.attempt (triple_op (fun s s' hsame hs => hs.of_sameIn hsame) ?_))
  rintro s (e | ⟨⟨⟩⟩) s' ⟨hs, hold⟩ ⟨-, hcommits⟩
  · have hkept : Reflects H root m s' := by
      rcases hcommits with rfl | ⟨content, rfl⟩
      · exact hs
      · exact hs.update_temp _
    exact ⟨.inl hkept, .inl hkept⟩
  · obtain ⟨found, hfound, rfl⟩ := Option.map_eq_some_iff.mp hcommits
    obtain rfl := Option.some.inj (hfound.symm.trans hold)
    exact ⟨.inl (hs.update_temp _), hs.update_temp _, Function.update_self ..⟩

theorem triple_syncAll (content : List UInt8) : Triple (SecretFiles.Commit H root)
    (ReflectsOr H root m m') (HalfWritten H root m name suffix content)
    (ExceptT.adapt SecretError.io (attempt (perform (I := SecretFiles)
      (.syncAll (secretTempPath root name suffix))))).run
    (either (fun _ => ReflectsOr H root m m') fun _ =>
      HalfWritten H root m name suffix content) := by
  refine Triple.adapt (Triple.attempt (triple_op (fun s s' hsame hs => hs.of_sameIn hsame) ?_))
  rintro s reply s' hs hcommits
  obtain rfl := hcommits.eq_of_isQuestion rfl
  cases reply with
  | error e => exact ⟨.inl hs.1, .inl hs.1⟩
  | ok _ => exact ⟨.inl hs.1, hs⟩

/-- The secret takes the place of the old one at once. -/
theorem triple_moveFile {secret content : List UInt8} (hsealed : Sealed H secret content) :
    Triple (SecretFiles.Commit H root) (ReflectsOr H root m (m.set name (some secret)))
      (HalfWritten H root m name suffix content)
      (ExceptT.adapt SecretError.io (attempt (perform (I := SecretFiles)
        (.moveFile (secretTempPath root name suffix) (secretPath root name))))).run
      (either (fun _ => ReflectsOr H root m (m.set name (some secret)))
        fun _ => Reflects H root (m.set name (some secret))) := by
  refine Triple.adapt (Triple.attempt (triple_op (fun s s' hsame hs => hs.of_sameIn hsame) ?_))
  have hmoved {s s' : FileSystem} (hs : HalfWritten H root m name suffix content s)
      (hchange : (SecretOp.moveFile (secretTempPath root name suffix)
        (secretPath root name)).change s =
        some s') : Reflects H root (m.set name (some secret)) s' := by
    obtain ⟨found, hfound, rfl⟩ := Option.map_eq_some_iff.mp hchange
    obtain rfl := Option.some.inj (hfound.symm.trans hs.2)
    exact (hs.1.update_temp none).update_secret (.sealed hsealed)
  rintro s (e | ⟨⟨⟩⟩) s' hs ⟨-, hcommits⟩
  · have hor : ReflectsOr H root m (m.set name (some secret)) s' := by
      rcases hcommits with rfl | hchange
      · exact .inl hs.1
      · exact .inr (hmoved hs hchange)
    exact ⟨hor, hor⟩
  · exact ⟨.inr (hmoved hs hcommits), hmoved hs hcommits⟩

end Operations

/-! ### Calls of the store -/

theorem eq_of_blobFromSlice {bytes found : List UInt8} (h : blobFromSlice bytes = .ok found) :
    found = bytes := by
  rw [blobFromSlice] at h
  split at h
  · exact (Except.ok.inj h).symm
  · cases h

theorem blobFromSlice_error {bytes : List UInt8} {e : SecretError}
    (h : blobFromSlice bytes = .error e) :
    e = .invalidSecretSize := by
  rw [blobFromSlice] at h
  split at h
  · cases h
  · exact (Except.error.inj h).symm

section Calls

variable {m : SecretMap} {name : String} {secret : List UInt8}

theorem triple_protect (plaintext : List UInt8) :
    Triple (SecretFiles.Commit H root) (Reflects H root m)
    (Reflects H root m) (protect plaintext appEntropy).run
    (either (fun _ => Reflects H root m) fun blob s =>
      H.opens blob appEntropy = some plaintext ∧ Reflects H root m s) := by
  refine Triple.check_bind (fun e _ s hs => hs) fun input hinput => ?_
  refine Triple.check_bind (fun e _ s hs => hs) fun entropy hentropy => ?_
  obtain rfl := eq_of_blobFromSlice hinput
  obtain rfl := eq_of_blobFromSlice hentropy
  refine Triple.adapt (Triple.attempt ((triple_question rfl).mono (fun _ hs => hs) ?_))
  rintro (e | blob) s ⟨hanswer, hs⟩
  · exact hs
  · exact ⟨hanswer, hs⟩

/-- The size of a file that was read is no reason to call it damaged. -/
theorem triple_unprotect (ciphertext : List UInt8) : Triple (SecretFiles.Commit H root)
    (Reflects H root m) (Reflects H root m) (unprotect ciphertext appEntropy).run
    (either (fun e s => (e ≠ .invalidBlob ∧ e ≠ .io .notFound) ∧ Reflects H root m s)
      fun plaintext s => H.opens ciphertext appEntropy = some plaintext ∧ Reflects H root m s) := by
  have hsize {bytes : List UInt8} {e : SecretError} (h : blobFromSlice bytes = .error e) :
      e ≠ .invalidBlob ∧ e ≠ .io .notFound := by
    rw [blobFromSlice_error h]
    decide
  refine Triple.check_bind (fun e he s hs => ⟨hsize he, hs⟩) fun input hinput => ?_
  refine Triple.check_bind (fun e he s hs => ⟨hsize he, hs⟩) fun entropy hentropy => ?_
  obtain rfl := eq_of_blobFromSlice hinput
  obtain rfl := eq_of_blobFromSlice hentropy
  refine Triple.adapt (Triple.attempt ((triple_question rfl).mono (fun _ hs => hs) ?_))
  rintro (e | plaintext) s ⟨hanswer, hs⟩
  · exact ⟨⟨SecretError.noConfusion, SecretError.noConfusion⟩, hs⟩
  · exact ⟨hanswer, hs⟩

theorem triple_put :
    Triple (SecretFiles.Commit H root) (ReflectsOr H root m (m.set name (some secret)))
    (Reflects H root m) ((FileSecretStore.mk root).put name secret).run
    (either (fun _ => ReflectsOr H root m (m.set name (some secret)))
      fun _ => Reflects H root (m.set name (some secret))) := by
  refine Triple.check_bind (fun e _ s hs => .inl hs) fun _ _ => ?_
  refine Triple.check_bind (fun e _ s hs => .inl hs) fun _ hsize => ?_
  obtain ⟨hne, hlength⟩ := not_or.mp (failIf_eq_ok.mp hsize)
  have hprotect : Triple (SecretFiles.Commit H root)
      (ReflectsOr H root m (m.set name (some secret)))
      (Reflects H root m) (protect secret appEntropy).run
      (either (fun _ => ReflectsOr H root m (m.set name (some secret))) fun blob s =>
        H.opens blob appEntropy = some secret ∧ Reflects H root m s) :=
    ((triple_protect secret).weaken fun _ hs => .inl hs).relax
      (fun _ _ hs => .inl hs) fun _ _ hs => hs
  refine Triple.exceptT_bind hprotect fun encrypted => Triple.of_pure fun hopens => ?_
  have hsealed : Sealed H secret (fileMagic ++ encrypted) :=
    ⟨hne, Nat.not_lt.mp hlength, encrypted, rfl, hopens⟩
  have hrandom : Triple (SecretFiles.Commit H root) (ReflectsOr H root m (m.set name (some secret)))
      (Reflects H root m) (perform (I := SecretFiles) (.random 8)) fun _ => Reflects H root m :=
    ((triple_question rfl).weaken fun _ hs => .inl hs).mono (fun _ hs => hs) fun _ _ hs => hs.2
  refine Triple.exceptT_bind (Triple.lift hrandom) fun suffix => ?_
  refine Triple.exceptT_bind triple_createNew fun _ => ?_
  refine Triple.exceptT_bind (triple_writeAll [] fileMagic) fun _ => ?_
  refine Triple.exceptT_bind (triple_writeAll fileMagic encrypted) fun _ => ?_
  refine Triple.exceptT_bind (triple_syncAll _) fun _ => ?_
  exact triple_moveFile hsealed

/-- What is read is the secret, and no file of the store is damaged. -/
theorem triple_get : Triple (SecretFiles.Commit H root) (Reflects H root m) (Reflects H root m)
    ((FileSecretStore.mk root).get name).run
    (either (fun e s => (e ≠ .invalidBlob ∧ (e = .io .notFound → m.get name = none)) ∧
      Reflects H root m s) fun secret s => m.get name = some secret ∧ Reflects H root m s) := by
  have hname : FailsWith (fun e => e ≠ .invalidBlob ∧ (e = .io .notFound → m.get name = none))
      (validateSecretName name) := .failIf ⟨by decide, SecretError.noConfusion⟩
  refine Triple.check_bind (fun e he s hs => ⟨hname e he, hs⟩) fun _ _ => ?_
  have hread : Triple (SecretFiles.Commit H root) (Reflects H root m) (Reflects H root m)
      (ExceptT.adapt SecretError.io (attempt (perform (I := SecretFiles)
        (.read (secretPath root name))))).run
      (either (fun e s => (e ≠ .invalidBlob ∧ (e = .io .notFound → m.get name = none)) ∧
        Reflects H root m s)
        fun bytes s => (∃ secret, m.get name = some secret ∧ Sealed H secret bytes) ∧
          Reflects H root m s) := by
    refine Triple.adapt (Triple.attempt ((triple_question rfl).mono (fun _ hs => hs) ?_))
    rintro (e | bytes) s ⟨hanswer, hs⟩
    · refine ⟨⟨SecretError.noConfusion, fun he => ?_⟩, hs⟩
      exact hs.eq_none (hanswer (SecretError.io.inj he))
    · have hstored := hs name
      rw [show s (fileKey (secretPath root name)) = some bytes from hanswer] at hstored
      generalize m.get name = found at hstored
      cases hstored with
      | sealed hsealed => exact ⟨⟨_, rfl, hsealed⟩, hs⟩
  refine Triple.exceptT_bind hread fun bytes => Triple.of_pure ?_
  rintro ⟨secret, hsecret, hsealed⟩
  obtain ⟨blob, rfl, hopens⟩ := hsealed.blob
  have hblob : blob ≠ [] := by
    rintro rfl
    rw [H.opens_nil] at hopens
    cases hopens
  have hlength : (fileMagic ++ blob).length ≠ fileMagic.length := by
    rw [List.length_append, ne_eq, Nat.add_eq_left, List.length_eq_zero_iff]
    exact hblob
  have hmagic : ¬ (¬ fileMagic <+: fileMagic ++ blob ∨
      (fileMagic ++ blob).length = fileMagic.length) :=
    not_or.mpr ⟨not_not.mpr (List.prefix_append _ _), hlength⟩
  refine Triple.check_bind (fun e he s hs => ?_) fun _ _ => ?_
  · rw [failIf_of_false hmagic] at he
    cases he
  rw [List.drop_left]
  have hunprotect := (triple_unprotect (m := m) blob).relax
    (fun e s hs => (⟨⟨hs.1.1, fun he => absurd he hs.1.2⟩, hs.2⟩ :
      (e ≠ .invalidBlob ∧ (e = .io .notFound → m.get name = none)) ∧ Reflects H root m s))
    fun _ _ hs => hs
  refine Triple.exceptT_bind hunprotect fun plaintext => Triple.of_pure fun hplaintext => ?_
  obtain rfl := Option.some.inj (hopens.symm.trans hplaintext)
  have hsize : ¬ (secret = [] ∨ maxSecretBytes < secret.length) :=
    not_or.mpr ⟨hsealed.ne_nil, Nat.not_lt.mpr hsealed.length_le⟩
  refine Triple.check_bind (fun e he s hs => ?_) fun _ _ => ?_
  · rw [failIf_of_false hsize] at he
    cases he
  exact Triple.pure fun s hs => ⟨hsecret, hs⟩

theorem triple_delete : Triple (SecretFiles.Commit H root) (ReflectsOr H root m (m.set name none))
    (Reflects H root m) ((FileSecretStore.mk root).delete name).run
    (either (fun _ => ReflectsOr H root m (m.set name none)) fun found s =>
      found = (m.get name).isSome ∧ Reflects H root (m.set name none) s) := by
  refine Triple.check_bind (fun e _ s hs => .inl hs) fun _ _ => ?_
  have hremove : Triple (SecretFiles.Commit H root) (ReflectsOr H root m (m.set name none))
      (Reflects H root m) (perform (I := SecretFiles) (.removeFile (secretPath root name)))
      fun reply s => ReflectsOr H root m (m.set name none) s ∧
        (reply = .ok () → (m.get name).isSome = true ∧ Reflects H root (m.set name none) s) ∧
        (reply = .error .notFound → m.get name = none ∧ Reflects H root m s) := by
    refine triple_op (fun s s' hsame hs => hs.of_sameIn hsame) ?_
    have hremoved {s s' : FileSystem} (hs : Reflects H root m s)
        (hchange : (SecretOp.removeFile (secretPath root name)).change s = some s') :
        (m.get name).isSome = true ∧ Reflects H root (m.set name none) s' := by
      obtain ⟨content, hcontent, rfl⟩ := Option.map_eq_some_iff.mp hchange
      refine ⟨?_, hs.update_secret .absent⟩
      rw [← hs.isSome_eq name, hcontent]
      rfl
    rintro s (e | ⟨⟨⟩⟩) s' hs ⟨hanswer, hcommits⟩
    · have hor : ReflectsOr H root m (m.set name none) s' := by
        rcases hcommits with rfl | hchange
        · exact .inl hs
        · exact .inr (hremoved hs hchange).2
      refine ⟨hor, hor, fun h => ?_, fun h => ?_⟩
      · cases h
      have hnone : s (fileKey (secretPath root name)) = none := hanswer (Except.error.inj h)
      rcases hcommits with rfl | hchange
      · exact ⟨hs.eq_none hnone, hs⟩
      · rw [SecretOp.change, hnone] at hchange
        cases hchange
    · obtain ⟨hsome, hs'⟩ := hremoved hs hcommits
      refine ⟨.inr hs', .inr hs', fun _ => ⟨hsome, hs'⟩, fun h => ?_⟩
      cases h
  refine Triple.exceptT_bind (Triple.lift hremove) fun reply => ?_
  rcases reply with (_ | code) | _
  · refine Triple.pure fun s hs => ?_
    obtain ⟨hnone, hs'⟩ := hs.2.2 rfl
    rw [hnone, SecretMap.set_none hnone]
    exact ⟨rfl, hs'⟩
  · exact Triple.throw fun s hs => hs.1
  · exact Triple.pure fun s hs => ⟨(hs.2.1 rfl).1.symm, (hs.2.1 rfl).2⟩

theorem triple_contains : Triple (SecretFiles.Commit H root) (Reflects H root m) (Reflects H root m)
    ((FileSecretStore.mk root).contains name).run
    (either (fun _ => Reflects H root m) fun found s =>
      found = (m.get name).isSome ∧ Reflects H root m s) := by
  refine Triple.check_bind (fun e _ s hs => hs) fun _ _ => ?_
  refine Triple.lift ((triple_question rfl).mono (fun _ hs => hs) ?_)
  rintro found s ⟨hanswer, hs⟩
  exact ⟨hanswer.trans (hs.isSome_eq name), hs⟩

end Calls

/-! ### Device keys -/

section Identity

variable {m : SecretMap} {keyName deviceId : String}

/-- Wherever an enrolment was stopped, there is no new key, or one where there was none. -/
def EnrolledOr (H : SecretHost) (root : String) (m : SecretMap) (keyName : String)
    (files : FileSystem) : Prop :=
  Reflects H root m files ∨
    m.get keyName = none ∧ ∃ key, Reflects H root (m.set keyName (some key)) files

theorem triple_createDeviceEnrollment : Triple (SecretFiles.Commit H root)
    (EnrolledOr H root m keyName) (Reflects H root m)
    (createDeviceEnrollment ⟨root⟩ keyName deviceId).run
    (either (fun _ => EnrolledOr H root m keyName) fun enrollment s =>
      m.get keyName = none ∧ ∃ key, enrollment.deviceId = deviceId ∧
        H.IsRequest enrollment.csrDer key deviceId ∧
          Reflects H root (m.set keyName (some key)) s) := by
  have hweaken {α : Type} {p : Program SecretFiles α} {post : α → FileSystem → Prop}
      (hp : Triple (SecretFiles.Commit H root) (Reflects H root m) (Reflects H root m) p post) :
      Triple (SecretFiles.Commit H root) (EnrolledOr H root m keyName) (Reflects H root m) p post :=
    hp.weaken fun _ hs => .inl hs
  refine Triple.check_bind (fun e _ s hs => .inl hs) fun _ _ => ?_
  have hcontains : Triple (SecretFiles.Commit H root) (EnrolledOr H root m keyName)
      (Reflects H root m)
      ((FileSecretStore.mk root).contains keyName).run
      (either (fun _ => EnrolledOr H root m keyName) fun found s =>
        found = (m.get keyName).isSome ∧ Reflects H root m s) :=
    (hweaken triple_contains).relax (fun _ _ hs => .inl hs) fun _ _ hs => hs
  refine Triple.exceptT_bind (Triple.adapt hcontains) fun found => Triple.of_pure fun hfound => ?_
  refine Triple.check_bind (fun e _ s hs => .inl hs) fun _ hnot => ?_
  have hnone : m.get keyName = none := by
    rw [failIf_eq_ok, hfound, Bool.not_eq_true] at hnot
    exact Option.isNone_iff_eq_none.mp (by simpa using hnot)
  have hkey : Triple (SecretFiles.Commit H root) (EnrolledOr H root m keyName) (Reflects H root m)
      (ExceptT.adapt IdentityError.rcgen
        (attempt (perform (I := SecretFiles) .generateKeyPair))).run
      (either (fun _ => EnrolledOr H root m keyName) fun _ => Reflects H root m) := by
    refine Triple.adapt (Triple.attempt (hweaken ((triple_question rfl).mono (fun _ hs => hs) ?_)))
    rintro (e | key) s ⟨-, hs⟩
    · exact .inl hs
    · exact hs
  refine Triple.exceptT_bind hkey fun key => ?_
  have hrequest : Triple (SecretFiles.Commit H root) (EnrolledOr H root m keyName)
      (Reflects H root m)
      (ExceptT.adapt IdentityError.rcgen (attempt (perform (I := SecretFiles)
        (.serializeRequest key deviceId)))).run
      (either (fun _ => EnrolledOr H root m keyName) fun csrDer s =>
        H.IsRequest csrDer key deviceId ∧ Reflects H root m s) := by
    refine Triple.adapt (Triple.attempt (hweaken ((triple_question rfl).mono (fun _ hs => hs) ?_)))
    rintro (e | csrDer) s ⟨hanswer, hs⟩
    · exact .inl hs
    · exact ⟨hanswer, hs⟩
  refine Triple.exceptT_bind hrequest fun csrDer => Triple.of_pure fun hcsr => ?_
  have hor {s : FileSystem} (hs : ReflectsOr H root m (m.set keyName (some key)) s) :
      EnrolledOr H root m keyName s := hs.imp id fun hs => ⟨hnone, key, hs⟩
  have hput := ((triple_put (H := H) (m := m)).weaken fun _ hs => hor hs).relax
    (fun _ _ hs => hor hs) fun _ _ hs => hs
  refine Triple.exceptT_bind (Triple.adapt hput) fun _ => Triple.pure fun s hs => ?_
  exact ⟨hnone, key, rfl, hcsr, hs⟩

end Identity

/-! ### Calls -/

/-- The calls that are made of the store. -/
inductive SecretCall
  | put (name : String) (secret : List UInt8)
  | get (name : String)
  | delete (name : String)
  | contains (name : String)
  | enroll (keyName deviceId : String)
  | loadKey (keyName : String)

namespace SecretCall

@[reducible] def Result : SecretCall → Type
  | .put _ _ => Unit
  | .get _ | .loadKey _ => List UInt8
  | .delete _ | .contains _ => Bool
  | .enroll _ _ => DeviceEnrollment

def perform (store : FileSecretStore) : (c : SecretCall) → IdentityM c.Result
  | .put name secret => ExceptT.adapt .secret (store.put name secret)
  | .get name => ExceptT.adapt .secret (store.get name)
  | .delete name => ExceptT.adapt .secret (store.delete name)
  | .contains name => ExceptT.adapt .secret (store.contains name)
  | .enroll keyName deviceId => createDeviceEnrollment store keyName deviceId
  | .loadKey keyName => loadDevicePrivateKey store keyName

/-- The store is opened for each call. -/
def program (directory : String) (c : SecretCall) :
    Program SecretFiles (Except IdentityError c.Result) :=
  (do let store ← ExceptT.adapt IdentityError.secret (FileSecretStore.open directory)
      c.perform store).run

/-- What a call does with the map, by what it has returned. -/
def Effect (H : SecretHost) : (c : SecretCall) → Option (Except IdentityError c.Result) →
    SecretMap → SecretMap → Prop
  | .put name secret, some (.ok _), m, m' => m' = m.set name (some secret)
  | .put name secret, _, m, m' => m' = m ∨ m' = m.set name (some secret)
  | .get name, some (.ok secret), m, m' => m' = m ∧ m.get name = some secret
  | .loadKey keyName, some (.ok key), m, m' => m' = m ∧ m.get keyName = some key
  | .get _, some (.error e), m, m' => m' = m ∧ e ≠ .secret .invalidBlob
  | .loadKey _, some (.error e), m, m' => m' = m ∧ e ≠ .secret .invalidBlob
  | .delete name, some (.ok found), m, m' => m' = m.set name none ∧ found = (m.get name).isSome
  | .delete name, _, m, m' => m' = m ∨ m' = m.set name none
  | .contains name, some (.ok found), m, m' => m' = m ∧ found = (m.get name).isSome
  | .enroll keyName deviceId, some (.ok enrollment), m, m' => m.get keyName = none ∧
      ∃ key, enrollment.deviceId = deviceId ∧ H.IsRequest enrollment.csrDer key deviceId ∧
        m' = m.set keyName (some key)
  | .enroll keyName _, _, m, m' =>
      m' = m ∨ m.get keyName = none ∧ ∃ key, m' = m.set keyName (some key)
  | _, _, m, m' => m' = m

theorem effect_none (c : SecretCall) (m : SecretMap) : c.Effect H none m m := by
  cases c with
  | put name secret => exact .inl rfl
  | get name => rfl
  | delete name => exact .inl rfl
  | contains name => rfl
  | enroll keyName deviceId => exact .inl rfl
  | loadKey keyName => rfl

/-- The map that a call stands for, which is one that it may lead to. -/
def Leaves (H : SecretHost) (root : String) (c : SecretCall)
    (r : Option (Except IdentityError c.Result)) (m : SecretMap) (files : FileSystem) : Prop :=
  ∃ m', c.Effect H r m m' ∧ Reflects H root m' files

variable {m : SecretMap}

theorem leaves_of_holdsOr {c : SecretCall} {r : Option (Except IdentityError c.Result)}
    {m' : SecretMap} {s : FileSystem} (hs : ReflectsOr H root m m' s) (hm : c.Effect H r m m)
    (hm' : c.Effect H r m m') : Leaves H root c r m s :=
  hs.elim (fun hs => ⟨m, hm, hs⟩) fun hs => ⟨m', hm', hs⟩

theorem triple_read (name : String) : Triple (SecretFiles.Commit H root) (Reflects H root m)
    (Reflects H root m)
      (ExceptT.adapt IdentityError.secret ((FileSecretStore.mk root).get name)).run
    (either (fun e s => e ≠ .secret .invalidBlob ∧ Reflects H root m s) fun secret s =>
      m.get name = some secret ∧ Reflects H root m s) := by
  refine Triple.adapt (triple_get.relax (fun e s hs => ⟨fun he => ?_, hs.2⟩) fun _ _ hs => hs)
  exact hs.1.1 (IdentityError.secret.inj he)

/-- One call is one step of the map. -/
theorem triple_perform (c : SecretCall) : Triple (SecretFiles.Commit H root)
    (Leaves H root c none m) (Reflects H root m) (c.perform ⟨root⟩).run
    (fun r => Leaves H root c (some r) m) := by
  cases c with
  | put name secret =>
      have hput : Triple (SecretFiles.Commit H root)
          (ReflectsOr H root m (m.set name (some secret)))
          (Reflects H root m)
          (ExceptT.adapt IdentityError.secret ((FileSecretStore.mk root).put name secret)).run
          (either (fun _ => ReflectsOr H root m (m.set name (some secret)))
            fun _ => Reflects H root (m.set name (some secret))) := Triple.adapt triple_put
      refine (hput.weaken fun s hs => ?_).mono (fun _ hs => hs) ?_
      · exact leaves_of_holdsOr hs (.inl rfl) (.inr rfl)
      · rintro (e | ⟨⟨⟩⟩) s hs
        · exact leaves_of_holdsOr hs (.inl rfl) (.inr rfl)
        · exact ⟨_, rfl, hs⟩
  | get name =>
      refine ((triple_read name).weaken fun s hs => ⟨m, rfl, hs⟩).mono (fun _ hs => hs) ?_
      rintro (e | secret) s ⟨hr, hs⟩
      · exact ⟨m, ⟨rfl, hr⟩, hs⟩
      · exact ⟨m, ⟨rfl, hr⟩, hs⟩
  | delete name =>
      have hdelete : Triple (SecretFiles.Commit H root) (ReflectsOr H root m (m.set name none))
          (Reflects H root m)
          (ExceptT.adapt IdentityError.secret ((FileSecretStore.mk root).delete name)).run
          (either (fun _ => ReflectsOr H root m (m.set name none)) fun found s =>
            found = (m.get name).isSome ∧ Reflects H root (m.set name none) s) :=
        Triple.adapt triple_delete
      refine (hdelete.weaken fun s hs => ?_).mono (fun _ hs => hs) ?_
      · exact leaves_of_holdsOr hs (.inl rfl) (.inr rfl)
      · rintro (e | found) s hs
        · exact leaves_of_holdsOr hs (.inl rfl) (.inr rfl)
        · exact ⟨_, ⟨rfl, hs.1⟩, hs.2⟩
  | contains name =>
      have hcontains : Triple (SecretFiles.Commit H root) (Reflects H root m) (Reflects H root m)
          (ExceptT.adapt IdentityError.secret ((FileSecretStore.mk root).contains name)).run
          (either (fun _ => Reflects H root m) fun found s =>
            found = (m.get name).isSome ∧ Reflects H root m s) := Triple.adapt triple_contains
      refine (hcontains.weaken fun s hs => ⟨m, rfl, hs⟩).mono (fun _ hs => hs) ?_
      rintro (e | found) s hs
      · exact ⟨m, rfl, hs⟩
      · exact ⟨m, ⟨rfl, hs.1⟩, hs.2⟩
  | enroll keyName deviceId =>
      refine (triple_createDeviceEnrollment.weaken fun s hs => ?_).mono (fun _ hs => hs) ?_
      · rcases hs with hs | ⟨hnone, key, hs⟩
        · exact ⟨m, .inl rfl, hs⟩
        · exact ⟨_, .inr ⟨hnone, key, rfl⟩, hs⟩
      · rintro (e | enrollment) s hs
        · rcases hs with hs | ⟨hnone, key, hs⟩
          · exact ⟨m, .inl rfl, hs⟩
          · exact ⟨_, .inr ⟨hnone, key, rfl⟩, hs⟩
        · obtain ⟨hnone, key, hid, hcsr, hs⟩ := hs
          exact ⟨_, ⟨hnone, key, hid, hcsr, rfl⟩, hs⟩
  | loadKey keyName =>
      refine ((triple_read keyName).weaken fun s hs => ⟨m, rfl, hs⟩).mono (fun _ hs => hs) ?_
      rintro (e | key) s ⟨hr, hs⟩
      · exact ⟨m, ⟨rfl, hr⟩, hs⟩
      · exact ⟨m, ⟨rfl, hr⟩, hs⟩

/-- A store that cannot be opened is left as it is. -/
theorem effect_error (c : SecretCall) {e : IdentityError} (he : e ≠ .secret .invalidBlob) :
    c.Effect H (some (.error e)) m m := by
  cases c with
  | put name secret => exact .inl rfl
  | get name => exact ⟨rfl, he⟩
  | delete name => exact .inl rfl
  | contains name => rfl
  | enroll keyName deviceId => exact .inl rfl
  | loadKey keyName => exact ⟨rfl, he⟩

theorem triple_program {directory : String} (hroot : H.canonical directory = root)
    (c : SecretCall) :
    Triple (SecretFiles.Commit H root) (Leaves H root c none m) (Reflects H root m)
      (program directory c) (fun r => Leaves H root c (some r) m) := by
  have hkept {r : Option (Except IdentityError c.Result)} (hr : c.Effect H r m m) {s : FileSystem}
      (hs : Reflects H root m s) : Leaves H root c r m s := ⟨m, hr, hs⟩
  have hcreate : Triple (SecretFiles.Commit H root) (Reflects H root m) (Reflects H root m)
      (ExceptT.adapt SecretError.io (attempt (Program.perform (I := SecretFiles)
        (.createDirAll directory)))).run
      (either (fun e s => e ≠ .invalidBlob ∧ Reflects H root m s) fun _ => Reflects H root m) := by
    refine Triple.adapt (Triple.attempt ((triple_question rfl).mono (fun _ hs => hs) ?_))
    rintro (e | ⟨⟨⟩⟩) s ⟨-, hs⟩
    · exact ⟨SecretError.noConfusion, hs⟩
    · exact hs
  have hcanonical : Triple (SecretFiles.Commit H root) (Reflects H root m) (Reflects H root m)
      (ExceptT.adapt SecretError.io (attempt (Program.perform (I := SecretFiles)
        (.canonicalize directory)))).run
      (either (fun e s => e ≠ .invalidBlob ∧ Reflects H root m s) fun path s =>
        path = root ∧ Reflects H root m s) := by
    refine Triple.adapt (Triple.attempt ((triple_question rfl).mono (fun _ hs => hs) ?_))
    rintro (e | path) s ⟨hanswer, hs⟩
    · exact ⟨SecretError.noConfusion, hs⟩
    · exact ⟨hanswer.trans hroot, hs⟩
  have hopen : Triple (SecretFiles.Commit H root) (Leaves H root c none m) (Reflects H root m)
      (ExceptT.adapt IdentityError.secret (FileSecretStore.open directory)).run
      (either (fun e => Leaves H root c (some (.error e)) m) fun store s =>
        store = ⟨root⟩ ∧ Reflects H root m s) := by
    have hstore : Triple (SecretFiles.Commit H root) (Reflects H root m) (Reflects H root m)
        (FileSecretStore.open directory).run
        (either (fun e s => e ≠ .invalidBlob ∧ Reflects H root m s) fun store s =>
          store = ⟨root⟩ ∧ Reflects H root m s) := by
      refine Triple.exceptT_bind hcreate fun _ => Triple.exceptT_bind hcanonical fun path => ?_
      refine Triple.of_pure fun hpath => Triple.pure fun s hs => ?_
      exact ⟨congrArg FileSecretStore.mk hpath, hs⟩
    refine Triple.adapt
      ((hstore.weaken fun s hs => hkept (effect_none c m) hs).relax ?_ fun _ _ hs => hs)
    exact fun e s hs => hkept (effect_error c fun he => hs.1 (IdentityError.secret.inj he)) hs.2
  refine Triple.of_either.mpr
    (Triple.exceptT_bind hopen fun store => Triple.of_pure fun hstore => ?_)
  subst hstore
  exact Triple.of_either.mp (triple_perform c)

end SecretCall

namespace SecretSample

/-- A host on which a zero is all that is put before a text that is encrypted. -/
def host : SecretHost where
  canonical path := path
  opens ciphertext _ := if ciphertext.head? = some 0 then some ciphertext.tail else none
  opens_nil _ := rfl
  IsRequest request key deviceId := request = key ++ utf8 deviceId

/-- A host on which everything goes as it should. -/
def plain : Handler SecretFiles FileSystem where
  answer s
    | .createDirAll _ => (.ok (), s)
    | .canonicalize path => (.ok path, s)
    | .isFile path => ((s (fileKey path)).isSome, s)
    | .read path => ((s (fileKey path)).elim (.error .notFound) .ok, s)
    | .createNew path => ((SecretOp.createNew path).change s).elim (.error .notFound, s) (.ok (), ·)
    | .writeAll path content =>
        ((SecretOp.writeAll path content).change s).elim (.error .notFound, s) (.ok (), ·)
    | .syncAll _ => (.ok (), s)
    | .moveFile source target =>
        ((SecretOp.moveFile source target).change s).elim (.error .notFound, s) (.ok (), ·)
    | .removeFile path => ((SecretOp.removeFile path).change s).elim
      (.error .notFound, s) (.ok (), ·)
    | .protect plaintext _ => (.ok (0 :: plaintext), s)
    | .unprotect ciphertext entropy =>
        ((host.opens ciphertext entropy).elim (.error (.other 13)) .ok, s)
    | .random count => (List.replicate count 7, s)
    | .generateKeyPair => (.ok [1, 2, 3], s)
    | .serializeRequest key deviceId => (.ok (key ++ utf8 deviceId), s)

theorem plain_sound (root : String) (s : FileSystem) (op : SecretOp) :
    SecretFiles.Commit host root s ⟨op, (plain.answer s op).1⟩ (plain.answer s op).2 := by
  refine ⟨s, fun _ => rfl, ?_⟩
  have hchange (op : SecretOp) : op.change s = none ∨ ∃ s', op.change s = some s' := by
    cases op.change s with
    | none => exact .inl rfl
    | some s' => exact .inr ⟨s', rfl⟩
  cases op with
  | createNew path =>
      rcases hchange (.createNew path) with h | ⟨s', h⟩ <;>
        simp [plain, SecretOp.Commits, SecretOp.answers, h]
  | writeAll path content =>
      rcases hchange (.writeAll path content) with h | ⟨s', h⟩ <;>
        simp [plain, SecretOp.Commits, SecretOp.answers, h]
  | moveFile source target =>
      rcases hchange (.moveFile source target) with h | ⟨s', h⟩ <;>
        simp [plain, SecretOp.Commits, SecretOp.answers, h]
  | removeFile path =>
      rcases hchange (.removeFile path) with h | ⟨s', h⟩
      · have hnone : s (fileKey path) = none := Option.map_eq_none_iff.mp h
        simp [plain, SecretOp.Commits, SecretOp.answers, h, hnone]
      · simp [plain, SecretOp.Commits, SecretOp.answers, h]
  | read path =>
      cases hfile : s (fileKey path) <;> simp [plain, SecretOp.Commits, SecretOp.answers, hfile]
  | unprotect ciphertext entropy =>
      cases hopens : host.opens ciphertext entropy <;>
        simp [plain, SecretOp.Commits, SecretOp.answers, hopens]
  | protect plaintext entropy => exact ⟨rfl, .inl rfl⟩
  | serializeRequest key deviceId => exact ⟨rfl, .inl rfl⟩
  | canonicalize path => exact ⟨rfl, .inl rfl⟩
  | isFile path => exact ⟨rfl, .inl rfl⟩
  | createDirAll path => exact ⟨trivial, .inl rfl⟩
  | syncAll path => exact ⟨trivial, .inl rfl⟩
  | random count => exact ⟨trivial, .inl rfl⟩
  | generateKeyPair => exact ⟨trivial, .inl rfl⟩

def enrollment : DeviceEnrollment := ⟨"device", [1, 2, 3] ++ utf8 "device"⟩

def directory : String := "C:\\s"

/-- The files after an enrolment. -/
def files : FileSystem :=
  (exec plain (SecretCall.program directory (.enroll "key" "device")) fun _ => none).2

theorem enrolled : Trace (SecretFiles.Commit host directory) (SameIn directory) (fun _ => none)
    (SecretCall.program directory)
    [⟨.enroll "key" "device", some (.ok enrollment)⟩] files := by
  obtain ⟨h, hruns, -⟩ := runs_of_exec (s := fun _ => none) (h := []) (plain_sound directory)
    (SecretCall.program directory (.enroll "key" "device"))
  exact .returned .init hruns

end SecretSample

/-- The files of the store are those of a map, which every call that was made, and every
call that was stopped, has read and changed as a whole. -/
theorem secrets_refine {directory : String} {init : FileSystem} {m : SecretMap}
    (hinit : Reflects H (H.canonical directory) m init)
    {log : List (Σ c : SecretCall, Option (Except IdentityError c.Result))}
    {s : FileSystem} (hs : Trace (SecretFiles.Commit H (H.canonical directory))
      (SameIn (H.canonical directory)) init (SecretCall.program directory) log s) :
    ∃ m', Explained (SecretCall.Effect H) m log m' ∧ Reflects H (H.canonical directory) m' s :=
  hs.explained (R := fun s m => Reflects H (H.canonical directory) m s) hinit
    (fun _ _ _ h hsame => h.of_sameIn hsame) SecretCall.effect_none
    fun c _ => SecretCall.triple_program rfl c

open SecretSample in
/-- The map after an enrolment. -/
theorem secrets_refine_enrolled : ∃ m, Explained (SecretCall.Effect host) (fun _ => none)
    [⟨.enroll "key" "device", some (.ok enrollment)⟩] m ∧ Reflects host directory m files :=
  secrets_refine (fun _ => .absent) enrolled

end VorCommander
