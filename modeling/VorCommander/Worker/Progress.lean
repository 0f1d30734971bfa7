import VorCommander.Worker.Write

/-!
The course of a write.

While nobody else writes, a write is always at one of four points. It has left
everything as it was, it has a temporary file and has not touched its target, it has
taken the temporary file away again, or it has got as far as replacing the target. The
first sections say what each part of the program does, the last puts them together.
-/

namespace VorCommander

open Crypto Steps Steps.Program Text WindowsPath Files

variable {P : Primitives} {J : FileSystem → History Files → Prop} {s s' : FileSystem}
  {h : History Files} {t : Transaction} {target : String} {content : List UInt8}

/-! ### Operations -/

namespace Files

theorem during_call (op : FileOp) {Q : op.Reply → FileSystem → History Files → Prop} :
    During Files.Commit J Q (call op).run s h ↔
      ∀ (reply : op.Reply) s', Files.Commit s ⟨op, reply⟩ s' →
        J s' (⟨op, reply⟩ :: h) ∧ Q reply s' (⟨op, reply⟩ :: h) :=
  Steps.Program.during_call (I := Files) op id

theorem commit_probe {path : String} {reply : Except FsError Bool} :
    Files.Commit s ⟨.probe path, reply⟩ s' ↔ reply = .ok (s path).isSome ∧ s' = s := by
  cases reply with
  | ok found =>
      constructor
      · rintro ⟨⟨hchange, hfound⟩, -⟩
        have hs : s = s' := Option.some.inj hchange
        have hfound : found = (s path).isSome := hfound
        exact ⟨congrArg Except.ok hfound, hs.symm⟩
      · rintro ⟨hfound, rfl⟩
        exact ⟨⟨rfl, Except.ok.inj hfound⟩, trivial⟩
  | error e =>
      constructor
      · rintro ⟨-, hfalse⟩
        exact False.elim hfalse
      · rintro ⟨herror, -⟩
        cases herror

theorem during_pathExists {path : String}
    {Q : Except FsError Bool → FileSystem → History Files → Prop} :
    During Files.Commit J Q (pathExists path).run s h ↔
      J s (⟨.probe path, .ok (s path).isSome⟩ :: h) ∧
        Q (.ok (s path).isSome) s (⟨.probe path, .ok (s path).isSome⟩ :: h) := by
  rw [pathExists, during_exceptT_lift, during_map]
  refine (Steps.Program.during_call (I := Files) (.probe path) id).trans ?_
  constructor
  · intro hall
    exact hall (.ok (s path).isSome) s (commit_probe.mpr ⟨rfl, rfl⟩)
  · intro hone reply s' hcommit
    obtain ⟨rfl, rfl⟩ := commit_probe.mp hcommit
    exact hone

/-- A question changes nothing. -/
theorem eq_of_asks {e : Event Files} (hcommit : Files.Commit s e s') (hasks : e.op.asks = true) :
    s' = s :=
  hcommit.1.eq_of_asks hasks

/-- A file that was read was there. -/
theorem eq_of_read {path : String} {found : List UInt8}
    (hcommit : Files.Commit s ⟨.read path, .ok found⟩ s') : s path = some found :=
  hcommit.1.2

end Files

/-- What a target must hold for a precondition to be met. -/
def Meets (P : Primitives) : Option TargetPrecondition → Option (List UInt8) → Prop
  | none, _ => True
  | some .absent, found => found = none
  | some (.sha256 expected), found =>
      ∃ content, found = some content ∧ eqIgnoreAsciiCase (sha256Hex P content) expected = true

namespace FsWorker

/-! ### Questions -/

section Questions

variable {K : History Files → Prop} (hK : ∀ e h, e.op.asks = true → K h → K (e :: h))

include hK

theorem during_ask (op : FileOp) (hasks : op.asks = true) (hh : K h) :
    During Files.Commit (fun s' h' => s' = s ∧ K h')
      (fun reply s' h' => (s' = s ∧ K h') ∧ Files.Commit s ⟨op, reply⟩ s ∧ ⟨op, reply⟩ ∈ h')
      (call op).run s h := by
  refine (during_call op).mpr ?_
  intro reply s' hcommit
  obtain rfl : s' = s := eq_of_asks hcommit hasks
  have hnow : K (⟨op, reply⟩ :: h) := hK _ _ hasks hh
  exact ⟨⟨rfl, hnow⟩, ⟨rfl, hnow⟩, hcommit, List.mem_cons_self⟩

theorem during_verify (precondition : Option TargetPrecondition) (hh : K h) :
    During Files.Commit (fun s' h' => s' = s ∧ K h')
      (fun r s' h' => (s' = s ∧ K h') ∧ (r = .ok () → Meets P precondition (s target)))
      (verifyIfRequired P target precondition).run s h := by
  cases precondition with
  | none => exact (during_exceptT_pure _).mpr ⟨⟨rfl, hh⟩, fun _ => trivial⟩
  | some precondition =>
      cases precondition with
      | absent =>
          rw [verifyIfRequired, verifyTargetPrecondition, during_exceptT_bind, during_pathExists]
          have hnow := hK ⟨.probe target, .ok (s target).isSome⟩ h rfl hh
          refine ⟨⟨rfl, hnow⟩, ?_⟩
          rw [duringThen_ok, during_check]
          refine ⟨⟨rfl, hnow⟩, fun hok => ?_⟩
          rw [failIf_eq_ok] at hok
          show s target = none
          simpa using hok
      | sha256 expected =>
          rw [verifyIfRequired, verifyTargetPrecondition, during_exceptT_bind, during_pathExists]
          have hnow := hK ⟨.probe target, .ok (s target).isSome⟩ h rfl hh
          refine ⟨⟨rfl, hnow⟩, ?_⟩
          rw [duringThen_ok, during_exceptT_bind, during_check, duringThen_iff]
          refine ⟨fun e _ => ⟨⟨rfl, hnow⟩, fun hok => by cases hok⟩, fun _ _ => ?_⟩
          rw [during_exceptT_bind]
          refine (during_ask hK (.read target) rfl hnow).mono ?_
          rintro reply s' h' ⟨⟨rfl, hh'⟩, hcommit, -⟩
          cases reply with
          | error e => exact ⟨⟨rfl, hh'⟩, fun hok => by cases hok⟩
          | ok found =>
              rw [duringThen_ok, during_check]
              refine ⟨⟨rfl, hh'⟩, fun hok => ⟨found, eq_of_read hcommit, ?_⟩⟩
              rw [failIf_eq_ok] at hok
              simpa using hok

end Questions

/-- The run has found that the requested path stands for `target`. -/
def Resolved (requested : String) (h : History Files) (target : String) : Prop :=
  ⟨.canonicalize requested, .ok target⟩ ∈ h ∨
    ∃ directory resolved name, parent requested = some directory ∧
      fileName requested = some name ∧ ⟨.canonicalize directory, .ok resolved⟩ ∈ h ∧
      target = join resolved name

theorem Resolved.cons {requested : String} (e : Event Files) (hr : Resolved requested h target) :
    Resolved requested (e :: h) target := by
  rcases hr with hmem | ⟨directory, resolved, name, hdirectory, hname, hmem, htarget⟩
  · exact .inl (List.mem_cons_of_mem _ hmem)
  · exact .inr ⟨directory, resolved, name, hdirectory, hname, List.mem_cons_of_mem _ hmem, htarget⟩

/-- All that has been done is to ask. -/
def Quiet (h : History Files) : Prop := ∀ e ∈ h, e.op.asks = true

theorem Quiet.cons (e : Event Files) (h : History Files) (hasks : e.op.asks = true)
    (hh : Quiet h) : Quiet (e :: h) := by
  intro e' he'
  rcases List.mem_cons.mp he' with rfl | he'
  · exact hasks
  · exact hh e' he'

theorem during_resolve (worker : FsWorker) (requested : String) (hh : Quiet h) :
    During Files.Commit (fun s' h' => s' = s ∧ Quiet h')
      (fun r s' h' => (s' = s ∧ Quiet h') ∧
        ∀ target, r = .ok target → Resolved requested h' target)
      (worker.resolveWriteTarget requested).run s h := by
  rw [resolveWriteTarget, during_exceptT_bind, during_check, duringThen_iff]
  refine ⟨fun e _ => ⟨⟨rfl, hh⟩, fun _ hok => by cases hok⟩, fun _ _ => ?_⟩
  rw [during_exceptT_bind]
  refine (during_ask Quiet.cons (.lookup requested) rfl hh).mono ?_
  rintro reply s' h' ⟨⟨rfl, hh⟩, -⟩
  cases reply with
  | error e => exact ⟨⟨rfl, hh⟩, fun _ hok => by cases hok⟩
  | ok found =>
      rw [duringThen_ok]
      cases found with
      | true =>
          rw [if_pos rfl, during_exceptT_bind]
          refine (during_ask Quiet.cons (.canonicalize requested) rfl hh).mono ?_
          rintro reply s' h' ⟨⟨rfl, hh⟩, -, hmem⟩
          cases reply with
          | error e => exact ⟨⟨rfl, hh⟩, fun _ hok => by cases hok⟩
          | ok resolved =>
              rw [duringThen_ok, during_exceptT_bind, during_check, duringThen_iff]
              refine ⟨fun e _ => ⟨⟨rfl, hh⟩, fun _ hok => by cases hok⟩, fun _ _ => ?_⟩
              refine (during_exceptT_pure _).mpr ⟨⟨rfl, hh⟩, fun target hok => ?_⟩
              obtain rfl := Except.ok.inj hok
              exact .inl hmem
      | false =>
          rw [if_neg Bool.false_ne_true, during_exceptT_bind, during_check, duringThen_iff]
          refine ⟨fun e _ => ⟨⟨rfl, hh⟩, fun _ hok => by cases hok⟩, fun directory hdirectory => ?_⟩
          rw [during_exceptT_bind, during_check, duringThen_iff]
          refine ⟨fun e _ => ⟨⟨rfl, hh⟩, fun _ hok => by cases hok⟩, fun name hname => ?_⟩
          rw [during_exceptT_bind]
          refine (during_ask Quiet.cons (.canonicalize directory) rfl hh).mono ?_
          rintro reply s' h' ⟨⟨rfl, hh⟩, -, hmem⟩
          cases reply with
          | error e => exact ⟨⟨rfl, hh⟩, fun _ hok => by cases hok⟩
          | ok resolved =>
              rw [duringThen_ok, during_exceptT_bind, during_check, duringThen_iff]
              refine ⟨fun e _ => ⟨⟨rfl, hh⟩, fun _ hok => by cases hok⟩, fun _ _ => ?_⟩
              refine (during_exceptT_pure _).mpr ⟨⟨rfl, hh⟩, fun target hok => ?_⟩
              obtain rfl := Except.ok.inj hok
              exact .inr ⟨directory, resolved, name, orFail_eq_ok.mp hdirectory,
                orFail_eq_ok.mp hname, hmem, rfl⟩

/-! ### The course -/

end FsWorker

namespace Transaction

/-- The temporary file was created. -/
def created (t : Transaction) : Event Files := ⟨.createNew t.temp, .ok ()⟩

/-- The temporary file was taken away. -/
def removed (t : Transaction) : Event Files := ⟨.remove t.temp, .ok ()⟩

/-- The target was to be replaced. -/
def Attempted (t : Transaction) (target : String) (h : History Files) : Prop :=
  ∃ reply, (⟨.rename t.temp target, reply⟩ : Event Files) ∈ h

/-- Neither the temporary file nor a record of the transaction is there. -/
def Free (t : Transaction) (s : FileSystem) : Prop := s t.temp = none ∧ s t.journal = none

/-- A record of the transaction is there, which names the backup if there is one. -/
def Recorded (t : Transaction) (old : Option (List UInt8)) (s : FileSystem) : Prop :=
  ∃ record : JournalRecord, s t.journal = some record.bytes ∧
    record.backupPath = if old.isSome then some t.backup else none

/-- The backup holds what the target held, if it held anything. -/
def BackedUp (t : Transaction) (old : Option (List UInt8)) (s : FileSystem) : Prop :=
  ∀ bytes, old = some bytes → s t.backup = some bytes

/-- The temporary file is there and the target is as it was. -/
structure Staged (t : Transaction) (target : String) (s s' : FileSystem) (h : History Files) :
    Prop where
  free : t.Free s
  created : t.created ∈ h
  removed : t.removed ∉ h
  temp : (s' t.temp).isSome
  kept : s' target = s target

/-- The target may have been replaced. -/
structure Replaced (t : Transaction) (target : String) (content : List UInt8)
    (s s' : FileSystem) (h : History Files) : Prop where
  created : t.created ∈ h
  removed : t.removed ∉ h
  attempted : t.Attempted target h
  recorded : t.Recorded (s target) s'
  backedUp : t.BackedUp (s target) s'
  oldOrNew : s' target = s target ∨ s' target = some content

/-- Where a write that began with the files `s` is. -/
inductive Progress (t : Transaction) (target : String) (content : List UInt8)
    (s s' : FileSystem) (h : History Files) : Prop
  | untouched (unchanged : s' = s) (created : t.created ∉ h) (removed : t.removed ∉ h)
  | staged (staged : t.Staged target s s' h)
  | withdrawn (free : t.Free s) (removed : t.removed ∈ h) (free' : t.Free s')
      (kept : s' target = s target)
  | replaced (replaced : t.Replaced target content s s' h)

/-- What is left once a write has succeeded. -/
structure Finished (t : Transaction) (target : String) (content : List UInt8) (P : Primitives)
    (s s' : FileSystem) (receipt : WriteReceipt) : Prop where
  written : s' target = some content
  backedUp : t.BackedUp (s target) s'
  committed : ∃ record : JournalRecord, s' t.journal = some record.bytes ∧
    record.state = .committed ∧ record.contentSha256 = sha256Hex P content
  receipt : receipt.target = target ∧ receipt.journalPath = t.journal ∧
    receipt.backupPath = if (s target).isSome then some t.backup else none

/-! ### One operation -/

theorem attempted_cons {e : Event Files} (ha : t.Attempted target h) :
    t.Attempted target (e :: h) := by
  obtain ⟨reply, hmem⟩ := ha
  exact ⟨reply, List.mem_cons_of_mem _ hmem⟩

theorem removed_cons {e : Event Files} (htakes : e.op.takes ≠ some t.temp)
    (hr : t.removed ∉ h) : t.removed ∉ e :: h := by
  rw [List.mem_cons, not_or]
  refine ⟨?_, hr⟩
  rintro rfl
  exact htakes rfl

variable {s₁ s₂ : FileSystem} {e : Event Files}

theorem Staged.step (hst : t.Staged target s s₁ h) (hcommit : Files.Commit s₁ e s₂)
    (htarget : target ∉ e.op.touches) (htakes : e.op.takes ≠ some t.temp) :
    t.Staged target s s₂ (e :: h) where
  free := hst.free
  created := List.mem_cons_of_mem _ hst.created
  removed := removed_cons htakes hst.removed
  temp := hcommit.1.isSome htakes hst.temp
  kept := (hcommit.1.untouched htarget).trans hst.kept

theorem BackedUp.step {old : Option (List UInt8)} (hb : t.BackedUp old s₁)
    (hcommit : Files.Commit s₁ e s₂) (hbackup : t.backup ∉ e.op.touches) : t.BackedUp old s₂ := by
  intro bytes hold
  rw [hcommit.1.untouched hbackup]
  exact hb bytes hold

end Transaction

/-- A rename that may have failed. -/
theorem Files.rename_cases {source path : String} {reply : Except FsError Unit}
    (hcommit : Files.Commit s ⟨.rename source path, reply⟩ s') :
    (s' = s ∧ reply ≠ .ok ()) ∨ ∃ bytes, s source = some bytes ∧
      s' = Function.update (Function.update s source none) path (some bytes) := by
  have hchange : ∀ s', FileOp.change s (.rename source path) = some s' →
      ∃ bytes, s source = some bytes ∧
        s' = Function.update (Function.update s source none) path (some bytes) := by
    intro s' h
    obtain ⟨bytes, hbytes, rfl⟩ := Option.map_eq_some_iff.mp h
    exact ⟨bytes, hbytes, rfl⟩
  cases reply with
  | ok _ => exact .inr (hchange s' hcommit.1.1)
  | error e =>
      rcases hcommit.1 with rfl | h | ⟨_, _, hfills, _⟩
      · exact .inl ⟨rfl, by simp⟩
      · exact .inr (hchange s' h)
      · cases hfills


namespace FsWorker

open Transaction

variable {s₀ : FileSystem}

/-! ### The parts of a write -/

/-- Writing a record keeps what does not depend on the journal. -/
theorem during_persistJournal {K : FileSystem → History Files → Prop} {record : JournalRecord}
    (hstep : ∀ s e s' h, K s h → Files.Commit s e s' → e.op.touches ⊆ [t.journalTemp] →
      e.op.takes = none → K s' (e :: h))
    (hrename : ∀ s reply s' h, K s h → s t.journalTemp = some record.bytes →
      Files.Commit s ⟨.rename t.journalTemp t.journal, reply⟩ s' →
      K s' (⟨.rename t.journalTemp t.journal, reply⟩ :: h))
    (hK : K s h) :
    During Files.Commit K
      (fun r s' h' => K s' h' ∧ (r = .ok () → s' t.journal = some record.bytes))
      (persistJournal t record).run s h := by
  rw [persistJournal, during_exceptT_bind]
  refine (during_call (.createTruncated t.journalTemp)).mpr fun reply s₁ h₁ => ?_
  have hK := hstep _ _ _ _ hK h₁ (List.Subset.refl _) rfl
  refine ⟨hK, ?_⟩
  cases reply with
  | error e => exact ⟨hK, fun hok => by cases hok⟩
  | ok _ =>
      rw [duringThen_ok, during_exceptT_bind]
      refine (during_call (.write t.journalTemp record.bytes)).mpr fun reply s₂ h₂ => ?_
      have hK := hstep _ _ _ _ hK h₂ (List.Subset.refl _) rfl
      refine ⟨hK, ?_⟩
      cases reply with
      | error e => exact ⟨hK, fun hok => by cases hok⟩
      | ok _ =>
          obtain rfl := Option.some.inj h₂.1.1
          rw [duringThen_ok, during_exceptT_bind]
          refine (during_call (.sync t.journalTemp)).mpr fun reply s₃ h₃ => ?_
          have hK := hstep _ _ _ _ hK h₃ (List.nil_subset _) rfl
          refine ⟨hK, ?_⟩
          cases reply with
          | error e => exact ⟨hK, fun hok => by cases hok⟩
          | ok _ =>
              obtain rfl := Option.some.inj h₃.1.1
              rw [duringThen_ok]
              refine (during_call (.rename t.journalTemp t.journal)).mpr fun reply s₄ h₄ => ?_
              have htemp : Function.update s₁ t.journalTemp (some record.bytes) t.journalTemp
                  = some record.bytes := Function.update_self _ _ _
              have hK := hrename _ _ _ _ hK htemp h₄
              refine ⟨hK, hK, fun hok => ?_⟩
              obtain ⟨rfl, hne⟩ | ⟨bytes, hbytes, rfl⟩ := rename_cases h₄
              · exact absurd hok hne
              · rw [Function.update_self, ← hbytes, htemp]

section Parts

variable (hnodup : (target :: t.paths).Nodup)

include hnodup

/-- No file of the transaction is another of them, or the target. -/
theorem paths_ne : target ≠ t.temp ∧ target ≠ t.journal ∧ target ≠ t.journalTemp ∧
    target ≠ t.backup ∧ t.temp ≠ t.journal ∧ t.temp ≠ t.journalTemp ∧ t.temp ≠ t.backup ∧
    t.journal ≠ t.journalTemp ∧ t.journal ≠ t.backup ∧ t.journalTemp ≠ t.backup := by
  simp only [paths, List.nodup_cons, List.mem_cons, List.not_mem_nil, or_false, not_or] at hnodup
  tauto

/-- The temporary file is written, or the write is at one of its points. -/
theorem during_stage (hfree : t.Free s) (hcreated : t.created ∉ h) (hremoved : t.removed ∉ h) :
    During Files.Commit (t.Progress target content s)
      (fun r s' h' => match r with
        | .ok _ => s' = Function.update s t.temp (some content) ∧ t.Staged target s s' h'
        | .error _ => t.Progress target content s s' h')
      (stage t.temp content).run s h := by
  obtain ⟨htarget, -⟩ := paths_ne hnodup
  rw [stage, during_exceptT_bind]
  refine (during_call (.createNew t.temp)).mpr fun reply s₁ h₁ => ?_
  cases reply with
  | error e =>
      obtain rfl := h₁.2
      have hnow : t.Progress target content s₁ s₁ (⟨.createNew t.temp, .error e⟩ :: h) := by
        refine .untouched rfl ?_ (removed_cons (by simp [FileOp.takes]) hremoved)
        rw [List.mem_cons, not_or]
        exact ⟨by simp [Transaction.created], hcreated⟩
      exact ⟨hnow, hnow⟩
  | ok _ =>
      have hchange := h₁.1.1
      simp only [FileOp.change, hfree.1, if_true, Option.some.injEq] at hchange
      subst hchange
      have hstaged : t.Staged target s (Function.update s t.temp (some []))
          (⟨.createNew t.temp, .ok ()⟩ :: h) :=
        { free := hfree
          created := List.mem_cons_self
          removed := removed_cons (by simp [FileOp.takes]) hremoved
          temp := by rw [Function.update_self]; rfl
          kept := Function.update_of_ne htarget _ _ }
      refine ⟨.staged hstaged, ?_⟩
      rw [duringThen_ok, during_exceptT_bind]
      refine (during_call (.write t.temp content)).mpr fun reply s₂ h₂ => ?_
      have hstaged := hstaged.step h₂ (by simpa [FileOp.touches]) (by simp [FileOp.takes])
      refine ⟨.staged hstaged, ?_⟩
      cases reply with
      | error e => exact .staged hstaged
      | ok _ =>
          obtain rfl := Option.some.inj h₂.1.1
          rw [duringThen_ok]
          refine (during_call (.sync t.temp)).mpr fun reply s₃ h₃ => ?_
          have hstaged := hstaged.step h₃ (by simp [FileOp.touches]) (by simp [FileOp.takes])
          refine ⟨.staged hstaged, ?_⟩
          cases reply with
          | error e => exact .staged hstaged
          | ok _ =>
              obtain rfl := Option.some.inj h₃.1.1
              exact ⟨Function.update_idem _ _ _, hstaged⟩

/-- The second check keeps the temporary file exactly if it succeeds. -/
theorem during_verifyAgain (precondition : Option TargetPrecondition)
    (hs : s = Function.update s₀ t.temp (some content)) (hstaged : t.Staged target s₀ s h) :
    During Files.Commit (t.Progress target content s₀)
      (fun r s' h' => match r with
        | .ok _ => s' = s ∧ t.Staged target s₀ s' h'
        | .error _ => t.Progress target content s₀ s' h')
      (verifyAgain P target t.temp precondition).run s h := by
  obtain ⟨htarget, -, -, -, hjournal, -⟩ := paths_ne hnodup
  have hask : ∀ e h, e.op.asks = true → t.created ∈ h ∧ t.removed ∉ h →
      t.created ∈ e :: h ∧ t.removed ∉ e :: h := by
    rintro e h hasks ⟨hcreated, hremoved⟩
    refine ⟨List.mem_cons_of_mem _ hcreated, removed_cons ?_ hremoved⟩
    cases hop : e.op <;> simp_all [FileOp.asks, FileOp.takes]
  have hagain : ∀ {s' h'}, s' = s ∧ t.created ∈ h' ∧ t.removed ∉ h' → t.Staged target s₀ s' h' := by
    rintro s' h' ⟨rfl, hcreated, hremoved⟩
    exact { hstaged with created := hcreated, removed := hremoved }
  rw [verifyAgain, during_attempt, during_bind]
  refine ((during_verify hask precondition ⟨hstaged.created, hstaged.removed⟩).weaken
    fun _ _ hnow => .staged (hagain hnow)).mono ?_
  rintro r s' h' ⟨hnow, -⟩
  have hstaged' := hagain hnow
  obtain ⟨rfl, -⟩ := hnow
  cases r with
  | ok _ => exact (during_done _).mpr ⟨rfl, hstaged'⟩
  | error e =>
      change During _ _ _ (Except.error <$> cleanUpTempAfterError t.temp e) _ _
      rw [cleanUpTempAfterError, during_map, during_map]
      refine (Steps.Program.during_call (I := Files) (.remove t.temp) id).mpr fun reply s₁ h₁ => ?_
      cases reply with
      | error e' =>
          obtain rfl := h₁.2
          have hnow : t.Progress target content s₀ s₁ (⟨.remove t.temp, .error e'⟩ :: h') := by
            refine .staged { hstaged' with created := ?_, removed := ?_ }
            · exact List.mem_cons_of_mem _ hstaged'.created
            · rw [List.mem_cons, not_or]
              exact ⟨by simp [Transaction.removed], hstaged'.removed⟩
          exact ⟨hnow, hnow⟩
      | ok _ =>
          obtain ⟨_, -, rfl⟩ := Option.map_eq_some_iff.mp h₁.1.1
          have hnow : t.Progress target content s₀ (Function.update s' t.temp none)
              (⟨.remove t.temp, .ok ()⟩ :: h') := by
            refine .withdrawn hstaged'.free List.mem_cons_self ⟨Function.update_self _ _ _, ?_⟩ ?_
            · rw [Function.update_of_ne hjournal.symm, hs, Function.update_of_ne hjournal.symm]
              exact hstaged'.free.2
            · rw [Function.update_of_ne htarget]
              exact hstaged'.kept
          exact ⟨hnow, hnow⟩

omit hnodup in
/-- Everything is ready for the first record. -/
structure Ready (t : Transaction) (target : String) (content : List UInt8) (s₀ s : FileSystem)
    (h : History Files) : Prop extends t.Staged target s₀ s h where
  holds : s t.temp = some content
  backedUp : t.BackedUp (s₀ target) s

/-- The backup is made if there is something to back up. -/
theorem during_backUp (hs : s = Function.update s₀ t.temp (some content))
    (hstaged : t.Staged target s₀ s h) :
    During Files.Commit (t.Progress target content s₀)
      (fun r s' h' => match r with
        | .ok _ => Ready t target content s₀ s' h'
        | .error _ => t.Progress target content s₀ s' h')
      (backUp target (if (s₀ target).isSome then some t.backup else none)).run s h := by
  obtain ⟨htarget, -, -, hbackup, -, -, htemp, -⟩ := paths_ne hnodup
  have hholds : s t.temp = some content := by rw [hs, Function.update_self]
  cases hold : s₀ target with
  | none =>
      have hready : Ready t target content s₀ s h := by
        refine { hstaged with holds := hholds, backedUp := ?_ }
        intro bytes hbytes
        rw [hold] at hbytes
        cases hbytes
      exact (during_exceptT_pure _).mpr hready
  | some bytes =>
      have hfound : s target = some bytes := hstaged.kept.trans hold
      change During _ _ _ (backUp target (some t.backup)).run _ _
      rw [backUp, during_exceptT_bind]
      refine (during_call (.copy target t.backup)).mpr fun reply s₁ h₁ => ?_
      have hstaged := hstaged.step h₁ (by simpa [FileOp.touches]) (by simp [FileOp.takes])
      refine ⟨.staged hstaged, ?_⟩
      cases reply with
      | error e => exact .staged hstaged
      | ok _ =>
          have hcopied : s₁ = Function.update s t.backup (some bytes) := by
            have hchange := h₁.1.1
            simp only [FileOp.change, hfound, Option.map_some, Option.some.injEq] at hchange
            exact hchange.symm
          rw [duringThen_ok]
          refine (during_call (.sync t.backup)).mpr fun reply s₂ h₂ => ?_
          have hstaged := hstaged.step h₂ (by simp [FileOp.touches]) (by simp [FileOp.takes])
          refine ⟨.staged hstaged, ?_⟩
          cases reply with
          | error e => exact .staged hstaged
          | ok _ =>
              obtain rfl := Option.some.inj h₂.1.1
              refine { hstaged with holds := ?_, backedUp := ?_ }
              · rw [hcopied, Function.update_of_ne htemp, hholds]
              · intro found hfound'
                rw [hold] at hfound'
                rw [hcopied, Function.update_self, hfound']

/-- A record may be written while everything is ready. -/
theorem Ready.persist {record : JournalRecord} (hready : Ready t target content s₀ s h) :
    During Files.Commit (Ready t target content s₀)
      (fun r s' h' => Ready t target content s₀ s' h' ∧
        (r = .ok () → s' t.journal = some record.bytes))
      (persistJournal t record).run s h := by
  obtain ⟨-, hjournal, hjournalTemp, -, htj, htt, -, -, hjb, hjt⟩ := paths_ne hnodup
  have hkeep : ∀ s e s' h, Ready t target content s₀ s h → Files.Commit s e s' →
      e.op.touches ⊆ [t.journalTemp, t.journal] → e.op.takes ≠ some t.temp →
      Ready t target content s₀ s' (e :: h) := by
    intro s e s' h hready hcommit htouches htakes
    have hout : ∀ path, path ≠ t.journalTemp → path ≠ t.journal → path ∉ e.op.touches := by
      intro path hpath hpath' hmem
      simpa [hpath, hpath'] using htouches hmem
    refine { hready.toStaged.step hcommit (hout _ hjournalTemp hjournal) htakes with
      holds := ?_, backedUp := hready.backedUp.step hcommit (hout _ hjt.symm hjb.symm) }
    rw [hcommit.1.untouched (hout _ htt htj)]
    exact hready.holds
  refine during_persistJournal ?_ ?_ hready
  · intro s e s' h hready hcommit htouches htakes
    refine hkeep s e s' h hready hcommit (List.Subset.trans htouches (by simp)) ?_
    rw [htakes]
    simp
  · intro s reply s' h hready _ hcommit
    exact hkeep s _ s' h hready hcommit (by simp [FileOp.touches])
      (by simpa [FileOp.takes] using htt.symm)

omit hnodup in
/-- The target has been replaced. -/
structure Written (t : Transaction) (target : String) (content : List UInt8) (s₀ s : FileSystem)
    (h : History Files) : Prop extends t.Replaced target content s₀ s h where
  written : s target = some content

/-- A record may be written once the target has been replaced. -/
theorem Written.persist {record : JournalRecord} (hwritten : Written t target content s₀ s h)
    (hbackup : record.backupPath = if (s₀ target).isSome then some t.backup else none) :
    During Files.Commit (Written t target content s₀)
      (fun r s' h' => Written t target content s₀ s' h' ∧
        (r = .ok () → s' t.journal = some record.bytes))
      (persistJournal t record).run s h := by
  obtain ⟨-, hjournal, hjournalTemp, -, htj, htt, -, hjjt, hjb, hjt⟩ := paths_ne hnodup
  have hkeep : ∀ s e s' h, Written t target content s₀ s h → Files.Commit s e s' →
      e.op.touches ⊆ [t.journalTemp, t.journal] → e.op.takes ≠ some t.temp →
      t.Recorded (s₀ target) s' → Written t target content s₀ s' (e :: h) := by
    intro s e s' h hwritten hcommit htouches htakes hrecorded
    have hout : ∀ path, path ≠ t.journalTemp → path ≠ t.journal → path ∉ e.op.touches := by
      intro path hpath hpath' hmem
      simpa [hpath, hpath'] using htouches hmem
    have htarget : s' target = some content :=
      (hcommit.1.untouched (hout _ hjournalTemp hjournal)).trans hwritten.written
    exact
      { created := List.mem_cons_of_mem _ hwritten.created
        removed := removed_cons htakes hwritten.removed
        attempted := attempted_cons hwritten.attempted
        recorded := hrecorded
        backedUp := hwritten.backedUp.step hcommit (hout _ hjt.symm hjb.symm)
        oldOrNew := .inr htarget
        written := htarget }
  refine during_persistJournal ?_ ?_ hwritten
  · intro s e s' h hwritten hcommit htouches htakes
    refine hkeep s e s' h hwritten hcommit (List.Subset.trans htouches (by simp)) ?_ ?_
    · rw [htakes]
      simp
    · obtain ⟨found, hfound, hnames⟩ := hwritten.recorded
      refine ⟨found, ?_, hnames⟩
      rw [hcommit.1.untouched ?_, hfound]
      intro hmem
      exact hjjt (List.mem_singleton.mp (htouches hmem))
  · intro s reply s' h hwritten htemp hcommit
    refine hkeep s _ s' h hwritten hcommit (by simp [FileOp.touches])
      (by simpa [FileOp.takes] using htt.symm) ?_
    obtain ⟨rfl, -⟩ | ⟨bytes, hbytes, rfl⟩ := rename_cases hcommit
    · exact hwritten.recorded
    · refine ⟨record, ?_, hbackup⟩
      rw [Function.update_self, ← hbytes, htemp]

/-- Once the target has been replaced it stays so. -/
theorem during_confirm {record : JournalRecord} (hwritten : Written t target content s₀ s h)
    (hbackup : record.backupPath = if (s₀ target).isSome then some t.backup else none)
    (hdigest : record.contentSha256 = sha256Hex P content) :
    During Files.Commit (Written t target content s₀)
      (fun r s' h' => Written t target content s₀ s' h' ∧
        ∀ receipt, r = .ok receipt → t.Finished target content P s₀ s' receipt)
      (confirm P target t record).run s h := by
  have hnamed : ∀ state, ({ record with state } : JournalRecord).backupPath
      = if (s₀ target).isSome then some t.backup else none := fun _ => hbackup
  rw [confirm, during_exceptT_bind]
  refine (hwritten.persist hnodup (hnamed .replaced)).mono ?_
  rintro r s₁ h₁ ⟨hwritten, -⟩
  cases r with
  | error e => exact ⟨hwritten, fun _ hok => by cases hok⟩
  | ok _ =>
      rw [duringThen_ok, during_exceptT_bind]
      refine (during_call (.read target)).mpr fun reply s₂ h₂ => ?_
      obtain rfl : s₂ = s₁ := eq_of_asks h₂ rfl
      have hwritten : Written t target content s₀ s₂ (⟨.read target, reply⟩ :: h₁) :=
        { hwritten with
          created := List.mem_cons_of_mem _ hwritten.created
          removed := removed_cons (by simp [FileOp.takes]) hwritten.removed
          attempted := attempted_cons hwritten.attempted }
      refine ⟨hwritten, ?_⟩
      cases reply with
      | error e => exact ⟨hwritten, fun _ hok => by cases hok⟩
      | ok found =>
          rw [duringThen_ok, during_exceptT_bind, during_check, duringThen_iff]
          refine ⟨fun e _ => ⟨hwritten, fun _ hok => by cases hok⟩, fun _ _ => ?_⟩
          rw [during_exceptT_bind]
          refine (hwritten.persist hnodup (hnamed .committed)).mono ?_
          rintro r s₃ h₃ ⟨hwritten, hjournal⟩
          cases r with
          | error e => exact ⟨hwritten, fun _ hok => by cases hok⟩
          | ok _ =>
              refine (during_exceptT_pure _).mpr ⟨hwritten, ?_⟩
              intro receipt hok
              obtain rfl := Except.ok.inj hok
              exact
                { written := hwritten.written
                  backedUp := hwritten.backedUp
                  committed := ⟨_, hjournal rfl, rfl, hdigest⟩
                  receipt := ⟨rfl, rfl, hbackup⟩ }

/-- What the replacement does. -/
theorem Ready.replace {record : JournalRecord} {reply : Except FsError Unit}
    (hready : Ready t target content s₀ s h) (hjournal : s t.journal = some record.bytes)
    (hbackup : record.backupPath = if (s₀ target).isSome then some t.backup else none)
    (hcommit : Files.Commit s ⟨.rename t.temp target, reply⟩ s') :
    t.Replaced target content s₀ s' (⟨.rename t.temp target, reply⟩ :: h) ∧
      (reply = .ok () → s' target = some content) := by
  obtain ⟨-, htj, -, htb, hj, -, hb, -⟩ := paths_ne hnodup
  have hcases : (s' target = s₀ target ∧ reply ≠ .ok ()) ∨ s' target = some content := by
    obtain ⟨rfl, hne⟩ | ⟨bytes, hbytes, rfl⟩ := rename_cases hcommit
    · exact .inl ⟨hready.kept, hne⟩
    · right
      rw [Function.update_self, ← hbytes, hready.holds]
  have hother : ∀ path, path ≠ t.temp → path ≠ target → s' path = s path := by
    intro path hpath hpath'
    exact hcommit.1.untouched (by simp [FileOp.touches, hpath, hpath'])
  refine ⟨{ created := List.mem_cons_of_mem _ hready.created, removed := ?_,
            attempted := ⟨reply, List.mem_cons_self⟩, recorded := ?_, backedUp := ?_,
            oldOrNew := hcases.imp_left And.left }, ?_⟩
  · rw [List.mem_cons, not_or]
    exact ⟨by simp [Transaction.removed], hready.removed⟩
  · exact ⟨record, (hother _ hj.symm htj.symm).trans hjournal, hbackup⟩
  · intro bytes hold
    rw [hother _ hb.symm htb.symm]
    exact hready.backedUp bytes hold
  · intro hok
    exact hcases.resolve_left fun hold => hold.2 hok

/-- From the first record on. -/
theorem during_replaceTarget {record : JournalRecord} (hready : Ready t target content s₀ s h)
    (hbackup : record.backupPath = if (s₀ target).isSome then some t.backup else none)
    (hdigest : record.contentSha256 = sha256Hex P content) :
    During Files.Commit (t.Progress target content s₀)
      (fun r s' h' => t.Progress target content s₀ s' h' ∧
        ∀ receipt, r = .ok receipt → t.Finished target content P s₀ s' receipt)
      (replaceTarget P target t record).run s h := by
  rw [replaceTarget, during_exceptT_bind]
  refine ((hready.persist hnodup).weaken fun _ _ hnow => .staged hnow.toStaged).mono ?_
  rintro r s₁ h₁ ⟨hready, hjournal⟩
  cases r with
  | error e => exact ⟨.staged hready.toStaged, fun _ hok => by cases hok⟩
  | ok _ =>
      rw [duringThen_ok, during_exceptT_bind]
      refine (during_call (.rename t.temp target)).mpr fun reply s₂ h₂ => ?_
      obtain ⟨hreplaced, hnew⟩ := hready.replace hnodup (hjournal rfl) hbackup h₂
      refine ⟨.replaced hreplaced, ?_⟩
      cases reply with
      | error e => exact ⟨.replaced hreplaced, fun _ hok => by cases hok⟩
      | ok _ =>
          have hwritten : Written t target content s₀ s₂ _ :=
            { hreplaced with written := hnew rfl }
          rw [duringThen_ok]
          refine ((during_confirm hnodup hwritten hbackup hdigest).weaken
            fun _ _ hnow => .replaced hnow.toReplaced).mono ?_
          exact fun _ _ _ hnow => ⟨.replaced hnow.1.toReplaced, hnow.2⟩

omit hnodup in
theorem untouched_of_quiet (hh : Quiet h) : t.Progress target content s s h := by
  refine .untouched rfl ?_ ?_ <;> intro hmem
  · exact Bool.false_ne_true (hh _ hmem)
  · exact Bool.false_ne_true (hh _ hmem)

omit hnodup in
/-- What is left over is seen. -/
theorem during_transactionExists (hh : Quiet h) :
    During Files.Commit (fun s' h' => s' = s ∧ Quiet h')
      (fun r s' h' => (s' = s ∧ Quiet h') ∧ (r = .ok true ∨ r = .ok false ∧ t.Free s))
      (transactionExists t).run s h := by
  rw [transactionExists, during_exceptT_bind, during_pathExists]
  have hnow := Quiet.cons ⟨.probe t.temp, .ok (s t.temp).isSome⟩ h rfl hh
  refine ⟨⟨rfl, hnow⟩, ?_⟩
  rw [duringThen_ok]
  cases htemp : s t.temp with
  | some bytes => exact (during_exceptT_pure _).mpr ⟨⟨rfl, htemp ▸ hnow⟩, .inl rfl⟩
  | none =>
      change During _ _ _ (pathExists t.journal).run _ _
      rw [during_pathExists]
      rw [htemp] at hnow
      have hthen := Quiet.cons ⟨.probe t.journal, .ok (s t.journal).isSome⟩ _ rfl hnow
      refine ⟨⟨rfl, hthen⟩, ⟨rfl, hthen⟩, ?_⟩
      cases hjournal : s t.journal with
      | some bytes => exact .inl rfl
      | none => exact .inr ⟨rfl, htemp, hjournal⟩

/-- A write that has checked its target is at one of its points. -/
theorem during_writeTarget (authorization : Authorization)
    (precondition : Option TargetPrecondition) (hh : Quiet h) :
    During Files.Commit (t.Progress target content s)
      (fun r s' h' => t.Progress target content s s' h' ∧
        ∀ receipt, r = .ok receipt → t.Finished target content P s s' receipt)
      (writeTarget P authorization content precondition target t).run s h := by
  rw [writeTarget, during_exceptT_bind, during_pathExists]
  have hh := Quiet.cons ⟨.probe target, .ok (s target).isSome⟩ h rfl hh
  refine ⟨untouched_of_quiet hh, ?_⟩
  rw [duringThen_ok, during_exceptT_bind]
  refine ((during_transactionExists hh).weaken ?_).mono ?_
  · rintro s' h' ⟨rfl, hasked⟩
    exact untouched_of_quiet hasked
  rintro r s₁ h₁ ⟨⟨rfl, hasked⟩, rfl | ⟨rfl, hfree⟩⟩
  · rw [duringThen_ok, during_exceptT_bind, during_check, failIf_of_true rfl]
    exact ⟨untouched_of_quiet hasked, fun _ hok => by cases hok⟩
  rw [duringThen_ok, during_exceptT_bind, during_check, failIf_of_false Bool.false_ne_true,
    duringThen_ok, during_exceptT_bind]
  -- the files are as they were, and nothing of the transaction is there
  refine (during_stage hnodup hfree ?_ ?_).mono ?_
  · exact fun hmem => Bool.false_ne_true (hasked _ hmem)
  · exact fun hmem => Bool.false_ne_true (hasked _ hmem)
  intro r s₂ h₂ hr
  cases r with
  | error e => exact ⟨hr, fun _ hok => by cases hok⟩
  | ok _ =>
      obtain ⟨hs₂, hstaged⟩ := hr
      rw [duringThen_ok, during_exceptT_bind]
      refine (during_verifyAgain hnodup precondition hs₂ hstaged).mono ?_
      intro r s₃ h₃ hr
      cases r with
      | error e => exact ⟨hr, fun _ hok => by cases hok⟩
      | ok _ =>
          obtain ⟨rfl, hstill⟩ := hr
          rw [duringThen_ok, during_exceptT_bind]
          refine (during_backUp hnodup hs₂ hstill).mono ?_
          intro r s₄ h₄ hr
          cases r with
          | error e => exact ⟨hr, fun _ hok => by cases hok⟩
          | ok _ =>
              rw [duringThen_ok]
              exact during_replaceTarget hnodup hr rfl rfl

end Parts

/-! ### The whole write -/

section Whole

variable (worker : FsWorker) (authorization : Authorization) (content : List UInt8)

/-- What a run has to do with a target it has found, if the target is not one of the
files of the transaction. -/
def OfTarget (h : History Files)
    (course : (t : Transaction) → (target : String) → Prop) : Prop :=
  ∃ target directory, Resolved authorization.request.envelope.target h target ∧
    parent target = some directory ∧
    (target ∉ (worker.transaction authorization.request directory).paths →
      course (worker.transaction authorization.request directory) target)

variable {worker authorization content}

theorem OfTarget.imp {h : History Files}
    {course course' : (t : Transaction) → (target : String) → Prop}
    (hof : OfTarget worker authorization h course)
    (hcourse : ∀ t target, course t target → course' t target) :
    OfTarget worker authorization h course' := by
  obtain ⟨target, directory, hresolved, hparent, hc⟩ := hof
  exact ⟨target, directory, hresolved, hparent, fun hout => hcourse _ _ (hc hout)⟩

variable (worker authorization content)

/-- Where a write is. Before it knows its target it has done nothing. -/
def Reached (s s' : FileSystem) (h : History Files) : Prop :=
  (s' = s ∧ Quiet h) ∨
    OfTarget worker authorization h fun t target => t.Progress target content s s' h

/-- What a write has done once it has returned. -/
def Returned (P : Primitives) (s : FileSystem) (r : Except FsError WriteReceipt)
    (s' : FileSystem) (h : History Files) : Prop :=
  Reached worker authorization content s s' h ∧ ∀ receipt, r = .ok receipt →
    OfTarget worker authorization h fun t target => t.Finished target content P s s' receipt

variable {worker authorization content} in
/-- The target is known. -/
theorem during_ofTarget {precondition : Option TargetPrecondition} {directory : String}
    (hresolved : Resolved authorization.request.envelope.target h target)
    (hparent : parent target = some directory) (hh : Quiet h) :
    During Files.Commit (Reached worker authorization content s)
      (Returned worker authorization content P s)
      (writeTarget P authorization content precondition target
        (worker.transaction authorization.request directory)).run s h := by
  have hkeep : ∀ e h, Resolved authorization.request.envelope.target h target →
      Resolved authorization.request.envelope.target (e :: h) target := fun e h hr => hr.cons e
  by_cases hout : target ∈ (worker.transaction authorization.request directory).paths
  · refine (((during_true _).keeps hkeep hresolved).weaken ?_).mono ?_
    · rintro s' h' ⟨-, hresolved⟩
      exact .inr ⟨target, directory, hresolved, hparent, fun hnot => absurd hout hnot⟩
    · rintro r s' h' ⟨-, hresolved⟩
      refine ⟨.inr ⟨target, directory, hresolved, hparent, fun hnot => absurd hout hnot⟩, ?_⟩
      exact fun receipt _ => ⟨target, directory, hresolved, hparent, fun hnot => absurd hout hnot⟩
  · have hnodup := List.nodup_cons.mpr
      ⟨hout, worker.transaction_nodup authorization.request directory⟩
    refine (((during_writeTarget hnodup authorization precondition hh).keeps hkeep
      hresolved).weaken ?_).mono ?_
    · rintro s' h' ⟨hprogress, hresolved⟩
      exact .inr ⟨target, directory, hresolved, hparent, fun _ => hprogress⟩
    · rintro r s' h' ⟨⟨hprogress, hfinished⟩, hresolved⟩
      refine ⟨.inr ⟨target, directory, hresolved, hparent, fun _ => hprogress⟩, ?_⟩
      exact fun receipt hok =>
        ⟨target, directory, hresolved, hparent, fun _ => hfinished receipt hok⟩

/-- A write is always somewhere on its course. -/
theorem during_writeInner (requireTargetPrecondition : Bool) (hh : Quiet h) :
    During Files.Commit (Reached worker authorization content s)
      (Returned worker authorization content P s)
      (worker.writeInner P authorization content requireTargetPrecondition).run s h := by
  have hquiet : ∀ {h'} e, Quiet h' →
      Returned worker authorization content P s (.error e) s h' := by
    intro h' e hh'
    exact ⟨.inl ⟨rfl, hh'⟩, fun _ hok => by cases hok⟩
  have hreached : ∀ s' h', s' = s ∧ Quiet h' → Reached worker authorization content s s' h' := by
    rintro s' h' ⟨rfl, hh'⟩
    exact .inl ⟨rfl, hh'⟩
  rw [writeInner, during_exceptT_bind, during_check, duringThen_iff]
  refine ⟨fun e _ => hquiet e hh, fun expected _ => ?_⟩
  rw [during_exceptT_bind, during_check, duringThen_iff]
  refine ⟨fun e _ => hquiet e hh, fun _ _ => ?_⟩
  rw [during_exceptT_bind]
  refine ((during_resolve worker _ hh).weaken hreached).mono ?_
  rintro r s₁ h₁ ⟨⟨rfl, hh⟩, hresolved⟩
  cases r with
  | error e => exact hquiet e hh
  | ok target =>
      have hresolved := hresolved target rfl
      rw [duringThen_ok, during_exceptT_bind, during_check, duringThen_iff]
      refine ⟨fun e _ => hquiet e hh, fun _ _ => ?_⟩
      -- from here on the target is known as well
      have hask : ∀ e h, e.op.asks = true →
          Quiet h ∧ Resolved authorization.request.envelope.target h target →
          Quiet (e :: h) ∧ Resolved authorization.request.envelope.target (e :: h) target :=
        fun e h hasks hnow => ⟨Quiet.cons e h hasks hnow.1, hnow.2.cons e⟩
      rw [during_exceptT_bind]
      refine ((during_ask hask (.rejectReparse _) rfl ⟨hh, hresolved⟩).weaken
        fun s' h' hnow => hreached s' h' ⟨hnow.1, hnow.2.1⟩).mono ?_
      rintro reply s₂ h₂ ⟨⟨rfl, hnow⟩, -⟩
      cases reply with
      | error e => exact hquiet e hnow.1
      | ok _ =>
          rw [duringThen_ok, during_exceptT_bind, during_check, duringThen_iff]
          refine ⟨fun e _ => hquiet e hnow.1, fun precondition _ => ?_⟩
          rw [during_exceptT_bind]
          refine ((during_verify hask precondition hnow).weaken
            fun s' h' hnow => hreached s' h' ⟨hnow.1, hnow.2.1⟩).mono ?_
          rintro r s₃ h₃ ⟨⟨rfl, hh₃, hresolved₃⟩, -⟩
          cases r with
          | error e => exact hquiet e hh₃
          | ok _ =>
              rw [duringThen_ok, during_exceptT_bind, during_check, duringThen_iff]
              refine ⟨fun e _ => hquiet e hh₃, fun directory hparent => ?_⟩
              exact during_ofTarget hresolved₃ (orFail_eq_ok.mp hparent) hh₃

end Whole

end FsWorker

end VorCommander
