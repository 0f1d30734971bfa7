import VorCommander.Audit.Handles

/-!
One chain from many handles.

While a handle appends it has the lock, so what it read at the beginning still
holds when it commits: the chain that it continues is the chain that is there.
The file is ahead of the table by what the handle inside has written and not
committed yet, and by nothing when no handle is inside.
-/

namespace VorCommander

open Crypto Steps Steps.Program Steps.World Text

/-! ### What a call has done -/

/-- The call has acquired the lock and not released it. -/
def Inside : History AuditIo → Prop
  | [] => False
  | ⟨.acquire, .ok ()⟩ :: _ => True
  | ⟨.release, _⟩ :: _ => False
  | _ :: h => Inside h

/-- The bytes that were written since the last commit. -/
def pending : History AuditIo → List UInt8
  | [] => []
  | ⟨.write bytes, _⟩ :: h => pending h ++ bytes
  | ⟨.commit _, _⟩ :: _ => []
  | _ :: h => pending h

/-- The records that a call has committed, in order. -/
def committed : History AuditIo → List AuditRecord
  | [] => []
  | ⟨.commit record, _⟩ :: h => committed h ++ [record]
  | _ :: h => committed h

/-- The records that were committed, in order, each with the call that did. -/
def commits : Log AuditIo → List (ℕ × AuditRecord)
  | [] => []
  | (i, ⟨.commit record, _⟩) :: log => commits log ++ [(i, record)]
  | _ :: log => commits log

/-- The bytes that any call has written since the last commit. -/
def pendingIn (log : Log AuditIo) : List UInt8 := pending (log.map (·.2))

/-- What was committed by one call. -/
theorem commits_filter (log : Log AuditIo) (i : ℕ) :
    (commits log).filter (·.1 = i) = (committed (log.of i)).map (i, ·) := by
  induction log using commits.induct with
  | case1 => rfl
  | case2 j record reply log ih =>
      by_cases hj : j = i
      · subst hj
        simp [commits, committed, ih]
      · simp [commits, Log.of_cons_ne log _ hj, ih, hj]
  | case3 entry log hother ih =>
      rw [commits]
      · obtain ⟨j, op, reply⟩ := entry
        by_cases hj : j = i
        · subst hj
          rw [Log.of_cons_self, committed]
          · exact ih
          · rintro record reply' heq
            exact hother j record reply' (congrArg (Prod.mk j) heq)
        · rw [Log.of_cons_ne log _ hj]
          exact ih
      · exact hother

/-! ### The program of an append -/

section Append

variable (P : Primitives) (R : LedgerReader)

/-- A call that has the lock has read one head from both stores, and `record`
continues the chain from it. -/
def Prepared (event : AuditEvent) (h : History AuditIo) (record : AuditRecord) : Prop :=
  ∃ last content head,
    h = [⟨.readJsonl, Except.ok content⟩, ⟨.selectLast, Except.ok last⟩, ⟨.acquire, Except.ok ()⟩] ∧
      headOfRow last = .ok head ∧ loadJsonlLast R content = .ok head ∧
      record = nextRecord P head event

/-- The events of an append from the insertion of its row to the end of its
line. -/
def lineWritten (record : AuditRecord) : History AuditIo :=
  [⟨.write [lineFeed], Except.ok ()⟩, ⟨.write (utf8 (jsonText record.toJson)), Except.ok ()⟩,
    ⟨.insert record, Except.ok ()⟩]

/-- What an append guarantees of each operation. -/
def AppendGuarantee (event : AuditEvent) (h : History AuditIo) : AuditOp → Prop
  | .acquire => h = []
  | .insert record => Prepared P R event h record
  | .write bytes =>
      ∃ record earlier, Prepared P R event earlier record ∧
        (h = ⟨.insert record, Except.ok ()⟩ :: earlier ∧ bytes = utf8 (jsonText record.toJson) ∨
          h = ⟨.write (utf8 (jsonText record.toJson)), Except.ok ()⟩ ::
            ⟨.insert record, Except.ok ()⟩ :: earlier ∧ bytes = [lineFeed])
  | .commit record =>
      ∃ earlier, Prepared P R event earlier record ∧
        h = ⟨.sync, Except.ok ()⟩ :: (lineWritten record ++ earlier)
  | .release => Inside h ∧ pending h = []
  | _ => True

/-- Readers neither lock nor write. -/
def ReadGuarantee : AuditOp → Prop
  | .acquire | .insert _ | .write _ | .commit _ | .release => False
  | _ => True

/-- What each call guarantees. -/
def LedgerGuarantee : LedgerEntry → History AuditIo → AuditOp → Prop
  | .append _ event => AppendGuarantee P R event.val
  | .openFiles => fun _ => ReadGuarantee
  | .verifyIntegrity => fun _ => ReadGuarantee

/-- Nothing fails but what is refused: the lock, or the insertion of a row. -/
def Steady (_ : History AuditIo) (e : Event AuditIo) : Prop :=
  match e with
  | ⟨.selectEvents, reply⟩ => ∃ texts, reply = .ok texts
  | ⟨.insertConsumption _ _, reply⟩ => reply = .ok ()
  | ⟨.selectLast, reply⟩ => ∃ last, reply = .ok last
  | ⟨.selectRows, reply⟩ => ∃ rows, reply = .ok rows
  | ⟨.readJsonl, reply⟩ => ∃ content, reply = .ok content
  | ⟨.write _, reply⟩ => reply = .ok ()
  | ⟨.sync, reply⟩ => reply = .ok ()
  | ⟨.commit _, reply⟩ => reply = .ok ()
  | ⟨.release, reply⟩ => reply = .ok ()
  | _ => True

/-- A finished call has left the lock, and has committed the record that it
returns or nothing. -/
def LedgerOutcome (entry : LedgerEntry) (h : History AuditIo) (r : LedgerResult) : Prop :=
  ¬ Inside h ∧
    match entry, r with
    | .append _ event, .appended (.ok (record, _)) =>
        committed h = [record] ∧ record.event = event.val
    | _, _ => committed h = []

variable {P R} {event : AuditEvent} {handle : LedgerHandle}

abbrev GuaranteesAppend {α : Type} (P : Primitives) (R : LedgerReader) (event : AuditEvent)
    (p : LedgerM α) (h : History AuditIo)
    (Q : History AuditIo → Except AuditError α → Prop) : Prop :=
  Safe Steady (AppendGuarantee P R event) Q p.run h

/-- Nothing that is counted has happened since. -/
structure Unmoved (h h' : History AuditIo) : Prop where
  inside : Inside h' ↔ Inside h
  pending : pending h' = pending h
  committed : committed h' = committed h

/-- Loading the head only reads, and a head that it returns is that of both
stores. -/
theorem safe_loadHead (R : LedgerReader) {G : History AuditIo → AuditOp → Prop}
    {h : History AuditIo} (hselect : G h .selectLast)
    (hread : ∀ last, G (⟨.selectLast, last⟩ :: h) .readJsonl) :
    Safe Steady G (fun h' r => Unmoved h h' ∧ ∀ head, r = .ok head → ∃ last content,
      h' = ⟨.readJsonl, Except.ok content⟩ :: ⟨.selectLast, Except.ok last⟩ :: h ∧
        headOfRow last = .ok head ∧ loadJsonlLast R content = .ok head)
      (LedgerHandle.loadHead R).run h := by
  simp only [LedgerHandle.loadHead, LedgerHandle.loadDbLast,
    LedgerHandle.loadFileLast, safe_exceptT_bind, safe_auditSelectLast]
  refine ⟨hselect, fun last _ => ?_⟩
  have hselected : Unmoved h (⟨.selectLast, last⟩ :: h) := ⟨Iff.rfl, rfl, rfl⟩
  cases last with
  | error e => exact ⟨hselected, by simp⟩
  | ok last =>
      simp only [then_ok, safe_check]
      cases hdb : headOfRow last with
      | error e => exact ⟨hselected, by simp⟩
      | ok head =>
          simp only [then_ok, safe_exceptT_bind, safe_auditReadJsonl]
          refine ⟨hread _, fun content _ => ?_⟩
          have hboth : Unmoved h
              (⟨.readJsonl, content⟩ :: ⟨.selectLast, Except.ok last⟩ :: h) :=
            ⟨Iff.rfl, rfl, rfl⟩
          cases content with
          | error e => exact ⟨hboth, by simp⟩
          | ok content =>
              simp only [then_ok, safe_check]
              cases hfile : loadJsonlLast R content with
              | error e => exact ⟨hboth, by simp⟩
              | ok fileHead =>
                  simp only [then_ok, safe_exceptT_bind, safe_check, then_failIf]
                  refine ⟨fun _ => ⟨hboth, by simp⟩, fun hsame => ?_⟩
                  obtain rfl : head = fileHead := not_not.mp hsame
                  refine (safe_exceptT_pure _).mpr ⟨hboth, fun head' hhead => ?_⟩
                  obtain rfl := Except.ok.inj hhead
                  exact ⟨last, content, rfl, hdb, hfile⟩

/-- What holds when the work inside of the lock is done. -/
def LockedOutcome (event : AuditEvent) (h : History AuditIo) (r : Except AuditError AuditRecord) :
    Prop :=
  Inside h ∧ pending h = [] ∧
    (∀ record, r = .ok record → committed h = [record] ∧ record.event = event) ∧
      ∀ e, r = .error e → committed h = []

theorem guarantees_appendLocked :
    GuaranteesAppend P R event (LedgerHandle.appendLocked P R handle event)
      [⟨.acquire, Except.ok ()⟩] (LockedOutcome event) := by
  simp only [GuaranteesAppend, LedgerHandle.appendLocked, safe_exceptT_bind]
  refine (safe_loadHead R trivial fun _ => trivial).mono ?_
  rintro h (e | head) ⟨hquiet, hhead⟩
  · have hinside : Inside h := hquiet.inside.mpr trivial
    exact ⟨hinside, hquiet.pending, by simp, fun _ _ => hquiet.committed⟩
  obtain ⟨last, content, rfl, hdb, hfile⟩ := hhead head rfl
  obtain ⟨record, hrecord⟩ : ∃ record, record = nextRecord P head event := ⟨_, rfl⟩
  have hprepared : Prepared P R event _ record := ⟨last, content, head, rfl, hdb, hfile, hrecord⟩
  have hevent : record.event = event := by rw [hrecord]; rfl
  have hsame : nextRecord P (some (head.getD (0, zeroHash))) event = record := by
    rw [hrecord, nextRecord_getD head]
  simp only [then_ok, Prod.mk.eta, hsame, LedgerHandle.appendJsonl,
    safe_exceptT_bind, safe_auditInsert]
  refine ⟨hprepared, fun reply _ => ?_⟩
  cases reply with
  | error e => exact ⟨trivial, rfl, by simp, fun _ _ => rfl⟩
  | ok _ =>
      simp only [then_ok, safe_exceptT_bind, safe_auditWrite]
      refine ⟨⟨record, _, hprepared, .inl ⟨rfl, rfl⟩⟩, fun reply hreply => ?_⟩
      obtain rfl : reply = .ok () := hreply
      simp only [then_ok, safe_exceptT_bind, safe_auditWrite]
      refine ⟨⟨record, _, hprepared, .inr ⟨rfl, rfl⟩⟩, fun reply hreply => ?_⟩
      obtain rfl : reply = .ok () := hreply
      simp only [then_ok, safe_auditSync]
      refine ⟨trivial, fun reply hreply => ?_⟩
      obtain rfl : reply = .ok () := hreply
      simp only [then_ok, safe_exceptT_bind, safe_auditCommit]
      refine ⟨⟨_, hprepared, rfl⟩, fun reply hreply => ?_⟩
      obtain rfl : reply = .ok () := hreply
      refine (safe_exceptT_pure _).mpr ⟨trivial, rfl, fun record' hok => ?_, by simp⟩
      obtain rfl := Except.ok.inj hok
      exact ⟨rfl, hevent⟩

/-- An append commits the record that it returns, and nothing if it fails. -/
theorem guarantees_append :
    GuaranteesAppend P R event (LedgerHandle.append P R handle event) [] fun h r =>
      ¬ Inside h ∧
        (∀ result, r = .ok result → committed h = [result.1] ∧ result.1.event = event) ∧
          ∀ e, r = .error e → committed h = [] := by
  simp only [GuaranteesAppend, LedgerHandle.append, safe_exceptT_bind, safe_auditAcquire]
  refine ⟨rfl, fun reply _ => ?_⟩
  cases reply with
  | error e => exact ⟨by simp [Inside], by simp, fun _ _ => rfl⟩
  | ok _ =>
      simp only [then_ok, safe_exceptT_bind, safe_exceptT_lift]
      refine guarantees_appendLocked.mono ?_
      rintro h (e | record) ⟨hinside, hpending, hok, herror⟩
      · simp only [then_ok, safe_exceptT_bind, safe_exceptT_lift]
        apply (safe_step _ _).mpr
        refine ⟨⟨hinside, hpending⟩, fun _ _ => ?_⟩
        rw [safe_done, safe_exceptT_throw]
        exact ⟨not_false, by simp, fun _ _ => herror e rfl⟩
      · simp only [safe_exceptT_bind, safe_auditRelease]
        refine ⟨⟨hinside, hpending⟩, fun reply hreply => ?_⟩
        obtain rfl : reply = .ok () := hreply
        refine (safe_exceptT_pure _).mpr ⟨not_false, fun result hresult => ?_, by simp⟩
        obtain rfl := Except.ok.inj hresult
        exact hok record rfl

/-- What a call guarantees that neither locks nor writes. -/
abbrev OnlyReads {α : Type} (p : LedgerM α) (h : History AuditIo) : Prop :=
  Safe Steady (fun _ => ReadGuarantee) (fun h' _ => Unmoved h h') p.run h

theorem Unmoved.refl (h : History AuditIo) : Unmoved h h := ⟨Iff.rfl, rfl, rfl⟩

theorem Unmoved.trans {h h' h'' : History AuditIo} (hfirst : Unmoved h h')
    (hsecond : Unmoved h' h'') : Unmoved h h'' where
  inside := hsecond.inside.trans hfirst.inside
  pending := hsecond.pending.trans hfirst.pending
  committed := hsecond.committed.trans hfirst.committed

theorem onlyReads_migrate (R : LedgerReader) (texts : List String) {h : History AuditIo} :
    OnlyReads (LedgerHandle.migrateApprovalConsumptions R texts) h := by
  induction texts generalizing h with
  | nil => exact (safe_exceptT_pure _).mpr (.refl h)
  | cons text rest ih =>
      simp only [LedgerHandle.migrateApprovalConsumptions, safe_exceptT_bind, safe_check]
      cases R.event text with
      | none => exact .refl h
      | some event =>
          simp only [orFail_some, then_ok]
          split
          case isFalse => exact ih
          case isTrue =>
            simp only [safe_exceptT_bind, safe_check]
            cases sqlInteger event.timestampUnixMs with
            | error e => exact .refl h
            | ok consumedAt =>
                simp only [then_ok, safe_exceptT_bind, safe_auditInsertConsumption]
                refine ⟨trivial, fun reply _ => ?_⟩
                have hinserted : Unmoved h (⟨.insertConsumption
                    ⟨event.requestId, event.envelopeDigest⟩ consumedAt, reply⟩ :: h) :=
                  ⟨Iff.rfl, rfl, rfl⟩
                cases reply with
                | error e => exact hinserted
                | ok _ => exact ih.mono fun _ _ hlater => hinserted.trans hlater

theorem onlyReads_openFiles (R : LedgerReader) : OnlyReads (LedgerHandle.openFiles R) [] := by
  simp only [LedgerHandle.openFiles, safe_exceptT_bind, safe_auditSelectEvents]
  refine ⟨trivial, fun reply _ => ?_⟩
  have hselected : Unmoved [] [⟨.selectEvents, reply⟩] := ⟨Iff.rfl, rfl, rfl⟩
  cases reply with
  | error e => exact hselected
  | ok texts =>
      simp only [then_ok, safe_exceptT_bind]
      refine (onlyReads_migrate R texts).mono ?_
      rintro h (e | _) hmigrated
      · exact hselected.trans hmigrated
      simp only [then_ok, safe_exceptT_bind]
      refine (safe_loadHead R trivial fun _ => trivial).mono ?_
      rintro h' (e | head) ⟨hloaded, -⟩
      · exact hselected.trans (hmigrated.trans hloaded)
      · exact (safe_exceptT_pure _).mpr (hselected.trans (hmigrated.trans hloaded))

theorem onlyReads_verifyIntegrity (P : Primitives) (R : LedgerReader) :
    OnlyReads (LedgerHandle.verifyIntegrity P R) [] := by
  simp only [LedgerHandle.verifyIntegrity, safe_exceptT_bind, safe_auditSelectRows]
  refine ⟨trivial, fun reply _ => ?_⟩
  have hselected : Unmoved [] [⟨.selectRows, reply⟩] := ⟨Iff.rfl, rfl, rfl⟩
  cases reply with
  | error e => exact hselected
  | ok rows =>
      simp only [then_ok, safe_exceptT_bind, safe_check]
      cases checkRows P R zeroHash rows with
      | error e => exact hselected
      | ok dbRecords =>
          simp only [then_ok, safe_exceptT_bind, safe_auditReadJsonl]
          refine ⟨trivial, fun reply _ => ?_⟩
          have hread : Unmoved [] [⟨.readJsonl, reply⟩, ⟨.selectRows, Except.ok rows⟩] :=
            ⟨Iff.rfl, rfl, rfl⟩
          cases reply with
          | error e => exact hread
          | ok content =>
              simp only [then_ok, safe_exceptT_bind, safe_check]
              cases loadJsonlRecords R content with
              | error e => exact hread
              | ok fileRecords =>
                  simp only [then_ok, safe_check]
                  exact hread

/-- What every call guarantees, and what it has committed in the end. -/
theorem guarantees_body (P : Primitives) (R : LedgerReader) (entry : LedgerEntry) :
    Safe Steady (LedgerGuarantee P R entry) (LedgerOutcome entry) (entry.body P R) [] := by
  cases entry with
  | openFiles =>
      rw [LedgerEntry.body, safe_map]
      exact (onlyReads_openFiles R).mono fun _ _ hquiet =>
        ⟨hquiet.inside.not.mpr not_false, hquiet.committed⟩
  | verifyIntegrity =>
      rw [LedgerEntry.body, safe_map]
      exact (onlyReads_verifyIntegrity P R).mono fun _ _ hquiet =>
        ⟨hquiet.inside.not.mpr not_false, hquiet.committed⟩
  | append handle event =>
      rw [LedgerEntry.body, safe_map]
      refine guarantees_append.mono ?_
      rintro h (e | ⟨record, handle'⟩) ⟨houtside, hok, herror⟩
      · exact ⟨houtside, herror e rfl⟩
      · exact ⟨houtside, hok (record, handle') rfl⟩

end Append

/-! ### Chains in the table -/

section Chains

variable {P : Primitives} {events : List AuditEvent}

theorem sequence_of_mem_chainOf {record : AuditRecord} (h : record ∈ chainOf P events) :
    1 ≤ record.sequence ∧ record.sequence ≤ events.length := by
  have hnumber : record.sequence ∈ (chainFrom P (0, zeroHash) events).map AuditRecord.sequence :=
    List.mem_map_of_mem h
  rw [sequence_chainFrom, List.mem_range'_1] at hnumber
  omega

/-- The last row is read as the head of the chain. -/
theorem headOfRow_lastRow (hsize : events.length < 2 ^ 63) :
    headOfRow (AuditFiles.lastRow ((chainOf P events).map AuditRecord.toRow)) =
      .ok (chainHead (chainOf P events)) := by
  rw [AuditFiles.lastRow, List.getLast?_map, chainHead]
  cases hlast : (chainOf P events).getLast? with
  | none => rfl
  | some record =>
      have hle := (sequence_of_mem_chainOf (List.mem_of_getLast? hlast)).2
      have hsequence : sequenceOfI64 (Int64.ofNat record.sequence) = .ok record.sequence :=
        sequenceOfI64_ofNat (by omega)
      simp only [Option.map_some, headOfRow, AuditRecord.toRow, hsequence, decodeHash_hexEncode,
        ok_bind]
      rfl

theorem sequence_nextRecord_chainOf (event : AuditEvent) :
    (nextRecord P (chainHead (chainOf P events)) event).sequence = events.length + 1 := by
  have hall : (chainOf P (events ++ [event])).map AuditRecord.sequence =
      List.range' 1 (events.length + 1) := by
    rw [chainOf, sequence_chainFrom, List.length_append]
    rfl
  have hbefore : (chainOf P events).map AuditRecord.sequence = List.range' 1 events.length :=
    sequence_chainFrom
  rw [chainOf_append_singleton, List.map_append, hbefore, List.map_singleton,
    List.range'_concat] at hall
  have hlast := List.append_cancel_left hall
  rw [List.cons.injEq] at hlast
  omega

theorem insertRow_of_lt {rows : List Row} {row : Row}
    (h : ∀ other ∈ rows, other.sequence < row.sequence) :
    AuditFiles.insertRow row rows = rows ++ [row] := by
  induction rows with
  | nil => rfl
  | cons other rows ih =>
      rw [List.forall_mem_cons] at h
      have hnot : ¬ row.sequence ≤ other.sequence := Int64.not_le.mpr h.1
      have hrest : rows.orderedInsert (fun a b => a.sequence ≤ b.sequence) row = rows ++ [row] :=
        ih h.2
      rw [AuditFiles.insertRow, List.orderedInsert_cons, if_neg hnot, hrest, List.cons_append]

/-- The next record of a chain comes last. -/
theorem insertRow_chainOf (event : AuditEvent) (hsize : events.length + 1 < 2 ^ 63) :
    AuditFiles.insertRow (nextRecord P (chainHead (chainOf P events)) event).toRow
        ((chainOf P events).map AuditRecord.toRow) =
      (chainOf P (events ++ [event])).map AuditRecord.toRow := by
  rw [chainOf_append_singleton, List.map_append, List.map_singleton]
  apply insertRow_of_lt
  intro other hother
  obtain ⟨record, hrecord, rfl⟩ := List.mem_map.mp hother
  have hle := (sequence_of_mem_chainOf hrecord).2
  rw [AuditRecord.toRow, AuditRecord.toRow, sequence_nextRecord_chainOf, Int64.lt_iff_toInt_lt,
    Int64.toInt_ofNat_of_lt (by omega), Int64.toInt_ofNat_of_lt (by omega)]
  omega

end Chains

/-! ### The invariant -/

section Invariant

variable (P : Primitives) (initial : List AuditEvent)

/-- The events of the ledger: those it had, and those committed since. -/
def ledgerEvents (log : Log AuditIo) : List AuditEvent :=
  initial ++ (commits log).map fun entry => entry.2.event

/-- What the files know of the log. -/
structure Serialized (files : AuditFiles) (log : Log AuditIo) : Prop where
  chain : chainOf P (ledgerEvents initial log) =
    chainOf P initial ++ (commits log).map fun entry => entry.2
  rows : files.rows = (chainOf P (ledgerEvents initial log)).map AuditRecord.toRow
  file : files.jsonl.getD [] =
    recordLines (chainOf P (ledgerEvents initial log)) ++ pendingIn log
  free : files.lock = none → ∀ i, ¬ Inside (log.of i)
  alone : ∀ i j, Inside (log.of i) → Inside (log.of j) → i = j
  quiet : (∀ i, ¬ Inside (log.of i)) → pendingIn log = []
  busy : ∀ i, Inside (log.of i) → pendingIn log = pending (log.of i)
  read : ∀ i, Inside (log.of i) → committed (log.of i) = [] →
    ∀ last, ⟨.selectLast, Except.ok last⟩ ∈ log.of i → last = AuditFiles.lastRow files.rows
  room : ∀ i, Inside (log.of i) → committed (log.of i) = [] →
    ∀ record, ⟨.insert record, Except.ok ()⟩ ∈ log.of i → files.rows.length < maxRows
  ahead : pendingIn log = [] ∨ ∃ event : AuditEvent, event.Fits ∧
    let record := nextRecord P (chainHead (chainOf P (ledgerEvents initial log))) event
    pendingIn log = utf8 (jsonText record.toJson) ∨ pendingIn log = record.toLine
  size : (ledgerEvents initial log).length ≤ maxRows
  fits : ∀ event ∈ ledgerEvents initial log, event.Fits

/-- An event that changes no file and is not counted, and whose answer is what
is there. -/
structure Neutral (files : AuditFiles) (e : Event AuditIo) : Prop where
  inside : ∀ h, Inside (e :: h) ↔ Inside h
  pending : ∀ h, pending (e :: h) = pending h
  committed : ∀ h, committed (e :: h) = committed h
  commits : ∀ (log : Log AuditIo) i, commits ((i, e) :: log) = commits log
  read : ∀ last, e = ⟨.selectLast, Except.ok last⟩ → last = AuditFiles.lastRow files.rows
  room : ∀ record, e = ⟨.insert record, Except.ok ()⟩ → files.rows.length < maxRows

namespace Serialized

variable {P initial} {files files' : AuditFiles} {log : Log AuditIo} {i : ℕ} {e : Event AuditIo}

theorem neutral (h : Serialized P initial files log) (he : Neutral files e) :
    Serialized P initial files ((i, e) :: log) := by
  have hevents : ledgerEvents initial ((i, e) :: log) = ledgerEvents initial log := by
    rw [ledgerEvents, he.commits, ledgerEvents]
  have hpendingIn : pendingIn ((i, e) :: log) = pendingIn log := he.pending _
  have hinside : ∀ j, Inside (Log.of ((i, e) :: log) j) ↔ Inside (log.of j) := by
    intro j
    by_cases hj : i = j
    · subst hj
      rw [Log.of_cons_self, he.inside]
    · rw [Log.of_cons_ne log e hj]
  have hpending : ∀ j, pending (Log.of ((i, e) :: log) j) = pending (log.of j) := by
    intro j
    by_cases hj : i = j
    · subst hj
      rw [Log.of_cons_self, he.pending]
    · rw [Log.of_cons_ne log e hj]
  have hcommitted : ∀ j, committed (Log.of ((i, e) :: log) j) = committed (log.of j) := by
    intro j
    by_cases hj : i = j
    · subst hj
      rw [Log.of_cons_self, he.committed]
    · rw [Log.of_cons_ne log e hj]
  constructor
  · rw [hevents, he.commits, h.chain]
  · rw [hevents, h.rows]
  · rw [hevents, hpendingIn, h.file]
  · exact fun hfree j => (hinside j).not.mpr (h.free hfree j)
  · exact fun j k hj hk => h.alone j k ((hinside j).mp hj) ((hinside k).mp hk)
  · exact fun hnobody => hpendingIn.trans (h.quiet fun j => (hinside j).not.mp (hnobody j))
  · intro j hj
    rw [hpendingIn, hpending, h.busy j ((hinside j).mp hj)]
  · intro j hj hnone last hmem
    rw [hcommitted] at hnone
    rcases List.mem_cons.mp (Log.mem_of.mp hmem) with heq | hmem
    · exact he.read last (Prod.mk.inj heq).2.symm
    · exact h.read j ((hinside j).mp hj) hnone last (Log.mem_of.mpr hmem)
  · intro j hj hnone record hmem
    rw [hcommitted] at hnone
    rcases List.mem_cons.mp (Log.mem_of.mp hmem) with heq | hmem
    · exact he.room record (Prod.mk.inj heq).2.symm
    · exact h.room j ((hinside j).mp hj) hnone record (Log.mem_of.mpr hmem)
  · rw [hevents, hpendingIn]
    exact h.ahead
  · rw [hevents]
    exact h.size
  · rw [hevents]
    exact h.fits

/-- The lock is acquired by a call that has done nothing yet, while nobody has
it. -/
theorem acquire (h : Serialized P initial files log) (hfree : files.lock = none)
    (hfirst : log.of i = []) (content : List UInt8) :
    Serialized P initial { files with lock := some content }
      ((i, ⟨.acquire, Except.ok ()⟩) :: log) := by
  have hnobody := h.free hfree
  have honly : ∀ j, Inside (Log.of ((i, ⟨.acquire, Except.ok ()⟩) :: log) j) → j = i := by
    intro j hj
    by_contra hne
    rw [Log.of_cons_ne log _ (Ne.symm hne)] at hj
    exact hnobody j hj
  have hmine : Inside (Log.of ((i, ⟨.acquire, Except.ok ()⟩) :: log) i) := by
    rw [Log.of_cons_self]
    trivial
  constructor
  · exact h.chain
  · exact h.rows
  · exact h.file
  · exact fun hnone => absurd hnone (by simp)
  · exact fun j k hj hk => (honly j hj).trans (honly k hk).symm
  · exact fun hnone => absurd hmine (hnone i)
  · intro j hj
    obtain rfl := honly j hj
    rw [Log.of_cons_self, hfirst]
    exact h.quiet hnobody
  · intro j hj _ last hmem
    obtain rfl := honly j hj
    rw [Log.of_cons_self, hfirst] at hmem
    simp at hmem
  · intro j hj _ record hmem
    obtain rfl := honly j hj
    rw [Log.of_cons_self, hfirst] at hmem
    simp at hmem
  · exact h.ahead
  · exact h.size
  · exact h.fits

/-- The lock is released by the call that has it, after all that it wrote has
been committed. -/
theorem release (h : Serialized P initial files log) (hinside : Inside (log.of i))
    (hpending : pending (log.of i) = []) {reply : Except AuditError Unit} :
    Serialized P initial { files with lock := none } ((i, ⟨.release, reply⟩) :: log) := by
  have hnobody : ∀ j, ¬ Inside (Log.of ((i, ⟨.release, reply⟩) :: log) j) := by
    intro j hj
    by_cases hij : i = j
    · subst hij
      rw [Log.of_cons_self] at hj
      exact hj
    · rw [Log.of_cons_ne log _ hij] at hj
      exact hij (h.alone i j hinside hj)
  constructor
  · exact h.chain
  · exact h.rows
  · exact h.file
  · exact fun _ => hnobody
  · exact fun j _ hj => absurd hj (hnobody j)
  · exact fun _ => (h.busy i hinside).trans hpending
  · exact fun j hj => absurd hj (hnobody j)
  · exact fun j hj => absurd hj (hnobody j)
  · exact fun j hj => absurd hj (hnobody j)
  · exact h.ahead
  · exact h.size
  · exact h.fits

/-- What the record of a call that is inside continues is the chain that is
there. -/
theorem continues {R : LedgerReader} (h : Serialized P initial files log) {event : AuditEvent}
    {record : AuditRecord} {added earlier : History AuditIo}
    (hprepared : Prepared P R event earlier record) (hshape : log.of i = added ++ earlier)
    (hinside : Inside (log.of i)) (hnone : committed (log.of i) = []) :
    record = nextRecord P (chainHead (chainOf P (ledgerEvents initial log))) event := by
  obtain ⟨last, content, head, hearlier, hdb, -, hrecord⟩ := hprepared
  have hmax : maxRows < 2 ^ 63 := by decide
  -- what was read is still there
  have hlast : last = AuditFiles.lastRow files.rows := by
    apply h.read i hinside hnone
    rw [hshape, hearlier]
    simp
  rw [hlast, h.rows, headOfRow_lastRow (h.size.trans_lt hmax)] at hdb
  rw [hrecord, ← Except.ok.inj hdb]

/-- The file grows by what the call that has the lock writes. -/
theorem write {R : LedgerReader} (h : Serialized P initial files log) {event : AuditEvent}
    (hfits : event.Fits) {bytes : List UInt8}
    (hguarantee : AppendGuarantee P R event (log.of i) (.write bytes)) :
    Serialized P initial { files with jsonl := some (files.jsonl.getD [] ++ bytes) }
      ((i, ⟨.write bytes, Except.ok ()⟩) :: log) := by
  obtain ⟨record, earlier, hprepared, hcase⟩ := hguarantee
  have hearlier : Inside earlier ∧ committed earlier = [] ∧ pending earlier = [] := by
    obtain ⟨last, content, head, rfl, -⟩ := hprepared
    exact ⟨trivial, rfl, rfl⟩
  obtain ⟨hinside, hnone⟩ : Inside (log.of i) ∧ committed (log.of i) = [] := by
    rcases hcase with ⟨hshape, -⟩ | ⟨hshape, -⟩ <;> rw [hshape] <;>
      exact ⟨hearlier.1, hearlier.2.1⟩
  -- whoever is inside after the write was before, and that is one call
  have hold : ∀ j, Inside (Log.of ((i, ⟨.write bytes, Except.ok ()⟩) :: log) j) → j = i := by
    intro j hj
    by_contra hne
    rw [Log.of_cons_ne log _ (Ne.symm hne)] at hj
    exact hne (h.alone j i hj hinside)
  have hmine : Inside (Log.of ((i, ⟨.write bytes, Except.ok ()⟩) :: log) i) := by
    rw [Log.of_cons_self]
    exact hinside
  have hpendingIn : pendingIn ((i, ⟨.write bytes, Except.ok ()⟩) :: log) = pendingIn log ++ bytes :=
    rfl
  constructor
  · exact h.chain
  · exact h.rows
  · rw [hpendingIn, ← List.append_assoc]
    exact congrArg (· ++ bytes) h.file
  · exact fun hnone => absurd hinside (h.free hnone i)
  · exact fun j k hj hk => (hold j hj).trans (hold k hk).symm
  · exact fun hnone => absurd hmine (hnone i)
  · intro j hj
    obtain rfl := hold j hj
    rw [hpendingIn, Log.of_cons_self, h.busy j hinside]
    rfl
  · intro j hj hnone last hmem
    obtain rfl := hold j hj
    rw [Log.of_cons_self] at hnone hmem
    exact h.read j hinside hnone last (by simpa using hmem)
  · intro j hj hnone record hmem
    obtain rfl := hold j hj
    rw [Log.of_cons_self] at hnone hmem
    exact h.room j hinside hnone record (by simpa using hmem)
  · right
    refine ⟨event, hfits, ?_⟩
    have hevents : ledgerEvents initial ((i, ⟨.write bytes, Except.ok ()⟩) :: log) =
        ledgerEvents initial log := rfl
    rw [hevents, hpendingIn, h.busy i hinside]
    rcases hcase with ⟨hshape, hbytes⟩ | ⟨hshape, hbytes⟩
    · have hadded : log.of i = [⟨.insert record, Except.ok ()⟩] ++ earlier := hshape
      have hcontinues := h.continues hprepared hadded hinside hnone
      left
      rw [← hcontinues, hshape, hbytes, pending, hearlier.2.2, List.nil_append]
      all_goals simp
    · have hadded : log.of i = [⟨.write (utf8 (jsonText record.toJson)), Except.ok ()⟩,
          ⟨.insert record, Except.ok ()⟩] ++ earlier := hshape
      have hcontinues := h.continues hprepared hadded hinside hnone
      right
      rw [← hcontinues, hshape, hbytes, pending, pending, hearlier.2.2, List.nil_append,
        AuditRecord.toLine]
      all_goals simp
  · exact h.size
  · exact h.fits

/-- The table catches up with the file. -/
theorem commit {R : LedgerReader} (h : Serialized P initial files log) {event : AuditEvent}
    (hfits : event.Fits) {record : AuditRecord} {earlier : History AuditIo}
    (hprepared : Prepared P R event earlier record)
    (hshape : log.of i = ⟨.sync, Except.ok ()⟩ :: (lineWritten record ++ earlier)) :
    Serialized P initial { files with rows := AuditFiles.insertRow record.toRow files.rows }
      ((i, ⟨.commit record, Except.ok ()⟩) :: log) := by
  have hinside : Inside (log.of i) := by
    obtain ⟨last, content, head, hearlier, -⟩ := hprepared
    rw [hshape, hearlier]
    trivial
  have hnone : committed (log.of i) = [] := by
    obtain ⟨last, content, head, hearlier, -⟩ := hprepared
    rw [hshape, hearlier]
    rfl
  have hadded : log.of i = (⟨.sync, Except.ok ()⟩ :: lineWritten record) ++ earlier := hshape
  have hrecord := h.continues hprepared hadded hinside hnone
  have hevent : record.event = event := by rw [hrecord]; rfl
  have hroom : files.rows.length < maxRows := by
    apply h.room i hinside hnone record
    rw [hshape]
    simp [lineWritten]
  have hlength : (ledgerEvents initial log).length < maxRows := by
    rwa [h.rows, List.length_map, length_chainOf] at hroom
  have hmax : maxRows < 2 ^ 63 := by decide
  have hevents : ledgerEvents initial ((i, ⟨.commit record, Except.ok ()⟩) :: log) =
      ledgerEvents initial log ++ [event] := by
    rw [ledgerEvents, commits, List.map_append, List.map_singleton, hevent, ← List.append_assoc,
      ← ledgerEvents]
  have hchain : chainOf P (ledgerEvents initial log ++ [event]) =
      chainOf P (ledgerEvents initial log) ++ [record] := by
    rw [chainOf_append_singleton, ← hrecord]
  -- what the call has written since it came in is the line of the record
  have hline : pendingIn log = record.toLine := by
    obtain ⟨last, content, head, hearlier, -⟩ := hprepared
    rw [h.busy i hinside, hshape, hearlier]
    simp only [lineWritten, List.cons_append, List.nil_append, pending, AuditRecord.toLine]
  have hold : ∀ j, Inside (Log.of ((i, ⟨.commit record, Except.ok ()⟩) :: log) j) → j = i := by
    intro j hj
    by_contra hne
    rw [Log.of_cons_ne log _ (Ne.symm hne)] at hj
    exact hne (h.alone j i hj hinside)
  have hmine : Inside (Log.of ((i, ⟨.commit record, Except.ok ()⟩) :: log) i) := by
    rw [Log.of_cons_self]
    exact hinside
  have hcommitted : committed (Log.of ((i, ⟨.commit record, Except.ok ()⟩) :: log) i) ≠ [] := by
    rw [Log.of_cons_self, committed]
    simp
  constructor
  · rw [hevents, hchain, h.chain, commits, List.map_append, List.append_assoc]
    rfl
  · rw [hevents, ← insertRow_chainOf event (by omega), ← hrecord, h.rows]
  · rw [hevents, hchain, recordLines_append, h.file, hline]
    simp [recordLines, pendingIn, pending]
  · exact fun hnone => absurd hinside (h.free hnone i)
  · exact fun j k hj hk => (hold j hj).trans (hold k hk).symm
  · exact fun hnone => absurd hmine (hnone i)
  · intro j hj
    obtain rfl := hold j hj
    rw [Log.of_cons_self]
    rfl
  · intro j hj hnone
    obtain rfl := hold j hj
    exact absurd hnone hcommitted
  · intro j hj hnone
    obtain rfl := hold j hj
    exact absurd hnone hcommitted
  · exact .inl rfl
  · rw [hevents, List.length_append, List.length_singleton]
    omega
  · rw [hevents]
    intro other hother
    rcases List.mem_append.mp hother with hother | hother
    · exact h.fits other hother
    · rw [List.mem_singleton.mp hother]
      exact hfits

/-- One operation of a call. -/
theorem step {R : LedgerReader} (h : Serialized P initial files log) {entry : LedgerEntry}
    (hguarantee : LedgerGuarantee P R entry (log.of i) e.op) (hcommit : files.Commits e files') :
    Serialized P initial files' ((i, e) :: log) := by
  obtain ⟨hlock, now, hanswer⟩ := hcommit
  obtain ⟨op, reply⟩ := e
  cases op with
  | acquire =>
      cases entry with
      | openFiles => exact hguarantee.elim
      | verifyIntegrity => exact hguarantee.elim
      | append handle event =>
          cases reply with
          | ok _ =>
              have hfree : files.lock = none := hlock rfl
              simp only [AuditFiles.answer, acquireLock, hfree] at hanswer
              obtain ⟨-, rfl⟩ := Prod.mk.inj hanswer
              exact h.acquire hfree hguarantee _
          | error error =>
              obtain ⟨lock', hacquire⟩ : ∃ lock',
                acquireLock now files.lock = (.error error, lock') :=
                ⟨_, Prod.ext (Prod.mk.inj hanswer).1 rfl⟩
              have hfiles : files' = { files with lock := (acquireLock now files.lock).2 } :=
                (Prod.mk.inj hanswer).2.symm
              -- a lock that is not acquired stays as it was
              have hsame : files' = files := by
                rw [hfiles, hacquire, acquireLock_error hacquire]
              rw [hsame]
              apply h.neutral
              constructor <;> simp [Inside, pending, committed, commits]
  | release =>
      cases entry with
      | openFiles => exact hguarantee.elim
      | verifyIntegrity => exact hguarantee.elim
      | append handle event =>
          obtain ⟨-, rfl⟩ := Prod.mk.inj hanswer
          exact h.release hguarantee.1 hguarantee.2
  | write bytes =>
      cases entry with
      | openFiles => exact hguarantee.elim
      | verifyIntegrity => exact hguarantee.elim
      | append handle event =>
          obtain ⟨rfl, rfl⟩ := Prod.mk.inj hanswer
          exact h.write event.property hguarantee
  | commit record =>
      cases entry with
      | openFiles => exact hguarantee.elim
      | verifyIntegrity => exact hguarantee.elim
      | append handle event =>
          obtain ⟨rfl, rfl⟩ := Prod.mk.inj hanswer
          obtain ⟨earlier, hprepared, hshape⟩ := hguarantee
          exact h.commit event.property hprepared hshape
  | insert record =>
      obtain ⟨rfl, rfl⟩ := Prod.mk.inj hanswer
      apply h.neutral
      constructor
      case room =>
          intro record' heq
          split at heq
          case isTrue haccepts =>
              rw [AuditFiles.accepts, Bool.and_eq_true, decide_eq_true_eq] at haccepts
              exact haccepts.2
          case isFalse => simp at heq
      all_goals simp [Inside, pending, committed, commits]
  | selectLast =>
      obtain ⟨rfl, rfl⟩ := Prod.mk.inj hanswer
      apply h.neutral
      constructor <;> simp [Inside, pending, committed, commits]
  | selectEvents | selectRows | readJsonl | sync | insertConsumption _ _ =>
      obtain ⟨rfl, rfl⟩ := Prod.mk.inj hanswer
      apply h.neutral
      constructor <;> simp [Inside, pending, committed, commits]

end Serialized

/-- The files of a ledger to which these events were appended, while nobody
has the lock. -/
structure IsLedger (files : AuditFiles) : Prop where
  rows : files.rows = (chainOf P initial).map AuditRecord.toRow
  file : files.jsonl.getD [] = recordLines (chainOf P initial)
  lock : files.lock = none
  size : initial.length ≤ maxRows
  fits : ∀ event ∈ initial, event.Fits

variable {P initial}

theorem IsLedger.serialized {files : AuditFiles} (h : IsLedger P initial files) :
    Serialized P initial files [] where
  chain := by simp [ledgerEvents, commits]
  rows := by simpa [ledgerEvents, commits] using h.rows
  file := by simpa [ledgerEvents, commits, pendingIn, pending] using h.file
  free := by simp [Inside]
  alone := by simp [Inside]
  quiet := by simp [pendingIn, pending]
  busy := by simp [Inside]
  read := by simp [Inside]
  room := by simp [Inside]
  ahead := .inl rfl
  size := by simpa [ledgerEvents, commits] using h.size
  fits := by simpa [ledgerEvents, commits] using h.fits

/-- What every operation answers is steady. -/
theorem AuditFiles.Commits.steady {files files' : AuditFiles} {e : Event AuditIo}
    (h : files.Commits e files') (history : History AuditIo) : Steady history e := by
  obtain ⟨-, now, hanswer⟩ := h
  obtain ⟨op, reply⟩ := e
  cases op <;>
    first
    | trivial
    | exact (Prod.mk.inj hanswer).1.symm
    | exact ⟨_, (Prod.mk.inj hanswer).1.symm⟩

/-- The answer was given by files that are as the log says. -/
def ReadsLedger (P : Primitives) (initial : List AuditEvent) (log : Log AuditIo)
    (e : Event AuditIo) : Prop :=
  ∃ files files' nowUnixMs, Serialized P initial files log ∧
    AuditFiles.answer nowUnixMs files e.op = (e.reply, files')

/-- Every answer in a log was given so. -/
def ReadsRecorded (P : Primitives) (initial : List AuditEvent) : Log AuditIo → Prop
  | [] => True
  | (_, e) :: log => ReadsLedger P initial log e ∧ ReadsRecorded P initial log

theorem ReadsRecorded.of_split {later earlier : Log AuditIo} {i : ℕ} {e : Event AuditIo}
    (h : ReadsRecorded P initial (later ++ (i, e) :: earlier)) :
    ReadsLedger P initial earlier e := by
  induction later with
  | nil => exact h.1
  | cons entry later ih => exact ih h.2

/-- What the files and the answers of a run know of its log. -/
theorem serialized_of_reachable {R : LedgerReader} {w : World (ledgerSystem P R)}
    (hw : Reachable (IsLedger P initial) anyEntry w) :
    Serialized P initial w.shared w.log ∧ ReadsRecorded P initial w.log := by
  refine hw.invariant_of_guarantee
    (J := fun files log => Serialized P initial files log ∧ ReadsRecorded P initial log)
    (guarantees_body P R) (fun history _ _ _ h => h.steady history)
    (fun files h => ⟨h.serialized, trivial⟩) ?_
  intro entry files log i e files' h hguarantee hcommit
  obtain ⟨-, now, hanswer⟩ := id hcommit
  exact ⟨h.1.step hguarantee hcommit, ⟨files, files', now, h.1, hanswer⟩, h.2⟩

end Invariant

end VorCommander
