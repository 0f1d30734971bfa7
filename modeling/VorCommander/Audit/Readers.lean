import VorCommander.Audit.MultiHandle

/-!
What readers see of a ledger that others append to.

`Ledger::open` and `Ledger::verify_integrity` query the table, then read the
file, and compare the two. They do so without the lock, so that an append can
come in between: the file may have a record that was not in the table yet. The
comparison then finds a difference although nobody has tampered with anything.
-/

namespace VorCommander

open Crypto Steps Steps.Program Steps.World Text

/-- The errors that say that the stores were tampered with. -/
def AuditError.Alarm : AuditError → Prop
  | .divergence => True
  | .hashMismatch _ => True
  | _ => False

/-- The call of a reader has ended with such an error. -/
def LedgerResult.Alarm : LedgerResult → Prop
  | .opened (.error e) => e.Alarm
  | .verified (.error e) => e.Alarm
  | _ => False

/-- The operations that query the records of the table. -/
def AuditOp.Queries : AuditOp → Prop
  | .selectLast => True
  | .selectRows => True
  | _ => False

/-- Between the query of call `i` and its read of the file nobody has
committed, and at the read nobody has written what is not committed. -/
def ReadsTogether (log : Log AuditIo) (i : ℕ) : Prop :=
  ∀ later between before e query, log = later ++ (i, e) :: (between ++ (i, query) :: before) →
    e.op = .readJsonl → query.op.Queries →
      commits (between ++ (i, query) :: before) = commits before ∧
        pendingIn (between ++ (i, query) :: before) = []

/-! ### Errors -/

theorem not_alarm_of_sequenceOfI64 {n : Int64} {e : AuditError} (h : sequenceOfI64 n = .error e) :
    ¬ e.Alarm := by
  rw [sequenceOfI64] at h
  split at h
  · cases h
  · obtain rfl := Except.error.inj h
    exact not_false

theorem not_alarm_of_decodeHash {value : String} {e : AuditError}
    (h : decodeHash value = .error e) :
    ¬ e.Alarm := by
  rw [decodeHash] at h
  cases hbytes : hexDecode value with
  | none =>
      rw [hbytes] at h
      obtain rfl := Except.error.inj h
      exact not_false
  | some bytes =>
      rw [hbytes, orFail_some, ok_bind] at h
      split at h
      · cases h
      · obtain rfl := Except.error.inj h
        exact not_false

theorem not_alarm_of_headOfRow {last : Option (Int64 × String)} {e : AuditError}
    (h : headOfRow last = .error e) : ¬ e.Alarm := by
  cases last with
  | none => cases h
  | some row =>
      obtain ⟨sequence, hash⟩ := row
      simp only [headOfRow] at h
      cases hsequence : sequenceOfI64 sequence with
      | error e' =>
          rw [hsequence] at h
          obtain rfl := Except.error.inj h
          exact not_alarm_of_sequenceOfI64 hsequence
      | ok n =>
          rw [hsequence, ok_bind] at h
          cases hhash : decodeHash hash with
          | error e' =>
              rw [hhash] at h
              obtain rfl := Except.error.inj h
              exact not_alarm_of_decodeHash hhash
          | ok digest =>
              rw [hhash] at h
              cases h

theorem not_alarm_of_sqlInteger {n : ℕ} {e : AuditError} (h : sqlInteger n = .error e) :
    ¬ e.Alarm := by
  rw [sqlInteger] at h
  split at h
  · cases h
  · obtain rfl := Except.error.inj h
    exact not_false

/-! ### The programs of readers -/

/-- Nothing is asked of the operations. -/
abbrev AnyOp (_ : History AuditIo) (_ : AuditOp) : Prop := True

section Readers

variable (P : Primitives) (R : LedgerReader)

/-- How `verify_integrity` ends. -/
def VerifyOutcome (h : History AuditIo) (r : Except AuditError Unit) : Prop :=
  ∃ rows,
    (h = [⟨.selectRows, Except.ok rows⟩] ∧
      ∃ e, checkRows P R zeroHash rows = .error e ∧ r = .error e) ∨
    ∃ content, h = [⟨.readJsonl, Except.ok content⟩, ⟨.selectRows, Except.ok rows⟩] ∧
      r = verifyStores P R rows content

/-- How `open` ends: before it reads the file, or with the comparison. -/
def OpenOutcome (h : History AuditIo) (r : Except AuditError LedgerHandle) : Prop :=
  ((∀ e ∈ h, e.op ≠ .readJsonl) ∧ ∃ e, r = .error e ∧ ¬ e.Alarm) ∨
  ∃ last content earlier dbHead,
    h = ⟨.readJsonl, Except.ok content⟩ :: ⟨.selectLast, Except.ok last⟩ :: earlier ∧
    (∀ e ∈ earlier, e.op ≠ .readJsonl ∧ ¬ e.op.Queries) ∧ headOfRow last = .ok dbHead ∧
    ((∃ e, loadJsonlLast R content = .error e ∧ r = .error e) ∨
      ∃ fileHead, loadJsonlLast R content = .ok fileHead ∧
        (dbHead ≠ fileHead ∧ r = .error .divergence ∨
          dbHead = fileHead ∧ ∃ handle, r = .ok handle))

theorem verify_outcome :
    Safe Steady AnyOp (VerifyOutcome P R) (LedgerHandle.verifyIntegrity P R).run [] := by
  simp only [LedgerHandle.verifyIntegrity, safe_exceptT_bind, safe_auditSelectRows]
  refine ⟨trivial, fun reply hreply => ?_⟩
  obtain ⟨rows, rfl⟩ : ∃ rows, reply = .ok rows := hreply
  simp only [then_ok, safe_exceptT_bind, safe_check]
  cases hrows : checkRows P R zeroHash rows with
  | error e => exact ⟨rows, .inl ⟨rfl, e, hrows, rfl⟩⟩
  | ok dbRecords =>
      simp only [then_ok, safe_exceptT_bind, safe_auditReadJsonl]
      refine ⟨trivial, fun reply hreply => ?_⟩
      obtain ⟨content, rfl⟩ : ∃ content, reply = .ok content := hreply
      have hresult : verifyStores P R rows content = (do
          let fileRecords ← loadJsonlRecords R content
          failIf (dbRecords ≠ fileRecords) .divergence) := by
        rw [verifyStores, hrows, ok_bind]
      simp only [then_ok, safe_exceptT_bind, safe_check]
      cases hfile : loadJsonlRecords R content with
      | error e => exact ⟨rows, .inr ⟨content, rfl, by rw [hresult, hfile]; rfl⟩⟩
      | ok fileRecords =>
          simp only [then_ok, safe_check]
          exact ⟨rows, .inr ⟨content, rfl, by rw [hresult, hfile, ok_bind]⟩⟩

/-- The migration only inserts consumptions. -/
theorem migrate_outcome (texts : List String) {h : History AuditIo}
    (hquiet : ∀ e ∈ h, e.op ≠ .readJsonl ∧ ¬ e.op.Queries) :
    Safe Steady AnyOp (fun h' r => (∀ e ∈ h', e.op ≠ .readJsonl ∧ ¬ e.op.Queries) ∧
      ∀ e, r = .error e → ¬ e.Alarm) (LedgerHandle.migrateApprovalConsumptions R texts).run h := by
  induction texts generalizing h with
  | nil => exact (safe_exceptT_pure _).mpr ⟨hquiet, by simp⟩
  | cons text rest ih =>
      simp only [LedgerHandle.migrateApprovalConsumptions, safe_exceptT_bind, safe_check]
      cases R.event text with
      | none =>
          refine ⟨hquiet, fun e he => ?_⟩
          obtain rfl := Except.error.inj he
          exact not_false
      | some event =>
          simp only [orFail_some, then_ok]
          split
          case isFalse => exact ih hquiet
          case isTrue =>
            simp only [safe_exceptT_bind, safe_check]
            cases hat : sqlInteger event.timestampUnixMs with
            | error e =>
                refine ⟨hquiet, fun e' he => ?_⟩
                obtain rfl := Except.error.inj he
                exact not_alarm_of_sqlInteger hat
            | ok consumedAt =>
                simp only [then_ok, safe_exceptT_bind, safe_auditInsertConsumption]
                refine ⟨trivial, fun reply hreply => ?_⟩
                obtain rfl : reply = .ok () := hreply
                apply ih
                rw [List.forall_mem_cons]
                exact ⟨⟨by simp, not_false⟩, hquiet⟩

theorem open_outcome : Safe Steady AnyOp (OpenOutcome R) (LedgerHandle.openFiles R).run [] := by
  simp only [LedgerHandle.openFiles, safe_exceptT_bind, safe_auditSelectEvents]
  refine ⟨trivial, fun reply hreply => ?_⟩
  obtain ⟨texts, rfl⟩ : ∃ texts, reply = .ok texts := hreply
  have hbegin : ∀ e ∈ [(⟨.selectEvents, Except.ok texts⟩ : Event AuditIo)],
      e.op ≠ .readJsonl ∧ ¬ e.op.Queries := by
    intro e he
    rw [List.mem_singleton.mp he]
    exact ⟨by simp, not_false⟩
  simp only [then_ok, safe_exceptT_bind]
  refine (migrate_outcome R texts hbegin).mono ?_
  rintro h (e | _) ⟨hquiet, herror⟩
  · exact .inl ⟨fun e he => (hquiet e he).1, e, rfl, herror e rfl⟩
  simp only [then_ok, LedgerHandle.loadHead, LedgerHandle.loadDbLast,
    LedgerHandle.loadFileLast, safe_exceptT_bind, safe_auditSelectLast]
  refine ⟨trivial, fun reply hreply => ?_⟩
  obtain ⟨last, rfl⟩ : ∃ last, reply = .ok last := hreply
  simp only [then_ok, safe_check]
  cases hdb : headOfRow last with
  | error e =>
      refine .inl ⟨?_, e, rfl, not_alarm_of_headOfRow hdb⟩
      rw [List.forall_mem_cons]
      exact ⟨by simp, fun e he => (hquiet e he).1⟩
  | ok dbHead =>
      simp only [then_ok, safe_exceptT_bind, safe_auditReadJsonl]
      refine ⟨trivial, fun reply hreply => ?_⟩
      obtain ⟨content, rfl⟩ : ∃ content, reply = .ok content := hreply
      simp only [then_ok, safe_check]
      cases hfile : loadJsonlLast R content with
      | error e =>
          exact .inr ⟨last, content, h, dbHead, rfl, hquiet, hdb, .inl ⟨e, hfile, rfl⟩⟩
      | ok fileHead =>
          simp only [then_ok, safe_exceptT_bind, safe_check, then_failIf]
          constructor
          · exact fun hne =>
              .inr ⟨last, content, h, dbHead, rfl, hquiet, hdb,
                .inr ⟨fileHead, hfile, .inl ⟨hne, rfl⟩⟩⟩
          · intro hsame
            have hhead : dbHead = fileHead := not_not.mp hsame
            apply (safe_exceptT_pure _).mpr
            rw [then_ok]
            apply (safe_exceptT_pure _).mpr
            exact .inr ⟨last, content, h, dbHead, rfl, hquiet, hdb,
              .inr ⟨fileHead, hfile, .inr ⟨hhead, _, rfl⟩⟩⟩

end Readers

/-! ### What the stores hold -/

section Stores

variable {P : Primitives} {R : LedgerReader} {initial : List AuditEvent} {files : AuditFiles}
  {log before : Log AuditIo}

theorem commits_append (later earlier : Log AuditIo) :
    commits (later ++ earlier) = commits earlier ++ commits later := by
  induction later using commits.induct with
  | case1 => simp [commits]
  | case2 i record reply later ih => simp [commits, ih]
  | case3 entry later hother ih =>
      rw [List.cons_append, commits, commits]
      · exact ih
      · exact hother
      · exact hother

theorem ledgerEvents_append (initial : List AuditEvent) (later earlier : Log AuditIo) :
    ledgerEvents initial (later ++ earlier) =
      ledgerEvents initial earlier ++ (commits later).map fun entry => entry.2.event := by
  rw [ledgerEvents, commits_append, List.map_append, ← List.append_assoc, ledgerEvents]

/-- The records in the file: those of the table, and one more if somebody has
written what is not committed. -/
theorem file_records (hR : R.Correct) (h : Serialized P initial files log) :
    ∃ extra : List AuditEvent, (extra = [] ↔ pendingIn log = []) ∧
      loadJsonlRecords R files.jsonl = .ok (chainOf P (ledgerEvents initial log ++ extra)) ∧
      loadJsonlLast R files.jsonl =
        .ok (chainHead (chainOf P (ledgerEvents initial log ++ extra))) := by
  have hmax : maxRows + 1 < 2 ^ 63 := by decide
  have hsize := h.size
  -- it is enough to know the lines
  suffices hlines : ∃ extra : List AuditEvent, (extra = [] ↔ pendingIn log = []) ∧
      extra.length ≤ 1 ∧ (∀ event ∈ extra, event.Fits) ∧
      fileLines files.jsonl = (chainOf P (ledgerEvents initial log ++ extra)).map
        fun record => some (jsonText record.toJson) by
    obtain ⟨extra, hextra, hone, hfits, hlines⟩ := hlines
    have hall : ∀ record ∈ chainOf P (ledgerEvents initial log ++ extra), record.Fits := by
      apply fits_chainOf
      · intro event hevent
        exact (List.mem_append.mp hevent).elim (h.fits event) (hfits event)
      · rw [List.length_append]
        omega
    exact ⟨extra, hextra, loadJsonlRecords_of_fileLines hR hall hlines,
      loadJsonlLast_of_fileLines hR hall hlines⟩
  have hfile := h.file
  rcases h.ahead with hnone | ⟨event, hfits, hahead⟩
  · refine ⟨[], by simp [hnone], by simp, by simp, ?_⟩
    rw [hnone, List.append_nil] at hfile
    rw [List.append_nil]
    exact fileLines_ended hfile
  · have htext : ∀ record : AuditRecord, utf8 (jsonText record.toJson) ≠ [] :=
      fun record => Value.toBytes_object_ne_nil _
    refine ⟨[event], ?_, by simp, by simpa using hfits, ?_⟩
    · rcases hahead with hahead | hahead <;> rw [hahead]
      · simp [htext]
      · simp [AuditRecord.toLine]
    · rw [chainOf_append_singleton]
      rcases hahead with hahead | hahead
      · rw [hahead] at hfile
        exact fileLines_unended hfile
      · apply fileLines_ended
        rw [hfile, hahead, recordLines_append]
        simp [recordLines]

/-- Chains of different events differ. -/
theorem chainOf_injective : Function.Injective (chainOf P) := by
  intro events events' h
  have hevents : (chainOf P events).map AuditRecord.event = events := events_chainFrom
  have hevents' : (chainOf P events').map AuditRecord.event = events' := events_chainFrom
  rw [← hevents, ← hevents', h]

/-- The head of a chain says how long it is. -/
theorem chainHead_chainOf (events : List AuditEvent) :
    (chainHead (chainOf P events)).elim 0 (·.1) = events.length := by
  have hnext : (nextRecord P (chainHead (chainOf P events)) readEvent).sequence =
      events.length + 1 := sequence_nextRecord_chainOf readEvent
  cases hhead : chainHead (chainOf P events) with
  | none =>
      rw [hhead] at hnext
      have hone : (1 : ℕ) = events.length + 1 := hnext
      change 0 = events.length
      omega
  | some head =>
      rw [hhead] at hnext
      have hone : head.1 + 1 = events.length + 1 := hnext
      change head.1 = events.length
      omega

/-- A chain that goes on has another head. -/
theorem chainHead_append_eq_iff {events more : List AuditEvent} :
    chainHead (chainOf P events) = chainHead (chainOf P (events ++ more)) ↔ more = [] := by
  constructor
  · intro h
    have hlength := chainHead_chainOf (P := P) (events ++ more)
    rw [← h, chainHead_chainOf, List.length_append] at hlength
    exact List.length_eq_zero_iff.mp (by omega)
  · rintro rfl
    rw [List.append_nil]

/-- What was added to the ledger between two reads, or is about to be. -/
theorem added_eq_nil_iff {between : Log AuditIo} {i : ℕ} {query : Event AuditIo}
    {extra : List AuditEvent}
    (hextra : extra = [] ↔ pendingIn (between ++ (i, query) :: before) = []) :
    ((commits (between ++ [(i, query)])).map fun entry => entry.2.event) ++ extra = [] ↔
      commits (between ++ (i, query) :: before) = commits before ∧
        pendingIn (between ++ (i, query) :: before) = [] := by
  have hsplit : between ++ (i, query) :: before = (between ++ [(i, query)]) ++ before := by simp
  have hcommits : commits (between ++ (i, query) :: before) =
      commits before ++ commits (between ++ [(i, query)]) := by
    rw [hsplit, commits_append]
  rw [List.append_eq_nil_iff, List.map_eq_nil_iff, hextra, hcommits,
    List.append_right_eq_self]

/-- What was read of the two stores: the records of the table, then those and
the ones that were added. -/
theorem read_records (hR : R.Correct) {between : Log AuditIo} {i : ℕ}
    {content : Option (List UInt8)} {query : Event AuditIo}
    (hread : ReadsLedger P initial (between ++ (i, query) :: before)
      ⟨.readJsonl, Except.ok content⟩) :
    ∃ added : List AuditEvent,
      (added = [] ↔ commits (between ++ (i, query) :: before) = commits before ∧
        pendingIn (between ++ (i, query) :: before) = []) ∧
      loadJsonlRecords R content = .ok (chainOf P (ledgerEvents initial before ++ added)) ∧
      loadJsonlLast R content =
        .ok (chainHead (chainOf P (ledgerEvents initial before ++ added))) := by
  obtain ⟨files, files', now, hserialized, hanswer⟩ := hread
  obtain rfl : files.jsonl = content := Except.ok.inj (Prod.mk.inj hanswer).1
  obtain ⟨extra, hextra, hrecords, hlast⟩ := file_records hR hserialized
  have hsplit : between ++ (i, query) :: before = (between ++ [(i, query)]) ++ before := by simp
  refine ⟨_, added_eq_nil_iff hextra, ?_, ?_⟩
  · rw [← List.append_assoc, ← ledgerEvents_append, ← hsplit]
    exact hrecords
  · rw [← List.append_assoc, ← ledgerEvents_append, ← hsplit]
    exact hlast

/-- The rows of a query are a chain, which passes the checks. -/
theorem query_rows (hR : R.Correct) {rows : List Row}
    (hquery : ReadsLedger P initial before ⟨.selectRows, Except.ok rows⟩) :
    checkRows P R zeroHash rows = .ok (chainOf P (ledgerEvents initial before)) := by
  obtain ⟨files, files', now, hserialized, hanswer⟩ := hquery
  obtain rfl : files.rows = rows := Except.ok.inj (Prod.mk.inj hanswer).1
  have hmax : maxRows < 2 ^ 63 := by decide
  have hsize := hserialized.size
  rw [hserialized.rows]
  exact @checkRows_chainFrom P R (0, zeroHash) _ hR hserialized.fits (by omega)

theorem query_last {last : Option (Int64 × String)}
    (hquery : ReadsLedger P initial before ⟨.selectLast, Except.ok last⟩) :
    headOfRow last = .ok (chainHead (chainOf P (ledgerEvents initial before))) := by
  obtain ⟨files, files', now, hserialized, hanswer⟩ := hquery
  obtain rfl : AuditFiles.lastRow files.rows = last := Except.ok.inj (Prod.mk.inj hanswer).1
  have hmax : maxRows < 2 ^ 63 := by decide
  have hsize := hserialized.size
  rw [hserialized.rows, headOfRow_lastRow (by omega)]

end Stores

/-! ### When a reader raises an alarm -/

section Alarm

variable {P : Primitives} {R : LedgerReader} {initial : List AuditEvent}

/-- How the call of a reader ends; nothing is said of an append. -/
def ReaderOutcome (P : Primitives) (R : LedgerReader) (entry : LedgerEntry) (h : History AuditIo)
    (r : LedgerResult) : Prop :=
  match entry with
  | .openFiles => ∃ result, r = .opened result ∧ OpenOutcome R h result
  | .verifyIntegrity => ∃ result, r = .verified result ∧ VerifyOutcome P R h result
  | .append _ _ => True

theorem reader_outcome (entry : LedgerEntry) :
    Safe Steady AnyOp (ReaderOutcome P R entry) (entry.body P R) [] := by
  cases entry with
  | openFiles =>
      rw [LedgerEntry.body, safe_map]
      exact (open_outcome R).mono fun _ r houtcome => ⟨r, rfl, houtcome⟩
  | verifyIntegrity =>
      rw [LedgerEntry.body, safe_map]
      exact (verify_outcome P R).mono fun _ r houtcome => ⟨r, rfl, houtcome⟩
  | append handle event =>
      refine ((guarantees_body P R (.append handle event)).mono ?_).guarantee fun _ _ _ => trivial
      exact fun _ _ _ => trivial

/-- A reader makes one query and reads the file once. -/
theorem split_unique {later between before rest : History AuditIo}
    {e query read queried : Event AuditIo}
    (h : later ++ e :: (between ++ query :: before) = read :: queried :: rest)
    (hrest : ∀ x ∈ rest, x.op ≠ .readJsonl ∧ ¬ x.op.Queries)
    (hqueried : queried.op.Queries) (he : e.op = .readJsonl) (hquery : query.op.Queries) :
    e = read ∧ query = queried := by
  cases later with
  | nil =>
      obtain ⟨hread, hafter⟩ := List.cons.inj h
      cases between with
      | nil => exact ⟨hread, (List.cons.inj hafter).1⟩
      | cons x between =>
          have hmem : query ∈ rest := by
            rw [← (List.cons.inj hafter).2]
            simp
          exact absurd hquery (hrest query hmem).2
  | cons x later =>
      have hafter := (List.cons.inj h).2
      cases later with
      | nil =>
          rw [← (List.cons.inj hafter).1, he] at hqueried
          exact hqueried.elim
      | cons y later =>
          have hmem : e ∈ rest := by
            rw [← (List.cons.inj hafter).2]
            simp
          exact absurd he (hrest e hmem).1

/-- A comparison that `verify_integrity` makes. -/
theorem verify_compares (hR : R.Correct) {between before : Log AuditIo} {i : ℕ}
    {content : Option (List UInt8)} {rows : List Row}
    (hread : ReadsLedger P initial (between ++ (i, ⟨.selectRows, Except.ok rows⟩) :: before)
      ⟨.readJsonl, Except.ok content⟩)
    (hquery : ReadsLedger P initial before ⟨.selectRows, Except.ok rows⟩) :
    ¬ (LedgerResult.verified (verifyStores P R rows content)).Alarm ↔
      commits (between ++ (i, ⟨.selectRows, Except.ok rows⟩) :: before) = commits before ∧
        pendingIn (between ++ (i, ⟨.selectRows, Except.ok rows⟩) :: before) = [] := by
  obtain ⟨added, hadded, hrecords, -⟩ := read_records hR hread
  rw [← hadded, verifyStores, query_rows hR hquery, ok_bind, hrecords, ok_bind]
  by_cases hnone : added = []
  · have hsame : ¬ chainOf P (ledgerEvents initial before) ≠
        chainOf P (ledgerEvents initial before ++ added) := by
      rw [hnone, List.append_nil]
      exact fun hne => hne rfl
    rw [failIf_of_false hsame]
    exact iff_of_true not_false hnone
  · have hdiffers : chainOf P (ledgerEvents initial before) ≠
        chainOf P (ledgerEvents initial before ++ added) := by
      intro hsame
      exact hnone (List.self_eq_append_right.mp (chainOf_injective hsame))
    rw [failIf_of_true hdiffers]
    exact iff_of_false (fun hquiet => hquiet trivial) hnone

/-- A comparison that `open` makes. -/
theorem open_compares (hR : R.Correct) {between before : Log AuditIo} {i : ℕ}
    {content : Option (List UInt8)} {last : Option (Int64 × String)}
    {dbHead : Option (ℕ × Digest32)} {result : Except AuditError LedgerHandle}
    (hread : ReadsLedger P initial (between ++ (i, ⟨.selectLast, Except.ok last⟩) :: before)
      ⟨.readJsonl, Except.ok content⟩)
    (hquery : ReadsLedger P initial before ⟨.selectLast, Except.ok last⟩)
    (hdb : headOfRow last = .ok dbHead)
    (hresult : (∃ e, loadJsonlLast R content = .error e ∧ result = .error e) ∨
      ∃ fileHead, loadJsonlLast R content = .ok fileHead ∧
        (dbHead ≠ fileHead ∧ result = .error .divergence ∨
          dbHead = fileHead ∧ ∃ handle, result = .ok handle)) :
    ¬ (LedgerResult.opened result).Alarm ↔
      commits (between ++ (i, ⟨.selectLast, Except.ok last⟩) :: before) = commits before ∧
        pendingIn (between ++ (i, ⟨.selectLast, Except.ok last⟩) :: before) = [] := by
  obtain ⟨added, hadded, -, hlast⟩ := read_records hR hread
  rw [query_last hquery] at hdb
  obtain rfl := Except.ok.inj hdb
  rw [← hadded]
  rcases hresult with ⟨e, hfail, -⟩ | ⟨fileHead, hfile, hcompare⟩
  · rw [hlast] at hfail
    cases hfail
  rw [hlast] at hfile
  obtain rfl := Except.ok.inj hfile
  rcases hcompare with ⟨hne, rfl⟩ | ⟨hsame, handle, rfl⟩
  · exact iff_of_false (fun hquiet => hquiet trivial)
      fun hnone => hne (chainHead_append_eq_iff.mpr hnone)
  · exact iff_of_true not_false (chainHead_append_eq_iff.mp hsame)

/-- What is decided by the two reads of a call is decided by where they are in
the log. -/
theorem readsTogether_iff {log : Log AuditIo} (hrecorded : ReadsRecorded P initial log) {i : ℕ}
    {read queried : Event AuditIo} {rest : History AuditIo} {p : Prop}
    (hlog : log.of i = read :: queried :: rest)
    (hrest : ∀ x ∈ rest, x.op ≠ .readJsonl ∧ ¬ x.op.Queries) (hread : read.op = .readJsonl)
    (hqueried : queried.op.Queries)
    (hcompare : ∀ between before, ReadsLedger P initial (between ++ (i, queried) :: before) read →
      ReadsLedger P initial before queried →
        (p ↔ commits (between ++ (i, queried) :: before) = commits before ∧
          pendingIn (between ++ (i, queried) :: before) = [])) :
    p ↔ ReadsTogether log i := by
  have hsplit : ∀ later between before,
      log = later ++ (i, read) :: (between ++ (i, queried) :: before) →
        (p ↔ commits (between ++ (i, queried) :: before) = commits before ∧
          pendingIn (between ++ (i, queried) :: before) = []) := by
    intro later between before hwhole
    rw [hwhole] at hrecorded
    have hearlier : ReadsRecorded P initial
        ((later ++ (i, read) :: between) ++ (i, queried) :: before) := by
      simpa using hrecorded
    exact hcompare between before hrecorded.of_split hearlier.of_split
  constructor
  · intro hp later between before e query hwhole he hquery
    have hmine : Log.of later i ++ e :: (Log.of between i ++ query :: Log.of before i) =
        read :: queried :: rest := by
      rw [← hlog, hwhole, Log.of_append, Log.of_cons_self, Log.of_append, Log.of_cons_self]
    obtain ⟨rfl, rfl⟩ := split_unique hmine hrest hqueried he hquery
    exact (hsplit later between before hwhole).mp hp
  · intro htogether
    obtain ⟨later, earlier, hwhole, hearlier⟩ := Log.split_of_cons hlog
    obtain ⟨between, before, rfl, -⟩ := Log.split_of_cons hearlier
    exact (hsplit later between before hwhole).mpr
      (htogether later between before read queried hwhole hread hqueried)

/-- A reader raises no alarm exactly if no append has written to the file,
when the reader reads it, what was not in the table when the reader queried
that. -/
theorem no_alarm_iff {w : World (ledgerSystem P R)} (hR : R.Correct)
    (hw : Reachable (IsLedger P initial) anyEntry w) {i : ℕ} {c : Call (ledgerSystem P R)}
    {r : LedgerResult} (hc : w.calls i = some c)
    (hreader : c.entry = .openFiles ∨ c.entry = .verifyIntegrity)
    (hr : c.rest = some (.done r)) : ¬ r.Alarm ↔ ReadsTogether w.log i := by
  have hallowed : Allowed (fun _ => Steady) w.log :=
    hw.allowed fun history _ _ _ h => AuditFiles.Commits.steady h history
  have hrecorded := (serialized_of_reachable hw).2
  have houtcome : ReaderOutcome P R c.entry (w.log.of i) r :=
    hw.result (G := fun _ => AnyOp) reader_outcome hallowed hc hr
  rcases hreader with hentry | hentry
  · rw [hentry] at houtcome
    obtain ⟨result, rfl, hend | ⟨last, content, earlier, dbHead, hlog, hquiet, hdb, hresult⟩⟩ :=
      houtcome
    · -- the call ended before it read the file
      obtain ⟨hnoread, e, rfl, hquiet⟩ := hend
      refine iff_of_true hquiet ?_
      intro later between before e query hwhole he _
      exact absurd he (hnoread e (Log.mem_of.mpr (by rw [hwhole]; simp)))
    · exact readsTogether_iff hrecorded hlog hquiet rfl trivial fun between before hread hquery =>
        open_compares hR hread hquery hdb hresult
  · rw [hentry] at houtcome
    obtain ⟨result, rfl, rows, ⟨hlog, e, hfail, -⟩ | ⟨content, hlog, rfl⟩⟩ := houtcome
    · obtain ⟨later, before, hwhole, -⟩ := Log.split_of_cons hlog
      rw [hwhole] at hrecorded
      rw [query_rows hR hrecorded.of_split] at hfail
      cases hfail
    · exact readsTogether_iff hrecorded hlog (by simp) rfl trivial
        fun between before hread hquery => verify_compares hR hread hquery

end Alarm

/-! ### An append and a reader -/

namespace LedgerSample

/-- The append has written its line and not committed yet. -/
noncomputable def writing : World (ledgerSystem reference .searching) :=
  ((initial (S := ledgerSystem reference .searching) empty).start 0
    (.append handle event)).ticks
    (answersAt 0) [0, 0, 0, 0, 0]

theorem writing_reachable : Reachable (IsLedger reference []) anyEntry writing := by
  have hempty : Reachable (IsLedger reference []) anyEntry
      (initial (S := ledgerSystem reference .searching) empty) := reachable_initial empty_isLedger
  exact (hempty.start rfl trivial).ticks answers_sound _

/-- A line has been written, and no commit came after it. -/
theorem writing_log : ∃ earlier, writing.log =
    (0, ⟨.write (utf8 (jsonText (nextRecord reference none readEvent).toJson)), Except.ok ()⟩) ::
      earlier :=
  ⟨_, rfl⟩

theorem writing_pending : pendingIn writing.log ≠ [] := by
  obtain ⟨earlier, hlog⟩ := writing_log
  rw [hlog, pendingIn, List.map_cons, pending]
  exact List.append_ne_nil_of_right_ne_nil _ (Value.toBytes_object_ne_nil _)

theorem writing_calls : writing.calls 1 = none := rfl

variable {w : World (ledgerSystem reference .searching)}

/-- A reader that makes all its steps now. -/
noncomputable def verifying (w : World (ledgerSystem reference .searching)) :
    World (ledgerSystem reference .searching) :=
  w.after (answersAt 0) 1 .verifyIntegrity

theorem exec_verifying (files : AuditFiles) :
    (exec (answersAt 0) (LedgerEntry.body reference .searching .verifyIntegrity) files).1 =
      .verified (verifyStores reference .searching files.rows files.jsonl) := by
  rw [LedgerEntry.body, exec_map, exec_verifyIntegrity]

theorem verifying_call (w : World (ledgerSystem reference .searching)) :
    ∃ history, (verifying w).calls 1 = some ⟨.verifyIntegrity, history, some (.done (.verified
      (verifyStores reference .searching w.shared.rows w.shared.jsonl)))⟩ := by
  obtain ⟨history, hcall⟩ := after_call (answersAt 0) w 1 .verifyIntegrity
  exact ⟨history, hcall.trans (by rw [← exec_verifying w.shared]; rfl)⟩

theorem verifying_reachable (hw : Reachable (IsLedger reference []) anyEntry w)
    (hfresh : w.calls 1 = none) : Reachable (IsLedger reference []) anyEntry (verifying w) :=
  hw.after answers_sound hfresh trivial

/-- It is disturbed exactly by an append that has written and not committed. -/
theorem verifying_quiet (hw : Reachable (IsLedger reference []) anyEntry w)
    (hfresh : w.calls 1 = none) :
    ¬ (LedgerResult.verified
        (verifyStores reference .searching w.shared.rows w.shared.jsonl)).Alarm ↔
      pendingIn w.log = [] := by
  have hstarted : Reachable (IsLedger reference []) anyEntry (w.start 1 .verifyIntegrity) :=
    hw.start hfresh trivial
  -- the reader after its query
  have hqueried := hstarted.commit (Function.update_self 1 _ _) rfl
    (answers_sound w.shared .selectRows)
  have hread : ReadsLedger reference [] ([] ++ (1, ⟨.selectRows, Except.ok w.shared.rows⟩) :: w.log)
      ⟨.readJsonl, Except.ok w.shared.jsonl⟩ :=
    ⟨w.shared, w.shared, 0, (serialized_of_reachable hqueried).1, rfl⟩
  have hquery : ReadsLedger reference [] w.log ⟨.selectRows, Except.ok w.shared.rows⟩ :=
    ⟨w.shared, w.shared, 0, (serialized_of_reachable hw).1, rfl⟩
  rw [verify_compares LedgerReader.searching_correct hread hquery]
  have hpending : pendingIn ([] ++ (1, ⟨.selectRows, Except.ok w.shared.rows⟩) :: w.log) =
      pendingIn w.log := rfl
  rw [hpending]
  exact and_iff_right rfl

end LedgerSample

/-- A reader takes an append in progress for tampering. -/
theorem reader_alarms :
    ∃ w : World (ledgerSystem reference .searching),
      Reachable (IsLedger reference []) anyEntry w ∧ ∃ i history r,
        w.calls i = some ⟨.verifyIntegrity, history, some (.done r)⟩ ∧ r.Alarm := by
  obtain ⟨history, hcall⟩ := LedgerSample.verifying_call LedgerSample.writing
  have hfresh := LedgerSample.writing_calls
  have hw := LedgerSample.writing_reachable
  refine ⟨_, LedgerSample.verifying_reachable hw hfresh, 1, history, _, hcall, ?_⟩
  by_contra hquiet
  exact LedgerSample.writing_pending ((LedgerSample.verifying_quiet hw hfresh).mp hquiet)

/-- A reader after the append. -/
theorem no_alarm_iff_appended :
    ∃ history r, (LedgerSample.verifying LedgerSample.appended).calls 1 =
        some ⟨.verifyIntegrity, history, some (.done r)⟩ ∧
      (¬ r.Alarm ↔ ReadsTogether (LedgerSample.verifying LedgerSample.appended).log 1) := by
  obtain ⟨history, hcall⟩ := LedgerSample.verifying_call LedgerSample.appended
  have hw := LedgerSample.verifying_reachable LedgerSample.appended_reachable rfl
  exact ⟨history, _, hcall,
    no_alarm_iff LedgerReader.searching_correct hw hcall (.inr rfl) rfl⟩

end VorCommander
