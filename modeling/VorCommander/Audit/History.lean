import VorCommander.Audit.Reader
import VorCommander.Crypto.HashChain

/-!
The head of the ledger stands for its history.

A record is hashed together with the hash before it and its own number. These
three parts have a fixed place in the input of the hash, so the rows that pass
the checks of `verify_integrity` are a chain of hashes whose head is the hash
of the last row.
-/

namespace VorCommander

open Crypto Steps Text

variable (P : Primitives) (R : LedgerReader)

/-- What is hashed for a record. -/
def hashInput (sequence : ℕ) (previousHash : Digest32) (payload : List UInt8) : List UInt8 :=
  previousHash.toList ++ bigEndian 8 sequence ++ payload

/-- The input is read in one way. -/
theorem hashInput_inj {n n' : ℕ} {previous previous' : Digest32} {payload payload' : List UInt8}
    (hn : n < 2 ^ 64) (hn' : n' < 2 ^ 64)
    (h : hashInput n previous payload = hashInput n' previous' payload') :
    previous = previous' ∧ n = n' ∧ payload = payload' := by
  rw [hashInput, hashInput, List.append_assoc, List.append_assoc] at h
  obtain ⟨hprevious, hrest⟩ := List.append_inj h (by simp)
  obtain ⟨hnumber, hpayload⟩ := List.append_inj hrest (by simp)
  refine ⟨?_, ?_, hpayload⟩
  · exact Vector.toList_inj.mp hprevious
  · exact bigEndian_inj (by omega) (by omega) hnumber

/-- What a row adds to the chain: its number and the bytes of its event. -/
def Row.item (row : Row) : ℕ × List UInt8 := (row.sequence.toInt.toNat, utf8 row.eventJson)

/-- Hashing in one more row. -/
def hashItem (head : Digest32) (item : ℕ × List UInt8) : Digest32 :=
  hashRecord P item.1 head item.2

/-- The inputs that are hashed when these rows are verified, from the hash
before them. -/
def hashInputs (previous : Digest32) (rows : List Row) : List (List UInt8) :=
  (links (hashItem P) previous (rows.map Row.item)).map fun pair =>
    hashInput pair.2.1 pair.1 pair.2.2

/-- What a row records: its number, both hashes and the text of its event. -/
def Row.view (row : Row) :
    Int64 × Except AuditError Digest32 × Except AuditError Digest32 × String :=
  (row.sequence, decodeHash row.previousHash, decodeHash row.recordHash, row.eventJson)

/-- The `record_hash` of the last row. -/
def lastRecordHash (rows : List Row) : Option (Except AuditError Digest32) :=
  rows.getLast?.map fun row => decodeHash row.recordHash

variable {P R} {rows rows' : List Row}

/-- What one row that passes the checks satisfies, and the rows after it. -/
theorem checkRows_cons_eq_ok {previous : Digest32} {row : Row} {records : List AuditRecord}
    (h : checkRows P R previous (row :: rows) = .ok records) :
    ∃ rest,
      row.sequence = Int64.ofNat row.item.1 ∧ row.item.1 < 2 ^ 63 ∧
      decodeHash row.previousHash = .ok previous ∧
      decodeHash row.recordHash = .ok (hashItem P previous row.item) ∧
      checkRows P R (hashItem P previous row.item) rows = .ok rest := by
  simp only [checkRows, bind_eq_ok, failIf_eq_ok, exists_unit, not_or, not_not] at h
  obtain ⟨sequence, hsequence, storedPrevious, hprevious, storedRecord, hrecord,
    ⟨rfl, hhash⟩, event, -, rest, hrest, -⟩ := h
  obtain ⟨hrow, hsmall⟩ := sequenceOfI64_eq_ok hsequence
  have hnumber : row.item.1 = sequence := by
    rw [Row.item, hrow, Int64.toInt_ofNat_of_lt hsmall, Int.toNat_natCast]
  have hlink : hashItem P storedPrevious row.item = storedRecord := by
    rw [hashItem, hnumber]
    exact hhash
  rw [hnumber, hlink]
  exact ⟨rest, hrow, hsmall, hprevious, hrecord, hrest⟩

theorem item_lt_of_checkRows {previous : Digest32} {records : List AuditRecord}
    (h : checkRows P R previous rows = .ok records) : ∀ row ∈ rows, row.item.1 < 2 ^ 63 := by
  induction rows generalizing previous records with
  | nil => simp
  | cons row rows ih =>
      obtain ⟨rest, -, hsmall, -, -, hrest⟩ := checkRows_cons_eq_ok h
      rw [List.forall_mem_cons]
      exact ⟨hsmall, ih hrest⟩

/-- The hash of the last row is the head of the chain. -/
theorem lastRecordHash_of_checkRows {previous : Digest32} {records : List AuditRecord}
    (h : checkRows P R previous rows = .ok records) (hne : rows ≠ []) :
    lastRecordHash rows = some (.ok ((rows.map Row.item).foldl (hashItem P) previous)) := by
  induction rows generalizing previous records with
  | nil => exact absurd rfl hne
  | cons row rows ih =>
      obtain ⟨rest, -, -, -, hrecord, hrest⟩ := checkRows_cons_eq_ok h
      rw [List.map_cons, List.foldl_cons]
      cases rows with
      | nil => rw [lastRecordHash, List.getLast?_singleton, Option.map_some, hrecord]; rfl
      | cons next rows =>
          have hlast := ih hrest (by simp)
          rw [lastRecordHash, List.getLast?_cons_cons]
          exact hlast

/-- The head of the chain is the last hash, or the one before the first row. -/
theorem lastRecordHash_getD {previous : Digest32} {records : List AuditRecord}
    (h : checkRows P R previous rows = .ok records) :
    (lastRecordHash rows).getD (.ok previous) =
      .ok ((rows.map Row.item).foldl (hashItem P) previous) := by
  cases rows with
  | nil => rfl
  | cons row rows => rw [lastRecordHash_of_checkRows h (by simp), Option.getD_some]

/-- The rows are read back from what they add to the chain. -/
theorem view_eq_of_item_eq {previous : Digest32} {records records' : List AuditRecord}
    (h : checkRows P R previous rows = .ok records)
    (h' : checkRows P R previous rows' = .ok records')
    (hitems : rows.map Row.item = rows'.map Row.item) :
    rows.map Row.view = rows'.map Row.view := by
  induction rows generalizing rows' previous records records' with
  | nil =>
      rw [List.map_nil, eq_comm, List.map_eq_nil_iff] at hitems
      rw [hitems]
  | cons row rows ih =>
      cases rows' with
      | nil => simp at hitems
      | cons row' rows' =>
          rw [List.map_cons, List.map_cons] at hitems
          obtain ⟨hitem, hitems⟩ := List.cons.inj hitems
          obtain ⟨rest, hsequence, -, hprevious, hrecord, hrest⟩ := checkRows_cons_eq_ok h
          obtain ⟨rest', hsequence', -, hprevious', hrecord', hrest'⟩ := checkRows_cons_eq_ok h'
          rw [← hitem] at hsequence' hrecord' hrest'
          have htext : row.eventJson = row'.eventJson := utf8_injective (congrArg Prod.snd hitem)
          rw [List.map_cons, List.map_cons, ih hrest hrest' hitems, Row.view, Row.view,
            hsequence, hsequence', hprevious, hprevious', hrecord, hrecord', htext]

/-- If the inputs that are hashed for two chains do not collide, their links do
not. -/
theorem collisionless_of_injOn {previous : Digest32}
    (hsmall : ∀ row ∈ rows ++ rows', row.item.1 < 2 ^ 63)
    (hinj : Set.InjOn P.sha256
      {input | input ∈ hashInputs P previous rows ++ hashInputs P previous rows'})
    (hstart : ∀ input ∈ hashInputs P previous rows ++ hashInputs P previous rows',
      P.sha256 input ≠ previous) :
    Collisionless (hashItem P) previous
      (links (hashItem P) previous (rows.map Row.item) ++
        links (hashItem P) previous (rows'.map Row.item)) := by
  rw [hashInputs, hashInputs, ← List.map_append] at hinj hstart
  constructor
  · intro p hp q hq hpq
    have hsmallPair : ∀ pair ∈ links (hashItem P) previous (rows.map Row.item) ++
        links (hashItem P) previous (rows'.map Row.item), pair.2.1 < 2 ^ 64 := by
      intro pair hpair
      have hitem : pair.2 ∈ (rows ++ rows').map Row.item := by
        rw [List.map_append, List.mem_append]
        exact (List.mem_append.mp hpair).imp item_mem_of_mem_links item_mem_of_mem_links
      obtain ⟨row, hrow, heq⟩ := List.mem_map.mp hitem
      have hlt := hsmall row hrow
      rw [← heq]
      omega
    have hinput := hinj (List.mem_map_of_mem hp) (List.mem_map_of_mem hq) hpq
    obtain ⟨hhash, hnumber, hpayload⟩ :=
      hashInput_inj (hsmallPair p hp) (hsmallPair q hq) hinput
    exact Prod.ext hhash (Prod.ext hnumber hpayload)
  · intro p hp
    exact hstart _ (List.mem_map_of_mem hp)

theorem checkRows_congr {previous : Digest32} (hviews : rows.map Row.view = rows'.map Row.view) :
    checkRows P R previous rows = checkRows P R previous rows' := by
  induction rows generalizing rows' previous with
  | nil =>
      rw [List.map_nil, eq_comm, List.map_eq_nil_iff] at hviews
      rw [hviews]
  | cons row rows ih =>
      cases rows' with
      | nil => simp at hviews
      | cons row' rows' =>
          rw [List.map_cons, List.map_cons] at hviews
          obtain ⟨hview, hrest⟩ := List.cons.inj hviews
          simp only [Row.view, Prod.mk.injEq] at hview
          obtain ⟨hsequence, hprevious, hrecord, htext⟩ := hview
          have hnext : ∀ hash, checkRows P R hash rows = checkRows P R hash rows' :=
            fun hash => ih hrest
          simp only [checkRows, hsequence, hprevious, hrecord, htext, hnext]

/-- What a ledger that passes `verify_integrity` satisfies. -/
theorem verifyStores_eq_ok {content : Option (List UInt8)}
    (h : verifyStores P R rows content = .ok ()) :
    ∃ records, checkRows P R zeroHash rows = .ok records ∧
      loadJsonlRecords R content = .ok records := by
  simp only [verifyStores, bind_eq_ok, failIf_eq_ok, ne_eq, not_not] at h
  obtain ⟨dbRecords, hdb, fileRecords, hfile, rfl⟩ := h
  exact ⟨dbRecords, hdb, hfile⟩

/-- Two ledgers that pass `verify_integrity` and end in the same hash are the
same list of records, if no two of the inputs that were hashed for them have
the same hash and none has the zero hash. -/
theorem history_eq_of_lastRecordHash_eq {content content' : Option (List UInt8)}
    (hinj : Set.InjOn P.sha256
      {input | input ∈ hashInputs P zeroHash rows ++ hashInputs P zeroHash rows'})
    (hzero : ∀ input ∈ hashInputs P zeroHash rows ++ hashInputs P zeroHash rows',
      P.sha256 input ≠ zeroHash)
    (hok : verifyStores P R rows content = .ok ())
    (hok' : verifyStores P R rows' content' = .ok ())
    (hlast : lastRecordHash rows = lastRecordHash rows') :
    rows.map Row.view = rows'.map Row.view ∧
      loadJsonlRecords R content = loadJsonlRecords R content' := by
  obtain ⟨records, hrows, hfile⟩ := verifyStores_eq_ok hok
  obtain ⟨records', hrows', hfile'⟩ := verifyStores_eq_ok hok'
  have hsmall : ∀ row ∈ rows ++ rows', row.item.1 < 2 ^ 63 := by
    intro row hrow
    rcases List.mem_append.mp hrow with hrow | hrow
    · exact item_lt_of_checkRows hrows row hrow
    · exact item_lt_of_checkRows hrows' row hrow
  have hhead : (rows.map Row.item).foldl (hashItem P) zeroHash =
      (rows'.map Row.item).foldl (hashItem P) zeroHash := by
    have hlinks := lastRecordHash_getD hrows
    rw [hlast, lastRecordHash_getD hrows'] at hlinks
    exact (Except.ok.inj hlinks).symm
  have hitems := eq_of_head_eq (collisionless_of_injOn hsmall hinj hzero) hhead
  have hviews := view_eq_of_item_eq hrows hrows' hitems
  refine ⟨hviews, ?_⟩
  rw [hfile, hfile', ← hrows, ← hrows', checkRows_congr hviews]

/-- The event of a read that policy allowed. -/
def readEvent : AuditEvent :=
  { timestampUnixMs := 1
    organizationId := "org"
    actorId := "actor"
    deviceId := "device"
    requestId := "r1"
    action := "filesystem.read"
    target := "D:\\Workspaces\\x"
    outcome := "auto"
    envelopeDigest := Vector.replicate 32 9
    authority := "policy"
    approval := "not-required"
    policyRule := "filesystem_rule"
    policyHash := "hash"
    contentBytes := 0 }

theorem readEvent_fits : ∀ event ∈ [readEvent], event.Fits := by
  intro event hevent
  rw [List.mem_singleton.mp hevent]
  exact ⟨by decide, by decide⟩

/-- The rows of a ledger with this event. -/
def readRows : List Row := (chainOf reference [readEvent]).map AuditRecord.toRow

theorem hashInputs_readRows :
    hashInputs reference zeroHash readRows =
      [hashInput 1 zeroHash (readEvent.toJson.encode.flatMap String.utf8EncodeChar)] := by
  have hitems : readRows.map Row.item = [(1, utf8 (jsonText readEvent.toJson))] := rfl
  rw [hashInputs, hitems, links, links, List.map_singleton, jsonText, utf8_ofList]

theorem readRows_ne_zeroHash :
    ∀ input ∈ hashInputs reference zeroHash readRows, reference.sha256 input ≠ zeroHash := by
  rw [hashInputs_readRows, List.forall_mem_singleton]
  decide +kernel

theorem readRows_injOn :
    Set.InjOn reference.sha256 {input | input ∈ hashInputs reference zeroHash readRows ++
      hashInputs reference zeroHash readRows} := by
  rw [hashInputs_readRows]
  intro input hinput input' hinput' _
  simp only [List.singleton_append, Set.mem_ofPred_eq, List.mem_cons, List.not_mem_nil, or_false,
    or_self] at hinput hinput'
  rw [hinput, hinput']

/-- Two files with this event, one of them with a blank line at its end. -/
theorem history_eq_of_lastRecordHash_eq_read :
    readRows.map Row.view = readRows.map Row.view ∧
      loadJsonlRecords .searching (some (recordLines (chainOf reference [readEvent]))) =
        loadJsonlRecords .searching
          (some (recordLines (chainOf reference [readEvent]) ++ [lineFeed])) := by
  have hR := LedgerReader.searching_correct
  have hfits : ∀ record ∈ chainOf reference [readEvent], record.Fits :=
    fits_chainFrom readEvent_fits (by decide)
  have hblank : loadJsonlRecords .searching
      (some (recordLines (chainOf reference [readEvent]) ++ [lineFeed])) =
        .ok (chainOf reference [readEvent]) := by
    rw [loadJsonlRecords, fileLines_recordLines Option.getD_some, readRecords_append hR hfits]
    have hempty : readRecords .searching ((rawLines [lineFeed]).map readLine) = .ok [] := by
      rfl
    rw [hempty, Except.map, List.append_nil]
  refine history_eq_of_lastRecordHash_eq (P := reference) readRows_injOn ?_ ?_ ?_ rfl
  · intro input hinput
    exact readRows_ne_zeroHash input ((List.mem_append.mp hinput).elim id id)
  · exact verifyStores_chainOf hR readEvent_fits (by decide)
      (loadJsonlRecords_recordLines hR hfits Option.getD_some)
  · exact verifyStores_chainOf hR readEvent_fits (by decide) hblank

end VorCommander
