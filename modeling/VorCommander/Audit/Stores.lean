import Mathlib.Data.List.ReduceOption
import Mathlib.Data.List.TakeWhile
import VorCommander.Audit.Ledger
import VorCommander.Text.Lines

/-!
The two stores of the audit ledger.

Each record is kept twice: as a row of a table, its hashes in hexadecimal and
its event as JSON text, and as a line of a JSONL file. The functions here read
the stores as `Ledger` does, the table row by row and the file line by line,
and say what is written for a record. Reading JSON is a parameter.
-/

namespace VorCommander

open Crypto Steps Text

/-- A row of `audit_records`. Integers are signed there, hashes are text. -/
structure Row where
  sequence : Int64
  previousHash : String
  recordHash : String
  eventJson : String
  deriving DecidableEq

/-- `serde_json::to_string`. -/
def jsonText (v : Value) : String := String.ofList v.encode

/-- The JSON of a record, its members in declaration order. -/
def AuditRecord.toJson (record : AuditRecord) : Value :=
  .object
    [("sequence", .posInt record.sequence),
     ("previous_hash", digestJson record.previousHash),
     ("record_hash", digestJson record.recordHash),
     ("event", record.event.toJson)]

/-- `serde_json::from_str`, at the two types the ledger reads. -/
structure LedgerReader where
  event : String → Option AuditEvent
  record : String → Option AuditRecord

/-- The numbers of an event are of 64 bits. -/
def AuditEvent.Fits (event : AuditEvent) : Prop :=
  event.timestampUnixMs < 2 ^ 64 ∧ event.contentBytes < 2 ^ 64

def AuditRecord.Fits (record : AuditRecord) : Prop := record.sequence < 2 ^ 64 ∧ record.event.Fits

/-- What was written is read back, and a record that was cut off is not
read. -/
structure LedgerReader.Correct (R : LedgerReader) : Prop where
  event : ∀ e : AuditEvent, e.Fits → R.event (jsonText e.toJson) = some e
  record : ∀ r : AuditRecord, r.Fits → R.record (jsonText r.toJson) = some r
  cutOff : ∀ (r : AuditRecord) (text missing : List Char), missing ≠ [] →
    text ++ missing = r.toJson.encode → R.record (String.ofList text) = none

/-! ### The table -/

/-- `u64::try_from` of a signed 64-bit integer. -/
def sequenceOfI64 (n : Int64) : Except AuditError ℕ :=
  if 0 ≤ n.toInt then .ok n.toInt.toNat else .error .invalidSequence

theorem sequenceOfI64_ofNat {n : ℕ} (hn : n < 2 ^ 63) : sequenceOfI64 (Int64.ofNat n) = .ok n := by
  rw [sequenceOfI64, Int64.toInt_ofNat_of_lt hn, if_pos (by omega), Int.toNat_natCast]

theorem sequenceOfI64_eq_ok {n : Int64} {sequence : ℕ} (h : sequenceOfI64 n = .ok sequence) :
    n = Int64.ofNat sequence ∧ sequence < 2 ^ 63 := by
  rw [sequenceOfI64] at h
  split at h
  case isTrue hnonneg =>
      obtain rfl := Except.ok.inj h
      have hlt := n.toInt_lt
      have hsmall : n.toInt.toNat < 2 ^ 63 := by omega
      refine ⟨?_, hsmall⟩
      apply Int64.toInt_inj.mp
      rw [Int64.toInt_ofNat_of_lt hsmall]
      omega
  case isFalse => cases h

/-- `decode_hash`. -/
def decodeHash (value : String) : Except AuditError Digest32 := do
  let bytes ← orFail (hexDecode value) .invalidHash
  if h : bytes.length = 32 then return ⟨bytes.toArray, by simpa using h⟩ else throw .invalidHash

/-- The row that is inserted for a record. -/
def AuditRecord.toRow (record : AuditRecord) : Row :=
  { sequence := Int64.ofNat record.sequence
    previousHash := hexEncode record.previousHash.toList
    recordHash := hexEncode record.recordHash.toList
    eventJson := jsonText record.event.toJson }

/-- The head that the last row gives, as `load_db_last` returns it. -/
def headOfRow (last : Option (Int64 × String)) : Except AuditError (Option (ℕ × Digest32)) :=
  match last with
  | none => .ok none
  | some (sequence, hash) => do
      let sequence ← sequenceOfI64 sequence
      let hash ← decodeHash hash
      return some (sequence, hash)

variable (P : Primitives) (R : LedgerReader)

/-- The loop of `verify_integrity` over the rows, from the hash before them. -/
def checkRows : Digest32 → List Row → Except AuditError (List AuditRecord)
  | _, [] => .ok []
  | previous, row :: rows => do
      let sequence ← sequenceOfI64 row.sequence
      let storedPrevious ← decodeHash row.previousHash
      let storedRecord ← decodeHash row.recordHash
      failIf (storedPrevious ≠ previous ∨
        hashRecord P sequence previous (utf8 row.eventJson) ≠ storedRecord) (.hashMismatch sequence)
      let event ← orFail (R.event row.eventJson) .json
      let records ← checkRows storedRecord rows
      return { sequence, previousHash := previous, recordHash := storedRecord, event } :: records

/-! ### The file -/

/-- The line that is written for a record. -/
def AuditRecord.toLine (record : AuditRecord) : List UInt8 :=
  utf8 (jsonText record.toJson) ++ [lineFeed]

/-- The lines of a file that does not exist are none. -/
def fileLines (content : Option (List UInt8)) : List (Option String) :=
  (content.elim [] rawLines).map readLine

/-- `load_jsonl_last`: the last line that is not blank, among the lines before
the first that cannot be read. -/
def loadJsonlLast (content : Option (List UInt8)) : Except AuditError (Option (ℕ × Digest32)) :=
  let readable := ((fileLines content).takeWhile Option.isSome).reduceOption
  match (readable.filter (¬ isBlank ·)).getLast? with
  | none => .ok none
  | some line => do
      let record ← orFail (R.record line) .json
      return some (record.sequence, record.recordHash)

/-- The loop of `load_jsonl_records`. -/
def readRecords : List (Option String) → Except AuditError (List AuditRecord)
  | [] => .ok []
  | none :: _ => .error .io
  | some line :: rest =>
      if isBlank line then readRecords rest
      else do
        let record ← orFail (R.record line) .json
        let records ← readRecords rest
        return record :: records

/-- `load_jsonl_records`. -/
def loadJsonlRecords (content : Option (List UInt8)) : Except AuditError (List AuditRecord) :=
  readRecords R (fileLines content)

/-- What `verify_integrity` concludes from the rows and the file. -/
def verifyStores (rows : List Row) (content : Option (List UInt8)) : Except AuditError Unit := do
  let dbRecords ← checkRows P R zeroHash rows
  let fileRecords ← loadJsonlRecords R content
  failIf (dbRecords ≠ fileRecords) .divergence

/-! ### What is written is read back -/

@[simp] theorem decodeHash_hexEncode (digest : Digest32) :
    decodeHash (hexEncode digest.toList) = .ok digest := by
  rw [decodeHash, hexDecode_hexEncode, orFail_some, ok_bind, dif_pos (by simp)]
  cases digest
  rfl

theorem digestJson_oneLine (digest : Digest32) : (digestJson digest).oneLine := by
  rw [digestJson, Value.oneLine]
  induction digest.toList with
  | nil => trivial
  | cons b bytes ih => exact ⟨trivial, ih⟩

theorem AuditRecord.toJson_oneLine (record : AuditRecord) : record.toJson.oneLine := by
  have hdigests := digestJson_oneLine
  simp [AuditRecord.toJson, AuditEvent.toJson, Value.oneLine, Value.oneLineMembers, hdigests]

/-- The text of a record is an object. -/
theorem AuditRecord.encode_toJson (record : AuditRecord) :
    ∃ middle, record.toJson.encode = '{' :: middle ++ ['}'] := ⟨_, rfl⟩

theorem AuditRecord.lineFeed_notMem_text (record : AuditRecord) :
    lineFeed ∉ utf8 (jsonText record.toJson) := by
  apply lineFeed_notMem_utf8
  rw [jsonText, String.toList_ofList]
  exact Value.lineFeed_notMem_encode _ record.toJson_oneLine

theorem AuditRecord.readLine_toLine (record : AuditRecord) :
    readLine record.toLine = some (jsonText record.toJson) := by
  apply readLine_utf8
  obtain ⟨middle, htext⟩ := record.encode_toJson
  rw [jsonText, String.toList_ofList, htext, List.getLast?_concat]
  decide

theorem AuditRecord.readLine_text (record : AuditRecord) :
    readLine (utf8 (jsonText record.toJson)) = some (jsonText record.toJson) := by
  apply readLine_unended
  obtain ⟨middle, htext⟩ := record.encode_toJson
  rw [jsonText, String.toList_ofList, htext, List.getLast?_concat]
  decide

theorem AuditRecord.isBlank_text (record : AuditRecord) :
    isBlank (jsonText record.toJson) = false := by
  obtain ⟨middle, htext⟩ := record.encode_toJson
  rw [jsonText, htext]
  exact isBlank_of_head (by decide) _

/-- The lines of a sequence of records. -/
def recordLines (records : List AuditRecord) : List UInt8 := records.flatMap AuditRecord.toLine

theorem recordLines_append (records records' : List AuditRecord) :
    recordLines (records ++ records') = recordLines records ++ recordLines records' :=
  List.flatMap_append

theorem fileLines_eq (content : Option (List UInt8)) :
    fileLines content = (rawLines (content.getD [])).map readLine := by
  cases content <;> rfl

/-- A file that begins with the lines of records. -/
theorem fileLines_recordLines {content : Option (List UInt8)} {records : List AuditRecord}
    {rest : List UInt8} (h : content.getD [] = recordLines records ++ rest) :
    fileLines content =
      (records.map fun record => some (jsonText record.toJson)) ++
        (rawLines rest).map readLine := by
  have htoLine : AuditRecord.toLine =
      fun record => utf8 (jsonText record.toJson) ++ [lineFeed] := rfl
  have hread : readLine ∘ AuditRecord.toLine = fun record => some (jsonText record.toJson) := by
    funext record
    rw [Function.comp_apply, record.readLine_toLine]
  rw [htoLine] at hread
  rw [fileLines_eq, h, recordLines, htoLine,
    rawLines_flatMap_append AuditRecord.lineFeed_notMem_text, List.map_append, List.map_map, hread]

/-- A file of the lines of records. -/
theorem fileLines_ended {content : Option (List UInt8)} {records : List AuditRecord}
    (h : content.getD [] = recordLines records) :
    fileLines content = records.map fun record => some (jsonText record.toJson) := by
  have hcontent : content.getD [] = recordLines records ++ [] := by rw [h, List.append_nil]
  rw [fileLines_recordLines hcontent]
  exact List.append_nil _

/-- The last line may lack its end. -/
theorem fileLines_unended {content : Option (List UInt8)} {records : List AuditRecord}
    {record : AuditRecord}
    (h : content.getD [] = recordLines records ++ utf8 (jsonText record.toJson)) :
    fileLines content =
      (records ++ [record]).map fun record => some (jsonText record.toJson) := by
  have hne : utf8 (jsonText record.toJson) ≠ [] := Value.toBytes_object_ne_nil _
  rw [fileLines_recordLines h, rawLines_of_notMem record.lineFeed_notMem_text hne,
    List.map_singleton, record.readLine_text, List.map_append, List.map_singleton]

section Reading

variable {R}

theorem readRecords_append (hR : R.Correct) {records : List AuditRecord}
    (hfits : ∀ record ∈ records, record.Fits) (rest : List (Option String)) :
    readRecords R ((records.map fun record => some (jsonText record.toJson)) ++ rest) =
      (readRecords R rest).map (records ++ ·) := by
  induction records with
  | nil => cases h : readRecords R rest <;> simp [h, Except.map]
  | cons record records ih =>
      rw [List.forall_mem_cons] at hfits
      rw [List.map_cons, List.cons_append, readRecords, if_neg (by simp [record.isBlank_text]),
        hR.record record hfits.1, orFail_some, ok_bind, ih hfits.2]
      cases h : readRecords R rest <;> simp [Except.map, pure, Except.pure]

/-- Lines of records are read as these records. -/
theorem loadJsonlRecords_of_fileLines (hR : R.Correct) {content : Option (List UInt8)}
    {records : List AuditRecord} (hfits : ∀ record ∈ records, record.Fits)
    (h : fileLines content = records.map fun record => some (jsonText record.toJson)) :
    loadJsonlRecords R content = .ok records := by
  rw [← List.append_nil (records.map _)] at h
  rw [loadJsonlRecords, h, readRecords_append hR hfits]
  simp [readRecords, Except.map]

theorem loadJsonlRecords_recordLines (hR : R.Correct) {content : Option (List UInt8)}
    {records : List AuditRecord} (hfits : ∀ record ∈ records, record.Fits)
    (h : content.getD [] = recordLines records) : loadJsonlRecords R content = .ok records :=
  loadJsonlRecords_of_fileLines hR hfits (fileLines_ended h)

/-- The last of a file's lines decides, if all can be read and none is blank. -/
theorem loadJsonlLast_of_lines {content : Option (List UInt8)} {lines : List String}
    (h : fileLines content = lines.map some) (hblank : ∀ line ∈ lines, isBlank line = false) :
    loadJsonlLast R content =
      match lines.getLast? with
      | none => .ok none
      | some line => do
          let record ← orFail (R.record line) .json
          return some (record.sequence, record.recordHash) := by
  have hreadable : (lines.map some).takeWhile Option.isSome = lines.map some :=
    List.takeWhile_eq_self_iff.mpr (by simp)
  have hlines : (lines.map some).reduceOption = lines := by
    simp [List.reduceOption, List.filterMap_map]
  have hfilter : lines.filter (fun line => decide ¬ isBlank line = true) = lines :=
    List.filter_eq_self.mpr fun line hline => by simp [hblank line hline]
  simp only [loadJsonlLast, h, hreadable, hlines, hfilter]

/-- The last of the records is the head. -/
theorem loadJsonlLast_of_fileLines (hR : R.Correct) {content : Option (List UInt8)}
    {records : List AuditRecord} (hfits : ∀ record ∈ records, record.Fits)
    (h : fileLines content = records.map fun record => some (jsonText record.toJson)) :
    loadJsonlLast R content = .ok (chainHead records) := by
  have hlines : fileLines content =
      (records.map fun record => jsonText record.toJson).map some := by
    rw [h, List.map_map]
    rfl
  have hblank : ∀ line ∈ records.map fun record => jsonText record.toJson,
      isBlank line = false := by
    intro line hline
    obtain ⟨record, _, rfl⟩ := List.mem_map.mp hline
    exact record.isBlank_text
  rw [loadJsonlLast_of_lines hlines hblank, List.getLast?_map, chainHead]
  cases hlast : records.getLast? with
  | none => rfl
  | some record =>
      have hrecord := hR.record record (hfits record (List.mem_of_getLast? hlast))
      rw [Option.map_some, Option.map_some]
      simp only [hrecord, orFail_some, ok_bind]
      rfl

end Reading

/-! ### Chains -/

/-- The records of a sequence of events, appended one after the other behind a
head. -/
def chainFrom : ℕ × Digest32 → List AuditEvent → List AuditRecord
  | _, [] => []
  | head, event :: rest =>
      let record := nextRecord P (some head) event
      record :: chainFrom (record.sequence, record.recordHash) rest

/-- The records of a new ledger to which these events were appended. -/
def chainOf (events : List AuditEvent) : List AuditRecord := chainFrom P (0, zeroHash) events

variable {P R} {head : ℕ × Digest32} {events : List AuditEvent}

theorem nextRecord_getD (head : Option (ℕ × Digest32)) (event : AuditEvent) :
    nextRecord P head event = nextRecord P (some (head.getD (0, zeroHash))) event := by
  cases head <;> rfl

theorem chainHead_cons (record : AuditRecord) (records : List AuditRecord) :
    chainHead (record :: records) =
      some ((chainHead records).getD (record.sequence, record.recordHash)) := by
  cases records with
  | nil => rfl
  | cons next records =>
      rw [chainHead, chainHead, List.getLast?_cons_cons]
      cases h : (next :: records).getLast? with
      | none => simp at h
      | some last => rfl

theorem chainFrom_append_singleton (event : AuditEvent) :
    chainFrom P head (events ++ [event]) =
      chainFrom P head events ++
        [nextRecord P (some ((chainHead (chainFrom P head events)).getD head)) event] := by
  induction events generalizing head with
  | nil => rfl
  | cons first events ih =>
      rw [List.cons_append, chainFrom, ih, chainFrom, chainHead_cons]
      rfl

/-- An append continues the chain from its head. -/
theorem chainOf_append_singleton (event : AuditEvent) :
    chainOf P (events ++ [event]) =
      chainOf P events ++ [nextRecord P (chainHead (chainOf P events)) event] := by
  rw [chainOf, chainFrom_append_singleton, nextRecord_getD (chainHead (chainOf P events))]
  rfl

@[simp] theorem events_chainFrom : (chainFrom P head events).map AuditRecord.event = events := by
  induction events generalizing head with
  | nil => rfl
  | cons event events ih => rw [chainFrom, List.map_cons, ih]; rfl

@[simp] theorem length_chainOf : (chainOf P events).length = events.length := by
  have hevents : (chainOf P events).map AuditRecord.event = events := events_chainFrom
  have hlength := congrArg List.length hevents
  rwa [List.length_map] at hlength

/-- The sequence numbers go on from the head, one by one. -/
theorem sequence_chainFrom :
    (chainFrom P head events).map AuditRecord.sequence =
      List.range' (head.1 + 1) events.length := by
  induction events generalizing head with
  | nil => rfl
  | cons event events ih =>
      rw [chainFrom, List.map_cons, ih, List.length_cons, List.range'_succ]
      rfl

/-- Each record carries the hash of the one before it. -/
def Linked : Digest32 → List AuditRecord → Prop
  | _, [] => True
  | previous, record :: rest => record.previousHash = previous ∧ Linked record.recordHash rest

theorem linked_chainFrom : Linked head.2 (chainFrom P head events) := by
  induction events generalizing head with
  | nil => trivial
  | cons event events ih =>
      let record := nextRecord P (some head) event
      have hrest : Linked record.recordHash
          (chainFrom P (record.sequence, record.recordHash) events) := @ih (_, _)
      rw [chainFrom, Linked]
      exact ⟨rfl, hrest⟩

/-- The hash of a record is that of the text of its event. -/
theorem recordHash_nextRecord (event : AuditEvent) :
    (nextRecord P (some head) event).recordHash =
      hashRecord P (head.1 + 1) head.2 (utf8 (jsonText event.toJson)) := rfl

theorem fits_chainFrom (hfits : ∀ event ∈ events, event.Fits)
    (hsize : head.1 + events.length < 2 ^ 63) :
    ∀ record ∈ chainFrom P head events, record.Fits := by
  intro record hrecord
  have hnumber : record.sequence ∈ (chainFrom P head events).map AuditRecord.sequence :=
    List.mem_map_of_mem hrecord
  have hevent : record.event ∈ (chainFrom P head events).map AuditRecord.event :=
    List.mem_map_of_mem hrecord
  rw [sequence_chainFrom, List.mem_range'_1] at hnumber
  rw [events_chainFrom] at hevent
  exact ⟨by omega, hfits record.event hevent⟩

/-- The rows of a chain pass the checks and are read as its records. -/
theorem checkRows_chainFrom (hR : R.Correct) (hfits : ∀ event ∈ events, event.Fits)
    (hsize : head.1 + events.length < 2 ^ 63) :
    checkRows P R head.2 ((chainFrom P head events).map AuditRecord.toRow) =
      .ok (chainFrom P head events) := by
  induction events generalizing head with
  | nil => rfl
  | cons event events ih =>
      rw [List.length_cons] at hsize
      rw [List.forall_mem_cons] at hfits
      obtain ⟨record, hrecord⟩ : ∃ record, record = nextRecord P (some head) event := ⟨_, rfl⟩
      have hprevious : record.previousHash = head.2 := by rw [hrecord]; rfl
      have hnumber : record.sequence = head.1 + 1 := by rw [hrecord]; rfl
      have hevent : record.event = event := by rw [hrecord]; rfl
      have hhash : hashRecord P record.sequence head.2 (utf8 (jsonText event.toJson)) =
          record.recordHash := by
        rw [hnumber, hrecord, recordHash_nextRecord]
      have hsequence : sequenceOfI64 (Int64.ofNat record.sequence) = .ok record.sequence :=
        sequenceOfI64_ofNat (by omega)
      have hhead : (record.sequence, record.recordHash).1 + events.length < 2 ^ 63 := by
        rw [hnumber]
        omega
      have hread := hR.event event hfits.1
      have hrest := ih hfits.2 hhead
      rw [chainFrom, List.map_cons, ← hrecord, checkRows]
      simp only [AuditRecord.toRow, hsequence, decodeHash_hexEncode, ok_bind, hprevious, hevent,
        hhash, ne_eq, not_true_eq_false, or_self, hread, orFail_some, hrest]
      rw [failIf_of_false not_false, ok_bind, pure_eq_ok, ← hprevious, ← hevent]

/-- A ledger to which nothing else happened than the appends of these events
passes `verify_integrity`. -/
theorem verifyStores_chainOf (hR : R.Correct) (hfits : ∀ event ∈ events, event.Fits)
    (hsize : events.length < 2 ^ 63) {content : Option (List UInt8)}
    (hcontent : loadJsonlRecords R content = .ok (chainOf P events)) :
    verifyStores P R ((chainOf P events).map AuditRecord.toRow) content = .ok () := by
  have hrows : checkRows P R zeroHash ((chainOf P events).map AuditRecord.toRow) =
      .ok (chainOf P events) :=
    @checkRows_chainFrom P R (0, zeroHash) events hR hfits (by omega)
  rw [verifyStores, hrows, ok_bind, hcontent, ok_bind, failIf_eq_ok, not_not]

end VorCommander
