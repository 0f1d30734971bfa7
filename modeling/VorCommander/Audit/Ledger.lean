import Mathlib.Logic.Function.Basic
import VorCommander.Protocol

/-!
The audit ledger as a database.

Three tables: the chained audit records, the approvals that have been
consumed, and how far the execution of each consumed approval has come. The
functions here are what one SQLite transaction of `Ledger` does when nothing
fails; a result of `.error` leaves the tables as they were. The second copy of
the records, the JSONL file, is the subject of the crash model.
-/

namespace VorCommander

open Crypto Steps Text

structure AuditEvent where
  timestampUnixMs : ℕ
  organizationId : String
  actorId : String
  deviceId : String
  requestId : String
  action : String
  target : String
  outcome : String
  envelopeDigest : Digest32
  authority : String
  approval : String
  policyRule : String
  policyHash : String
  contentBytes : ℕ
  deriving DecidableEq

structure AuditRecord where
  sequence : ℕ
  previousHash : Digest32
  recordHash : Digest32
  event : AuditEvent
  deriving DecidableEq

inductive ExecutionRecoveryState
  | notExecuted
  | effectUncertain
  | effectApplied
  | postEffectUncertain
  | completed
  deriving DecidableEq

/-- `ExecutionRecoveryState::rank`. -/
def ExecutionRecoveryState.rank : ExecutionRecoveryState → ℕ
  | .notExecuted => 0
  | .effectUncertain => 1
  | .effectApplied => 2
  | .postEffectUncertain => 3
  | .completed => 4

inductive AuditError
  | divergence
  | hashMismatch (sequence : ℕ)
  | invalidHash
  | invalidSequence
  | invalidExecutionState
  | missingExecutionState
  | invalidExecutionTransition
  | lockTimeout
  | clock
  | io
  | sqlite
  | json
  deriving DecidableEq

/-! ### Records -/

def zeroHash : Digest32 := Vector.replicate 32 0

/-- A digest as serde writes it, an array of 32 numbers. -/
def digestJson (digest : Digest32) : Value :=
  .array (digest.toList.map fun b => .posInt b.toNat)

/-- The JSON of an event, its members in declaration order. -/
def AuditEvent.toJson (event : AuditEvent) : Value :=
  .object
    [("timestamp_unix_ms", .posInt event.timestampUnixMs),
     ("organization_id", .string event.organizationId),
     ("actor_id", .string event.actorId),
     ("device_id", .string event.deviceId),
     ("request_id", .string event.requestId),
     ("action", .string event.action),
     ("target", .string event.target),
     ("outcome", .string event.outcome),
     ("envelope_digest", digestJson event.envelopeDigest),
     ("authority", .string event.authority),
     ("approval", .string event.approval),
     ("policy_rule", .string event.policyRule),
     ("policy_hash", .string event.policyHash),
     ("content_bytes", .posInt event.contentBytes)]

/-- `hash_record`. -/
def hashRecord (P : Primitives) (sequence : ℕ) (previousHash : Digest32) (payload : List UInt8) :
    Digest32 :=
  P.sha256 (previousHash.toList ++ bigEndian 8 sequence ++ payload)

/-- The head of a chain: the sequence and hash of its last record. -/
def chainHead (records : List AuditRecord) : Option (ℕ × Digest32) :=
  records.getLast?.map fun record => (record.sequence, record.recordHash)

/-- The record of an event after the head of a chain. -/
def nextRecord (P : Primitives) (head : Option (ℕ × Digest32)) (event : AuditEvent) :
    AuditRecord :=
  let (lastSequence, lastHash) := head.getD (0, zeroHash)
  { sequence := lastSequence + 1
    previousHash := lastHash
    recordHash := hashRecord P (lastSequence + 1) lastHash event.toJson.toBytes
    event }

/-! ### Tables -/

/-- The key under which approvals are consumed. -/
structure ApprovalKey where
  requestId : String
  envelopeDigest : Digest32
  deriving DecidableEq

/-- The tables of the ledger: records in the order of their sequence, the
time at which each approval was consumed, and for each consumed approval its
recovery state with the time it was set. -/
structure Database where
  records : List AuditRecord := []
  consumptions : ApprovalKey → Option ℕ := fun _ => none
  executions : ApprovalKey → Option (ExecutionRecoveryState × ℕ) := fun _ => none

/-- The tables of a new ledger. -/
def Database.empty : Database := {}

/-- Times are bound to SQL statements as signed 64-bit integers. -/
def sqlInteger (value : ℕ) : Except AuditError ℕ :=
  if value < 2 ^ 63 then .ok value else .error .invalidSequence

theorem sqlInteger_eq_ok_iff {value result : ℕ} :
    sqlInteger value = .ok result ↔ value < 2 ^ 63 ∧ value = result := by
  unfold sqlInteger
  split <;> simp_all

namespace Database

variable (P : Primitives) (db : Database)

/-- The events of the records. -/
def events : List AuditEvent := db.records.map AuditRecord.event

/-- The insertion of `Ledger::append`. -/
def append (event : AuditEvent) : AuditRecord × Database :=
  let record := nextRecord P (chainHead db.records) event
  (record, { db with records := db.records ++ [record] })

/-- `Ledger::has_outcome_for`. -/
def hasOutcomeFor (key : ApprovalKey) (outcome : String) : Bool :=
  db.events.any fun event =>
    event.requestId = key.requestId && event.envelopeDigest = key.envelopeDigest &&
      event.outcome = outcome

/-- The rows both limiter queries select: writes that policy authorised for
an actor on a device, from a time on. -/
def isPolicyAutoWrite (actorId deviceId : String) (sinceUnixMs : ℕ) (event : AuditEvent) : Bool :=
  event.actorId = actorId && event.deviceId = deviceId && event.action = "filesystem.write" &&
    event.outcome = "auto" && event.authority = "policy" && sinceUnixMs ≤ event.timestampUnixMs

/-- `Ledger::count_policy_auto_writes_since`. -/
def countPolicyAutoWritesSince (actorId deviceId : String) (sinceUnixMs : ℕ) :
    Except AuditError ℕ := do
  let since ← sqlInteger sinceUnixMs
  let count := db.events.countP (isPolicyAutoWrite actorId deviceId since)
  if count < 2 ^ 32 then return count else throw .invalidSequence

/-- `Ledger::sum_policy_auto_write_bytes_since`. SQLite adds signed 64-bit
integers and reports an overflow; a value that does not fit is a real number,
which the query refuses to read back. -/
def sumPolicyAutoWriteBytesSince (actorId deviceId : String) (sinceUnixMs : ℕ) :
    Except AuditError ℕ := do
  let since ← sqlInteger sinceUnixMs
  let selected := db.events.filter (isPolicyAutoWrite actorId deviceId since)
  let bytes := (selected.map AuditEvent.contentBytes).sum
  if bytes < 2 ^ 63 then return bytes else throw .sqlite

/-- `INSERT OR IGNORE INTO approval_consumptions`. -/
def insertConsumption (key : ApprovalKey) (consumedAt : ℕ) : Database :=
  { db with
    consumptions := Function.update db.consumptions key
      (some ((db.consumptions key).getD consumedAt)) }

/-- `Ledger::claim_approval_consumed`: whether this call inserted the row. -/
def claimApprovalConsumed (key : ApprovalKey) (consumedAtUnixMs : ℕ) :
    Except AuditError (Bool × Database) := do
  let consumedAt ← sqlInteger consumedAtUnixMs
  if (db.consumptions key).isSome then return (false, db)
  failIf (db.executions key).isSome .sqlite
  let db := db.insertConsumption key consumedAt
  return (true, { db with
    executions := Function.update db.executions key (some (.notExecuted, consumedAt)) })

/-- `Ledger::set_execution_recovery_state`. -/
def setExecutionRecoveryState (key : ApprovalKey) (state : ExecutionRecoveryState)
    (updatedAtUnixMs : ℕ) : Except AuditError Database := do
  let (current, _) ← orFail (db.executions key) .missingExecutionState
  failIf (state.rank < current.rank) .invalidExecutionTransition
  let updatedAt ← sqlInteger updatedAtUnixMs
  return { db with executions := Function.update db.executions key (some (state, updatedAt)) }

variable {P db}

@[simp] theorem append_consumptions (event : AuditEvent) :
    (db.append P event).2.consumptions = db.consumptions := rfl

@[simp] theorem append_executions (event : AuditEvent) :
    (db.append P event).2.executions = db.executions := rfl

@[simp] theorem events_append (event : AuditEvent) :
    (db.append P event).2.events = db.events ++ [event] := by
  simp [append, events, nextRecord]

@[simp] theorem insertConsumption_events (key : ApprovalKey) (at' : ℕ) :
    (db.insertConsumption key at').events = db.events := rfl

/-- The row is there after the insertion, and rows that were there stay. -/
theorem insertConsumption_isSome {key key' : ApprovalKey} {at' : ℕ} :
    ((db.insertConsumption key at').consumptions key').isSome =
      (decide (key' = key) || (db.consumptions key').isSome) := by
  by_cases h : key' = key
  · subst h
    simp [insertConsumption]
  · simp [insertConsumption, h]

theorem hasOutcomeFor_iff {key : ApprovalKey} {outcome : String} :
    db.hasOutcomeFor key outcome = true ↔
      ∃ event ∈ db.events, event.requestId = key.requestId ∧
        event.envelopeDigest = key.envelopeDigest ∧ event.outcome = outcome := by
  simp [hasOutcomeFor, and_assoc]

/-- An outcome that has just been appended is found. -/
theorem hasOutcomeFor_append {event : AuditEvent} {key : ApprovalKey} {outcome : String}
    (hid : event.requestId = key.requestId) (hdigest : event.envelopeDigest = key.envelopeDigest)
    (hout : event.outcome = outcome) : (db.append P event).2.hasOutcomeFor key outcome = true :=
  hasOutcomeFor_iff.mpr ⟨event, by simp, hid, hdigest, hout⟩

/-- What a claim that returns leaves behind. -/
theorem claimApprovalConsumed_eq_ok {key : ApprovalKey} {at' : ℕ} {inserted : Bool}
    {db' : Database} (h : db.claimApprovalConsumed key at' = .ok (inserted, db')) :
    inserted = (db.consumptions key).isNone ∧ db'.records = db.records ∧
      ∀ key', (db'.consumptions key').isSome =
        (decide (key' = key) || (db.consumptions key').isSome) := by
  simp only [claimApprovalConsumed, bind_eq_ok, sqlInteger_eq_ok_iff] at h
  obtain ⟨_, ⟨_, rfl⟩, h⟩ := h
  split at h
  case isTrue hsome =>
      simp only [pure_eq_ok, Prod.mk.injEq] at h
      obtain ⟨rfl, rfl⟩ := h
      refine ⟨by simpa using hsome, rfl, fun key' => ?_⟩
      by_cases hk : key' = key
      · simp [hk, hsome]
      · simp [hk]
  case isFalse hnone =>
      simp only [bind_eq_ok, failIf_eq_ok, exists_unit, pure_eq_ok, Prod.mk.injEq] at h
      obtain ⟨_, rfl, rfl⟩ := h
      refine ⟨by simpa using hnone, rfl, fun key' => insertConsumption_isSome⟩

/-- When a claim inserts the row: both rows of the approval are missing and the
time fits. -/
theorem claimApprovalConsumed_inserts_iff {key : ApprovalKey} {at' : ℕ} :
    (∃ db', db.claimApprovalConsumed key at' = .ok (true, db')) ↔
      db.consumptions key = none ∧ db.executions key = none ∧ at' < 2 ^ 63 := by
  unfold claimApprovalConsumed
  cases hconsumed : db.consumptions key <;> cases hexecution : db.executions key <;>
    simp [sqlInteger_eq_ok_iff]

/-- The execution of a claimed approval starts as not executed. -/
theorem claimApprovalConsumed_executions {key : ApprovalKey} {at' : ℕ} {db' : Database}
    (h : db.claimApprovalConsumed key at' = .ok (true, db')) :
    db'.executions key = some (.notExecuted, at') := by
  simp only [claimApprovalConsumed, bind_eq_ok, sqlInteger_eq_ok_iff] at h
  obtain ⟨_, ⟨_, rfl⟩, h⟩ := h
  split at h
  · simp at h
  · simp only [bind_eq_ok, failIf_eq_ok, exists_unit, pure_eq_ok, Prod.mk.injEq] at h
    obtain ⟨_, _, rfl⟩ := h
    simp

/-- A recovery state that is not behind the current one is set. -/
theorem setExecutionRecoveryState_of_rank_le {key : ApprovalKey}
    {current state : ExecutionRecoveryState} {at' since : ℕ}
    (hrow : db.executions key = some (current, since)) (hrank : current.rank ≤ state.rank)
    (hat : at' < 2 ^ 63) :
    ∃ db', db.setExecutionRecoveryState key state at' = .ok db' := by
  refine ⟨{ db with executions := Function.update db.executions key (some (state, at')) }, ?_⟩
  simp only [setExecutionRecoveryState, hrow, orFail_some, ok_bind, bind_eq_ok, failIf_eq_ok,
    exists_unit, sqlInteger_eq_ok_iff, pure_eq_ok]
  exact ⟨by omega, at', ⟨hat, rfl⟩, rfl⟩

theorem setExecutionRecoveryState_eq_ok {key : ApprovalKey} {state : ExecutionRecoveryState}
    {at' : ℕ} {db' : Database} (h : db.setExecutionRecoveryState key state at' = .ok db') :
    db'.records = db.records ∧ db'.consumptions = db.consumptions := by
  simp only [setExecutionRecoveryState, bind_eq_ok, orFail_eq_ok, failIf_eq_ok, exists_unit,
    pure_eq_ok] at h
  obtain ⟨_, _, _, _, _, rfl⟩ := h
  exact ⟨rfl, rfl⟩

/-! ### Coherent tables -/

/-- An execution is only known of a consumed approval. -/
def Coherent (db : Database) : Prop :=
  ∀ key, (db.executions key).isSome → (db.consumptions key).isSome

theorem Coherent.claimApprovalConsumed (hdb : db.Coherent) {key : ApprovalKey} {at' : ℕ}
    {inserted : Bool} {db' : Database}
    (h : db.claimApprovalConsumed key at' = .ok (inserted, db')) : db'.Coherent := by
  simp only [Database.claimApprovalConsumed, bind_eq_ok, sqlInteger_eq_ok_iff] at h
  obtain ⟨_, ⟨_, rfl⟩, h⟩ := h
  split at h
  case isTrue =>
      obtain ⟨_, rfl⟩ := Prod.mk.inj (Except.ok.inj h)
      exact hdb
  case isFalse =>
      simp only [bind_eq_ok, failIf_eq_ok, exists_unit, pure_eq_ok, Prod.mk.injEq] at h
      obtain ⟨_, _, rfl⟩ := h
      intro key' hkey'
      change ((db.insertConsumption key at').consumptions key').isSome
      rw [insertConsumption_isSome]
      by_cases hk : key' = key
      · simp [hk]
      · have hold : (db.executions key').isSome := by simpa [hk, insertConsumption] using hkey'
        simp [hdb key' hold]

theorem Coherent.setExecutionRecoveryState (hdb : db.Coherent) {key : ApprovalKey}
    {state : ExecutionRecoveryState} {at' : ℕ} {db' : Database}
    (h : db.setExecutionRecoveryState key state at' = .ok db') : db'.Coherent := by
  simp only [Database.setExecutionRecoveryState, bind_eq_ok, orFail_eq_ok,
    failIf_eq_ok, exists_unit, pure_eq_ok] at h
  obtain ⟨⟨current, since⟩, hrow, _, _, _, rfl⟩ := h
  intro key' hkey'
  by_cases hk : key' = key
  · exact hdb key' (by simp [hk, hrow])
  · exact hdb key' (by simpa [hk] using hkey')

theorem Coherent.insertConsumption (hdb : db.Coherent) (key : ApprovalKey) (at' : ℕ) :
    (db.insertConsumption key at').Coherent := by
  intro key' hkey'
  rw [insertConsumption_isSome]
  simp [hdb key' hkey']

end Database

end VorCommander
