import VorCommander.Audit.History
import VorCommander.Audit.Serial

/-!
What many handles make of one ledger.

However the calls of any number of handles interleave, the records are one
chain with the numbers from one on, its events are those of the appends in the
order of their commits, and whenever no append is in progress both stores have
the same records and pass `verify_integrity`.
-/

namespace VorCommander

open Crypto Steps Steps.Program Steps.World Text

/-- The files while nobody else uses them, at one time. -/
def answersAt (nowUnixMs : ℕ) : Handler AuditIo AuditFiles where
  answer := AuditFiles.answer nowUnixMs

section Exec

variable {P : Primitives} {R : LedgerReader} {nowUnixMs : ℕ} {files : AuditFiles}

/-- `verify_integrity` alone comes to the conclusion of `verifyStores`. -/
theorem exec_verifyIntegrity :
    exec (answersAt nowUnixMs) (LedgerHandle.verifyIntegrity P R).run files =
      (verifyStores P R files.rows files.jsonl, files) := by
  simp only [LedgerHandle.verifyIntegrity, exec_exceptT_bind]
  have hrows : exec (answersAt nowUnixMs) AuditIo.selectRows.run files =
    (.ok files.rows, files) := rfl
  have hjsonl : exec (answersAt nowUnixMs) AuditIo.readJsonl.run files = (.ok files.jsonl, files) :=
    rfl
  rw [hrows, execThen_ok, verifyStores, exec_exceptT_bind, exec_check]
  cases checkRows P R zeroHash files.rows with
  | error e => rfl
  | ok dbRecords =>
      rw [execThen_ok, exec_exceptT_bind, hjsonl, execThen_ok, exec_exceptT_bind, exec_check]
      cases loadJsonlRecords R files.jsonl with
      | error e => rfl
      | ok fileRecords => rfl

end Exec

/-- The call is an append that has not returned. -/
def Appending {P : Primitives} {R : LedgerReader} (w : World (ledgerSystem P R)) (i : ℕ) : Prop :=
  ∃ c handle event, w.calls i = some c ∧ c.entry = LedgerEntry.append handle event ∧
    ∀ r, c.rest ≠ some (.done r)

/-- The ledger of a world is one chain of these records, which continues the
chain of the events it had in the beginning. -/
structure OneChain (P : Primitives) (R : LedgerReader) (initial : List AuditEvent)
    (w : World (ledgerSystem P R)) (records : List AuditRecord) : Prop where
  rows : w.shared.rows = records.map AuditRecord.toRow
  sequences : records.map AuditRecord.sequence = List.range' 1 records.length
  linked : Linked zeroHash records
  committed : records = chainOf P initial ++ (commits w.log).map fun entry => entry.2
  returned : ∀ i c handle event record handle', w.calls i = some c →
    c.entry = .append handle event → c.rest = some (.done (.appended (.ok (record, handle')))) →
      (commits w.log).filter (·.1 = i) = [(i, record)] ∧ record.event = event.val
  stores : (∀ i, ¬ Appending w i) → loadJsonlRecords R w.shared.jsonl = .ok records
  verified : (∀ i, ¬ Appending w i) → ∀ nowUnixMs,
    exec (answersAt nowUnixMs) (LedgerHandle.verifyIntegrity P R).run w.shared = (.ok (), w.shared)

section Chain

variable {P : Primitives} {R : LedgerReader} {initial : List AuditEvent}
  {w : World (ledgerSystem P R)}

theorem acquired_of_inside {h : History AuditIo} (hinside : Inside h) :
    ⟨.acquire, Except.ok ()⟩ ∈ h := by
  induction h using Inside.induct with
  | case1 => exact hinside.elim
  | case2 => exact List.mem_cons_self
  | case3 => exact hinside.elim
  | case4 e h hacquire hrelease ih =>
      rw [Inside] at hinside
      · exact List.mem_cons_of_mem e (ih hinside)
      · exact hacquire
      · exact hrelease

/-- A call that has the lock is an append in progress. -/
theorem appending_of_inside (hw : Reachable (IsLedger P initial) anyEntry w) {i : ℕ}
    (hinside : Inside (w.log.of i)) : Appending w i := by
  have hallowed : Allowed (fun _ => Steady) w.log :=
    hw.allowed fun history _ _ _ h => AuditFiles.Commits.steady h history
  have hmem := Log.mem_of.mp (acquired_of_inside hinside)
  obtain ⟨later, earlier, hlog⟩ := List.append_of_mem hmem
  obtain ⟨c, hc, hguarantee⟩ := hw.guarantee (guarantees_body P R) hallowed hlog
  cases hentry : c.entry with
  | openFiles =>
      rw [hentry] at hguarantee
      exact hguarantee.elim
  | verifyIntegrity =>
      rw [hentry] at hguarantee
      exact hguarantee.elim
  | append handle event =>
      refine ⟨c, handle, event, hc, hentry, fun r hr => ?_⟩
      have houtcome := hw.result (guarantees_body P R) hallowed hc hr
      exact houtcome.1 hinside

theorem fits_chainOf {events : List AuditEvent} (hfits : ∀ event ∈ events, event.Fits)
    (hsize : events.length < 2 ^ 63) : ∀ record ∈ chainOf P events, record.Fits :=
  fits_chainFrom hfits (by simpa using hsize)

/-- Many handles make one chain. -/
theorem one_chain (hR : R.Correct) (hw : Reachable (IsLedger P initial) anyEntry w) :
    ∃ records, OneChain P R initial w records := by
  have hserialized := (serialized_of_reachable hw).1
  have hallowed : Allowed (fun _ => Steady) w.log :=
    hw.allowed fun history _ _ _ h => AuditFiles.Commits.steady h history
  have hmax : maxRows < 2 ^ 63 := by decide
  have hsize : (ledgerEvents initial w.log).length < 2 ^ 63 := hserialized.size.trans_lt hmax
  have hstores : (∀ i, ¬ Appending w i) →
      loadJsonlRecords R w.shared.jsonl = .ok (chainOf P (ledgerEvents initial w.log)) := by
    intro hidle
    have hpending : pendingIn w.log = [] :=
      hserialized.quiet fun i hinside => hidle i (appending_of_inside hw hinside)
    have hfile := hserialized.file
    rw [hpending, List.append_nil] at hfile
    exact loadJsonlRecords_recordLines hR (fits_chainOf hserialized.fits hsize) hfile
  refine ⟨chainOf P (ledgerEvents initial w.log), ?_⟩
  constructor
  · exact hserialized.rows
  · rw [length_chainOf]
    exact sequence_chainFrom
  · exact @linked_chainFrom P (0, zeroHash) _
  · exact hserialized.chain
  · intro i c handle event record handle' hc hentry hr
    have houtcome := hw.result (guarantees_body P R) hallowed hc hr
    rw [hentry] at houtcome
    obtain ⟨-, hcommitted, hevent⟩ := houtcome
    rw [commits_filter, hcommitted]
    exact ⟨rfl, hevent⟩
  · exact hstores
  · intro hidle nowUnixMs
    have hverify := @exec_verifyIntegrity P R nowUnixMs w.shared
    rw [hserialized.rows,
      verifyStores_chainOf hR hserialized.fits hsize (hstores hidle)] at hverify
    exact hverify

end Chain

/-! ### A ledger with one append -/

namespace LedgerSample

/-- At time zero no lock is old. -/
theorem acquireLock_zero {lock lock' : Option (List UInt8)}
    (h : acquireLock 0 lock = (.ok (), lock')) : lock = none := by
  cases lock with
  | none => rfl
  | some content =>
      simp only [acquireLock] at h
      split at h
      · simp at h
      · simp at h
      · rw [if_neg (by rw [abandonedLockAge]; omega)] at h
        simp at h

/-- The time stands still, so that no lock is taken over. -/
theorem answers_sound : (answersAt 0).Sound (ledgerSystem reference .searching) := by
  intro files op
  refine ⟨fun hacquired => ?_, 0, rfl⟩
  obtain ⟨rfl, hreply⟩ := Event.mk.inj hacquired
  have hok : (acquireLock 0 files.lock).1 = .ok () := eq_of_heq hreply
  exact acquireLock_zero (Prod.ext hok rfl)

/-- A ledger without records. -/
def empty : AuditFiles where
  rows := []
  jsonl := none
  lock := none

theorem empty_isLedger : IsLedger reference [] empty where
  rows := rfl
  file := rfl
  lock := rfl
  size := by decide
  fits := by simp

def handle : LedgerHandle where
  lastSequence := 0
  lastHash := zeroHash

def event : FittingEvent := ⟨readEvent, readEvent_fits readEvent (List.mem_singleton.mpr rfl)⟩

/-- An append that runs alone. -/
noncomputable def appended : World (ledgerSystem reference .searching) :=
  (initial (S := ledgerSystem reference .searching) empty).after (answersAt 0) 0
    (.append handle event)

theorem appended_reachable : Reachable (IsLedger reference []) anyEntry appended :=
  (reachable_initial empty_isLedger).after answers_sound rfl trivial

end LedgerSample

/-- The ledger after one append. -/
theorem one_chain_appended :
    ∃ records, OneChain reference .searching [] LedgerSample.appended records :=
  one_chain LedgerReader.searching_correct LedgerSample.appended_reachable

end VorCommander
