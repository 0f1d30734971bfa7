import VorCommander.Device.Guarantee
import VorCommander.Steps.Schedule

/-!
Runs of any number of dispatchers on one ledger.

A process calls an entry point of a dispatcher or opens the ledger, which
migrates consumptions from the audit records. `LedgerInvariant` connects the
tables with the log of what has been done, and `Reachable.guaranteed` is what
the results about runs start from.
-/

namespace VorCommander

open Crypto Steps Steps.Program Steps.World DeviceEvent

/-- What a process can start. -/
inductive Start
  | dispatch (d : Dispatcher) (job : Job) (nowUnixMs : ℕ)
  | openLedger

/-- What a process ends with. -/
inductive Finish
  | dispatched (result : Except DispatchError V1.ActionResult)
  | opened (result : Except AuditError Unit)

/-- The programs of all processes over the shared ledger. -/
def deviceSystem (L : Libraries) : System Device where
  State := Database
  Entry := Start
  Result := Finish
  body
    | .dispatch d job now => .dispatched <$> (job.program L d now).run
    | .openLedger => .opened <$> Ledger.migrateApprovalConsumptions.run
  Commit db e db' := e.op.Commits L.toPrimitives db e.reply db'

/-- A ledger that has just been created. -/
def freshLedger (db : Database) : Prop := db = .empty

variable {L : Libraries}

/-! ### What each process guarantees -/

/-- A dispatcher gives its guarantee; opening the ledger only keeps books. -/
def Start.Guarantee (L : Libraries) : Start → History Device → DeviceOp → Prop
  | .dispatch d job now, h, op => VorCommander.Guarantee L.toPrimitives d now job h op
  | .openLedger, _, op => op.isBookkeeping

/-- No call is refused for want of a prepared approval. -/
def Start.Finishes : Start → History Device → Finish → Prop
  | _, _, .dispatched result => Dispatch.FindsPreparation result
  | _, _, .opened _ => True

theorem Ledger.migrateEvents_safe {h : History Device} (events : List AuditEvent) :
    Safe (I := Device) (Honest L.toPrimitives) (fun _ op => op.isBookkeeping)
      (fun _ _ => True) (events.forM Ledger.migrateEvent).run h := by
  induction events generalizing h with
  | nil => simp
  | cons event events ih =>
      simp only [List.forM, safe_exceptT_bind]
      rw [Ledger.migrateEvent]
      split
      case isFalse => simpa only [safe_exceptT_pure, then_ok] using ih
      case isTrue =>
          simp only [safe_exceptT_bind, safe_check]
          rcases sqlInteger event.timestampUnixMs with e | consumedAt
          · simp
          simp only [then_ok, safe_insertConsumption]
          refine ⟨rfl, ?_⟩
          rintro (e | _) _
          · simp
          · exact ih

theorem Ledger.migrateApprovalConsumptions_safe :
    Safe (I := Device) (Honest L.toPrimitives) (fun _ op => op.isBookkeeping)
      (fun _ _ => True) Ledger.migrateApprovalConsumptions.run [] := by
  unfold Ledger.migrateApprovalConsumptions
  simp only [safe_exceptT_bind, safe_selectEvents]
  refine ⟨rfl, ?_⟩
  rintro (e | events) _
  · simp
  · exact Ledger.migrateEvents_safe events

/-- Every process keeps its guarantee. -/
theorem Start.safe (L : Libraries) (entry : Start) :
    Safe (I := Device) (Honest L.toPrimitives) (entry.Guarantee L) entry.Finishes
      ((deviceSystem L).body entry) [] := by
  cases entry with
  | dispatch d job now =>
      simp only [deviceSystem, safe_map]
      exact (job.program_safe L d now)
  | openLedger =>
      simp only [deviceSystem, safe_map]
      exact Ledger.migrateApprovalConsumptions_safe

/-! ### What one operation does to the tables -/

/-- The tables an operation leaves when it has an effect on them. -/
def DeviceOp.effect (P : Primitives) (db : Database) : DeviceOp → Option Database
  | .append event => some (db.append P event).2
  | .claimApprovalConsumed key at' => (db.claimApprovalConsumed key at').toOption.map Prod.snd
  | .setExecutionRecoveryState key state at' =>
    (db.setExecutionRecoveryState key state at').toOption
  | .insertConsumption key at' => some (db.insertConsumption key at')
  | _ => none

section Commits

variable {P : Primitives} {db db' : Database} {op : DeviceOp} {reply : op.Reply}
  {key : ApprovalKey}

theorem transacts.attempted {α : Type} {reply : Except AuditError α}
    {attempted : Except AuditError (α × Database)} (h : transacts db reply db' attempted) :
    db' = db ∨ attempted.toOption.map Prod.snd = some db' := by
  cases reply with
  | ok a =>
      have hok : attempted = .ok (a, db') := h
      exact .inr (by simp [hok, Except.toOption])
  | error e =>
      rcases h with rfl | ⟨a, hok⟩
      · exact .inl rfl
      · exact .inr (by simp [hok, Except.toOption])

/-- An operation has its effect or none, whatever it replies. -/
theorem DeviceOp.Commits.effect (h : op.Commits P db reply db') :
    db' = db ∨ op.effect P db = some db' := by
  cases op with
  | append event => exact transacts.attempted h
  | claimApprovalConsumed key at' => exact transacts.attempted h
  | insertConsumption key at' => exact transacts.attempted h
  | setExecutionRecoveryState key state at' =>
      refine (transacts.attempted h).imp_right fun hsome => ?_
      simp only [Option.map_eq_some_iff, toOption_eq_some] at hsome
      obtain ⟨⟨_, _⟩, hset, rfl⟩ := hsome
      cases hdb : db.setExecutionRecoveryState key state at' with
      | error e => simp [hdb, Except.map] at hset
      | ok db₁ => simp_all [DeviceOp.effect, Except.map]
  | prepareEdit => exact .inl h
  | _ => exact .inl h.1

/-- The records only change by an append. -/
theorem DeviceOp.Commits.events (h : op.Commits P db reply db') :
    db'.events = db.events ∨
      ∃ event, op = .append event ∧ db'.events = db.events ++ [event] := by
  rcases h.effect with rfl | heffect
  · exact .inl rfl
  cases op with
  | append event =>
      obtain rfl := Option.some.inj heffect
      exact .inr ⟨event, rfl, Database.events_append event⟩
  | claimApprovalConsumed key at' =>
      obtain ⟨⟨inserted, _⟩, hclaim, rfl⟩ := Option.map_eq_some_iff.mp heffect
      have hrecords := (Database.claimApprovalConsumed_eq_ok (toOption_eq_some.mp hclaim)).2.1
      exact .inl (by rw [Database.events, hrecords, Database.events])
  | setExecutionRecoveryState key state at' =>
      have hrecords :=
        (Database.setExecutionRecoveryState_eq_ok (toOption_eq_some.mp heffect)).1
      exact .inl (by rw [Database.events, hrecords, Database.events])
  | insertConsumption key at' =>
      obtain rfl := Option.some.inj heffect
      exact .inl rfl
  | _ => cases heffect

/-- A consumption is never taken back. -/
theorem DeviceOp.Commits.consumed (h : op.Commits P db reply db')
    (hkey : (db.consumptions key).isSome) : (db'.consumptions key).isSome := by
  rcases h.effect with rfl | heffect
  · exact hkey
  cases op with
  | append event =>
      obtain rfl := Option.some.inj heffect
      exact hkey
  | claimApprovalConsumed key' at' =>
      obtain ⟨⟨inserted, _⟩, hclaim, rfl⟩ := Option.map_eq_some_iff.mp heffect
      have hrows := (Database.claimApprovalConsumed_eq_ok (toOption_eq_some.mp hclaim)).2.2
      simp [hrows, hkey]
  | setExecutionRecoveryState key' state at' =>
      rw [(Database.setExecutionRecoveryState_eq_ok (toOption_eq_some.mp heffect)).2]
      exact hkey
  | insertConsumption key' at' =>
      obtain rfl := Option.some.inj heffect
      simp [Database.insertConsumption_isSome, hkey]
  | _ => cases heffect

/-- A claim that succeeds has inserted a row that was not there. -/
theorem DeviceOp.Commits.claimed {now : ℕ}
    (h : (DeviceOp.claimApprovalConsumed key now).Commits P db (Except.ok true) db') :
    db.consumptions key = none ∧ (db'.consumptions key).isSome := by
  obtain ⟨hinserted, _, hrows⟩ := Database.claimApprovalConsumed_eq_ok h
  exact ⟨Option.isNone_iff_eq_none.mp hinserted.symm, by simp [hrows]⟩

/-- An append that succeeds has appended. -/
theorem DeviceOp.Commits.appended {event : AuditEvent} {record : AuditRecord}
    (h : (DeviceOp.append event).Commits P db (Except.ok record) db') :
    db'.events = db.events ++ [event] := by
  obtain rfl := congrArg Prod.snd (Except.ok.inj h)
  exact Database.events_append event

end Commits

/-! ### The ledger and the log -/

/-- What the tables know of the log: an append that returned is in the
records, a claim that returned is in the table of consumptions and was made by
one call only, and every reply was an honest one. -/
structure LedgerInvariant (P : Primitives) (db : Database) (log : Log Device) : Prop where
  recorded : ∀ i event record, (i, appended event record) ∈ log → event ∈ db.events
  consumed : ∀ i key now, (i, claimed key now) ∈ log → (db.consumptions key).isSome
  claimedOnce : ∀ i j key now now', (i, claimed key now) ∈ log → (j, claimed key now') ∈ log →
    i = j
  honest : Allowed (fun _ => Honest P) log

theorem ledgerInvariant_initial (P : Primitives) (db : Database) : LedgerInvariant P db [] where
  recorded := by simp
  consumed := by simp
  claimedOnce := by simp
  honest := trivial

/-- The reply of an operation is honest to the call that asked. -/
theorem LedgerInvariant.honest_reply {P : Primitives} {db db' : Database} {log : Log Device}
    (hJ : LedgerInvariant P db log) (i : ℕ) {e : Event Device}
    (h : e.op.Commits P db e.reply db') : Honest P (log.of i) e := by
  obtain ⟨op, reply⟩ := e
  cases op with
  | hasOutcomeFor key outcome =>
      rintro event ⟨record, hrec⟩ hid hdigest hout rfl
      have hmem := hJ.recorded i event record (Log.mem_of.mp hrec)
      have hfalse := Except.ok.inj (h.2 false rfl)
      have htrue : db.hasOutcomeFor key outcome = true :=
        Database.hasOutcomeFor_iff.mpr ⟨event, hmem, hid, hdigest, hout⟩
      simp [htrue] at hfalse
  | evaluate => exact h.2
  | verifyApproval => exact h.2
  | issueChallenge => exact h.2
  | executeAuthorized => exact h.2
  | executeApproved => exact h.2
  | _ => trivial

/-- One operation keeps the invariant. -/
theorem LedgerInvariant.step {P : Primitives} {db db' : Database} {log : Log Device}
    (hJ : LedgerInvariant P db log) (i : ℕ) {e : Event Device}
    (h : e.op.Commits P db e.reply db') : LedgerInvariant P db' ((i, e) :: log) where
  recorded := by
    rintro j event record hmem
    rcases List.mem_cons.mp hmem with heq | hmem
    · obtain ⟨rfl, rfl⟩ := Prod.mk.inj heq
      rw [DeviceOp.Commits.appended h]
      simp
    · have hold := hJ.recorded j event record hmem
      rcases h.events with heq | ⟨_, _, heq⟩ <;> simp [heq, hold]
  consumed := by
    rintro j key now hmem
    rcases List.mem_cons.mp hmem with heq | hmem
    · obtain ⟨rfl, rfl⟩ := Prod.mk.inj heq
      exact (DeviceOp.Commits.claimed h).2
    · exact h.consumed (hJ.consumed j key now hmem)
  claimedOnce := by
    -- a second claim of a key would find the row of the first
    rintro j k key now now' hj hk
    rcases List.mem_cons.mp hj with heq | hold <;> rcases List.mem_cons.mp hk with heq' | hold'
    · exact (Prod.mk.inj heq).1.trans (Prod.mk.inj heq').1.symm
    · obtain ⟨rfl, rfl⟩ := Prod.mk.inj heq
      simpa [(DeviceOp.Commits.claimed h).1] using hJ.consumed k key now' hold'
    · obtain ⟨rfl, rfl⟩ := Prod.mk.inj heq'
      simpa [(DeviceOp.Commits.claimed h).1] using hJ.consumed j key now hold
    · exact hJ.claimedOnce j k key now now' hold hold'
  honest := ⟨hJ.honest_reply i h, hJ.honest⟩

section Reachable

variable {init : Database → Prop} {mayStart : World (deviceSystem L) → Start → Prop}
  {w : World (deviceSystem L)}

/-- The invariant holds in every run. -/
theorem ledgerInvariant_reachable (hw : Reachable init mayStart w) :
    LedgerInvariant L.toPrimitives w.shared w.log :=
  hw.invariant (fun s _ => ledgerInvariant_initial _ s) fun _ _ i _ _ hJ h => hJ.step i h

/-- Every operation of a run was guaranteed by the process that performed
it. -/
theorem guaranteed (hw : Reachable init mayStart w) {later earlier : Log Device} {i : ℕ}
    {e : Event Device} (hlog : w.log = later ++ (i, e) :: earlier) :
    ∃ c, w.calls i = some c ∧ c.entry.Guarantee L (earlier.of i) e.op :=
  hw.guarantee (Start.safe L) (ledgerInvariant_reachable hw).honest hlog

end Reachable

end VorCommander
