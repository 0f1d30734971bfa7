import VorCommander.Device.Attempts
import VorCommander.Device.OneShot

/-!
What the recovery states mean.

After a crash the recovery state of an approval is all that is left of its
execution. It never moves backwards. Together with the order in which a call
moves it, hands the action to its worker and records the outcome, this makes
each state say something about the past: as long as it says that nothing was
executed no worker was invoked, once it says that there is an effect a worker
has returned, and when it says that the execution is complete the record of it
is in the ledger.
-/

namespace VorCommander

open Crypto Steps Steps.Program Steps.World Text DeviceEvent

/-! ### Rows -/

/-- Every execution that is known stays known, and has come at least as far. -/
def RanksGrow (db db' : Database) : Prop :=
  ∀ key state since, db.executions key = some (state, since) →
    ∃ state' since', db'.executions key = some (state', since') ∧ state.rank ≤ state'.rank

theorem RanksGrow.refl (db : Database) : RanksGrow db db :=
  fun _ state since hrow => ⟨state, since, hrow, le_rfl⟩

theorem RanksGrow.trans {db db' db'' : Database} (h : RanksGrow db db') (h' : RanksGrow db' db'') :
    RanksGrow db db'' := by
  intro key state since hrow
  obtain ⟨state', since', hrow', hle⟩ := h key state since hrow
  obtain ⟨state'', since'', hrow'', hle'⟩ := h' key state' since' hrow'
  exact ⟨state'', since'', hrow'', hle.trans hle'⟩

namespace Database

variable {db db' : Database} {key : ApprovalKey}

/-- A claim adds at most the row of a new execution. -/
theorem claimApprovalConsumed_rows {at' : ℕ} {inserted : Bool}
    (h : db.claimApprovalConsumed key at' = .ok (inserted, db')) :
    db'.executions = db.executions ∨ db.executions key = none ∧
      db'.executions = Function.update db.executions key (some (.notExecuted, at')) := by
  simp only [claimApprovalConsumed, bind_eq_ok, sqlInteger_eq_ok_iff] at h
  obtain ⟨_, ⟨_, rfl⟩, h⟩ := h
  split at h
  · obtain ⟨_, rfl⟩ := Prod.mk.inj (Except.ok.inj h)
    exact .inl rfl
  · simp only [bind_eq_ok, failIf_eq_ok, exists_unit, pure_eq_ok, Prod.mk.injEq] at h
    obtain ⟨hnone, _, rfl⟩ := h
    exact .inr ⟨by simpa using hnone, rfl⟩

/-- A move of a recovery state replaces one row, and not by an earlier
state. -/
theorem setExecutionRecoveryState_rows {state : ExecutionRecoveryState} {at' : ℕ}
    (h : db.setExecutionRecoveryState key state at' = .ok db') :
    ∃ current since, db.executions key = some (current, since) ∧ current.rank ≤ state.rank ∧
      db'.executions = Function.update db.executions key (some (state, at')) := by
  simp only [setExecutionRecoveryState, bind_eq_ok, orFail_eq_ok, failIf_eq_ok, exists_unit,
    sqlInteger_eq_ok_iff, pure_eq_ok] at h
  obtain ⟨⟨current, since⟩, hrow, hrank, _, ⟨_, rfl⟩, rfl⟩ := h
  exact ⟨current, since, hrow, not_lt.mp hrank, rfl⟩

end Database

section Commits

variable {P : Primitives} {db db' : Database} {op : DeviceOp} {reply : op.Reply}

/-- What one operation does to the rows: nothing, or it adds a row, or it moves
a state forward. -/
theorem DeviceOp.Commits.rows (h : op.Commits P db reply db') :
    db'.executions = db.executions ∨
    (∃ key at', db.executions key = none ∧
      db'.executions = Function.update db.executions key (some (.notExecuted, at'))) ∨
    ∃ key state at' current since, op = .setExecutionRecoveryState key state at' ∧
      db.executions key = some (current, since) ∧ current.rank ≤ state.rank ∧
      db'.executions = Function.update db.executions key (some (state, at')) := by
  rcases h.effect with rfl | heffect
  · exact .inl rfl
  cases op with
  | append event =>
      obtain rfl := Option.some.inj heffect
      exact .inl rfl
  | claimApprovalConsumed key at' =>
      obtain ⟨⟨inserted, _⟩, hclaim, rfl⟩ := Option.map_eq_some_iff.mp heffect
      rcases Database.claimApprovalConsumed_rows (toOption_eq_some.mp hclaim) with hsame | hnew
      · exact .inl hsame
      · exact .inr (.inl ⟨key, at', hnew⟩)
  | setExecutionRecoveryState key state at' =>
      obtain ⟨current, since, hrow, hrank, hset⟩ :=
        Database.setExecutionRecoveryState_rows (toOption_eq_some.mp heffect)
      exact .inr (.inr ⟨key, state, at', current, since, rfl, hrow, hrank, hset⟩)
  | insertConsumption key at' =>
      obtain rfl := Option.some.inj heffect
      exact .inl rfl
  | _ => cases heffect

theorem DeviceOp.Commits.ranksGrow (h : op.Commits P db reply db') : RanksGrow db db' := by
  intro key state since hrow
  rcases h.rows with hsame | ⟨key', at', hnone, hnew⟩ |
    ⟨key', state', at', current, since', _, hcurrent, hrank, hset⟩
  · exact ⟨state, since, by rw [hsame, hrow], le_rfl⟩
  · have hne : key ≠ key' := by
      rintro rfl
      rw [hnone] at hrow
      cases hrow
    exact ⟨state, since, by rw [hnew, Function.update_of_ne hne, hrow], le_rfl⟩
  · by_cases hkey : key = key'
    · subst hkey
      obtain ⟨rfl, rfl⟩ := Prod.mk.inj (Option.some.inj (hrow.symm.trans hcurrent))
      exact ⟨state', at', by rw [hset, Function.update_self], hrank⟩
    · exact ⟨state, since, by rw [hset, Function.update_of_ne hkey, hrow], le_rfl⟩

/-- A move that succeeds is the row it leaves. -/
theorem DeviceOp.Commits.moved {key : ApprovalKey} {state : ExecutionRecoveryState} {now : ℕ}
    (h : (DeviceOp.setExecutionRecoveryState key state now).Commits P db (Except.ok ()) db') :
    db'.executions key = some (state, now) := by
  have hmap : (db.setExecutionRecoveryState key state now).map (fun db' => ((), db')) =
      .ok ((), db') := h
  cases hset : db.setExecutionRecoveryState key state now with
  | error e => simp [hset, Except.map] at hmap
  | ok db₁ =>
      obtain rfl : db₁ = db' := by simpa [hset, Except.map] using hmap
      obtain ⟨_, _, _, _, hrows⟩ := Database.setExecutionRecoveryState_rows hset
      rw [hrows, Function.update_self]

end Commits

/-! ### Rows and the log -/

/-- What the rows know of the log: a state that was set is not behind in its
row, and a row is new or was set to its state by some call. -/
structure RecoveryInvariant (db : Database) (log : Log Device) : Prop where
  moved : ∀ i key state now, (i, moved key state now) ∈ log →
    ∃ state' since, db.executions key = some (state', since) ∧ state.rank ≤ state'.rank
  set : ∀ key state since, db.executions key = some (state, since) → state ≠ .notExecuted →
    ∃ i now reply, (i, ⟨.setExecutionRecoveryState key state now, reply⟩) ∈ log

theorem recoveryInvariant_initial : RecoveryInvariant .empty [] where
  moved := by simp
  set := by simp [Database.empty]

theorem RecoveryInvariant.step {P : Primitives} {db db' : Database} {log : Log Device}
    (hJ : RecoveryInvariant db log) (i : ℕ) {e : Event Device}
    (h : e.op.Commits P db e.reply db') : RecoveryInvariant db' ((i, e) :: log) where
  moved := by
    intro j key state now hmem
    rcases List.mem_cons.mp hmem with heq | hmem
    · obtain ⟨rfl, rfl⟩ := Prod.mk.inj heq
      exact ⟨state, now, DeviceOp.Commits.moved h, le_rfl⟩
    · obtain ⟨state', since, hrow, hle⟩ := hJ.moved j key state now hmem
      obtain ⟨state'', since', hrow', hle'⟩ := h.ranksGrow key state' since hrow
      exact ⟨state'', since', hrow', hle.trans hle'⟩
  set := by
    intro key state since hrow hstate
    have hold : db.executions key = some (state, since) → ∃ j now reply,
        (j, ⟨.setExecutionRecoveryState key state now, reply⟩) ∈ (i, e) :: log := by
      intro hrow'
      obtain ⟨j, now, reply, hmem⟩ := hJ.set key state since hrow' hstate
      exact ⟨j, now, reply, List.mem_cons_of_mem _ hmem⟩
    rcases h.rows with hsame | ⟨key', at', _, hnew⟩ |
      ⟨key', state', at', current, since', hop, _, _, hset⟩
    · exact hold (hsame ▸ hrow)
    · rw [hnew] at hrow
      by_cases hkey : key = key'
      · -- a new row says that nothing was executed
        subst hkey
        rw [Function.update_self] at hrow
        exact absurd (Prod.mk.inj (Option.some.inj hrow)).1.symm hstate
      · exact hold (by rwa [Function.update_of_ne hkey] at hrow)
    · rw [hset] at hrow
      by_cases hkey : key = key'
      · subst hkey
        rw [Function.update_self] at hrow
        obtain ⟨rfl, rfl⟩ := Prod.mk.inj (Option.some.inj hrow)
        obtain ⟨op, reply⟩ := e
        obtain rfl : op = _ := hop
        exact ⟨i, _, reply, List.mem_cons_self⟩
      · exact hold (by rwa [Function.update_of_ne hkey] at hrow)

/-- The processes that take a signed approval or open the ledger. -/
def Start.isApproved : Start → Prop
  | .dispatch _ job _ => job.isApproved
  | .openLedger => True

section Reachable

variable {L : Libraries} {init : Database → Prop} {mayStart : World (deviceSystem L) → Start → Prop}
  {w w' : World (deviceSystem L)}

theorem recoveryInvariant_reachable (hw : Reachable freshLedger mayStart w) :
    RecoveryInvariant w.shared w.log := by
  refine hw.invariant (J := fun (s : Database) log => RecoveryInvariant s log) ?_ ?_
  · rintro s rfl
    exact recoveryInvariant_initial
  · exact fun _ _ i _ _ hJ h => hJ.step i h

/-- Along a run no state moves backwards. -/
theorem ranksGrow_run (hrun : Relation.ReflTransGen (Step mayStart) w w') :
    RanksGrow w.shared w'.shared := by
  induction hrun with
  | refl => exact .refl _
  | tail _ hstep ih =>
      refine ih.trans ?_
      cases hstep with
      | start _ _ => exact .refl _
      | commit _ _ hcommit => exact DeviceOp.Commits.ranksGrow hcommit
      | crash _ => exact .refl _

/-- Only approved requests are dispatched, and ledgers opened. -/
def approvedOnly (_ : World (deviceSystem L)) (entry : Start) : Prop := entry.isApproved

theorem approvedOnly_reachable (hw : Reachable init approvedOnly w) {i : ℕ}
    {c : Call (deviceSystem L)} (hc : w.calls i = some c) : c.entry.isApproved :=
  hw.entry (P := fun (entry : Start) _ => entry.isApproved) (fun _ _ _ h => h)
    (fun _ _ _ _ h => h) hc

/-- What each recovery state says about the past. -/
structure RecoverySound (w : World (deviceSystem L)) : Prop where
  notExecuted : ∀ key since, w.shared.executions key = some (.notExecuted, since) →
    ∀ i e authorization, (i, e) ∈ w.log → attempted e = some authorization →
      authorization.request.key ≠ key
  effectApplied : ∀ key state since, w.shared.executions key = some (state, since) →
    ExecutionRecoveryState.effectApplied.rank ≤ state.rank →
    ∃ i d execution output, (i, executed d execution output) ∈ w.log ∧
      execution.authorization.request.key = key
  completed : ∀ key since, w.shared.executions key = some (.completed, since) →
    ∃ event ∈ w.shared.events, event.requestId = key.requestId ∧
      event.envelopeDigest = key.envelopeDigest ∧ event.outcome = "executed"

/-- In a run of approved requests, a request whose state says that nothing was
executed has reached no worker. -/
theorem notExecuted_of_reachable (hw : Reachable freshLedger approvedOnly w) {key : ApprovalKey}
    {since : ℕ} (hrow : w.shared.executions key = some (.notExecuted, since)) {i : ℕ}
    {e : Event Device} {authorization : Authorization} (hmem : (i, e) ∈ w.log)
    (he : attempted e = some authorization) : authorization.request.key ≠ key := by
  rintro rfl
  obtain ⟨later, earlier, hlog⟩ := List.append_of_mem hmem
  obtain ⟨c, hc, hguarantee⟩ := recovery_guaranteed hw hlog
  have happroved := approvedOnly_reachable hw hc
  obtain ⟨op, reply⟩ := e
  cases hentry : c.entry with
  | openLedger =>
      rw [hentry] at hguarantee
      rw [attempted_of_isQuiet hguarantee] at he
      cases he
  | dispatch d job now =>
      rw [hentry] at hguarantee happroved
      cases op with
      | executeAuthorized d' authorization' => exact hguarantee happroved
      | executeApproved d' execution =>
          -- the state was moved before the worker was invoked, and has not gone back
          obtain rfl := Option.some.inj he
          obtain ⟨now', hmoved⟩ := hguarantee
          have hmoved' : (i, moved execution.authorization.request.key .effectUncertain now') ∈
              w.log := by
            rw [hlog]
            exact List.mem_append_right _ (List.mem_cons_of_mem _ (Log.mem_of.mp hmoved))
          obtain ⟨state', since', hrow', hle⟩ :=
            (recoveryInvariant_reachable hw).moved i _ _ _ hmoved'
          obtain ⟨rfl, rfl⟩ := Prod.mk.inj (Option.some.inj (hrow.symm.trans hrow'))
          exact absurd hle (by decide)
      | _ => cases he

/-- What the call that has set a state had done before. -/
theorem set_guaranteed (hw : Reachable freshLedger mayStart w) {key : ApprovalKey}
    {state : ExecutionRecoveryState} {since : ℕ}
    (hrow : w.shared.executions key = some (state, since)) (hstate : state ≠ .notExecuted) :
    ∃ (later earlier : Log Device) (i : ℕ) (e : Event Device), w.log = later ++ (i, e) :: earlier ∧
      (ExecutionRecoveryState.effectApplied.rank ≤ state.rank → Succeeded (earlier.of i) key) ∧
      (state = .completed → ExecutionRecorded (earlier.of i) key) := by
  obtain ⟨i, now, reply, hmem⟩ := (recoveryInvariant_reachable hw).set key state since hrow hstate
  obtain ⟨later, earlier, hlog⟩ := List.append_of_mem hmem
  obtain ⟨c, _, hguarantee⟩ := recovery_guaranteed hw hlog
  cases hentry : c.entry with
  | openLedger =>
      rw [hentry] at hguarantee
      cases hguarantee
  | dispatch d job now =>
      rw [hentry] at hguarantee
      exact ⟨later, earlier, i, _, hlog, hguarantee.2⟩

/-- In every state of every run of approved requests and reopened ledgers, each
recovery state is true of the past, and none has moved backwards since. -/
theorem recoverySound_of_reachable (hw : Reachable freshLedger approvedOnly w) :
    RecoverySound w ∧
      ∀ w', Relation.ReflTransGen (Step approvedOnly) w w' → RanksGrow w.shared w'.shared := by
  refine ⟨⟨fun key since hrow i e authorization => notExecuted_of_reachable hw hrow, ?_, ?_⟩,
    fun w' hrun => ranksGrow_run hrun⟩
  · intro key state since hrow hrank
    have hstate : state ≠ .notExecuted := by
      rintro rfl
      exact absurd hrank (by decide)
    obtain ⟨later, earlier, i, e, hlog, hsucceeded, _⟩ := set_guaranteed hw hrow hstate
    obtain ⟨d, execution, output, hmem, hkey⟩ := hsucceeded hrank
    refine ⟨i, d, execution, output, ?_, hkey⟩
    rw [hlog]
    exact List.mem_append_right _ (List.mem_cons_of_mem _ (Log.mem_of.mp hmem))
  · intro key since hrow
    obtain ⟨later, earlier, i, e, hlog, _, hrecorded⟩ := set_guaranteed hw hrow (by decide)
    obtain ⟨event, ⟨record, hmem⟩, hkey⟩ := hrecorded rfl
    refine ⟨event, (ledgerInvariant_reachable hw).recorded i event record ?_, hkey⟩
    rw [hlog]
    exact List.mem_append_right _ (List.mem_cons_of_mem _ (Log.mem_of.mp hmem))

end Reachable

/-- A run in which a worker has been invoked for the termination. -/
theorem recoverySound_termination :
    let w := Sample.dispatched ∅ Sample.terminationPolicy Sample.terminationJob
    (∃ i e authorization, (i, e) ∈ w.log ∧ attempted e = some authorization ∧
      authorization.request = Sample.termination) ∧
    RecoverySound w ∧
      ∀ w', Relation.ReflTransGen (Step approvedOnly) w w' → RanksGrow w.shared w'.shared := by
  intro w
  obtain ⟨execution, reply, hrequest, hmem⟩ := Sample.termination_executed
  refine ⟨⟨0, _, _, hmem, rfl, hrequest⟩, recoverySound_of_reachable ?_⟩
  exact reachable_called Sample.surroundings (Sample.dispatcher Sample.terminationPolicy)
    Sample.terminationJob 10 (reachable_initial rfl) rfl trivial

end VorCommander
