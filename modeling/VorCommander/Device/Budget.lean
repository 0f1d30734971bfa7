import VorCommander.Device.Soundness
import VorCommander.Steps.Window

/-!
The budget of automatic writes.

`authorize_at` counts the automatic writes of the last minute, adds up their
bytes, and appends the new authorisation in a later step. Brokers that share a
ledger can read the same numbers before either of them appends. As long as no
other automatic write of the same actor and device is appended between the
reads of a call and its own append, the budget holds for every minute,
whatever the clocks of the brokers say.
-/

namespace VorCommander

open Crypto Steps Steps.Program Steps.World Text DeviceEvent

/-- Any number of brokers under one policy on one ledger; what is started is
an authorisation of a request at a time. -/
def brokerSystem (P : Primitives) (policy : PolicyEngine) : System Device where
  State := Database
  Entry := ActionRequest × ℕ
  Result := Except CoreError Authorization
  body entry := (Broker.authorizeAt P policy entry.1 entry.2).run
  Commit db e db' := e.op.Commits P db e.reply db'

/-! ### What one call has read -/

namespace Broker

variable (policy : PolicyEngine)

/-- The call has read the count and the bytes of the minute before, and they
leave room for the write. -/
structure ReadBudget (h : History Device) (actorId deviceId : String) (nowUnixMs content : ℕ) :
    Prop where
  count : ∃ n, (⟨.countPolicyAutoWritesSince actorId deviceId (nowUnixMs - 60000), Except.ok n⟩ :
    Event Device) ∈ h ∧ n < policy.config.autoWrite.maxFilesPerMinute
  bytes : ∃ n, (⟨.sumPolicyAutoWriteBytesSince actorId deviceId (nowUnixMs - 60000), Except.ok n⟩ :
    Event Device) ∈ h ∧ saturatingAdd n content ≤ policy.config.autoWrite.maxBytesPerMinute

/-- The event of a write that policy has authorised. -/
def IsAutoWrite (event : AuditEvent) : Prop :=
  event.action = "filesystem.write" ∧ event.outcome = "auto" ∧ event.authority = "policy"

instance (event : AuditEvent) : Decidable (IsAutoWrite event) :=
  inferInstanceAs (Decidable (_ ∧ _ ∧ _))

/-- An automatic write is appended only with room in the budget. -/
def BudgetGuarantee (h : History Device) : DeviceOp → Prop
  | .append event => IsAutoWrite event →
      ReadBudget policy h event.actorId event.deviceId event.timestampUnixMs event.contentBytes
  | _ => True

variable {policy} {P : Primitives} {request : ActionRequest} {now : ℕ} {h : History Device}

theorem ReadBudget.cons {actorId deviceId : String} {content : ℕ} {e : Event Device}
    (hread : ReadBudget policy h actorId deviceId now content) :
    ReadBudget policy (e :: h) actorId deviceId now content where
  count := hread.count.imp fun _ => And.imp_left (List.mem_cons_of_mem _)
  bytes := hread.bytes.imp fun _ => And.imp_left (List.mem_cons_of_mem _)

/-- The limiter leaves a write automatic only if there is room for it. -/
theorem limitAutoWrites_reads (decision : PolicyDecision) :
    Safe (I := Device) (Honest P) (BudgetGuarantee policy)
      (fun h' r => ∀ limited, r = .ok limited → limited.kind = .auto →
        request.envelope.action = "filesystem.write" →
          limited = decision ∧
            ReadBudget policy h' request.envelope.actorId request.envelope.deviceId
            now (contentBytes request))
      (limitAutoWrites policy request decision now).run h := by
  unfold limitAutoWrites
  split
  case isFalse hnot =>
      rw [safe_exceptT_pure]
      intro limited hl hauto haction
      obtain rfl := Except.ok.inj hl
      exact absurd ⟨hauto, haction⟩ hnot
  case isTrue =>
      simp only [safe_exceptT_bind, safe_exceptT_adapt, safe_countPolicyAutoWritesSince]
      refine ⟨trivial, ?_⟩
      rintro (e | count) _
      · simp
      simp only [mapError_ok, then_ok, safe_exceptT_bind, safe_exceptT_adapt,
        safe_sumPolicyAutoWriteBytesSince]
      refine ⟨trivial, ?_⟩
      rintro (e | bytes) _
      · simp
      simp only [mapError_ok, then_ok, safe_exceptT_pure]
      intro limited hl hauto _
      obtain rfl := Except.ok.inj hl
      unfold rateLimited at hauto ⊢
      split at hauto
      case isTrue => cases hauto
      case isFalse hroom =>
          rw [if_neg hroom]
          rw [not_or, not_le, not_lt] at hroom
          exact ⟨rfl, ⟨count, List.mem_cons_of_mem _ List.mem_cons_self, hroom.1⟩,
            ⟨bytes, List.mem_cons_self, hroom.2⟩⟩

theorem outcomeOf_eq_auto {kind : PolicyDecisionKind} (h : outcomeOf kind = "auto") :
    kind = .auto := by
  cases kind <;> simp_all [outcomeOf]

/-- What an automatic write appends is the event of one. -/
theorem isAutoWrite_authorizationEvent {decision : PolicyDecision} (hauto : decision.kind = .auto)
    (haction : request.envelope.action = "filesystem.write")
    (hreason : decision.reasonCode ≠ "terminal_safe_list") :
    IsAutoWrite (authorizationEvent policy request decision now) := by
  simp [IsAutoWrite, authorizationEvent, outcomeOf, hauto, haction, hreason]

/-- `authorize_at` appends automatic writes within the budget it has read, and
returns one only if it has appended it. -/
theorem authorizeAt_budget :
    Safe (I := Device) (Honest P) (BudgetGuarantee policy)
      (fun h' r => ∀ authorization, r = .ok authorization → authorization.isAuto →
        request.envelope.action = "filesystem.write" →
          ∃ event, Recorded h' event ∧ IsAutoWrite event ∧
            event.actorId = request.envelope.actorId ∧ event.deviceId = request.envelope.deviceId ∧
            event.timestampUnixMs = now ∧ event.contentBytes = contentBytes request)
      (authorizeAt P policy request now).run h := by
  unfold authorizeAt
  simp only [safe_exceptT_bind, safe_check]
  cases request.verify P now with
  | error e => simp
  | ok _ =>
      simp only [mapError_ok, then_ok, safe_exceptT_bind, safe_evaluatePolicy]
      refine ⟨trivial, fun evaluated hevaluated => ?_⟩
      refine (limitAutoWrites_reads evaluated).mono ?_
      rintro h' (e | decision) hlimited
      · simp
      simp only [then_ok, safe_exceptT_bind, safe_exceptT_adapt, safe_append]
      refine ⟨fun hwrite => ?_, ?_⟩
      · exact (hlimited decision rfl (outcomeOf_eq_auto hwrite.2.1) hwrite.1).2
      rintro (e | record) _
      · simp
      simp only [mapError_ok, then_ok, safe_exceptT_pure]
      intro authorization hauth hauto haction
      obtain rfl := Except.ok.inj hauth
      obtain ⟨rfl, _⟩ := hlimited decision rfl hauto haction
      obtain ⟨host, hdecision⟩ : ∃ host, decision = policy.evaluate host request := hevaluated
      have hreason : decision.reasonCode ≠ "terminal_safe_list" := by
        rw [hdecision, PolicyEngine.evaluate_reasonCode]
        exact PolicyConfig.reason_of_write haction
      exact ⟨_, ⟨record, List.mem_cons_self⟩,
        isAutoWrite_authorizationEvent hauto haction hreason, rfl, rfl, rfl, rfl⟩

end Broker

/-! ### The log and the ledger -/

/-- The event an append that returned has appended. -/
def appendedEvent : Event Device → Option AuditEvent
  | ⟨.append event, .ok _⟩ => some event
  | _ => none

theorem appendedEvent_eq_some {e : Event Device} {event : AuditEvent}
    (h : appendedEvent e = some event) : ∃ record, e = appended event record := by
  obtain ⟨op, reply⟩ := e
  cases op with
  | append event' =>
      rcases reply with _ | record
      · cases h
      · obtain rfl := Option.some.inj h
        exact ⟨record, rfl⟩
  | _ => cases h

/-- The events of a log that have been appended, the newest first, each with
its call number. -/
def appendedEntries (log : Log Device) : List (ℕ × AuditEvent) :=
  log.filterMap fun entry => (appendedEvent entry.2).map (entry.1, ·)

theorem appendedEntries_append (log log' : Log Device) :
    appendedEntries (log ++ log') = appendedEntries log ++ appendedEntries log' := by
  simp [appendedEntries]

theorem appendedEntries_cons_appended (log : Log Device) (i : ℕ) (event : AuditEvent)
    (record : AuditRecord) :
    appendedEntries ((i, appended event record) :: log) = (i, event) :: appendedEntries log := by
  simp [appendedEntries, appendedEvent]

/-- The automatic writes of an actor on a device among them. -/
def autoEntries (actorId deviceId : String) (log : Log Device) : List (ℕ × AuditEvent) :=
  (appendedEntries log).filter fun entry =>
    Broker.IsAutoWrite entry.2 ∧ entry.2.actorId = actorId ∧ entry.2.deviceId = deviceId

theorem autoEntries_append (actorId deviceId : String) (log log' : Log Device) :
    autoEntries actorId deviceId (log ++ log') =
      autoEntries actorId deviceId log ++ autoEntries actorId deviceId log' := by
  simp [autoEntries, appendedEntries_append]

theorem mem_autoEntries {actorId deviceId : String} {log : Log Device} {i : ℕ}
    {event : AuditEvent} :
    (i, event) ∈ autoEntries actorId deviceId log ↔
      (∃ record, (i, appended event record) ∈ log) ∧ Broker.IsAutoWrite event ∧
        event.actorId = actorId ∧ event.deviceId = deviceId := by
  simp only [autoEntries, appendedEntries, List.mem_filter, List.mem_filterMap,
    Option.map_eq_some_iff, Prod.mk.injEq, decide_eq_true_eq]
  refine and_congr_left fun _ => ⟨?_, ?_⟩
  · rintro ⟨⟨j, e⟩, hmem, event', hevent, rfl, rfl⟩
    obtain ⟨record, rfl⟩ := appendedEvent_eq_some hevent
    exact ⟨record, hmem⟩
  · rintro ⟨record, hmem⟩
    exact ⟨_, hmem, event, rfl, rfl, rfl⟩

/-- The time of an entry. -/
def entryTime (entry : ℕ × AuditEvent) : ℕ := entry.2.timestampUnixMs

/-- The bytes of an entry. -/
def entryBytes (entry : ℕ × AuditEvent) : ℕ := entry.2.contentBytes

/-- What a read of the ledger reports is at least what the log has of it. -/
def ReadsAll (log : Log Device) : Event Device → Prop
  | ⟨.countPolicyAutoWritesSince actorId deviceId since, .ok n⟩ =>
      weightSince entryTime (fun _ => 1) (autoEntries actorId deviceId log) since ≤ n
  | ⟨.sumPolicyAutoWriteBytesSince actorId deviceId since, .ok n⟩ =>
      weightSince entryTime entryBytes (autoEntries actorId deviceId log) since ≤ n
  | _ => True

/-- Every read of a log reported all that was in the log before. -/
def Counted : Log Device → Prop
  | [] => True
  | (_, e) :: log => ReadsAll log e ∧ Counted log

theorem Counted.of_append {later log : Log Device} (h : Counted (later ++ log)) : Counted log := by
  induction later with
  | nil => exact h
  | cons entry later ih => exact ih h.2

/-- What has been appended is in the records in the same order, and every read
was of all of it. -/
structure BudgetInvariant (db : Database) (log : Log Device) : Prop where
  recorded : ((appendedEntries log).map Prod.snd).reverse.Sublist db.events
  counted : Counted log

/-- The entries since a time weigh at most as much as the records. -/
theorem BudgetInvariant.weightSince_le {db : Database} {log : Log Device}
    (hJ : BudgetInvariant db log) (weight : AuditEvent → ℕ)
    (actorId deviceId : String) (since : ℕ) :
    weightSince entryTime (fun entry => weight entry.2) (autoEntries actorId deviceId log) since ≤
      ((db.events.filter (Database.isPolicyAutoWrite actorId deviceId since)).map weight).sum := by
  have hlog : weightSince entryTime (fun entry => weight entry.2) (autoEntries actorId deviceId log)
      since = (((((appendedEntries log).map Prod.snd).reverse.filter
        (Database.isPolicyAutoWrite actorId deviceId since)).map weight)).sum := by
    rw [weightSince, autoEntries, List.filter_filter, List.filter_reverse, List.map_reverse,
      List.sum_reverse, List.filter_map, List.map_map]
    congr 2
    refine List.filter_congr fun entry _ => ?_
    rw [Bool.eq_iff_iff]
    simp only [Database.isPolicyAutoWrite, Function.comp, Bool.and_eq_true, decide_eq_true_eq]
    unfold entryTime Broker.IsAutoWrite
    tauto
  rw [hlog]
  exact ((hJ.recorded.filter _).map weight).sum_le_sum (by simp)

/-- One operation keeps the invariant. -/
theorem BudgetInvariant.step {P : Primitives} {db db' : Database} {log : Log Device}
    (hJ : BudgetInvariant db log) (i : ℕ) {e : Event Device}
    (h : e.op.Commits P db e.reply db') : BudgetInvariant db' ((i, e) :: log) where
  recorded := by
    cases happended : appendedEvent e with
    | none =>
        have hsame : appendedEntries ((i, e) :: log) = appendedEntries log := by
          simp [appendedEntries, happended]
        rw [hsame]
        rcases h.events with heq | ⟨event, _, heq⟩
        · rw [heq]
          exact hJ.recorded
        · rw [heq]
          exact hJ.recorded.trans (List.sublist_append_left _ _)
    | some event =>
        obtain ⟨record, rfl⟩ := appendedEvent_eq_some happended
        rw [appendedEntries_cons_appended, DeviceOp.Commits.appended h,
          List.map_cons, List.reverse_cons]
        exact hJ.recorded.append_right _
  counted := by
    refine ⟨?_, hJ.counted⟩
    obtain ⟨op, reply⟩ := e
    cases op with
    | countPolicyAutoWritesSince actorId deviceId since =>
        rcases reply with error | n
        · trivial
        have hcount := h.2 n rfl
        simp only [Database.countPolicyAutoWritesSince, bind_eq_ok, sqlInteger_eq_ok_iff] at hcount
        obtain ⟨_, ⟨_, rfl⟩, hcount⟩ := hcount
        split at hcount
        · obtain rfl := Except.ok.inj hcount
          refine (hJ.weightSince_le (fun _ => 1) actorId deviceId since).trans ?_
          simp [List.countP_eq_length_filter]
        · cases hcount
    | sumPolicyAutoWriteBytesSince actorId deviceId since =>
        rcases reply with error | n
        · trivial
        have hsum := h.2 n rfl
        simp only [Database.sumPolicyAutoWriteBytesSince, bind_eq_ok, sqlInteger_eq_ok_iff] at hsum
        obtain ⟨_, ⟨_, rfl⟩, hsum⟩ := hsum
        split at hsum
        · obtain rfl := Except.ok.inj hsum
          exact hJ.weightSince_le AuditEvent.contentBytes actorId deviceId since
        · cases hsum
    | _ => trivial

/-! ### Runs -/

/-- A read of the budget of an actor on a device. -/
def ReadsBudgetOf (actorId deviceId : String) : DeviceOp → Prop
  | .countPolicyAutoWritesSince actorId' deviceId' _ => actorId' = actorId ∧ deviceId' = deviceId
  | .sumPolicyAutoWriteBytesSince actorId' deviceId' _ => actorId' = actorId ∧ deviceId' = deviceId
  | _ => False

/-- Between a call's reads of a budget and its append of an automatic write,
nothing is appended that the budget is for. -/
def Undisturbed (log : Log Device) : Prop :=
  ∀ (later middle earlier : Log Device) i (read : Event Device) event record,
    log = later ++ (i, appended event record) :: (middle ++ (i, read) :: earlier) →
    Broker.IsAutoWrite event → ReadsBudgetOf event.actorId event.deviceId read.op →
    autoEntries event.actorId event.deviceId middle = []

/-- The bytes a call has read and those it appends fit into 64 bits, or the
limit is below what the sum saturates at. -/
def Unsaturated (policy : PolicyEngine) (log : Log Device) : Prop :=
  ∀ i actorId deviceId since n event record,
    (i, (⟨.sumPolicyAutoWriteBytesSince actorId deviceId since, Except.ok n⟩ : Event Device)) ∈
      log →
    (i, appended event record) ∈ log →
    n + event.contentBytes < 2 ^ 64 ∨ policy.config.autoWrite.maxBytesPerMinute < 2 ^ 64 - 1

/-- A single append disturbs nothing. -/
theorem undisturbed_of_length_le {log : Log Device} (h : (appendedEntries log).length ≤ 1) :
    Undisturbed log := by
  rintro later middle earlier i read event record rfl _ _
  have hmiddle : appendedEntries middle = [] := by
    simp only [appendedEntries_append, appendedEntries_cons_appended, List.length_append,
      List.length_cons] at h
    rw [← List.length_eq_zero_iff]
    omega
  rw [autoEntries, hmiddle, List.filter_nil]

section Runs

variable {P : Primitives} {policy : PolicyEngine} {init : Database → Prop}
  {mayStart : World (brokerSystem P policy) → ActionRequest × ℕ → Prop}
  {w : World (brokerSystem P policy)}

theorem budgetInvariant_reachable (hw : Reachable init mayStart w) :
    BudgetInvariant w.shared w.log :=
  hw.invariant (fun s _ => ⟨by simp [appendedEntries], trivial⟩) fun _ _ i _ _ hJ h => hJ.step i h

theorem honest_reachable (hw : Reachable init mayStart w) : Allowed (fun _ => Honest P) w.log :=
  (hw.invariant (J := LedgerInvariant P) (fun s _ => ledgerInvariant_initial P s)
    fun _ _ i _ _ hJ h => hJ.step i h).honest

/-- The call that appends an automatic write has read the budget. -/
theorem readBudget_of_log (hw : Reachable init mayStart w) {later earlier : Log Device} {i : ℕ}
    {event : AuditEvent} {record : AuditRecord}
    (hlog : w.log = later ++ (i, appended event record) :: earlier)
    (hauto : Broker.IsAutoWrite event) :
    Broker.ReadBudget policy (earlier.of i) event.actorId event.deviceId event.timestampUnixMs
      event.contentBytes := by
  obtain ⟨_, _, hguarantee⟩ := hw.guarantee (G := fun _ => Broker.BudgetGuarantee policy)
    (fun entry => Broker.authorizeAt_budget) (honest_reachable hw) hlog
  exact hguarantee hauto

/-- In an undisturbed run, what a call has read before it appends an automatic
write covers all automatic writes of the same actor and device. -/
theorem covered_of_read (hw : Reachable init mayStart w) (hcalm : Undisturbed w.log)
    {later earlier : Log Device} {i : ℕ} {event : AuditEvent} {record : AuditRecord}
    (hlog : w.log = later ++ (i, appended event record) :: earlier)
    (hauto : Broker.IsAutoWrite event) {read : Event Device} (hread : read ∈ earlier.of i)
    (hbudget : ReadsBudgetOf event.actorId event.deviceId read.op) :
    ∃ before, ReadsAll before read ∧
      autoEntries event.actorId event.deviceId earlier =
        autoEntries event.actorId event.deviceId before := by
  obtain ⟨middle, before, rfl⟩ := List.append_of_mem (Log.mem_of.mp hread)
  have hempty := hcalm later middle before i read event record hlog hauto hbudget
  have hcounted : Counted
    (later ++ (i, appended event record) :: (middle ++ (i, read) :: before)) :=
    hlog ▸ (budgetInvariant_reachable hw).counted
  have hreads : Counted ((i, read) :: before) := hcounted.of_append.2.of_append
  have hnothing : autoEntries event.actorId event.deviceId [(i, read)] = [] := by
    obtain ⟨op, reply⟩ := read
    cases op with
    | append => exact hbudget.elim
    | _ => rfl
  refine ⟨before, hreads.1, ?_⟩
  rw [autoEntries_append, hempty, List.nil_append, ← List.singleton_append, autoEntries_append,
    hnothing, List.nil_append]

/-- In an undisturbed run the automatic writes of an actor on a device keep
within both limits when they are appended. -/
theorem withinLimit_of_undisturbed (hw : Reachable init mayStart w) (hcalm : Undisturbed w.log)
    (hroom : Unsaturated policy w.log) (actorId deviceId : String) {later log : Log Device}
    (hlog : w.log = later ++ log) :
    WithinLimit 60000 policy.config.autoWrite.maxFilesPerMinute entryTime (fun _ => 1)
        (autoEntries actorId deviceId log) ∧
      WithinLimit 60000 policy.config.autoWrite.maxBytesPerMinute entryTime entryBytes
        (autoEntries actorId deviceId log) := by
  induction log generalizing later with
  | nil => exact ⟨trivial, trivial⟩
  | cons entry log ih =>
      obtain ⟨i, e⟩ := entry
      have hlog' : w.log = (later ++ [(i, e)]) ++ log := by simpa using hlog
      have htail := ih hlog'
      rw [← List.singleton_append, autoEntries_append]
      by_cases hnew : autoEntries actorId deviceId [(i, e)] = []
      · rw [hnew]
        exact htail
      obtain ⟨⟨j, event⟩, hmem⟩ := List.exists_mem_of_ne_nil _ hnew
      obtain ⟨⟨record, hentry⟩, hauto, rfl, rfl⟩ := mem_autoEntries.mp hmem
      obtain ⟨rfl, rfl⟩ := Prod.mk.inj (List.mem_singleton.mp hentry)
      have hsingle : autoEntries event.actorId event.deviceId [(j, appended event record)] =
          [(j, event)] := by
        simp [autoEntries, appendedEntries, appendedEvent, hauto]
      rw [hsingle]
      have hread := readBudget_of_log hw hlog hauto
      obtain ⟨n, hn, hfiles⟩ := hread.count
      obtain ⟨b, hb, hbytes⟩ := hread.bytes
      obtain ⟨before, hcovered, hsame⟩ := covered_of_read hw hcalm hlog hauto hn ⟨rfl, rfl⟩
      obtain ⟨before', hcovered', hsame'⟩ := covered_of_read hw hcalm hlog hauto hb ⟨rfl, rfl⟩
      have hfit := hroom j _ _ _ b event record
        (by rw [hlog]; simpa using .inr (.inr (Log.mem_of.mp hb))) (by simp [hlog])
      refine ⟨⟨?_, htail.1⟩, ⟨?_, htail.2⟩⟩
      · have hle : weightSince entryTime (fun _ => 1)
            (autoEntries event.actorId event.deviceId log) (event.timestampUnixMs - 60000) ≤ n :=
          hsame ▸ hcovered
        exact Nat.succ_le_of_lt (Nat.lt_of_le_of_lt hle hfiles)
      · have hle : weightSince entryTime entryBytes
            (autoEntries event.actorId event.deviceId log) (event.timestampUnixMs - 60000) ≤ b :=
          hsame' ▸ hcovered'
        have htotal : b + event.contentBytes ≤ policy.config.autoWrite.maxBytesPerMinute := by
          unfold saturatingAdd at hbytes
          omega
        exact (Nat.add_le_add_right hle _).trans htotal

/-- A call that has authorised a write of an actor on a device, at a time in
the minute from `first` on, without asking for an approval. -/
def AuthorisesWrite (w : World (brokerSystem P policy)) (actorId deviceId : String) (first i : ℕ)
    (request : ActionRequest) : Prop :=
  ∃ (c : Call (brokerSystem P policy)) (now : ℕ) (authorization : Authorization),
    w.calls i = some c ∧ c.entry = (request, now) ∧ c.rest = some (.done (.ok authorization)) ∧
      authorization.isAuto ∧ request.envelope.action = "filesystem.write" ∧
      request.envelope.actorId = actorId ∧ request.envelope.deviceId = deviceId ∧
      first ≤ now ∧ now ≤ first + 60000

/-- The budget: whatever the minute, the writes authorised in it are within
both limits. -/
def WithinBudget (w : World (brokerSystem P policy)) : Prop :=
  ∀ actorId deviceId first (calls : Finset ℕ) (request : ℕ → ActionRequest),
    (∀ i ∈ calls, AuthorisesWrite w actorId deviceId first i (request i)) →
    calls.card ≤ policy.config.autoWrite.maxFilesPerMinute ∧
      ∑ i ∈ calls, Broker.contentBytes (request i) ≤ policy.config.autoWrite.maxBytesPerMinute

/-- A call that has authorised a write has appended it. -/
theorem AuthorisesWrite.entry (hw : Reachable init mayStart w) {actorId deviceId : String}
    {first i : ℕ} {request : ActionRequest}
    (h : AuthorisesWrite w actorId deviceId first i request) :
    ∃ event, (i, event) ∈ (autoEntries actorId deviceId w.log).filter
        (fun x => first ≤ entryTime x ∧ entryTime x ≤ first + 60000) ∧
      event.contentBytes = Broker.contentBytes request := by
  obtain ⟨c, now, authorization, hc, hentry, hrest, hauto, haction, rfl, rfl, hfirst, hlast⟩ := h
  have hresult := hw.result (G := fun _ => Broker.BudgetGuarantee policy)
    (fun entry => Broker.authorizeAt_budget) (honest_reachable hw) hc hrest
  rw [hentry] at hresult
  obtain ⟨event, ⟨record, hrecord⟩, hwrite, hactor, hdevice, htime, hbytes⟩ :=
    hresult authorization rfl hauto haction
  refine ⟨event, List.mem_filter.mpr ⟨mem_autoEntries.mpr
    ⟨⟨record, Log.mem_of.mp hrecord⟩, hwrite, hactor, hdevice⟩, ?_⟩, hbytes⟩
  simpa [entryTime, htime] using ⟨hfirst, hlast⟩

/-- In a run in which no automatic write is appended between the reads and
the append of another one for the same actor and device, and no sum
saturates, the budget holds. -/
theorem withinBudget_of_undisturbed (hw : Reachable init mayStart w) (hcalm : Undisturbed w.log)
    (hroom : Unsaturated policy w.log) : WithinBudget w := by
  intro actorId deviceId first calls request hcalls
  obtain ⟨hfiles, hbytes⟩ :=
    withinLimit_of_undisturbed hw hcalm hroom actorId deviceId (List.nil_append w.log).symm
  constructor
  · rw [Finset.card_eq_sum_ones]
    refine (sum_le_of_entries (g := fun _ => 1) fun i hi => ?_).trans (hfiles.windowWeight_le first)
    obtain ⟨event, hmem, _⟩ := (hcalls i hi).entry hw
    exact ⟨event, hmem, le_rfl⟩
  · refine (sum_le_of_entries (g := AuditEvent.contentBytes) fun i hi => ?_).trans
      (hbytes.windowWeight_le first)
    obtain ⟨event, hmem, hcontent⟩ := (hcalls i hi).entry hw
    exact ⟨event, hmem, hcontent.ge⟩

end Runs

/-! ### Two writes in a budget of one -/

namespace Broker

/-- What is left of `authorize_at` once the policy has answered. -/
def authorizeEvaluated (policy : PolicyEngine) (request : ActionRequest) (now : ℕ)
    (evaluated : PolicyDecision) : Program Device (Except CoreError Authorization) :=
  (do
    let decision ← limitAutoWrites policy request evaluated now
    let _ ← ExceptT.adapt CoreError.audit
      (Ledger.append (authorizationEvent policy request decision now))
    return { request, decision } : DeviceM CoreError Authorization).run

/-- A request that verifies is put to the policy. -/
theorem authorizeAt_run {P : Primitives} {policy : PolicyEngine} {request : ActionRequest} {now : ℕ}
    (hverify : request.verify P now = .ok ()) :
    (authorizeAt P policy request now).run =
      .step (.evaluate policy request) (authorizeEvaluated policy request now) := by
  rw [authorizeAt, hverify]
  rfl

end Broker

namespace Sample

/-- A policy that lets one write a minute pass. -/
def oneWritePolicy : PolicyEngine where
  config :=
    { closedPolicy with
      mode := .policy
      autoWrite := { maxFilesPerMinute := 1 }
      filesystem := [{ path := "C:\\work", read := .auto, write := .auto }] }
  policyHash := "sample"
  supported := rfl
  named := by decide

/-- The creation of a file of one byte. -/
def write : ActionRequest :=
  request (envelope "filesystem.write" "C:\\work\\a.txt"
    (Std.ExtTreeMap.ofList
      [("content_bytes", Value.posInt 1), ("expected_target_sha256", Value.string "absent")]))

theorem write_verify : write.verify reference 10 = .ok () :=
  request_verify (by decide) (by decide)

/-- The brokers of the policy. -/
abbrev Brokers : System Device := brokerSystem reference oneWritePolicy

/-- The answer of the policy. -/
def answered : Event Device :=
  ⟨.evaluate oneWritePolicy write, oneWritePolicy.evaluate surroundings.host write⟩

/-- A call about the write that has asked the policy. -/
def asked : Call Brokers :=
  { entry := (write, 10)
    history := [answered]
    rest := some (Broker.authorizeEvaluated oneWritePolicy write 10
      (oneWritePolicy.evaluate surroundings.host write)) }

/-- Call `i` is started and asks the policy. -/
def ask (w : World Brokers) (i : ℕ) : World Brokers :=
  { w with
    calls := Function.update w.calls i (some asked)
    log := (i, answered) :: w.log }

theorem ask_reachable {w : World Brokers} (hw : Reachable freshLedger anyEntry w) {i : ℕ}
    (hfresh : w.calls i = none) : Reachable freshLedger anyEntry (ask w i) := by
  have hstart : Reachable freshLedger anyEntry (w.start i (write, 10)) := hw.start hfresh trivial
  have hrest : some (Brokers.body (write, 10)) = some (Program.step (I := Device)
      (.evaluate oneWritePolicy write) (Broker.authorizeEvaluated oneWritePolicy write 10)) :=
    congrArg some (Broker.authorizeAt_run write_verify)
  have hcommit := hstart.commit (Function.update_self i _ _) hrest
    (⟨rfl, surroundings.host, rfl⟩ : DeviceOp.Commits reference w.shared
      (.evaluate oneWritePolicy write) (oneWritePolicy.evaluate surroundings.host write) w.shared)
  simp only [World.start, World.commit, Function.update_idem] at hcommit
  exact hcommit

/-- Two calls about the write, both of which read the budget before either
appends. -/
def racing : World Brokers :=
  (ask (ask (initial Database.empty) 0) 1).ticks (workingLedger reference surroundings)
    [0, 0, 1, 1, 0, 1]

theorem racing_reachable : Reachable freshLedger anyEntry racing :=
  (ask_reachable (ask_reachable (reachable_initial rfl) rfl) rfl).ticks
    (fun _ op => workingLedger_commits op) _

/-- The authorisation of the write as it is. -/
def authorised : Authorization := ⟨write, oneWritePolicy.evaluate surroundings.host write⟩

theorem racing_finished {i : ℕ} (hi : i = 0 ∨ i = 1) :
    AuthorisesWrite racing "agent" "device" 10 i write := by
  rcases hi with rfl | rfl
  · exact ⟨_, 10, authorised, rfl, rfl, rfl, by decide, rfl, rfl, rfl, by decide, by decide⟩
  · exact ⟨_, 10, authorised, rfl, rfl, rfl, by decide, rfl, rfl, rfl, by decide, by decide⟩

/-- One call about the write. -/
def writing : World Brokers :=
  (ask (initial Database.empty) 0).ticks (workingLedger reference surroundings) [0, 0, 0]

theorem writing_reachable : Reachable freshLedger anyEntry writing :=
  (ask_reachable (reachable_initial rfl) rfl).ticks (fun _ op => workingLedger_commits op) _

theorem writing_finished : AuthorisesWrite writing "agent" "device" 10 0 write :=
  ⟨_, 10, authorised, rfl, rfl, rfl, by decide, rfl, rfl, rfl, by decide, by decide⟩

end Sample

/-- Two brokers authorise two writes in a minute that has room for one. -/
theorem racing_exceeds :
    ¬ ∀ w : World Sample.Brokers, Reachable freshLedger anyEntry w → WithinBudget w := by
  intro h
  have hfiles := (h Sample.racing Sample.racing_reachable "agent" "device" 10 {0, 1}
    (fun _ => Sample.write) fun i hi => Sample.racing_finished (by simpa using hi)).1
  exact absurd hfiles (by decide)

/-- A run that is not disturbed. -/
theorem withinBudget_writing :
    AuthorisesWrite Sample.writing "agent" "device" 10 0 Sample.write ∧
      WithinBudget Sample.writing :=
  ⟨Sample.writing_finished, withinBudget_of_undisturbed Sample.writing_reachable
    (undisturbed_of_length_le (by decide)) fun _ _ _ _ _ _ _ _ _ => .inr (by decide)⟩

end VorCommander
