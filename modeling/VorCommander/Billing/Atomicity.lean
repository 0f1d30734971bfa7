import VorCommander.Billing.StateFile

/-!
What a webhook leaves behind that fails.

An event that is malformed or refused leaves nothing. An event that is applied is
applied in memory first: if the state can then not be written to the file, the
caller is told of an error, and the store holds the event as processed all the
same. A redelivery is answered as a duplicate, although no file has the event.
-/

namespace VorCommander

open Steps Steps.Program Text

variable {same persistent : Bool} {store : ℕ} {event : Value} {now : ℕ}
  {state : PersistedBillingState} {s s' : BillingDisk} {h : History BillingFile}

/-- The event has been processed. -/
def Processed (state : PersistedBillingState) (event : Value) : Prop :=
  ∃ eventId, requiredStr event "id" = .ok eventId ∧ state.events.contains eventId = true

/-- The event is well formed, new and not refused. -/
def Applies (state : PersistedBillingState) (event : Value) (now : ℕ) : Prop :=
  ∃ eventId eventType applied, requiredStr event "id" = .ok eventId ∧
    requiredStr event "type" = .ok eventType ∧ state.events.contains eventId = false ∧
    applyEventToState state eventId eventType event now = .ok applied

/-- A step by which the state is written to the file has failed. -/
def FileFails : Event BillingFile → Prop
  | ⟨.openTemp, .error _⟩ => True
  | ⟨.write _ _, .error _⟩ => True
  | ⟨.newline _, .error _⟩ => True
  | ⟨.sync _, .error _⟩ => True
  | ⟨.rename _, .error _⟩ => True
  | _ => False

/-- No step has failed. -/
def Intact (h : History BillingFile) : Prop := ∀ e ∈ h, ¬ FileFails e

theorem intact_cons {e : Event BillingFile} (he : ¬ FileFails e) (hh : Intact h) :
    Intact (e :: h) :=
  List.forall_mem_cons.mpr ⟨he, hh⟩

theorem not_intact_cons {e : Event BillingFile} (he : FileFails e) : ¬ Intact (e :: h) :=
  fun hh => hh e List.mem_cons_self he

/-- The state in memory and the file are what they were. -/
structure Unchanged (store : ℕ) (s s' : BillingDisk) : Prop where
  memory : s'.memory store = s.memory store
  file : s'.target.map s'.contents = s.target.map s.contents

/-- If the webhook ends with an error, it has left nothing, and an event that had
not been processed is not answered as a duplicate when it comes again. -/
def Atomic (same persistent : Bool) (store : ℕ) (event : Value) (state : PersistedBillingState)
    (s s' : BillingDisk) (r : Except BillingError WebhookApplyResult) : Prop :=
  ∀ e, r = .error e → Unchanged store s s' ∧
    (¬ Processed state event → ∀ again r' s'' h',
      Runs (BillingDisk.Commit same)
        (BillingStore.applyTestWebhook persistent store event again).run
        s' [] r' s'' h' → ∀ result, r' = .ok result → result.duplicate = false)

/-! ### The programs -/

/-- Nothing is asked for while a program runs. -/
abbrev Anything (_ : BillingDisk) (_ : History BillingFile) : Prop := True

theorem BillingDisk.memory_opens {file : ℕ} (hopens : s.Opens same file s') :
    s'.memory = s.memory := by
  unfold BillingDisk.Opens at hopens
  split at hopens
  · rcases hopens with ⟨-, rfl⟩ | ⟨-, -, rfl⟩ <;> rfl
  · rcases hopens with ⟨-, rfl⟩ | ⟨-, -, rfl⟩ <;> rfl

theorem BillingDisk.memory_renames (hrenames : s.Renames same s') : s'.memory = s.memory := by
  unfold BillingDisk.Renames at hrenames
  split at hrenames
  · rw [hrenames.2]
  · obtain ⟨_, -, rfl⟩ := hrenames
    rfl

/-- Writing the file leaves the memory alone, and fails exactly if one of its steps
does. -/
theorem during_persistState (hh : Intact h) (delivery : Option Delivery) :
    During (BillingDisk.Commit same) Anything
      (fun r s' h' => s'.memory = s.memory ∧
        (r = .ok () ∧ Intact h' ∨ (∃ e, r = .error e) ∧ ¬ Intact h'))
      (persistState state delivery).run s h := by
  simp only [persistState, during_exceptT_bind, during_openTemp]
  intro reply s₁ hopens
  refine ⟨trivial, ?_⟩
  cases reply with
  | error e =>
      obtain rfl : s₁ = s := hopens
      exact ⟨rfl, .inr ⟨⟨e, rfl⟩, not_intact_cons trivial⟩⟩
  | ok file =>
      have hopened := BillingDisk.memory_opens hopens
      simp only [duringThen_ok, during_exceptT_bind, during_write]
      intro reply s₂ hwrites
      refine ⟨trivial, ?_⟩
      cases reply with
      | error e =>
          obtain ⟨_, -, rfl⟩ := hwrites
          exact ⟨hopened, .inr ⟨⟨e, rfl⟩, not_intact_cons trivial⟩⟩
      | ok _ =>
          obtain ⟨_, -, rfl⟩ := hwrites
          simp only [duringThen_ok, during_exceptT_bind, during_newline]
          intro reply s₃ hends
          refine ⟨trivial, ?_⟩
          obtain ⟨_, -, rfl⟩ := hends
          cases reply with
          | error e => exact ⟨hopened, .inr ⟨⟨e, rfl⟩, not_intact_cons trivial⟩⟩
          | ok _ =>
              simp only [duringThen_ok, during_exceptT_bind, during_sync]
              intro reply s₄ hsyncs
              refine ⟨trivial, ?_⟩
              obtain rfl := hsyncs
              cases reply with
              | error e => exact ⟨hopened, .inr ⟨⟨e, rfl⟩, not_intact_cons trivial⟩⟩
              | ok _ =>
                  simp only [duringThen_ok, during_rename]
                  intro reply s₅ hrenames
                  refine ⟨trivial, ?_⟩
                  cases reply with
                  | error e =>
                      obtain rfl := hrenames
                      exact ⟨hopened, .inr ⟨⟨e, rfl⟩, not_intact_cons trivial⟩⟩
                  | ok _ =>
                      refine ⟨(BillingDisk.memory_renames hrenames).trans hopened, .inl ⟨rfl, ?_⟩⟩
                      exact intact_cons id (intact_cons id (intact_cons id (intact_cons id
                        (intact_cons id hh))))

/-- What a call leaves: nothing, or a state in memory with the event, which it has
written to the file unless it ends with an error. -/
structure Leaves (persistent : Bool) (store : ℕ) (event : Value) (now : ℕ)
    (state : PersistedBillingState) (s s' : BillingDisk) (h' : History BillingFile)
    (r : Except BillingError WebhookApplyResult) : Prop where
  effect : Unchanged store s s' ∧ Intact h' ∨
    Applies state event now ∧ s'.memory store ≠ s.memory store ∧
      ((∃ result, r = .ok result) ∧ Intact h' ∨
        persistent = true ∧ (∃ e, r = .error e) ∧ ¬ Intact h')
  duplicate : ∀ result, r = .ok result → result.duplicate = true → Processed state event

theorem during_applyLocked {eventId eventType : String} (hid : requiredStr event "id" = .ok eventId)
    (htype : requiredStr event "type" = .ok eventType) (hmemory : s.memory store = some state)
    (hh : Intact h) :
    During (BillingDisk.Commit same) Anything
      (fun r s' h' => Leaves persistent store event now state s s' h' r)
      (BillingStore.applyLocked persistent store eventId eventType event now state).run s h := by
  rw [BillingStore.applyLocked]
  by_cases hprocessed : state.events.contains eventId
  · rw [if_pos hprocessed]
    refine (during_exceptT_pure _).mpr ⟨.inl ⟨⟨rfl, rfl⟩, hh⟩, ?_⟩
    rintro result - -
    exact ⟨eventId, hid, hprocessed⟩
  rw [if_neg hprocessed]
  simp only [during_exceptT_bind, during_check]
  cases happly : applyEventToState state eventId eventType event now with
  | error e => exact ⟨.inl ⟨⟨rfl, rfl⟩, hh⟩, by rintro _ ⟨⟩⟩
  | ok applied =>
      have happlies : Applies state event now :=
        ⟨eventId, eventType, applied, hid, htype, (Bool.not_eq_true _).mp hprocessed, happly⟩
      obtain ⟨result, next⟩ := applied
      simp only [duringThen_ok, during_exceptT_bind, during_store]
      rintro _ s₁ rfl
      refine ⟨trivial, ?_⟩
      -- the state in memory has the event now, and did not have it before
      have hchanged : Function.update s.memory store
          (some (next.record eventId eventType now result)) store ≠ s.memory store := by
        rw [Function.update_self, hmemory]
        intro heq
        have hevents := congrArg (fun st : PersistedBillingState => st.events.contains eventId)
          (Option.some.inj heq)
        simp [PersistedBillingState.record, hprocessed] at hevents
      have hstored : Intact (⟨.store store (next.record eventId eventType now result), ()⟩ :: h) :=
        intact_cons id hh
      cases persistent with
      | false =>
          refine (during_exceptT_pure _).mpr
            ⟨.inr ⟨happlies, hchanged, .inl ⟨⟨_, rfl⟩, hstored⟩⟩, ?_⟩
          rintro _ ⟨⟩ ⟨⟩
      | true =>
          simp only [if_true, during_exceptT_bind]
          refine (during_persistState hstored _).mono ?_
          rintro r s' h' ⟨hsame, hresult⟩
          have hleft : s'.memory store ≠ s.memory store := by
            rw [hsame]
            exact hchanged
          rcases hresult with ⟨rfl, hintact⟩ | ⟨⟨e, rfl⟩, hfails⟩
          · refine (during_exceptT_pure _).mpr
              ⟨.inr ⟨happlies, hleft, .inl ⟨⟨_, rfl⟩, hintact⟩⟩, ?_⟩
            rintro _ ⟨⟩ ⟨⟩
          · exact ⟨.inr ⟨happlies, hleft, .inr ⟨rfl, ⟨e, rfl⟩, hfails⟩⟩, by rintro _ ⟨⟩⟩

theorem during_applyTestWebhook (hmemory : s.memory store = some state) (hh : Intact h) :
    During (BillingDisk.Commit same) Anything
      (fun r s' h' => Leaves persistent store event now state s s' h' r)
      (BillingStore.applyTestWebhook persistent store event now).run s h := by
  have hnothing : ∀ e, Leaves persistent store event now state s s h (.error e) :=
    fun e => ⟨.inl ⟨⟨rfl, rfl⟩, hh⟩, by rintro _ ⟨⟩⟩
  simp only [BillingStore.applyTestWebhook, during_exceptT_bind, during_check]
  cases hid : requiredStr event "id" with
  | error e => exact hnothing e
  | ok eventId =>
      simp only [duringThen_ok, during_exceptT_bind, during_check]
      cases htype : requiredStr event "type" with
      | error e => exact hnothing e
      | ok eventType =>
          simp only [duringThen_ok, during_exceptT_bind, during_enter, during_check]
          intro reply s₁ henters
          refine ⟨trivial, ?_⟩
          cases reply with
          | none =>
              -- the lock is poisoned
              obtain rfl := henters
              exact ⟨.inl ⟨⟨rfl, rfl⟩, intact_cons id hh⟩, by rintro _ ⟨⟩⟩
          | some state' =>
              obtain ⟨-, hstate, rfl⟩ := henters
              obtain rfl : state = state' := Option.some.inj (hmemory ▸ hstate)
              simp only [orFail_some, duringThen_ok, during_exceptT_bind, during_exceptT_lift,
                during_leave, during_check]
              have hentered : Intact (⟨.enter store, some state⟩ :: h) := intact_cons id hh
              have hlocked : ({ s with held := Function.update s.held store true } :
                  BillingDisk).memory store = some state := hmemory
              refine (during_applyLocked hid htype hlocked hentered).mono ?_
              rintro r s₂ h₂ ⟨heffect, hduplicate⟩ _ s₃ rfl
              refine ⟨trivial, ?_, hduplicate⟩
              rcases heffect with ⟨⟨hsame, hfile⟩, hintact⟩ | ⟨happlies, hchanged, hresult⟩
              · exact .inl ⟨⟨hsame, hfile⟩, intact_cons id hintact⟩
              · refine .inr ⟨happlies, hchanged, hresult.imp ?_ ?_⟩
                · exact fun hok => ⟨hok.1, intact_cons id hok.2⟩
                · rintro ⟨hpersistent, herror, hfails⟩
                  exact ⟨hpersistent, herror, fun hintact =>
                    hfails (List.forall_mem_cons.mp hintact).2⟩

/-- A webhook is atomic unless the store has a file, the event is applied, and a
step fails by which the state is written to the file. -/
theorem webhook_atomic_iff (same persistent : Bool) (store : ℕ) (event : Value) (now : ℕ)
    (state : PersistedBillingState) (s s' : BillingDisk) (h : History BillingFile)
    (r : Except BillingError WebhookApplyResult) (hmemory : s.memory store = some state)
    (hruns : Runs (BillingDisk.Commit same)
      (BillingStore.applyTestWebhook persistent store event now).run s [] r s' h) :
    Atomic same persistent store event state s s' r ↔
      ¬ (persistent = true ∧ Applies state event now ∧ ∃ e ∈ h, FileFails e) := by
  have hleaves : Leaves persistent store event now state s s' h r :=
    hruns.during (J := Anything) (during_applyTestWebhook hmemory (by simp [Intact]))
  have hintact : ¬ (∃ e ∈ h, FileFails e) ↔ Intact h := by simp [Intact]
  constructor
  · rintro hatomic ⟨hpersistent, happlies, hfails⟩
    rcases hleaves.effect with ⟨-, hh⟩ | ⟨-, hchanged, ⟨-, hh⟩ | ⟨-, ⟨e, rfl⟩, -⟩⟩
    · exact hintact.mpr hh hfails
    · exact hintact.mpr hh hfails
    · exact hchanged (hatomic e rfl).1.memory
  · rintro hcondition e rfl
    rcases hleaves.effect with ⟨hunchanged, -⟩ | ⟨happlies, -, ⟨⟨result, hok⟩, -⟩ |
      ⟨hpersistent, -, hfails⟩⟩
    · refine ⟨hunchanged, fun hnew again r' s'' h' hagain result hresult => ?_⟩
      have hmemory' : s'.memory store = some state := by rw [hunchanged.memory, hmemory]
      have hleaves' : Leaves persistent store event again state s' s'' h' r' :=
        hagain.during (J := Anything) (during_applyTestWebhook hmemory' (by simp [Intact]))
      have hduplicate := hleaves'.duplicate result hresult
      cases hflag : result.duplicate with
      | false => rfl
      | true => exact absurd (hduplicate hflag) hnew
    · cases hok
    · exact absurd
        ⟨hpersistent, happlies, not_not.mp fun hnone => hfails (hintact.mp hnone)⟩ hcondition

/-! ### A file that cannot be opened -/

namespace BillingSample

/-- An event that is only recorded. -/
def probe : Value := .object
  [("id", .string "evt_probe"), ("type", .string "billing.durability.probe")]

/-- A store whose state is that of its file. -/
def opened : BillingDisk where
  contents _ := .state {}
  target := some 0
  temp := none
  files := 1
  memory _ := some {}
  held _ := false

def cannotOpen : BillingOp → Bool
  | .openTemp => true
  | _ => false

/-- A delivery of the event. -/
def delivered (fails : BillingOp → Bool) (s : BillingDisk) :
    Option (Except BillingError WebhookApplyResult × BillingDisk × History BillingFile) :=
  follow (workingBilling false fails) (BillingStore.applyTestWebhook true 0 probe 1).run s []

/-- The disk after a delivery. -/
def after (fails : BillingOp → Bool) (s : BillingDisk) : BillingDisk :=
  ((delivered fails s).map (·.2.1)).getD s

def performed (fails : BillingOp → Bool) (s : BillingDisk) : History BillingFile :=
  ((delivered fails s).map (·.2.2)).getD []

theorem runs_cannotOpen : Runs (BillingDisk.Commit false)
    (BillingStore.applyTestWebhook true 0 probe 1).run opened [] (.error .io)
    (after cannotOpen opened) (performed cannotOpen opened) :=
  runs_of_follow (workingBilling_commits false cannotOpen) rfl

end BillingSample

/-- The temporary file cannot be opened. The store keeps the event, which comes
again and is answered as a duplicate. -/
theorem failed_delivery_stays :
    ∃ s' h, Runs (BillingDisk.Commit false)
        (BillingStore.applyTestWebhook true 0 BillingSample.probe 1).run BillingSample.opened []
        (.error .io) s' h ∧
      ¬ Atomic false true 0 BillingSample.probe {} BillingSample.opened s' (.error .io) ∧
      ∃ result s'' h', Runs (BillingDisk.Commit false)
        (BillingStore.applyTestWebhook true 0 BillingSample.probe 1).run s' [] (.ok result) s'' h' ∧
        result.duplicate = true := by
  refine ⟨_, _, BillingSample.runs_cannotOpen, fun hatomic => ?_, ?_⟩
  · have hmemory := (hatomic .io rfl).1.memory
    have hhas : ((BillingSample.after BillingSample.cannotOpen BillingSample.opened).memory 0).map
        (fun state => state.events.contains "evt_probe") = some true := by decide +kernel
    rw [hmemory] at hhas
    exact absurd hhas (by decide +kernel)
  · exact ⟨_, _, _, runs_of_follow (workingBilling_commits false fun _ => false) rfl, rfl⟩

/-- A delivery that fails when the file is opened. -/
theorem webhook_atomic_iff_cannotOpen :
    Atomic false true 0 BillingSample.probe {} BillingSample.opened
        (BillingSample.after BillingSample.cannotOpen BillingSample.opened) (.error .io) ↔
      ¬ (true = true ∧ Applies {} BillingSample.probe 1 ∧
        ∃ e ∈ BillingSample.performed BillingSample.cannotOpen BillingSample.opened, FileFails e) :=
  webhook_atomic_iff false true 0 BillingSample.probe 1 {} BillingSample.opened _ _ _ rfl
    BillingSample.runs_cannotOpen

end VorCommander
