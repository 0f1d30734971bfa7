import VorCommander.Billing.Atomicity

/-!
The events that a file has.

Stores that are opened on one path share a file. A store never reads it again after
it was opened, and writes all of it from what it has in memory. Here it is said
which events a file has: those that were applied one after the other to get the
state that it holds. Each step by which the file is written is looked at by itself;
the next module is about the processes that take them.
-/

namespace VorCommander

open Steps Steps.Program Steps.World Text

/-! ### Events that are applied one after the other -/

/-- What deliveries leave. -/
abbrev leaves (base : PersistedBillingState) (deliveries : List Delivery) : PersistedBillingState :=
  afterDeliveries (fun _ => .ok ()) base deliveries

/-- Every event is applied when its turn comes. -/
def AllApply (base : PersistedBillingState) (deliveries : List Delivery) : Prop :=
  ∀ before delivery rest, deliveries = before ++ delivery :: rest →
    Applies (leaves base before) delivery.1 delivery.2

variable {base state : PersistedBillingState} {deliveries more : List Delivery} {event : Value}
  {eventId eventType : String} {now : ℕ}

theorem allApply_nil : AllApply base [] := by
  intro before delivery rest h
  cases before <;> cases h

theorem AllApply.concat (h : AllApply base deliveries)
    (happlies : Applies (leaves base deliveries) event now) :
    AllApply base (deliveries ++ [(event, now)]) := by
  intro before delivery rest heq
  cases rest using List.reverseRecOn with
  | nil =>
      obtain ⟨rfl, hlast⟩ := List.append_inj' heq rfl
      obtain rfl := (List.cons.inj hlast).1
      exact happlies
  | append_singleton rest last =>
      rw [← List.cons_append, ← List.append_assoc] at heq
      obtain ⟨hinit, -⟩ := List.append_inj' heq rfl
      exact h before delivery rest hinit

theorem leaves_append (deliveries more : List Delivery) :
    leaves base (deliveries ++ more) = leaves (leaves base deliveries) more :=
  afterDeliveries_append ..

theorem AllApply.append (h : AllApply base deliveries)
    (hmore : AllApply (leaves base deliveries) more) :
    AllApply base (deliveries ++ more) := by
  induction more using List.reverseRecOn with
  | nil => rwa [List.append_nil]
  | append_singleton more last ih =>
      rw [← List.append_assoc]
      refine (ih fun before delivery rest heq => ?_).concat ?_
      · exact hmore before delivery (rest ++ [last]) (by rw [heq]; simp)
      · rw [leaves_append]
        exact hmore more last [] rfl

/-- An event that is applied leaves the others that have been processed. -/
theorem events_of_applied {result : WebhookApplyResult} {next : PersistedBillingState}
    (h : applyEventToState state eventId eventType event now = .ok (result, next)) :
    next.events = state.events := by
  cases hchange : changeOf eventType event with
  | error e =>
      rw [applyEventToState_refused hchange] at h
      cases h
  | ok change =>
      by_cases hagrees : change.Agrees state.accounts
      · obtain ⟨result', next', happlied, -, hevents⟩ :=
          applyEventToState_applied eventId now hchange hagrees
        obtain ⟨-, rfl⟩ := Prod.mk.inj (Except.ok.inj (h ▸ happlied))
        exact hevents
      · obtain ⟨e, hrefused⟩ := applyEventToState_conflict eventId now hchange hagrees
        rw [hrefused] at h
        cases h

/-- What a delivery leaves that is applied. -/
theorem leaves_concat (hid : requiredStr event "id" = .ok eventId)
    (htype : requiredStr event "type" = .ok eventType)
    (hnew : (leaves base deliveries).events.contains eventId = false)
    {result : WebhookApplyResult} {next : PersistedBillingState}
    (happlied : applyEventToState (leaves base deliveries) eventId eventType event now =
      .ok (result, next)) :
    leaves base (deliveries ++ [(event, now)]) = next.record eventId eventType now result := by
  rw [leaves, afterDeliveries_concat]
  simp only [applyTestWebhook, hid, htype]
  rw [if_neg (Bool.not_eq_true _ ▸ hnew), happlied]
  rfl

/-- What has been processed stays processed. -/
theorem contains_leaves (h : base.events.contains eventId = true) (deliveries : List Delivery) :
    (leaves base deliveries).events.contains eventId = true := by
  induction deliveries using List.reverseRecOn with
  | nil => exact h
  | append_singleton deliveries delivery ih =>
      rw [leaves, afterDeliveries_concat]
      rcases applyTestWebhook_cases (fun _ => .ok ()) (leaves base deliveries) delivery.1
        delivery.2 with heq | ⟨-, -, -, -, otherId, record, -, hevents⟩
      · rw [heq]
        exact ih
      · rw [hevents, Std.ExtTreeMap.contains_insert, ih, Bool.or_true]

/-- An event that is applied has been processed from then on. -/
theorem AllApply.contains {before rest : List Delivery} {delivery : Delivery}
    (h : AllApply base (before ++ delivery :: rest))
    (hid : requiredStr delivery.1 "id" = .ok eventId) :
    (leaves base (before ++ delivery :: rest)).events.contains eventId = true := by
  obtain ⟨eventId', eventType, ⟨result, next⟩, hid', htype, hnew, happlied⟩ :=
    h before delivery rest rfl
  obtain rfl : eventId = eventId' := Except.ok.inj (hid ▸ hid')
  rw [List.append_cons, leaves, afterDeliveries_append]
  apply contains_leaves
  rw [← leaves, leaves_concat hid' htype hnew happlied]
  simp [PersistedBillingState.record]

/-- Two deliveries are of different events. -/
def Different (delivery delivery' : Delivery) : Prop :=
  ∀ eventId, requiredStr delivery.1 "id" = .ok eventId → requiredStr delivery'.1 "id" ≠ .ok eventId

theorem Different.symm {delivery delivery' : Delivery} (h : Different delivery delivery') :
    Different delivery' delivery :=
  fun eventId hid' hid => h eventId hid hid'

/-- No event is applied twice. -/
theorem AllApply.pairwise (h : AllApply base deliveries) : deliveries.Pairwise Different := by
  induction deliveries using List.reverseRecOn with
  | nil => exact .nil
  | append_singleton deliveries last ih =>
      have hearlier : AllApply base deliveries := by
        rintro before delivery rest rfl
        exact h before delivery (rest ++ [last]) (by simp)
      refine List.pairwise_append.mpr ⟨ih hearlier, List.pairwise_singleton _ _, ?_⟩
      intro delivery hmem delivery' hlast eventId hid hid'
      obtain rfl := List.mem_singleton.mp hlast
      obtain ⟨before, rest, rfl⟩ := List.append_of_mem hmem
      obtain ⟨eventId', _, _, hid'', _, hnew, _⟩ := h _ delivery' [] rfl
      obtain rfl : eventId = eventId' := Except.ok.inj (hid' ▸ hid'')
      rw [hearlier.contains hid] at hnew
      cases hnew

/-! ### The file -/

/-- The event for which a file was renamed. -/
def renameOf : Event BillingFile → Option Delivery
  | ⟨.rename delivery, .ok _⟩ => delivery
  | _ => none

/-- The events for which files were renamed, in this order. -/
def renamed (log : Log BillingFile) : List Delivery :=
  (log.filterMap fun entry => renameOf entry.2).reverse

/-- The state that was read from the file. -/
def readOf : Event BillingFile → Option PersistedBillingState
  | ⟨.read, .ok state⟩ => some state
  | _ => none

/-- A state has the events of the log, one after the other. -/
def Has (base : PersistedBillingState) (log : Log BillingFile) (state : PersistedBillingState) :
    Prop :=
  ∃ deliveries, AllApply base deliveries ∧ (renamed log).Sublist deliveries ∧
    state = leaves base deliveries

/-- The two names are those of two files that there are. -/
structure BillingDisk.Named (s : BillingDisk) : Prop where
  target : ∀ file, s.target = some file → file < s.files
  temp : ∀ file, s.temp = some file → file < s.files ∧ s.target ≠ some file

/-- The file holds what the deliveries leave, or no state; what was read from it had
the events of the log before. -/
structure FileHas (base : PersistedBillingState) (deliveries : List Delivery) (s : BillingDisk)
    (log : Log BillingFile) : Prop where
  apply : AllApply base deliveries
  has : (renamed log).Sublist deliveries
  stored : ∀ state, s.stored = some state → state = leaves base deliveries
  named : s.Named
  missing : s.target = none → deliveries = [] ∧ base = {}
  reads : ∀ later j e state earlier, log = later ++ (j, e) :: earlier → readOf e = some state →
    Has base earlier state

variable {same : Bool} {s s' : BillingDisk} {log : Log BillingFile} {i file : ℕ}
  {delivery : Option Delivery} {text : StateText}

theorem BillingDisk.stored_eq_some : s.stored = some state ↔
    ∃ file, s.target = some file ∧ s.contents file = .state state := by
  unfold BillingDisk.stored
  cases htarget : s.target with
  | none => simp
  | some file =>
      cases htext : s.contents file <;> simp [htext]

theorem BillingDisk.stored_of_empty (htarget : s.target = some file)
    (hempty : s.contents file = .empty) : s.stored ≠ some state := by
  intro hstored
  obtain ⟨other, hother, htext⟩ := BillingDisk.stored_eq_some.mp hstored
  obtain rfl := Option.some.inj (htarget ▸ hother)
  rw [hempty] at htext
  cases htext

/-- A file without the name of the path may get any content. -/
theorem BillingDisk.stored_setText_ne (h : s.target ≠ some file) :
    (s.setText file text).stored = s.stored := by
  unfold BillingDisk.stored
  cases htarget : s.target with
  | none => simp [BillingDisk.setText, htarget]
  | some other =>
      have hne : other ≠ file := by
        rintro rfl
        exact h htarget
      simp [BillingDisk.setText, htarget, hne]

/-- A step that puts no other state into the file. -/
theorem FileHas.step (h : FileHas base deliveries s log) {e : Event BillingFile}
    (hrename : renameOf e = none) (hread : ∀ state, readOf e = some state → s.stored = some state)
    (hstored : ∀ state, s'.stored = some state → s.stored = some state) (hnamed : s'.Named)
    (htarget : s'.target = none → s.target = none) :
    FileHas base deliveries s' ((i, e) :: log) where
  apply := h.apply
  has := by
    rw [renamed, List.filterMap_cons, hrename]
    exact h.has
  stored := fun state hstate => h.stored state (hstored state hstate)
  named := hnamed
  missing := fun hnone => h.missing (htarget hnone)
  reads := by
    intro later j e' state earlier heq hstate
    cases later with
    | nil =>
        obtain ⟨hhead, rfl⟩ := List.cons.inj heq
        obtain ⟨rfl, rfl⟩ := Prod.mk.inj hhead
        exact ⟨deliveries, h.apply, h.has, h.stored state (hread state hstate)⟩
    | cons entry later => exact h.reads later j e' state earlier (List.cons.inj heq).2 hstate

/-- A step that leaves the files alone. -/
theorem FileHas.keeps (h : FileHas base deliveries s log) {e : Event BillingFile}
    (hrename : renameOf e = none) (hread : ∀ state, readOf e = some state → s.stored = some state)
    (hcontents : s'.contents = s.contents) (htarget : s'.target = s.target)
    (htemp : s'.temp = s.temp) (hfiles : s'.files = s.files) :
    FileHas base deliveries s' ((i, e) :: log) := by
  refine h.step hrename hread (fun state => ?_) ⟨?_, ?_⟩ (fun hnone => htarget ▸ hnone)
  · simp only [BillingDisk.stored_eq_some, hcontents, htarget, imp_self]
  · rw [htarget, hfiles]
    exact h.named.target
  · rw [htarget, htemp, hfiles]
    exact h.named.temp

/-- The file that a state is written to: the file itself, if there is one name
only. -/
def WritesTo (same : Bool) (s : BillingDisk) (file : ℕ) : Prop :=
  if same then s.target = some file else s.temp = some file

/-- Opening the temporary file loses what was in it, which may be the state. -/
theorem FileHas.opens (h : FileHas base deliveries s log) (hopens : s.Opens same file s') :
    s'.contents file = .empty ∧ WritesTo same s' file ∧
      FileHas base deliveries s' ((i, ⟨.openTemp, .ok file⟩) :: log) := by
  have hempty : ∀ s : BillingDisk, (s.setText file .empty).contents file = .empty :=
    fun s => Function.update_self ..
  cases same with
  | true =>
      rcases hopens with ⟨htarget, rfl⟩ | ⟨hnone, rfl, rfl⟩
      · refine ⟨hempty s, htarget, h.step rfl (by rintro _ ⟨⟩) ?_ ⟨h.named.target, h.named.temp⟩
          fun hnone => hnone⟩
        exact fun state hstate => absurd hstate (BillingDisk.stored_of_empty htarget (hempty s))
      · refine ⟨hempty s, rfl, h.step rfl (by rintro _ ⟨⟩) ?_ ⟨?_, ?_⟩ (by rintro ⟨⟩)⟩
        · exact fun state hstate => absurd hstate (BillingDisk.stored_of_empty rfl (hempty s))
        · rintro other ⟨⟩
          exact Nat.lt_succ_self _
        · intro other htemp
          have hlt := (h.named.temp other htemp).1
          refine ⟨by show other < s.files + 1; omega, ?_⟩
          rintro ⟨⟩
          exact Nat.lt_irrefl _ hlt
  | false =>
      rcases hopens with ⟨htemp, rfl⟩ | ⟨hnone, rfl, rfl⟩
      · refine ⟨hempty s, htemp, h.step rfl (by rintro _ ⟨⟩) ?_ ⟨h.named.target, h.named.temp⟩
          fun hnone => hnone⟩
        intro state
        rw [BillingDisk.stored_setText_ne (h.named.temp file htemp).2]
        exact id
      · have hne : s.target ≠ some s.files := by
          intro htarget
          exact Nat.lt_irrefl _ (h.named.target _ htarget)
        refine ⟨hempty s, rfl, h.step rfl (by rintro _ ⟨⟩) ?_ ⟨?_, ?_⟩ fun hnone => hnone⟩
        · intro state hstate
          have hsame : (s.setText s.files .empty).stored = s.stored :=
            BillingDisk.stored_setText_ne hne
          rw [← hsame]
          exact hstate
        · intro other htarget
          have hlt := h.named.target other htarget
          show other < s.files + 1
          omega
        · rintro other ⟨⟩
          exact ⟨Nat.lt_succ_self _, hne⟩

theorem renamed_cons (e : Event BillingFile) :
    renamed ((i, e) :: log) = renamed log ++ (renameOf e).toList := by
  rw [renamed, List.filterMap_cons, renamed]
  cases renameOf e <;> simp

/-- A step after which the file holds what other deliveries leave. -/
theorem FileHas.becomes {deliveries' : List Delivery} (h : FileHas base deliveries s log)
    {e : Event BillingFile} (hall : AllApply base deliveries')
    (hhas : (renamed ((i, e) :: log)).Sublist deliveries') (hread : readOf e = none)
    (hstored : s'.stored = some (leaves base deliveries')) (hnamed : s'.Named) :
    FileHas base deliveries' s' ((i, e) :: log) where
  apply := hall
  has := hhas
  stored := fun state hstate => (Option.some.inj (hstored ▸ hstate)).symm
  named := hnamed
  missing := by
    intro hnone
    obtain ⟨file, htarget, -⟩ := BillingDisk.stored_eq_some.mp hstored
    rw [hnone] at htarget
    cases htarget
  reads := by
    intro later j e' state earlier heq hstate
    cases later with
    | nil =>
        obtain ⟨hhead, -⟩ := List.cons.inj heq
        obtain ⟨-, rfl⟩ := Prod.mk.inj hhead
        rw [hread] at hstate
        cases hstate
    | cons entry later => exact h.reads later j e' state earlier (List.cons.inj heq).2 hstate

/-- A state has been written to the temporary file. It is the state of the file
already if there is one name only. -/
structure PendingText (same : Bool) (base : PersistedBillingState) (deliveries more : List Delivery)
    (file : ℕ) (s : BillingDisk) (log : Log BillingFile) : Prop where
  text : s.contents file = .state (leaves base (deliveries ++ more))
  writesTo : WritesTo same s file
  has : (renamed log).Sublist deliveries
  holds : FileHas base (if same then deliveries ++ more else deliveries) s log

section Persisting

variable (hall : AllApply base (deliveries ++ more))

include hall

theorem FileHas.written (h : FileHas base deliveries s log) (hwrites : WritesTo same s file)
    {e : Event BillingFile} (hrename : renameOf e = none) (hread : readOf e = none) :
    PendingText same base deliveries more file
      (s.setText file (.state (leaves base (deliveries ++ more)))) ((i, e) :: log) := by
  have hhas : (renamed ((i, e) :: log)).Sublist deliveries := by
    rw [renamed_cons, hrename, Option.toList_none, List.append_nil]
    exact h.has
  have hnamed : (s.setText file (.state (leaves base (deliveries ++ more)))).Named :=
    ⟨h.named.target, h.named.temp⟩
  refine ⟨Function.update_self .., ?_, hhas, ?_⟩
  · cases same <;> exact hwrites
  cases same with
  | true =>
      refine h.becomes hall (hhas.trans (List.sublist_append_left _ _)) hread ?_ hnamed
      exact BillingDisk.stored_eq_some.mpr ⟨file, hwrites, Function.update_self ..⟩
  | false =>
      refine h.step hrename (by simp [hread]) (fun state => ?_) hnamed fun hnone => hnone
      rw [BillingDisk.stored_setText_ne (h.named.temp file hwrites).2]
      exact id

/-- What a write leaves that fails. -/
theorem FileHas.failed (h : FileHas base deliveries s log) (hwrites : WritesTo same s file)
    {e : Event BillingFile} (hrename : renameOf e = none) (hread : readOf e = none)
    (htext : text = .empty ∨ text = .other ∨ text = .state (leaves base (deliveries ++ more))) :
    ∃ deliveries', deliveries <+: deliveries' ∧
      FileHas base deliveries' (s.setText file text) ((i, e) :: log) := by
  by_cases hstate : text = .state (leaves base (deliveries ++ more))
  · subst hstate
    refine ⟨_, ?_, (h.written hall hwrites hrename hread).holds⟩
    cases same
    · exact List.prefix_refl _
    · exact List.prefix_append _ _
  refine ⟨deliveries, List.prefix_refl _, h.step hrename (by simp [hread]) (fun state hstored => ?_)
    ⟨h.named.target, h.named.temp⟩ fun hnone => hnone⟩
  cases same with
  | true =>
      obtain ⟨other, htarget, hcontents⟩ := BillingDisk.stored_eq_some.mp hstored
      obtain rfl := Option.some.inj (hwrites.symm.trans htarget)
      have hself : (s.setText file text).contents file = text := Function.update_self ..
      rw [hself] at hcontents
      rcases htext with rfl | rfl | rfl
      · cases hcontents
      · cases hcontents
      · exact absurd rfl hstate
  | false =>
      rwa [BillingDisk.stored_setText_ne (h.named.temp file hwrites).2] at hstored

theorem PendingText.renames (h : PendingText same base deliveries more file s log)
    (hdelivery : delivery.toList.Sublist more) (hrenames : s.Renames same s') :
    FileHas base (deliveries ++ more) s' ((i, ⟨.rename delivery, .ok ()⟩) :: log) := by
  have hhas : (renamed ((i, (⟨.rename delivery, .ok ()⟩ : Event BillingFile)) :: log)).Sublist
      (deliveries ++ more) := by
    rw [renamed_cons]
    exact h.has.append hdelivery
  cases same with
  | true =>
      obtain ⟨-, rfl⟩ := hrenames
      refine h.holds.becomes hall hhas rfl ?_ h.holds.named
      exact BillingDisk.stored_eq_some.mpr ⟨file, h.writesTo, h.text⟩
  | false =>
      obtain ⟨other, htemp, rfl⟩ := hrenames
      obtain rfl := Option.some.inj (h.writesTo.symm.trans htemp)
      refine h.holds.becomes hall hhas rfl ?_ ⟨?_, by rintro _ ⟨⟩⟩
      · exact BillingDisk.stored_eq_some.mpr ⟨file, rfl, h.text⟩
      · rintro other ⟨⟩
        exact (h.holds.named.temp file htemp).1

end Persisting

end VorCommander
