import VorCommander.Billing.Order

/-!
Whether the billing state depends on the order of deliveries.

The webhook applies the change of an event when the event is delivered for the
first time. What a set of events leaves is therefore what their changes leave
in the order of the first deliveries.
-/

namespace VorCommander

open Steps Text

/-! ### The change of an event -/

/-- What a `checkout.session.completed` event says. -/
def checkoutOf (event : Value) : Except BillingError Checkout := do
  let object ← stripeObject event
  let organizationId ← orFail (nestedStr object ["metadata", "organization_id"])
    (.invalidRequest "missing organization_id metadata")
  let organizationId ← cleanId organizationId "organization_id"
  let customerId := (nestedStr object ["customer"]).getD ""
  let subscriptionId := (nestedStr object ["subscription"]).getD ""
  failIf (¬ startsWith customerId "cus_" ∨ ¬ startsWith subscriptionId "sub_")
    (.invalidRequest "checkout session missing Stripe customer or subscription")
  return { organizationId, customerId, subscriptionId,
           planId := nestedStr object ["metadata", "plan_id"] }

/-- What a `customer.subscription` event says. -/
def updateOf (event : Value) : Except BillingError SubscriptionUpdate := do
  let object ← stripeObject event
  let subscriptionId := (nestedStr object ["id"]).getD ""
  let customerId := (nestedStr object ["customer"]).getD ""
  failIf (¬ startsWith subscriptionId "sub_" ∨ ¬ startsWith customerId "cus_")
    (.invalidRequest "subscription event missing Stripe customer or subscription")
  return { customerId, subscriptionId,
           status := (nestedStr object ["status"]).getD "unknown"
           priceId := (object.pointer ["items", "data", "0", "price", "id"]).bind Value.asStr
           currentPeriodEnd := nestedU64 object ["current_period_end"] }

/-- The change that an event asks for. -/
def changeOf (eventType : String) (event : Value) : Except BillingError BillingChange :=
  if eventType = "checkout.session.completed" then .checkout <$> checkoutOf event
  else if eventType ∈ ["customer.subscription.created", "customer.subscription.updated",
      "customer.subscription.deleted"] then .update <$> updateOf event
  else .ok .recordedOnly

/-- The record without the time of its last change. -/
def BillingCustomerRecord.timeless (record : BillingCustomerRecord) : BillingCustomerRecord :=
  { record with updatedAtUnixSeconds := 0 }

def BillingSubscriptionRecord.timeless (record : BillingSubscriptionRecord) :
    BillingSubscriptionRecord :=
  { record with updatedAtUnixSeconds := 0 }

/-- The accounts of a state, without the times. -/
def PersistedBillingState.accounts (state : PersistedBillingState) : Accounts where
  customers c := state.customers[c]?.map BillingCustomerRecord.timeless
  subscriptions s := state.subscriptions[s]?.map BillingSubscriptionRecord.timeless

variable {state state' : PersistedBillingState} {event : Value} {eventId eventType : String}
  {now : ℕ} {x : Checkout} {u : SubscriptionUpdate} {change : BillingChange}

theorem accounts_customers (c : String) :
    state.accounts.customers c = state.customers[c]?.map BillingCustomerRecord.timeless := rfl

theorem accounts_subscriptions (s : String) : state.accounts.subscriptions s =
    state.subscriptions[s]?.map BillingSubscriptionRecord.timeless := rfl

/-- The customers after an insertion. -/
theorem accounts_insertCustomer (record : BillingCustomerRecord) (c c' : String) :
    (state.customers.insert c record)[c']?.map BillingCustomerRecord.timeless =
      Function.update state.accounts.customers c (some record.timeless) c' := by
  rw [Std.ExtTreeMap.getElem?_insert]
  by_cases hc : c = c'
  · subst hc
    simp
  · simp [PersistedBillingState.accounts, Function.update_of_ne (Ne.symm hc), hc]

/-- The subscriptions after an insertion. -/
theorem accounts_insertSubscription (record : BillingSubscriptionRecord) (s s' : String) :
    (state.subscriptions.insert s record)[s']?.map BillingSubscriptionRecord.timeless =
      Function.update state.accounts.subscriptions s (some record.timeless) s' := by
  rw [Std.ExtTreeMap.getElem?_insert]
  by_cases hs : s = s'
  · subst hs
    simp
  · simp [PersistedBillingState.accounts, Function.update_of_ne (Ne.symm hs), hs]

/-- The subscriptions after an insertion that keeps what is there. -/
theorem accounts_insertIfNewSubscription (record : BillingSubscriptionRecord) (s s' : String) :
    (state.subscriptions.insertIfNew s record)[s']?.map BillingSubscriptionRecord.timeless =
      Function.update state.accounts.subscriptions s
        (some ((state.accounts.subscriptions s).getD record.timeless)) s' := by
  rw [Std.ExtTreeMap.getElem?_insertIfNew]
  by_cases hs : s = s'
  · subst hs
    rw [Function.update_self, accounts_subscriptions]
    cases hknown : state.subscriptions[s]? with
    | none =>
        have hnew : s ∉ state.subscriptions := by
          rw [Std.ExtTreeMap.mem_iff_isSome_getElem?, hknown]
          simp
        simp [hnew]
    | some known =>
        have hold : s ∈ state.subscriptions := by
          rw [Std.ExtTreeMap.mem_iff_isSome_getElem?, hknown]
          rfl
        rw [if_neg (by simp [hold])]
        rfl
  · simp [PersistedBillingState.accounts, Function.update_of_ne (Ne.symm hs), hs]

/-! ### One delivery -/

/-- The rest of `apply_checkout_completed` once the event is read. -/
def recordCheckout (state : PersistedBillingState) (eventId eventType : String) (now : ℕ)
    (x : Checkout) : Except BillingError (WebhookApplyResult × PersistedBillingState) := do
  let state ← upsertCustomer state x.organizationId x.customerId now
  return ({ eventId
            eventType
            duplicate := false
            applied := true
            organizationId := some x.organizationId
            reason := "checkout_customer_subscription_recorded" },
    { state with
      subscriptions := state.subscriptions.insertIfNew x.subscriptionId
        { x.record with updatedAtUnixSeconds := now } })

theorem applyCheckoutCompleted_eq :
    applyCheckoutCompleted state eventId eventType event now =
      (checkoutOf event >>= recordCheckout state eventId eventType now) := by
  simp only [applyCheckoutCompleted, checkoutOf, bind_assoc, pure_bind]
  rfl

/-- The organisation of the customer agrees with the checkout. -/
def BillingChange.Agrees (a : Accounts) : BillingChange → Prop
  | .checkout x => ∀ customer, a.customers x.customerId = some customer →
      customer.organizationId = x.organizationId
  | _ => True

theorem recordCheckout_applied (hagrees : (BillingChange.checkout x).Agrees state.accounts) :
    ∃ result state', recordCheckout state eventId eventType now x = .ok (result, state') ∧
      state'.accounts = state.accounts.apply (.checkout x) ∧ state'.events = state.events := by
  have hupsert : ¬ ∃ existing ∈ state.customers[x.customerId]?,
      existing.organizationId ≠ x.organizationId := by
    rintro ⟨existing, hexisting, hdiffers⟩
    refine hdiffers (hagrees existing.timeless ?_)
    rw [accounts_customers, Option.mem_def.mp hexisting]
    rfl
  rw [recordCheckout, upsertCustomer, if_neg hupsert]
  refine ⟨_, _, rfl, ?_, rfl⟩
  apply Accounts.ext
  · ext1 c
    exact accounts_insertCustomer _ _ c
  · ext1 s
    exact accounts_insertIfNewSubscription _ _ s

/-- The rest of `apply_subscription_event` once the event is read. -/
def recordUpdate (state : PersistedBillingState) (eventId eventType : String) (now : ℕ)
    (u : SubscriptionUpdate) : Except BillingError (WebhookApplyResult × PersistedBillingState) :=
  match state.customers[u.customerId]? with
  | none =>
      .ok ({ eventId
             eventType
             duplicate := false
             applied := false
             organizationId := none
             reason := "unknown_customer_fail_closed" }, state)
  | some customer =>
      .ok ({ eventId
             eventType
             duplicate := false
             applied := true
             organizationId := some customer.organizationId
             reason := "subscription_state_recorded" },
        { state with
          subscriptions := state.subscriptions.insert u.subscriptionId
            { u.record customer.organizationId
                (state.subscriptions[u.subscriptionId]?.bind (·.planId)) with
              updatedAtUnixSeconds := now } })

theorem applySubscriptionEvent_eq :
    applySubscriptionEvent state eventId eventType event now =
      (updateOf event >>= recordUpdate state eventId eventType now) := by
  simp only [applySubscriptionEvent, updateOf, bind_assoc, pure_bind]
  rfl

theorem recordUpdate_applied :
    ∃ result state', recordUpdate state eventId eventType now u = .ok (result, state') ∧
      state'.accounts = state.accounts.apply (.update u) ∧ state'.events = state.events := by
  rw [recordUpdate]
  cases hcustomer : state.customers[u.customerId]? with
  | none =>
      refine ⟨_, _, rfl, ?_, rfl⟩
      rw [Accounts.apply_update_unknown]
      rw [accounts_customers, hcustomer]
      rfl
  | some customer =>
      refine ⟨_, _, rfl, ?_, rfl⟩
      have hknown : state.accounts.customers u.customerId = some customer.timeless := by
        rw [accounts_customers, hcustomer]
        rfl
      have hplan : (state.accounts.subscriptions u.subscriptionId).bind (·.planId) =
          state.subscriptions[u.subscriptionId]?.bind (·.planId) := by
        rw [accounts_subscriptions]
        cases state.subscriptions[u.subscriptionId]? <;> rfl
      apply Accounts.ext
      · rw [Accounts.apply_update_customers]
        rfl
      · ext1 s
        rw [Accounts.apply_update_known hknown, hplan]
        exact accounts_insertSubscription _ _ s

/-- An event that is refused. -/
theorem applyEventToState_refused {e : BillingError} (h : changeOf eventType event = .error e) :
    applyEventToState state eventId eventType event now = .error e := by
  rw [changeOf] at h
  rw [applyEventToState]
  split_ifs at h ⊢
  · rw [applyCheckoutCompleted_eq]
    cases hx : checkoutOf event with
    | error e' =>
        rw [hx] at h
        obtain rfl : e' = e := Except.error.inj h
        rfl
    | ok x =>
        rw [hx] at h
        cases h
  · rw [applySubscriptionEvent_eq]
    cases hu : updateOf event with
    | error e' =>
        rw [hu] at h
        obtain rfl : e' = e := Except.error.inj h
        rfl
    | ok u =>
        rw [hu] at h
        cases h

/-- An event that is applied. -/
theorem applyEventToState_applied (eventId : String) (now : ℕ)
    (h : changeOf eventType event = .ok change)
    (hagrees : change.Agrees state.accounts) :
    ∃ result state', applyEventToState state eventId eventType event now = .ok (result, state') ∧
      state'.accounts = state.accounts.apply change ∧ state'.events = state.events := by
  rw [changeOf] at h
  rw [applyEventToState]
  split_ifs at h ⊢
  · obtain ⟨x, hx, rfl⟩ := map_eq_ok.mp h
    rw [applyCheckoutCompleted_eq, hx, ok_bind]
    exact recordCheckout_applied hagrees
  · obtain ⟨u, hu, rfl⟩ := map_eq_ok.mp h
    rw [applySubscriptionEvent_eq, hu, ok_bind]
    exact recordUpdate_applied
  · obtain rfl := Except.ok.inj h
    exact ⟨_, _, rfl, rfl, rfl⟩

/-- The change that an event makes if it is delivered now. -/
def freshChange (state : PersistedBillingState) (event : Value) : Option BillingChange :=
  match requiredStr event "id", requiredStr event "type" with
  | .ok eventId, .ok eventType =>
      if state.events.contains eventId then none else (changeOf eventType event).toOption
  | _, _ => none

section Deliveries

variable (persist : PersistedBillingState → Except BillingError Unit)

/-- A delivery of an event that makes no change. -/
theorem applyTestWebhook_unchanged (h : freshChange state event = none) :
    (applyTestWebhook persist state event now).2 = state := by
  rw [freshChange] at h
  rw [applyTestWebhook]
  cases hid : requiredStr event "id" with
  | error e => rfl
  | ok eventId =>
      cases htype : requiredStr event "type" with
      | error e => rfl
      | ok eventType =>
          simp only [hid, htype] at h ⊢
          by_cases hprocessed : state.events.contains eventId
          · simp only [if_pos hprocessed]
          · simp only [if_neg hprocessed] at h ⊢
            cases hchange : changeOf eventType event with
            | error e => rw [applyEventToState_refused hchange]
            | ok change =>
                rw [hchange] at h
                cases h

/-- A delivery of an event that makes a change. -/
theorem applyTestWebhook_changed (now : ℕ) (h : freshChange state event = some change)
    (hagrees : change.Agrees state.accounts) :
    (applyTestWebhook persist state event now).2.accounts = state.accounts.apply change ∧
      ∃ eventId record, requiredStr event "id" = .ok eventId ∧
        (applyTestWebhook persist state event now).2.events =
          state.events.insert eventId record := by
  rw [freshChange] at h
  rw [applyTestWebhook]
  cases hid : requiredStr event "id" with
  | error e =>
      rw [hid] at h
      cases h
  | ok eventId =>
      cases htype : requiredStr event "type" with
      | error e =>
          rw [hid, htype] at h
          cases h
      | ok eventType =>
          simp only [hid, htype] at h
          by_cases hprocessed : state.events.contains eventId
          · rw [if_pos hprocessed] at h
            cases h
          · rw [if_neg hprocessed, toOption_eq_some] at h
            obtain ⟨result, state', happlied, haccounts, hevents⟩ :=
              applyEventToState_applied eventId now h hagrees
            simp only [if_neg hprocessed, happlied]
            exact ⟨haccounts, eventId, _, rfl, by rw [hevents]⟩

/-- A processed event makes no change any more. -/
theorem freshChange_processed {record : BillingEventRecord}
    (hevents : state'.events = state.events.insert eventId record)
    (hid : requiredStr event "id" = .ok eventId) : freshChange state' event = none := by
  rw [freshChange, hid]
  cases requiredStr event "type" with
  | error e => rfl
  | ok eventType =>
      have hcontains : state'.events.contains eventId := by simp [hevents]
      simp only [if_pos hcontains]

/-- The other events make the change that they made before. -/
theorem freshChange_other {record : BillingEventRecord}
    (hevents : state'.events = state.events.insert eventId record)
    (hid : requiredStr event "id" ≠ .ok eventId) :
    freshChange state' event = freshChange state event := by
  rw [freshChange, freshChange]
  cases hother : requiredStr event "id" with
  | error e => rfl
  | ok otherId =>
      have hne : eventId ≠ otherId := by
        rintro rfl
        exact hid hother
      cases requiredStr event "type" with
      | error e => rfl
      | ok eventType =>
          simp only [hevents, Std.ExtTreeMap.contains_insert]
          simp [hne]

/-- No two events have the same id. -/
def DistinctIds (events : List Value) : Prop :=
  ∀ event ∈ events, ∀ event' ∈ events, ∀ eventId, requiredStr event "id" = .ok eventId →
    requiredStr event' "id" = .ok eventId → event = event'

/-- The state after events were delivered, each at its time. -/
def afterDeliveries (state : PersistedBillingState) (deliveries : List (Value × ℕ)) :
    PersistedBillingState :=
  deliveries.foldl (fun state delivery => (applyTestWebhook persist state delivery.1 delivery.2).2)
    state

open Classical in
/-- The events in the order of their first deliveries. -/
noncomputable def firstDeliveries (deliveries : List (Value × ℕ)) : List Value :=
  (deliveries.map Prod.fst).reverse.dedup.reverse

theorem firstDeliveries_concat (deliveries : List (Value × ℕ)) (delivery : Value × ℕ) :
    delivery.1 ∈ firstDeliveries deliveries ∧
        firstDeliveries (deliveries ++ [delivery]) = firstDeliveries deliveries ∨
      delivery.1 ∉ firstDeliveries deliveries ∧
        firstDeliveries (deliveries ++ [delivery]) =
          firstDeliveries deliveries ++ [delivery.1] := by
  classical
  rw [firstDeliveries, firstDeliveries, List.map_append, List.reverse_append, List.mem_reverse,
    List.mem_dedup]
  by_cases hmem : delivery.1 ∈ (deliveries.map Prod.fst).reverse
  · refine .inl ⟨hmem, ?_⟩
    rw [List.map_singleton, List.reverse_singleton, List.singleton_append,
      List.dedup_cons_of_mem hmem]
  · refine .inr ⟨hmem, ?_⟩
    rw [List.map_singleton, List.reverse_singleton, List.singleton_append,
      List.dedup_cons_of_notMem hmem, List.reverse_cons]

theorem mem_firstDeliveries {deliveries : List (Value × ℕ)} :
    event ∈ firstDeliveries deliveries ↔ event ∈ deliveries.map Prod.fst := by
  classical
  rw [firstDeliveries, List.mem_reverse, List.mem_dedup, List.mem_reverse]

theorem nodup_firstDeliveries (deliveries : List (Value × ℕ)) :
    (firstDeliveries deliveries).Nodup := by
  classical
  rw [firstDeliveries, List.nodup_reverse]
  exact List.nodup_dedup _

/-- Events that are delivered once. -/
theorem firstDeliveries_of_nodup {order : List Value} (h : order.Nodup) (now : ℕ) :
    firstDeliveries (order.map (·, now)) = order := by
  classical
  have hevents : (order.map (·, now)).map Prod.fst = order := by
    rw [List.map_map]
    exact List.map_id order
  rw [firstDeliveries, hevents, (List.nodup_reverse.mpr h).dedup, List.reverse_reverse]

/-- The changes of the first deliveries are among those of the events. -/
theorem mem_changes {events order : List Value} (hin : ∀ event ∈ order, event ∈ events)
    (h : change ∈ order.filterMap (freshChange state)) :
    change ∈ Accounts.Changes (freshChange state) events := by
  obtain ⟨event, hevent, hchange⟩ := List.mem_filterMap.mp h
  exact ⟨event, hin event hevent, hchange⟩

/-- What deliveries leave is what the changes of their events leave, and an
event makes a change until it is delivered. -/
theorem afterDeliveries_accounts {events : List Value}
    (hone : OneOwner state.accounts (Accounts.Changes (freshChange state) events))
    (hids : DistinctIds events) {deliveries : List (Value × ℕ)}
    (hin : ∀ delivery ∈ deliveries, delivery.1 ∈ events) :
    (afterDeliveries persist state deliveries).accounts =
        state.accounts.run ((firstDeliveries deliveries).filterMap (freshChange state)) ∧
      ∀ event ∈ events,
        (event ∈ firstDeliveries deliveries →
          freshChange (afterDeliveries persist state deliveries) event = none) ∧
        (event ∉ firstDeliveries deliveries →
          freshChange (afterDeliveries persist state deliveries) event =
            freshChange state event) := by
  induction deliveries using List.reverseRecOn with
  | nil => exact ⟨rfl, fun event _ => ⟨fun hmem => absurd hmem (by simp [firstDeliveries]),
      fun _ => rfl⟩⟩
  | append_singleton deliveries delivery ih =>
      obtain ⟨event, now⟩ := delivery
      have hearlier : ∀ delivery ∈ deliveries, delivery.1 ∈ events :=
        fun delivery hmem => hin delivery (List.mem_append_left _ hmem)
      have hevent : event ∈ events := hin (event, now) (by simp)
      obtain ⟨haccounts, hfresh⟩ := ih hearlier
      have hafter : afterDeliveries persist state (deliveries ++ [(event, now)]) =
          (applyTestWebhook persist (afterDeliveries persist state deliveries) event now).2 := by
        rw [afterDeliveries, List.foldl_append]
        rfl
      rw [hafter]
      rcases firstDeliveries_concat deliveries (event, now) with ⟨hagain, hfirst⟩ | ⟨hnew, hfirst⟩
      · -- a delivery that comes again
        rw [applyTestWebhook_unchanged persist ((hfresh event hevent).1 hagain), hfirst]
        exact ⟨haccounts, hfresh⟩
      have hsame := (hfresh event hevent).2 hnew
      have hmem : ∀ other, other ∈ firstDeliveries (deliveries ++ [(event, now)]) ↔
          other ∈ firstDeliveries deliveries ∨ other = event := by
        intro other
        rw [hfirst, List.mem_append, List.mem_singleton]
      cases hchange : freshChange state event with
      | none =>
          rw [hchange] at hsame
          rw [applyTestWebhook_unchanged persist hsame]
          refine ⟨?_, fun other hother => ⟨fun hdelivered => ?_, fun hnot => ?_⟩⟩
          · rw [hfirst, List.filterMap_append, List.filterMap_cons, hchange, haccounts]
            simp
          · rcases (hmem other).mp hdelivered with hbefore | rfl
            · exact (hfresh other hother).1 hbefore
            · exact hsame
          · exact (hfresh other hother).2 fun hbefore => hnot ((hmem other).mpr (.inl hbefore))
      | some change =>
          rw [hchange] at hsame
          have hagrees : change.Agrees (afterDeliveries persist state deliveries).accounts := by
            cases change with
            | checkout x =>
                intro customer hcustomer
                rw [haccounts] at hcustomer
                refine Accounts.organization_of_checkout hone (fun change hmem => ?_)
                  ⟨event, hevent, hchange⟩ hcustomer
                refine mem_changes (fun other hother => ?_) hmem
                obtain ⟨delivery, hdelivery, rfl⟩ := List.mem_map.mp (mem_firstDeliveries.mp hother)
                exact hearlier delivery hdelivery
            | update u => trivial
            | recordedOnly => trivial
          obtain ⟨happlied, eventId, record, hid, hevents⟩ :=
            applyTestWebhook_changed persist now hsame hagrees
          refine ⟨?_, fun other hother => ⟨fun hdelivered => ?_, fun hnot => ?_⟩⟩
          · rw [happlied, haccounts, hfirst, List.filterMap_append, List.filterMap_cons, hchange,
              Accounts.run_append]
            rfl
          · by_cases hotherId : requiredStr other "id" = .ok eventId
            · exact freshChange_processed hevents hotherId
            · rw [freshChange_other hevents hotherId]
              rcases (hmem other).mp hdelivered with hbefore | rfl
              · exact (hfresh other hother).1 hbefore
              · exact absurd hid hotherId
          · have hotherId : requiredStr other "id" ≠ .ok eventId := by
              intro hotherId
              exact hnot
                ((hmem other).mpr (.inr (hids other hother event hevent eventId hotherId hid)))
            rw [freshChange_other hevents hotherId]
            exact (hfresh other hother).2 fun hbefore => hnot ((hmem other).mpr (.inl hbefore))

/-! ### Any order -/

/-- The events are delivered, each one or more times, and no others. -/
def Delivers (events : List Value) (deliveries : List (Value × ℕ)) : Prop :=
  ∀ event, event ∈ deliveries.map Prod.fst ↔ event ∈ events

/-- The active entitlements of an organisation. -/
def activeEntitlements (state : PersistedBillingState) (organizationId : String) : Set String :=
  fun s => ∃ record, state.subscriptions[s]? = some record ∧
    record.organizationId = organizationId ∧ record.entitlementActive = true

/-- The states are the same up to the times. -/
structure SameBilling (state state' : PersistedBillingState) : Prop where
  customers : ∀ c : String, state.customers[c]?.map BillingCustomerRecord.timeless =
    state'.customers[c]?.map BillingCustomerRecord.timeless
  subscriptions : ∀ s : String, state.subscriptions[s]?.map BillingSubscriptionRecord.timeless =
    state'.subscriptions[s]?.map BillingSubscriptionRecord.timeless
  entitlements : ∀ organizationId,
    activeEntitlements state organizationId = activeEntitlements state' organizationId

/-- All ways to deliver the events leave the same. -/
def OrderIndependent (state : PersistedBillingState) (events : List Value) : Prop :=
  ∀ first second, Delivers events first → Delivers events second →
    SameBilling (afterDeliveries persist state first) (afterDeliveries persist state second)

/-- An active entitlement, read off the accounts. -/
theorem mem_activeEntitlements {organizationId s : String} :
    s ∈ activeEntitlements state organizationId ↔ ∃ record,
      state.accounts.subscriptions s = some record ∧
        record.organizationId = organizationId ∧ record.entitlementActive = true := by
  rw [accounts_subscriptions]
  constructor
  · rintro ⟨record, hrecord, horganization, hactive⟩
    exact ⟨record.timeless, by rw [hrecord]; rfl, horganization, hactive⟩
  · rintro ⟨_, hrecord, horganization, hactive⟩
    obtain ⟨record, hknown, rfl⟩ := Option.map_eq_some_iff.mp hrecord
    exact ⟨record, hknown, horganization, hactive⟩

theorem sameBilling_iff : SameBilling state state' ↔ state.accounts = state'.accounts := by
  constructor
  · intro h
    apply Accounts.ext
    · exact funext h.customers
    · exact funext h.subscriptions
  · intro h
    constructor
    · exact fun c => congrFun (congrArg Accounts.customers h) c
    · exact fun s => congrFun (congrArg Accounts.subscriptions h) s
    · intro organizationId
      ext s
      rw [mem_activeEntitlements, mem_activeEntitlements, h]

/-- The first deliveries are an order of the events. -/
theorem isOrder_firstDeliveries {events : List Value} {deliveries : List (Value × ℕ)}
    (h : Delivers events deliveries) : Accounts.IsOrder events (firstDeliveries deliveries) :=
  ⟨nodup_firstDeliveries deliveries, fun event => mem_firstDeliveries.trans (h event)⟩

/-- Events that are delivered once each, in some order. -/
theorem delivers_of_isOrder {events order : List Value} (h : Accounts.IsOrder events order)
    (now : ℕ) : Delivers events (order.map (·, now)) := by
  intro event
  rw [List.map_map, ← h.2 event]
  exact iff_of_eq (congrArg (event ∈ ·) (List.map_id order))

/-- The billing state is independent of the order of the deliveries exactly if
the order of the changes does not matter. -/
theorem orderIndependent_iff {events : List Value}
    (hone : OneOwner state.accounts (Accounts.Changes (freshChange state) events))
    (hids : DistinctIds events) :
    OrderIndependent persist state events ↔
      OrderFree state.accounts (Accounts.Changes (freshChange state) events) := by
  have hleaves : ∀ deliveries, Delivers events deliveries →
      (afterDeliveries persist state deliveries).accounts =
        state.accounts.run ((firstDeliveries deliveries).filterMap (freshChange state)) := by
    intro deliveries hdelivers
    refine (afterDeliveries_accounts persist hone hids fun delivery hmem => ?_).1
    exact (hdelivers delivery.1).mp (List.mem_map_of_mem hmem)
  rw [← Accounts.anyOrder_iff hone]
  constructor
  · intro hindependent first second hfirst hsecond
    have hsame := sameBilling_iff.mp (hindependent _ _ (delivers_of_isOrder hfirst 0)
      (delivers_of_isOrder hsecond 0))
    rw [hleaves _ (delivers_of_isOrder hfirst 0), hleaves _ (delivers_of_isOrder hsecond 0),
      firstDeliveries_of_nodup hfirst.1, firstDeliveries_of_nodup hsecond.1] at hsame
    exact hsame
  · intro hany first second hfirst hsecond
    rw [sameBilling_iff, hleaves first hfirst, hleaves second hsecond]
    exact hany _ _ (isOrder_firstDeliveries hfirst) (isOrder_firstDeliveries hsecond)

end Deliveries

/-! ### A subscription that becomes active -/

namespace BillingSample

def checkoutEvent : Value := .object
  [("id", .string "evt_checkout"),
    ("type", .string "checkout.session.completed"),
    ("data", .object [("object", .object
      [("customer", .string "cus_1"),
        ("subscription", .string "sub_1"),
        ("metadata", .object [("organization_id", .string "org_demo")])])])]

def activeEvent : Value := .object
  [("id", .string "evt_subscription"),
    ("type", .string "customer.subscription.updated"),
    ("data", .object [("object", .object
      [("id", .string "sub_1"),
        ("customer", .string "cus_1"),
        ("status", .string "active")])])]

def checkout : Checkout where
  organizationId := "org_demo"
  customerId := "cus_1"
  subscriptionId := "sub_1"
  planId := none

def active : SubscriptionUpdate where
  customerId := "cus_1"
  subscriptionId := "sub_1"
  status := "active"
  priceId := none
  currentPeriodEnd := none

theorem checkoutEvent_change : freshChange {} checkoutEvent = some (.checkout checkout) := by
  rfl

theorem activeEvent_change : freshChange {} activeEvent = some (.update active) := by
  rfl

theorem mem_changes_iff {change : BillingChange} :
    change ∈ Accounts.Changes (freshChange {}) [checkoutEvent, activeEvent] ↔
      change = .checkout checkout ∨ change = .update active := by
  constructor
  · rintro ⟨event, hevent, hchange⟩
    rcases List.mem_pair.mp hevent with rfl | rfl
    · rw [checkoutEvent_change] at hchange
      exact .inl (Option.some.inj hchange).symm
    · rw [activeEvent_change] at hchange
      exact .inr (Option.some.inj hchange).symm
  · rintro (rfl | rfl)
    · exact ⟨checkoutEvent, by simp, checkoutEvent_change⟩
    · exact ⟨activeEvent, by simp, activeEvent_change⟩

theorem oneOwner : OneOwner (PersistedBillingState.accounts {})
    (Accounts.Changes (freshChange {}) [checkoutEvent, activeEvent]) where
  customers := by
    intro x y hx hy _
    have hcheckout : ∀ z, .checkout z ∈ Accounts.Changes (freshChange {})
        [checkoutEvent, activeEvent] → z = checkout := by
      intro z hz
      rcases mem_changes_iff.mp hz with h | h
      · exact BillingChange.checkout.inj h
      · cases h
    rw [hcheckout x hx, hcheckout y hy]
  known := by
    intro x customer _ h
    rw [accounts_customers, Std.ExtTreeMap.getElem?_empty] at h
    cases h
  subscriptions := by
    intro change hchange change' hchange' s c c' h h'
    have hcustomer : ∀ change ∈ Accounts.Changes (freshChange {}) [checkoutEvent, activeEvent],
        ∀ s c, change.subject = some (s, c) → c = "cus_1" := by
      intro change hchange s c h
      rcases mem_changes_iff.mp hchange with rfl | rfl
      · exact (Prod.mk.inj (Option.some.inj h)).2.symm
      · exact (Prod.mk.inj (Option.some.inj h)).2.symm
    rw [hcustomer change hchange s c h, hcustomer change' hchange' s c' h']

theorem distinctIds : DistinctIds [checkoutEvent, activeEvent] := by
  have hcheckout : requiredStr checkoutEvent "id" = .ok "evt_checkout" := rfl
  have hactive : requiredStr activeEvent "id" = .ok "evt_subscription" := rfl
  intro event hevent event' hevent' eventId h h'
  rcases List.mem_pair.mp hevent with rfl | rfl <;> rcases List.mem_pair.mp hevent' with rfl | rfl
  · rfl
  · rw [hcheckout] at h
    rw [hactive, ← h] at h'
    exact absurd (Except.ok.inj h') (by decide)
  · rw [hactive] at h
    rw [hcheckout, ← h] at h'
    exact absurd (Except.ok.inj h') (by decide)
  · rfl

/-- What the two events leave in one order. -/
theorem after_order {order : List Value}
    (horder : Accounts.IsOrder [checkoutEvent, activeEvent] order) :
    (afterDeliveries (fun _ => .ok ()) {} (order.map (·, 0))).accounts =
      (PersistedBillingState.accounts {}).run (order.filterMap (freshChange {})) := by
  rw [(afterDeliveries_accounts _ oneOwner distinctIds fun delivery hmem => ?_).1,
    firstDeliveries_of_nodup horder.1]
  obtain ⟨event, hevent, rfl⟩ := List.mem_map.mp hmem
  exact (horder.2 event).mp hevent

theorem checkout_first :
    Accounts.IsOrder [checkoutEvent, activeEvent] [checkoutEvent, activeEvent] := by
  refine ⟨?_, fun _ => Iff.rfl⟩
  rw [List.nodup_cons, List.mem_singleton]
  refine ⟨fun h => ?_, List.nodup_singleton _⟩
  have hchange := checkoutEvent_change
  rw [h, activeEvent_change] at hchange
  cases hchange

theorem update_first : Accounts.IsOrder [checkoutEvent, activeEvent] [activeEvent, checkoutEvent] :=
  ⟨(List.Perm.swap _ _ _).nodup_iff.mp checkout_first.1, fun event => by simp [or_comm]⟩

end BillingSample

/-- An update that comes before the checkout is lost. -/
theorem order_matters :
    ∃ events, OneOwner (PersistedBillingState.accounts {})
        (Accounts.Changes (freshChange {}) events) ∧
      DistinctIds events ∧ ¬ OrderIndependent (fun _ => .ok ()) {} events := by
  refine ⟨_, BillingSample.oneOwner, BillingSample.distinctIds, fun hindependent => ?_⟩
  have hsame := sameBilling_iff.mp (hindependent _ _
    (delivers_of_isOrder BillingSample.checkout_first 0)
    (delivers_of_isOrder BillingSample.update_first 0))
  rw [BillingSample.after_order BillingSample.checkout_first,
    BillingSample.after_order BillingSample.update_first] at hsame
  have hsubscription := congrFun (congrArg Accounts.subscriptions hsame) "sub_1"
  have hstatus := congrArg (Option.map BillingSubscriptionRecord.status) hsubscription
  exact absurd hstatus (by decide)

/-- The order of a checkout and an update of its subscription. -/
theorem orderIndependent_iff_subscription :
    OrderIndependent (fun _ => .ok ()) {} [BillingSample.checkoutEvent, BillingSample.activeEvent] ↔
      OrderFree (PersistedBillingState.accounts {}) (Accounts.Changes (freshChange {})
        [BillingSample.checkoutEvent, BillingSample.activeEvent]) :=
  orderIndependent_iff _ BillingSample.oneOwner BillingSample.distinctIds

end VorCommander
