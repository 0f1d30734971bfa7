import VorCommander.Billing.Independence

/-!
Who owns customers and subscriptions.

A checkout cannot map a customer to a second organisation: the webhook refuses
it. A subscription event is not compared with what is stored. It takes its
organisation from its customer, so that a subscription goes over to another
organisation if the event names a customer of that organisation. Nothing else
changes an owner.
-/

namespace VorCommander

open Steps Text

/-! ### One change -/

/-- The subscription that is stored belongs to another organisation than the
customer that the update names. -/
def BillingChange.Overwrites (a : Accounts) : BillingChange → Prop
  | .update u => ∃ customer record, a.customers u.customerId = some customer ∧
      a.subscriptions u.subscriptionId = some record ∧
      record.organizationId ≠ customer.organizationId
  | _ => False

namespace Accounts

variable {a : Accounts} {change : BillingChange} {s c : String}

/-- Every subscription belongs to the organisation of its customer. -/
def Consistent (a : Accounts) : Prop :=
  ∀ s record, a.subscriptions s = some record →
    ∃ customer, a.customers record.stripeCustomerId = some customer ∧
      customer.organizationId = record.organizationId

/-- A customer keeps its organisation. -/
theorem apply_customer_owner (hagrees : change.Agrees a) {customer : BillingCustomerRecord}
    (h : a.customers c = some customer) :
    ∃ customer', (a.apply change).customers c = some customer' ∧
      customer'.organizationId = customer.organizationId := by
  cases change with
  | checkout x =>
      rw [apply_checkout_customers]
      by_cases hc : c = x.customerId
      · subst hc
        exact ⟨x.customer, Function.update_self .., (hagrees customer h).symm⟩
      · exact ⟨customer, by rw [Function.update_of_ne hc, h], rfl⟩
  | update u => exact ⟨customer, by rw [apply_update_customers, h], rfl⟩
  | recordedOnly => exact ⟨customer, h, rfl⟩

/-- A subscription keeps its organisation unless an update overwrites it. -/
theorem apply_subscription_owner (hkeeps : ¬ change.Overwrites a)
    {record : BillingSubscriptionRecord} (h : a.subscriptions s = some record) :
    ∃ record', (a.apply change).subscriptions s = some record' ∧
      record'.organizationId = record.organizationId := by
  cases change with
  | checkout x =>
      rw [apply_checkout_subscriptions]
      by_cases hs : s = x.subscriptionId
      · subst hs
        exact ⟨record, by rw [Function.update_self, h, Option.getD_some], rfl⟩
      · exact ⟨record, by rw [Function.update_of_ne hs, h], rfl⟩
  | update u =>
      cases hcustomer : a.customers u.customerId with
      | none => exact ⟨record, by rw [apply_update_unknown hcustomer, h], rfl⟩
      | some customer =>
          rw [apply_update_known hcustomer]
          by_cases hs : s = u.subscriptionId
          · subst hs
            refine ⟨_, Function.update_self .., ?_⟩
            by_contra hother
            exact hkeeps ⟨customer, record, hcustomer, h, Ne.symm hother⟩
          · exact ⟨record, by rw [Function.update_of_ne hs, h], rfl⟩
  | recordedOnly => exact ⟨record, h, rfl⟩

theorem Consistent.apply (h : a.Consistent) (hagrees : change.Agrees a) :
    (a.apply change).Consistent := by
  intro s record hrecord
  cases change with
  | recordedOnly => exact h s record hrecord
  | checkout x =>
      rw [apply_checkout_subscriptions] at hrecord
      by_cases hnew : s = x.subscriptionId ∧ a.subscriptions s = none
      · obtain ⟨rfl, hnone⟩ := hnew
        obtain rfl : x.record = record := by simpa [hnone] using hrecord
        exact ⟨x.customer, Function.update_self .., rfl⟩
      · have hold : a.subscriptions s = some record := by
          by_cases hs : s = x.subscriptionId
          · subst hs
            obtain ⟨old, hold⟩ := Option.ne_none_iff_exists'.mp fun hnone => hnew ⟨rfl, hnone⟩
            simpa [hold] using hrecord
          · rwa [Function.update_of_ne hs] at hrecord
        obtain ⟨customer, hcustomer, howner⟩ := h s record hold
        obtain ⟨customer', hcustomer', hsame⟩ := apply_customer_owner hagrees hcustomer
        exact ⟨customer', hcustomer', hsame.trans howner⟩
  | update u =>
      rw [apply_update_customers]
      cases hcustomer : a.customers u.customerId with
      | none =>
          rw [apply_update_unknown hcustomer] at hrecord
          exact h s record hrecord
      | some customer =>
          rw [apply_update_known hcustomer] at hrecord
          by_cases hs : s = u.subscriptionId
          · subst hs
            rw [Function.update_self] at hrecord
            obtain rfl := Option.some.inj hrecord
            exact ⟨customer, hcustomer, rfl⟩
          · rw [Function.update_of_ne hs] at hrecord
            exact h s record hrecord

/-- An update that overwrites a subscription gives it to the organisation of its
own customer. -/
theorem apply_overwrites (h : change.Overwrites a) :
    ∃ s record record', a.subscriptions s = some record ∧
      (a.apply change).subscriptions s = some record' ∧
      record'.organizationId ≠ record.organizationId := by
  cases change with
  | update u =>
      obtain ⟨customer, record, hcustomer, hrecord, hother⟩ := h
      refine ⟨u.subscriptionId, record, u.record customer.organizationId
        ((a.subscriptions u.subscriptionId).bind (·.planId)), hrecord, ?_, Ne.symm hother⟩
      rw [apply_update_known hcustomer, Function.update_self]
  | checkout x => exact h.elim
  | recordedOnly => exact h.elim

end Accounts

/-! ### One delivery -/

variable {state : PersistedBillingState} {event : Value} {eventId eventType : String}
  {change : BillingChange} {now : ℕ} (persist : PersistedBillingState → Except BillingError Unit)

/-- A checkout of a customer that belongs to another organisation is refused. -/
theorem applyEventToState_conflict (eventId : String) (now : ℕ)
    (h : changeOf eventType event = .ok change)
    (hagrees : ¬ change.Agrees state.accounts) :
    ∃ e, applyEventToState state eventId eventType event now = .error e := by
  rw [changeOf] at h
  rw [applyEventToState]
  split_ifs at h ⊢
  · obtain ⟨x, hx, rfl⟩ := map_eq_ok.mp h
    rw [applyCheckoutCompleted_eq, hx, ok_bind, recordCheckout, upsertCustomer]
    simp only [BillingChange.Agrees, accounts_customers, Option.map_eq_some_iff,
      not_forall] at hagrees
    obtain ⟨_, ⟨existing, hexisting, rfl⟩, hother⟩ := hagrees
    rw [if_pos ⟨existing, hexisting, hother⟩]
    exact ⟨_, rfl⟩
  · obtain ⟨u, hu, rfl⟩ := map_eq_ok.mp h
    exact absurd trivial hagrees
  · obtain rfl := Except.ok.inj h
    exact absurd trivial hagrees

/-- A delivery changes nothing, or it makes the change of its event and writes the
event down. -/
theorem applyTestWebhook_cases (state : PersistedBillingState) (event : Value) (now : ℕ) :
    (applyTestWebhook persist state event now).2 = state ∨
      ∃ change, freshChange state event = some change ∧ change.Agrees state.accounts ∧
        (applyTestWebhook persist state event now).2.accounts = state.accounts.apply change ∧
        ∃ eventId record, requiredStr event "id" = .ok eventId ∧
          (applyTestWebhook persist state event now).2.events =
            state.events.insert eventId record := by
  cases hchange : freshChange state event with
  | none => exact .inl (applyTestWebhook_unchanged persist hchange)
  | some change =>
      by_cases hagrees : change.Agrees state.accounts
      · exact .inr ⟨change, rfl, hagrees, applyTestWebhook_changed persist now hchange hagrees⟩
      · left
        rw [freshChange] at hchange
        rw [applyTestWebhook]
        cases hid : requiredStr event "id" with
        | error e => rfl
        | ok eventId =>
            cases htype : requiredStr event "type" with
            | error e => rfl
            | ok eventType =>
                simp only [hid, htype] at hchange ⊢
                by_cases hprocessed : state.events.contains eventId
                · simp only [if_pos hprocessed]
                · simp only [if_neg hprocessed, toOption_eq_some] at hchange ⊢
                  obtain ⟨e, hrefused⟩ := applyEventToState_conflict eventId now hchange hagrees
                  rw [hrefused]

/-! ### Runs -/

theorem afterDeliveries_concat (deliveries : List (Value × ℕ)) (delivery : Value × ℕ) :
    afterDeliveries persist state (deliveries ++ [delivery]) =
      (applyTestWebhook persist (afterDeliveries persist state deliveries)
        delivery.1 delivery.2).2 := by
  rw [afterDeliveries, List.foldl_append]
  rfl

/-- The delivery gives a subscription to another organisation. -/
def Overwrites (state : PersistedBillingState) (event : Value) : Prop :=
  ∃ change, freshChange state event = some change ∧ change.Overwrites state.accounts

/-- Over the deliveries to an empty store no owner changes: at any two moments a
customer has the same organisation, a subscription has the same organisation, and
at any moment the organisation of a subscription is that of its customer. -/
structure OwnedOnce (deliveries : List (Value × ℕ)) : Prop where
  customers : ∀ first second rest, deliveries = first ++ second ++ rest →
    ∀ (c : String) customer, (afterDeliveries persist {} first).customers[c]? = some customer →
      ∃ customer', (afterDeliveries persist {} (first ++ second)).customers[c]? = some customer' ∧
        customer'.organizationId = customer.organizationId
  subscriptions : ∀ first second rest, deliveries = first ++ second ++ rest →
    ∀ (s : String) record, (afterDeliveries persist {} first).subscriptions[s]? = some record →
      ∃ record', (afterDeliveries persist {} (first ++ second)).subscriptions[s]? = some record' ∧
        record'.organizationId = record.organizationId
  consistent : ∀ first rest, deliveries = first ++ rest →
    ∀ (s : String) record, (afterDeliveries persist {} first).subscriptions[s]? = some record →
      ∃ customer, (afterDeliveries persist {} first).customers[record.stripeCustomerId]? =
          some customer ∧ customer.organizationId = record.organizationId

theorem accounts_customers_some {c : String} {customer : BillingCustomerRecord}
    (h : state.customers[c]? = some customer) :
    state.accounts.customers c = some customer.timeless := by
  rw [accounts_customers, h]
  rfl

theorem accounts_subscriptions_some {s : String} {record : BillingSubscriptionRecord}
    (h : state.subscriptions[s]? = some record) :
    state.accounts.subscriptions s = some record.timeless := by
  rw [accounts_subscriptions, h]
  rfl

/-- An organisation of a customer is that of the stored record. -/
theorem exists_customer_of_accounts {c organizationId : String}
    (h : ∃ customer, state.accounts.customers c = some customer ∧
      customer.organizationId = organizationId) :
    ∃ customer, state.customers[c]? = some customer ∧ customer.organizationId = organizationId := by
  obtain ⟨_, hcustomer, howner⟩ := h
  obtain ⟨customer, hstored, rfl⟩ := Option.map_eq_some_iff.mp hcustomer
  exact ⟨customer, hstored, howner⟩

theorem exists_subscription_of_accounts {s : String} {record : BillingSubscriptionRecord}
    (h : state.accounts.subscriptions s = some record) :
    ∃ stored, state.subscriptions[s]? = some stored ∧ stored.timeless = record :=
  Option.map_eq_some_iff.mp h

/-- The organisations of the customers stay over any deliveries. -/
theorem customer_owner_stays (deliveries : List (Value × ℕ)) {c : String}
    {customer : BillingCustomerRecord} (h : state.accounts.customers c = some customer) :
    ∃ customer', (afterDeliveries persist state deliveries).accounts.customers c = some customer' ∧
      customer'.organizationId = customer.organizationId := by
  induction deliveries using List.reverseRecOn with
  | nil => exact ⟨customer, h, rfl⟩
  | append_singleton deliveries delivery ih =>
      obtain ⟨customer', hcustomer', hsame⟩ := ih
      rw [afterDeliveries_concat]
      rcases applyTestWebhook_cases persist (afterDeliveries persist state deliveries) delivery.1
        delivery.2 with heq | ⟨change, -, hagrees, heq, -⟩
      · rw [heq]
        exact ⟨customer', hcustomer', hsame⟩
      · rw [heq]
        obtain ⟨last, hlast, howner⟩ := Accounts.apply_customer_owner hagrees hcustomer'
        exact ⟨last, hlast, howner.trans hsame⟩

/-- The organisations of the subscriptions stay over deliveries that overwrite
none. -/
theorem subscription_owner_stays {deliveries : List (Value × ℕ)}
    (hkeeps : ∀ first delivery rest, deliveries = first ++ delivery :: rest →
      ¬ Overwrites (afterDeliveries persist state first) delivery.1)
    {s : String} {record : BillingSubscriptionRecord}
    (h : state.accounts.subscriptions s = some record) :
    ∃ record', (afterDeliveries persist state deliveries).accounts.subscriptions s = some record' ∧
      record'.organizationId = record.organizationId := by
  induction deliveries using List.reverseRecOn with
  | nil => exact ⟨record, h, rfl⟩
  | append_singleton deliveries delivery ih =>
      have hearlier : ∀ first delivery' rest, deliveries = first ++ delivery' :: rest →
          ¬ Overwrites (afterDeliveries persist state first) delivery'.1 := by
        rintro first delivery' rest rfl
        exact hkeeps first delivery' (rest ++ [delivery]) (by simp)
      obtain ⟨record', hrecord', hsame⟩ := ih hearlier
      rw [afterDeliveries_concat]
      rcases applyTestWebhook_cases persist (afterDeliveries persist state deliveries) delivery.1
        delivery.2 with heq | ⟨change, hchange, -, heq, -⟩
      · rw [heq]
        exact ⟨record', hrecord', hsame⟩
      · rw [heq]
        have hlast : ¬ change.Overwrites (afterDeliveries persist state deliveries).accounts :=
          fun hoverwrites => hkeeps deliveries delivery [] rfl ⟨change, hchange, hoverwrites⟩
        obtain ⟨last, hlast, howner⟩ := Accounts.apply_subscription_owner hlast hrecord'
        exact ⟨last, hlast, howner.trans hsame⟩

/-- Every subscription belongs to the organisation of its customer, over any
deliveries. -/
theorem consistent_after (deliveries : List (Value × ℕ)) (h : state.accounts.Consistent) :
    (afterDeliveries persist state deliveries).accounts.Consistent := by
  induction deliveries using List.reverseRecOn with
  | nil => exact h
  | append_singleton deliveries delivery ih =>
      rw [afterDeliveries_concat]
      rcases applyTestWebhook_cases persist (afterDeliveries persist state deliveries) delivery.1
        delivery.2 with heq | ⟨change, -, hagrees, heq, -⟩
      · rwa [heq]
      · rw [heq]
        exact ih.apply hagrees

theorem afterDeliveries_append (first second : List (Value × ℕ)) :
    afterDeliveries persist state (first ++ second) =
      afterDeliveries persist (afterDeliveries persist state first) second :=
  List.foldl_append

/-- No owner ever changes if and only if no delivery gives a stored subscription
to another organisation. -/
theorem ownedOnce_iff (deliveries : List (Value × ℕ)) :
    OwnedOnce persist deliveries ↔
      ∀ first delivery rest, deliveries = first ++ delivery :: rest →
        ¬ Overwrites (afterDeliveries persist {} first) delivery.1 := by
  constructor
  · rintro howned first delivery rest rfl ⟨change, hchange, hoverwrites⟩
    obtain ⟨s, record, record', hrecord, hrecord', hother⟩ :=
      Accounts.apply_overwrites hoverwrites
    have hagrees : change.Agrees (afterDeliveries persist {} first).accounts := by
      cases change with
      | update u => trivial
      | checkout x => exact hoverwrites.elim
      | recordedOnly => trivial
    have happlied := (applyTestWebhook_changed persist delivery.2 hchange hagrees).1
    rw [← happlied, ← afterDeliveries_concat] at hrecord'
    obtain ⟨stored, hstored, rfl⟩ := exists_subscription_of_accounts hrecord
    obtain ⟨stored', hstored', rfl⟩ := exists_subscription_of_accounts hrecord'
    obtain ⟨_, hlast, hsame⟩ :=
      howned.subscriptions first [delivery] rest (by simp) s stored hstored
    obtain rfl := Option.some.inj (hstored' ▸ hlast)
    exact hother hsame
  · intro hkeeps
    have hempty : (PersistedBillingState.accounts {}).Consistent := by
      intro s record h
      rw [accounts_subscriptions, Std.ExtTreeMap.getElem?_empty] at h
      cases h
    refine ⟨?_, ?_, ?_⟩
    · rintro first second rest - c customer h
      rw [afterDeliveries_append]
      have hstays := customer_owner_stays persist second (accounts_customers_some h)
      exact exists_customer_of_accounts hstays
    · rintro first second rest rfl s record h
      have hsecond : ∀ earlier delivery later, second = earlier ++ delivery :: later →
          ¬ Overwrites (afterDeliveries persist (afterDeliveries persist {} first) earlier)
            delivery.1 := by
        rintro earlier delivery later rfl
        rw [← afterDeliveries_append]
        exact hkeeps (first ++ earlier) delivery (later ++ rest) (by simp)
      obtain ⟨record', hrecord', hsame⟩ :=
        subscription_owner_stays persist hsecond (accounts_subscriptions_some h)
      obtain ⟨stored, hstored, rfl⟩ := exists_subscription_of_accounts hrecord'
      rw [afterDeliveries_append]
      exact ⟨stored, hstored, hsame⟩
    · rintro first rest - s record h
      have hconsistent :=
        consistent_after persist first hempty s _ (accounts_subscriptions_some h)
      exact exists_customer_of_accounts hconsistent

/-! ### A subscription that goes over -/

namespace BillingSample

/-- A checkout of a customer and a subscription for an organisation. -/
def checkoutOfOrganization (eventId customerId subscriptionId organizationId : String) : Value :=
  .object
    [("id", .string eventId),
      ("type", .string "checkout.session.completed"),
      ("data", .object [("object", .object
        [("customer", .string customerId),
          ("subscription", .string subscriptionId),
          ("metadata", .object [("organization_id", .string organizationId)])])])]

/-- An update of the subscription of one organisation that names the customer of
another. -/
def crossingEvent : Value := .object
  [("id", .string "evt_3"),
    ("type", .string "customer.subscription.updated"),
    ("data", .object [("object", .object
      [("id", .string "sub_a"),
        ("customer", .string "cus_b"),
        ("status", .string "active")])])]

def checkouts : List (Value × ℕ) :=
  [(checkoutOfOrganization "evt_1" "cus_a" "sub_a" "org-a", 1),
    (checkoutOfOrganization "evt_2" "cus_b" "sub_b" "org-b", 2)]

end BillingSample

/-- The subscription of one organisation becomes the other's. -/
theorem subscription_goes_over :
    ¬ OwnedOnce (fun _ => .ok ())
      (BillingSample.checkouts ++ [(BillingSample.crossingEvent, 3)]) := by
  intro howned
  have hbefore : (afterDeliveries (fun _ => .ok ()) {}
      BillingSample.checkouts).subscriptions["sub_a"]?.map (·.organizationId) = some "org-a" := by
    decide +kernel
  have hafter : (afterDeliveries (fun _ => .ok ()) {} (BillingSample.checkouts ++
      [(BillingSample.crossingEvent, 3)])).subscriptions["sub_a"]?.map (·.organizationId) =
        some "org-b" := by
    decide +kernel
  obtain ⟨record, hrecord, horganization⟩ := Option.map_eq_some_iff.mp hbefore
  obtain ⟨record', hrecord', hsame⟩ :=
    howned.subscriptions BillingSample.checkouts [(BillingSample.crossingEvent, 3)] [] rfl "sub_a"
      record hrecord
  rw [hrecord', Option.map_some, hsame, horganization] at hafter
  exact absurd (Option.some.inj hafter) (by decide)

end VorCommander
