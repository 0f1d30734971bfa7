import VorCommander.Billing.Webhook

/-!
What billing events mean for the accounts.

Up to the times at which they were processed, the events change two tables: to
which organisation a customer belongs, and what is known of a subscription. A
checkout adds what it says unless the subscription is known; a subscription
event overwrites all but the plan, but only if its customer is known. The
webhook applies the changes of the events that it has not processed before.
-/

namespace VorCommander

open Text

/-! ### Changes -/

/-- What a completed checkout says. -/
structure Checkout where
  organizationId : String
  customerId : String
  subscriptionId : String
  planId : Option String

/-- What a subscription event says. -/
structure SubscriptionUpdate where
  customerId : String
  subscriptionId : String
  status : String
  priceId : Option String
  currentPeriodEnd : Option ℕ

inductive BillingChange
  | checkout (x : Checkout)
  | update (u : SubscriptionUpdate)
  | recordedOnly

/-- The customer of a checkout, as it is recorded at time zero. -/
def Checkout.customer (x : Checkout) : BillingCustomerRecord where
  organizationId := x.organizationId
  stripeCustomerId := x.customerId
  updatedAtUnixSeconds := 0

/-- The subscription of a checkout, as it is recorded at time zero. -/
def Checkout.record (x : Checkout) : BillingSubscriptionRecord where
  organizationId := x.organizationId
  stripeCustomerId := x.customerId
  stripeSubscriptionId := x.subscriptionId
  status := "checkout_completed"
  planId := x.planId
  priceId := none
  currentPeriodEnd := none
  entitlementActive := false
  updatedAtUnixSeconds := 0

/-- The record that an update leaves at time zero. -/
def SubscriptionUpdate.record (u : SubscriptionUpdate) (organizationId : String)
    (planId : Option String) : BillingSubscriptionRecord where
  organizationId := organizationId
  stripeCustomerId := u.customerId
  stripeSubscriptionId := u.subscriptionId
  status := u.status
  planId := planId
  priceId := u.priceId
  currentPeriodEnd := u.currentPeriodEnd
  entitlementActive := u.status ∈ activeSubscriptionStatuses
  updatedAtUnixSeconds := 0

/-- The subscription that a change is about, with its customer. -/
def BillingChange.subject : BillingChange → Option (String × String)
  | .checkout x => some (x.subscriptionId, x.customerId)
  | .update u => some (u.subscriptionId, u.customerId)
  | .recordedOnly => none

/-! ### Accounts -/

/-- The two tables. -/
@[ext]
structure Accounts where
  customers : String → Option BillingCustomerRecord
  subscriptions : String → Option BillingSubscriptionRecord

namespace Accounts

/-- The accounts after one change. -/
def apply (a : Accounts) : BillingChange → Accounts
  | .checkout x =>
      { customers := Function.update a.customers x.customerId (some x.customer)
        subscriptions := Function.update a.subscriptions x.subscriptionId
          (some ((a.subscriptions x.subscriptionId).getD x.record)) }
  | .update u =>
      match a.customers u.customerId with
      | none => a
      | some customer =>
          { a with
            subscriptions := Function.update a.subscriptions u.subscriptionId
              (some (u.record customer.organizationId
                ((a.subscriptions u.subscriptionId).bind (·.planId)))) }
  | .recordedOnly => a

/-- The accounts after a list of changes. -/
def run (a : Accounts) (changes : List BillingChange) : Accounts := changes.foldl apply a

variable {a : Accounts} {changes : List BillingChange} {change : BillingChange} {x : Checkout}
  {u : SubscriptionUpdate} {s c : String}

@[simp] theorem run_nil : a.run [] = a := rfl

theorem run_cons : a.run (change :: changes) = (a.apply change).run changes := rfl

theorem run_append (later : List BillingChange) :
    a.run (changes ++ later) = (a.run changes).run later :=
  List.foldl_append

theorem run_concat : a.run (changes ++ [change]) = (a.run changes).apply change := run_append _

/-! ### One change -/

@[simp] theorem apply_checkout_customers :
    (a.apply (.checkout x)).customers =
      Function.update a.customers x.customerId (some x.customer) := rfl

@[simp] theorem apply_checkout_subscriptions :
    (a.apply (.checkout x)).subscriptions = Function.update a.subscriptions x.subscriptionId
      (some ((a.subscriptions x.subscriptionId).getD x.record)) := rfl

theorem apply_update_unknown (h : a.customers u.customerId = none) : a.apply (.update u) = a := by
  rw [apply, h]

@[simp] theorem apply_update_customers : (a.apply (.update u)).customers = a.customers := by
  rw [apply]
  split <;> rfl

theorem apply_update_known {customer : BillingCustomerRecord}
    (h : a.customers u.customerId = some customer) :
    (a.apply (.update u)).subscriptions = Function.update a.subscriptions u.subscriptionId
      (some (u.record customer.organizationId
        ((a.subscriptions u.subscriptionId).bind (·.planId)))) := by
  rw [apply, h]

@[simp] theorem apply_recordedOnly : a.apply .recordedOnly = a := rfl

/-- A change of another subscription. -/
theorem apply_subscriptions_ne (h : ∀ subject, change.subject = some subject → subject.1 ≠ s) :
    (a.apply change).subscriptions s = a.subscriptions s := by
  cases change with
  | checkout x =>
      have hne : s ≠ x.subscriptionId := (h _ rfl).symm
      rw [apply_checkout_subscriptions, Function.update_of_ne hne]
  | update u =>
      have hne : s ≠ u.subscriptionId := (h _ rfl).symm
      cases hcustomer : a.customers u.customerId with
      | none => rw [apply_update_unknown hcustomer]
      | some customer => rw [apply_update_known hcustomer, Function.update_of_ne hne]
  | recordedOnly => rfl

/-- A subscription that is known stays known. -/
theorem apply_subscriptions_isSome (h : (a.subscriptions s).isSome) :
    ((a.apply change).subscriptions s).isSome := by
  by_cases hs : ∀ subject, change.subject = some subject → subject.1 ≠ s
  · rw [apply_subscriptions_ne hs]
    exact h
  · cases change with
    | checkout x =>
        obtain rfl : x.subscriptionId = s := by simpa [BillingChange.subject] using hs
        simp
    | update u =>
        obtain rfl : u.subscriptionId = s := by simpa [BillingChange.subject] using hs
        cases hcustomer : a.customers u.customerId with
        | none => rwa [apply_update_unknown hcustomer]
        | some customer => simp [apply_update_known hcustomer]
    | recordedOnly => exact h

/-- Nor does its plan change. -/
theorem apply_planId (change : BillingChange) {record : BillingSubscriptionRecord}
    (h : a.subscriptions s = some record) :
    ∃ record', (a.apply change).subscriptions s = some record' ∧
      record'.planId = record.planId := by
  by_cases hs : ∀ subject, change.subject = some subject → subject.1 ≠ s
  · exact ⟨record, by rw [apply_subscriptions_ne hs, h], rfl⟩
  · cases change with
    | checkout x =>
        obtain rfl : x.subscriptionId = s := by simpa [BillingChange.subject] using hs
        exact ⟨record, by simp [h], rfl⟩
    | update u =>
        obtain rfl : u.subscriptionId = s := by simpa [BillingChange.subject] using hs
        cases hcustomer : a.customers u.customerId with
        | none => exact ⟨record, by rw [apply_update_unknown hcustomer, h], rfl⟩
        | some customer =>
            refine ⟨_, by rw [apply_update_known hcustomer, Function.update_self], ?_⟩
            rw [h]
            rfl
    | recordedOnly => exact ⟨record, h, rfl⟩

/-- A customer that is known stays known. -/
theorem apply_customers_isSome (h : (a.customers c).isSome) :
    ((a.apply change).customers c).isSome := by
  cases change with
  | checkout x =>
      rw [apply_checkout_customers]
      by_cases hc : c = x.customerId
      · subst hc
        simp
      · rwa [Function.update_of_ne hc]
  | update u => rwa [apply_update_customers]
  | recordedOnly => exact h

/-! ### Many changes -/

theorem run_subscriptions_isSome (h : (a.subscriptions s).isSome) :
    ((a.run changes).subscriptions s).isSome := by
  induction changes generalizing a with
  | nil => exact h
  | cons change changes ih => exact ih (apply_subscriptions_isSome h)

theorem run_planId {record : BillingSubscriptionRecord} (h : a.subscriptions s = some record) :
    ∃ record', (a.run changes).subscriptions s = some record' ∧
      record'.planId = record.planId := by
  induction changes generalizing a record with
  | nil => exact ⟨record, h, rfl⟩
  | cons change changes ih =>
      obtain ⟨next, hnext, hplan⟩ := apply_planId change h
      obtain ⟨last, hlast, hsame⟩ := ih hnext
      exact ⟨last, hlast, hsame.trans hplan⟩

theorem run_customers_isSome (h : (a.customers c).isSome) :
    ((a.run changes).customers c).isSome := by
  induction changes generalizing a with
  | nil => exact h
  | cons change changes ih => exact ih (apply_customers_isSome h)

/-- A customer without a checkout stays as it is. -/
theorem run_customers_of_forall_ne (h : ∀ x, .checkout x ∈ changes → x.customerId ≠ c) :
    (a.run changes).customers c = a.customers c := by
  induction changes using List.reverseRecOn with
  | nil => rfl
  | append_singleton changes change ih =>
      have hbefore := ih fun x hx => h x (List.mem_append_left _ hx)
      rw [run_concat]
      cases change with
      | checkout x =>
          have hne : c ≠ x.customerId := (h x (by simp)).symm
          rw [apply_checkout_customers, Function.update_of_ne hne, hbefore]
      | update u => rw [apply_update_customers, hbefore]
      | recordedOnly => exact hbefore

/-- The customer of a checkout belongs to the organisation of a checkout. -/
theorem run_customers_of_mem (h : .checkout x ∈ changes) :
    ∃ y, .checkout y ∈ changes ∧ y.customerId = x.customerId ∧
      (a.run changes).customers x.customerId = some y.customer := by
  induction changes using List.reverseRecOn with
  | nil => simp at h
  | append_singleton changes change ih =>
      by_cases hlast : ∃ y, change = .checkout y ∧ y.customerId = x.customerId
      · obtain ⟨y, rfl, hy⟩ := hlast
        refine ⟨y, by simp, hy, ?_⟩
        rw [run_concat, apply_checkout_customers, hy, Function.update_self]
      · have hmem : .checkout x ∈ changes := by
          rcases List.mem_append.mp h with hmem | hmem
          · exact hmem
          · exact absurd ⟨x, (List.mem_singleton.mp hmem).symm, rfl⟩ hlast
        obtain ⟨y, hy, hsame, hcustomer⟩ := ih hmem
        refine ⟨y, List.mem_append_left _ hy, hsame, ?_⟩
        rw [run_concat]
        cases change with
        | checkout z =>
            have hne : x.customerId ≠ z.customerId := fun heq => hlast ⟨z, rfl, heq.symm⟩
            rw [apply_checkout_customers, Function.update_of_ne hne, hcustomer]
        | update u => rw [apply_update_customers, hcustomer]
        | recordedOnly => exact hcustomer

/-- Where a customer is from that is known. -/
theorem run_customers_cases {customer : BillingCustomerRecord}
    (h : (a.run changes).customers c = some customer) :
    a.customers c = some customer ∨
      ∃ x, .checkout x ∈ changes ∧ x.customerId = c ∧ customer = x.customer := by
  by_cases hx : ∃ x, .checkout x ∈ changes ∧ x.customerId = c
  · obtain ⟨x, hmem, rfl⟩ := hx
    obtain ⟨y, hy, hsame, hcustomer⟩ := run_customers_of_mem (a := a) hmem
    rw [hcustomer] at h
    exact .inr ⟨y, hy, hsame, (Option.some.inj h).symm⟩
  · rw [run_customers_of_forall_ne fun x hmem heq => hx ⟨x, hmem, heq⟩] at h
    exact .inl h

end Accounts

end VorCommander
