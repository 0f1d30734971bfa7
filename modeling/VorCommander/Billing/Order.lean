import Mathlib.Data.List.Dedup
import VorCommander.Billing.Accounts

/-!
When the order of changes does not matter.

Two orders of the same changes can leave different accounts: the last update of
a subscription wins, the first checkout decides on its plan, and an update that
comes before the first checkout of its customer is lost. `OrderFree` says that
none of this makes a difference.
-/

namespace VorCommander

/-- Each customer belongs to one organisation, and each subscription to one
customer. -/
structure OneOwner (a : Accounts) (changes : Set BillingChange) : Prop where
  customers : ∀ x y, .checkout x ∈ changes → .checkout y ∈ changes →
    x.customerId = y.customerId → x.organizationId = y.organizationId
  known : ∀ x customer, .checkout x ∈ changes → a.customers x.customerId = some customer →
    customer.organizationId = x.organizationId
  subscriptions : ∀ change ∈ changes, ∀ change' ∈ changes, ∀ s c c',
    change.subject = some (s, c) → change'.subject = some (s, c') → c = c'

/-- The customer is known in the end. -/
def BecomesKnown (a : Accounts) (changes : Set BillingChange) (c : String) : Prop :=
  (a.customers c).isSome ∨ ∃ x, .checkout x ∈ changes ∧ x.customerId = c

/-- The changes whose order does not matter. -/
structure OrderFree (a : Accounts) (changes : Set BillingChange) : Prop where
  /-- The checkouts of a new subscription name one plan. -/
  plans : ∀ x y, .checkout x ∈ changes → .checkout y ∈ changes →
    x.subscriptionId = y.subscriptionId → a.subscriptions x.subscriptionId = none →
      x.planId = y.planId
  /-- A checkout that an update can come before names no plan. -/
  unplanned : ∀ x u, .checkout x ∈ changes → .update u ∈ changes →
    x.subscriptionId = u.subscriptionId → a.subscriptions x.subscriptionId = none →
      ((a.customers u.customerId).isSome ∨ ∃ y, .checkout y ∈ changes ∧
        y.customerId = u.customerId ∧ y.subscriptionId ≠ x.subscriptionId) → x.planId = none
  /-- The updates of a subscription say the same. -/
  updates : ∀ u v, .update u ∈ changes → .update v ∈ changes →
    u.subscriptionId = v.subscriptionId → BecomesKnown a changes u.customerId → u = v
  /-- An update of a customer who is not known yet changes nothing. -/
  late : ∀ u y, .update u ∈ changes → .checkout y ∈ changes → y.customerId = u.customerId →
    a.customers u.customerId = none → ∃ record,
      (a.subscriptions u.subscriptionId = some record ∨
        a.subscriptions u.subscriptionId = none ∧ ∃ x, .checkout x ∈ changes ∧
          x.subscriptionId = u.subscriptionId ∧ record = x.record) ∧
      u.record y.organizationId record.planId = record

/-- All of a record but the plan. -/
def BillingSubscriptionRecord.withoutPlan (record : BillingSubscriptionRecord) :
    BillingSubscriptionRecord :=
  { record with planId := none }

theorem BillingSubscriptionRecord.eq_of_withoutPlan {record record' : BillingSubscriptionRecord}
    (h : record.withoutPlan = record'.withoutPlan) (hplan : record.planId = record'.planId) :
    record = record' := by
  cases record
  cases record'
  simp only [withoutPlan, mk.injEq] at h hplan
  simp [h, hplan]

namespace Accounts

variable {a : Accounts} {changes : Set BillingChange} {delivered first second : List BillingChange}
  {x : Checkout} {u : SubscriptionUpdate} {s : String} {record : BillingSubscriptionRecord}

/-! ### The subscription after a change -/

/-- What a checkout leaves of its subscription. -/
theorem apply_checkout_cases (h : (a.apply (.checkout x)).subscriptions x.subscriptionId =
    some record) :
    a.subscriptions x.subscriptionId = some record ∨
      a.subscriptions x.subscriptionId = none ∧ record = x.record := by
  rw [apply_checkout_subscriptions, Function.update_self] at h
  obtain rfl := Option.some.inj h
  cases a.subscriptions x.subscriptionId with
  | none => exact .inr ⟨rfl, rfl⟩
  | some record => exact .inl rfl

/-- What an update leaves of its subscription. -/
theorem apply_update_cases (h : (a.apply (.update u)).subscriptions u.subscriptionId =
    some record) :
    a.subscriptions u.subscriptionId = some record ∧ a.customers u.customerId = none ∨
      ∃ customer, a.customers u.customerId = some customer ∧
        record = u.record customer.organizationId
          ((a.subscriptions u.subscriptionId).bind (·.planId)) := by
  cases hcustomer : a.customers u.customerId with
  | none =>
      rw [apply_update_unknown hcustomer] at h
      exact .inl ⟨h, rfl⟩
  | some customer =>
      rw [apply_update_known hcustomer, Function.update_self] at h
      exact .inr ⟨customer, rfl, (Option.some.inj h).symm⟩

/-- The rule for what holds of every record of a subscription. -/
theorem run_record {p : BillingSubscriptionRecord → Prop}
    (hdelivered : ∀ change ∈ delivered, change ∈ changes)
    (initially : ∀ record, a.subscriptions s = some record → p record)
    (checkout : ∀ x, .checkout x ∈ changes → x.subscriptionId = s → a.subscriptions s = none →
      p x.record)
    (update : ∀ u earlier customer, .update u ∈ changes → u.subscriptionId = s →
      (∀ change ∈ earlier, change ∈ changes) →
      (a.run earlier).customers u.customerId = some customer →
      (∀ record, (a.run earlier).subscriptions s = some record → p record) →
        p (u.record customer.organizationId (((a.run earlier).subscriptions s).bind (·.planId))))
    (h : (a.run delivered).subscriptions s = some record) : p record := by
  induction delivered using List.reverseRecOn generalizing record with
  | nil => exact initially record h
  | append_singleton delivered change ih =>
      have hearlier : ∀ change ∈ delivered, change ∈ changes :=
        fun change hmem => hdelivered change (List.mem_append_left _ hmem)
      have hchange : change ∈ changes := hdelivered change (by simp)
      have hbefore : ∀ record, (a.run delivered).subscriptions s = some record → p record :=
        fun record => ih hearlier
      rw [run_concat] at h
      by_cases hs : ∀ subject, change.subject = some subject → subject.1 ≠ s
      · rw [apply_subscriptions_ne hs] at h
        exact hbefore record h
      cases change with
      | recordedOnly => exact hbefore record h
      | checkout x =>
          obtain rfl : x.subscriptionId = s := by simpa [BillingChange.subject] using hs
          rcases apply_checkout_cases h with hsame | ⟨hnew, rfl⟩
          · exact hbefore record hsame
          · apply checkout x hchange rfl
            by_contra hknown
            have hstays : ((a.run delivered).subscriptions x.subscriptionId).isSome :=
              run_subscriptions_isSome (Option.isSome_iff_ne_none.mpr hknown)
            simp [hnew] at hstays
      | update u =>
          obtain rfl : u.subscriptionId = s := by simpa [BillingChange.subject] using hs
          rcases apply_update_cases h with ⟨hsame, -⟩ | ⟨customer, hcustomer, rfl⟩
          · exact hbefore record hsame
          · exact update u delivered customer hchange rfl hearlier hcustomer hbefore

/-! ### Orders that leave the same -/

/-- A customer that is known belongs to the organisation of its checkouts. -/
theorem organization_of_checkout (hone : OneOwner a changes)
    (hdelivered : ∀ change ∈ delivered, change ∈ changes)
    {customer : BillingCustomerRecord} (hx : .checkout x ∈ changes)
    (h : (a.run delivered).customers x.customerId = some customer) :
    customer.organizationId = x.organizationId := by
  rcases run_customers_cases h with hknown | ⟨y, hy, hsame, rfl⟩
  · exact hone.known x customer hx hknown
  · exact hone.customers y x (hdelivered _ hy) hx hsame

/-- A customer that was known in the beginning keeps its organisation. -/
theorem organization_of_known (hone : OneOwner a changes)
    (hdelivered : ∀ change ∈ delivered, change ∈ changes) {c : String}
    {customer initially : BillingCustomerRecord} (hc : a.customers c = some initially)
    (h : (a.run delivered).customers c = some customer) :
    customer.organizationId = initially.organizationId := by
  rcases run_customers_cases h with hknown | ⟨y, hy, rfl, rfl⟩
  · rw [hc] at hknown
    rw [Option.some.inj hknown]
  · exact (hone.known y initially (hdelivered _ hy) hc).symm

/-- A delivered checkout leaves a record. -/
theorem isSome_of_checkout (hx : .checkout x ∈ delivered) :
    ((a.run delivered).subscriptions x.subscriptionId).isSome := by
  obtain ⟨earlier, later, rfl⟩ := List.append_of_mem hx
  rw [run_append, run_cons]
  apply run_subscriptions_isSome
  simp

/-- So does an update of a customer who is known. -/
theorem isSome_of_update (hu : .update u ∈ delivered) (hknown : (a.customers u.customerId).isSome) :
    ((a.run delivered).subscriptions u.subscriptionId).isSome := by
  obtain ⟨earlier, later, rfl⟩ := List.append_of_mem hu
  have hstays : ((a.run earlier).customers u.customerId).isSome := run_customers_isSome hknown
  obtain ⟨customer, hcustomer⟩ := Option.isSome_iff_exists.mp hstays
  rw [run_append, run_cons]
  apply run_subscriptions_isSome
  simp [apply_update_known hcustomer]

/-- Where a record is from. -/
theorem record_origin (hfree : OrderFree a changes)
    (hdelivered : ∀ change ∈ delivered, change ∈ changes)
    (h : (a.run delivered).subscriptions s = some record) :
    (a.subscriptions s).isSome ∨ (∃ x, .checkout x ∈ changes ∧ x.subscriptionId = s) ∨
      ∃ u, .update u ∈ changes ∧ u.subscriptionId = s ∧ (a.customers u.customerId).isSome := by
  refine run_record (p := fun _ => _) hdelivered ?_ ?_ ?_ h
  · intro record hrecord
    exact .inl (by simp [hrecord])
  · intro x hx hs _
    exact .inr (.inl ⟨x, hx, hs⟩)
  · intro u earlier customer hu hs hearlier hcustomer _
    by_cases hknown : (a.customers u.customerId).isSome
    · exact .inr (.inr ⟨u, hu, hs, hknown⟩)
    rw [Option.not_isSome_iff_eq_none] at hknown
    rcases run_customers_cases hcustomer with hcustomer | ⟨y, hy, hsame, rfl⟩
    · simp [hknown] at hcustomer
    · obtain ⟨late, hlate | ⟨-, x, hx, hsub, -⟩, -⟩ :=
        hfree.late u y hu (hearlier _ hy) hsame hknown
      · exact .inl (by simp [← hs, hlate])
      · exact .inr (.inl ⟨x, hx, hsub.trans hs⟩)

/-- Every record of a new subscription has the plan of its checkouts. -/
theorem planId_of_checkout (hfree : OrderFree a changes)
    (hdelivered : ∀ change ∈ delivered, change ∈ changes) (hx : .checkout x ∈ changes)
    (hnew : a.subscriptions x.subscriptionId = none)
    (h : (a.run delivered).subscriptions x.subscriptionId = some record) :
    record.planId = x.planId := by
  refine run_record (p := fun record => record.planId = x.planId) hdelivered ?_ ?_ ?_ h
  · intro record hrecord
    rw [hnew] at hrecord
    cases hrecord
  · intro y hy hsame hnone
    rw [← hsame] at hnone
    exact hfree.plans y x hy hx hsame hnone
  · intro u earlier customer hu hsame hearlier hcustomer hbefore
    change ((a.run earlier).subscriptions x.subscriptionId).bind (·.planId) = x.planId
    cases hprior : (a.run earlier).subscriptions x.subscriptionId with
    | some prior => exact hbefore prior hprior
    | none =>
        refine (hfree.unplanned x u hx hu hsame.symm hnew ?_).symm
        rcases run_customers_cases hcustomer with hknown | ⟨y, hy, hcus, -⟩
        · exact .inl (by simp [hknown])
        · refine .inr ⟨y, hearlier _ hy, hcus, fun heq => ?_⟩
          have hsome : ((a.run earlier).subscriptions y.subscriptionId).isSome :=
            isSome_of_checkout hy
          rw [heq, hprior] at hsome
          cases hsome

/-- A new subscription without a checkout has no plan. -/
theorem planId_of_no_checkout (hdelivered : ∀ change ∈ delivered, change ∈ changes)
    (hnew : a.subscriptions s = none) (hno : ∀ x, .checkout x ∈ changes → x.subscriptionId ≠ s)
    (h : (a.run delivered).subscriptions s = some record) : record.planId = none := by
  refine run_record (p := fun record => record.planId = none) hdelivered ?_ ?_ ?_ h
  · intro record hrecord
    rw [hnew] at hrecord
    cases hrecord
  · exact fun x hx hsame _ => absurd hsame (hno x hx)
  · intro u earlier customer hu hsame hearlier hcustomer hbefore
    change ((a.run earlier).subscriptions s).bind (·.planId) = none
    cases hprior : (a.run earlier).subscriptions s with
    | some prior => exact hbefore prior hprior
    | none => rfl

/-- After an update of a customer who is known the record is that of the
update, up to the plan. -/
theorem withoutPlan_of_update (hone : OneOwner a changes) (hfree : OrderFree a changes)
    (hdelivered : ∀ change ∈ delivered, change ∈ changes) {initially : BillingCustomerRecord}
    (hu : .update u ∈ delivered) (hknown : a.customers u.customerId = some initially)
    (h : (a.run delivered).subscriptions u.subscriptionId = some record) :
    record.withoutPlan = (u.record initially.organizationId none).withoutPlan := by
  obtain ⟨earlier, later, rfl⟩ := List.append_of_mem hu
  have hbecomes : BecomesKnown a changes u.customerId := .inl (by simp [hknown])
  have hstays : ((a.run earlier).customers u.customerId).isSome :=
    run_customers_isSome (by simp [hknown])
  obtain ⟨customer, hcustomer⟩ := Option.isSome_iff_exists.mp hstays
  have horganization : customer.organizationId = initially.organizationId :=
    organization_of_known hone (fun change hmem => hdelivered change (by simp [hmem])) hknown
      hcustomer
  rw [run_append, run_cons] at h
  have hlater : ∀ change ∈ later, change ∈ changes :=
    fun change hmem => hdelivered change (by simp [hmem])
  refine run_record (p := fun record => record.withoutPlan = _) hlater ?_ ?_ ?_ h
  · intro record hrecord
    rw [apply_update_known hcustomer, Function.update_self] at hrecord
    rw [← Option.some.inj hrecord, horganization]
    rfl
  · intro x _ hsame hnone
    rw [apply_update_known hcustomer, Function.update_self] at hnone
    cases hnone
  · intro v between customer' hv hsame hbetween hcustomer' _
    obtain rfl : u = v := hfree.updates u v (hdelivered _ hu) hv hsame.symm hbecomes
    have hwhole : (a.run (earlier ++ .update u :: between)).customers u.customerId =
        some customer' := by
      rw [run_append, run_cons]
      exact hcustomer'
    have hsame' : customer'.organizationId = initially.organizationId := by
      refine organization_of_known hone (fun change hmem => ?_) hknown hwhole
      rcases List.mem_append.mp hmem with hmem | hmem
      · exact hdelivered change (by simp [hmem])
      · rcases List.mem_cons.mp hmem with rfl | hmem
        · exact hdelivered _ hu
        · exact hbetween change hmem
    rw [hsame']
    rfl

/-- Without an update of a customer who is known from the beginning a record
is the one from the beginning or that of a checkout, up to the plan. -/
theorem withoutPlan_of_no_update (hfree : OrderFree a changes)
    (hdelivered : ∀ change ∈ delivered, change ∈ changes)
    (hno : ∀ u, .update u ∈ changes → u.subscriptionId = s → a.customers u.customerId = none)
    (h : (a.run delivered).subscriptions s = some record) :
    (∃ initially, a.subscriptions s = some initially ∧
        record.withoutPlan = initially.withoutPlan) ∨
      a.subscriptions s = none ∧ ∃ x, .checkout x ∈ changes ∧ x.subscriptionId = s ∧
        record.withoutPlan = x.record.withoutPlan := by
  refine run_record (p := fun record => (∃ initially, a.subscriptions s = some initially ∧
      record.withoutPlan = initially.withoutPlan) ∨ a.subscriptions s = none ∧
        ∃ x, .checkout x ∈ changes ∧ x.subscriptionId = s ∧
          record.withoutPlan = x.record.withoutPlan) hdelivered ?_ ?_ ?_ h
  · exact fun record hrecord => .inl ⟨record, hrecord, rfl⟩
  · exact fun x hx hsame hnone => .inr ⟨hnone, x, hx, hsame, rfl⟩
  · intro u earlier customer hu hsame hearlier hcustomer _
    have hunknown := hno u hu hsame
    rcases run_customers_cases hcustomer with hknown | ⟨y, hy, hcus, rfl⟩
    · rw [hunknown] at hknown
      cases hknown
    subst hsame
    -- the update finds what it would write
    obtain ⟨late, hlate, hsame⟩ := hfree.late u y hu (hearlier _ hy) hcus hunknown
    have hwritten : ∀ planId, (u.record y.customer.organizationId planId).withoutPlan =
        late.withoutPlan := by
      intro planId
      rw [← hsame]
      rfl
    rcases hlate with hknown | ⟨hnew, x, hx, hsub, rfl⟩
    · exact .inl ⟨late, hknown, hwritten _⟩
    · exact .inr ⟨hnew, x, hx, hsub, hwritten _⟩

/-- The records of two checkouts of a subscription are the same up to the plan. -/
theorem withoutPlan_checkout (hone : OneOwner a changes) {y : Checkout}
    (hx : .checkout x ∈ changes) (hy : .checkout y ∈ changes)
    (hsame : x.subscriptionId = y.subscriptionId) :
    x.record.withoutPlan = y.record.withoutPlan := by
  have hcustomer : x.customerId = y.customerId :=
    hone.subscriptions _ hx _ hy x.subscriptionId _ _ rfl (by rw [hsame]; rfl)
  have horganization := hone.customers x y hx hy hcustomer
  simp [BillingSubscriptionRecord.withoutPlan, Checkout.record, hcustomer, horganization, hsame]

/-- Two orders leave the same record of a subscription. -/
theorem record_unique (hone : OneOwner a changes) (hfree : OrderFree a changes)
    (hfirst : ∀ change, change ∈ first ↔ change ∈ changes)
    (hsecond : ∀ change, change ∈ second ↔ change ∈ changes)
    {record' : BillingSubscriptionRecord} (h : (a.run first).subscriptions s = some record)
    (h' : (a.run second).subscriptions s = some record') : record = record' := by
  have hin := fun change => (hfirst change).mp
  have hin' := fun change => (hsecond change).mp
  apply BillingSubscriptionRecord.eq_of_withoutPlan
  · by_cases hupdate : ∃ u, .update u ∈ changes ∧ u.subscriptionId = s ∧
      (a.customers u.customerId).isSome
    · obtain ⟨u, hu, rfl, hknown⟩ := hupdate
      obtain ⟨initially, hinitially⟩ := Option.isSome_iff_exists.mp hknown
      rw [withoutPlan_of_update hone hfree hin ((hfirst _).mpr hu) hinitially h,
        withoutPlan_of_update hone hfree hin' ((hsecond _).mpr hu) hinitially h']
    · have hno : ∀ u, .update u ∈ changes → u.subscriptionId = s →
          a.customers u.customerId = none := by
        intro u hu hsame
        by_contra hknown
        exact hupdate ⟨u, hu, hsame, Option.isSome_iff_ne_none.mpr hknown⟩
      rcases withoutPlan_of_no_update hfree hin hno h with
          ⟨initially, hknown, hrecord⟩ | ⟨hnew, x, hx, hsame, hrecord⟩ <;>
        rcases withoutPlan_of_no_update hfree hin' hno h' with
          ⟨initially', hknown', hrecord'⟩ | ⟨hnew', y, hy, hsame', hrecord'⟩
      · rw [hknown] at hknown'
        rw [hrecord, hrecord', Option.some.inj hknown']
      · rw [hknown] at hnew'
        cases hnew'
      · rw [hnew] at hknown'
        cases hknown'
      · rw [hrecord, hrecord', withoutPlan_checkout hone hx hy (hsame.trans hsame'.symm)]
  · cases hinitially : a.subscriptions s with
    | some initially =>
        have hkept : ∀ delivered : List BillingChange, ∃ last,
            (a.run delivered).subscriptions s = some last ∧ last.planId = initially.planId :=
          fun delivered => run_planId hinitially
        obtain ⟨last, hlast, hplan⟩ := hkept first
        obtain ⟨last', hlast', hplan'⟩ := hkept second
        rw [h] at hlast
        rw [h'] at hlast'
        rw [Option.some.inj hlast, Option.some.inj hlast', hplan, hplan']
    | none =>
        by_cases hcheckout : ∃ x, .checkout x ∈ changes ∧ x.subscriptionId = s
        · obtain ⟨x, hx, rfl⟩ := hcheckout
          rw [planId_of_checkout hfree hin hx hinitially h,
            planId_of_checkout hfree hin' hx hinitially h']
        · have hno : ∀ x, .checkout x ∈ changes → x.subscriptionId ≠ s :=
            fun x hx hsame => hcheckout ⟨x, hx, hsame⟩
          rw [planId_of_no_checkout hin hinitially hno h,
            planId_of_no_checkout hin' hinitially hno h']

/-- A record that one order leaves every order leaves. -/
theorem isSome_of_isSome (hfree : OrderFree a changes)
    (hfirst : ∀ change, change ∈ first ↔ change ∈ changes)
    (hsecond : ∀ change, change ∈ second ↔ change ∈ changes)
    (h : ((a.run first).subscriptions s).isSome) : ((a.run second).subscriptions s).isSome := by
  obtain ⟨record, hrecord⟩ := Option.isSome_iff_exists.mp h
  rcases record_origin hfree (fun change => (hfirst change).mp) hrecord with
      hknown | ⟨x, hx, rfl⟩ | ⟨u, hu, rfl, hknown⟩
  · exact run_subscriptions_isSome hknown
  · exact isSome_of_checkout ((hsecond _).mpr hx)
  · exact isSome_of_update ((hsecond _).mpr hu) hknown

/-- Two orders leave the same customers. -/
theorem customers_unique (hone : OneOwner a changes)
    (hfirst : ∀ change, change ∈ first ↔ change ∈ changes)
    (hsecond : ∀ change, change ∈ second ↔ change ∈ changes) :
    (a.run first).customers = (a.run second).customers := by
  ext1 c
  by_cases hx : ∃ x, .checkout x ∈ changes ∧ x.customerId = c
  · obtain ⟨x, hx, rfl⟩ := hx
    obtain ⟨y, hy, hsame, hcustomer⟩ := run_customers_of_mem (a := a) ((hfirst _).mpr hx)
    obtain ⟨z, hz, hsame', hcustomer'⟩ := run_customers_of_mem (a := a) ((hsecond _).mpr hx)
    have horganization := hone.customers y z ((hfirst _).mp hy) ((hsecond _).mp hz)
      (hsame.trans hsame'.symm)
    rw [hcustomer, hcustomer', Checkout.customer, Checkout.customer, horganization, hsame, hsame']
  · have hno : ∀ x, .checkout x ∈ changes → x.customerId ≠ c :=
      fun x hmem heq => hx ⟨x, hmem, heq⟩
    rw [run_customers_of_forall_ne fun x hmem => hno x ((hfirst _).mp hmem),
      run_customers_of_forall_ne fun x hmem => hno x ((hsecond _).mp hmem)]

/-- The order of changes that are free of it does not matter. -/
theorem run_eq_of_orderFree (hone : OneOwner a changes) (hfree : OrderFree a changes)
    (hfirst : ∀ change, change ∈ first ↔ change ∈ changes)
    (hsecond : ∀ change, change ∈ second ↔ change ∈ changes) : a.run first = a.run second := by
  apply Accounts.ext
  · exact customers_unique hone hfirst hsecond
  ext1 s
  cases h : (a.run first).subscriptions s with
  | some record =>
      have hsome : ((a.run second).subscriptions s).isSome :=
        isSome_of_isSome hfree hfirst hsecond (by simp [h])
      obtain ⟨record', h'⟩ := Option.isSome_iff_exists.mp hsome
      rw [h', record_unique hone hfree hfirst hsecond h h']
  | none =>
      cases h' : (a.run second).subscriptions s with
      | none => rfl
      | some record' =>
          have hsome : ((a.run first).subscriptions s).isSome :=
            isSome_of_isSome hfree hsecond hfirst (by simp [h'])
          rw [h] at hsome
          cases hsome

/-! ### Orders that leave something else -/

/-- The first checkout of a new subscription decides on its plan. -/
theorem run_checkout_first (rest : List BillingChange)
    (hnew : a.subscriptions x.subscriptionId = none) :
    ∃ record, (a.run (.checkout x :: rest)).subscriptions x.subscriptionId = some record ∧
      record.planId = x.planId := by
  have hfirst : (a.apply (.checkout x)).subscriptions x.subscriptionId = some x.record := by
    simp [hnew]
  exact run_planId hfirst

/-- An update that comes before it leaves no plan. -/
theorem run_update_first (rest : List BillingChange)
    (hnew : a.subscriptions u.subscriptionId = none) (hknown : (a.customers u.customerId).isSome) :
    ∃ record, (a.run (.update u :: rest)).subscriptions u.subscriptionId = some record ∧
      record.planId = none := by
  obtain ⟨customer, hcustomer⟩ := Option.isSome_iff_exists.mp hknown
  have hfirst : (a.apply (.update u)).subscriptions u.subscriptionId =
      some (u.record customer.organizationId none) := by
    simp [apply_update_known hcustomer, hnew]
  exact run_planId hfirst

/-- The last update of a customer who is known wins. -/
theorem run_update_last {earlier : List BillingChange}
    (hknown : ((a.run earlier).customers u.customerId).isSome) :
    ∃ customer planId, (a.run earlier).customers u.customerId = some customer ∧
      (a.run (earlier ++ [.update u])).subscriptions u.subscriptionId =
        some (u.record customer.organizationId planId) := by
  obtain ⟨customer, hcustomer⟩ := Option.isSome_iff_exists.mp hknown
  refine ⟨customer, ((a.run earlier).subscriptions u.subscriptionId).bind (·.planId), hcustomer, ?_⟩
  rw [run_concat, apply_update_known hcustomer, Function.update_self]

/-- Updates of customers who are not known yet are lost. -/
theorem run_lost {lost : List BillingChange} (rest : List BillingChange)
    (hlost : ∀ change ∈ lost, ∃ u, change = .update u ∧ a.customers u.customerId = none) :
    a.run (lost ++ rest) = a.run rest := by
  induction lost with
  | nil => rfl
  | cons change lost ih =>
      obtain ⟨u, rfl, hunknown⟩ := hlost change List.mem_cons_self
      rw [List.cons_append, run_cons, apply_update_unknown hunknown]
      exact ih fun change hmem => hlost change (List.mem_cons_of_mem _ hmem)

/-- Without updates a record is the one from the beginning or that of a checkout. -/
theorem record_of_no_update (hno : ∀ u, .update u ∈ delivered → u.subscriptionId ≠ s)
    (h : (a.run delivered).subscriptions s = some record) :
    a.subscriptions s = some record ∨ a.subscriptions s = none ∧
      ∃ x, .checkout x ∈ delivered ∧ x.subscriptionId = s ∧ record = x.record := by
  refine run_record (p := fun record => a.subscriptions s = some record ∨
    a.subscriptions s = none ∧ ∃ x, .checkout x ∈ delivered ∧ x.subscriptionId = s ∧
      record = x.record) (fun change hmem => hmem) ?_ ?_ ?_ h
  · exact fun record hrecord => .inl hrecord
  · exact fun x hx hsame hnone => .inr ⟨hnone, x, hx, hsame, rfl⟩
  · exact fun u _ _ hu hsame _ _ _ => absurd hsame (hno u hu)

section Orders

variable {ε : Type} {f : ε → Option BillingChange} {events : List ε}

/-- An order of the events, each of which comes once. -/
def IsOrder (events order : List ε) : Prop := order.Nodup ∧ ∀ event, event ∈ order ↔ event ∈ events

open Classical in
/-- The events that are not among these. -/
noncomputable def others (events chosen : List ε) : List ε :=
  events.dedup.filter fun event => event ∉ chosen

theorem mem_others {chosen : List ε} {event : ε} :
    event ∈ others events chosen ↔ event ∈ events ∧ event ∉ chosen := by
  classical
  rw [others, List.mem_filter, List.mem_dedup, decide_eq_true_eq]

theorem isOrder_first {chosen : List ε} (hnodup : chosen.Nodup)
    (hin : ∀ event ∈ chosen, event ∈ events) : IsOrder events (chosen ++ others events chosen) := by
  classical
  constructor
  · refine List.Nodup.append hnodup ((List.nodup_dedup events).filter _) ?_
    intro event hchosen hother
    exact (mem_others.mp hother).2 hchosen
  · intro event
    rw [List.mem_append, mem_others]
    have hevent := hin event
    tauto

theorem isOrder_last {chosen : List ε} (hnodup : chosen.Nodup)
    (hin : ∀ event ∈ chosen, event ∈ events) : IsOrder events (others events chosen ++ chosen) := by
  obtain ⟨hfirst, hmem⟩ := isOrder_first hnodup hin
  have hperm : (others events chosen ++ chosen).Perm (chosen ++ others events chosen) :=
    List.perm_append_comm
  exact ⟨hperm.nodup_iff.mpr hfirst, fun event => hperm.mem_iff.trans (hmem event)⟩

/-- The changes that the events make. -/
def Changes (f : ε → Option BillingChange) (events : List ε) : Set BillingChange :=
  fun change => ∃ event ∈ events, f event = some change

/-- All orders of the events leave the same accounts. -/
def AnyOrder (a : Accounts) (f : ε → Option BillingChange) (events : List ε) : Prop :=
  ∀ first second, IsOrder events first → IsOrder events second →
    a.run (first.filterMap f) = a.run (second.filterMap f)

/-- Any event can be the first. -/
theorem isOrder_singleton_first {event : ε} (h : event ∈ events) :
    IsOrder events ([event] ++ others events [event]) :=
  isOrder_first (List.nodup_singleton event) (by simpa using h)

theorem isOrder_singleton_last {event : ε} (h : event ∈ events) :
    IsOrder events (others events [event] ++ [event]) :=
  isOrder_last (List.nodup_singleton event) (by simpa using h)

theorem plans_of_anyOrder (hany : AnyOrder a f events) {y : Checkout}
    (hx : .checkout x ∈ Changes f events) (hy : .checkout y ∈ Changes f events)
    (hsame : x.subscriptionId = y.subscriptionId) (hnew : a.subscriptions x.subscriptionId = none) :
    x.planId = y.planId := by
  obtain ⟨event, hevent, hchange⟩ := hx
  obtain ⟨event', hevent', hchange'⟩ := hy
  have hruns := hany _ _ (isOrder_singleton_first hevent) (isOrder_singleton_first hevent')
  simp only [List.singleton_append, List.filterMap_cons, hchange, hchange'] at hruns
  obtain ⟨record, hrecord, hplan⟩ :=
    run_checkout_first ((others events [event]).filterMap f) hnew
  rw [hsame] at hnew
  obtain ⟨record', hrecord', hplan'⟩ :=
    run_checkout_first ((others events [event']).filterMap f) hnew
  rw [hruns, hsame, hrecord'] at hrecord
  rw [← hplan, ← hplan', Option.some.inj hrecord]

theorem unplanned_of_anyOrder (hany : AnyOrder a f events)
    (hx : .checkout x ∈ Changes f events) (hu : .update u ∈ Changes f events)
    (hsame : x.subscriptionId = u.subscriptionId) (hnew : a.subscriptions x.subscriptionId = none)
    (hknown : (a.customers u.customerId).isSome ∨ ∃ y, .checkout y ∈ Changes f events ∧
      y.customerId = u.customerId ∧ y.subscriptionId ≠ x.subscriptionId) : x.planId = none := by
  obtain ⟨event, hevent, hchange⟩ := hx
  obtain ⟨event', hevent', hchange'⟩ := hu
  -- an order that begins with the update, or with what makes its customer known
  obtain ⟨order, horder, record', hrecord', hplan'⟩ : ∃ order, IsOrder events order ∧ ∃ record,
      (a.run (order.filterMap f)).subscriptions u.subscriptionId = some record ∧
        record.planId = none := by
    rw [hsame] at hnew
    rcases hknown with hknown | ⟨y, ⟨event'', hevent'', hchange''⟩, hcus, hother⟩
    · refine ⟨_, isOrder_singleton_first hevent', ?_⟩
      simp only [List.singleton_append, List.filterMap_cons, hchange']
      exact run_update_first _ hnew hknown
    · have hne : event'' ≠ event' := by
        rintro rfl
        rw [hchange'] at hchange''
        cases hchange''
      have hfirst : IsOrder events ([event'', event'] ++ others events [event'', event']) := by
        apply isOrder_first
        · simpa using hne
        · simp [hevent', hevent'']
      refine ⟨_, hfirst, ?_⟩
      simp only [List.cons_append, List.nil_append, List.filterMap_cons, hchange'', hchange']
      rw [run_cons]
      apply run_update_first
      · rw [apply_checkout_subscriptions, Function.update_of_ne, hnew]
        rw [← hsame]
        exact hother.symm
      · rw [apply_checkout_customers, hcus]
        simp
  obtain ⟨record, hrecord, hplan⟩ :=
    run_checkout_first ((others events [event]).filterMap f) hnew
  have hruns := hany _ _ (isOrder_singleton_first hevent) horder
  simp only [List.singleton_append, List.filterMap_cons, hchange] at hruns
  rw [hruns, hsame, hrecord'] at hrecord
  rw [← hplan, ← Option.some.inj hrecord, hplan']

/-- In the orders that end with an update its customer is known before. -/
theorem known_before_last {event : ε} (hchange : f event = some (.update u))
    (hknown : BecomesKnown a (Changes f events) u.customerId) :
    ((a.run ((others events [event]).filterMap f)).customers u.customerId).isSome := by
  rcases hknown with hknown | ⟨y, ⟨event', hevent', hchange'⟩, hcus⟩
  · exact run_customers_isSome hknown
  · have hne : event' ≠ event := by
      rintro rfl
      rw [hchange] at hchange'
      cases hchange'
    have hy : .checkout y ∈ (others events [event]).filterMap f :=
      List.mem_filterMap.mpr ⟨event', mem_others.mpr ⟨hevent', by simpa using hne⟩, hchange'⟩
    obtain ⟨z, -, -, hcustomer⟩ := run_customers_of_mem (a := a) hy
    rw [← hcus, hcustomer]
    rfl

/-- Such an order leaves the record of the update. -/
theorem record_of_last (hone : OneOwner a (Changes f events)) {event : ε}
    (hevent : event ∈ events) (hchange : f event = some (.update u))
    (hknown : BecomesKnown a (Changes f events) u.customerId) :
    ∃ order organizationId planId, IsOrder events order ∧
      (∀ y, .checkout y ∈ Changes f events → y.customerId = u.customerId →
        organizationId = y.organizationId) ∧
      (a.run (order.filterMap f)).subscriptions u.subscriptionId =
        some (u.record organizationId planId) := by
  obtain ⟨customer, planId, hcustomer, hrecord⟩ :=
    run_update_last (known_before_last hchange hknown)
  refine ⟨_, customer.organizationId, planId, isOrder_singleton_last hevent, ?_, ?_⟩
  · intro y hy hcus
    rw [← hcus] at hcustomer
    refine organization_of_checkout hone (fun change hmem => ?_) hy hcustomer
    obtain ⟨other, hother, hmakes⟩ := List.mem_filterMap.mp hmem
    exact ⟨other, (mem_others.mp hother).1, hmakes⟩
  · rw [List.filterMap_append, List.filterMap_cons, hchange]
    exact hrecord

theorem updates_of_anyOrder (hone : OneOwner a (Changes f events)) (hany : AnyOrder a f events)
    {v : SubscriptionUpdate} (hu : .update u ∈ Changes f events)
    (hv : .update v ∈ Changes f events) (hsame : u.subscriptionId = v.subscriptionId)
    (hknown : BecomesKnown a (Changes f events) u.customerId) : u = v := by
  have hcustomer : u.customerId = v.customerId :=
    hone.subscriptions _ hu _ hv u.subscriptionId _ _ rfl (by rw [hsame]; rfl)
  obtain ⟨event, hevent, hchange⟩ := hu
  obtain ⟨event', hevent', hchange'⟩ := hv
  obtain ⟨order, organizationId, planId, horder, -, hrecord⟩ :=
    record_of_last hone hevent hchange hknown
  rw [hcustomer] at hknown
  obtain ⟨order', organizationId', planId', horder', -, hrecord'⟩ :=
    record_of_last hone hevent' hchange' hknown
  rw [hany order order' horder horder', hsame, hrecord'] at hrecord
  have hrecords := Option.some.inj hrecord
  simp only [SubscriptionUpdate.record, BillingSubscriptionRecord.mk.injEq] at hrecords
  cases u
  cases v
  simp_all

theorem late_of_anyOrder (hone : OneOwner a (Changes f events)) (hany : AnyOrder a f events)
    {y : Checkout} (hu : .update u ∈ Changes f events) (hy : .checkout y ∈ Changes f events)
    (hcus : y.customerId = u.customerId) (hunknown : a.customers u.customerId = none) :
    ∃ record, (a.subscriptions u.subscriptionId = some record ∨
        a.subscriptions u.subscriptionId = none ∧ ∃ x, .checkout x ∈ Changes f events ∧
          x.subscriptionId = u.subscriptionId ∧ record = x.record) ∧
      u.record y.organizationId record.planId = record := by
  classical
  obtain ⟨event, hevent, hchange⟩ := hu
  obtain ⟨order, organizationId, planId, horder, horganization, hrecord⟩ :=
    record_of_last hone hevent hchange (.inr ⟨y, hy, hcus⟩)
  -- the order in which all updates of the subscription are lost
  let updates : ε → Prop := fun event => ∃ v, f event = some (.update v) ∧
    v.subscriptionId = u.subscriptionId
  let lost := events.dedup.filter fun event => updates event
  have hmem : ∀ event, event ∈ lost ↔ event ∈ events ∧ updates event := by simp [lost]
  have hfirst : IsOrder events (lost ++ others events lost) :=
    isOrder_first ((List.nodup_dedup events).filter _) fun event h => ((hmem event).mp h).1
  rw [hany order _ horder hfirst, List.filterMap_append, run_lost] at hrecord
  · refine ⟨u.record organizationId planId, ?_, ?_⟩
    · refine (record_of_no_update ?_ hrecord).imp_right ?_
      · intro v hv hsame
        obtain ⟨other, hother, hmakes⟩ := List.mem_filterMap.mp hv
        obtain ⟨hin, hnot⟩ := mem_others.mp hother
        exact hnot ((hmem other).mpr ⟨hin, v, hmakes, hsame⟩)
      · rintro ⟨hnew, x, hx, hsame, hrec⟩
        obtain ⟨other, hother, hmakes⟩ := List.mem_filterMap.mp hx
        exact ⟨hnew, x, ⟨other, (mem_others.mp hother).1, hmakes⟩, hsame, hrec⟩
    · rw [horganization y hy hcus]
      rfl
  · intro change hlost
    obtain ⟨other, hother, hmakes⟩ := List.mem_filterMap.mp hlost
    obtain ⟨hin, v, hv, hsame⟩ := (hmem other).mp hother
    rw [hv] at hmakes
    refine ⟨v, (Option.some.inj hmakes).symm, ?_⟩
    have hcustomer : v.customerId = u.customerId :=
      hone.subscriptions _ ⟨other, hin, hv⟩ _ ⟨event, hevent, hchange⟩ v.subscriptionId _ _ rfl
        (by rw [hsame]; rfl)
    rw [hcustomer, hunknown]

/-- Whether the order of events matters. -/
theorem anyOrder_iff (hone : OneOwner a (Changes f events)) :
    AnyOrder a f events ↔ OrderFree a (Changes f events) := by
  constructor
  · intro hany
    constructor
    · exact fun x y hx hy => plans_of_anyOrder hany hx hy
    · exact fun x u hx hu => unplanned_of_anyOrder hany hx hu
    · exact fun u v hu hv => updates_of_anyOrder hone hany hu hv
    · exact fun u y hu hy => late_of_anyOrder hone hany hu hy
  · intro hfree first second hfirst hsecond
    have hall : ∀ order, IsOrder events order → ∀ change,
        change ∈ order.filterMap f ↔ change ∈ Changes f events := by
      intro order horder change
      rw [List.mem_filterMap]
      constructor
      · rintro ⟨event, hevent, hchange⟩
        exact ⟨event, (horder.2 event).mp hevent, hchange⟩
      · rintro ⟨event, hevent, hchange⟩
        exact ⟨event, (horder.2 event).mpr hevent, hchange⟩
    exact run_eq_of_orderFree hone hfree (hall first hfirst) (hall second hsecond)

end Orders

end Accounts

end VorCommander
