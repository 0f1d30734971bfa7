import Std.Data.ExtTreeMap
import VorCommander.Steps.Checks
import VorCommander.Text.Delimited

/-!
The billing state and the webhook events that change it.

`BillingStore::apply_test_webhook` answers an event that it has processed
before without applying it again. Otherwise the event is applied and written
down as processed, whether or not it had an effect; an event that is refused
with an error is not written down. The state is changed in memory before it is
persisted, so that an error of the disk leaves the change in memory.
-/

namespace VorCommander

open Steps Text

namespace Text.Value

/-- `Value::get` of a member of an object. -/
def get (value : Value) (name : String) : Option Value :=
  match value with
  | .object members => members.lookup name
  | _ => none

/-- The index that a token of a pointer names in an array. -/
def parseIndex (token : String) : Option ℕ :=
  if startsWith token "+" ∨ startsWith token "0" ∧ byteLength token ≠ 1 then none
  else parseU64 token

/-- `Value::pointer`, with the tokens of the path. -/
def pointer (value : Value) : List String → Option Value
  | [] => some value
  | token :: rest =>
      match value with
      | .object members => do pointer (← members.lookup token) rest
      | .array items => do pointer (← items[← parseIndex token]?) rest
      | _ => none

end Text.Value

/-- The errors of the billing state. -/
inductive BillingError
  | invalidRequest (reason : String)
  | stripeResponse
  | invalidState
  | io
  | json
  deriving DecidableEq

structure BillingEventRecord where
  eventId : String
  eventType : String
  processedAtUnixSeconds : ℕ
  organizationId : Option String
  applied : Bool
  reason : String

structure BillingCustomerRecord where
  organizationId : String
  stripeCustomerId : String
  updatedAtUnixSeconds : ℕ
  deriving DecidableEq

structure BillingSubscriptionRecord where
  organizationId : String
  stripeCustomerId : String
  stripeSubscriptionId : String
  status : String
  planId : Option String
  priceId : Option String
  currentPeriodEnd : Option ℕ
  entitlementActive : Bool
  updatedAtUnixSeconds : ℕ
  deriving DecidableEq

structure PersistedBillingState where
  version : ℕ := 1
  events : Std.ExtTreeMap String BillingEventRecord := ∅
  customers : Std.ExtTreeMap String BillingCustomerRecord := ∅
  subscriptions : Std.ExtTreeMap String BillingSubscriptionRecord := ∅

structure WebhookApplyResult where
  eventId : String
  eventType : String
  duplicate : Bool
  applied : Bool
  organizationId : Option String
  reason : String
  deriving DecidableEq

/-! ### The fields of an event -/

def activeSubscriptionStatuses : List String := ["active", "trialing"]

/-- A byte of an identifier; all of them are ASCII. -/
def isIdCharacter (c : Char) : Bool := c.isAlphanum || c ∈ ['_', '-', '.', ':']

def cleanId (value name : String) : Except BillingError String :=
  let trimmed := trim value
  if trimmed.isEmpty ∨ byteLength trimmed > 128 ∨ ¬ trimmed.toList.all isIdCharacter then
    .error (.invalidRequest name)
  else .ok trimmed

def requiredStr (value : Value) (field : String) : Except BillingError String :=
  orFail ((value.get field).bind Value.asStr) .stripeResponse

def stripeObject (event : Value) : Except BillingError Value :=
  orFail (event.pointer ["data", "object"]) (.invalidRequest "missing Stripe event object")

/-- The value at the end of a path of member names. -/
def nested (value : Value) : List String → Option Value
  | [] => some value
  | key :: rest => do nested (← value.get key) rest

def nestedStr (value : Value) (path : List String) : Option String :=
  (nested value path).bind Value.asStr

def nestedU64 (value : Value) (path : List String) : Option ℕ :=
  (nested value path).bind Value.asU64

/-! ### Applying an event -/

/-- `upsert_customer`. -/
def upsertCustomer (state : PersistedBillingState) (organizationId customerId : String) (now : ℕ) :
    Except BillingError PersistedBillingState :=
  if ∃ existing ∈ state.customers[customerId]?, existing.organizationId ≠ organizationId then
    .error (.invalidRequest "stripe customer is already mapped to another organization")
  else
    .ok { state with
      customers := state.customers.insert customerId
        { organizationId
          stripeCustomerId := customerId
          updatedAtUnixSeconds := now } }

/-- `apply_checkout_completed`. A subscription that is known stays as it is. -/
def applyCheckoutCompleted (state : PersistedBillingState) (eventId eventType : String)
    (event : Value) (now : ℕ) :
    Except BillingError (WebhookApplyResult × PersistedBillingState) := do
  let object ← stripeObject event
  let organizationId ← orFail (nestedStr object ["metadata", "organization_id"])
    (.invalidRequest "missing organization_id metadata")
  let organizationId ← cleanId organizationId "organization_id"
  let customerId := (nestedStr object ["customer"]).getD ""
  let subscriptionId := (nestedStr object ["subscription"]).getD ""
  let planId := nestedStr object ["metadata", "plan_id"]
  failIf (¬ startsWith customerId "cus_" ∨ ¬ startsWith subscriptionId "sub_")
    (.invalidRequest "checkout session missing Stripe customer or subscription")
  let state ← upsertCustomer state organizationId customerId now
  let state := { state with
    subscriptions := state.subscriptions.insertIfNew subscriptionId
      { organizationId
        stripeCustomerId := customerId
        stripeSubscriptionId := subscriptionId
        status := "checkout_completed"
        planId
        priceId := none
        currentPeriodEnd := none
        entitlementActive := false
        updatedAtUnixSeconds := now } }
  return ({ eventId
            eventType
            duplicate := false
            applied := true
            organizationId := some organizationId
            reason := "checkout_customer_subscription_recorded" }, state)

/-- `apply_subscription_event`. What is known of the plan stays. -/
def applySubscriptionEvent (state : PersistedBillingState) (eventId eventType : String)
    (event : Value) (now : ℕ) :
    Except BillingError (WebhookApplyResult × PersistedBillingState) := do
  let object ← stripeObject event
  let subscriptionId := (nestedStr object ["id"]).getD ""
  let customerId := (nestedStr object ["customer"]).getD ""
  failIf (¬ startsWith subscriptionId "sub_" ∨ ¬ startsWith customerId "cus_")
    (.invalidRequest "subscription event missing Stripe customer or subscription")
  match state.customers[customerId]? with
  | none =>
      return ({ eventId
                eventType
                duplicate := false
                applied := false
                organizationId := none
                reason := "unknown_customer_fail_closed" }, state)
  | some customer =>
      let status := (nestedStr object ["status"]).getD "unknown"
      let priceId := (object.pointer ["items", "data", "0", "price", "id"]).bind Value.asStr
      let currentPeriodEnd := nestedU64 object ["current_period_end"]
      let entitlementActive : Bool := status ∈ activeSubscriptionStatuses
      let planId := state.subscriptions[subscriptionId]?.bind (·.planId)
      let state := { state with
        subscriptions := state.subscriptions.insert subscriptionId
          { organizationId := customer.organizationId
            stripeCustomerId := customerId
            stripeSubscriptionId := subscriptionId
            status
            planId
            priceId
            currentPeriodEnd
            entitlementActive
            updatedAtUnixSeconds := now } }
      return ({ eventId
                eventType
                duplicate := false
                applied := true
                organizationId := some customer.organizationId
                reason := "subscription_state_recorded" }, state)

/-- `apply_event_to_state`. -/
def applyEventToState (state : PersistedBillingState) (eventId eventType : String) (event : Value)
    (now : ℕ) : Except BillingError (WebhookApplyResult × PersistedBillingState) :=
  if eventType = "checkout.session.completed" then
    applyCheckoutCompleted state eventId eventType event now
  else if eventType ∈ ["customer.subscription.created", "customer.subscription.updated",
      "customer.subscription.deleted"] then
    applySubscriptionEvent state eventId eventType event now
  else
    .ok ({ eventId
           eventType
           duplicate := false
           applied := false
           organizationId := none
           reason := "event_type_recorded_only" }, state)

/-- `BillingStore::apply_test_webhook`, with the state that it leaves in
memory. -/
def applyTestWebhook (persist : PersistedBillingState → Except BillingError Unit)
    (state : PersistedBillingState) (event : Value) (now : ℕ) :
    Except BillingError WebhookApplyResult × PersistedBillingState :=
  match requiredStr event "id", requiredStr event "type" with
  | .error e, _ => (.error e, state)
  | .ok _, .error e => (.error e, state)
  | .ok eventId, .ok eventType =>
      if state.events.contains eventId then
        (.ok { eventId
               eventType
               duplicate := true
               applied := false
               organizationId := none
               reason := "already_processed" }, state)
      else
        match applyEventToState state eventId eventType event now with
        | .error e => (.error e, state)
        | .ok (result, state) =>
            let state := { state with
              events := state.events.insert eventId
                { eventId
                  eventType
                  processedAtUnixSeconds := now
                  organizationId := result.organizationId
                  applied := result.applied
                  reason := result.reason } }
            ((persist state).map fun _ => { result with duplicate := false }, state)

end VorCommander
