import Rellm.Market.Checkout
import Rellm.Market.Subscriptions

/-!
# Renewal and termination

The background job charges every due subscription, records the charge, and advances
the renewal date; a subscription that cannot be renewed ends. Later, once a canceled
subscription has run out, its entitlement is revoked.
-/

namespace Rellm.Market

open Foundation Calendar

/-- What comes of an off-session charge: it is not made, it is made but no usable reply
arrives, or it is made and Stripe's id for it arrives. -/
inductive ChargeOutcome where
  | failed
  | lost
  | succeeded (intentId : String)
  deriving DecidableEq, Repr

/-- Whether Stripe charged. -/
def ChargeOutcome.charged : ChargeOutcome → Bool
  | failed => false
  | lost | succeeded _ => true

/-- What Stripe does when asked to charge for a subscription and to show its card. -/
structure StripeApi where
  charge : MarketSubscription → ChargeOutcome
  card : MarketSubscription → Option CardDetails := fun _ => none

/-- The subscription is due: it is not canceled, and its renewal date has come. -/
def MarketSubscription.due (subscription : MarketSubscription) (purchaseType : PurchaseType)
    (now : Instant) : Bool :=
  decide (subscription.productType = purchaseType) && subscription.canceledAt.isNone &&
    subscription.renewsAt.any fun renewsAt => decide (renewsAt ≤ now)

/-- The due subscriptions, by renewal date. -/
def MarketDb.dueSubscriptions (db : MarketDb) (purchaseType : PurchaseType) (now : Instant) :
    List MarketSubscription :=
  (db.subscriptions.rows.filter fun subscription => subscription.due purchaseType now).mergeSort
    fun a b => decide (a.renewsAt.getD 0 ≤ b.renewsAt.getD 0)

/-- The due subscriptions are the rows that are due. -/
theorem MarketDb.dueSubscriptions_perm (db : MarketDb) (purchaseType : PurchaseType)
    (now : Instant) : (db.dueSubscriptions purchaseType now).Perm
      (db.subscriptions.rows.filter fun row => row.due purchaseType now) :=
  List.mergeSort_perm _ _

/-- The due subscriptions are different rows. -/
theorem MarketDb.nodup_dueSubscriptions (db : MarketDb) (purchaseType : PurchaseType)
    (now : Instant) : ((db.dueSubscriptions purchaseType now).map (·.id)).Nodup := by
  rw [((db.dueSubscriptions_perm purchaseType now).map (·.id)).nodup_iff]
  exact db.subscriptions.nodup.sublist (List.filter_sublist.map _)

/-- A due subscription is stored, is not canceled, and has a renewal date. -/
theorem MarketDb.get_of_mem_dueSubscriptions {db : MarketDb} {purchaseType : PurchaseType}
    {now : Instant} {subscription : MarketSubscription}
    (h : subscription ∈ db.dueSubscriptions purchaseType now) :
    db.subscriptions.get subscription.id = some subscription ∧ subscription.canceledAt = none ∧
      subscription.renewsAt.isSome = true := by
  obtain ⟨hmem, hdue⟩ :=
    List.mem_filter.mp ((db.dueSubscriptions_perm purchaseType now).mem_iff.mp h)
  simp only [MarketSubscription.due, Bool.and_eq_true] at hdue
  refine ⟨Table.mem_rows_iff.mp hmem, Option.isNone_iff_eq_none.mp hdue.1.2, ?_⟩
  cases hrenewsAt : subscription.renewsAt with
  | none => simp [hrenewsAt] at hdue
  | some renewsAt => rfl

theorem MarketDb.productType_of_mem_dueSubscriptions {db : MarketDb} {purchaseType : PurchaseType}
    {now : Instant} {subscription : MarketSubscription}
    (h : subscription ∈ db.dueSubscriptions purchaseType now) :
    subscription.productType = purchaseType := by
  obtain ⟨_, hdue⟩ :=
    List.mem_filter.mp ((db.dueSubscriptions_perm purchaseType now).mem_iff.mp h)
  simp only [MarketSubscription.due, Bool.and_eq_true, decide_eq_true_eq] at hdue
  exact hdue.1.1

def getDueMarketSubscriptions (env : Env) (purchaseType : PurchaseType) :
    MarketM (List MarketSubscription) :=
  execute env .selectDue ⟨.internal, "failed_to_load_subscriptions"⟩ fun db =>
    some (db.dueSubscriptions purchaseType env.now, db)

/-- Charges for a subscription; only a charge whose reply arrives counts as made. -/
def createOffSessionPaymentIntent : ChargeOutcome → MarketM String
  | .failed => throw ⟨.failedPrecondition, "stripe_payment_intent_failed"⟩
  | .lost => throw ⟨.internal, "stripe_request_failed"⟩
  | .succeeded intentId => pure intentId

/-- What a subscription needs before it can be charged. -/
def checkChargeable (subscription : MarketSubscription) : MarketM Unit := do
  let _ ← okOr subscription.stripeCustomerId ⟨.failedPrecondition, "no_stripe_customer_on_file"⟩
  let _ ← okOr subscription.stripePaymentMethodId
    ⟨.failedPrecondition, "no_stripe_payment_method_on_file"⟩
  let _ ← okOr (currencyCode subscription.currency.toUInt32) unsupportedCurrency

/-- The purchase of a renewal. -/
def renewalPurchase (subscription : MarketSubscription) (intentId : String) :
    NewMarketPurchase where
  buyerId := subscription.buyerId
  productId := subscription.productId
  subscriptionId := some subscription.id
  productType := subscription.productType
  details := subscription.details
  stripeCheckoutSessionId := none
  stripePaymentIntentId := some intentId

/-- The payment of a renewal. -/
def renewalPayment (subscription : MarketSubscription) (intentId : String)
    (card : Option CardDetails) (purchaseId : Nat) : NewMarketPayment where
  purchaseId := purchaseId
  amount := subscription.amount
  currency := subscription.currency
  stripePaymentIntentId := some intentId
  method := card

/-- Sets when a subscription renews. -/
def MarketDb.advance (db : MarketDb) (id : Nat) (renewsAt : Instant) : MarketDb :=
  db.updateSubscription id (fun row => { row with renewsAt := some renewsAt }) fun _ => rfl

def advanceRenewal (env : Env) (id : Nat) (renewsAt : Instant) : MarketM Unit :=
  execute env .advanceRenewal ⟨.internal, "failed_to_advance_renewal"⟩ fun db =>
    some ((), db.advance id renewsAt)

/-- When a renewed subscription renews next. -/
def nextRenewal (chrono : Chrono) (now : Instant) (subscription : MarketSubscription) : Instant :=
  advanceByPeriod chrono (subscription.renewsAt.getD now) subscription.period

/-- Records a charge, advances the renewal date and applies the entitlement again. -/
def recordRenewal (chrono : Chrono) (env : Env) (card : Option CardDetails)
    (purchaseType : PurchaseType) (subscription : MarketSubscription) (intentId : String) :
    MarketM Unit := do
  let purchase ← insertMarketPurchase env (renewalPurchase subscription intentId)
  let _ ← insertMarketPayment env (renewalPayment subscription intentId card purchase.id)
  advanceRenewal env subscription.id (nextRenewal chrono env.now subscription)
  fulfillPurchase env purchaseType subscription.buyerId purchase.details

/-- Renews a subscription as it was loaded. -/
def renewOne (chrono : Chrono) (env : Env) (stripe : StripeApi) (purchaseType : PurchaseType)
    (subscription : MarketSubscription) : MarketM Unit := do
  checkChargeable subscription
  let intentId ← createOffSessionPaymentIntent (stripe.charge subscription)
  recordRenewal chrono env (stripe.card subscription) purchaseType subscription intentId

/-- Ends a subscription; a failure is only logged. -/
def endSubscription (env : Env) (id : Nat) : MarketM Unit :=
  logged <| execute env .endSubscription ⟨.internal, "db_error"⟩ fun db =>
    some ((), db.cancel id env.now)

/-- Renews a subscription, or ends it where that fails. -/
def renewOrEnd (chrono : Chrono) (env : Env) (stripe : StripeApi) (purchaseType : PurchaseType)
    (subscription : MarketSubscription) : MarketM Unit :=
  recover (renewOne chrono env stripe purchaseType subscription) fun _ =>
    endSubscription env subscription.id

/-- Renews the due subscriptions of a type, and ends those that cannot be renewed. -/
def renewSubscriptionsOfType (chrono : Chrono) (env : Env) (stripe : StripeApi)
    (purchaseType : PurchaseType) : MarketM Unit := do
  let due ← getDueMarketSubscriptions env purchaseType
  match usableServerStripeConfig env with
  | none => due.forM fun subscription => endSubscription env subscription.id
  | some _ => due.forM (renewOrEnd chrono env stripe purchaseType)

/-- The service of the subscription can end: it is canceled, and the time paid for is over. -/
def MarketSubscription.terminable (subscription : MarketSubscription)
    (purchaseType : PurchaseType) (now : Instant) : Bool :=
  decide (subscription.productType = purchaseType) &&
    subscription.canceledAt.any (fun canceledAt => decide (canceledAt ≤ now)) &&
    subscription.serviceTerminatedAt.isNone &&
    subscription.renewsAt.all fun renewsAt => decide (renewsAt ≤ now)

/-- The terminable subscriptions, by the time they were canceled. -/
def MarketDb.terminableSubscriptions (db : MarketDb) (purchaseType : PurchaseType)
    (now : Instant) : List MarketSubscription :=
  (db.subscriptions.rows.filter fun subscription =>
    subscription.terminable purchaseType now).mergeSort
      fun a b => decide (a.canceledAt.getD 0 ≤ b.canceledAt.getD 0)

def getTerminableMarketSubscriptions (env : Env) (purchaseType : PurchaseType) :
    MarketM (List MarketSubscription) :=
  execute env .selectTerminable ⟨.internal, "failed_to_load_subscriptions"⟩ fun db =>
    some (db.terminableSubscriptions purchaseType env.now, db)

/-- Sets when the service of a subscription was terminated. -/
def MarketDb.terminate (db : MarketDb) (id : Nat) (now : Instant) : MarketDb :=
  db.updateSubscription id (fun row => { row with serviceTerminatedAt := some now }) fun _ => rfl

/-- Stamps the end of the service; a failure is only logged. -/
def stampTermination (env : Env) (id : Nat) : MarketM Unit :=
  logged <| execute env .stampTermination ⟨.internal, "db_error"⟩ fun db =>
    some ((), db.terminate id env.now)

/-- Terminates the service of a subscription. -/
def terminateOne (env : Env) (purchaseType : PurchaseType) (subscription : MarketSubscription) :
    MarketM Unit := do
  terminateEntitlement env purchaseType subscription.buyerId subscription.details
  stampTermination env subscription.id

/-- Terminates the service of a subscription; where the entitlement cannot be revoked, the
subscription is left for the next time. -/
def terminateOrSkip (env : Env) (purchaseType : PurchaseType) (subscription : MarketSubscription) :
    MarketM Unit :=
  recover (terminateOne env purchaseType subscription) fun _ => pure ()

/-- Terminates the subscriptions of a type that have run out. -/
def terminateSubscriptionsOfType (env : Env) (purchaseType : PurchaseType) : MarketM Unit := do
  let terminable ← getTerminableMarketSubscriptions env purchaseType
  terminable.forM (terminateOrSkip env purchaseType)

end Rellm.Market
