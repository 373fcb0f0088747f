import Rellm.Market.Fulfillment
import Rellm.Market.Products

/-!
# Completed checkouts

What the webhook does when a checkout session is completed: unless a purchase is
stored for the session, it stores a subscription, a purchase and a payment, counts
the sold slot and applies the entitlement. Each is a statement of its own.
-/

namespace Rellm.Market

open Foundation Calendar

/-- Adding months to a date, which fails beyond the representable dates. -/
structure Chrono where
  checkedAddMonths : Instant → Nat → Option Instant
  lt_of_checkedAddMonths : ∀ instant months later, 0 < months →
    checkedAddMonths instant months = some later → instant < later

/-- Adding months in January, where a month has 31 days. -/
def januaryChrono : Chrono where
  checkedAddMonths instant months := some (instant + days (31 * months))
  lt_of_checkedAddMonths := by
    intro instant months later hmonths h
    obtain rfl := Option.some.inj h
    have hdays : 0 < days (31 * months) := by
      rw [days]
      omega
    exact Int.lt_add_of_pos_right instant hdays

/-- The months of a period. -/
def PurchasePeriod.months : PurchasePeriod → Nat
  | .annual => 12
  | .indefinite | .monthly => 1

/-- One period later, or the same instant where that is not representable. -/
def advanceByPeriod (chrono : Chrono) (instant : Instant) (period : PurchasePeriod) : Instant :=
  (chrono.checkedAddMonths instant period.months).getD instant

section

variable (db : MarketDb) (now : Instant)

/-- Stores a subscription. -/
def MarketDb.addSubscription (new : NewMarketSubscription) : MarketDb :=
  { db with
    subscriptions :=
      db.subscriptions.insert (fun id => { new with id := id, createdAt := now }) fun _ => rfl }

/-- Stores a purchase. -/
def MarketDb.addPurchase (new : NewMarketPurchase) : MarketDb :=
  { db with
    purchases :=
      db.purchases.insert (fun id => { new with id := id, createdAt := now }) fun _ => rfl }

/-- Stores a payment. -/
def MarketDb.addPayment (new : NewMarketPayment) : MarketDb :=
  { db with
    payments :=
      db.payments.insert (fun id => { new with id := id, createdAt := now }) fun _ => rfl }

end

def insertMarketSubscription (env : Env) (new : NewMarketSubscription) :
    MarketM MarketSubscription :=
  execute env .insertSubscription ⟨.internal, "failed_to_create_subscription"⟩ fun db =>
    if (db.users.get new.buyerId).isSome && (db.products.get new.productId).isSome then
      some ({ new with id := db.subscriptions.next, createdAt := env.now },
        db.addSubscription env.now new)
    else none

/-- What the foreign keys of a purchase name is there. -/
def NewMarketPurchase.keyed (new : NewMarketPurchase) (db : MarketDb) : Bool :=
  (db.users.get new.buyerId).isSome && (db.products.get new.productId).isSome &&
    new.subscriptionId.all fun id => (db.subscriptions.get id).isSome

def insertMarketPurchase (env : Env) (new : NewMarketPurchase) : MarketM MarketPurchase :=
  execute env .insertPurchase ⟨.internal, "failed_to_create_purchase"⟩ fun db =>
    if new.keyed db then
      some ({ new with id := db.purchases.next, createdAt := env.now },
        db.addPurchase env.now new)
    else none

def insertMarketPayment (env : Env) (new : NewMarketPayment) : MarketM MarketPayment :=
  execute env .insertPayment ⟨.internal, "failed_to_create_payment"⟩ fun db =>
    if (db.purchases.get new.purchaseId).isSome then
      some ({ new with id := db.payments.next, createdAt := env.now },
        db.addPayment env.now new)
    else none

section

variable {env : Env} {db : MarketDb}

/-- A purchase just stored is there. -/
theorem addPurchase_get_next (db : MarketDb) (now : Instant) (new : NewMarketPurchase) :
    ((db.addPurchase now new).purchases.get db.purchases.next).isSome = true := by
  rw [MarketDb.addPurchase, Serial.get_insert, if_pos rfl]
  rfl

theorem insertMarketPurchase_ok {new : NewMarketPurchase}
    (hfault : env.faults .insertPurchase = false) (hkeyed : new.keyed db = true) :
    ∃ row : MarketPurchase, row.id = db.purchases.next ∧ row.toNewMarketPurchase = new ∧
      insertMarketPurchase env new db = .ok row (db.addPurchase env.now new) := by
  refine ⟨_, ?_, ?_, execute_ok hfault (if_pos hkeyed)⟩
  · rfl
  · rfl

theorem insertMarketPurchase_error {new : NewMarketPurchase}
    (h : env.faults .insertPurchase = true ∨ new.keyed db = false) :
    insertMarketPurchase env new db = .error ⟨.internal, "failed_to_create_purchase"⟩ db := by
  apply execute_error
  rcases h with hfault | hkeyed
  · exact .inl hfault
  · exact .inr (if_neg (by simp [hkeyed]))

theorem insertMarketPayment_ok {new : NewMarketPayment}
    (hfault : env.faults .insertPayment = false)
    (hpurchase : (db.purchases.get new.purchaseId).isSome = true) :
    ∃ row, insertMarketPayment env new db = .ok row (db.addPayment env.now new) :=
  ⟨_, execute_ok hfault (if_pos hpurchase)⟩

theorem insertMarketPayment_error {new : NewMarketPayment}
    (h : env.faults .insertPayment = true) :
    insertMarketPayment env new db = .error ⟨.internal, "failed_to_create_payment"⟩ db :=
  execute_error (.inl h)

end

/-- The object of a `checkout.session.completed` event. -/
structure CheckoutSession where
  id : Option String
  metadata : SessionMetadata
  customer : Option String := none
  paymentIntent : Option String := none
  deriving DecidableEq, Repr

/-- What Stripe knows of how a payment intent was paid. -/
structure PaymentIntentPaymentMethod where
  paymentMethodId : Option String
  card : Option CardDetails
  deriving DecidableEq, Repr

/-- The details a completed session is recorded with: those of the product, except that a
hosting order is made of the buyer's input. -/
def checkoutDetails (product : MarketProduct) (metadata : SessionMetadata) : DetailsJson :=
  if product.productType = .rellmHosting then
    let productDetails := product.details.toRellmHostingSubscription.getD {}
    .rellmHostingPurchase {
      additionalDescription := productDetails.additionalDescription
      domain := metadata.rellmHostingDomain
      contactEmail := metadata.rellmHostingContactEmail
      additionalInformation := metadata.rellmHostingAdditionalInformation }
  else product.details

/-- What the webhook has at hand when it records a completed session. -/
structure Checkout where
  env : Env
  session : CheckoutSession
  sessionId : String
  buyerId : Nat
  product : MarketProduct
  paymentMethod : Option PaymentIntentPaymentMethod := none

namespace Checkout

variable (chrono : Chrono) (checkout : Checkout)

/-- The details of the order. -/
def details : DetailsJson := checkoutDetails checkout.product checkout.session.metadata

/-- The subscription to store. -/
def subscription : NewMarketSubscription where
  buyerId := checkout.buyerId
  productId := checkout.product.id
  productType := checkout.product.productType
  period := checkout.product.period
  amount := checkout.product.amount
  currency := checkout.product.currency
  details := checkout.details
  renewsAt :=
    if checkout.product.period = .indefinite then none
    else some (advanceByPeriod chrono checkout.env.now checkout.product.period)
  stripeCustomerId := checkout.session.customer
  stripePaymentMethodId := checkout.paymentMethod.bind (·.paymentMethodId)

/-- The purchase to store. -/
def purchase (subscriptionId : Nat) : NewMarketPurchase where
  buyerId := checkout.buyerId
  productId := checkout.product.id
  subscriptionId := some subscriptionId
  productType := checkout.product.productType
  details := checkout.details
  stripeCheckoutSessionId := some checkout.sessionId
  stripePaymentIntentId := checkout.session.paymentIntent

/-- The payment to store. -/
def payment (purchaseId : Nat) : NewMarketPayment where
  purchaseId := purchaseId
  amount := checkout.product.amount
  currency := checkout.product.currency
  stripePaymentIntentId := checkout.session.paymentIntent
  method := checkout.paymentMethod.bind (·.card)

end Checkout

/-- Whether a successful delivery found the session recorded already, or recorded it. -/
inductive Handled where
  | alreadyProcessed
  | fulfilled
  deriving DecidableEq, Repr

/-- Whether a purchase is stored for a session. -/
def MarketDb.hasPurchase (db : MarketDb) (sessionId : String) : Bool :=
  db.purchases.rows.any fun purchase =>
    decide (purchase.stripeCheckoutSessionId = some sessionId)

/-- Looks up whether a session was processed already. -/
def alreadyProcessed (env : Env) (sessionId : String) : MarketM Bool :=
  execute env .selectPurchase ⟨.internal, "db_error"⟩ fun db => some (db.hasPurchase sessionId, db)

/-- Records a completed session and applies the entitlement. -/
def recordCheckout (chrono : Chrono) (checkout : Checkout) : MarketM Handled := do
  let subscription ← insertMarketSubscription checkout.env (checkout.subscription chrono)
  let purchase ← insertMarketPurchase checkout.env (checkout.purchase subscription.id)
  let _ ← insertMarketPayment checkout.env (checkout.payment purchase.id)
  incrementMarketProductSoldCount checkout.env checkout.product.id
  fulfillPurchase checkout.env checkout.product.productType checkout.buyerId purchase.details
  return .fulfilled

/-- Handles a completed checkout session. What Stripe answers when asked for the payment
method is used where there is an answer. -/
def handleCheckoutSessionCompleted (chrono : Chrono) (env : Env)
    (stripe : String → Option PaymentIntentPaymentMethod) (session : CheckoutSession) :
    MarketM Handled := do
  let sessionId ← okOr session.id ⟨.invalidArgument, "missing_session_id"⟩
  if ← alreadyProcessed env sessionId then
    return .alreadyProcessed
  let buyerId ← okOr session.metadata.rellmUserId ⟨.invalidArgument, "invalid_id:rellm_user_id"⟩
  let productId ← okOr session.metadata.rellmMarketProductId
    ⟨.invalidArgument, "invalid_id:rellm_market_product_id"⟩
  let product ← getMarketProduct env productId
  recordCheckout chrono {
    env := env
    session := session
    sessionId := sessionId
    buyerId := buyerId
    product := product
    paymentMethod := session.paymentIntent.bind stripe }

/-- What a delivery gets to record if it finds nothing stored for the session: the ids are
valid, and the product can be read. -/
def CheckoutSession.checkout (session : CheckoutSession) (env : Env)
    (stripe : String → Option PaymentIntentPaymentMethod) (db : MarketDb) : Option Checkout := do
  let sessionId ← session.id
  let buyerId ← session.metadata.rellmUserId
  let productId ← session.metadata.rellmMarketProductId
  let product ← (db.products.get productId).filter fun _ => !env.faults .selectProduct
  return {
    env := env
    session := session
    sessionId := sessionId
    buyerId := buyerId
    product := product
    paymentMethod := session.paymentIntent.bind stripe }

/-- A checkout to be recorded is the session's, with the product as it is stored. -/
structure Checkout.Of (checkout : Checkout) (env : Env) (session : CheckoutSession)
    (db : MarketDb) : Prop where
  sessionId : session.id = some checkout.sessionId
  buyerId : session.metadata.rellmUserId = some checkout.buyerId
  productId : session.metadata.rellmMarketProductId = some checkout.product.id
  product : db.products.get checkout.product.id = some checkout.product
  env : checkout.env = env
  session : checkout.session = session

namespace Checkout

variable (chrono : Chrono) (checkout : Checkout) (db : MarketDb)

/-- The tables with the subscription stored. -/
def subscribed : MarketDb := db.addSubscription checkout.env.now (checkout.subscription chrono)

/-- The tables with the purchase stored too. -/
def purchased : MarketDb :=
  (checkout.subscribed chrono db).addPurchase checkout.env.now
    (checkout.purchase db.subscriptions.next)

/-- The tables with the payment stored too. -/
def paid : MarketDb :=
  (checkout.purchased chrono db).addPayment checkout.env.now (checkout.payment db.purchases.next)

/-- The tables with the sold slot counted, unless that fails. -/
def counted : MarketDb :=
  if checkout.env.faults .incrementSoldCount then checkout.paid chrono db
  else (checkout.paid chrono db).updateSoldCount checkout.product.id (· + 1)

/-- The tables with all rows stored and the slot counted. -/
def recorded : MarketDb :=
  (checkout.paid chrono db).updateSoldCount checkout.product.id (· + 1)

/-- The tables with the entitlement applied too, if it can be. -/
def fulfilled : MarketDb :=
  finalState (fulfillPurchase checkout.env checkout.product.productType checkout.buyerId
    checkout.details (checkout.recorded chrono db))

/-- The buyer and the product are there, and storing the subscription does not fail. -/
def subscribes : Bool :=
  (db.users.get checkout.buyerId).isSome && (db.products.get checkout.product.id).isSome &&
    !checkout.env.faults .insertSubscription

/-- How far recording a session gets: it stores nothing, or fails after the subscription, after
the purchase, or with all rows stored; it loses only the count of the sold slot; or nothing
fails. -/
inductive Reach where
  | nothing
  | subscribed
  | purchased
  | unfulfilled
  | uncounted
  | complete
  deriving DecidableEq, Repr

/-- How far recording the session gets. -/
def reach : Reach :=
  if !checkout.subscribes db then .nothing
  else if checkout.env.faults .insertPurchase then .subscribed
  else if checkout.env.faults .insertPayment then .purchased
  else if !canFulfill checkout.env db checkout.product.productType checkout.buyerId
      checkout.details then .unfulfilled
  else if checkout.env.faults .incrementSoldCount then .uncounted
  else .complete

/-- What recording a session comes to, by how far it gets. -/
inductive Records : Reach → EStateM.Result Status MarketDb Handled → Prop
  | nothing (e : Status) : Records .nothing (.error e db)
  | subscribed (e : Status) : Records .subscribed (.error e (checkout.subscribed chrono db))
  | purchased (e : Status) : Records .purchased (.error e (checkout.purchased chrono db))
  | unfulfilled (e : Status) (db' : MarketDb) (h : OnlyUsers (checkout.counted chrono db) db') :
    Records .unfulfilled (.error e db')
  | uncounted (db' : MarketDb) (h : OnlyUsers (checkout.paid chrono db) db') :
    Records .uncounted (.ok .fulfilled db')
  | complete (db' : MarketDb)
      (h : OnlyUsers ((checkout.paid chrono db).updateSoldCount checkout.product.id (· + 1)) db') :
    Records .complete (.ok .fulfilled db')

end Checkout

/-- What a delivery records of a session where no statement fails. -/
def CheckoutSession.pending (session : CheckoutSession) (env : Env)
    (stripe : String → Option PaymentIntentPaymentMethod) (db : MarketDb) : Option Checkout :=
  (session.checkout env stripe db).filter fun checkout =>
    !db.hasPurchase checkout.sessionId && checkout.subscribes db

section

variable {chrono : Chrono} {checkout : Checkout} {db : MarketDb}

/-- Without its first row nothing of a session is stored. -/
theorem recordCheckout_nothing (h : checkout.subscribes db = false) :
    recordCheckout chrono checkout db =
      .error ⟨.internal, "failed_to_create_subscription"⟩ db := by
  apply bind_of_error
  apply execute_error
  by_cases hfault : checkout.env.faults .insertSubscription = true
  · exact .inl hfault
  · right
    apply if_neg
    simpa [Checkout.subscribes, hfault, Checkout.subscription] using h

theorem insertSubscription_ok (h : checkout.subscribes db = true) :
    ∃ row : MarketSubscription, row.id = db.subscriptions.next ∧
      insertMarketSubscription checkout.env (checkout.subscription chrono) db =
        .ok row (checkout.subscribed chrono db) := by
  simp only [Checkout.subscribes, Bool.and_eq_true, Bool.not_eq_true'] at h
  obtain ⟨⟨hbuyer, hproduct⟩, hfault⟩ := h
  refine ⟨_, ?_, execute_ok hfault (if_pos ?_)⟩
  · rfl
  · rw [Checkout.subscription, hbuyer, hproduct]
    rfl

/-- A failure to store the purchase leaves a subscription without one. -/
theorem recordCheckout_orphan (h : checkout.subscribes db = true)
    (hfault : checkout.env.faults .insertPurchase = true) :
    recordCheckout chrono checkout db =
      .error ⟨.internal, "failed_to_create_purchase"⟩ (checkout.subscribed chrono db) := by
  obtain ⟨row, _, hinsert⟩ := @insertSubscription_ok chrono _ _ h
  rw [recordCheckout, bind_of_ok hinsert]
  exact bind_of_error (execute_error (.inl hfault))

theorem insertPurchase_ok (h : checkout.subscribes db = true)
    (hfault : checkout.env.faults .insertPurchase = false) :
    ∃ row : MarketPurchase, row.id = db.purchases.next ∧ row.details = checkout.details ∧
      insertMarketPurchase checkout.env (checkout.purchase db.subscriptions.next)
        (checkout.subscribed chrono db) = .ok row (checkout.purchased chrono db) := by
  simp only [Checkout.subscribes, Bool.and_eq_true, Bool.not_eq_true'] at h
  obtain ⟨⟨hbuyer, hproduct⟩, _⟩ := h
  have hsubscription :
      ((checkout.subscribed chrono db).subscriptions.get db.subscriptions.next).isSome = true := by
    simp [Checkout.subscribed, MarketDb.addSubscription, Serial.get_insert]
  have hkeyed : (checkout.purchase db.subscriptions.next).keyed (checkout.subscribed chrono db) =
      true := by
    simp only [NewMarketPurchase.keyed, Checkout.purchase, Option.all_some, hsubscription,
      Bool.and_true]
    simp [Checkout.subscribed, MarketDb.addSubscription, hbuyer, hproduct]
  obtain ⟨row, hid, hnew, hinsert⟩ := insertMarketPurchase_ok hfault hkeyed
  refine ⟨row, hid, ?_, hinsert⟩
  rw [hnew]
  rfl

/-- A failure to store the payment leaves a purchase without one. -/
theorem recordCheckout_unpaid (h : checkout.subscribes db = true)
    (hpurchase : checkout.env.faults .insertPurchase = false)
    (hfault : checkout.env.faults .insertPayment = true) :
    recordCheckout chrono checkout db =
      .error ⟨.internal, "failed_to_create_payment"⟩ (checkout.purchased chrono db) := by
  obtain ⟨subscription, hid, hinsert⟩ := @insertSubscription_ok chrono _ _ h
  obtain ⟨purchase, _, _, hpurchased⟩ := @insertPurchase_ok chrono _ _ h hpurchase
  rw [recordCheckout, bind_of_ok hinsert, hid, bind_of_ok hpurchased]
  exact bind_of_error (execute_error (.inl hfault))

/-- Once all rows are stored, what is left is counting the slot and the entitlement. -/
theorem recordCheckout_stored (h : checkout.subscribes db = true)
    (hpurchase : checkout.env.faults .insertPurchase = false)
    (hpayment : checkout.env.faults .insertPayment = false) :
    recordCheckout chrono checkout db =
      (do
        fulfillPurchase checkout.env checkout.product.productType checkout.buyerId
          checkout.details
        return .fulfilled : MarketM Handled) (checkout.counted chrono db) := by
  obtain ⟨subscription, hid, hinsert⟩ := @insertSubscription_ok chrono _ _ h
  obtain ⟨purchase, hid', hdetails, hpurchased⟩ := @insertPurchase_ok chrono _ _ h hpurchase
  have hpaid : ∃ row, insertMarketPayment checkout.env (checkout.payment db.purchases.next)
      (checkout.purchased chrono db) = .ok row (checkout.paid chrono db) :=
    insertMarketPayment_ok hpayment (addPurchase_get_next _ _ _)
  obtain ⟨payment, hpaid⟩ := hpaid
  rw [recordCheckout, bind_of_ok hinsert, hid, bind_of_ok hpurchased, hid', hdetails,
    bind_of_ok hpaid, bind_of_ok (incrementMarketProductSoldCount_apply _)]
  rfl

variable {env : Env} {session : CheckoutSession}
variable {stripe : String → Option PaymentIntentPaymentMethod}

theorem Checkout.of_eq_some (h : session.checkout env stripe db = some checkout) :
    checkout.Of env session db := by
  simp only [CheckoutSession.checkout, Option.bind_eq_bind, Option.bind_eq_some_iff] at h
  obtain ⟨sessionId, hsession, buyerId, hbuyer, productId, hid, product, hproduct, heq⟩ := h
  obtain rfl := Option.some.inj heq
  obtain ⟨hproduct, _⟩ := Option.filter_eq_some_iff.mp hproduct
  obtain rfl : product.id = productId := Table.key_of_get hproduct
  exact ⟨hsession, hbuyer, hid, hproduct, rfl, rfl⟩

/-- Whether the entitlement can be applied does not depend on the rows of the session. -/
theorem canFulfill_counted {env : Env} {purchaseType : PurchaseType} {buyerId : Nat}
    {details : DetailsJson} :
    canFulfill env (checkout.counted chrono db) purchaseType buyerId details =
      canFulfill env db purchaseType buyerId details := by
  rw [Checkout.counted]
  split <;> rfl

/-- Recording a session comes to what its reach says. -/
theorem recordCheckout_records :
    checkout.Records chrono db (checkout.reach db) (recordCheckout chrono checkout db) := by
  rw [Checkout.reach]
  cases hsubscribes : checkout.subscribes db with
  | false =>
    rw [recordCheckout_nothing hsubscribes]
    exact .nothing _
  | true =>
    cases hpurchase : checkout.env.faults .insertPurchase with
    | true =>
      rw [recordCheckout_orphan hsubscribes hpurchase]
      exact .subscribed _
    | false =>
      cases hpayment : checkout.env.faults .insertPayment with
      | true =>
        rw [recordCheckout_unpaid hsubscribes hpurchase hpayment]
        exact .purchased _
      | false =>
        rw [recordCheckout_stored hsubscribes hpurchase hpayment]
        have husers := @fulfillPurchase_within checkout.env checkout.product.productType
          checkout.buyerId checkout.details (checkout.counted chrono db)
        have hsucceeded := @succeeded_fulfillPurchase checkout.env
          (checkout.counted chrono db) checkout.product.productType checkout.buyerId
          checkout.details
        rw [canFulfill_counted] at hsucceeded
        rw [← hsucceeded]
        cases hresult : fulfillPurchase checkout.env checkout.product.productType
          checkout.buyerId checkout.details (checkout.counted chrono db) with
        | error e db' =>
          rw [hresult] at husers
          rw [bind_of_error hresult]
          exact .unfulfilled e db' husers
        | ok _ db' =>
          rw [hresult] at husers
          rw [bind_of_ok hresult]
          rw [finalState_ok, Checkout.counted] at husers
          cases hcount : checkout.env.faults .incrementSoldCount with
          | true =>
            rw [hcount, if_pos rfl] at husers
            exact .uncounted db' husers
          | false =>
            rw [hcount, if_neg Bool.false_ne_true] at husers
            exact .complete db' husers

/-- Applying the entitlement leaves what is recorded. -/
theorem Checkout.fulfilled_onlyUsers :
    OnlyUsers (checkout.recorded chrono db) (checkout.fulfilled chrono db) :=
  fulfillPurchase_within _ _ _ _

/-- Where no statement fails, nothing is stored, or the checkout is recorded and fulfilled. -/
theorem recordCheckout_undisturbed (h : ∀ statement, checkout.env.faults statement = false) :
    checkout.subscribes db = false ∧ finalState (recordCheckout chrono checkout db) = db ∨
      checkout.subscribes db = true ∧
        finalState (recordCheckout chrono checkout db) = checkout.fulfilled chrono db := by
  cases hsubscribes : checkout.subscribes db with
  | false =>
    rw [recordCheckout_nothing hsubscribes]
    exact .inl ⟨rfl, rfl⟩
  | true =>
    have hcounted : checkout.counted chrono db = checkout.recorded chrono db := by
      rw [Checkout.counted, h, if_neg Bool.false_ne_true, Checkout.recorded]
    have hstored := @recordCheckout_stored chrono _ _ hsubscribes (h _) (h _)
    refine .inr ⟨rfl, ?_⟩
    rw [hstored, hcounted, Checkout.fulfilled]
    cases hfulfill : fulfillPurchase checkout.env checkout.product.productType checkout.buyerId
      checkout.details (checkout.recorded chrono db) with
    | ok _ db' =>
      rw [bind_of_ok hfulfill]
      rfl
    | error e db' =>
      rw [bind_of_error hfulfill]
      rfl

/-- A delivery that cannot tell whether the session is recorded changes nothing. -/
theorem handle_blind (h : session.id = none ∨ env.faults .selectPurchase = true) :
    ∃ e, handleCheckoutSessionCompleted chrono env stripe session db = .error e db := by
  rw [handleCheckoutSessionCompleted]
  cases hid : session.id with
  | none => exact ⟨_, bind_of_error okOr_none⟩
  | some sessionId =>
    have hfault : env.faults .selectPurchase = true := h.resolve_left (by simp [hid])
    rw [bind_of_ok okOr_some]
    exact ⟨_, bind_of_error (execute_error (.inl hfault))⟩

/-- Once a purchase is stored for the session, a delivery that finds it changes nothing and
succeeds. -/
theorem handle_alreadyProcessed {sessionId : String} (hid : session.id = some sessionId)
    (hfault : env.faults .selectPurchase = false) (h : db.hasPurchase sessionId = true) :
    handleCheckoutSessionCompleted chrono env stripe session db = .ok .alreadyProcessed db := by
  have hlookup : alreadyProcessed env sessionId db = .ok true db :=
    execute_ok hfault (by rw [h])
  rw [handleCheckoutSessionCompleted, hid, bind_of_ok okOr_some, bind_of_ok hlookup]
  rfl

/-- A delivery that finds no purchase for the session records it as far as it gets. -/
theorem handle_new {sessionId : String} (hid : session.id = some sessionId)
    (hfault : env.faults .selectPurchase = false) (h : db.hasPurchase sessionId = false) :
    (session.checkout env stripe db = none ∧
      ∃ e, handleCheckoutSessionCompleted chrono env stripe session db = .error e db) ∨
    ∃ checkout, session.checkout env stripe db = some checkout ∧
      handleCheckoutSessionCompleted chrono env stripe session db =
        recordCheckout chrono checkout db := by
  have hlookup : alreadyProcessed env sessionId db = .ok false db :=
    execute_ok hfault (by rw [h])
  rw [handleCheckoutSessionCompleted, CheckoutSession.checkout, hid, bind_of_ok okOr_some,
    bind_of_ok hlookup, if_neg Bool.false_ne_true]
  cases hbuyer : session.metadata.rellmUserId with
  | none => exact .inl ⟨rfl, _, bind_of_error okOr_none⟩
  | some buyerId =>
    rw [bind_of_ok okOr_some]
    cases hproductId : session.metadata.rellmMarketProductId with
    | none => exact .inl ⟨rfl, _, bind_of_error okOr_none⟩
    | some productId =>
      rw [bind_of_ok okOr_some]
      cases hselect : env.faults .selectProduct with
      | true =>
        refine .inl ⟨?_, _, bind_of_error (getMarketProduct_error (.inl hselect))⟩
        simp
      | false =>
        cases hproduct : db.products.get productId with
        | none =>
          refine .inl ⟨?_, _, bind_of_error (getMarketProduct_error (.inr hproduct))⟩
          simp [hproduct]
        | some product =>
          refine .inr ⟨_, ?_, bind_of_ok (getMarketProduct_ok hselect hproduct)⟩
          simp only [Option.bind_eq_bind, Option.bind_some, hproduct]
          rfl

/-- Where no statement fails, a delivery changes nothing, or records what is pending of the
session. -/
theorem handle_undisturbed (hfaults : ∀ statement, env.faults statement = false) :
    session.pending env stripe db = none ∧
      finalState (handleCheckoutSessionCompleted chrono env stripe session db) = db ∨
    ∃ checkout, session.pending env stripe db = some checkout ∧
      finalState (handleCheckoutSessionCompleted chrono env stripe session db) =
        checkout.fulfilled chrono db := by
  rw [CheckoutSession.pending]
  cases hid : session.id with
  | none =>
    have hnone : session.checkout env stripe db = none := by
      rw [CheckoutSession.checkout, hid]
      rfl
    obtain ⟨e, he⟩ := @handle_blind chrono db env session stripe (.inl hid)
    rw [he, hnone]
    exact .inl ⟨rfl, rfl⟩
  | some sessionId =>
    cases hpurchase : db.hasPurchase sessionId with
    | true =>
      rw [handle_alreadyProcessed hid (hfaults _) hpurchase, Option.filter_eq_none_iff]
      refine .inl ⟨fun checkout hcheckout => ?_, rfl⟩
      have hsession := (Checkout.of_eq_some hcheckout).sessionId
      obtain rfl := Option.some.inj (hid.symm.trans hsession)
      simp [hpurchase]
    | false =>
      rcases @handle_new chrono db env session stripe sessionId hid (hfaults _) hpurchase with
        ⟨hnone, e, he⟩ | ⟨checkout, hcheckout, hrecord⟩
      · rw [he, hnone]
        exact .inl ⟨rfl, rfl⟩
      · have hof := Checkout.of_eq_some hcheckout
        obtain rfl := Option.some.inj (hid.symm.trans hof.sessionId)
        rw [hrecord, hcheckout]
        rcases @recordCheckout_undisturbed chrono checkout db (hof.env ▸ hfaults) with
          ⟨hsubscribes, hsame⟩ | ⟨hsubscribes, hfulfilled⟩
        · exact .inl ⟨by simp [hsubscribes], hsame⟩
        · exact .inr ⟨checkout, by simp [hsubscribes, hpurchase], hfulfilled⟩

end

/-- A product that sells a gigabyte of storage by the month. -/
def storageProduct (id : Nat) : MarketProduct where
  id := id
  productType := .mediaStorage
  period := .monthly
  amount := 500
  currency := 840
  details := .mediaStorage ⟨1073741824⟩
  createdAt := 0
  availableCount := 0

/-- A market with one user and one product, and nothing sold. -/
def storageMarket : MarketDb where
  users := ⟨[{ permissions := .array [], id := 1 }], List.nodup_singleton _⟩
  aiProviders := []
  grants := .empty
  products := Serial.empty.insert storageProduct fun _ => rfl
  subscriptions := .empty
  purchases := .empty
  payments := .empty

/-- The completed checkout of that product by that user. -/
def storageSession : CheckoutSession where
  id := some "cs_1"
  metadata := { rellmUserId := some 1, rellmMarketProductId := some 1 }

end Rellm.Market
