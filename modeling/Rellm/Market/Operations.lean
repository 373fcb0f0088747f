import Rellm.Foundation.Run
import Rellm.Market.Renewal

/-!
# Operations without failing statements

Completed checkouts, cancellations, edits of products, and the two background jobs,
each performed as a whole, with every statement succeeding. What a renewal run does
to each due subscription is decided by what the tables hold before it.
-/

namespace Rellm.Market

open Foundation Calendar

/-- One operation. -/
inductive Operation where
  | checkout (now : Instant) (stripe : String → Option PaymentIntentPaymentMethod)
      (session : CheckoutSession)
  | cancel (now : Instant) (subscriptionId : Option Nat) (caller : User)
  | renew (now : Instant) (stripeConfig : Option StripeConfig) (stripe : StripeApi)
      (purchaseType : PurchaseType)
  | terminate (now : Instant) (configuration : Option ServerConfiguration)
      (purchaseType : PurchaseType)
  | updateProduct (now : Instant) (request : ProductRequest) (caller : User)

namespace Operation

variable (chrono : Chrono)

/-- What an operation leaves of the tables. -/
def step (db : MarketDb) : Operation → MarketDb
  | checkout now stripe session =>
    finalState (handleCheckoutSessionCompleted chrono { now := now } stripe session db)
  | cancel now subscriptionId caller =>
    finalState (cancelMarketSubscription { now := now } subscriptionId caller db)
  | renew now stripeConfig stripe purchaseType =>
    finalState (renewSubscriptionsOfType chrono { now := now, stripeConfig := stripeConfig } stripe
      purchaseType db)
  | terminate now configuration purchaseType =>
    finalState (terminateSubscriptionsOfType { now := now, serverConfiguration := configuration }
      purchaseType db)
  | updateProduct now request caller =>
    finalState (updateMarketProduct { now := now } caller request db)

end Operation

/-- What the foreign keys of a renewal's purchase name is there. -/
def MarketSubscription.keyed (subscription : MarketSubscription) (db : MarketDb) : Bool :=
  (db.users.get subscription.buyerId).isSome && (db.products.get subscription.productId).isSome &&
    (db.subscriptions.get subscription.id).isSome

/-- Whether a charge can be recorded and the entitlement applied. -/
def recordable (env : Env) (purchaseType : PurchaseType) (db : MarketDb)
    (subscription : MarketSubscription) : Bool :=
  subscription.keyed db && !env.faults .insertPurchase && !env.faults .insertPayment &&
    !env.faults .advanceRenewal &&
    canFulfill env db purchaseType subscription.buyerId subscription.details

/-- Whether a subscription can be charged. -/
def MarketSubscription.chargeable (subscription : MarketSubscription) : Bool :=
  subscription.stripeCustomerId.isSome && subscription.stripePaymentMethodId.isSome &&
    (currencyCode subscription.currency.toUInt32).isSome

/-- Whether a due subscription is renewed: it can be charged, the charge is made and its reply
arrives, and it can be recorded. -/
def renewable (env : Env) (stripe : StripeApi) (purchaseType : PurchaseType) (db : MarketDb)
    (subscription : MarketSubscription) : Bool :=
  subscription.chargeable && (stripe.charge subscription matches .succeeded _) &&
    recordable env purchaseType db subscription

section

variable {chrono : Chrono} {env : Env} {stripe : StripeApi} {purchaseType : PurchaseType}
variable {db db' : MarketDb} {subscription : MarketSubscription}

theorem checkChargeable_succeeded : succeeded (checkChargeable subscription db) =
    subscription.chargeable := by
  rw [checkChargeable, MarketSubscription.chargeable]
  cases subscription.stripeCustomerId with
  | none => rfl
  | some customerId =>
    cases subscription.stripePaymentMethodId with
    | none => rfl
    | some paymentMethodId => cases currencyCode subscription.currency.toUInt32 <;> rfl

/-- Checking whether a subscription can be charged changes nothing. -/
theorem checkChargeable_readOnly : ReadOnly (checkChargeable subscription) := by
  refine (okOr_readOnly _).bind fun _ => (okOr_readOnly _).bind fun _ => ?_
  exact (okOr_readOnly _).bind fun _ => ReadOnly.pure ()

/-- A charge is recorded exactly if it can be. -/
theorem succeeded_recordRenewal (card : Option CardDetails) (intentId : String) :
    succeeded (recordRenewal chrono env card purchaseType subscription intentId db) =
      recordable env purchaseType db subscription := by
  rw [recordRenewal, recordable]
  have hkeyed : (renewalPurchase subscription intentId).keyed db = subscription.keyed db := rfl
  by_cases hpurchase : env.faults .insertPurchase = true ∨ subscription.keyed db = false
  · rw [bind_of_error (insertMarketPurchase_error (hkeyed ▸ hpurchase))]
    rcases hpurchase with h | h <;> simp [h]
  · rw [not_or, Bool.not_eq_true, Bool.not_eq_false] at hpurchase
    obtain ⟨row, hid, hnew, hinsert⟩ :=
      insertMarketPurchase_ok hpurchase.1 (hkeyed.trans hpurchase.2)
    rw [bind_of_ok hinsert, hpurchase.1, hpurchase.2]
    cases hpayment : env.faults .insertPayment with
    | true =>
      rw [bind_of_error (insertMarketPayment_error hpayment)]
      rfl
    | false =>
      have hstored : ((db.addPurchase env.now (renewalPurchase subscription intentId)).purchases.get
          (renewalPayment subscription intentId card row.id).purchaseId).isSome = true :=
        hid ▸ addPurchase_get_next db env.now (renewalPurchase subscription intentId)
      obtain ⟨payment, hpaid⟩ := insertMarketPayment_ok hpayment hstored
      rw [bind_of_ok hpaid]
      cases hadvance : env.faults .advanceRenewal with
      | true =>
        have hadvanced : ∀ db, advanceRenewal env subscription.id
            (nextRenewal chrono env.now subscription) db =
              .error ⟨.internal, "failed_to_advance_renewal"⟩ db :=
          fun db => execute_error (.inl hadvance)
        rw [bind_of_error (hadvanced _)]
        rfl
      | false =>
        have hadvanced : ∀ db, advanceRenewal env subscription.id
            (nextRenewal chrono env.now subscription) db =
              .ok () (db.advance subscription.id (nextRenewal chrono env.now subscription)) :=
          fun db => execute_ok hadvance rfl
        rw [bind_of_ok (hadvanced _), succeeded_fulfillPurchase]
        have hdetails : row.details = subscription.details := by
          rw [hnew]
          rfl
        rw [hdetails]
        simp only [Bool.not_false, Bool.and_self, Bool.true_and]
        exact canFulfill_congr rfl (fun _ => rfl) _ _ _

theorem insertMarketPurchase_within {R : MarketDb → MarketDb → Prop} (hrefl : ∀ db, R db db)
    {new : NewMarketPurchase} (h : ∀ db, R db (db.addPurchase env.now new)) :
    Within R (insertMarketPurchase env new) := by
  apply execute_within hrefl
  intro db row db' heffect
  split at heffect
  · obtain ⟨_, rfl⟩ := Prod.mk.inj (Option.some.inj heffect)
    exact h db
  · cases heffect

theorem insertMarketPayment_within {R : MarketDb → MarketDb → Prop} (hrefl : ∀ db, R db db)
    {new : NewMarketPayment} (h : ∀ db, R db (db.addPayment env.now new)) :
    Within R (insertMarketPayment env new) := by
  apply execute_within hrefl
  intro db row db' heffect
  split at heffect
  · obtain ⟨_, rfl⟩ := Prod.mk.inj (Option.some.inj heffect)
    exact h db
  · cases heffect

theorem advanceRenewal_within {R : MarketDb → MarketDb → Prop} (hrefl : ∀ db, R db db) {id : Nat}
    {renewsAt : Instant} (h : ∀ db : MarketDb, R db (db.advance id renewsAt)) :
    Within R (advanceRenewal env id renewsAt) := by
  apply execute_within hrefl
  intro db _ db' heffect
  obtain ⟨_, rfl⟩ := Prod.mk.inj (Option.some.inj heffect)
  exact h db

theorem createOffSessionPaymentIntent_readOnly (outcome : ChargeOutcome) :
    ReadOnly (createOffSessionPaymentIntent outcome) := by
  cases outcome <;> exact fun _ => rfl

/-- What every write of a renewal keeps, the renewal keeps. -/
theorem renewOne_within {R : MarketDb → MarketDb → Prop} (hrefl : ∀ db, R db db)
    (htrans : ∀ db db' db'', R db db' → R db' db'' → R db db'')
    (hpurchase : ∀ (db : MarketDb) new, R db (db.addPurchase env.now new))
    (hpayment : ∀ (db : MarketDb) new, R db (db.addPayment env.now new))
    (hadvance : ∀ (db : MarketDb) id renewsAt, R db (db.advance id renewsAt))
    (husers : ∀ db db', OnlyUsers db db' → R db db') :
    Within R (renewOne chrono env stripe purchaseType subscription) := by
  have hreads {α : Type} {x : MarketM α} (hx : ReadOnly x) : Within R x :=
    hx.mono fun db _ h => h ▸ hrefl db
  refine (hreads checkChargeable_readOnly).bind htrans fun _ => ?_
  refine (hreads (createOffSessionPaymentIntent_readOnly _)).bind htrans fun intentId => ?_
  refine (insertMarketPurchase_within hrefl fun db => hpurchase db _).bind htrans fun purchase => ?_
  refine (insertMarketPayment_within hrefl fun db => hpayment db _).bind htrans fun _ => ?_
  refine (advanceRenewal_within hrefl fun db => hadvance db _ _).bind htrans fun _ => ?_
  exact (fulfillPurchase_within _ _ _).mono husers

theorem endSubscription_within {R : MarketDb → MarketDb → Prop} (hrefl : ∀ db, R db db)
    (hcancel : ∀ (db : MarketDb) id, R db (db.cancel id env.now)) (id : Nat) :
    Within R (endSubscription env id) := by
  refine Within.logged (execute_within hrefl fun db _ db' heffect => ?_)
  obtain ⟨_, rfl⟩ := Prod.mk.inj (Option.some.inj heffect)
  exact hcancel db id

/-- What every write of a renewal run keeps, the run keeps. -/
theorem renewSubscriptionsOfType_within {R : MarketDb → MarketDb → Prop} (hrefl : ∀ db, R db db)
    (htrans : ∀ db db' db'', R db db' → R db' db'' → R db db'')
    (hrenew : ∀ subscription, Within R (renewOne chrono env stripe purchaseType subscription))
    (hcancel : ∀ (db : MarketDb) id, R db (db.cancel id env.now)) :
    Within R (renewSubscriptionsOfType chrono env stripe purchaseType) := by
  refine Within.bind htrans (fun db => ?_) fun due => ?_
  · rw [getDueMarketSubscriptions, execute]
    split <;> exact hrefl db
  · split
    · exact Within.forM hrefl htrans fun subscription _ => endSubscription_within hrefl hcancel _
    · exact Within.forM hrefl htrans fun subscription _ =>
        (hrenew subscription).recover htrans fun _ => endSubscription_within hrefl hcancel _

/-- A subscription is renewed exactly if it is renewable. -/
theorem succeeded_renewOne :
    succeeded (renewOne chrono env stripe purchaseType subscription db) =
      renewable env stripe purchaseType db subscription := by
  rw [renewOne, renewable, ← checkChargeable_succeeded]
  cases hcheck : succeeded (checkChargeable subscription db) with
  | false => exact succeeded_bind_of_failed hcheck
  | true =>
    rw [succeeded_bind_of_ok (ok_of_succeeded hcheck (checkChargeable_readOnly db))]
    cases hcharge : stripe.charge subscription with
    | failed => rfl
    | lost => rfl
    | succeeded intentId =>
      have hreply : createOffSessionPaymentIntent (.succeeded intentId) db = .ok intentId db := rfl
      rw [succeeded_bind_of_ok hreply, succeeded_recordRenewal]
      simp

end

/-- What of a subscription the accounting of slots depends on. -/
def MarketSubscription.slot (subscription : MarketSubscription) : Nat × Nat × Option Instant :=
  (subscription.id, subscription.productId, subscription.canceledAt)

/-- The products are the same, and so are the slots that the subscriptions hold. -/
structure SameSlots (db db' : MarketDb) : Prop where
  aiProviders : db'.aiProviders = db.aiProviders
  users : ∀ id, (db'.users.get id).isSome = (db.users.get id).isSome
  products : db'.products = db.products
  subscriptions : db'.subscriptions.rows.map (·.slot) = db.subscriptions.rows.map (·.slot)

namespace SameSlots

theorem refl (db : MarketDb) : SameSlots db db := ⟨rfl, fun _ => rfl, rfl, rfl⟩

theorem trans (db db' db'' : MarketDb) (h : SameSlots db db') (h' : SameSlots db' db'') :
    SameSlots db db'' where
  aiProviders := h'.aiProviders.trans h.aiProviders
  users id := (h'.users id).trans (h.users id)
  products := h'.products.trans h.products
  subscriptions := h'.subscriptions.trans h.subscriptions

theorem of_onlyUsers (db db' : MarketDb) (h : OnlyUsers db db') : SameSlots db db' :=
  ⟨h.aiProviders, h.users, h.products, by rw [h.subscriptions]⟩

/-- A rewrite of a subscription that keeps its slot. -/
theorem updateSubscription (db : MarketDb) (id : Nat)
    {f : MarketSubscription → MarketSubscription} (hf : ∀ row, (f row).id = row.id)
    (hslot : ∀ row, (f row).slot = row.slot) : SameSlots db (db.updateSubscription id f hf) where
  aiProviders := rfl
  users _ := rfl
  products := rfl
  subscriptions := db.subscriptions.toTable.map_rows_update hf hslot

variable {db db' : MarketDb} (h : SameSlots db db')

include h in
/-- The same slots are found. -/
theorem get (id : Nat) :
    (db'.subscriptions.get id).map (·.slot) = (db.subscriptions.get id).map (·.slot) :=
  Table.map_get_of_map_rows (k := Prod.fst) (fun _ => rfl) h.subscriptions id

include h in
/-- The same slots satisfy a condition. -/
theorem countP (q : Nat × Nat × Option Instant → Bool) :
    db'.subscriptions.rows.countP (fun row => q row.slot) =
      db.subscriptions.rows.countP (fun row => q row.slot) := by
  have hcount (db : MarketDb) : db.subscriptions.rows.countP (fun row => q row.slot) =
      (db.subscriptions.rows.map (·.slot)).countP q := by
    rw [List.countP_map]
    rfl
  rw [hcount, hcount, h.subscriptions]

end SameSlots

section

variable {chrono : Chrono} {env : Env} {stripe : StripeApi} {purchaseType : PurchaseType}
variable {subscription : MarketSubscription}

/-- Renewing a subscription leaves every slot as it is. -/
theorem renewOne_keepsSlots :
    Within SameSlots (renewOne chrono env stripe purchaseType subscription) :=
  renewOne_within SameSlots.refl SameSlots.trans (fun _ _ => ⟨rfl, fun _ => rfl, rfl, rfl⟩)
    (fun _ _ => ⟨rfl, fun _ => rfl, rfl, rfl⟩)
    (fun db id _ => .updateSubscription db id _ fun _ => rfl) SameSlots.of_onlyUsers

/-- Terminating subscriptions leaves every slot as it is. -/
theorem terminateSubscriptionsOfType_keepsSlots :
    Within SameSlots (terminateSubscriptionsOfType env purchaseType) := by
  refine Within.bind SameSlots.trans (fun db => ?_) fun terminable => ?_
  · rw [getTerminableMarketSubscriptions, execute]
    split <;> exact SameSlots.refl db
  · refine Within.forM SameSlots.refl SameSlots.trans fun subscription _ => ?_
    refine Within.recover SameSlots.trans ?_ fun _ => Within.pure SameSlots.refl ()
    refine ((terminateEntitlement_within _ _ _).mono SameSlots.of_onlyUsers).bind SameSlots.trans
      fun _ => ?_
    refine Within.logged (execute_within SameSlots.refl fun db _ db' h => ?_)
    obtain ⟨_, rfl⟩ := Prod.mk.inj (Option.some.inj h)
    exact .updateSubscription db _ _ fun _ => rfl

end

end Rellm.Market
