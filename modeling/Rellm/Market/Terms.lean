import Rellm.Market.Sales

/-!
# The terms of a sale

A checkout session carries ids and no price: when it is completed, the webhook reads
the product again and records its price and details as they are by then. They are
those the buyer was charged and agreed to exactly if no edit changed them meanwhile.
-/

namespace Rellm.Market

open Foundation Calendar

/-- What a buyer agrees to: the price, and the details of the order. -/
structure Terms where
  amount : Int32
  currency : Int32
  details : DetailsJson
  deriving DecidableEq, Repr

/-- The terms on which a product is sold to the buyer of a session. -/
def MarketProduct.terms (product : MarketProduct) (metadata : SessionMetadata) : Terms where
  amount := product.amount
  currency := product.currency
  details := checkoutDetails product metadata

/-- The terms a subscription is renewed on. -/
def MarketSubscription.terms (subscription : MarketSubscription) : Terms where
  amount := subscription.amount
  currency := subscription.currency
  details := subscription.details

/-- The terms on which a session was created. -/
def OpenSession.terms (session : OpenSession) : Terms :=
  session.product.terms session.params.metadata

/-- The subscription of a purchase has the terms, and its one payment has the price. -/
structure RecordedOn (terms : Terms) (db : MarketDb) (purchase : MarketPurchase) : Prop where
  subscribed : (purchase.subscriptionId.bind db.subscriptions.get).map (·.terms) = some terms
  paid : (db.paymentsOf purchase.id).map (fun payment => (payment.amount, payment.currency)) =
    [(terms.amount, terms.currency)]

instance (terms : Terms) (db : MarketDb) (purchase : MarketPurchase) :
    Decidable (RecordedOn terms db purchase) :=
  decidable_of_iff (_ ∧ _) ⟨fun h => ⟨h.1, h.2⟩, fun h => ⟨h.subscribed, h.paid⟩⟩

/-- Every session that is recorded is recorded on the terms on which it was created. -/
def RecordedAsAgreed (s : Sales) : Prop :=
  ∀ session ∈ s.sessions, ∀ purchase ∈ s.db.purchases.rows,
    purchase.stripeCheckoutSessionId = some session.id →
      RecordedOn session.terms s.db purchase

instance (s : Sales) : Decidable (RecordedAsAgreed s) :=
  inferInstanceAs (Decidable (∀ session ∈ s.sessions, ∀ purchase ∈ s.db.purchases.rows,
    purchase.stripeCheckoutSessionId = some session.id →
      RecordedOn session.terms s.db purchase))

/-- A session is completed while the terms of its product are those on which it was created. -/
def TermsUnchanged (s : Sales) (event : SaleEvent) : Prop :=
  ∀ checkout ∈ s.records event, ∀ session ∈ s.sessions, checkout.sessionId = session.id →
    checkout.product.terms checkout.session.metadata = session.terms

instance (s : Sales) (event : SaleEvent) : Decidable (TermsUnchanged s event) :=
  inferInstanceAs (Decidable (∀ checkout ∈ s.records event, ∀ session ∈ s.sessions,
    checkout.sessionId = session.id →
      checkout.product.terms checkout.session.metadata = session.terms))

section

variable {chrono : Chrono} {s : Sales} {db db' : MarketDb} {checkout : Checkout} {terms : Terms}
variable {purchase : MarketPurchase}

/-- Keeping the terms of subscriptions and the payments keeps what a purchase is recorded on. -/
theorem RecordedOn.mono (h : RecordedOn terms db purchase)
    (hsubscriptions : ∀ id subscription, db.subscriptions.get id = some subscription →
      ∃ subscription', db'.subscriptions.get id = some subscription' ∧
        subscription'.terms = subscription.terms)
    (hpayments : db'.paymentsOf purchase.id = db.paymentsOf purchase.id) :
    RecordedOn terms db' purchase := by
  obtain ⟨subscription, hbind, hterms⟩ := Option.map_eq_some_iff.mp h.subscribed
  obtain ⟨id, hid, hget⟩ := Option.bind_eq_some_iff.mp hbind
  obtain ⟨subscription', hget', hsame⟩ := hsubscriptions id subscription hget
  constructor
  · rw [hid, Option.bind_some, hget', Option.map_some, hsame, hterms]
  · rw [hpayments]
    exact h.paid

/-- The purchase that a completed checkout stores. -/
def Checkout.newPurchase (checkout : Checkout) (db : MarketDb) : MarketPurchase :=
  { checkout.purchase db.subscriptions.next with
    id := db.purchases.next
    createdAt := checkout.env.now }

/-- The payments after a completed checkout. -/
theorem paymentsOf_paid (purchaseId : Nat) : ∃ payment : MarketPayment,
    payment.amount = checkout.product.amount ∧ payment.currency = checkout.product.currency ∧
    (checkout.paid chrono db).paymentsOf purchaseId =
      db.paymentsOf purchaseId ++ if db.purchases.next = purchaseId then [payment] else [] := by
  refine ⟨{ checkout.payment db.purchases.next with
    id := db.payments.next
    createdAt := checkout.env.now }, rfl, rfl, ?_⟩
  rw [MarketDb.paymentsOf, MarketDb.paymentsOf, Checkout.paid, MarketDb.addPayment,
    Serial.rows_insert, List.filter_append]
  simp [Checkout.payment, Checkout.purchased, Checkout.subscribed, MarketDb.addPurchase,
    MarketDb.addSubscription, List.filter_singleton]

/-- A completed checkout is recorded on the terms its product has by then. -/
theorem recordedOn_newPurchase (hstored : PaymentsStored db) :
    RecordedOn terms (checkout.paid chrono db) (checkout.newPurchase db) ↔
      checkout.product.terms checkout.session.metadata = terms := by
  obtain ⟨payment, hamount, hcurrency, hpayments⟩ :=
    @paymentsOf_paid chrono db checkout db.purchases.next
  have hnone := hstored.paymentsOf_next
  have hget : (checkout.newPurchase db).subscriptionId.bind
      (checkout.paid chrono db).subscriptions.get = some { checkout.subscription chrono with
        id := db.subscriptions.next
        createdAt := checkout.env.now } :=
    (db.subscriptions.get_insert _ _ _).trans (if_pos rfl)
  constructor
  · intro h
    have hsubscribed := h.subscribed
    rw [hget] at hsubscribed
    exact Option.some.inj hsubscribed
  · rintro rfl
    constructor
    · rw [hget]
      rfl
    · have hid : (checkout.newPurchase db).id = db.purchases.next := rfl
      rw [hid, hpayments, hnone, if_pos rfl, List.nil_append, List.map_singleton, hamount,
        hcurrency]
      rfl

/-- A completed checkout leaves the terms of other purchases as they are. -/
theorem RecordedOn.mono_paid (h : RecordedOn terms db purchase)
    (hmem : purchase ∈ db.purchases.rows) :
    RecordedOn terms (checkout.paid chrono db) purchase := by
  refine h.mono (fun id subscription hget => ?_) ?_
  · exact ⟨subscription, db.subscriptions.get_insert_of_get _ _ hget, rfl⟩
  · obtain ⟨payment, _, _, hpayments⟩ := @paymentsOf_paid chrono db checkout purchase.id
    have hbelow := db.purchases.below purchase hmem
    rw [hpayments, if_neg (by omega), List.append_nil]

/-- What a purchase is recorded on depends on its subscription and its payments only. -/
theorem RecordedOn.of_onlyUsers (husers : OnlyUsers (checkout.recorded chrono db) db') :
    RecordedOn terms db' purchase ↔ RecordedOn terms (checkout.paid chrono db) purchase := by
  have hsubscriptions : db'.subscriptions = (checkout.paid chrono db).subscriptions :=
    husers.subscriptions
  have hpayments : db'.paymentsOf purchase.id =
      (checkout.paid chrono db).paymentsOf purchase.id := by
    rw [MarketDb.paymentsOf, husers.payments]
    rfl
  constructor
  · intro h
    refine h.mono (fun id subscription hget => ⟨subscription, ?_, rfl⟩) hpayments.symm
    rw [← hsubscriptions, hget]
  · intro h
    refine h.mono (fun id subscription hget => ⟨subscription, ?_, rfl⟩) hpayments
    rw [hsubscriptions, hget]

/-- A cancellation leaves the terms of subscriptions as they are. -/
theorem RecordedOn.mono_cancels {env : Env} (h : RecordedOn terms db purchase)
    (hcancels : Cancels env db db') : RecordedOn terms db' purchase := by
  obtain ⟨row, _, _, hdb⟩ := hcancels
  have hsubscriptions : db'.subscriptions = (db.cancel row.id env.now).subscriptions := by
    rw [hdb]
    split <;> rfl
  have hpayments : db'.paymentsOf purchase.id = db.paymentsOf purchase.id := by
    rw [hdb]
    split <;> rfl
  refine h.mono (fun id subscription hget => ?_) hpayments
  rw [hsubscriptions, MarketDb.cancel, MarketDb.updateSubscription, Serial.get_modify, hget]
  split
  · exact ⟨_, rfl, rfl⟩
  · exact ⟨subscription, rfl, rfl⟩

/-- Payments stay those of stored purchases. -/
theorem paymentsStored_step (s : Sales) (event : SaleEvent) (h : PaymentsStored s.db) :
    PaymentsStored (s.step chrono event).db := by
  have hchanges := @Sales.step_changes chrono s event
  generalize (s.step chrono event).db = db at hchanges ⊢
  cases hchanges with
  | none => exact h
  | record session _ checkout _ _ _ _ db husers =>
    rw [PaymentsStored, husers.payments, husers.purchases]
    intro payment hmem
    rcases List.mem_append.mp hmem with hold | hnew
    · exact Nat.lt_succ_of_lt (h payment hold)
    · rw [List.mem_singleton.mp hnew]
      exact Nat.lt_succ_self _
  | cancel _ _ now db hcancels =>
    obtain ⟨row, _, _, rfl⟩ := hcancels
    exact h
  | write => exact h

/-- A step keeps sessions recorded as agreed exactly if it does not complete one whose terms
changed. -/
theorem recordedAsAgreed_step (s : Sales) (event : SaleEvent) (hstored : PaymentsStored s.db)
    (h : RecordedAsAgreed s) :
    RecordedAsAgreed (s.step chrono event) ↔ TermsUnchanged s event := by
  rcases @Sales.step_sessions chrono s event with
    hsessions | ⟨session, hsessions, hfresh, _, hdb, hrecords⟩
  · have hchanges := @Sales.step_changes chrono s event
    rw [RecordedAsAgreed, hsessions]
    generalize (s.step chrono event).db = db at hchanges ⊢
    cases hchanges with
    | none hrecords hwrites => exact iff_of_true h (by simp [TermsUnchanged, hrecords])
    | cancel hrecords hwrites now db hcancels =>
      refine iff_of_true ?_ (by simp [TermsUnchanged, hrecords])
      intro session hsession purchase hpurchase hid
      have hpurchases : db.purchases = s.db.purchases := by
        obtain ⟨row, _, _, rfl⟩ := hcancels
        rfl
      exact (h session hsession purchase (hpurchases ▸ hpurchase) hid).mono_cancels hcancels
    | write hrecords row hwrites =>
      refine iff_of_true ?_ (by simp [TermsUnchanged, hrecords])
      intro session hsession purchase hpurchase hid
      have hrecorded := h session hsession purchase hpurchase hid
      exact hrecorded.mono (fun id subscription hget => ⟨subscription, hget, rfl⟩) rfl
    | record session hsession checkout hrecords hwrites hid hmetadata db husers =>
      have hpurchases : db.purchases.rows = s.db.purchases.rows ++ [checkout.newPurchase s.db] := by
        rw [husers.purchases]
        rfl
      constructor
      · intro hagreed checkout' hrecords' session' hsession' hid'
        obtain rfl := Option.some.inj (hrecords.symm.trans hrecords')
        have hmem : checkout.newPurchase s.db ∈ db.purchases.rows := by
          rw [hpurchases]
          exact List.mem_append_right _ (List.mem_singleton.mpr rfl)
        have hrecorded := hagreed session' hsession' _ hmem (congrArg some hid')
        exact (recordedOn_newPurchase hstored).mp ((RecordedOn.of_onlyUsers husers).mp hrecorded)
      · intro hunchanged session' hsession' purchase hpurchase hid'
        rw [RecordedOn.of_onlyUsers husers]
        rw [hpurchases, List.mem_append, List.mem_singleton] at hpurchase
        rcases hpurchase with hold | rfl
        · exact (h session' hsession' purchase hold hid').mono_paid hold
        · rw [recordedOn_newPurchase hstored]
          exact hunchanged checkout hrecords session' hsession' (Option.some.inj hid')
  · refine iff_of_true ?_ (by simp [TermsUnchanged, hrecords])
    rw [RecordedAsAgreed, hsessions, hdb]
    intro session' hsession' purchase hpurchase hid
    rcases List.mem_append.mp hsession' with hold | hnew
    · exact h session' hold purchase hpurchase hid
    · obtain rfl := List.mem_singleton.mp hnew
      simp only [Sales.isFresh, Bool.and_eq_true, Bool.not_eq_true', MarketDb.hasPurchase,
        List.any_eq_false] at hfresh
      exact absurd (decide_eq_true hid) (hfresh.2 purchase hpurchase)

end

/-- For every interleaving from a state on in which no session is open, every session that is
recorded is recorded on the terms on which it was created if and only if none is completed after
those terms changed. -/
theorem recorded_as_agreed_iff (chrono : Chrono) (db : MarketDb) (hstored : PaymentsStored db)
    (events : List SaleEvent) :
    Throughout (Sales.step chrono) RecordedAsAgreed { db := db } events ↔
      Along (Sales.step chrono) TermsUnchanged { db := db } events := by
  refine throughout_iff_along (I := fun s => PaymentsStored s.db) paymentsStored_step
    recordedAsAgreed_step hstored ?_ events
  intro session hsession
  cases hsession

/-- A session completed before any edit is recorded as agreed. -/
theorem recorded_as_agreed_unedited :
    Throughout (Sales.step januaryChrono) RecordedAsAgreed { db := storageMarket }
      [startsToBuy "cs_1", completes "cs_1"] := by
  refine (recorded_as_agreed_iff januaryChrono storageMarket ?_ _).mpr ⟨?_, ?_, trivial⟩
  · simp [PaymentsStored, storageMarket]
  · decide +kernel
  · decide +kernel

/-- An admin asks for another price of the storage product. -/
def repriced : ProductRequest where
  id := some 1
  amount := 900
  currency := 840
  availableCount := 0
  details := some (.mediaStorage ⟨1073741824⟩)

/-- A session that is completed after its product was repriced is recorded at the new price. -/
theorem repriced_session_differs :
    ¬ ∀ (chrono : Chrono) (db : MarketDb), PaymentsStored db → ∀ events : List SaleEvent,
      Throughout (Sales.step chrono) RecordedAsAgreed { db := db } events := by
  intro h
  obtain ⟨_, _, _, _, hlast⟩ := h januaryChrono storageMarket
    (by simp [PaymentsStored, storageMarket])
    [startsToBuy "cs_1",
      .readProduct 0 repriced { permissions := .array [some "ADMIN"], id := 2 },
      .writeProduct 0 0, completes "cs_1"]
  rw [throughout_nil] at hlast
  exact absurd hlast (by decide +kernel)

end Rellm.Market
