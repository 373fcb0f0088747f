import Rellm.Foundation.Run
import Rellm.Market.Checkout
import Rellm.Market.Subscriptions

/-!
# Sales while products are edited

Buyers start checkouts, which Stripe completes later or never; subscriptions are
canceled; and admins edit products, where reading the row and writing it back are
two steps. The steps of all of them interleave, and no statement fails. A checkout
session is remembered with the product as it was when the session was created.
-/

namespace Rellm.Market

open Foundation Calendar

/-- A checkout session that was created. -/
structure OpenSession where
  id : String
  params : CheckoutSessionParams
  product : MarketProduct
  deriving DecidableEq, Repr

/-- The tables, the sessions that were created, and the rows to be written back. -/
structure Sales where
  db : MarketDb
  sessions : List OpenSession := []
  edits : List MarketProduct := []

/-- One step of a buyer, of Stripe or of an admin. -/
inductive SaleEvent where
  | makePurchase (now : Instant) (configuration : Option ServerConfiguration)
      (stripeConfig : Option StripeConfig) (request : MakeMarketPurchaseRequest) (caller : User)
      (sessionId : String)
  | complete (now : Instant) (stripe : String → Option PaymentIntentPaymentMethod)
      (sessionId : String) (customer paymentIntent : Option String)
  | cancel (now : Instant) (subscriptionId : Option Nat) (caller : User)
  | readProduct (now : Instant) (request : ProductRequest) (caller : User)
  | writeProduct (now : Instant) (edit : Nat)

/-- Stripe charges the buyer of the session the price of the product. -/
def OpenSession.ChargesPrice (session : OpenSession) : Prop :=
  session.params.unitAmount = session.product.amount.toUInt32 ∧
    currencyCode session.product.currency.toUInt32 = some session.params.currency

namespace Sales

/-- Stripe gives a session an id that no other session has. -/
def isFresh (s : Sales) (sessionId : String) : Bool :=
  s.sessions.all (fun session => decide (session.id ≠ sessionId)) && !s.db.hasPurchase sessionId

/-- The session that starting to buy a product leaves. -/
def opened (s : Sales) (sessionId : String) (params : CheckoutSessionParams) :
    Option OpenSession :=
  ((params.metadata.rellmMarketProductId.bind s.db.products.get).filter
    fun _ => s.isFresh sessionId).map fun product =>
      { id := sessionId, params := params, product := product }

/-- The session with an id. -/
def session (s : Sales) (sessionId : String) : Option OpenSession :=
  s.sessions.find? fun session => session.id = sessionId

end Sales

/-- The event that Stripe sends when the session is completed. -/
def OpenSession.completed (session : OpenSession) (customer paymentIntent : Option String) :
    CheckoutSession where
  id := some session.id
  metadata := session.params.metadata
  customer := customer
  paymentIntent := paymentIntent

/-- What a step makes of the state. -/
def Sales.step (chrono : Chrono) (s : Sales) : SaleEvent → Sales
  | .makePurchase now configuration stripeConfig request caller sessionId =>
    match makeMarketPurchase
        { now := now, serverConfiguration := configuration, stripeConfig := stripeConfig } request
        caller s.db with
    | .ok params db =>
      { s with db := db, sessions := s.sessions ++ (s.opened sessionId params).toList }
    | .error _ db => { s with db := db }
  | .complete now stripe sessionId customer paymentIntent =>
    match s.session sessionId with
    | some session =>
      { s with
        db := finalState (handleCheckoutSessionCompleted chrono { now := now } stripe
          (session.completed customer paymentIntent) s.db) }
    | none => s
  | .cancel now subscriptionId caller =>
    { s with db := finalState (cancelMarketSubscription { now := now } subscriptionId caller s.db) }
  | .readProduct now request caller =>
    match readProductEdit { now := now } caller request s.db with
    | .ok row db => { s with db := db, edits := s.edits ++ [row] }
    | .error _ db => { s with db := db }
  | .writeProduct now edit =>
    match s.edits[edit]? with
    | some row =>
      { s with
        db := finalState (writeProduct { now := now } row s.db)
        edits := s.edits.eraseIdx edit }
    | none => s

/-- The checkout that a step records. -/
def Sales.records (s : Sales) : SaleEvent → Option Checkout
  | .complete now stripe sessionId customer paymentIntent => (s.session sessionId).bind
      fun session => (session.completed customer paymentIntent).pending { now := now } stripe s.db
  | _ => none

/-- The row that a step writes back over a product. -/
def Sales.writes (s : Sales) : SaleEvent → Option MarketProduct
  | .writeProduct _ edit => s.edits[edit]?.filter fun row => (s.db.products.get row.id).isSome
  | _ => none

section

variable {chrono : Chrono} {s : Sales}

theorem Sales.session_eq_some {sessionId : String} {session : OpenSession}
    (h : s.session sessionId = some session) : session ∈ s.sessions ∧ session.id = sessionId :=
  ⟨List.mem_of_find?_eq_some h, by simpa using List.find?_some h⟩

/-- A session that is opened is fresh, and charges the price its product has. -/
theorem Sales.opened_eq_some {env : Env} {request : MakeMarketPurchaseRequest} {caller : User}
    {sessionId : String} {params : CheckoutSessionParams} {db : MarketDb} {session : OpenSession}
    (hmake : makeMarketPurchase env request caller s.db = .ok params db)
    (h : s.opened sessionId params = some session) :
    s.isFresh session.id = true ∧ session.ChargesPrice := by
  obtain ⟨product, hfilter, rfl⟩ := Option.map_eq_some_iff.mp h
  obtain ⟨hbind, hfresh⟩ := Option.filter_eq_some_iff.mp hfilter
  obtain ⟨charged, hget, _, hid, hamount, hcurrency⟩ := makeMarketPurchase_charges hmake
  rw [hid, Option.bind_some, hget] at hbind
  obtain rfl := Option.some.inj hbind
  exact ⟨hfresh, hamount, hcurrency⟩

/-- What a step does to the tables. -/
inductive Sales.Changes (chrono : Chrono) (s : Sales) (event : SaleEvent) : MarketDb → Prop
  | none (hrecords : s.records event = none) (hwrites : s.writes event = none) :
    Changes chrono s event s.db
  | record (session : OpenSession) (hsession : session ∈ s.sessions) (checkout : Checkout)
      (hrecords : s.records event = some checkout) (hwrites : s.writes event = none)
      (hid : checkout.sessionId = session.id)
      (hmetadata : checkout.session.metadata = session.params.metadata) (db : MarketDb)
      (h : OnlyUsers (checkout.recorded chrono s.db) db) :
    Changes chrono s event db
  | cancel (hrecords : s.records event = none) (hwrites : s.writes event = none)
      (now : Instant) (db : MarketDb) (h : Cancels { now := now } s.db db) :
    Changes chrono s event db
  | write (hrecords : s.records event = none) (row : MarketProduct)
      (hwrites : s.writes event = some row) : Changes chrono s event (s.db.writeProduct row)

/-- A step records at most a pending checkout, cancels at most one subscription, or writes back
at most one row. -/
theorem Sales.step_changes (event : SaleEvent) :
    s.Changes chrono event (s.step chrono event).db := by
  cases event with
  | makePurchase now configuration stripeConfig request caller sessionId =>
    have hsame : (s.step chrono (.makePurchase now configuration stripeConfig request caller
        sessionId)).db = finalState (makeMarketPurchase
          { now := now, serverConfiguration := configuration, stripeConfig := stripeConfig }
          request caller s.db) := by
      rw [Sales.step]
      split
      · rename_i hmake
        rw [hmake, finalState_ok]
      · rename_i hmake
        rw [hmake, finalState_error]
    rw [hsame, makeMarketPurchase_readOnly request caller s.db]
    exact .none rfl rfl
  | complete now stripe sessionId customer paymentIntent =>
    rw [Sales.step]
    cases hsession : s.session sessionId with
    | none =>
      refine .none ?_ rfl
      rw [Sales.records, hsession]
      rfl
    | some session =>
      have hrecords : s.records (.complete now stripe sessionId customer paymentIntent) =
          (session.completed customer paymentIntent).pending { now := now } stripe s.db := by
        rw [Sales.records, hsession]
        rfl
      rcases @handle_undisturbed chrono s.db { now := now }
        (session.completed customer paymentIntent) stripe fun _ => rfl with
        ⟨hnone, hsame⟩ | ⟨checkout, hpending, hfulfilled⟩
      · dsimp only
        rw [hsame]
        exact .none (hrecords.trans hnone) rfl
      · obtain ⟨hcheckout, _⟩ := Option.filter_eq_some_iff.mp hpending
        have hof := Checkout.of_eq_some hcheckout
        dsimp only
        rw [hfulfilled]
        refine .record session (Sales.session_eq_some hsession).1 checkout
          (hrecords.trans hpending) rfl ?_ ?_ _ checkout.fulfilled_onlyUsers
        · exact (Option.some.inj hof.sessionId).symm
        · rw [hof.session]
          rfl
  | cancel now subscriptionId caller =>
    rw [Sales.step]
    rcases @cancelMarketSubscription_cases { now := now } s.db subscriptionId caller with
      hsame | hcancels
    · dsimp only
      rw [hsame]
      exact .none rfl rfl
    · exact .cancel rfl rfl now _ hcancels
  | readProduct now request caller =>
    have hsame : (s.step chrono (.readProduct now request caller)).db =
        finalState (readProductEdit { now := now } caller request s.db) := by
      rw [Sales.step]
      split
      · rename_i hread
        rw [hread, finalState_ok]
      · rename_i hread
        rw [hread, finalState_error]
    rw [hsame, readProductEdit_readOnly caller request s.db]
    exact .none rfl rfl
  | writeProduct now edit =>
    rw [Sales.step]
    cases hedit : s.edits[edit]? with
    | none =>
      refine .none rfl ?_
      rw [Sales.writes, hedit]
      rfl
    | some row =>
      dsimp only
      cases hproduct : (s.db.products.get row.id).isSome with
      | true =>
        have hwrite : writeProduct { now := now } row s.db = .ok () (s.db.writeProduct row) :=
          execute_ok rfl (if_pos hproduct)
        rw [hwrite]
        exact .write rfl row (by simp [Sales.writes, hedit, hproduct])
      | false =>
        have hwrite : writeProduct { now := now } row s.db =
            .error ⟨.internal, "failed_to_update_product"⟩ s.db :=
          execute_error (.inr (if_neg (by simp [hproduct])))
        rw [hwrite]
        exact .none rfl (by simpa [Sales.writes, hedit] using hproduct)

/-- A step adds at most one session, with an id of its own, that charges the price of its
product. -/
theorem Sales.step_sessions (event : SaleEvent) :
    (s.step chrono event).sessions = s.sessions ∨
      ∃ session, (s.step chrono event).sessions = s.sessions ++ [session] ∧
        s.isFresh session.id = true ∧ session.ChargesPrice ∧
        (s.step chrono event).db = s.db ∧ s.records event = none := by
  cases event with
  | makePurchase now configuration stripeConfig request caller sessionId =>
    rw [Sales.step]
    split
    · rename_i params db hmake
      cases hopened : s.opened sessionId params with
      | none => exact .inl (List.append_nil _)
      | some session =>
        obtain ⟨hfresh, hcharges⟩ := Sales.opened_eq_some hmake hopened
        refine .inr ⟨session, rfl, hfresh, hcharges, ?_, rfl⟩
        have hreadOnly : ReadOnly (makeMarketPurchase
            { now := now, serverConfiguration := configuration, stripeConfig := stripeConfig }
            request caller) := makeMarketPurchase_readOnly request caller
        have hsame := hreadOnly s.db
        rwa [hmake] at hsame
    · exact .inl rfl
  | complete now stripe sessionId customer paymentIntent =>
    rw [Sales.step]
    split <;> exact .inl rfl
  | cancel now subscriptionId caller => exact .inl rfl
  | readProduct now request caller =>
    rw [Sales.step]
    split <;> exact .inl rfl
  | writeProduct now edit =>
    rw [Sales.step]
    split <;> exact .inl rfl

/-- Every open session charges the price its product had when the session was created. -/
theorem sessions_charge_price (db : MarketDb) (events : List SaleEvent) :
    ∀ session ∈ (run (Sales.step chrono) { db := db } events).sessions, session.ChargesPrice := by
  refine run_invariant_of_all (I := fun s : Sales => ∀ session ∈ s.sessions, session.ChargesPrice) ?_
    ?_ events
  · intro s event h session hmem
    rcases @Sales.step_sessions chrono s event with
      hsame | ⟨new, hsessions, _, hcharges, _⟩
    · exact h session (hsame ▸ hmem)
    · rw [hsessions, List.mem_append, List.mem_singleton] at hmem
      rcases hmem with hold | rfl
      · exact h session hold
      · exact hcharges
  · intro session hmem
    cases hmem

end

/-- Settings with which products are sold. -/
def openMarket : ServerConfiguration where
  marketSettings := some { enabled := true }
  externalCdnConfig := some { frontendHost := "market.example" }

/-- A buyer starts to buy the storage product. -/
def startsToBuy (sessionId : String) : SaleEvent :=
  .makePurchase 0 (some openMarket) (some { stripeEnabled := true, stripeSecretKey := "sk" })
    { marketProductId := some 1 } { permissions := .array [], id := 1 } sessionId

/-- Stripe completes a session. -/
def completes (sessionId : String) : SaleEvent := .complete 0 (fun _ => none) sessionId none none

end Rellm.Market
