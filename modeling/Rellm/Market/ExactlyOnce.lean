import Rellm.Foundation.Run
import Rellm.Market.Checkout

/-!
# Redelivered checkouts

Stripe delivers the completion of a checkout session until a delivery answers
success. The webhook recognizes a redelivery by the stored purchase alone, and its
statements are not a transaction: what a delivery leaves behind when a statement
fails is repeated, or taken for complete, by the next one.
-/

namespace Rellm.Market

open Foundation

/-- One delivery of a completed session. -/
structure Delivery where
  env : Env
  stripe : String → Option PaymentIntentPaymentMethod := fun _ => none

/-- The tables, whether a delivery has answered success, and whether the entitlement has been
applied. -/
structure Delivered where
  db : MarketDb
  answered : Bool := false
  fulfilled : Bool := false

/-- What a delivery makes of the state. -/
def Delivered.step (chrono : Chrono) (session : CheckoutSession) (s : Delivered)
    (delivery : Delivery) : Delivered :=
  match handleCheckoutSessionCompleted chrono delivery.env delivery.stripe session s.db with
  | .ok .alreadyProcessed db => { s with db := db, answered := true }
  | .ok .fulfilled db => { db := db, answered := true, fulfilled := true }
  | .error _ db => { s with db := db }

/-- The sold slots of the session's product. -/
def soldSlots (session : CheckoutSession) (db : MarketDb) : Nat :=
  ((session.metadata.rellmMarketProductId.bind db.products.get).map (·.soldCount)).getD 0

/-- The session is recorded once, counted once, and its entitlement applied. -/
structure Completed (session : CheckoutSession) (db₀ : MarketDb) (s : Delivered) : Prop where
  subscriptions : s.db.subscriptions.rows.length = db₀.subscriptions.rows.length + 1
  purchases : s.db.purchases.rows.length = db₀.purchases.rows.length + 1
  payments : s.db.payments.rows.length = db₀.payments.rows.length + 1
  linked : ∃ subscription ∈ s.db.subscriptions.rows, ∃ purchase ∈ s.db.purchases.rows,
    ∃ payment ∈ s.db.payments.rows, purchase.stripeCheckoutSessionId = session.id ∧
      purchase.subscriptionId = some subscription.id ∧ payment.purchaseId = purchase.id
  soldSlots : soldSlots session s.db = soldSlots session db₀ + 1
  fulfilled : s.fulfilled = true

/-- Nothing is recorded or counted twice, and success is answered only for a session that is
recorded, counted and fulfilled. -/
structure ExactlyOnce (session : CheckoutSession) (db₀ : MarketDb) (s : Delivered) : Prop where
  subscriptions : s.db.subscriptions.rows.length ≤ db₀.subscriptions.rows.length + 1
  purchases : s.db.purchases.rows.length ≤ db₀.purchases.rows.length + 1
  payments : s.db.payments.rows.length ≤ db₀.payments.rows.length + 1
  soldSlots : soldSlots session s.db ≤ soldSlots session db₀ + 1
  answered : s.answered = true → Completed session db₀ s

/-- The delivery fails before it knows whether the session is recorded. -/
def Delivery.Blind (delivery : Delivery) (session : CheckoutSession) : Prop :=
  session.id = none ∨ delivery.env.faults .selectPurchase = true

instance (delivery : Delivery) (session : CheckoutSession) :
    Decidable (delivery.Blind session) :=
  inferInstanceAs (Decidable (_ ∨ _))

/-- How far a delivery gets that finds no purchase of the session. -/
def Delivery.reach (delivery : Delivery) (session : CheckoutSession) (db : MarketDb) :
    Checkout.Reach :=
  match session.checkout delivery.env delivery.stripe db with
  | none => .nothing
  | some checkout => checkout.reach db

/-- The first delivery that stores anything is complete. Or else, unless it lost just the
count, no later one gets as far as repeating what it did or finding the purchase it left. -/
def NeverExposed (session : CheckoutSession) (db : MarketDb) : List Delivery → Prop
  | [] => True
  | delivery :: rest => delivery.Blind session ∧ NeverExposed session db rest ∨
    ¬ delivery.Blind session ∧ match delivery.reach session db with
      | .nothing => NeverExposed session db rest
      | .subscribed => ∀ later ∈ rest,
          later.Blind session ∨ later.reach session db = .nothing
      | .purchased | .unfulfilled => ∀ later ∈ rest, later.Blind session
      | .uncounted => False
      | .complete => True

/-- No purchase is stored for the session. -/
def NotRecorded (session : CheckoutSession) (db : MarketDb) : Prop :=
  ∀ sessionId, session.id = some sessionId → db.hasPurchase sessionId = false

section

variable {chrono : Chrono} {session : CheckoutSession} {db db' : MarketDb}
variable {delivery : Delivery} {checkout : Checkout}

/-- A blind delivery changes nothing and does not succeed. -/
theorem step_of_blind (s : Delivered) (h : delivery.Blind session) :
    s.step chrono session delivery = s := by
  obtain ⟨e, he⟩ := @handle_blind chrono s.db _ _ delivery.stripe h
  rw [Delivered.step, he]

/-- Once a purchase is stored, any other delivery just answers success. -/
theorem step_of_hasPurchase (s : Delivered) {sessionId : String}
    (hid : session.id = some sessionId) (hsees : ¬ delivery.Blind session)
    (h : s.db.hasPurchase sessionId = true) :
    s.step chrono session delivery = { s with answered := true } := by
  have hfault : delivery.env.faults .selectPurchase = false := by
    simpa [Delivery.Blind, hid] using hsees
  rw [Delivered.step, handle_alreadyProcessed hid hfault h]

/-- A delivery that sees no purchase records the session as far as it gets. -/
theorem handle_records (hsees : ¬ delivery.Blind session) (h : NotRecorded session db) :
    (delivery.reach session db = .nothing ∧ ∃ e,
      handleCheckoutSessionCompleted chrono delivery.env delivery.stripe session db =
        .error e db) ∨
    ∃ checkout : Checkout, checkout.Of delivery.env session db ∧
      checkout.Records chrono db (delivery.reach session db)
        (handleCheckoutSessionCompleted chrono delivery.env delivery.stripe session db) := by
  rw [Delivery.Blind, not_or] at hsees
  obtain ⟨sessionId, hid⟩ := Option.ne_none_iff_exists'.mp hsees.1
  have hfault := Bool.not_eq_true _ ▸ hsees.2
  rw [Delivery.reach]
  rcases @handle_new chrono _ _ _ delivery.stripe _ hid hfault (h sessionId hid)
    with ⟨hnone, e, he⟩ | ⟨checkout, hsome, hhandle⟩
  · rw [hnone]
    exact .inl ⟨rfl, e, he⟩
  · rw [hsome, hhandle]
    exact .inr ⟨checkout, Checkout.of_eq_some hsome, recordCheckout_records⟩

/-- Without another product row the sold slots are the same. -/
theorem soldSlots_congr (h : db'.products = db.products) :
    soldSlots session db' = soldSlots session db := by
  rw [soldSlots, h, soldSlots]

/-- All rows of the session are stored. -/
structure Stored (chrono : Chrono) (checkout : Checkout) (db db' : MarketDb) : Prop where
  subscriptions : db'.subscriptions = (checkout.paid chrono db).subscriptions
  purchases : db'.purchases = (checkout.paid chrono db).purchases
  payments : db'.payments = (checkout.paid chrono db).payments

theorem OnlyUsers.stored (h : OnlyUsers (checkout.paid chrono db) db') :
    Stored chrono checkout db db' := ⟨h.subscriptions, h.purchases, h.payments⟩

theorem OnlyUsers.stored_updateSoldCount {productId : Nat} {f : Nat → Nat}
    (h : OnlyUsers ((checkout.paid chrono db).updateSoldCount productId f) db') :
    Stored chrono checkout db db' := ⟨h.subscriptions, h.purchases, h.payments⟩

theorem OnlyUsers.stored_counted (h : OnlyUsers (checkout.counted chrono db) db') :
    Stored chrono checkout db db' := by
  rw [Checkout.counted] at h
  split at h
  · exact h.stored
  · exact h.stored_updateSoldCount

/-- A stored purchase is found. -/
theorem hasPurchase_of_purchases {sessionId : String} (hof : checkout.Of delivery.env session db)
    (hid : session.id = some sessionId)
    (h : db'.purchases = (checkout.purchased chrono db).purchases) :
    db'.hasPurchase sessionId = true := by
  obtain rfl : sessionId = checkout.sessionId := Option.some.inj (hid.symm.trans hof.sessionId)
  rw [MarketDb.hasPurchase, h, List.any_eq_true]
  exact ⟨_, List.mem_append_right _ (List.mem_singleton.mpr rfl), decide_eq_true rfl⟩

/-- Counting a slot of the session's product. -/
theorem soldSlots_updateSoldCount (hof : checkout.Of delivery.env session db) :
    soldSlots session ((checkout.paid chrono db).updateSoldCount checkout.product.id (· + 1)) =
      soldSlots session db + 1 := by
  have hproduct : (checkout.paid chrono db).products = db.products := rfl
  rw [soldSlots, soldSlots, hof.productId, Option.bind_some, Option.bind_some,
    MarketDb.updateSoldCount, Serial.get_modify, if_pos rfl, hproduct, hof.product]
  rfl

/-- A delivery that sees no purchase stores nothing, or a subscription. -/
theorem step_of_notRecorded (s : Delivered) (hsees : ¬ delivery.Blind session)
    (h : NotRecorded session s.db) :
    delivery.reach session s.db = .nothing ∧ s.step chrono session delivery = s ∨
    delivery.reach session s.db ≠ .nothing ∧
      (s.step chrono session delivery).db.subscriptions.rows.length =
        s.db.subscriptions.rows.length + 1 := by
  rw [Delivered.step]
  rcases @handle_records chrono _ _ _ hsees h with ⟨hreach, e, he⟩ | ⟨checkout, hof, hrecords⟩
  · rw [he]
    exact .inl ⟨hreach, rfl⟩
  · have hlength : ∀ db', Stored chrono checkout s.db db' →
        db'.subscriptions.rows.length = s.db.subscriptions.rows.length + 1 := by
      intro db' hstored
      rw [hstored.subscriptions]
      exact List.length_append
    generalize delivery.reach session s.db = reach at hrecords ⊢
    generalize handleCheckoutSessionCompleted chrono delivery.env delivery.stripe session s.db =
      result at hrecords ⊢
    cases hrecords with
    | nothing e => exact .inl ⟨rfl, rfl⟩
    | subscribed e => exact .inr ⟨by decide, List.length_append⟩
    | purchased e => exact .inr ⟨by decide, List.length_append⟩
    | unfulfilled e db' hdb' => exact .inr ⟨by decide, hlength db' hdb'.stored_counted⟩
    | uncounted db' hdb' => exact .inr ⟨by decide, hlength db' hdb'.stored⟩
    | complete db' hdb' => exact .inr ⟨by decide, hlength db' hdb'.stored_updateSoldCount⟩

/-- A session recorded and fulfilled stays so. -/
theorem throughout_answered {s : Delivered} {sessionId : String}
    (hid : session.id = some sessionId) (hpurchase : s.db.hasPurchase sessionId = true)
    (hs : ExactlyOnce session db s) (hanswered : s.answered = true) (rest : List Delivery) :
    Throughout (Delivered.step chrono session) (ExactlyOnce session db) s rest := by
  induction rest with
  | nil => exact hs
  | cons later rest ih =>
    have hstep : s.step chrono session later = s := by
      by_cases hblind : later.Blind session
      · exact step_of_blind s hblind
      · rw [step_of_hasPurchase s hid hblind hpurchase, ← hanswered]
    rw [throughout_cons, hstep]
    exact ⟨hs, ih⟩

/-- A purchase that is left without its payment or entitlement is taken for complete by the
first delivery that sees it. -/
theorem throughout_unfulfilled {s : Delivered} {sessionId : String}
    (hid : session.id = some sessionId) (hpurchase : s.db.hasPurchase sessionId = true)
    (hs : ExactlyOnce session db s) (hfulfilled : s.fulfilled = false) (rest : List Delivery) :
    Throughout (Delivered.step chrono session) (ExactlyOnce session db) s rest ↔
      ∀ later ∈ rest, later.Blind session := by
  induction rest with
  | nil => simp [hs]
  | cons later rest ih =>
    rw [throughout_cons, List.forall_mem_cons]
    by_cases hblind : later.Blind session
    · rw [step_of_blind s hblind, ih]
      simp [hs, hblind]
    · rw [step_of_hasPurchase s hid hblind hpurchase]
      constructor
      · rintro ⟨_, hrest⟩
        have hcompleted := (hrest.head.answered rfl).fulfilled
        rw [hfulfilled] at hcompleted
        cases hcompleted
      · rintro ⟨h, _⟩
        exact absurd h hblind

/-- A subscription that is left without its purchase is stored again by the first delivery
that gets to it. -/
theorem throughout_subscribed {s : Delivered} (hnew : NotRecorded session s.db)
    (hs : ExactlyOnce session db s)
    (hlength : s.db.subscriptions.rows.length = db.subscriptions.rows.length + 1)
    (rest : List Delivery) :
    Throughout (Delivered.step chrono session) (ExactlyOnce session db) s rest ↔
      ∀ later ∈ rest, later.Blind session ∨ later.reach session s.db = .nothing := by
  induction rest with
  | nil => simp [hs]
  | cons later rest ih =>
    rw [throughout_cons, List.forall_mem_cons]
    by_cases hblind : later.Blind session
    · rw [step_of_blind s hblind, ih]
      simp [hs, hblind]
    · rcases @step_of_notRecorded chrono _ _ s hblind hnew with
        ⟨hreach, hstep⟩ | ⟨hreach, hstored⟩
      · rw [hstep, ih]
        simp [hs, hreach]
      · constructor
        · rintro ⟨_, hrest⟩
          have htwice := hrest.head.subscriptions
          omega
        · rintro ⟨h, _⟩
          exact absurd h (not_or.mpr ⟨hblind, hreach⟩)

/-- Nothing happened yet. -/
theorem exactlyOnce_start (session : CheckoutSession) (db : MarketDb) :
    ExactlyOnce session db { db := db } := by
  constructor <;> simp

/-- Rows stored once, with the slot not counted twice and no success answered. -/
theorem exactlyOnce_of_unanswered {s : Delivered}
    (hsubscriptions : s.db.subscriptions.rows.length ≤ db.subscriptions.rows.length + 1)
    (hpurchases : s.db.purchases.rows.length ≤ db.purchases.rows.length + 1)
    (hpayments : s.db.payments.rows.length ≤ db.payments.rows.length + 1)
    (hsold : soldSlots session s.db ≤ soldSlots session db + 1) (hanswered : s.answered = false) :
    ExactlyOnce session db s :=
  ⟨hsubscriptions, hpurchases, hpayments, hsold, fun h => by simp [hanswered] at h⟩

theorem Completed.exactlyOnce {s : Delivered} (h : Completed session db s) :
    ExactlyOnce session db s :=
  ⟨Nat.le_of_eq h.subscriptions, Nat.le_of_eq h.purchases, Nat.le_of_eq h.payments,
    Nat.le_of_eq h.soldSlots, fun _ => h⟩

/-- A complete delivery completes the session. -/
theorem completed_of_stored (hof : checkout.Of delivery.env session db)
    (h : OnlyUsers ((checkout.paid chrono db).updateSoldCount checkout.product.id (· + 1)) db') :
    Completed session db { db := db', answered := true, fulfilled := true } where
  subscriptions := by
    rw [h.stored_updateSoldCount.subscriptions]
    exact List.length_append
  purchases := by
    rw [h.stored_updateSoldCount.purchases]
    exact List.length_append
  payments := by
    rw [h.stored_updateSoldCount.payments]
    exact List.length_append
  linked := by
    rw [h.stored_updateSoldCount.subscriptions, h.stored_updateSoldCount.purchases,
      h.stored_updateSoldCount.payments]
    refine ⟨_, List.mem_append_right _ (List.mem_singleton.mpr rfl), _,
      List.mem_append_right _ (List.mem_singleton.mpr rfl), _,
      List.mem_append_right _ (List.mem_singleton.mpr rfl), ?_, rfl, rfl⟩
    exact hof.sessionId.symm
  soldSlots := by
    rw [soldSlots_congr h.products, soldSlots_updateSoldCount hof]
  fulfilled := rfl

end

/-- For every sequence of deliveries of a session that is not recorded yet, it is recorded,
counted and fulfilled exactly once if and only if no delivery exposes what an earlier one left
incomplete. -/
theorem delivered_exactly_once_iff (chrono : Chrono) (session : CheckoutSession) (db : MarketDb)
    (hnew : NotRecorded session db) (deliveries : List Delivery) :
    Throughout (Delivered.step chrono session) (ExactlyOnce session db) { db := db } deliveries ↔
      NeverExposed session db deliveries := by
  induction deliveries with
  | nil => exact iff_of_true (exactlyOnce_start session db) trivial
  | cons delivery rest ih =>
    rw [throughout_cons, and_iff_right (exactlyOnce_start session db), NeverExposed]
    by_cases hblind : delivery.Blind session
    · rw [step_of_blind _ hblind, ih]
      simp [hblind]
    · rw [and_iff_right hblind, or_iff_right fun h => hblind h.1, Delivered.step]
      obtain ⟨sessionId, hid⟩ := Option.ne_none_iff_exists'.mp (not_or.mp hblind).1
      rcases @handle_records chrono _ _ _ hblind hnew with
        ⟨hreach, e, he⟩ | ⟨checkout, hof, hrecords⟩
      · rw [hreach, he]
        exact ih
      · generalize delivery.reach session db = reach at hrecords ⊢
        generalize handleCheckoutSessionCompleted chrono delivery.env delivery.stripe session db =
          result at hrecords ⊢
        cases hrecords with
        | nothing e => exact ih
        | subscribed e =>
          refine throughout_subscribed hnew ?_ List.length_append rest
          exact exactlyOnce_of_unanswered (Nat.le_of_eq List.length_append) (Nat.le_succ _)
            (Nat.le_succ _) (Nat.le_succ _) rfl
        | purchased e =>
          refine throughout_unfulfilled hid (hasPurchase_of_purchases hof hid rfl) ?_ rfl rest
          exact exactlyOnce_of_unanswered (Nat.le_of_eq List.length_append)
            (Nat.le_of_eq List.length_append) (Nat.le_succ _) (Nat.le_succ _) rfl
        | unfulfilled e db' h =>
          have hstored := h.stored_counted
          refine throughout_unfulfilled hid (hasPurchase_of_purchases hof hid hstored.purchases)
            ?_ rfl rest
          refine exactlyOnce_of_unanswered ?_ ?_ ?_ ?_ rfl
          · rw [hstored.subscriptions]
            exact Nat.le_of_eq List.length_append
          · rw [hstored.purchases]
            exact Nat.le_of_eq List.length_append
          · rw [hstored.payments]
            exact Nat.le_of_eq List.length_append
          · rw [soldSlots_congr h.products, Checkout.counted]
            split
            · exact Nat.le_succ _
            · exact Nat.le_of_eq (soldSlots_updateSoldCount hof)
        | uncounted db' h =>
          refine iff_of_false (fun hall => ?_) not_false
          have hsold := (hall.head.answered rfl).soldSlots
          rw [soldSlots_congr h.products] at hsold
          exact Nat.succ_ne_self _ hsold.symm
        | complete db' h =>
          have hcompleted := completed_of_stored hof h
          refine iff_of_true ?_ trivial
          refine throughout_answered hid
            (hasPurchase_of_purchases hof hid h.stored_updateSoldCount.purchases) ?_ rfl rest
          exact hcompleted.exactlyOnce

/-- A delivery in which one statement fails. -/
def failingAt (statement : Statement) : Delivery where
  env := { now := 0, faults := fun s => decide (s = statement) }

/-- A delivery in which no statement fails. -/
def undisturbed : Delivery where
  env := { now := 0 }

/-- A delivery that fails at the lookup is made up for by the next one. -/
theorem delivered_exactly_once_lookup_fails :
    Throughout (Delivered.step januaryChrono storageSession)
      (ExactlyOnce storageSession storageMarket) { db := storageMarket }
      [failingAt .selectPurchase, undisturbed, undisturbed] := by
  refine (delivered_exactly_once_iff januaryChrono storageSession storageMarket ?_ _).mpr ?_
  · intro sessionId _
    rfl
  · exact .inl ⟨by decide, .inr ⟨by decide, trivial⟩⟩

/-- When storing the purchase fails, the next delivery stores a second subscription. -/
theorem failed_purchase_subscribes_twice :
    ¬ ∀ (chrono : Chrono) (session : CheckoutSession) (db : MarketDb),
      NotRecorded session db → ∀ deliveries : List Delivery,
        Throughout (Delivered.step chrono session) (ExactlyOnce session db) { db := db }
          deliveries := by
  intro h
  obtain ⟨_, _, hlast⟩ := h januaryChrono storageSession storageMarket (fun _ _ => rfl)
    [failingAt .insertPurchase, undisturbed]
  have hsubscriptions := hlast.subscriptions
  exact absurd hsubscriptions (by decide)

end Rellm.Market
