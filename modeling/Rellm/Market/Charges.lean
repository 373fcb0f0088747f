import Rellm.Market.Operations

/-!
# Renewal runs, statement by statement

A renewal run loads the due subscriptions and renews them one after the other. It
proceeds by one call of Stripe or one statement at a time, and buyers cancel their
subscriptions in between. Without anything in between, the stages of a subscription
are its renewal.
-/

namespace Rellm.Market

open Foundation Calendar

/-- What comes next in the renewal of a subscription. -/
inductive Stage where
  | charge
  | recordPurchase (intentId : String) (card : Option CardDetails)
  | recordPayment (intentId : String) (card : Option CardDetails) (purchase : MarketPurchase)
  | advance (purchase : MarketPurchase)
  | fulfill (purchase : MarketPurchase)
  | finish
  deriving DecidableEq, Repr

namespace Stage

variable (chrono : Chrono) (env : Env) (stripe : StripeApi) (purchaseType : PurchaseType)
variable (subscription : MarketSubscription)

/-- One stage, and what comes after it. -/
def perform : Stage → MarketM (Option Stage)
  | charge => do
    checkChargeable subscription
    let intentId ← createOffSessionPaymentIntent (stripe.charge subscription)
    return some (.recordPurchase intentId (stripe.card subscription))
  | recordPurchase intentId card => do
    let purchase ← insertMarketPurchase env (renewalPurchase subscription intentId)
    return some (.recordPayment intentId card purchase)
  | recordPayment intentId card purchase => do
    let _ ← insertMarketPayment env (renewalPayment subscription intentId card purchase.id)
    return some (.advance purchase)
  | advance purchase => do
    advanceRenewal env subscription.id (nextRenewal chrono env.now subscription)
    return some (.fulfill purchase)
  | fulfill purchase => do
    fulfillPurchase env purchaseType subscription.buyerId purchase.details
    return none
  | finish => do
    endSubscription env subscription.id
    return none

/-- What is left of the renewal of a subscription, with nothing in between. -/
def remaining : Stage → MarketM Unit
  | charge => renewOrEnd chrono env stripe purchaseType subscription
  | recordPurchase intentId card =>
    recover (recordRenewal chrono env card purchaseType subscription intentId) fun _ =>
      endSubscription env subscription.id
  | recordPayment intentId card purchase =>
    recover (do
      let _ ← insertMarketPayment env (renewalPayment subscription intentId card purchase.id)
      advanceRenewal env subscription.id (nextRenewal chrono env.now subscription)
      fulfillPurchase env purchaseType subscription.buyerId purchase.details) fun _ =>
      endSubscription env subscription.id
  | advance purchase =>
    recover (do
      advanceRenewal env subscription.id (nextRenewal chrono env.now subscription)
      fulfillPurchase env purchaseType subscription.buyerId purchase.details) fun _ =>
      endSubscription env subscription.id
  | fulfill purchase =>
    recover (fulfillPurchase env purchaseType subscription.buyerId purchase.details) fun _ =>
      endSubscription env subscription.id
  | finish => endSubscription env subscription.id

/-- An upper bound of the stages left, this one included. -/
def left : Stage → Nat
  | charge => 6
  | recordPurchase _ _ => 5
  | recordPayment _ _ _ => 4
  | advance _ => 3
  | fulfill _ => 2
  | finish => 1

end Stage

/-- What comes after a stage with a given result; a subscription that fails to be renewed ends. -/
def nextStage : EStateM.Result Status MarketDb (Option Stage) → Option Stage
  | .ok next _ => next
  | .error _ _ => some .finish

section

variable {chrono : Chrono} {env : Env} {stripe : StripeApi} {purchaseType : PurchaseType}
variable {subscription : MarketSubscription}

/-- What is left is the stage that comes next, and what is left after it. -/
theorem Stage.remaining_eq (stage : Stage) (db : MarketDb) :
    stage.remaining chrono env stripe purchaseType subscription db =
      match nextStage (stage.perform chrono env stripe purchaseType subscription db) with
      | some next => next.remaining chrono env stripe purchaseType subscription
          (finalState (stage.perform chrono env stripe purchaseType subscription db))
      | none => .ok ()
          (finalState (stage.perform chrono env stripe purchaseType subscription db)) := by
  cases stage with
  | charge =>
    rw [Stage.remaining, Stage.perform, renewOrEnd, renewOne]
    cases hcheck : checkChargeable subscription db with
    | error e db' =>
      rw [recover_bind_of_error hcheck, bind_of_error hcheck]
      rfl
    | ok _ db' =>
      rw [recover_bind_of_ok hcheck, bind_of_ok hcheck]
      cases hcharge : createOffSessionPaymentIntent (stripe.charge subscription) db' with
      | error e db'' =>
        rw [recover_bind_of_error hcharge, bind_of_error hcharge]
        rfl
      | ok intentId db'' =>
        rw [recover_bind_of_ok hcharge, bind_of_ok hcharge]
        rfl
  | recordPurchase intentId card =>
    rw [Stage.remaining, Stage.perform, recordRenewal]
    cases hinsert : insertMarketPurchase env (renewalPurchase subscription intentId) db with
    | error e db' =>
      rw [recover_bind_of_error hinsert, bind_of_error hinsert]
      rfl
    | ok purchase db' =>
      rw [recover_bind_of_ok hinsert, bind_of_ok hinsert]
      rfl
  | recordPayment intentId card purchase =>
    rw [Stage.remaining, Stage.perform]
    cases hinsert : insertMarketPayment env
        (renewalPayment subscription intentId card purchase.id) db with
    | error e db' =>
      rw [recover_bind_of_error hinsert, bind_of_error hinsert]
      rfl
    | ok payment db' =>
      rw [recover_bind_of_ok hinsert, bind_of_ok hinsert]
      rfl
  | advance purchase =>
    rw [Stage.remaining, Stage.perform]
    cases hadvance : advanceRenewal env subscription.id (nextRenewal chrono env.now subscription)
        db with
    | error e db' =>
      rw [recover_bind_of_error hadvance, bind_of_error hadvance]
      rfl
    | ok _ db' =>
      rw [recover_bind_of_ok hadvance, bind_of_ok hadvance]
      rfl
  | fulfill purchase =>
    rw [Stage.remaining, Stage.perform]
    cases hfulfill : fulfillPurchase env purchaseType subscription.buyerId purchase.details db with
    | error e db' =>
      rw [recover_of_error hfulfill, bind_of_error hfulfill]
      rfl
    | ok _ db' =>
      rw [recover_of_ok hfulfill, bind_of_ok hfulfill]
      rfl
  | finish => rfl

theorem Stage.left_le (stage : Stage) : stage.left ≤ 6 := by
  cases stage <;> simp [Stage.left]

/-- After a statement comes what its result leads to, or the end of the subscription. -/
theorem nextStage_bind {α : Type} (x : MarketM α) (f : α → Option Stage) (db : MarketDb) :
    nextStage ((do return f (← x) : MarketM (Option Stage)) db) = some .finish ∨
      ∃ a, nextStage ((do return f (← x) : MarketM (Option Stage)) db) = f a := by
  cases hx : x db with
  | error e db' =>
    rw [bind_of_error hx]
    exact .inl rfl
  | ok a db' =>
    rw [bind_of_ok hx]
    exact .inr ⟨a, rfl⟩

/-- The next stage is a later one. -/
theorem Stage.left_lt {stage next : Stage} {db : MarketDb}
    (h : nextStage (stage.perform chrono env stripe purchaseType subscription db) = some next) :
    next.left < stage.left := by
  have hlater : ∀ {α : Type} (x : MarketM α) (f : α → Option Stage) (db : MarketDb),
      nextStage ((do return f (← x) : MarketM (Option Stage)) db) = some next →
      1 < stage.left → (∀ a stage', f a = some stage' → stage'.left < stage.left) →
      next.left < stage.left := by
    intro α x f db h hleft hf
    rcases nextStage_bind x f db with hfinish | ⟨a, ha⟩
    · obtain rfl := Option.some.inj (h.symm.trans hfinish)
      exact hleft
    · exact hf a next (ha.symm.trans h)
  cases stage with
  | charge =>
    cases hcheck : checkChargeable subscription db with
    | error e db' =>
      rw [Stage.perform, bind_of_error hcheck] at h
      obtain rfl := Option.some.inj h
      simp [Stage.left]
    | ok _ db' =>
      rw [Stage.perform, bind_of_ok hcheck] at h
      exact hlater _ _ _ h (by simp [Stage.left]) (by simp [Stage.left])
  | recordPurchase intentId card =>
    exact hlater _ _ _ h (by simp [Stage.left]) (by simp [Stage.left])
  | recordPayment intentId card purchase =>
    exact hlater _ _ _ h (by simp [Stage.left]) (by simp [Stage.left])
  | advance purchase =>
    exact hlater _ (fun _ => some (.fulfill purchase)) _ h (by simp [Stage.left])
      (by simp [Stage.left])
  | fulfill purchase =>
    exact hlater _ (fun _ => none) _ h (by simp [Stage.left]) (by simp)
  | finish => cases h

end

/-- A charge that Stripe made: the subscription as it was loaded, its row when the charge was
made, and the id of the charge, unless the reply was lost. -/
structure Charge where
  subscription : MarketSubscription
  row : Option MarketSubscription
  intentId : Option String
  deriving DecidableEq, Repr

/-- A subscription that was charged and that the run is done with: when it renews by now, and
whether the run ended it. -/
structure Renewed where
  charge : Charge
  renewsAt : Option Instant
  ended : Bool
  deriving DecidableEq, Repr

/-- A renewal run: the subscription it is at, what comes next for it and whether it was charged,
and the due subscriptions that come after it. -/
structure RenewalRun where
  purchaseType : PurchaseType
  usable : Bool
  subscription : MarketSubscription
  stage : Stage
  charge : Option Charge := none
  rest : List MarketSubscription
  deriving DecidableEq, Repr

/-- A run begins the next subscription; without usable Stripe settings it ends it. -/
def RenewalRun.begin (purchaseType : PurchaseType) (usable : Bool) :
    List MarketSubscription → Option RenewalRun
  | [] => none
  | subscription :: rest => some {
      purchaseType := purchaseType
      usable := usable
      subscription := subscription
      stage := if usable then .charge else .finish
      rest := rest }

/-- The tables, the run that is in progress, the charges made so far, and the charged
subscriptions that runs are done with. -/
structure Renewals where
  db : MarketDb
  run : Option RenewalRun := none
  charges : List Charge := []
  renewed : List Renewed := []

/-- What happens next: a run starts, the run in progress performs one stage, or a subscription is
canceled. -/
inductive RenewalEvent where
  | start (env : Env) (purchaseType : PurchaseType)
  | proceed (env : Env) (stripe : StripeApi)
  | cancel (env : Env) (subscriptionId : Option Nat) (caller : User)

/-- When a subscription renews. -/
def MarketDb.dueAt (db : MarketDb) (id : Nat) : Option Instant :=
  (db.subscriptions.get id).bind (·.renewsAt)

/-- The purchases recorded for a charge. -/
def MarketDb.purchasesOf (db : MarketDb) (intentId : String) : List MarketPurchase :=
  db.purchases.rows.filter fun purchase => purchase.stripePaymentIntentId = some intentId

namespace Renewals

variable (s : Renewals)

/-- Stripe gives a charge an id that is not taken. -/
def accepts : ChargeOutcome → Bool
  | .succeeded intentId =>
    (s.db.purchasesOf intentId).isEmpty &&
      s.charges.all fun charge => decide (charge.intentId ≠ some intentId)
  | .failed | .lost => true

/-- The charge that Stripe makes for a subscription. -/
def chargeFor (stripe : StripeApi) (subscription : MarketSubscription) : Option Charge :=
  if subscription.chargeable then
    match stripe.charge subscription with
    | .failed => none
    | .lost => some ⟨subscription, s.db.subscriptions.get subscription.id, none⟩
    | .succeeded intentId =>
      some ⟨subscription, s.db.subscriptions.get subscription.id, some intentId⟩
  else none

/-- The charge that is made in a stage of a run. -/
def newCharge (stripe : StripeApi) (run : RenewalRun) : Option Charge :=
  if run.stage = .charge then s.chargeFor stripe run.subscription else none

/-- The run goes on with a stage. -/
def toStage (run : RenewalRun) (stage : Stage) : Renewals :=
  { s with run := some { run with stage := stage } }

/-- The run is done with the subscription it was at, and goes on with the next. -/
def done (run : RenewalRun) (ended : Bool) : Renewals :=
  { s with
    run := RenewalRun.begin run.purchaseType run.usable run.rest
    renewed := s.renewed ++ (run.charge.map fun charge =>
      { charge := charge
        renewsAt := s.db.dueAt run.subscription.id
        ended := ended }).toList }

/-- A run performs one stage. -/
def proceed (chrono : Chrono) (env : Env) (stripe : StripeApi) (run : RenewalRun) : Renewals :=
  let result :=
    run.stage.perform chrono env stripe run.purchaseType run.subscription s.db
  let performed : Renewals := { s with
    db := finalState result
    charges := s.charges ++ (s.newCharge stripe run).toList }
  let charged := { run with charge := run.charge.or (s.newCharge stripe run) }
  match nextStage result with
  | some stage => performed.toStage charged stage
  | none => performed.done charged
      (decide (run.stage = .finish) && !env.faults .endSubscription)

end Renewals

/-- What an event makes of the state; runs follow one another. -/
def Renewals.step (chrono : Chrono) (s : Renewals) : RenewalEvent → Renewals
  | .start env purchaseType =>
    match s.run, getDueMarketSubscriptions env purchaseType s.db with
    | none, .ok due db =>
      { s with
        db := db
        run := RenewalRun.begin purchaseType (usableServerStripeConfig env).isSome due }
    | _, _ => s
  | .proceed env stripe =>
    match s.run with
    | none => s
    | some run =>
      if run.stage = .charge ∧ s.accepts (stripe.charge run.subscription) = false then s
      else s.proceed chrono env stripe run
  | .cancel env subscriptionId caller =>
    { s with db := finalState (cancelMarketSubscription env subscriptionId caller s.db) }

section

variable {chrono : Chrono} {env : Env} {stripe : StripeApi}

/-- A stage after the charge is always performed. -/
theorem Renewals.step_proceed {s : Renewals} {run : RenewalRun} (hrun : s.run = some run)
    (haccepts : run.stage = .charge → s.accepts (stripe.charge run.subscription) = true) :
    s.step chrono (.proceed env stripe) = s.proceed chrono env stripe run := by
  rw [Renewals.step, hrun]
  apply if_neg
  rintro ⟨hcharge, hrejects⟩
  rw [haccepts hcharge] at hrejects
  cases hrejects

end

end Rellm.Market
