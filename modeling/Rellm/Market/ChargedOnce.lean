import Rellm.Market.Charges

/-!
# Charges of renewal runs

A charge, the rows that record it, the next renewal date and the entitlement are
steps of their own, and any failure among them ends the subscription. Charges are
neither lost nor repeated in every run in which nothing fails between a charge and
its record, and no cancellation falls between the loading of a subscription and its
charge.
-/

namespace Rellm.Market

open Foundation Calendar

/-- The period that a charge pays for. -/
def Charge.period (charge : Charge) : Nat × Option Instant :=
  (charge.subscription.id, charge.subscription.renewsAt)

/-- One purchase of the subscription with one payment of its price is recorded for a charge. -/
structure Charge.RecordedAs (charge : Charge) (db : MarketDb) (intentId : String)
    (purchase : MarketPurchase) (payment : MarketPayment) : Prop where
  identified : charge.intentId = some intentId
  purchased : db.purchasesOf intentId = [purchase]
  paid : db.paymentsOf purchase.id = [payment]
  subscribed : purchase.subscriptionId = some charge.subscription.id
  amount : payment.amount = charge.subscription.amount
  currency : payment.currency = charge.subscription.currency

/-- A charge is recorded by exactly one purchase with exactly one payment. -/
def Charge.Recorded (charge : Charge) (db : MarketDb) : Prop :=
  ∃ intentId purchase payment, charge.RecordedAs db intentId purchase payment

/-- A renewal date is one period later than it was when the charge was made. -/
def Charge.Advances (chrono : Chrono) (charge : Charge) (renewsAt : Option Instant) : Prop :=
  ∃ due later, charge.row.bind (·.renewsAt) = some due ∧
    chrono.checkedAddMonths due charge.subscription.period.months = some later ∧
    renewsAt = some later

/-- Charges are neither lost nor repeated. -/
structure ChargedOnce (chrono : Chrono) (s : Renewals) : Prop where
  recorded : ∀ renewed ∈ s.renewed, renewed.charge.Recorded s.db
  advanced : ∀ renewed ∈ s.renewed, renewed.charge.Advances chrono renewed.renewsAt
  once : (s.charges.map (·.period)).Nodup
  live : ∀ charge ∈ s.charges, ∀ row ∈ charge.row, row.canceledAt = none
  kept : ∀ renewed ∈ s.renewed, renewed.ended = false

/-- A stage in which nothing goes wrong for a subscription that is charged: it is not canceled
when it is charged, the reply arrives and the next renewal date is representable; the purchase,
the payment and the renewal date are written; and the run does not end it. -/
def Stage.Unbroken (chrono : Chrono) (s : Renewals) (env : Env) (stripe : StripeApi)
    (run : RenewalRun) : Stage → Prop
  | .charge => ∀ charge ∈ s.chargeFor stripe run.subscription, charge.intentId.isSome = true ∧
      (∀ row ∈ charge.row, row.canceledAt = none) ∧
      ∀ due ∈ run.subscription.renewsAt,
        (chrono.checkedAddMonths due run.subscription.period.months).isSome = true
  | .recordPurchase _ _ =>
    env.faults .insertPurchase = false ∧ run.subscription.keyed s.db = true
  | .recordPayment _ _ _ => env.faults .insertPayment = false
  | .advance _ => env.faults .advanceRenewal = false
  | .fulfill _ => True
  | .finish => run.charge.isSome = true → env.faults .endSubscription = true

/-- Nothing goes wrong in a step. -/
def Unbroken (chrono : Chrono) (s : Renewals) : RenewalEvent → Prop
  | .proceed env stripe => ∀ run ∈ s.run, run.stage.Unbroken chrono s env stripe run
  | .start _ _ | .cancel _ _ _ => True

instance (chrono : Chrono) (s : Renewals) (env : Env) (stripe : StripeApi) (run : RenewalRun) :
    (stage : Stage) → Decidable (stage.Unbroken chrono s env stripe run)
  | .charge => inferInstanceAs (Decidable (∀ charge ∈ s.chargeFor stripe run.subscription,
      charge.intentId.isSome = true ∧ (∀ row ∈ charge.row, row.canceledAt = none) ∧
      ∀ due ∈ run.subscription.renewsAt,
        (chrono.checkedAddMonths due run.subscription.period.months).isSome = true))
  | .recordPurchase _ _ => inferInstanceAs (Decidable (_ ∧ _))
  | .recordPayment _ _ _ => inferInstanceAs (Decidable (_ = _))
  | .advance _ => inferInstanceAs (Decidable (_ = _))
  | .fulfill _ => isTrue trivial
  | .finish => inferInstanceAs (Decidable (_ → _))

instance (chrono : Chrono) (s : Renewals) : (event : RenewalEvent) →
    Decidable (Unbroken chrono s event)
  | .proceed env stripe =>
    inferInstanceAs (Decidable (∀ run ∈ s.run, run.stage.Unbroken chrono s env stripe run))
  | .start _ _ | .cancel _ _ _ => isTrue trivial

/-- The charge is for a subscription that is due, and one period later is representable. -/
structure Charge.For (charge : Charge) (chrono : Chrono) (subscription : MarketSubscription)
    (due later : Instant) : Prop where
  loaded : charge.subscription = subscription
  renews : subscription.renewsAt = some due
  stored : charge.row.bind (·.renewsAt) = some due
  representable : chrono.checkedAddMonths due subscription.period.months = some later

/-- How far the renewal of a charged subscription has got. -/
inductive Progress (chrono : Chrono) (db : MarketDb) (subscription : MarketSubscription) :
    Stage → Option Charge → Prop
  | charge (due : Instant) (hdue : subscription.renewsAt = some due)
      (hcurrent : db.dueAt subscription.id = some due) :
      Progress chrono db subscription .charge none
  | recordPurchase (intentId : String) (card : Option CardDetails) (charge : Charge)
      (due later : Instant) (hfor : charge.For chrono subscription due later)
      (hcurrent : db.dueAt subscription.id = some due)
      (hintentId : charge.intentId = some intentId) (hnew : db.purchasesOf intentId = []) :
      Progress chrono db subscription (.recordPurchase intentId card) (some charge)
  | recordPayment (intentId : String) (card : Option CardDetails) (purchase : MarketPurchase)
      (charge : Charge) (due later : Instant)
      (hfor : charge.For chrono subscription due later)
      (hcurrent : db.dueAt subscription.id = some due)
      (hintentId : charge.intentId = some intentId)
      (hpurchase : db.purchasesOf intentId = [purchase])
      (hsubscription : purchase.subscriptionId = some subscription.id)
      (hstored : purchase.id < db.purchases.next) (hnew : db.paymentsOf purchase.id = []) :
      Progress chrono db subscription (.recordPayment intentId card purchase) (some charge)
  | advance (purchase : MarketPurchase) (charge : Charge) (due later : Instant)
      (hfor : charge.For chrono subscription due later)
      (hcurrent : db.dueAt subscription.id = some due) (hrecorded : charge.Recorded db) :
      Progress chrono db subscription (.advance purchase) (some charge)
  | fulfill (purchase : MarketPurchase) (charge : Charge) (due later : Instant)
      (hfor : charge.For chrono subscription due later)
      (hcurrent : db.dueAt subscription.id = some later) (hrecorded : charge.Recorded db) :
      Progress chrono db subscription (.fulfill purchase) (some charge)
  | renewed (charge : Charge) (due later : Instant)
      (hfor : charge.For chrono subscription due later)
      (hcurrent : db.dueAt subscription.id = some later) (hrecorded : charge.Recorded db) :
      Progress chrono db subscription .finish (some charge)
  | unrenewed : Progress chrono db subscription .finish none

/-- The subscriptions of a run are different ones, those to come renew when they did when they
were loaded, and the one the run is at has got somewhere. -/
structure RenewalRun.Sound (chrono : Chrono) (db : MarketDb) (run : RenewalRun) : Prop where
  distinct : ((run.subscription :: run.rest).map (·.id)).Nodup
  rest : ∀ other ∈ run.rest, other.renewsAt.isSome = true ∧ db.dueAt other.id = other.renewsAt
  progress : Progress chrono db run.subscription run.stage run.charge

/-- The charge of the run in progress, until the renewal date is advanced. -/
def Renewals.pending (s : Renewals) : Option Charge :=
  s.run.bind fun run =>
    match run.stage with
    | .fulfill _ | .finish => none
    | _ => run.charge

/-- A charge's subscription renews later than the period the charge pays for, or else is the one
the run in progress is at. -/
def Renewals.Passed (s : Renewals) (charge : Charge) : Prop :=
  ∃ due current, charge.subscription.renewsAt = some due ∧
    s.db.dueAt charge.subscription.id = some current ∧ due ≤ current ∧
    (due = current → s.pending = some charge)

/-- Charges are neither lost nor repeated, and the run in progress will not change that. -/
structure Accounted (chrono : Chrono) (s : Renewals) : Prop where
  law : ChargedOnce chrono s
  stored : PaymentsStored s.db
  passed : ∀ charge ∈ s.charges, s.Passed charge
  sound : ∀ run ∈ s.run, run.Sound chrono s.db

section

variable {chrono : Chrono} {env : Env} {stripe : StripeApi} {s : Renewals} {run : RenewalRun}
variable {db db' : MarketDb} {charge : Charge}

/-- A charge stays recorded when a purchase is stored for another one. -/
theorem Charge.Recorded.addPurchase {now : Instant} {new : NewMarketPurchase} {intentId : String}
    (h : charge.Recorded db) (hid : new.stripePaymentIntentId = some intentId)
    (hnew : db.purchasesOf intentId = []) : charge.Recorded (db.addPurchase now new) := by
  obtain ⟨intentId', purchase, payment, hrecorded⟩ := h
  have hother : intentId ≠ intentId' := by
    rintro rfl
    have hpurchased := hrecorded.purchased
    rw [hnew] at hpurchased
    cases hpurchased
  refine ⟨intentId', purchase, payment, { hrecorded with purchased := ?_, paid := ?_ }⟩
  · rw [MarketDb.purchasesOf, MarketDb.addPurchase, Serial.rows_insert, List.filter_append,
      ← MarketDb.purchasesOf, hrecorded.purchased]
    simp [hid, hother]
  · exact hrecorded.paid

/-- A charge stays recorded when a payment is stored for a purchase that had none. -/
theorem Charge.Recorded.addPayment {now : Instant} {new : NewMarketPayment}
    (h : charge.Recorded db) (hnew : db.paymentsOf new.purchaseId = []) :
    charge.Recorded (db.addPayment now new) := by
  obtain ⟨intentId, purchase, payment, hrecorded⟩ := h
  have hother : new.purchaseId ≠ purchase.id := by
    intro heq
    have hpaid := hrecorded.paid
    rw [← heq, hnew] at hpaid
    cases hpaid
  refine ⟨intentId, purchase, payment, { hrecorded with purchased := ?_, paid := ?_ }⟩
  · exact hrecorded.purchased
  · rw [MarketDb.paymentsOf, MarketDb.addPayment, Serial.rows_insert, List.filter_append,
      ← MarketDb.paymentsOf, hrecorded.paid]
    simp [hother]

/-- What is recorded of a charge depends on the purchases and the payments only. -/
theorem Charge.Recorded.mono (h : charge.Recorded db) (hpurchases : db'.purchases = db.purchases)
    (hpayments : db'.payments = db.payments) : charge.Recorded db' := by
  obtain ⟨intentId, purchase, payment, hrecorded⟩ := h
  refine ⟨intentId, purchase, payment, { hrecorded with purchased := ?_, paid := ?_ }⟩
  · rw [MarketDb.purchasesOf, hpurchases]
    exact hrecorded.purchased
  · rw [MarketDb.paymentsOf, hpayments]
    exact hrecorded.paid

/-- The purchases, the payments and the renewal dates are the same. -/
structure SameCharges (db db' : MarketDb) : Prop where
  purchases : db'.purchases = db.purchases
  payments : db'.payments = db.payments
  dueAt : ∀ id, db'.dueAt id = db.dueAt id

/-- A run is as far as before where its charges are the same. -/
theorem Progress.mono {subscription : MarketSubscription} {stage : Stage}
    {charged : Option Charge} (h : Progress chrono db subscription stage charged)
    (hsame : SameCharges db db') : Progress chrono db' subscription stage charged := by
  have hdueAt := hsame.dueAt subscription.id
  cases h with
  | charge due hdue hcurrent => exact .charge due hdue (hdueAt.trans hcurrent)
  | recordPurchase intentId card charge due later hfor hcurrent hintentId hnew =>
    refine .recordPurchase intentId card charge due later hfor (hdueAt.trans hcurrent) hintentId ?_
    rw [MarketDb.purchasesOf, hsame.purchases]
    exact hnew
  | recordPayment intentId card purchase charge due later hfor hcurrent hintentId hpurchase
      hsubscription hstored hnew =>
    refine .recordPayment intentId card purchase charge due later hfor (hdueAt.trans hcurrent)
      hintentId ?_ hsubscription (hsame.purchases ▸ hstored) ?_
    · rw [MarketDb.purchasesOf, hsame.purchases]
      exact hpurchase
    · rw [MarketDb.paymentsOf, hsame.payments]
      exact hnew
  | advance purchase charge due later hfor hcurrent hrecorded =>
    exact .advance purchase charge due later hfor (hdueAt.trans hcurrent)
      (hrecorded.mono hsame.purchases hsame.payments)
  | fulfill purchase charge due later hfor hcurrent hrecorded =>
    exact .fulfill purchase charge due later hfor (hdueAt.trans hcurrent)
      (hrecorded.mono hsame.purchases hsame.payments)
  | renewed charge due later hfor hcurrent hrecorded =>
    exact .renewed charge due later hfor (hdueAt.trans hcurrent)
      (hrecorded.mono hsame.purchases hsame.payments)
  | unrenewed => exact .unrenewed

/-- What changes no purchase, no payment and no renewal date keeps charges accounted for. -/
theorem Accounted.mono (h : Accounted chrono s) (hsame : SameCharges s.db db') :
    Accounted chrono { s with db := db' } where
  law := { h.law with
    recorded := fun renewed hrenewed =>
      (h.law.recorded renewed hrenewed).mono hsame.purchases hsame.payments }
  stored := by
    rw [PaymentsStored, hsame.payments, hsame.purchases]
    exact h.stored
  passed := by
    intro charge hcharge
    obtain ⟨due, current, hdue, hcurrent, hpassed⟩ := h.passed charge hcharge
    exact ⟨due, current, hdue, (hsame.dueAt _).trans hcurrent, hpassed⟩
  sound := by
    intro run hrun
    obtain ⟨hdistinct, hrest, hprogress⟩ := h.sound run hrun
    refine ⟨hdistinct, fun other hother => ?_, hprogress.mono hsame⟩
    rw [hsame.dueAt]
    exact hrest other hother

theorem OnlyUsers.sameCharges (h : OnlyUsers db db') : SameCharges db db' where
  purchases := h.purchases
  payments := h.payments
  dueAt id := by rw [MarketDb.dueAt, h.subscriptions, MarketDb.dueAt]

/-- Canceling a subscription leaves its renewal date. -/
theorem sameCharges_cancel (db : MarketDb) (id : Nat) (now : Instant) :
    SameCharges db (db.cancel id now) where
  purchases := rfl
  payments := rfl
  dueAt other := by
    rw [MarketDb.dueAt, MarketDb.cancel, MarketDb.updateSubscription, Serial.get_modify,
      MarketDb.dueAt]
    split
    · cases db.subscriptions.get other <;> rfl
    · rfl

theorem Cancels.sameCharges (h : Cancels env db db') : SameCharges db db' := by
  obtain ⟨row, _, _, hdb⟩ := h
  obtain ⟨hpurchases, hpayments, hdueAt⟩ := sameCharges_cancel db row.id env.now
  rw [hdb]
  split
  · exact ⟨hpurchases, hpayments, hdueAt⟩
  · exact ⟨hpurchases, hpayments, hdueAt⟩

/-- A run with another stage is accounted for where the stage is sound and the pending charge is
still pending. -/
theorem Accounted.withRun {run' : Option RenewalRun} (h : Accounted chrono s)
    (hsound : ∀ run ∈ run', run.Sound chrono s.db)
    (hpending : ∀ charge, s.pending = some charge →
      ({ s with run := run' } : Renewals).pending = some charge) :
    Accounted chrono { s with run := run' } where
  law := { h.law with }
  stored := h.stored
  passed := by
    intro charge hcharge
    obtain ⟨due, current, hdue, hcurrent, hle, hpassed⟩ := h.passed charge hcharge
    exact ⟨due, current, hdue, hcurrent, hle, fun heq => hpending charge (hpassed heq)⟩
  sound := hsound

/-- The next subscription of a run is begun. -/
theorem RenewalRun.sound_begin (purchaseType : PurchaseType) (usable : Bool)
    {due : List MarketSubscription} (hdistinct : (due.map (·.id)).Nodup)
    (hdue : ∀ other ∈ due, other.renewsAt.isSome = true ∧ db.dueAt other.id = other.renewsAt) :
    ∀ run ∈ RenewalRun.begin purchaseType usable due, run.Sound chrono db := by
  intro run hrun
  cases due with
  | nil => cases hrun
  | cons subscription rest =>
    obtain ⟨hfirst, hrest⟩ := List.forall_mem_cons.mp hdue
    obtain ⟨instant, hinstant⟩ := Option.isSome_iff_exists.mp hfirst.1
    obtain rfl := Option.some.inj hrun
    refine ⟨hdistinct, hrest, ?_⟩
    cases usable with
    | true => exact .charge instant hinstant (hfirst.2.trans hinstant)
    | false => exact .unrenewed

/-- A charge that was recorded and advanced for is settled. -/
theorem Accounted.settle (h : Accounted chrono s) {settled : List Renewed}
    (hrecorded : ∀ renewed ∈ settled, renewed.charge.Recorded s.db)
    (hadvanced : ∀ renewed ∈ settled, renewed.charge.Advances chrono renewed.renewsAt)
    (hkept : ∀ renewed ∈ settled, renewed.ended = false) :
    Accounted chrono { s with renewed := s.renewed ++ settled } where
  law := { h.law with
    recorded := fun renewed hrenewed =>
      (List.mem_append.mp hrenewed).elim (h.law.recorded renewed) (hrecorded renewed)
    advanced := fun renewed hrenewed =>
      (List.mem_append.mp hrenewed).elim (h.law.advanced renewed) (hadvanced renewed)
    kept := fun renewed hrenewed =>
      (List.mem_append.mp hrenewed).elim (h.law.kept renewed) (hkept renewed) }
  stored := h.stored
  passed := h.passed
  sound := h.sound

/-- A run that is done with a subscription, renewed or not charged, goes on. -/
theorem Accounted.done (h : Accounted chrono s) (hrun : s.run = some run) {ended : Bool}
    (hpending : s.pending = none)
    (hdone : ∀ charge ∈ run.charge, (∃ due later, charge.For chrono run.subscription due later ∧
      s.db.dueAt run.subscription.id = some later) ∧ charge.Recorded s.db ∧ ended = false) :
    Accounted chrono (s.done run ended) := by
  obtain ⟨hdistinct, hrest, _⟩ := h.sound run hrun
  rw [List.map_cons, List.nodup_cons] at hdistinct
  have hnext := h.withRun (RenewalRun.sound_begin run.purchaseType run.usable hdistinct.2 hrest)
    (by simp [hpending])
  rw [Renewals.done]
  cases hcharge : run.charge with
  | none =>
    rw [Option.map_none, Option.toList_none, List.append_nil]
    exact hnext
  | some charge =>
    obtain ⟨⟨due, later, hfor, hcurrent⟩, hrecorded, hkept⟩ := hdone charge hcharge
    refine hnext.settle ?_ ?_ ?_
    · simpa using hrecorded
    · rw [Option.map_some, Option.toList_some, List.forall_mem_singleton]
      exact ⟨due, later, hfor.stored, hfor.loaded ▸ hfor.representable, hcurrent⟩
    · simpa using hkept

/-- Nothing is stored when the run goes on to another stage. -/
theorem Accounted.toStage (h : Accounted chrono s) (hrun : s.run = some run) {stage : Stage}
    (hpending : s.pending = none)
    (hprogress : Progress chrono s.db run.subscription stage run.charge) :
    Accounted chrono (s.toStage run stage) := by
  obtain ⟨hdistinct, hrest, _⟩ := h.sound run hrun
  refine h.withRun ?_ (by simp [hpending])
  rintro _ ⟨⟩
  exact ⟨hdistinct, hrest, hprogress⟩

/-- A purchase is stored for the charge. -/
theorem Accounted.recordPurchase (h : Accounted chrono s) (hrun : s.run = some run)
    {intentId : String} {card : Option CardDetails}
    (hstage : run.stage = .recordPurchase intentId card)
    {purchase : MarketPurchase} {now : Instant} (hid : purchase.id = s.db.purchases.next)
    (hnow : purchase.createdAt = now)
    (hnew : purchase.toNewMarketPurchase = renewalPurchase run.subscription intentId) :
    Accounted chrono { s with
      db := s.db.addPurchase now (renewalPurchase run.subscription intentId)
      run := some { run with stage := .recordPayment intentId card purchase } } := by
  obtain ⟨hdistinct, hrest, hprogress⟩ := h.sound run hrun
  rw [hstage] at hprogress
  generalize hcharged : run.charge = charged at hprogress
  cases hprogress with
  | recordPurchase _ _ charge due later hfor hcurrent hintentId hnone =>
    have hidentified : (renewalPurchase run.subscription intentId).stripePaymentIntentId =
        some intentId := rfl
    have hstored : { renewalPurchase run.subscription intentId with
        id := s.db.purchases.next
        createdAt := now } = purchase := by
      rw [← hnew, ← hid, ← hnow]
    refine { law := { h.law with recorded := ?_ }, stored := ?_, passed := ?_, sound := ?_ }
    · intro renewed hrenewed
      exact (h.law.recorded renewed hrenewed).addPurchase hidentified hnone
    · intro payment hpayment
      exact Nat.lt_succ_of_lt (h.stored payment hpayment)
    · intro charge' hcharge'
      obtain ⟨due', current, hdue', hcurrent', hle, hpassed⟩ := h.passed charge' hcharge'
      refine ⟨due', current, hdue', hcurrent', hle, fun heq => ?_⟩
      have hpending := hpassed heq
      simp only [Renewals.pending, hrun, Option.bind_some, hstage] at hpending
      exact hcharged.symm.trans hpending
    · rintro _ ⟨⟩
      refine ⟨hdistinct, hrest, ?_⟩
      refine .recordPayment intentId card purchase charge due later hfor hcurrent hintentId ?_ ?_ ?_
        ?_
      · rw [MarketDb.purchasesOf, MarketDb.addPurchase, Serial.rows_insert, List.filter_append,
          ← MarketDb.purchasesOf, hnone, hstored]
        simp [hnew, hidentified]
      · rw [hnew]
        rfl
      · rw [hid]
        exact Nat.lt_succ_self _
      · rw [hid]
        exact h.stored.paymentsOf_next

/-- A payment is stored for the purchase. -/
theorem Accounted.recordPayment (h : Accounted chrono s) (hrun : s.run = some run)
    {intentId : String} {card : Option CardDetails} {purchase : MarketPurchase}
    (hstage : run.stage = .recordPayment intentId card purchase) (now : Instant) :
    Accounted chrono { s with
      db := s.db.addPayment now (renewalPayment run.subscription intentId card purchase.id)
      run := some { run with stage := .advance purchase } } := by
  obtain ⟨hdistinct, hrest, hprogress⟩ := h.sound run hrun
  rw [hstage] at hprogress
  generalize hcharged : run.charge = charged at hprogress
  cases hprogress with
  | recordPayment _ _ _ charge due later hfor hcurrent hintentId hpurchase hsubscription hstored
      hnone =>
    refine { law := { h.law with recorded := ?_ }, stored := ?_, passed := ?_, sound := ?_ }
    · intro renewed hrenewed
      exact (h.law.recorded renewed hrenewed).addPayment hnone
    · intro payment hpayment
      rcases List.mem_append.mp hpayment with hold | hnew
      · exact h.stored payment hold
      · rw [List.mem_singleton.mp hnew]
        exact hstored
    · intro charge' hcharge'
      obtain ⟨due', current, hdue', hcurrent', hle, hpassed⟩ := h.passed charge' hcharge'
      refine ⟨due', current, hdue', hcurrent', hle, fun heq => ?_⟩
      have hpending := hpassed heq
      simp only [Renewals.pending, hrun, Option.bind_some, hstage] at hpending
      exact hcharged.symm.trans hpending
    · rintro _ ⟨⟩
      refine ⟨hdistinct, hrest, ?_⟩
      have hpaid : (s.db.addPayment now (renewalPayment run.subscription intentId card
          purchase.id)).paymentsOf purchase.id =
            [{ renewalPayment run.subscription intentId card purchase.id with
              id := s.db.payments.next
              createdAt := now }] := by
        rw [MarketDb.paymentsOf, MarketDb.addPayment, Serial.rows_insert, List.filter_append,
          ← MarketDb.paymentsOf, hnone]
        simp [renewalPayment]
      refine .advance purchase charge due later hfor hcurrent ⟨intentId, purchase, _, hintentId,
        hpurchase, hpaid, ?_, ?_, ?_⟩
      · rw [hsubscription, hfor.loaded]
      · rw [hfor.loaded]
        rfl
      · rw [hfor.loaded]
        rfl

theorem PurchasePeriod.months_pos (period : PurchasePeriod) : 0 < period.months := by
  cases period <;> simp [PurchasePeriod.months]

/-- The next renewal of a subscription is one period after the one it was charged for. -/
theorem Charge.For.nextRenewal {subscription : MarketSubscription} {due later : Instant}
    (h : charge.For chrono subscription due later) (now : Instant) :
    nextRenewal chrono now subscription = later := by
  rw [Market.nextRenewal, advanceByPeriod, h.renews, Option.getD_some, h.representable,
    Option.getD_some]

theorem Charge.For.due_lt {subscription : MarketSubscription} {due later : Instant}
    (h : charge.For chrono subscription due later) : due < later :=
  chrono.lt_of_checkedAddMonths due _ later (PurchasePeriod.months_pos _) h.representable

/-- Advancing a subscription sets when it renews. -/
theorem dueAt_advance {id : Nat} {due : Instant} (h : db.dueAt id = some due) (later : Instant)
    (other : Nat) :
    (db.advance id later).dueAt other = if other = id then some later else db.dueAt other := by
  rw [MarketDb.dueAt, MarketDb.advance, MarketDb.updateSubscription, Serial.get_modify]
  split
  · rename_i hother
    obtain ⟨row, hrow, _⟩ := Option.bind_eq_some_iff.mp h
    rw [hother, hrow]
    rfl
  · rfl

/-- The renewal date is advanced. -/
theorem Accounted.advance (h : Accounted chrono s) (hrun : s.run = some run)
    {purchase : MarketPurchase} (hstage : run.stage = .advance purchase) (now : Instant) :
    Accounted chrono { s with
      db := s.db.advance run.subscription.id (nextRenewal chrono now run.subscription)
      run := some { run with stage := .fulfill purchase } } := by
  obtain ⟨hdistinct, hrest, hprogress⟩ := h.sound run hrun
  rw [hstage] at hprogress
  generalize hcharged : run.charge = charged at hprogress
  cases hprogress with
  | advance _ charge due later hfor hcurrent hrecorded =>
    rw [hfor.nextRenewal now]
    have hlt := hfor.due_lt
    have hdueAt := dueAt_advance hcurrent later
    refine { law := { h.law with recorded := ?_ }, stored := h.stored, passed := ?_, sound := ?_ }
    · intro renewed hrenewed
      exact (h.law.recorded renewed hrenewed).mono rfl rfl
    · intro charge' hcharge'
      obtain ⟨due', current, hdue', hcurrent', hle, hpassed⟩ := h.passed charge' hcharge'
      by_cases hid : charge'.subscription.id = run.subscription.id
      · rw [hid, hcurrent] at hcurrent'
        obtain rfl := Option.some.inj hcurrent'
        refine ⟨due', later, hdue', by rw [hdueAt, if_pos hid], ?_, fun heq => ?_⟩
        · exact Int.le_of_lt (Int.lt_of_le_of_lt hle hlt)
        · exact absurd (heq ▸ hle) (Int.not_le.mpr hlt)
      · refine ⟨due', current, hdue', by rw [hdueAt, if_neg hid, hcurrent'], hle, fun heq => ?_⟩
        have hpending := hpassed heq
        simp only [Renewals.pending, hrun, Option.bind_some, hstage] at hpending
        obtain rfl := Option.some.inj (hcharged.symm.trans hpending)
        exact absurd (congrArg (·.id) hfor.loaded) hid
    · rintro _ ⟨⟩
      rw [List.map_cons, List.nodup_cons] at hdistinct
      refine ⟨List.nodup_cons.mpr hdistinct, fun other hother => ?_, ?_⟩
      · have hne : other.id ≠ run.subscription.id := fun heq =>
          hdistinct.1 (List.mem_map.mpr ⟨other, hother, heq⟩)
        rw [hdueAt, if_neg hne]
        exact hrest other hother
      · refine .fulfill purchase charge due later hfor ?_ (hrecorded.mono rfl rfl)
        rw [hdueAt, if_pos rfl]

/-- Stripe charges for a subscription. -/
theorem Accounted.charged (h : Accounted chrono s) (hrun : s.run = some run)
    (hstage : run.stage = .charge) {due later : Instant} {intentId : String}
    (hfor : charge.For chrono run.subscription due later)
    (hintentId : charge.intentId = some intentId)
    (hnew : s.db.purchasesOf intentId = []) (hlive : ∀ row ∈ charge.row, row.canceledAt = none)
    (card : Option CardDetails) :
    Accounted chrono { s with
      run := some { run with stage := .recordPurchase intentId card, charge := some charge }
      charges := s.charges ++ [charge] } := by
  obtain ⟨hdistinct, hrest, hprogress⟩ := h.sound run hrun
  rw [hstage] at hprogress
  generalize hcharged : run.charge = charged at hprogress
  cases hprogress with
  | charge due' hdue' hcurrent =>
    obtain rfl := Option.some.inj (hdue'.symm.trans hfor.renews)
    have hnone : s.pending = none := by
      simp only [Renewals.pending, hrun, Option.bind_some, hstage, hcharged]
    refine { law := { h.law with once := ?_, live := ?_ }, stored := h.stored, passed := ?_,
             sound := ?_ }
    · rw [List.map_append, List.map_singleton]
      refine h.law.once.append (List.nodup_singleton _) ?_
      rw [List.disjoint_singleton, List.mem_map]
      rintro ⟨charge', hcharge', hperiod⟩
      obtain ⟨hid, hrenewsAt⟩ := Prod.mk.inj hperiod
      obtain ⟨due'', current, hdue'', hcurrent', _, hpassed⟩ := h.passed charge' hcharge'
      rw [hid, hfor.loaded, hcurrent] at hcurrent'
      rw [hrenewsAt, hfor.loaded, hfor.renews] at hdue''
      have hpending := hpassed (Option.some.inj (hdue''.symm.trans hcurrent'))
      rw [hnone] at hpending
      cases hpending
    · intro charge' hcharge'
      rcases List.mem_append.mp hcharge' with hold | hlast
      · exact h.law.live charge' hold
      · rw [List.mem_singleton.mp hlast]
        exact hlive
    · intro charge' hcharge'
      rcases List.mem_append.mp hcharge' with hold | hlast
      · obtain ⟨due'', current, hdue'', hcurrent', hle, hpassed⟩ := h.passed charge' hold
        refine ⟨due'', current, hdue'', hcurrent', hle, fun heq => ?_⟩
        have hpending := hpassed heq
        rw [hnone] at hpending
        cases hpending
      · rw [List.mem_singleton.mp hlast]
        refine ⟨due', due', ?_, ?_, Int.le_refl _, fun _ => rfl⟩
        · rw [hfor.loaded, hfor.renews]
        · rw [hfor.loaded]
          exact hcurrent
    · rintro _ ⟨⟩
      exact ⟨hdistinct, hrest,
        .recordPurchase intentId card charge due' later hfor hcurrent hintentId hnew⟩

/-- In a stage that follows the charge, a result leads to the next stage. -/
theorem Renewals.proceed_eq (hstage : run.stage ≠ .charge)
    {result : EStateM.Result Status MarketDb (Option Stage)}
    (hresult : run.stage.perform chrono env stripe run.purchaseType run.subscription s.db =
      result) :
    s.proceed chrono env stripe run =
      match nextStage result with
      | some stage => { s with db := finalState result }.toStage run stage
      | none => { s with db := finalState result }.done run
          (decide (run.stage = Stage.finish) && !env.faults .endSubscription) := by
  have hnew : s.newCharge stripe run = none := if_neg hstage
  rw [Renewals.proceed, hnew, hresult]
  cases nextStage result with
  | none => simp only [Option.or_none, Option.toList_none, List.append_nil]
  | some stage => simp only [Option.or_none, Option.toList_none, List.append_nil]

/-- Where Stripe makes no charge, the subscription ends. -/
theorem perform_charge_of_none {subscription : MarketSubscription} {purchaseType : PurchaseType}
    (h : s.chargeFor stripe subscription = none) : ∃ e,
      Stage.charge.perform chrono env stripe purchaseType subscription s.db = .error e s.db := by
  have hcheck := @checkChargeable_succeeded s.db subscription
  have hreadOnly := @checkChargeable_readOnly subscription s.db
  rw [Stage.perform]
  cases hresult : checkChargeable subscription s.db with
  | error e db =>
    rw [hresult] at hreadOnly
    rw [bind_of_error hresult]
    exact ⟨e, congrArg _ hreadOnly⟩
  | ok _ db =>
    rw [hresult] at hcheck hreadOnly
    rw [bind_of_ok hresult]
    rw [Renewals.chargeFor, ← hcheck] at h
    cases hcharge : stripe.charge subscription with
    | failed => exact ⟨_, congrArg _ hreadOnly⟩
    | lost =>
      rw [hcharge] at h
      cases h
    | succeeded intentId =>
      rw [hcharge] at h
      cases h

/-- Where Stripe makes a charge whose reply arrives, it is recorded next. -/
theorem perform_charge_of_some {subscription : MarketSubscription} {purchaseType : PurchaseType}
    (h : s.chargeFor stripe subscription = some charge) {intentId : String}
    (hid : charge.intentId = some intentId) :
    stripe.charge subscription = .succeeded intentId ∧ charge.subscription = subscription ∧
      charge.row = s.db.subscriptions.get subscription.id ∧
      Stage.charge.perform chrono env stripe purchaseType subscription s.db =
        .ok (some (.recordPurchase intentId (stripe.card subscription))) s.db := by
  rw [Renewals.chargeFor] at h
  split at h
  · rename_i hchargeable
    have hcheck : checkChargeable subscription s.db = .ok () s.db :=
      ok_of_succeeded (checkChargeable_succeeded.trans hchargeable) (checkChargeable_readOnly s.db)
    rw [Stage.perform, bind_of_ok hcheck]
    cases hcharge : stripe.charge subscription with
    | failed =>
      rw [hcharge] at h
      cases h
    | lost =>
      rw [hcharge] at h
      obtain rfl := Option.some.inj h
      cases hid
    | succeeded intentId' =>
      rw [hcharge] at h
      obtain rfl := Option.some.inj h
      obtain rfl := Option.some.inj hid
      exact ⟨rfl, rfl, rfl, rfl⟩
  · cases h

/-- A stage in which nothing goes wrong keeps charges accounted for. -/
theorem Accounted.proceed (h : Accounted chrono s) (hrun : s.run = some run)
    (haccepts : run.stage = .charge → s.accepts (stripe.charge run.subscription) = true)
    (hunbroken : run.stage.Unbroken chrono s env stripe run) :
    Accounted chrono (s.proceed chrono env stripe run) := by
  have hsound := h.sound run hrun
  have hprogress := hsound.progress
  cases hstage : run.stage with
  | charge =>
    rw [hstage] at hunbroken hprogress
    have hnew : s.newCharge stripe run = s.chargeFor stripe run.subscription := if_pos hstage
    generalize hcharged : run.charge = charged at hprogress
    cases hprogress with
    | charge due hdue hcurrent =>
      have hnone : s.pending = none := by
        simp only [Renewals.pending, hrun, Option.bind_some, hstage, hcharged]
      cases hcharge : s.chargeFor stripe run.subscription with
      | none =>
        obtain ⟨e, he⟩ := @perform_charge_of_none chrono env _ _ _ run.purchaseType hcharge
        rw [Renewals.proceed, hnew, hcharge, hstage, he, Option.or_none, Option.toList_none,
          List.append_nil]
        exact h.toStage hrun hnone (hcharged ▸ .unrenewed)
      | some charge =>
        obtain ⟨hreply, hlive, hrepresentable⟩ := hunbroken charge hcharge
        obtain ⟨intentId, hid⟩ := Option.isSome_iff_exists.mp hreply
        obtain ⟨later, hlater⟩ := Option.isSome_iff_exists.mp (hrepresentable due hdue)
        obtain ⟨houtcome, hloaded, hrow, hperform⟩ :=
          @perform_charge_of_some chrono env _ _ _ _ run.purchaseType hcharge _ hid
        have hfor : charge.For chrono run.subscription due later :=
          ⟨hloaded, hdue, by rw [hrow]; exact hcurrent, hlater⟩
        have haccepted := haccepts hstage
        rw [houtcome] at haccepted
        simp only [Renewals.accepts, Bool.and_eq_true, List.isEmpty_iff] at haccepted
        have hnext := h.charged hrun hstage hfor hid haccepted.1 hlive
          (stripe.card run.subscription)
        rw [Renewals.proceed, hnew, hcharge, hstage, hperform, hcharged]
        exact hnext
  | recordPurchase intentId card =>
    rw [hstage] at hunbroken
    obtain ⟨hfault, hkeyed⟩ := hunbroken
    have hinsert : insertMarketPurchase env (renewalPurchase run.subscription intentId) s.db =
        .ok { renewalPurchase run.subscription intentId with
            id := s.db.purchases.next
            createdAt := env.now }
          (s.db.addPurchase env.now (renewalPurchase run.subscription intentId)) :=
      execute_ok hfault (if_pos hkeyed)
    have hperform : run.stage.perform chrono env stripe run.purchaseType run.subscription s.db =
        .ok (some (.recordPayment intentId card { renewalPurchase run.subscription intentId with
            id := s.db.purchases.next
            createdAt := env.now }))
          (s.db.addPurchase env.now (renewalPurchase run.subscription intentId)) := by
      rw [hstage]
      exact bind_of_ok hinsert
    rw [Renewals.proceed_eq (by simp [hstage]) hperform]
    exact h.recordPurchase hrun hstage (by rfl) (by rfl) (by rfl)
  | recordPayment intentId card purchase =>
    rw [hstage] at hunbroken hprogress
    have hpurchase : (s.db.purchases.get purchase.id).isSome = true := by
      generalize run.charge = charged at hprogress
      cases hprogress with
      | recordPayment _ _ _ charge due later hfor hcurrent hintentId hpurchase =>
        have hmem : purchase ∈ s.db.purchasesOf intentId := by
          rw [hpurchase]
          exact List.mem_singleton.mpr rfl
        rw [Table.mem_rows_iff.mp (List.mem_filter.mp hmem).1]
        rfl
    obtain ⟨payment, hinsert⟩ := @insertMarketPayment_ok _ _ (renewalPayment run.subscription
      intentId card purchase.id) hunbroken hpurchase
    have hperform : run.stage.perform chrono env stripe run.purchaseType run.subscription s.db =
        .ok (some (.advance purchase)) (s.db.addPayment env.now
          (renewalPayment run.subscription intentId card purchase.id)) := by
      rw [hstage]
      exact bind_of_ok hinsert
    rw [Renewals.proceed_eq (by simp [hstage]) hperform]
    exact h.recordPayment hrun hstage env.now
  | advance purchase =>
    rw [hstage] at hunbroken
    have hadvance : advanceRenewal env run.subscription.id
        (nextRenewal chrono env.now run.subscription) s.db =
          .ok () (s.db.advance run.subscription.id (nextRenewal chrono env.now run.subscription)) :=
      execute_ok hunbroken rfl
    have hperform : run.stage.perform chrono env stripe run.purchaseType run.subscription s.db =
        .ok (some (.fulfill purchase)) (s.db.advance run.subscription.id
          (nextRenewal chrono env.now run.subscription)) := by
      rw [hstage]
      exact bind_of_ok hadvance
    rw [Renewals.proceed_eq (by simp [hstage]) hperform]
    exact h.advance hrun hstage env.now
  | fulfill purchase =>
    have husers := @fulfillPurchase_within env run.purchaseType run.subscription.buyerId
      purchase.details s.db
    have hnone : s.pending = none := by
      simp only [Renewals.pending, hrun, Option.bind_some, hstage]
    cases hfulfill : fulfillPurchase env run.purchaseType run.subscription.buyerId
      purchase.details s.db with
    | error e db =>
      have hperform : run.stage.perform chrono env stripe run.purchaseType run.subscription s.db =
          .error e db := by
        rw [hstage]
        exact bind_of_error hfulfill
      rw [hfulfill] at husers
      rw [Renewals.proceed_eq (by simp [hstage]) hperform]
      have hsame := h.mono husers.sameCharges
      refine hsame.toStage hrun hnone ?_
      have hprogress' := (hsame.sound run hrun).progress
      rw [hstage] at hprogress'
      generalize run.charge = charged at hprogress' ⊢
      cases hprogress' with
      | fulfill _ charge due later hfor hcurrent hrecorded =>
        exact .renewed charge due later hfor hcurrent hrecorded
    | ok _ db =>
      have hperform : run.stage.perform chrono env stripe run.purchaseType run.subscription s.db =
          .ok none db := by
        rw [hstage]
        exact bind_of_ok hfulfill
      rw [hfulfill] at husers
      rw [Renewals.proceed_eq (by simp [hstage]) hperform]
      have hsame := h.mono husers.sameCharges
      refine hsame.done hrun hnone fun charge hcharge => ?_
      have hprogress' := (hsame.sound run hrun).progress
      rw [hstage, hcharge] at hprogress'
      cases hprogress' with
      | fulfill _ _ due later hfor hcurrent hrecorded =>
        exact ⟨⟨due, later, hfor, hcurrent⟩, hrecorded, by simp [hstage]⟩
  | finish =>
    rw [hstage] at hunbroken
    have hnone : s.pending = none := by
      simp only [Renewals.pending, hrun, Option.bind_some, hstage]
    have hperform : run.stage.perform chrono env stripe run.purchaseType run.subscription s.db =
        .ok none (finalState (endSubscription env run.subscription.id s.db)) := by
      rw [hstage]
      rfl
    have hends : SameCharges s.db (finalState (endSubscription env run.subscription.id s.db)) := by
      rw [endSubscription, logged_apply, finalState_ok, execute]
      split
      · exact ⟨rfl, rfl, fun _ => rfl⟩
      · exact sameCharges_cancel _ _ _
    rw [Renewals.proceed_eq (by simp [hstage]) hperform]
    have hsame := h.mono hends
    refine hsame.done hrun hnone fun charge hcharge => ?_
    have hprogress' := (hsame.sound run hrun).progress
    rw [hstage, hcharge] at hprogress'
    cases hprogress' with
    | renewed _ due later hfor hcurrent hrecorded =>
      have hfault := hunbroken (by rw [hcharge]; rfl)
      exact ⟨⟨due, later, hfor, hcurrent⟩, hrecorded, by simp [hfault]⟩

/-- A step in which nothing goes wrong keeps charges accounted for. -/
theorem accounted_step (s : Renewals) (event : RenewalEvent) (h : Accounted chrono s)
    (hunbroken : Unbroken chrono s event) : Accounted chrono (s.step chrono event) := by
  cases event with
  | start env purchaseType =>
    rw [Renewals.step]
    split
    · rename_i due db hrun hdue
      rw [getDueMarketSubscriptions, execute] at hdue
      split at hdue
      · cases hdue
      · cases hdue
        refine h.withRun (RenewalRun.sound_begin _ _ (s.db.nodup_dueSubscriptions _ _) ?_)
          (by simp [Renewals.pending, hrun])
        intro other hother
        obtain ⟨hget, _, hrenewsAt⟩ := MarketDb.get_of_mem_dueSubscriptions hother
        rw [MarketDb.dueAt, hget]
        exact ⟨hrenewsAt, rfl⟩
    · exact h
  | proceed env stripe =>
    rw [Renewals.step]
    split
    · exact h
    · rename_i run hrun
      split
      · exact h
      · rename_i haccepts
        refine h.proceed hrun (fun hstage => ?_) (hunbroken run hrun)
        by_contra hrejects
        exact haccepts ⟨hstage, Bool.not_eq_true _ ▸ hrejects⟩
  | cancel env subscriptionId caller =>
    rw [Renewals.step]
    rcases @cancelMarketSubscription_cases env s.db subscriptionId caller with hsame | hcancels
    · rw [hsame]
      exact h
    · exact h.mono hcancels.sameCharges

end

/-- For every sequence of renewal runs and cancellations in which nothing goes wrong for a
subscription that is charged, charges are neither lost nor repeated, no canceled subscription is
charged, and no charged subscription is ended. -/
theorem charged_once_of_unbroken (chrono : Chrono) (db : MarketDb) (hstored : PaymentsStored db)
    (events : List RenewalEvent)
    (hunbroken : Along (Renewals.step chrono) (Unbroken chrono) { db := db } events) :
    Throughout (Renewals.step chrono) (ChargedOnce chrono) { db := db } events := by
  refine Throughout.of_along accounted_step (fun s h => h.law) ?_ hunbroken
  refine { law := ?_, stored := hstored, passed := ?_, sound := ?_ }
  · constructor <;> simp
  · simp
  · simp

/-- A market whose user has bought the storage product, and is due to renew after January. -/
def subscribedMarket : MarketDb :=
  finalState (handleCheckoutSessionCompleted januaryChrono { now := 0 }
    (fun _ => some ⟨some "pm_1", none⟩)
    { storageSession with customer := some "cus_1", paymentIntent := some "pi_1" } storageMarket)

/-- The renewal job starts when that subscription is due. -/
def startsToRenew : RenewalEvent :=
  .start { now := days 31, stripeConfig := some { stripeEnabled := true, stripeSecretKey := "sk" } }
    .mediaStorage

/-- A stage in which Stripe charges if it is asked to, and no statement fails. -/
def proceeds : RenewalEvent :=
  .proceed { now := days 31 } { charge := fun _ => .succeeded "pi_2" }

/-- A renewal that is not disturbed is charged once. -/
theorem charged_once_undisturbed :
    Throughout (Renewals.step januaryChrono) (ChargedOnce januaryChrono) { db := subscribedMarket }
      [startsToRenew, proceeds, proceeds, proceeds, proceeds, proceeds] :=
  charged_once_of_unbroken januaryChrono subscribedMarket (by decide +kernel) _ (by decide +kernel)

/-- A subscription that is canceled after it was loaded is charged. -/
theorem canceled_subscription_charged :
    ¬ ∀ (chrono : Chrono) (db : MarketDb), PaymentsStored db → ∀ events : List RenewalEvent,
      Throughout (Renewals.step chrono) (ChargedOnce chrono) { db := db } events := by
  intro h
  obtain ⟨_, _, _, hlast⟩ := h januaryChrono subscribedMarket (by decide +kernel)
    [startsToRenew,
      .cancel { now := days 31 } (some 1) { permissions := .array [], id := 1 }, proceeds]
  have hlive := ChargedOnce.live hlast
  exact absurd hlive (by decide +kernel)

end Rellm.Market
