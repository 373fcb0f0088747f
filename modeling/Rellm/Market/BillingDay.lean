import Rellm.Foundation.Gregorian
import Rellm.Market.ChargedOnce

/-!
# The day of the month that is charged

The renewal date of a subscription is first set from the time of purchase, and from then on
each renewal sets it from the date before. Once a short month has moved the date forward, it
is not moved back.
-/

namespace Rellm.Market

open Foundation Calendar

/-- The date of an instant. -/
def dateOf (instant : Instant) : Date := ofDayNumber (instant / days 1)

/-- Goes forward by months of the calendar, to the same time of day. -/
def addMonths (instant : Instant) (months : Nat) : Instant :=
  days (dayNumber ((dateOf instant).addMonths months)) + instant % days 1

/-- Adding months fails only beyond the latest instant. -/
structure Chrono.Clamps (chrono : Chrono) (latest : Instant) : Prop where
  checkedAddMonths : ∀ instant months, chrono.checkedAddMonths instant months =
    if addMonths instant months ≤ latest then some (addMonths instant months) else none

/-- A subscription from its purchase on, with the dates it was to renew on so far. What happens
to it besides its renewals leaves those as they are. -/
inductive Billed (chrono : Chrono) (id : Nat) (period : PurchasePeriod) (purchased : Instant) :
    MarketDb → List Instant → Prop
  | checkout {env : Env} {stripe : String → Option PaymentIntentPaymentMethod}
      {session : CheckoutSession} {db db' : MarketDb} {subscription : MarketSubscription}
      {renewsAt : Instant} :
    handleCheckoutSessionCompleted chrono env stripe session db = .ok .fulfilled db' →
    env.now = purchased → db.subscriptions.next = id →
    db'.subscriptions.get id = some subscription → subscription.period = period →
    subscription.renewsAt = some renewsAt →
    Billed chrono id period purchased db' [renewsAt]
  | renew {env : Env} {stripe : StripeApi} {purchaseType : PurchaseType} {db db' : MarketDb}
      {subscription : MarketSubscription} {dates : List Instant} {renewsAt : Instant} :
    Billed chrono id period purchased db dates →
    db.subscriptions.get id = some subscription →
    subscription.due purchaseType env.now = true →
    renewOne chrono env stripe purchaseType subscription db = .ok () db' →
    db'.dueAt id = some renewsAt →
    Billed chrono id period purchased db' (dates ++ [renewsAt])
  | other {db db' : MarketDb} {dates : List Instant} :
    Billed chrono id period purchased db dates →
    (db'.subscriptions.get id).map (fun row => (row.period, row.renewsAt)) =
      (db.subscriptions.get id).map (fun row => (row.period, row.renewsAt)) →
    Billed chrono id period purchased db' dates

/-- Each renewal date is as many periods after the purchase as there were charges, so twelve
months end where a year does; the dates follow one another, and they are on the day of the
purchase in every month that has it. -/
structure OnBillingDay (chrono : Chrono) (period : PurchasePeriod) (purchased : Instant)
    (dates : List Instant) : Prop where
  closed : ∀ j (h : j < dates.length),
    chrono.checkedAddMonths purchased ((j + 1) * period.months) = some dates[j]
  annual : period = .monthly → ∀ h : 11 < dates.length,
    dates[11] = advanceByPeriod chrono purchased .annual
  later : dates.Pairwise (· < ·)
  day : ∀ date ∈ dates, (dateOf purchased).day ≤ monthLength (dateOf date).monthIndex →
    (dateOf date).day = (dateOf purchased).day

/-- No month that is too short for the day of a date is followed, one period later, by a
longer one. -/
def Undrifted (date : Date) (months k : Nat) : Prop :=
  ∀ j < k, 1 ≤ j → monthLength (date.monthIndex + (j * months : Nat)) < date.day →
    monthLength (date.monthIndex + ((j + 1) * months : Nat)) ≤
      monthLength (date.monthIndex + (j * months : Nat))

instance (date : Date) (months k : Nat) : Decidable (Undrifted date months k) :=
  inferInstanceAs (Decidable (∀ j < k, _ → _))

section

variable {chrono : Chrono} {latest purchased instant : Instant} {period : PurchasePeriod}

theorem dateOf_valid (instant : Instant) : (dateOf instant).Valid :=
  (ofDayNumber_spec _).1

theorem days_add_div (n : Int) (instant : Instant) : (days n + instant % days 1) / days 1 = n := by
  unfold days
  omega

theorem days_add_mod (n : Int) (instant : Instant) :
    (days n + instant % days 1) % days 1 = instant % days 1 := by
  unfold days
  omega

theorem days_add_lt_days_add {m n r : Int} (h : m < n) : days m + r < days n + r := by
  unfold days
  omega

theorem days_add_inj {m n r : Int} : days m + r = days n + r ↔ m = n := by
  unfold days
  omega

@[simp]
theorem dateOf_addMonths (instant : Instant) (months : Nat) :
    dateOf (addMonths instant months) = (dateOf instant).addMonths months := by
  rw [dateOf, addMonths, days_add_div]
  exact ofDayNumber_dayNumber (addMonths_valid (dateOf_valid instant) _)

/-- The time of day is kept. -/
theorem addMonths_addMonths (instant : Instant) (m n : Nat) :
    addMonths (addMonths instant m) n =
      days (dayNumber (((dateOf instant).addMonths m).addMonths n)) + instant % days 1 := by
  rw [addMonths, dateOf_addMonths, addMonths, days_add_mod]

theorem days_dateOf (instant : Instant) :
    days (dayNumber (dateOf instant)) + instant % days 1 = instant := by
  rw [dateOf, (ofDayNumber_spec _).2]
  unfold days
  omega

theorem addMonths_lt_addMonths (instant : Instant) {m n : Nat} (h : m < n) :
    addMonths instant m < addMonths instant n := by
  have hvalid := dateOf_valid instant
  exact days_add_lt_days_add (dayNumber_lt_of_monthIndex (addMonths_valid hvalid _)
    (addMonths_valid hvalid _) (by simpa))

theorem lt_addMonths (instant : Instant) {n : Nat} (h : 0 < n) :
    instant < addMonths instant n := by
  have hdays := dayNumber_lt_addMonths (dateOf_valid instant) (show 0 < (n : Int) by omega)
  calc instant = days (dayNumber (dateOf instant)) + instant % days 1 := (days_dateOf instant).symm
    _ < addMonths instant n := days_add_lt_days_add hdays

/-- Going forward in two steps is going forward in one unless the first one ends in a month
that is too short. -/
theorem addMonths_addMonths_eq_iff (instant : Instant) (m n : Nat) :
    addMonths (addMonths instant m) n = addMonths instant (m + n) ↔
      (monthLength ((dateOf instant).monthIndex + m) < (dateOf instant).day →
        monthLength ((dateOf instant).monthIndex + (m + n : Nat)) ≤
          monthLength ((dateOf instant).monthIndex + m)) := by
  have hvalid := dateOf_valid instant
  have hcast : ((m + n : Nat) : Int) = m + n := Nat.cast_add m n
  rw [addMonths_addMonths, addMonths, Foundation.addMonths_addMonths, Date.addMonths, hcast,
    days_add_inj, dayNumber_ofMonth, dayNumber_ofMonth _ (min _ _)]
  omega

theorem advanceByPeriod_eq (h : chrono.Clamps latest) (instant : Instant)
    (period : PurchasePeriod) :
    advanceByPeriod chrono instant period =
      if addMonths instant period.months ≤ latest then addMonths instant period.months
      else instant := by
  rw [advanceByPeriod, h.checkedAddMonths]
  split <;> rfl

/-- When a subscription renews, as many renewals after its purchase. -/
def renewalDate (chrono : Chrono) (period : PurchasePeriod) (purchased : Instant) (n : Nat) :
    Instant :=
  (fun instant => advanceByPeriod chrono instant period)^[n] purchased

theorem renewalDate_succ (n : Nat) :
    renewalDate chrono period purchased (n + 1) =
      advanceByPeriod chrono (renewalDate chrono period purchased n) period :=
  Function.iterate_succ_apply' _ _ _

variable {id : Nat} {db db' : MarketDb}

theorem Checkout.Records.subscriptions {checkout : Checkout} {reach : Checkout.Reach}
    (h : checkout.Records chrono db reach (.ok .fulfilled db')) :
    db'.subscriptions = (checkout.subscribed chrono db).subscriptions := by
  cases h with
  | uncounted _ h => exact h.subscriptions
  | complete _ h => exact h.subscriptions

/-- A session that gets recorded has its subscription stored. -/
theorem subscriptions_of_handle {env : Env}
    {stripe : String → Option PaymentIntentPaymentMethod} {session : CheckoutSession}
    (h : handleCheckoutSessionCompleted chrono env stripe session db = .ok .fulfilled db') :
    ∃ checkout : Checkout, checkout.env = env ∧
      db'.subscriptions = (checkout.subscribed chrono db).subscriptions := by
  by_cases hblind : session.id = none ∨ env.faults .selectPurchase = true
  · obtain ⟨e, he⟩ := handle_blind hblind
    rw [he] at h
    cases h
  · obtain ⟨hsession, hfault⟩ := not_or.mp hblind
    obtain ⟨sessionId, hid⟩ := Option.ne_none_iff_exists'.mp hsession
    rw [Bool.not_eq_true] at hfault
    cases hpurchase : db.hasPurchase sessionId with
    | true =>
      rw [handle_alreadyProcessed hid hfault hpurchase] at h
      cases h
    | false =>
      rcases handle_new hid hfault hpurchase with ⟨_, e, he⟩ | ⟨checkout, hsome, hrecord⟩
      · rw [he] at h
        cases h
      · rw [hrecord] at h
        have hrecords := @recordCheckout_records chrono checkout db
        rw [h] at hrecords
        exact ⟨checkout, (Checkout.of_eq_some hsome).env, hrecords.subscriptions⟩

/-- A checkout sets the first renewal date one period after the purchase. -/
theorem renewsAt_of_checkout {env : Env} {stripe : String → Option PaymentIntentPaymentMethod}
    {session : CheckoutSession} {subscription : MarketSubscription} {renewsAt : Instant}
    (h : handleCheckoutSessionCompleted chrono env stripe session db = .ok .fulfilled db')
    (hget : db'.subscriptions.get db.subscriptions.next = some subscription)
    (hrenewsAt : subscription.renewsAt = some renewsAt) :
    renewsAt = advanceByPeriod chrono env.now subscription.period := by
  obtain ⟨checkout, rfl, hstored⟩ := subscriptions_of_handle h
  rw [hstored, Checkout.subscribed, MarketDb.addSubscription, Serial.get_insert, if_pos rfl] at hget
  obtain rfl := Option.some.inj hget
  simp only [Checkout.subscription] at hrenewsAt ⊢
  split at hrenewsAt
  · cases hrenewsAt
  · exact (Option.some.inj hrenewsAt).symm

/-- A renewal changes of the subscriptions only when the renewed one renews. -/
theorem subscriptions_of_renewOne {env : Env} {stripe : StripeApi} {purchaseType : PurchaseType}
    {subscription : MarketSubscription}
    (h : renewOne chrono env stripe purchaseType subscription db = .ok () db') :
    db'.subscriptions =
      (db.advance subscription.id (nextRenewal chrono env.now subscription)).subscriptions := by
  rw [renewOne] at h
  obtain ⟨_, checked, hcheck, hchecked⟩ := bind_eq_ok.mp h
  obtain ⟨intentId, charged, hcharge, hcharged⟩ := bind_eq_ok.mp hchecked
  rw [recordRenewal] at hcharged
  obtain ⟨purchase, purchased, hpurchase, hpurchased⟩ := bind_eq_ok.mp hcharged
  obtain ⟨_, paid, hpayment, hpaid⟩ := bind_eq_ok.mp hpurchased
  obtain ⟨_, advanced, hadvance, hadvanced⟩ := bind_eq_ok.mp hpaid
  obtain rfl := checkChargeable_readOnly.of_ok hcheck
  obtain rfl := (createOffSessionPaymentIntent_readOnly _).of_ok hcharge
  have hsame : paid.subscriptions = charged.subscriptions := by
    let R : MarketDb → MarketDb → Prop := fun db db' => db'.subscriptions = db.subscriptions
    have hinsert : R charged purchased :=
      (insertMarketPurchase_within (R := R) (fun _ => rfl) fun _ => rfl).of_ok hpurchase
    have hpay : R purchased paid :=
      (insertMarketPayment_within (R := R) (fun _ => rfl) fun _ => rfl).of_ok hpayment
    exact hpay.trans hinsert
  obtain ⟨_, rfl⟩ := Prod.mk.inj (Option.some.inj (execute_eq_ok hadvance))
  rw [((fulfillPurchase_within _ _ _).of_ok hadvanced).subscriptions, MarketDb.advance,
    MarketDb.advance, MarketDb.updateSubscription, MarketDb.updateSubscription, hsame]

/-- A renewal sets the renewal date one period after the one before. -/
theorem dueAt_of_renewOne {env : Env} {stripe : StripeApi} {purchaseType : PurchaseType}
    {subscription : MarketSubscription} {due : Instant}
    (h : renewOne chrono env stripe purchaseType subscription db = .ok () db')
    (hget : db.subscriptions.get id = some subscription)
    (hdue : subscription.renewsAt = some due) :
    db'.dueAt id = some (advanceByPeriod chrono due subscription.period) := by
  obtain rfl : subscription.id = id := Table.key_of_get hget
  have hdueAt : db.dueAt subscription.id = some due := by
    rw [MarketDb.dueAt, hget, Option.bind_some, hdue]
  rw [MarketDb.dueAt, subscriptions_of_renewOne h, ← MarketDb.dueAt, dueAt_advance hdueAt,
    if_pos rfl, nextRenewal, hdue, Option.getD_some]

theorem period_of_renewOne {env : Env} {stripe : StripeApi} {purchaseType : PurchaseType}
    {subscription : MarketSubscription}
    (h : renewOne chrono env stripe purchaseType subscription db = .ok () db')
    (hget : db.subscriptions.get id = some subscription) :
    (db'.subscriptions.get id).map (·.period) = some subscription.period := by
  obtain rfl : subscription.id = id := Table.key_of_get hget
  rw [subscriptions_of_renewOne h, MarketDb.advance, MarketDb.updateSubscription, Serial.get_modify,
    if_pos rfl, hget]
  rfl

/-- Every renewal date is one period after the one before, from the purchase on. -/
theorem Billed.dates_eq {dates : List Instant} (h : Billed chrono id period purchased db dates) :
    (db.subscriptions.get id).map (·.period) = some period ∧
      db.dueAt id = some (renewalDate chrono period purchased dates.length) ∧
      dates = (List.range dates.length).map fun j =>
        renewalDate chrono period purchased (j + 1) := by
  induction h with
  | checkout hhandle hnow hnext hget hperiod hrenewsAt =>
    subst hnow hnext hperiod
    have hfirst := renewsAt_of_checkout hhandle hget hrenewsAt
    refine ⟨by rw [hget]; rfl, ?_, ?_⟩
    · rw [MarketDb.dueAt, hget, Option.bind_some, hrenewsAt, hfirst]
      rfl
    · rw [hfirst]
      rfl
  | renew _ hget hdue hrenew hdueAt ih =>
    obtain ⟨hperiod, hbefore, hdates⟩ := ih
    rw [hget] at hperiod
    obtain rfl := Option.some.inj hperiod
    rw [MarketDb.dueAt, hget, Option.bind_some] at hbefore
    have hafter := dueAt_of_renewOne hrenew hget hbefore
    rw [← renewalDate_succ] at hafter
    obtain rfl := Option.some.inj (hdueAt.symm.trans hafter)
    refine ⟨period_of_renewOne hrenew hget, ?_, ?_⟩
    · rw [hdueAt, List.length_append, List.length_singleton]
    · rw [List.length_append, List.length_singleton, List.range_succ, List.map_append, ← hdates]
      rfl
  | @other db db' dates _ hsame ih =>
    obtain ⟨hperiod, hbefore, hdates⟩ := ih
    have hperiod' := congrArg (Option.map Prod.fst) hsame
    have hdue' := congrArg (fun row => row.bind Prod.snd) hsame
    simp only [Option.map_map, Option.bind_map] at hperiod' hdue'
    exact ⟨hperiod'.trans hperiod, hdue'.trans hbefore, hdates⟩

theorem Billed.dates_ne_nil {dates : List Instant}
    (h : Billed chrono id period purchased db dates) : dates ≠ [] := by
  induction h with
  | checkout => simp
  | renew => simp
  | other _ _ ih => exact ih

/-- The renewal dates go forward from the purchase in one step as long as they can be
represented and no short month holds them back. -/
theorem renewalDate_eq_addMonths_iff (h : chrono.Clamps latest) (k : Nat) :
    (∀ j, 1 ≤ j → j ≤ k + 1 → addMonths purchased (j * period.months) ≤ latest ∧
      renewalDate chrono period purchased j = addMonths purchased (j * period.months)) ↔
      addMonths purchased ((k + 1) * period.months) ≤ latest ∧
        Undrifted (dateOf purchased) period.months (k + 1) := by
  have hpos := PurchasePeriod.months_pos period
  have hstep (j : Nat) : j * period.months + period.months = (j + 1) * period.months :=
    (Nat.succ_mul _ _).symm
  constructor
  · intro hclosed
    refine ⟨(hclosed (k + 1) (by omega) le_rfl).1, fun j hj hj' => ?_⟩
    have hnext := (hclosed (j + 1) (by omega) (by omega)).2
    rw [renewalDate_succ, (hclosed j hj' (by omega)).2, advanceByPeriod_eq h] at hnext
    split at hnext
    · rw [← hstep] at hnext ⊢
      exact (addMonths_addMonths_eq_iff _ _ _).mp hnext
    · have hmonths : j * period.months < (j + 1) * period.months := by
        rw [← hstep]
        omega
      have hlt := addMonths_lt_addMonths purchased hmonths
      rw [hnext] at hlt
      exact absurd hlt (lt_irrefl _)
  · rintro ⟨hlatest, hundrifted⟩ j hj hjk
    have hle : ∀ i, i ≤ k + 1 → addMonths purchased (i * period.months) ≤ latest := by
      intro i hi
      rcases Nat.eq_or_lt_of_le hi with rfl | hlt
      · exact hlatest
      · exact (addMonths_lt_addMonths purchased
          (Nat.mul_lt_mul_of_pos_right hlt hpos)).le.trans hlatest
    refine ⟨hle j hjk, ?_⟩
    induction j, hj using Nat.le_induction with
    | base =>
      have hfirst := hle 1 (by omega)
      rw [Nat.one_mul] at hfirst ⊢
      rw [renewalDate_succ, advanceByPeriod_eq h]
      exact if_pos hfirst
    | succ j hj ih =>
      have hsame : addMonths (addMonths purchased (j * period.months)) period.months =
          addMonths purchased ((j + 1) * period.months) := by
        rw [← hstep, addMonths_addMonths_eq_iff, hstep]
        exact hundrifted j (by omega) hj
      rw [renewalDate_succ, ih (by omega), advanceByPeriod_eq h, hsame, if_pos (hle _ hjk)]

theorem onBillingDay_of_closed (h : chrono.Clamps latest) {dates : List Instant}
    (hdates : dates = (List.range dates.length).map fun j =>
      renewalDate chrono period purchased (j + 1))
    (hclosed : ∀ j, 1 ≤ j → j ≤ dates.length → addMonths purchased (j * period.months) ≤ latest ∧
      renewalDate chrono period purchased j = addMonths purchased (j * period.months)) :
    OnBillingDay chrono period purchased dates := by
  have hget : ∀ j (hj : j < dates.length),
      dates[j] = addMonths purchased ((j + 1) * period.months) := by
    intro j hj
    have hj' : dates[j]? = some (renewalDate chrono period purchased (j + 1)) := by
      rw [hdates, List.getElem?_map, List.getElem?_range hj]
      rfl
    rw [List.getElem?_eq_getElem hj] at hj'
    rw [Option.some.inj hj', (hclosed (j + 1) (by omega) (by omega)).2]
  constructor
  case closed =>
    intro j hj
    rw [h.checkedAddMonths, if_pos (hclosed (j + 1) (by omega) (by omega)).1, hget]
  case annual =>
    rintro rfl hj
    have hlatest := (hclosed 12 (by omega) (by omega)).1
    rw [advanceByPeriod_eq h, hget]
    exact (if_pos hlatest).symm
  case later =>
    rw [List.pairwise_iff_getElem]
    intro i j hi hj hij
    rw [hget, hget]
    refine addMonths_lt_addMonths purchased ?_
    exact Nat.mul_lt_mul_of_pos_right (by omega) (PurchasePeriod.months_pos period)
  case day =>
    intro date hdate
    obtain ⟨j, hj, rfl⟩ := List.getElem_of_mem hdate
    rw [hget, dateOf_addMonths, monthIndex_addMonths, day_addMonths]
    exact min_eq_left

theorem OnBillingDay.closed_renewalDate (h : chrono.Clamps latest) {dates : List Instant}
    (hdates : dates = (List.range dates.length).map fun j =>
      renewalDate chrono period purchased (j + 1))
    (hday : OnBillingDay chrono period purchased dates) (j : Nat) (hj : 1 ≤ j)
    (hle : j ≤ dates.length) :
    addMonths purchased (j * period.months) ≤ latest ∧
      renewalDate chrono period purchased j = addMonths purchased (j * period.months) := by
  obtain ⟨i, rfl⟩ := Nat.exists_eq_add_of_le' hj
  have hget : dates[i]? = some (renewalDate chrono period purchased (i + 1)) := by
    rw [hdates, List.getElem?_map, List.getElem?_range (by omega)]
    rfl
  have hclosed := hday.closed i (by omega)
  rw [h.checkedAddMonths, ← List.getElem?_eq_getElem, hget] at hclosed
  split at hclosed
  · rename_i hlatest
    exact ⟨hlatest, (Option.some.inj hclosed).symm⟩
  · cases hclosed

end

/-- The billing day of a subscription does not drift if and only if its dates can be represented
and, from the month after the purchase on, no month that is too short for the day of the purchase
is followed by a longer one. -/
theorem onBillingDay_iff_undrifted (chrono : Chrono) (latest : Instant)
    (hclamps : chrono.Clamps latest) (id : Nat) (period : PurchasePeriod) (purchased : Instant)
    (db : MarketDb) (dates : List Instant) (h : Billed chrono id period purchased db dates) :
    OnBillingDay chrono period purchased dates ↔
      addMonths purchased (dates.length * period.months) ≤ latest ∧
        Undrifted (dateOf purchased) period.months dates.length := by
  obtain ⟨_, _, hdates⟩ := h.dates_eq
  obtain ⟨k, hk⟩ := Nat.exists_eq_succ_of_ne_zero (List.length_eq_zero_iff.not.mpr h.dates_ne_nil)
  have hiff := @renewalDate_eq_addMonths_iff _ _ purchased period hclamps k
  rw [← Nat.succ_eq_add_one, ← hk] at hiff
  rw [← hiff]
  constructor
  · intro hday j hj hle
    exact hday.closed_renewalDate hclamps hdates j hj hle
  · exact onBillingDay_of_closed hclamps hdates

/-- The dates up to an instant. -/
def gregorianChrono (latest : Instant) : Chrono where
  checkedAddMonths instant months :=
    if addMonths instant months ≤ latest then some (addMonths instant months) else none
  lt_of_checkedAddMonths := by
    intro instant months later hmonths h
    split at h
    · obtain rfl := Option.some.inj h
      exact lt_addMonths instant hmonths
    · cases h

theorem gregorianChrono_clamps (latest : Instant) : (gregorianChrono latest).Clamps latest :=
  ⟨fun _ _ => rfl⟩

/-- The last representable instant of chrono. -/
def chronoLatest : Instant := days (dayNumber ⟨262143, 1, 1⟩) - 1

def noon (date : Date) : Instant := days (dayNumber date) + 43200000000

/-- The completed checkout of the storage product, paid by a card that can be charged again. -/
def paidSession : CheckoutSession :=
  { storageSession with customer := some "cus_1", paymentIntent := some "pi_1" }

/-- A market whose user has bought the storage product on New Year's Eve. -/
def boughtMarket : MarketDb :=
  finalState (handleCheckoutSessionCompleted (gregorianChrono chronoLatest)
    { now := noon ⟨2025, 12, 31⟩ } (fun _ => some ⟨some "pm_1", none⟩) paidSession storageMarket)

/-- The only subscription is renewed at an instant. -/
def renewAt (now : Instant) : MarketM Unit := do
  let subscription ← okOr ((← get).subscriptions.get 1) ⟨.notFound, "subscription_not_found"⟩
  renewOne (gregorianChrono chronoLatest) { now := now } { charge := fun _ => .succeeded "pi_2" }
    .mediaStorage subscription

theorem billed_boughtMarket :
    Billed (gregorianChrono chronoLatest) 1 .monthly (noon ⟨2025, 12, 31⟩) boughtMarket
      [noon ⟨2026, 1, 31⟩] :=
  @Billed.checkout _ _ _ _ { now := noon ⟨2025, 12, 31⟩ } (fun _ => some ⟨some "pm_1", none⟩)
    paidSession storageMarket boughtMarket _ _ rfl rfl rfl rfl rfl rfl

theorem Billed.renewAt {dates : List Instant} {db : MarketDb} {now renewsAt : Instant}
    (h : Billed (gregorianChrono chronoLatest) 1 .monthly (noon ⟨2025, 12, 31⟩) db dates)
    (hdue : (db.subscriptions.get 1).any (fun row => row.due .mediaStorage now) = true)
    (hrenew : succeeded (renewAt now db) = true)
    (hdueAt : (finalState (renewAt now db)).dueAt 1 = some renewsAt) :
    Billed (gregorianChrono chronoLatest) 1 .monthly (noon ⟨2025, 12, 31⟩)
      (finalState (renewAt now db)) (dates ++ [renewsAt]) := by
  cases hget : db.subscriptions.get 1 with
  | none => simp [hget] at hdue
  | some subscription =>
    have hrun : Market.renewAt now db =
        renewOne (gregorianChrono chronoLatest) { now := now }
          { charge := fun _ => .succeeded "pi_2" } .mediaStorage subscription db := by
      have hfound : (okOr (db.subscriptions.get 1) ⟨.notFound, "subscription_not_found"⟩ :
          MarketM MarketSubscription) db = .ok subscription db := by rw [hget, okOr_some]
      exact bind_of_ok hfound
    rw [hget, Option.any_some] at hdue
    cases hresult : Market.renewAt now db with
    | error e db' => simp [hresult] at hrenew
    | ok _ db' =>
      rw [hresult, finalState_ok] at hdueAt
      exact .renew h hget hdue (hrun.symm.trans hresult) hdueAt

/-- The renewals of that subscription in January and February. -/
def renewedMarket : MarketDb := finalState (renewAt (noon ⟨2026, 1, 31⟩) boughtMarket)

theorem billed_renewedMarket :
    Billed (gregorianChrono chronoLatest) 1 .monthly (noon ⟨2025, 12, 31⟩) renewedMarket
      [noon ⟨2026, 1, 31⟩, noon ⟨2026, 2, 28⟩] :=
  billed_boughtMarket.renewAt (by decide +kernel) (by decide +kernel) (by decide +kernel)

/-- A subscription bought on the last day of a year is charged at the ends of January and of
February. -/
theorem onBillingDay_newYearsEve :
    OnBillingDay (gregorianChrono chronoLatest) .monthly (noon ⟨2025, 12, 31⟩)
      [noon ⟨2026, 1, 31⟩, noon ⟨2026, 2, 28⟩] :=
  (onBillingDay_iff_undrifted (gregorianChrono chronoLatest) chronoLatest
    (gregorianChrono_clamps _) 1 .monthly (noon ⟨2025, 12, 31⟩) renewedMarket _
    billed_renewedMarket).mpr (by decide +kernel)

/-- From then on it is charged on the 28th. -/
theorem billing_day_drifts :
    ¬ ∀ (chrono : Chrono) (latest : Instant), chrono.Clamps latest →
      ∀ (id : Nat) (period : PurchasePeriod) (purchased : Instant) (db : MarketDb)
        (dates : List Instant), Billed chrono id period purchased db dates →
          OnBillingDay chrono period purchased dates := by
  intro h
  have hbilled : Billed (gregorianChrono chronoLatest) 1 .monthly (noon ⟨2025, 12, 31⟩)
      (finalState (renewAt (noon ⟨2026, 2, 28⟩) renewedMarket))
      [noon ⟨2026, 1, 31⟩, noon ⟨2026, 2, 28⟩, noon ⟨2026, 3, 28⟩] :=
    billed_renewedMarket.renewAt (by decide +kernel) (by decide +kernel) (by decide +kernel)
  have hclosed := (h _ _ (gregorianChrono_clamps _) _ _ _ _ _ hbilled).closed 2 (by decide)
  exact absurd hclosed (by decide +kernel)

end Rellm.Market
