import Rellm.Market.Served

/-!
# The latest entitlement

Along a run of operations, the storage limit of a buyer is what the latest
fulfillment or termination of one of the buyer's subscriptions set. As nothing looks
at the other subscriptions, a termination sets the limit back to the server's default
also while another subscription is in effect.
-/

namespace Rellm.Market

open Foundation Calendar

/-- What set the storage limit of a buyer: a subscription that was fulfilled, or the termination
of one. -/
inductive Latest where
  | fulfilled (subscriptionId : Nat) (bytes : Int64)
  | reverted (limit : Option Int64)
  deriving DecidableEq, Repr

/-- The limit that was set. -/
def Latest.limit : Latest → Option Int64
  | fulfilled _ bytes => some bytes
  | reverted limit => limit

/-- What an operation does to the storage limit of a buyer, in order: it fulfills a recorded
checkout or renewed subscriptions of the buyer, or terminates some. -/
def Operation.entitles (buyerId : Nat) (db : MarketDb) : Operation → List Latest
  | .checkout now stripe session =>
    ((session.pending { now := now } stripe db).bind fun checkout =>
      (granted buyerId checkout.product.productType checkout.buyerId checkout.details).map
        (.fulfilled db.subscriptions.next)).toList
  | .renew now stripeConfig stripe purchaseType =>
    if (usableServerStripeConfig { now := now, stripeConfig := stripeConfig }).isSome then
      (db.dueSubscriptions purchaseType now).filterMap fun subscription =>
        (if renewable { now := now, stripeConfig := stripeConfig } stripe purchaseType db
            subscription then
          granted buyerId purchaseType subscription.buyerId subscription.details
        else none).map (.fulfilled subscription.id)
    else []
  | .terminate now configuration purchaseType =>
    (db.terminableSubscriptions purchaseType now).filterMap fun subscription =>
      (revoked buyerId configuration purchaseType subscription.buyerId).map .reverted
  | .cancel _ _ _ | .updateProduct _ _ _ => []

/-- The tables, and what set the storage limit of a buyer last. -/
structure Entitled where
  db : MarketDb
  latest : Option Latest := none

/-- What an operation makes of the state. -/
def Entitled.step (chrono : Chrono) (buyerId : Nat) (s : Entitled) (operation : Operation) :
    Entitled where
  db := Operation.step chrono s.db operation
  latest := (operation.entitles buyerId s.db).getLast?.or s.latest

/-- The subscription gives storage to a buyer, and its service is not terminated. -/
def MarketSubscription.InEffect (buyerId : Nat) (subscription : MarketSubscription) : Prop :=
  subscription.buyerId = buyerId ∧ subscription.productType = .mediaStorage ∧
    subscription.serviceTerminatedAt = none

instance (buyerId : Nat) (subscription : MarketSubscription) :
    Decidable (subscription.InEffect buyerId) := inferInstanceAs (Decidable (_ ∧ _))

/-- A subscription of the buyer is in effect and allocates some storage. -/
def Allocates (buyerId : Nat) (db : MarketDb) (subscriptionId : Nat) (bytes : Int64) : Prop :=
  ∃ subscription, db.subscriptions.get subscriptionId = some subscription ∧
    subscription.InEffect buyerId ∧ subscription.details.allocation = some bytes

/-- The storage limit is what was set last; a subscription that was fulfilled last is in effect,
and allocates the limit. -/
structure FollowsLatest (buyerId : Nat) (initial : Option Int64) (s : Entitled) : Prop where
  limit : storageLimit buyerId s.db = (s.latest.map Latest.limit).getD initial
  inEffect : ∀ subscriptionId bytes, s.latest = some (.fulfilled subscriptionId bytes) →
    Allocates buyerId s.db subscriptionId bytes

section

variable {chrono : Chrono} {env : Env} {stripe : StripeApi} {purchaseType : PurchaseType}
variable {db db' : MarketDb} {buyerId : Nat} {now : Instant}

theorem Allocates.mono {subscriptionId : Nat} {bytes : Int64}
    (h : Allocates buyerId db subscriptionId bytes) (hsame : SameService db db') :
    Allocates buyerId db' subscriptionId bytes := by
  obtain ⟨subscription, hget, ⟨hbuyer, htype, hterminated⟩, hallocation⟩ := h
  obtain ⟨subscription', hget', hserved⟩ := hsame.kept _ _ hget
  refine ⟨subscription', hget', ⟨?_, ?_, ?_⟩, ?_⟩
  · exact hserved.buyerId.trans hbuyer
  · exact hserved.productType.trans htype
  · exact hserved.serviceTerminatedAt.trans hterminated
  · rw [hserved.details, hallocation]

theorem granted_eq_some {payerId : Nat} {details : DetailsJson} {bytes : Int64}
    (h : granted buyerId purchaseType payerId details = some bytes) :
    purchaseType = .mediaStorage ∧ payerId = buyerId ∧ details.allocation = some bytes := by
  rw [granted] at h
  split at h
  · rename_i hboth
    exact ⟨hboth.1, hboth.2, h⟩
  · cases h

/-- What a completed checkout sets. -/
theorem storageLimit_checkout (paymentMethods : String → Option PaymentIntentPaymentMethod)
    (session : CheckoutSession) (hbuyer : (db.users.get buyerId).isSome = true) :
    storageLimit buyerId (Operation.step chrono db (.checkout now paymentMethods session)) =
      ((Operation.entitles buyerId db (.checkout now paymentMethods session)).getLast?.map
        Latest.limit).getD (storageLimit buyerId db) := by
  rw [Operation.step, Operation.entitles]
  rcases @handle_undisturbed chrono db { now := now } session paymentMethods fun _ => rfl with
    ⟨hnone, hsame⟩ | ⟨checkout, hpending, hfulfilled⟩
  · rw [hsame, hnone]
    rfl
  · obtain ⟨hcheckout, _⟩ := Option.filter_eq_some_iff.mp hpending
    have hfault : checkout.env.faults .updateStorageLimit = false := by
      rw [(Checkout.of_eq_some hcheckout).env]
    have hrecorded : storageLimit buyerId (checkout.recorded chrono db) =
        storageLimit buyerId db := rfl
    have hlimit := @storageLimit_fulfillPurchase checkout.env checkout.product.productType
      (checkout.recorded chrono db) buyerId checkout.buyerId checkout.details hfault hbuyer
    rw [hrecorded] at hlimit
    rw [hfulfilled, hpending, Option.bind_some]
    refine hlimit.trans ?_
    cases granted buyerId checkout.product.productType checkout.buyerId checkout.details <;> rfl

/-- Renewing a subscription, or ending it, decides nothing about the others. -/
theorem renewOrEnd_keeps (hfault : env.faults .endSubscription = false)
    (subscription : MarketSubscription) :
    (∀ other, renewable env stripe purchaseType
        (finalState (renewOrEnd chrono env stripe purchaseType subscription db)) other =
          renewable env stripe purchaseType db other) ∧
      ∀ id, ((finalState (renewOrEnd chrono env stripe purchaseType subscription db)).users.get
        id).isSome = (db.users.get id).isSome := by
  obtain ⟨_, hkeeps, hends⟩ :=
    @renewOrEnd_cases chrono env stripe purchaseType db hfault subscription
  generalize finalState (renewOrEnd chrono env stripe purchaseType subscription db) = db'
    at hkeeps hends ⊢
  cases hrenewable : renewable env stripe purchaseType db subscription with
  | true =>
    have hsame := hkeeps hrenewable
    exact ⟨fun other => renewable_sameSlots hsame other, hsame.users⟩
  | false =>
    obtain ⟨between, hsame, rfl⟩ := hends hrenewable
    refine ⟨fun other => ?_, hsame.users⟩
    rw [renewable_cancel, renewable_sameSlots hsame]

/-- What renewing subscriptions, or ending them, sets. -/
theorem storageLimit_renewAll (hfaults : ∀ statement, env.faults statement = false)
    (hbuyer : (db.users.get buyerId).isSome = true) (due : List MarketSubscription) :
    storageLimit buyerId
        (finalState (due.forM (renewOrEnd chrono env stripe purchaseType) db)) =
      ((due.filterMap fun subscription =>
        (if renewable env stripe purchaseType db subscription then
          granted buyerId purchaseType subscription.buyerId subscription.details
        else none).map some).getLast?).getD (storageLimit buyerId db) := by
  have hsucceeds (s : MarketSubscription) (db : MarketDb) :
      succeeded (renewOrEnd chrono env stripe purchaseType s db) = true :=
    (renewOrEnd_cases (hfaults _) s).1
  rw [forM_of_succeeded hsucceeds, finalState_ok]
  -- which subscriptions are renewable stays as it was before the loop
  refine foldl_lastWrite (I := fun db' => (∀ other, renewable env stripe purchaseType db' other =
    renewable env stripe purchaseType db other) ∧ (db'.users.get buyerId).isSome = true)
    _ ?_ ?_ ⟨fun _ => rfl, hbuyer⟩
  · intro db' s _ ⟨hrenewable, hbuyer'⟩
    obtain ⟨hkeeps, husers⟩ := renewOrEnd_keeps (hfaults _) s
    exact ⟨fun other => (hkeeps other).trans (hrenewable other), (husers buyerId).trans hbuyer'⟩
  · intro db' s _ ⟨hrenewable, hbuyer'⟩
    rw [storageLimit_renewOrEnd hfaults hbuyer', hrenewable]
    split
    · cases granted buyerId purchaseType s.buyerId s.details <;> rfl
    · rfl

/-- What a renewal run sets. -/
theorem storageLimit_renew (stripeConfig : Option StripeConfig)
    (hbuyer : (db.users.get buyerId).isSome = true) :
    storageLimit buyerId (Operation.step chrono db (.renew now stripeConfig stripe purchaseType)) =
      ((Operation.entitles buyerId db (.renew now stripeConfig stripe purchaseType)).getLast?.map
        Latest.limit).getD (storageLimit buyerId db) := by
  rw [Operation.step, Operation.entitles, renewSubscriptionsOfType]
  generalize henv : ({ now := now, stripeConfig := stripeConfig } : Env) = env
  have hfaults (statement : Statement) : env.faults statement = false := by rw [← henv]
  have hnow : env.now = now := by rw [← henv]
  have hdue : getDueMarketSubscriptions env purchaseType db =
      .ok (db.dueSubscriptions purchaseType env.now) db := execute_ok (hfaults _) rfl
  rw [bind_of_ok hdue, hnow]
  cases usableServerStripeConfig env with
  | none =>
    have hends : Within SameLimits ((db.dueSubscriptions purchaseType now).forM fun subscription =>
        endSubscription env subscription.id) := by
      refine Within.forM SameLimits.refl SameLimits.trans fun subscription _ db => ?_
      rw [endSubscription_apply (hfaults _)]
      exact .of_users rfl
    exact (hends db).limits buyerId
  | some config =>
    dsimp only
    rw [storageLimit_renewAll hfaults hbuyer, Option.isSome_some, if_pos rfl,
      ← List.getLast?_map, List.map_filterMap]
    simp only [Option.map_map]
    rfl

/-- Terminating the service of a subscription sets the limit back, and removes no user. -/
theorem terminateOrSkip_sets (hfaults : ∀ statement, env.faults statement = false)
    (hbuyer : (db.users.get buyerId).isSome = true) (subscription : MarketSubscription) :
    storageLimit buyerId (finalState (terminateOrSkip env purchaseType subscription db)) =
        (revoked buyerId env.serverConfiguration purchaseType subscription.buyerId).getD
          (storageLimit buyerId db) ∧
      ((finalState (terminateOrSkip env purchaseType subscription db)).users.get buyerId).isSome =
        true := by
  have hlimit := @storageLimit_terminateEntitlement env purchaseType db buyerId
    subscription.buyerId subscription.details (hfaults _) hbuyer
  have husers := (@terminateEntitlement_within env purchaseType subscription.buyerId
    subscription.details db).users buyerId
  rw [terminateOrSkip, terminateOne]
  cases hterminate : terminateEntitlement env purchaseType subscription.buyerId
    subscription.details db with
  | error e revokedDb =>
    rw [hterminate] at hlimit husers
    rw [recover_bind_of_error hterminate]
    exact ⟨hlimit, husers.trans hbuyer⟩
  | ok _ revokedDb =>
    rw [hterminate] at hlimit husers
    rw [recover_bind_of_ok hterminate, recover_of_ok (stampTermination_apply (hfaults _) _)]
    exact ⟨hlimit, husers.trans hbuyer⟩

/-- A termination run terminates its subscriptions one after the other. -/
theorem terminate_eq_foldl (configuration : Option ServerConfiguration) :
    Operation.step chrono db (.terminate now configuration purchaseType) =
      (db.terminableSubscriptions purchaseType now).foldl (fun db subscription =>
        finalState (terminateOrSkip { now := now, serverConfiguration := configuration }
          purchaseType subscription db)) db := by
  have hterminable : getTerminableMarketSubscriptions
      { now := now, serverConfiguration := configuration } purchaseType db =
        .ok (db.terminableSubscriptions purchaseType now) db := execute_ok rfl rfl
  rw [Operation.step, terminateSubscriptionsOfType, bind_of_ok hterminable,
    forM_of_succeeded, finalState_ok]
  intro subscription db
  rw [terminateOrSkip, recover]
  split <;> rfl

/-- What a termination run sets. -/
theorem storageLimit_terminate (configuration : Option ServerConfiguration)
    (hbuyer : (db.users.get buyerId).isSome = true) :
    storageLimit buyerId (Operation.step chrono db (.terminate now configuration purchaseType)) =
      ((Operation.entitles buyerId db (.terminate now configuration purchaseType)).getLast?.map
        Latest.limit).getD (storageLimit buyerId db) := by
  rw [terminate_eq_foldl, Operation.entitles, ← List.getLast?_map, List.map_filterMap]
  generalize henv : ({ now := now, serverConfiguration := configuration } : Env) = env
  have hfaults (statement : Statement) : env.faults statement = false := by rw [← henv]
  have hconfiguration : env.serverConfiguration = configuration := by rw [← henv]
  refine (foldl_lastWrite (I := fun db => (db.users.get buyerId).isSome = true)
    (fun s => revoked buyerId configuration purchaseType s.buyerId) ?_ ?_ hbuyer).trans ?_
  · intro db s _ hbuyer'
    exact (terminateOrSkip_sets hfaults hbuyer' s).2
  · intro db s _ hbuyer'
    rw [← hconfiguration]
    exact (terminateOrSkip_sets hfaults hbuyer' s).1
  · simp only [Option.map_map]
    have hlimit : Latest.limit ∘ Latest.reverted = id := rfl
    rw [hlimit]
    simp

/-- No operation removes a user. -/
theorem isSome_user_step (db : MarketDb) (operation : Operation)
    (h : (db.users.get buyerId).isSome = true) :
    ((Operation.step chrono db operation).users.get buyerId).isSome = true := by
  cases operation with
  | checkout now paymentMethods session =>
    rw [Operation.step]
    rcases @handle_undisturbed chrono db { now := now } session paymentMethods fun _ => rfl with
      ⟨_, hsame⟩ | ⟨checkout, _, hfulfilled⟩
    · rw [hsame]
      exact h
    · rw [hfulfilled, checkout.fulfilled_onlyUsers.users]
      exact h
  | cancel now subscriptionId caller =>
    rw [Operation.step]
    rcases @cancelMarketSubscription_cases { now := now } db subscriptionId caller with
      hsame | ⟨row, _, _, hcancels⟩
    · rw [hsame]
      exact h
    · rw [hcancels]
      exact h
  | renew now stripeConfig stripe purchaseType =>
    have husers : Within (fun db db' : MarketDb => ∀ id,
        (db'.users.get id).isSome = (db.users.get id).isSome)
        (renewSubscriptionsOfType chrono { now := now, stripeConfig := stripeConfig } stripe
          purchaseType) :=
      renewSubscriptionsOfType_within (fun _ _ => rfl)
        (fun _ _ _ h h' id => (h' id).trans (h id))
        (fun _ => renewOne_keepsSlots.mono fun _ _ hslots => hslots.users) fun _ _ _ => rfl
    exact (husers db buyerId).trans h
  | terminate now configuration purchaseType =>
    have hslots := @terminateSubscriptionsOfType_keepsSlots
      { now := now, serverConfiguration := configuration } purchaseType db
    exact (hslots.users buyerId).trans h
  | updateProduct now request caller =>
    rw [Operation.step]
    rcases @updateMarketProduct_cases { now := now } db caller request with
      hsame | ⟨existing, _, hwrite⟩
    · rw [hsame]
      exact h
    · rw [hwrite]
      exact h

/-- An operation sets the storage limit as the last of what it does to it. -/
theorem storageLimit_step (db : MarketDb) (operation : Operation)
    (hbuyer : (db.users.get buyerId).isSome = true) :
    storageLimit buyerId (Operation.step chrono db operation) =
      ((operation.entitles buyerId db).getLast?.map Latest.limit).getD
        (storageLimit buyerId db) := by
  cases operation with
  | checkout now paymentMethods session => exact storageLimit_checkout paymentMethods session hbuyer
  | renew now stripeConfig stripe purchaseType => exact storageLimit_renew stripeConfig hbuyer
  | terminate now configuration purchaseType => exact storageLimit_terminate configuration hbuyer
  | cancel now subscriptionId caller =>
    rw [Operation.step, Operation.entitles]
    rcases @cancelMarketSubscription_cases { now := now } db subscriptionId caller with
      hsame | ⟨row, _, _, hcancels⟩
    · rw [hsame]
      rfl
    · rw [hcancels]
      rfl
  | updateProduct now request caller =>
    rw [Operation.step, Operation.entitles]
    rcases @updateMarketProduct_cases { now := now } db caller request with
      hsame | ⟨existing, _, hwrite⟩
    · rw [hsame]
      rfl
    · rw [hwrite]
      rfl

/-- Only a termination run ends services. -/
theorem sameService_step (db : MarketDb) (operation : Operation)
    (h : ∀ now configuration purchaseType,
      operation ≠ .terminate now configuration purchaseType) :
    SameService db (Operation.step chrono db operation) := by
  cases operation with
  | checkout now paymentMethods session =>
    rw [Operation.step]
    rcases @handle_undisturbed chrono db { now := now } session paymentMethods fun _ => rfl with
      ⟨_, hsame⟩ | ⟨checkout, _, hfulfilled⟩
    · rw [hsame]
      exact .refl db
    · rw [hfulfilled]
      exact checkout.sameService
  | cancel now subscriptionId caller =>
    rw [Operation.step]
    rcases @cancelMarketSubscription_cases { now := now } db subscriptionId caller with
      hsame | hcancels
    · rw [hsame]
      exact .refl db
    · exact hcancels.sameService
  | renew now stripeConfig stripe purchaseType =>
    exact renewSubscriptionsOfType_keepsService db
  | terminate now configuration purchaseType => exact absurd rfl (h now configuration purchaseType)
  | updateProduct now request caller =>
    rw [Operation.step]
    rcases @updateMarketProduct_cases { now := now } db caller request with
      hsame | ⟨existing, _, hwrite⟩
    · rw [hsame]
      exact .refl db
    · rw [hwrite]
      exact .of_subscriptions rfl

/-- A termination run stamps canceled subscriptions only. -/
theorem terminatedCanceled_terminate (configuration : Option ServerConfiguration)
    (h : TerminatedCanceled db) :
    TerminatedCanceled (Operation.step chrono db (.terminate now configuration purchaseType)) := by
  rw [terminate_eq_foldl]
  have hstart : TerminatedCanceled db ∧
      ∀ s ∈ db.terminableSubscriptions purchaseType now, ∀ row,
        db.subscriptions.get s.id = some row → row.canceledAt.isSome = true := by
    refine ⟨h, fun s hs row hrow => ?_⟩
    obtain ⟨hget, _, hcanceled⟩ := MarketDb.get_of_mem_terminableSubscriptions hs
    obtain rfl := Option.some.inj (hget.symm.trans hrow)
    exact hcanceled
  refine (List.foldlRecOn (motive := fun db' => TerminatedCanceled db' ∧
    ∀ s ∈ db.terminableSubscriptions purchaseType now, ∀ row,
      db'.subscriptions.get s.id = some row → row.canceledAt.isSome = true) _ _ hstart ?_).1
  intro db' ⟨hsound, hcanceled⟩ s hs
  obtain ⟨revokedDb, husers, hfinal⟩ := @terminateOrSkip_cases
    { now := now, serverConfiguration := configuration } purchaseType db' s rfl
  have hrevoked : TerminatedCanceled revokedDb := by
    rw [TerminatedCanceled, husers.subscriptions]
    exact hsound
  rw [← husers.subscriptions] at hcanceled
  rcases hfinal with hfinal | ⟨_, hfinal⟩
  · rw [hfinal]
    exact ⟨hrevoked, hcanceled⟩
  · rw [hfinal]
    constructor
    · intro row hrow hterminated
      rcases Serial.mem_modify _ _ _ hrow with ⟨hold, _⟩ | ⟨old, hold, rfl⟩
      · exact hrevoked row hold hterminated
      · exact hcanceled s hs old hold
    · intro other hother row hrow
      rw [MarketDb.terminate, MarketDb.updateSubscription, Serial.get_modify] at hrow
      split at hrow
      · rename_i hid
        obtain ⟨old, hold, rfl⟩ := Option.map_eq_some_iff.mp hrow
        exact hcanceled other hother old hold
      · exact hcanceled other hother row hrow

/-- A termination run that sets nothing for a buyer ends no storage of the buyer. -/
theorem allocates_terminate {configuration : Option ServerConfiguration} {subscriptionId : Nat}
    {bytes : Int64} (h : Allocates buyerId db subscriptionId bytes)
    (hnone : Operation.entitles buyerId db (.terminate now configuration purchaseType) = []) :
    Allocates buyerId (Operation.step chrono db (.terminate now configuration purchaseType))
      subscriptionId bytes := by
  obtain ⟨row, hget, hinEffect, hallocation⟩ := h
  obtain ⟨hbuyer, htype, _⟩ := id hinEffect
  have hrevoked : ∀ s ∈ db.terminableSubscriptions purchaseType now,
      revoked buyerId configuration purchaseType s.buyerId = none := by
    intro s hs
    rw [Operation.entitles, List.filterMap_eq_nil_iff] at hnone
    exact Option.map_eq_none_iff.mp (hnone s hs)
  refine ⟨row, ?_, hinEffect, hallocation⟩
  rw [terminate_eq_foldl]
  refine List.foldlRecOn
    (motive := fun db' : MarketDb => db'.subscriptions.get subscriptionId = some row) _ _ hget fun db' hrow s hs => ?_
  obtain ⟨hstored, hpurchaseType, _⟩ := MarketDb.get_of_mem_terminableSubscriptions hs
  obtain ⟨revokedDb, husers, hfinal⟩ := @terminateOrSkip_cases
    { now := now, serverConfiguration := configuration } purchaseType db' s rfl
  rcases hfinal with hfinal | ⟨hterminates, hfinal⟩
  · rw [hfinal, husers.subscriptions]
    exact hrow
  · rw [hfinal, MarketDb.terminate, MarketDb.updateSubscription, Serial.get_modify,
      husers.subscriptions, if_neg, hrow]
    -- without a configuration the storage of the buyer is not terminated
    rintro rfl
    obtain rfl := Option.some.inj (hstored.symm.trans hget)
    have hconfiguration := hrevoked s hs
    rw [revoked, if_pos ⟨hpurchaseType.symm.trans htype, hbuyer⟩, Option.map_eq_none_iff]
      at hconfiguration
    rw [hpurchaseType.symm.trans htype, hconfiguration, terminateEntitlement,
      bind_of_error okOr_none] at hterminates
    cases hterminates

/-- No operation stamps a subscription that is not canceled. -/
theorem terminatedCanceled_step (db : MarketDb) (operation : Operation)
    (h : TerminatedCanceled db) : TerminatedCanceled (Operation.step chrono db operation) := by
  by_cases hterminate : ∀ now configuration purchaseType,
      operation ≠ .terminate now configuration purchaseType
  · exact (sameService_step db operation hterminate).sound h
  · simp only [not_forall, not_not] at hterminate
    obtain ⟨now, configuration, purchaseType, rfl⟩ := hterminate
    exact terminatedCanceled_terminate configuration h

/-- An operation that sets nothing for a buyer ends no storage of the buyer. -/
theorem Allocates.step {subscriptionId : Nat} {bytes : Int64}
    (h : Allocates buyerId db subscriptionId bytes) (operation : Operation)
    (hnone : operation.entitles buyerId db = []) :
    Allocates buyerId (Operation.step chrono db operation) subscriptionId bytes := by
  by_cases hterminate : ∀ now configuration purchaseType,
      operation ≠ .terminate now configuration purchaseType
  · exact h.mono (sameService_step db operation hterminate)
  · simp only [not_forall, not_not] at hterminate
    obtain ⟨now, configuration, purchaseType, rfl⟩ := hterminate
    exact allocates_terminate h hnone

/-- A subscription that an operation fulfills is in effect after it. -/
theorem allocates_of_fulfilled {subscriptionId : Nat} {bytes : Int64} {operation : Operation}
    (hsound : TerminatedCanceled db)
    (h : .fulfilled subscriptionId bytes ∈ operation.entitles buyerId db) :
    Allocates buyerId (Operation.step chrono db operation) subscriptionId bytes := by
  cases operation with
  | checkout now paymentMethods session =>
    rw [Operation.entitles, Option.mem_toList, Option.bind_eq_some_iff] at h
    obtain ⟨checkout, hpending, hset⟩ := h
    obtain ⟨_, hgranted, hlatest⟩ := Option.map_eq_some_iff.mp hset
    obtain ⟨rfl, rfl⟩ := Latest.fulfilled.inj hlatest
    obtain ⟨htype, hbuyer, hallocation⟩ := granted_eq_some hgranted
    rw [Operation.step]
    rcases @handle_undisturbed chrono db { now := now } session paymentMethods fun _ => rfl with
      ⟨hnone, _⟩ | ⟨checkout', hpending', hfulfilled⟩
    · rw [hpending] at hnone
      cases hnone
    · obtain rfl := Option.some.inj (hpending.symm.trans hpending')
      have hget : (checkout.fulfilled chrono db).subscriptions.get db.subscriptions.next =
          some { checkout.subscription chrono with
            id := db.subscriptions.next
            createdAt := checkout.env.now } := by
        rw [checkout.fulfilled_onlyUsers.subscriptions]
        exact (db.subscriptions.get_insert _ _ _).trans (if_pos rfl)
      rw [hfulfilled]
      exact ⟨_, hget, ⟨hbuyer, htype, rfl⟩, hallocation⟩
  | renew now stripeConfig stripe purchaseType =>
    rw [Operation.entitles] at h
    split at h
    · obtain ⟨subscription, hdue, hset⟩ := List.mem_filterMap.mp h
      obtain ⟨_, hgranted, hlatest⟩ := Option.map_eq_some_iff.mp hset
      obtain ⟨rfl, rfl⟩ := Latest.fulfilled.inj hlatest
      split at hgranted
      · obtain ⟨htype, hbuyer, hallocation⟩ := granted_eq_some hgranted
        obtain ⟨hget, hlive, _⟩ := MarketDb.get_of_mem_dueSubscriptions hdue
        have hterminated : subscription.serviceTerminatedAt = none := by
          have hcanceled := hsound subscription (Table.mem_rows_iff.mpr hget)
          rw [hlive] at hcanceled
          exact Option.not_isSome_iff_eq_none.mp fun hsome => Bool.false_ne_true (hcanceled hsome)
        have hproductType : subscription.productType = .mediaStorage := by
          rw [MarketDb.productType_of_mem_dueSubscriptions hdue, htype]
        have hallocates : Allocates buyerId db subscription.id _ :=
          ⟨subscription, hget, ⟨hbuyer, hproductType, hterminated⟩, hallocation⟩
        exact hallocates.mono (renewSubscriptionsOfType_keepsService db)
      · cases hgranted
    · cases h
  | terminate now configuration purchaseType =>
    rw [Operation.entitles] at h
    obtain ⟨subscription, _, hrevoked⟩ := List.mem_filterMap.mp h
    obtain ⟨_, _, hlatest⟩ := Option.map_eq_some_iff.mp hrevoked
    cases hlatest
  | cancel now subscriptionId caller => cases h
  | updateProduct now request caller => cases h

/-- A step keeps the storage limit what was set last. -/
theorem followsLatest_step {initial : Option Int64} (s : Entitled) (operation : Operation)
    (hbuyer : (s.db.users.get buyerId).isSome = true) (hsound : TerminatedCanceled s.db)
    (h : FollowsLatest buyerId initial s) :
    FollowsLatest buyerId initial (s.step chrono buyerId operation) := by
  have hlimit := @storageLimit_step chrono _ s.db operation hbuyer
  cases hlast : (operation.entitles buyerId s.db).getLast? with
  | none =>
    have hnone := List.getLast?_eq_none_iff.mp hlast
    have hlatest : (s.step chrono buyerId operation).latest = s.latest := by
      rw [Entitled.step, hlast, Option.none_or]
    rw [hlast] at hlimit
    constructor
    · rw [hlatest, ← h.limit]
      exact hlimit
    · intro subscriptionId bytes hfulfilled
      exact (h.inEffect subscriptionId bytes (hlatest ▸ hfulfilled)).step operation hnone
  | some latest =>
    have hlatest : (s.step chrono buyerId operation).latest = some latest := by
      rw [Entitled.step, hlast, Option.some_or]
    rw [hlast] at hlimit
    constructor
    · rw [hlatest]
      exact hlimit
    · intro subscriptionId bytes hfulfilled
      obtain rfl := Option.some.inj (hlatest.symm.trans hfulfilled)
      exact allocates_of_fulfilled hsound (List.mem_of_getLast? hlast)

end

/-- For every sequence of operations, the storage limit of a buyer is what was set last: the
allocation of the subscription that was fulfilled last, which is in effect, or the server's
default as it was when one was terminated since. -/
theorem limit_follows_latest (chrono : Chrono) (buyerId : Nat) (db : MarketDb)
    (hbuyer : (db.users.get buyerId).isSome = true) (hsound : TerminatedCanceled db)
    (operations : List Operation) :
    Throughout (Entitled.step chrono buyerId) (FollowsLatest buyerId (storageLimit buyerId db))
      { db := db } operations := by
  have hstep (s : Entitled) (operation : Operation)
      (h : (s.db.users.get buyerId).isSome = true ∧ TerminatedCanceled s.db ∧
        FollowsLatest buyerId (storageLimit buyerId db) s) :
      ((s.step chrono buyerId operation).db.users.get buyerId).isSome = true ∧
        TerminatedCanceled (s.step chrono buyerId operation).db ∧
        FollowsLatest buyerId (storageLimit buyerId db) (s.step chrono buyerId operation) := by
    obtain ⟨hbuyer, hsound, hlatest⟩ := h
    exact ⟨isSome_user_step s.db operation hbuyer, terminatedCanceled_step s.db operation hsound,
      followsLatest_step s operation hbuyer hsound hlatest⟩
  refine throughout_iff.mpr fun before _ => ?_
  exact (run_invariant_of_all hstep ⟨hbuyer, hsound, rfl, fun _ _ h => by cases h⟩ before).2.2

/-- The limit of a buyer follows a checkout. -/
theorem limit_follows_latest_checkout :
    Throughout (Entitled.step januaryChrono 1) (FollowsLatest 1 (storageLimit 1 storageMarket))
      { db := storageMarket } [.checkout 0 (fun _ => none) storageSession] :=
  limit_follows_latest januaryChrono 1 storageMarket (by decide) (by decide) _

/-- While subscriptions of the buyer are in effect, the limit is the allocation of one of them. -/
def EntitledAsLive (buyerId : Nat) (db : MarketDb) : Prop :=
  (∃ row ∈ db.subscriptions.rows, row.InEffect buyerId) →
    ∃ row ∈ db.subscriptions.rows, row.InEffect buyerId ∧
      row.details.allocation = storageLimit buyerId db

instance (buyerId : Nat) (db : MarketDb) : Decidable (EntitledAsLive buyerId db) :=
  inferInstanceAs (Decidable ((∃ row ∈ db.subscriptions.rows, _) →
    ∃ row ∈ db.subscriptions.rows, _ ∧ _))

/-- A termination sets the limit back to the server's default while another subscription is in
effect. -/
theorem termination_lowers_limit :
    ¬ ∀ (chrono : Chrono) (buyerId : Nat) (db : MarketDb),
      (db.users.get buyerId).isSome = true → TerminatedCanceled db → EntitledAsLive buyerId db →
      ∀ operations : List Operation,
        Throughout (Operation.step chrono) (EntitledAsLive buyerId) db operations := by
  intro h
  obtain ⟨_, _, _, _, hlast⟩ := h januaryChrono 1 storageMarket (by decide) (by decide) (by decide)
    [.checkout 0 (fun _ => none) storageSession,
      .checkout (days 10) (fun _ => none) { storageSession with id := some "cs_2" },
      .cancel (days 11) (some 1) { permissions := .array [], id := 1 },
      .terminate (days 32)
        (some { mediaSettings := some { defaultUserMediaAllocationBytes := 15000000 } })
        .mediaStorage]
  rw [throughout_nil] at hlast
  exact absurd hlast (by decide +kernel)

end Rellm.Market
