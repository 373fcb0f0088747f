import Rellm.Market.Operations

/-!
# Sold slots

The number of sold slots of a product is a counter that the operations maintain by
hand. It stays the number of subscriptions that are not canceled through every
operation but one: a renewal run that ends a subscription does not free its slot.
-/

namespace Rellm.Market

open Foundation Calendar

/-- Whether a slot of a product is held. -/
def holdsSlot (productId : Nat) (slot : Nat × Nat × Option Instant) : Bool :=
  decide (slot.2.1 = productId ∧ slot.2.2 = none)

/-- The number of subscriptions of a product that are not canceled. -/
def liveCount (productId : Nat) (db : MarketDb) : Nat :=
  db.subscriptions.rows.countP fun row => holdsSlot productId row.slot

/-- The number of sold slots of a product. -/
def soldCount (productId : Nat) (db : MarketDb) : Nat :=
  ((db.products.get productId).map (·.soldCount)).getD 0

/-- The counter is the number of subscriptions it stands for. -/
def SlotsAccounted (productId : Nat) (db : MarketDb) : Prop :=
  soldCount productId db = liveCount productId db

/-- A renewal run renews every due subscription of the product. -/
def RenewsAll (productId : Nat) (db : MarketDb) : Operation → Prop
  | .renew now stripeConfig stripe purchaseType =>
    ∀ subscription ∈ db.dueSubscriptions purchaseType now, subscription.productId = productId →
      (usableServerStripeConfig { now := now, stripeConfig := stripeConfig }).isSome = true ∧
        renewable { now := now, stripeConfig := stripeConfig } stripe purchaseType db
          subscription = true
  | _ => True

section

variable {chrono : Chrono} {env : Env} {stripe : StripeApi} {purchaseType : PurchaseType}
variable {db db' : MarketDb} {productId : Nat} {now : Instant}

theorem SameSlots.liveCount (h : SameSlots db db') :
    liveCount productId db' = liveCount productId db :=
  h.countP (holdsSlot productId)

theorem SameSlots.soldCount (h : SameSlots db db') :
    soldCount productId db' = soldCount productId db := by
  rw [Market.soldCount, h.products, Market.soldCount]

/-- Canceling a subscription that is not canceled takes it from the count. -/
theorem liveCount_cancel {row : MarketSubscription} (hrow : db.subscriptions.get row.id = some row)
    (hlive : row.canceledAt = none) :
    liveCount productId (db.cancel row.id now) + (decide (row.productId = productId)).toNat =
      liveCount productId db := by
  have hcount := db.subscriptions.countP_modify (fun row => { row with canceledAt := some now })
    (fun _ => rfl) (fun row => holdsSlot productId row.slot) hrow
  have hbefore : holdsSlot productId row.slot = decide (row.productId = productId) := by
    simp [holdsSlot, MarketSubscription.slot, hlive]
  have hafter : holdsSlot productId
      ({ row with canceledAt := some now } : MarketSubscription).slot = false := by
    simp [holdsSlot, MarketSubscription.slot]
  rw [hbefore, hafter, Bool.toNat_false, Nat.add_zero] at hcount
  exact hcount

theorem soldCount_updateSoldCount {product : MarketProduct} {f : Nat → Nat} {id : Nat}
    (h : db.products.get productId = some product) :
    soldCount productId (db.updateSoldCount id f) =
      if productId = id then f (soldCount productId db) else soldCount productId db := by
  rw [soldCount, MarketDb.updateSoldCount, Serial.get_modify, soldCount, h]
  split <;> rfl

/-- The subscription was loaded from a row that is not canceled. -/
def Loaded (db : MarketDb) (subscription : MarketSubscription) : Prop :=
  ∃ row, db.subscriptions.get subscription.id = some row ∧ row.canceledAt = none ∧
    row.productId = subscription.productId

/-- A subscription ends. -/
def Ends (now : Instant) (subscription : MarketSubscription) (db db' : MarketDb) : Prop :=
  ∃ between, SameSlots db between ∧ db' = between.cancel subscription.id now

theorem Loaded.of_sameSlots {subscription : MarketSubscription} (h : Loaded db subscription)
    (hsame : SameSlots db db') : Loaded db' subscription := by
  obtain ⟨row, hrow, hlive, hproduct⟩ := h
  have hget := hsame.get subscription.id
  rw [hrow, Option.map_some, Option.map_eq_some_iff] at hget
  obtain ⟨row', hrow', hslot⟩ := hget
  simp only [MarketSubscription.slot, Prod.mk.injEq] at hslot
  exact ⟨row', hrow', hslot.2.2.trans hlive, hslot.2.1.trans hproduct⟩

theorem Loaded.cancel {subscription : MarketSubscription} {id : Nat} (h : Loaded db subscription)
    (hne : subscription.id ≠ id) : Loaded (db.cancel id now) subscription := by
  obtain ⟨row, hrow, hlive⟩ := h
  refine ⟨row, ?_, hlive⟩
  rw [MarketDb.cancel, MarketDb.updateSubscription, Serial.get_modify, if_neg hne, hrow]

/-- The end of a loaded subscription takes it from the count. -/
theorem Ends.liveCount {subscription : MarketSubscription} (h : Ends now subscription db db')
    (hloaded : Loaded db subscription) :
    Market.liveCount productId db' + (decide (subscription.productId = productId)).toNat =
      Market.liveCount productId db := by
  obtain ⟨between, hsame, rfl⟩ := h
  obtain ⟨row, hrow, hlive, hproduct⟩ := hloaded.of_sameSlots hsame
  have hkey : row.id = subscription.id := Table.key_of_get hrow
  have hcount := @liveCount_cancel _ productId now _ (hkey ▸ hrow) hlive
  rw [hkey, hproduct, hsame.liveCount] at hcount
  exact hcount

/-- A loop that keeps or ends the subscriptions it was loaded for takes those it ends from the
count, and leaves the products as they are. -/
theorem endings_loop (f : MarketSubscription → MarketDb → MarketDb)
    (keeps : MarketDb → MarketSubscription → Bool)
    (hsame : ∀ db db' s, SameSlots db db' → keeps db' s = keeps db s)
    (hcancel : ∀ db id s, keeps (db.cancel id now) s = keeps db s)
    (hkeeps : ∀ db s, keeps db s = true → SameSlots db (f s db))
    (hends : ∀ db s, keeps db s = false → Ends now s db (f s db))
    {due : List MarketSubscription} (hdistinct : (due.map (·.id)).Nodup)
    (hloaded : ∀ s ∈ due, Loaded db s) :
    (due.foldl (fun db s => f s db) db).products = db.products ∧
      liveCount productId (due.foldl (fun db s => f s db) db) +
        due.countP (fun s => !keeps db s && decide (s.productId = productId)) =
        liveCount productId db := by
  induction due generalizing db with
  | nil => exact ⟨rfl, rfl⟩
  | cons s due ih =>
    rw [List.map_cons, List.nodup_cons] at hdistinct
    obtain ⟨hfirst, hrest⟩ := List.forall_mem_cons.mp hloaded
    rw [List.foldl_cons, List.countP_cons]
    cases hkeep : keeps db s with
    | true =>
      have hslots := hkeeps db s hkeep
      have hagree : keeps (f s db) = keeps db := funext fun s => hsame _ _ s hslots
      obtain ⟨hproducts, hcount⟩ := ih hdistinct.2 fun other hmem =>
        (hrest other hmem).of_sameSlots hslots
      rw [hagree, hslots.liveCount] at hcount
      exact ⟨hproducts.trans hslots.products, hcount⟩
    | false =>
      have hend := hends db s hkeep
      have hfirstCount := @Ends.liveCount _ _ productId _ _ hend hfirst
      obtain ⟨between, hslots, hcanceled⟩ := hend
      have hagree : keeps (f s db) = keeps db := by
        funext other
        rw [hcanceled, hcancel, hsame _ _ other hslots]
      have hstillLoaded : ∀ other ∈ due, Loaded (f s db) other := by
        intro other hmem
        have hne : other.id ≠ s.id := fun heq =>
          hdistinct.1 (List.mem_map.mpr ⟨other, hmem, heq⟩)
        rw [hcanceled]
        exact ((hrest other hmem).of_sameSlots hslots).cancel hne
      obtain ⟨hproducts, hcount⟩ := ih hdistinct.2 hstillLoaded
      rw [hagree] at hcount
      refine ⟨hproducts.trans ?_, ?_⟩
      · rw [hcanceled]
        exact hslots.products
      · cases hproduct : decide (s.productId = productId) <;>
          simp [hproduct] at hfirstCount ⊢ <;> omega

theorem renewable_congr (haiProviders : db'.aiProviders = db.aiProviders)
    (husers : ∀ id, (db'.users.get id).isSome = (db.users.get id).isSome)
    (hproducts : db'.products = db.products)
    (hsubscriptions : ∀ id,
      (db'.subscriptions.get id).isSome = (db.subscriptions.get id).isSome)
    (subscription : MarketSubscription) :
    renewable env stripe purchaseType db' subscription =
      renewable env stripe purchaseType db subscription := by
  simp only [renewable, recordable, MarketSubscription.keyed, husers, hproducts, hsubscriptions,
    canFulfill_congr haiProviders husers]

/-- Whether a subscription is renewable does not depend on what happens to the others. -/
theorem renewable_sameSlots (h : SameSlots db db') (subscription : MarketSubscription) :
    renewable env stripe purchaseType db' subscription =
      renewable env stripe purchaseType db subscription := by
  refine renewable_congr h.aiProviders h.users h.products (fun id => ?_) subscription
  have hget := congrArg Option.isSome (h.get id)
  rwa [Option.isSome_map, Option.isSome_map] at hget

theorem renewable_cancel (id : Nat) (subscription : MarketSubscription) :
    renewable env stripe purchaseType (db.cancel id now) subscription =
      renewable env stripe purchaseType db subscription := by
  apply renewable_congr
  · rfl
  · exact fun _ => rfl
  · rfl
  · intro other
    rw [MarketDb.cancel, MarketDb.updateSubscription, Serial.get_modify]
    split
    · exact Option.isSome_map
    · rfl

theorem endSubscription_apply (hfault : env.faults .endSubscription = false) (id : Nat) :
    endSubscription env id db = .ok () (db.cancel id env.now) := by
  have hend : execute env .endSubscription ⟨.internal, "db_error"⟩
      (fun db => some ((), db.cancel id env.now)) db = .ok () (db.cancel id env.now) :=
    execute_ok hfault rfl
  rw [endSubscription, logged_apply, hend, finalState_ok]

/-- A renewable subscription is renewed and keeps its slot; any other ends. -/
theorem renewOrEnd_cases (hfault : env.faults .endSubscription = false)
    (subscription : MarketSubscription) :
    succeeded (renewOrEnd chrono env stripe purchaseType subscription db) = true ∧
      (renewable env stripe purchaseType db subscription = true →
        SameSlots db (finalState (renewOrEnd chrono env stripe purchaseType subscription db))) ∧
      (renewable env stripe purchaseType db subscription = false →
        Ends env.now subscription db
          (finalState (renewOrEnd chrono env stripe purchaseType subscription db))) := by
  have hsucceeded :=
    @succeeded_renewOne chrono env stripe purchaseType db subscription
  have hwithin := @renewOne_keepsSlots chrono env stripe purchaseType subscription db
  rw [renewOrEnd]
  cases hrenew : renewOne chrono env stripe purchaseType subscription db with
  | ok _ db' =>
    rw [hrenew] at hsucceeded hwithin
    rw [recover_of_ok hrenew, ← hsucceeded]
    refine ⟨rfl, fun _ => hwithin, fun h => ?_⟩
    rw [succeeded_ok] at h
    cases h
  | error e db' =>
    rw [hrenew] at hsucceeded hwithin
    rw [recover_of_error hrenew, endSubscription_apply hfault, ← hsucceeded]
    refine ⟨rfl, fun h => ?_, fun _ => ⟨db', hwithin, rfl⟩⟩
    rw [succeeded_error] at h
    cases h

/-- A renewal run keeps or ends each due subscription, and the count loses those it ends. -/
theorem renewSubscriptionsOfType_ends (hfaults : ∀ statement, env.faults statement = false) :
    (finalState (renewSubscriptionsOfType chrono env stripe purchaseType db)).products =
        db.products ∧
      liveCount productId
          (finalState (renewSubscriptionsOfType chrono env stripe purchaseType db)) +
        (db.dueSubscriptions purchaseType env.now).countP (fun s =>
          !((usableServerStripeConfig env).isSome &&
            renewable env stripe purchaseType db s) && decide (s.productId = productId)) =
        liveCount productId db := by
  have hdistinct := db.nodup_dueSubscriptions purchaseType env.now
  have hloaded : ∀ s ∈ db.dueSubscriptions purchaseType env.now, Loaded db s := by
    intro s hs
    obtain ⟨hget, hlive, _⟩ := MarketDb.get_of_mem_dueSubscriptions hs
    exact ⟨s, hget, hlive, rfl⟩
  have hdue : getDueMarketSubscriptions env purchaseType db =
      .ok (db.dueSubscriptions purchaseType env.now) db := execute_ok (hfaults _) rfl
  rw [renewSubscriptionsOfType, bind_of_ok hdue]
  cases usableServerStripeConfig env with
  | none =>
    have hend (s : MarketSubscription) (db : MarketDb) :
        endSubscription env s.id db = .ok () (db.cancel s.id env.now) :=
      endSubscription_apply (hfaults _) s.id
    dsimp only
    rw [forM_of_succeeded fun s db => by rw [hend, succeeded_ok]]
    refine @endings_loop db productId env.now
      (fun s db => finalState (endSubscription env s.id db)) (fun _ _ => false) (fun _ _ _ _ => rfl)
      (fun _ _ _ => rfl) ?_ ?_ _ hdistinct hloaded
    · simp
    · intro db s _
      exact ⟨db, .refl db, by rw [hend, finalState_ok]⟩
  | some config =>
    dsimp only
    rw [forM_of_succeeded fun s db => (renewOrEnd_cases (hfaults _) s).1]
    exact endings_loop (fun s db => finalState (renewOrEnd chrono env stripe purchaseType s db))
      (renewable env stripe purchaseType) (fun _ _ s h => renewable_sameSlots h s)
      (fun _ id s => renewable_cancel id s) (fun _ s => (renewOrEnd_cases (hfaults _) s).2.1)
      (fun _ s => (renewOrEnd_cases (hfaults _) s).2.2) hdistinct hloaded

/-- A renewal run keeps the slots accounted for exactly if it renews every due subscription of
the product. -/
theorem slotsAccounted_renew (stripeConfig : Option StripeConfig)
    (h : SlotsAccounted productId db) :
    SlotsAccounted productId
        (Operation.step chrono db (.renew now stripeConfig stripe purchaseType)) ↔
      RenewsAll productId db (.renew now stripeConfig stripe purchaseType) := by
  obtain ⟨hproducts, hcount⟩ := @renewSubscriptionsOfType_ends chrono
    { now := now, stripeConfig := stripeConfig } stripe purchaseType db productId fun _ => rfl
  rw [SlotsAccounted] at h ⊢
  rw [Operation.step, soldCount, hproducts, ← soldCount, h, ← hcount, Nat.add_eq_left,
    List.countP_eq_zero, RenewsAll]
  apply forall_congr'
  intro s
  apply imp_congr_right
  intro _
  by_cases hproduct : s.productId = productId <;> simp [hproduct, Option.isSome_iff_ne_none]

/-- A completed checkout adds a subscription that is not canceled. -/
theorem liveCount_paid (checkout : Checkout) :
    liveCount productId (checkout.paid chrono db) =
      liveCount productId db + (decide (checkout.product.id = productId)).toNat := by
  have hinsert := db.subscriptions.countP_insert
    (fun id => { checkout.subscription chrono with id := id, createdAt := checkout.env.now })
    (fun _ => rfl) fun row => holdsSlot productId row.slot
  have hslot : holdsSlot productId (MarketSubscription.slot
      { checkout.subscription chrono with
        id := db.subscriptions.next
        createdAt := checkout.env.now }) = decide (checkout.product.id = productId) := by
    simp [holdsSlot, MarketSubscription.slot, Checkout.subscription]
  rw [hslot] at hinsert
  exact hinsert

/-- A completed checkout counts the subscription it stores. -/
theorem counts_record {checkout : Checkout} (hproduct : (db.products.get productId).isSome = true)
    (h : OnlyUsers (checkout.recorded chrono db) db') :
    liveCount productId db' =
        liveCount productId db + (decide (checkout.product.id = productId)).toNat ∧
      soldCount productId db' =
        soldCount productId db + (decide (checkout.product.id = productId)).toNat := by
  have hslots := SameSlots.of_onlyUsers _ _ h
  obtain ⟨product, hget⟩ := Option.isSome_iff_exists.mp hproduct
  have hpaid : (checkout.paid chrono db).products.get productId = some product := hget
  have hsold : soldCount productId (checkout.paid chrono db) = soldCount productId db := rfl
  constructor
  · exact hslots.liveCount.trans (liveCount_paid checkout)
  · rw [hslots.soldCount, Checkout.recorded, soldCount_updateSoldCount hpaid, hsold]
    by_cases hid : checkout.product.id = productId
    · simp [hid]
    · have hother : ¬ productId = checkout.product.id := fun heq => hid heq.symm
      simp [hid, hother]

/-- A cancellation frees the slot of the subscription it cancels. -/
theorem counts_cancel (hproduct : (db.products.get productId).isSome = true)
    (h : Cancels { now := now } db db') : ∃ freed,
      liveCount productId db' + freed = liveCount productId db ∧
      soldCount productId db' = soldCount productId db - freed := by
  obtain ⟨row, hrow, hlive, rfl⟩ := h
  obtain ⟨product, hget⟩ := Option.isSome_iff_exists.mp hproduct
  have hcanceled : (db.cancel row.id now).products.get productId = some product := hget
  have hsold : soldCount productId (db.cancel row.id now) = soldCount productId db := rfl
  refine ⟨(decide (row.productId = productId)).toNat, liveCount_cancel hrow hlive, ?_⟩
  rw [if_neg Bool.false_ne_true, soldCount_updateSoldCount hcanceled, hsold]
  by_cases hid : row.productId = productId
  · simp [hid]
  · have hother : ¬ productId = row.productId := fun heq => hid heq.symm
    simp [hid, hother]

/-- Writing a product back writes the number of sold slots that was read. -/
theorem soldCount_writeProduct {row : MarketProduct}
    (h : (db.products.get row.id).isSome = true) :
    soldCount productId (db.writeProduct row) =
      if productId = row.id then row.soldCount else soldCount productId db := by
  obtain ⟨current, hget⟩ := Option.isSome_iff_exists.mp h
  rw [soldCount, MarketDb.get_writeProduct, soldCount]
  split
  · rename_i hid
    rw [hid, hget]
    rfl
  · rfl

/-- A completed checkout keeps the slots accounted for. -/
theorem slotsAccounted_checkout (paymentMethods : String → Option PaymentIntentPaymentMethod)
    (session : CheckoutSession) (hproduct : (db.products.get productId).isSome = true)
    (h : SlotsAccounted productId db) :
    SlotsAccounted productId (Operation.step chrono db (.checkout now paymentMethods session)) := by
  rw [Operation.step]
  rcases @handle_undisturbed chrono db { now := now } session paymentMethods fun _ => rfl with
    ⟨_, hsame⟩ | ⟨checkout, _, hfulfilled⟩
  · rw [hsame]
    exact h
  · obtain ⟨hlive, hsold⟩ := @counts_record chrono _ _ _ checkout hproduct
      checkout.fulfilled_onlyUsers
    rw [hfulfilled]
    rw [SlotsAccounted, hlive, hsold, h]

/-- A cancellation keeps the slots accounted for. -/
theorem slotsAccounted_cancel (subscriptionId : Option Nat) (caller : User)
    (hproduct : (db.products.get productId).isSome = true) (h : SlotsAccounted productId db) :
    SlotsAccounted productId (Operation.step chrono db (.cancel now subscriptionId caller)) := by
  rw [Operation.step]
  rcases @cancelMarketSubscription_cases { now := now } db subscriptionId caller with
    hsame | hcancels
  · rw [hsame]
    exact h
  · obtain ⟨freed, hlive, hsold⟩ := counts_cancel hproduct hcancels
    rw [SlotsAccounted] at h ⊢
    omega

/-- An edit performed as a whole writes the number of sold slots back that is there. -/
theorem slotsAccounted_updateProduct (request : ProductRequest) (caller : User)
    (h : SlotsAccounted productId db) :
    SlotsAccounted productId (Operation.step chrono db (.updateProduct now request caller)) := by
  rw [Operation.step]
  rcases @updateMarketProduct_cases { now := now } db caller request with
    hsame | ⟨existing, hget, hwrite⟩
  · rw [hsame]
    exact h
  · have hedited : (db.products.get (existing.edited now request).id).isSome = true := by
      rw [MarketProduct.edited, hget]
      rfl
    have hlive : liveCount productId (db.writeProduct (existing.edited now request)) =
        liveCount productId db := rfl
    rw [hwrite, SlotsAccounted, soldCount_writeProduct hedited, hlive]
    split
    · rename_i hid
      have hcurrent : soldCount productId db = existing.soldCount := by
        rw [soldCount, hid, MarketProduct.edited, hget]
        rfl
      exact hcurrent ▸ h
    · exact h

/-- Rewriting products removes none. -/
theorem isSome_product_modify (id : Nat) (f : MarketProduct → MarketProduct)
    (hf : ∀ row, (f row).id = row.id) (h : (db.products.get productId).isSome = true) :
    ((db.products.modify id f hf).get productId).isSome = true := by
  rw [Serial.get_modify]
  split
  · rw [Option.isSome_map, h]
  · exact h

/-- No operation removes a product. -/
theorem isSome_product_step (db : MarketDb) (operation : Operation)
    (h : (db.products.get productId).isSome = true) :
    ((Operation.step chrono db operation).products.get productId).isSome = true := by
  cases operation with
  | checkout now paymentMethods session =>
    rw [Operation.step]
    rcases @handle_undisturbed chrono db { now := now } session paymentMethods fun _ => rfl with
      ⟨_, hsame⟩ | ⟨checkout, _, hfulfilled⟩
    · rw [hsame]
      exact h
    · rw [hfulfilled, checkout.fulfilled_onlyUsers.products]
      exact isSome_product_modify _ _ _ h
  | cancel now subscriptionId caller =>
    rw [Operation.step]
    rcases @cancelMarketSubscription_cases { now := now } db subscriptionId caller with
      hsame | ⟨row, _, _, hcancels⟩
    · rw [hsame]
      exact h
    · rw [hcancels, if_neg Bool.false_ne_true]
      exact isSome_product_modify _ _ _ h
  | renew now stripeConfig stripe purchaseType =>
    obtain ⟨hproducts, _⟩ := @renewSubscriptionsOfType_ends chrono
      { now := now, stripeConfig := stripeConfig } stripe purchaseType db productId fun _ => rfl
    rw [Operation.step, hproducts]
    exact h
  | terminate now configuration purchaseType =>
    have hslots := @terminateSubscriptionsOfType_keepsSlots
      { now := now, serverConfiguration := configuration } purchaseType db
    rw [Operation.step, hslots.products]
    exact h
  | updateProduct now request caller =>
    rw [Operation.step]
    rcases @updateMarketProduct_cases { now := now } db caller request with
      hsame | ⟨existing, _, hwrite⟩
    · rw [hsame]
      exact h
    · rw [hwrite]
      exact isSome_product_modify _ _ _ h

/-- An operation keeps the slots accounted for, except that a renewal run has to renew every
due subscription of the product. -/
theorem slotsAccounted_step (db : MarketDb) (operation : Operation)
    (hproduct : (db.products.get productId).isSome = true) (h : SlotsAccounted productId db) :
    SlotsAccounted productId (Operation.step chrono db operation) ↔
      RenewsAll productId db operation := by
  cases operation with
  | checkout now paymentMethods session =>
    exact iff_of_true (slotsAccounted_checkout paymentMethods session hproduct h) trivial
  | cancel now subscriptionId caller =>
    exact iff_of_true (slotsAccounted_cancel subscriptionId caller hproduct h) trivial
  | renew now stripeConfig stripe purchaseType => exact slotsAccounted_renew stripeConfig h
  | terminate now configuration purchaseType =>
    have hslots := @terminateSubscriptionsOfType_keepsSlots
      { now := now, serverConfiguration := configuration } purchaseType db
    refine iff_of_true ?_ trivial
    rw [SlotsAccounted, Operation.step, hslots.soldCount, hslots.liveCount]
    exact h
  | updateProduct now request caller =>
    exact iff_of_true (slotsAccounted_updateProduct request caller h) trivial

end

/-- The product is there, and nothing of it is sold. -/
structure NewProduct (productId : Nat) (db : MarketDb) : Prop where
  exists_unsold : ∃ product, db.products.get productId = some product ∧ product.soldCount = 0
  unsubscribed : ∀ row ∈ db.subscriptions.rows, row.productId ≠ productId

theorem NewProduct.isSome {productId : Nat} {db : MarketDb} (h : NewProduct productId db) :
    (db.products.get productId).isSome = true := by
  obtain ⟨product, hget, _⟩ := h.exists_unsold
  rw [hget]
  rfl

theorem NewProduct.slotsAccounted {productId : Nat} {db : MarketDb} (h : NewProduct productId db) :
    SlotsAccounted productId db := by
  obtain ⟨product, hget, hunsold⟩ := h.exists_unsold
  have hsold : soldCount productId db = 0 := by
    rw [soldCount, hget]
    exact hunsold
  have hlive : liveCount productId db = 0 := by
    rw [liveCount, List.countP_eq_zero]
    intro row hrow
    simp [holdsSlot, MarketSubscription.slot, h.unsubscribed row hrow]
  rw [SlotsAccounted, hsold, hlive]

/-- For every sequence of operations from a new product on, the number of sold slots stays the
number of subscriptions that are not canceled if and only if every renewal run renews every due
subscription of the product. -/
theorem slots_accounted_iff (chrono : Chrono) (productId : Nat) (db : MarketDb)
    (hnew : NewProduct productId db) (operations : List Operation) :
    Throughout (Operation.step chrono) (SlotsAccounted productId) db operations ↔
      Along (Operation.step chrono) (RenewsAll productId) db operations :=
  throughout_iff_along (I := fun db => (db.products.get productId).isSome = true)
    isSome_product_step slotsAccounted_step hnew.isSome hnew.slotsAccounted operations

/-- Slots stay accounted for when a checkout is completed and canceled. -/
theorem slots_accounted_canceled :
    Throughout (Operation.step januaryChrono) (SlotsAccounted 1) storageMarket
      [.checkout 0 (fun _ => none) storageSession,
        .cancel 1 (some 1) { permissions := .array [], id := 1 }] :=
  (slots_accounted_iff januaryChrono 1 storageMarket
    ⟨⟨storageProduct 1, by decide, rfl⟩, by decide⟩ _).mpr ⟨trivial, trivial, trivial⟩

/-- A renewal run without Stripe settings ends the subscription, and its slot stays sold. -/
theorem ended_subscription_keeps_slot :
    ¬ ∀ (chrono : Chrono) (productId : Nat) (db : MarketDb), NewProduct productId db →
      ∀ operations : List Operation,
        Throughout (Operation.step chrono) (SlotsAccounted productId) db operations := by
  intro h
  obtain ⟨_, _, hlast⟩ := h januaryChrono 1 storageMarket
    ⟨⟨storageProduct 1, by decide, rfl⟩, by decide⟩
    [.checkout 0 (fun _ => none) storageSession,
      .renew (days 31) none { charge := fun _ => .failed } .mediaStorage]
  rw [throughout_nil, SlotsAccounted] at hlast
  exact absurd hlast (by decide +kernel)

end Rellm.Market
