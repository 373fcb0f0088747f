import Rellm.Foundation.Overflow
import Rellm.Market.Terms

/-!
# What editing a product stores

An accepted edit writes the edited columns over the row. A count of 32 bits without a
sign is stored in a column of 32 bits with one, and a column whose new value is unset
is not written at all: a product that was delisted stays so.
-/

namespace Rellm.Market

open Foundation Calendar

/-- The details of a product as the API shows them, read by the type of the product. -/
def productDetailsToProto (purchaseType : PurchaseType) (details : DetailsJson) :
    Option ProductDetails :=
  match purchaseType with
  | .mediaStorage => details.toMediaStorage.map .mediaStorage
  | .aiGrants => details.toAiGrant.map .aiGrant
  | .rellmHosting => details.toRellmHostingSubscription.map .rellmHosting
  | .permissionsAccess => details.toPermissionsAccess.map .permissionsAccess

/-- Details of a product's type read back as they were asked for. -/
theorem productDetailsToProto_productDetailsToJson {purchaseType : PurchaseType}
    {details : Option ProductDetails}
    (h : validateDetailsMatchType purchaseType details = .ok ()) :
    productDetailsToProto purchaseType (productDetailsToJson details) = details := by
  cases details with
  | none => cases purchaseType <;> rfl
  | some details =>
    cases details with
    | permissionsAccess details =>
      cases purchaseType with
      | permissionsAccess => rfl
      | mediaStorage => cases h
      | aiGrants => cases h
      | rellmHosting => cases h
    | mediaStorage details => cases purchaseType <;> first | rfl | cases h
    | aiGrant details => cases purchaseType <;> first | rfl | cases h
    | rellmHosting details => cases purchaseType <;> first | rfl | cases h

/-- A reply that a product cannot be had. -/
def Unavailable (e : Status) : Prop :=
  e = ⟨.failedPrecondition, "product_delisted"⟩ ∨ e = ⟨.failedPrecondition, "product_sold_out"⟩

instance (e : Status) : Decidable (Unavailable e) := inferInstanceAs (Decidable (_ ∨ _))

/-- Another reply does not say that a product cannot be had. -/
theorem not_unavailable {code : Code} {message : String}
    (h : ¬ Unavailable ⟨code, message⟩) {e : Status} (he : Unavailable e) :
    (⟨code, message⟩ : Status) ≠ e := by
  rintro rfl
  exact h he

section

variable {env : Env} {db db' : MarketDb}

theorem avoids_ofExcept {α : Type} {e : Status} {check : Except Status α}
    (h : check ≠ .error e) : Avoids e (ofExcept check) db := by
  cases check with
  | ok a => exact .pure a
  | error e' => exact .throw fun heq => h (congrArg Except.error heq)

theorem avoids_okOr {α : Type} {e error : Status} {value : Option α} (h : error ≠ e) :
    Avoids e (okOr value error) db := by
  cases value with
  | none => exact .throw h
  | some a => exact .pure a

/-- Reading a product fails only where it is not found. -/
theorem getMarketProduct_only {id : Nat} {e : Status}
    (h : getMarketProduct env id db = .error e db') : ⟨.notFound, "product_not_found"⟩ = e := by
  rw [getMarketProduct, execute] at h
  split at h
  · cases h
    rfl
  · split at h
    · cases h
      rfl
    · cases h

/-- An accepted edit writes the edited columns over the row. -/
theorem updateMarketProduct_eq_ok {caller : User} {request : ProductRequest}
    {existing : MarketProduct} (hid : request.id = some existing.id)
    (hget : db.products.get existing.id = some existing)
    (haccepted : updateMarketProduct env caller request db = .ok () db') :
    validateDetailsMatchType existing.productType request.details = .ok () ∧
      db'.products.get existing.id =
        some ((existing.edited env.now request).changeset existing) := by
  obtain ⟨row, s, hread, hwrite⟩ := bind_eq_ok.mp haccepted
  obtain ⟨rfl, other, hother, hfound, hmatch, rfl⟩ := readProductEdit_requested hread
  have hkey : existing.id = other.id := Option.some.inj (hid.symm.trans hother)
  rw [← hkey, hget] at hfound
  obtain rfl := Option.some.inj hfound
  refine ⟨hmatch, ?_⟩
  have heffect := execute_eq_ok hwrite
  split at heffect
  · cases heffect
    have hsame : existing.id = (existing.edited env.now request).id := rfl
    rw [MarketDb.get_writeProduct, if_pos hsame, hget]
    rfl
  · cases heffect

/-- A product cannot be had if it is delisted or sold out. -/
theorem checkPurchasable_unavailable_iff {product : MarketProduct}
    {request : MakeMarketPurchaseRequest} :
    (∃ e, Unavailable e ∧ checkPurchasable product request = .error e) ↔
      product.delistedAt.isSome = true ∨ product.soldOut = true := by
  rw [checkPurchasable]
  constructor
  · rintro ⟨e, he, hcheck⟩
    by_contra hnot
    rw [not_or] at hnot
    rw [if_neg hnot.1, if_neg hnot.2] at hcheck
    split at hcheck
    · exact not_unavailable (by decide) he (Except.error.inj hcheck)
    · split at hcheck
      · split at hcheck
        · exact not_unavailable (by decide) he (Except.error.inj hcheck)
        · rw [validatePermissionsArePurchasable] at hcheck
          split at hcheck
          · cases hcheck
          · exact not_unavailable (by decide) he (Except.error.inj hcheck)
      · cases hcheck
  · intro h
    by_cases hdelisted : product.delistedAt.isSome = true
    · exact ⟨_, .inl rfl, if_pos hdelisted⟩
    · refine ⟨_, .inr rfl, ?_⟩
      rw [if_neg hdelisted, if_pos (h.resolve_left hdelisted)]

/-- Starting to buy a product is refused as unavailable only by the check of that product. -/
theorem makeMarketPurchase_avoids {request : MakeMarketPurchaseRequest} {caller : User}
    {e : Status} (he : Unavailable e)
    (hcheck : ∀ product, request.marketProductId = some product.id →
      db.products.get product.id = some product → checkPurchasable product request ≠ .error e) :
    Avoids e (makeMarketPurchase env request caller) db := by
  rw [makeMarketPurchase]
  refine (avoids_okOr (not_unavailable (by decide) he)).bind fun configuration s hread => ?_
  obtain ⟨_, rfl⟩ := okOr_eq_ok.mp hread
  refine (avoids_ofExcept ?_).bind fun _ s hopen => ?_
  · rw [checkMarketEnabled]
    split
    · intro h
      cases h
    · exact fun h => not_unavailable (by decide) he (Except.error.inj h)
  obtain ⟨_, rfl⟩ := ofExcept_eq_ok.mp hopen
  refine (avoids_okOr (not_unavailable (by decide) he)).bind fun productId s hnamed => ?_
  obtain ⟨hid, rfl⟩ := okOr_eq_ok.mp hnamed
  refine Avoids.bind ?_ fun product s hproduct => ?_
  · intro s hfail
    exact not_unavailable (by decide) he (getMarketProduct_only hfail)
  obtain ⟨_, hget, rfl⟩ := getMarketProduct_eq_ok.mp hproduct
  have hkey : product.id = productId := Table.key_of_get hget
  refine (avoids_ofExcept (hcheck product (hkey ▸ hid) (hkey ▸ hget))).bind fun _ s hchecked => ?_
  refine (avoids_okOr (not_unavailable (by decide) he)).bind fun _ s _ => ?_
  refine (avoids_okOr (not_unavailable (by decide) he)).bind fun _ s _ => ?_
  refine (avoids_okOr (not_unavailable (by decide) he)).bind fun _ s _ => ?_
  intro s' hfail
  cases hfail

/-- In an open market, starting to buy a stored product is refused as unavailable if it is
delisted or sold out. -/
theorem makeMarketPurchase_unavailable_iff {configuration : ServerConfiguration}
    {product : MarketProduct} {request : MakeMarketPurchaseRequest} {caller : User}
    (hconfiguration : env.serverConfiguration = some configuration)
    (henabled : checkMarketEnabled configuration = .ok ())
    (hid : request.marketProductId = some product.id)
    (hfault : env.faults .selectProduct = false)
    (hget : db.products.get product.id = some product) :
    (∃ e, Unavailable e ∧ ∃ db', makeMarketPurchase env request caller db = .error e db') ↔
      product.delistedAt.isSome = true ∨ product.soldOut = true := by
  refine Iff.trans ?_ (checkPurchasable_unavailable_iff :
    (∃ e, Unavailable e ∧ checkPurchasable product request = .error e) ↔ _)
  refine exists_congr fun e => and_congr_right fun he => ?_
  constructor
  · rintro ⟨db', hfail⟩
    by_contra hcheck
    refine makeMarketPurchase_avoids he (fun other hother hother' => ?_) db' hfail
    have hkey : other.id = product.id := Option.some.inj (hother.symm.trans hid)
    rw [hkey, hget] at hother'
    obtain rfl := Option.some.inj hother'
    exact hcheck
  · intro hcheck
    have hrefused : ofExcept (checkPurchasable product request) db = .error e db := by
      rw [hcheck]
      rfl
    refine ⟨db, ?_⟩
    rw [makeMarketPurchase, hconfiguration, hid]
    exact (bind_of_ok rfl).trans <| (bind_of_ok (ofExcept_eq_ok.mpr ⟨henabled, rfl⟩)).trans <|
      (bind_of_ok rfl).trans <| (bind_of_ok (getMarketProduct_ok hfault hget)).trans <|
      bind_of_error hrefused

end

/-- A stored product has what a request asked for, and else what it had. -/
structure Asked (request : ProductRequest) (existing stored : MarketProduct) : Prop where
  amount : stored.amount.toInt = request.amount.toNat
  currency : stored.currency.toInt = request.currency.toNat
  details : productDetailsToProto stored.productType stored.details = request.details
  availableCount : stored.availableCount.toInt = request.availableCount.toNat
  delisted : stored.delistedAt.isSome = request.delistedAt.isSome
  productType : stored.productType = existing.productType
  period : stored.period = existing.period
  soldCount : stored.soldCount = existing.soldCount

/-- Whether a request leaves a product without a slot to sell. -/
def ProductRequest.Closes (request : ProductRequest) (soldCount : Nat) : Prop :=
  request.delistedAt.isSome = true ∨
    0 < request.availableCount.toNat ∧ request.availableCount.toNat ≤ soldCount

/-- In an open market, a product can be bought as a request asked for. -/
def AvailableAsAsked (request : ProductRequest) (existing : MarketProduct) (db : MarketDb) : Prop :=
  ∀ (env : Env) (configuration : ServerConfiguration) (purchase : MakeMarketPurchaseRequest)
    (buyer : User), env.serverConfiguration = some configuration →
    checkMarketEnabled configuration = .ok () → purchase.marketProductId = some existing.id →
    env.faults .selectProduct = false →
    ((∃ e, Unavailable e ∧ ∃ db', makeMarketPurchase env purchase buyer db = .error e db') ↔
      request.Closes existing.soldCount)

/-- The tables hold a product as a request asked for, and it can be bought as asked. -/
def StoresAsked (request : ProductRequest) (existing : MarketProduct) (db : MarketDb) : Prop :=
  (∃ stored, db.products.get existing.id = some stored ∧ Asked request existing stored) ∧
    AvailableAsAsked request existing db

/-- A product that has what a request asked for is on sale as the request says. -/
theorem Asked.closes_iff {request : ProductRequest} {existing stored : MarketProduct}
    (h : Asked request existing stored) :
    stored.delistedAt.isSome = true ∨ stored.soldOut = true ↔
      request.Closes existing.soldCount := by
  have hzero : (0 : Int32).toInt = 0 := rfl
  rw [ProductRequest.Closes, h.delisted, MarketProduct.soldOut, Bool.and_eq_true,
    decide_eq_true_iff, decide_eq_true_iff, Int32.lt_iff_toInt_lt, h.availableCount, h.soldCount,
    hzero]
  exact or_congr Iff.rfl (and_congr Int.natCast_pos Int.ofNat_le)

/-- A request that stays within the columns and does not list a delisted product again. -/
def Storable (request : ProductRequest) (existing : MarketProduct) : Prop :=
  (existing.delistedAt.isSome = true → request.delistedAt.isSome = true) ∧
    request.amount.toNat < 2147483648 ∧ request.currency.toNat < 2147483648 ∧
    request.availableCount.toNat < 2147483648

instance (request : ProductRequest) (existing : MarketProduct) :
    Decidable (Storable request existing) := inferInstanceAs (Decidable (_ ∧ _))

/-- A written product has what was asked for exactly if the request was storable. -/
theorem asked_iff {request : ProductRequest} {existing : MarketProduct} {now : Instant}
    (h : validateDetailsMatchType existing.productType request.details = .ok ()) :
    Asked request existing ((existing.edited now request).changeset existing) ↔
      Storable request existing := by
  constructor
  · intro h
    refine ⟨fun hdelisted => ?_, toInt_toInt32_eq_iff.mp h.amount,
      toInt_toInt32_eq_iff.mp h.currency, toInt_toInt32_eq_iff.mp h.availableCount⟩
    rw [← h.delisted, MarketProduct.changeset, MarketProduct.edited]
    cases request.delistedAt with
    | none => exact hdelisted
    | some _ => rfl
  · rintro ⟨hlisted, hamount, hcurrency, havailable⟩
    refine ⟨toInt_toInt32_eq_iff.mpr hamount, toInt_toInt32_eq_iff.mpr hcurrency,
      productDetailsToProto_productDetailsToJson h, toInt_toInt32_eq_iff.mpr havailable, ?_,
      rfl, rfl, rfl⟩
    rw [MarketProduct.changeset, MarketProduct.edited]
    cases hrequested : request.delistedAt with
    | some _ => rfl
    | none =>
      rw [hrequested] at hlisted
      cases hexisting : existing.delistedAt with
      | none => rfl
      | some instant =>
        rw [hexisting] at hlisted
        exact absurd (hlisted rfl) Bool.false_ne_true

/-- An accepted edit stores what was asked for exactly if the request stays within the columns
and does not list a delisted product again. -/
theorem storesAsked_iff {env : Env} {caller : User} {request : ProductRequest}
    {existing : MarketProduct} {db db' : MarketDb}
    (hid : request.id = some existing.id) (hget : db.products.get existing.id = some existing)
    (haccepted : updateMarketProduct env caller request db = .ok () db') :
    StoresAsked request existing db' ↔ Storable request existing := by
  obtain ⟨hmatch, hstored⟩ := updateMarketProduct_eq_ok hid hget haccepted
  refine Iff.trans ?_ (asked_iff hmatch : Asked request existing
    ((existing.edited env.now request).changeset existing) ↔ _)
  constructor
  · rintro ⟨⟨stored, hread, hasked⟩, _⟩
    rw [hstored] at hread
    obtain rfl := Option.some.inj hread
    exact hasked
  · intro hasked
    refine ⟨⟨_, hstored, hasked⟩, ?_⟩
    intro later configuration purchase buyer hconfiguration henabled hpurchase hfault
    rw [← hasked.closes_iff]
    exact makeMarketPurchase_unavailable_iff hconfiguration henabled hpurchase hfault hstored

/-- An admin of the market. -/
def marketAdmin : User := { permissions := .array [some "ADMIN"], id := 2 }

/-- The storage market with its product delisted. -/
def delistedMarket : MarketDb :=
  { storageMarket with
    products := Serial.empty.insert (fun id => { storageProduct id with delistedAt := some 0 })
      fun _ => rfl }

/-- Raising the price of a listed product stores what was asked for. -/
theorem storesAsked_repriced :
    StoresAsked repriced (storageProduct 1)
      (finalState (updateMarketProduct { now := 5 } marketAdmin repriced storageMarket)) := by
  have haccepted : updateMarketProduct { now := 5 } marketAdmin repriced storageMarket =
      .ok () (finalState (updateMarketProduct { now := 5 } marketAdmin repriced storageMarket)) :=
    rfl
  exact (storesAsked_iff rfl rfl haccepted).mpr (by decide)

/-- A delisted product that is asked to be listed again stays delisted. -/
theorem delisted_not_relisted :
    ¬ ∀ (env : Env) (caller : User) (request : ProductRequest) (existing : MarketProduct)
      (db db' : MarketDb), request.id = some existing.id →
      db.products.get existing.id = some existing →
      updateMarketProduct env caller request db = .ok () db' →
        StoresAsked request existing db' := by
  intro h
  have hasked := h { now := 5 } marketAdmin repriced { storageProduct 1 with delistedAt := some 0 }
    delistedMarket _ rfl rfl rfl
  obtain ⟨⟨stored, hread, hstored⟩, _⟩ := hasked
  have hdelisted : stored.delistedAt = some 0 := by
    cases hread
    rfl
  have hlisted := hstored.delisted
  rw [hdelisted] at hlisted
  cases hlisted

end Rellm.Market
