import Rellm.Market.Sales
import Rellm.Market.Slots

/-!
# Capped products

The number of sold slots is compared with the cap when a checkout starts, and
counted when it is completed; an admin's edit writes back the number it read. A
product is not oversold exactly if completions find a free slot and edits write
back no fewer sold slots than are held.
-/

namespace Rellm.Market

open Foundation Calendar

/-- At most as many subscriptions are live as the cap allows, and each is counted as sold. -/
structure NotOversold (productId cap : Nat) (s : Sales) : Prop where
  capped : liveCount productId s.db ≤ cap
  counted : liveCount productId s.db ≤ soldCount productId s.db

/-- A checkout is completed while a slot is free, and an edit is written back that was read with
no fewer sold slots than are held. -/
structure KeepsSlots (productId cap : Nat) (s : Sales) (event : SaleEvent) : Prop where
  free : ∀ checkout, s.records event = some checkout → checkout.product.id = productId →
    liveCount productId s.db < cap
  current : ∀ row, s.writes event = some row → row.id = productId →
    liveCount productId s.db ≤ row.soldCount

section

variable {chrono : Chrono} {productId cap : Nat}

/-- No step removes a product. -/
theorem isSome_product_sales (s : Sales) (event : SaleEvent)
    (h : (s.db.products.get productId).isSome = true) :
    ((s.step chrono event).db.products.get productId).isSome = true := by
  have hchanges := @Sales.step_changes chrono s event
  generalize (s.step chrono event).db = db at hchanges ⊢
  cases hchanges with
  | none => exact h
  | record session _ checkout _ _ _ _ db husers =>
    rw [husers.products]
    exact isSome_product_modify _ _ _ h
  | cancel _ _ now db hcancels =>
    obtain ⟨row, _, _, rfl⟩ := hcancels
    exact isSome_product_modify _ _ _ h
  | write _ row _ => exact isSome_product_modify _ _ _ h

/-- A step keeps a product from being oversold exactly if it keeps the slots. -/
theorem notOversold_step (s : Sales) (event : SaleEvent)
    (hproduct : (s.db.products.get productId).isSome = true) (h : NotOversold productId cap s) :
    NotOversold productId cap (s.step chrono event) ↔ KeepsSlots productId cap s event := by
  have hiff : NotOversold productId cap (s.step chrono event) ↔
      liveCount productId (s.step chrono event).db ≤ cap ∧
        liveCount productId (s.step chrono event).db ≤
          soldCount productId (s.step chrono event).db :=
    ⟨fun h => ⟨h.capped, h.counted⟩, fun h => ⟨h.1, h.2⟩⟩
  have hchanges := @Sales.step_changes chrono s event
  obtain ⟨hcapped, hcounted⟩ := h
  rw [hiff]
  generalize (s.step chrono event).db = db at hchanges ⊢
  cases hchanges with
  | none hrecords hwrites =>
    refine iff_of_true ⟨hcapped, hcounted⟩ ⟨?_, ?_⟩
    · simp [hrecords]
    · simp [hwrites]
  | record session hsession checkout hrecords hwrites hid hmetadata db husers =>
    obtain ⟨hlive, hsold⟩ := counts_record hproduct husers
    rw [hlive, hsold]
    constructor
    · rintro ⟨hfits, _⟩
      refine ⟨fun checkout' hrecords' hid => ?_, by simp [hwrites]⟩
      obtain rfl := Option.some.inj (hrecords.symm.trans hrecords')
      rw [hid, decide_eq_true rfl, Bool.toNat_true] at hfits
      exact hfits
    · intro hkeeps
      have hfree := hkeeps.free checkout hrecords
      by_cases hid : checkout.product.id = productId
      · have hslot := hfree hid
        simp only [hid, decide_true, Bool.toNat_true]
        omega
      · simp only [hid, decide_false, Bool.toNat_false]
        omega
  | cancel hrecords hwrites now db hcancels =>
    obtain ⟨freed, hlive, hsold⟩ := counts_cancel hproduct hcancels
    refine iff_of_true ⟨by omega, by omega⟩ ⟨?_, ?_⟩
    · simp [hrecords]
    · simp [hwrites]
  | write hrecords row hwrites =>
    have hrow : (s.db.products.get row.id).isSome = true := by
      cases event with
      | writeProduct now edit => exact (Option.filter_eq_some_iff.mp hwrites).2
      | makePurchase => cases hwrites
      | complete => cases hwrites
      | cancel => cases hwrites
      | readProduct => cases hwrites
    have hlive : liveCount productId (s.db.writeProduct row) = liveCount productId s.db := rfl
    rw [soldCount_writeProduct hrow, hlive]
    constructor
    · rintro ⟨_, hwritten⟩
      refine ⟨by simp [hrecords], fun row' hwrites' hid => ?_⟩
      obtain rfl := Option.some.inj (hwrites.symm.trans hwrites')
      rwa [if_pos hid.symm] at hwritten
    · intro hkeeps
      refine ⟨hcapped, ?_⟩
      split
      · rename_i hid
        exact hkeeps.current row hwrites hid.symm
      · exact hcounted

/-- A product that is not sold out has a free slot. -/
theorem soldCount_lt_of_not_soldOut {product : MarketProduct} (hsoldOut : product.soldOut = false)
    (hcap : product.availableCount.toInt = cap) (hpositive : 0 < cap) :
    product.soldCount < cap := by
  have havailable : 0 < product.availableCount := by
    rw [Int32.lt_iff_toInt_lt, hcap, Int32.toInt_zero]
    omega
  simp only [MarketProduct.soldOut, havailable, decide_true, Bool.true_and,
    decide_eq_false_iff_not, hcap] at hsoldOut
  omega

/-- A checkout that could be started can be completed at once: the slot that was checked for is
still free then. -/
theorem liveCount_lt_of_makeMarketPurchase {env : Env} {request : MakeMarketPurchaseRequest}
    {caller : User} {params : CheckoutSessionParams} {s : Sales} {db : MarketDb}
    {product : MarketProduct} (hget : s.db.products.get productId = some product)
    (hcap : product.availableCount.toInt = cap) (hpositive : 0 < cap)
    (hcounted : liveCount productId s.db ≤ soldCount productId s.db)
    (hmake : makeMarketPurchase env request caller s.db = .ok params db)
    (hproduct : params.metadata.rellmMarketProductId = some productId) :
    liveCount productId s.db < cap := by
  obtain ⟨product', hget', hpurchasable, hid, _⟩ := makeMarketPurchase_charges hmake
  obtain rfl : product'.id = productId := Option.some.inj (hid.symm.trans hproduct)
  obtain rfl := Option.some.inj (hget'.symm.trans hget)
  have hsoldOut : product'.soldOut = false := by
    rw [checkPurchasable] at hpurchasable
    split at hpurchasable
    · cases hpurchasable
    · split at hpurchasable
      · cases hpurchasable
      · rename_i hsoldOut
        exact Bool.not_eq_true _ ▸ hsoldOut
  have hfree := soldCount_lt_of_not_soldOut hsoldOut hcap hpositive
  have hsold : soldCount product'.id s.db = product'.soldCount := by
    rw [soldCount, hget]
    rfl
  omega

end

/-- A market with a single slot of the storage product to sell. -/
def singleSlot : Sales where
  db := { storageMarket with
    products := Serial.empty.insert (fun id => { storageProduct id with availableCount := 1 })
      fun _ => rfl }

end Rellm.Market
