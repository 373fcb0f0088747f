import Rellm.Market.Tables

/-!
# Products

Reading a product, keeping its number of sold slots, editing it, and starting to
buy it. Editing reads the row, and later writes the whole row back as it was read,
with the edited columns replaced. Starting to buy only creates a checkout session,
which carries ids and no price.
-/

namespace Rellm.Market

open Foundation Calendar

/-- The result of a check. -/
def ofExcept {α : Type} : Except Status α → MarketM α
  | .ok a => pure a
  | .error e => throw e

/-- The permissions a product may grant. -/
def purchasablePermissions : List Permission :=
  [.viewUsers, .publishUsersLocally, .publishUsersGlobally, .followUsers, .viewGroups,
    .createGroups, .publishGroupsLocally, .publishGroupsGlobally, .joinGroups,
    .inviteGroupMembers, .viewPosts, .createPosts, .publishPostsLocally, .publishPostsGlobally,
    .replyToPosts, .editPostTitlesAndLinks, .viewEvents, .createEvents, .publishEventsLocally,
    .publishEventsGlobally, .rsvpToEvents, .viewMedia, .createMedia, .publishMediaLocally,
    .publishMediaGlobally, .readPersonalMessages, .createAiProviders, .syncEventsFromIcs,
    .syncPostsFromRss, .syncPostsFromAtom, .syncEventsToFacebook, .syncPostsToFacebook,
    .syncEventsToInstagram, .syncPostsToInstagram, .syncEventsToMastodon, .syncPostsToMastodon,
    .syncEventsToBluesky, .syncPostsToBluesky, .syncEventsToXTwitter, .syncPostsToXTwitter,
    .syncEventsToThreads, .syncPostsToThreads, .business, .runBots]

/-- Every permission with one of the raw values may be sold. -/
def validatePermissionsArePurchasable (permissions : List Int32) : Except Status Unit :=
  if permissions.all fun value =>
      decide ((Permission.ofI32 value).getD .unknown ∈ purchasablePermissions) then .ok ()
  else .error ⟨.invalidArgument, "permission_not_purchasable"⟩

/-- The details of a product in a request. -/
inductive ProductDetails where
  | mediaStorage (details : MediaStorageDetails)
  | aiGrant (details : AiGrantDetails)
  | rellmHosting (details : RellmHostingSubscriptionDetails)
  | permissionsAccess (details : PermissionsAccessDetails)
  deriving DecidableEq, Repr

/-- The `details` column of a product. -/
def productDetailsToJson : Option ProductDetails → DetailsJson
  | some (.mediaStorage details) => .mediaStorage details
  | some (.aiGrant details) => .aiGrant details
  | some (.rellmHosting details) => .rellmHostingSubscription details
  | some (.permissionsAccess details) => .permissionsAccess details
  | none => .unset

/-- The details of a request have to be those of the product's type. -/
def validateDetailsMatchType (purchaseType : PurchaseType) :
    Option ProductDetails → Except Status Unit
  | none => .ok ()
  | some (.mediaStorage _) => matching (purchaseType = .mediaStorage)
  | some (.aiGrant _) => matching (purchaseType = .aiGrants)
  | some (.rellmHosting _) => matching (purchaseType = .rellmHosting)
  | some (.permissionsAccess details) =>
    if purchaseType ≠ .permissionsAccess then matching false
    else if (trim details.name).isEmpty then .error ⟨.invalidArgument, "name_required"⟩
    else validatePermissionsArePurchasable details.permissions
where
  matching (isMatch : Bool) : Except Status Unit :=
    if isMatch then .ok () else .error ⟨.invalidArgument, "details_do_not_match_type"⟩

def getMarketProduct (env : Env) (id : Nat) : MarketM MarketProduct :=
  execute env .selectProduct ⟨.notFound, "product_not_found"⟩ fun db =>
    (db.products.get id).map fun product => (product, db)

/-- Rewrites the number of sold slots of a product. -/
def MarketDb.updateSoldCount (db : MarketDb) (productId : Nat) (f : Nat → Nat) : MarketDb :=
  { db with
    products := db.products.modify productId
      (fun product => { product with soldCount := f product.soldCount }) fun _ => rfl }

/-- Counts a slot as sold; a failure is only logged. -/
def incrementMarketProductSoldCount (env : Env) (productId : Nat) : MarketM Unit :=
  logged <| execute env .incrementSoldCount ⟨.internal, "db_error"⟩ fun db =>
    some ((), db.updateSoldCount productId (· + 1))

/-- Frees a sold slot; a failure is only logged. -/
def decrementMarketProductSoldCount (env : Env) (productId : Nat) : MarketM Unit :=
  logged <| execute env .decrementSoldCount ⟨.internal, "db_error"⟩ fun db =>
    some ((), db.updateSoldCount productId (· - 1))

/-- A product in a request. -/
structure ProductRequest where
  id : Option Nat
  amount : UInt32
  currency : UInt32
  availableCount : UInt32
  details : Option ProductDetails
  delistedAt : Option Timestamp := none
  deriving DecidableEq, Repr

/-- A product has to have a price. -/
def validatePrice (request : ProductRequest) : Except Status Unit :=
  if request.amount = 0 then .error ⟨.invalidArgument, "amount_required"⟩
  else if request.currency = 0 then .error ⟨.invalidArgument, "currency_required"⟩
  else .ok ()

/-- A product with the columns replaced that a request edits. -/
def MarketProduct.edited (existing : MarketProduct) (now : Instant) (request : ProductRequest) :
    MarketProduct :=
  { existing with
    amount := request.amount.toInt32
    currency := request.currency.toInt32
    details := productDetailsToJson request.details
    availableCount := request.availableCount.toInt32
    delistedAt := request.delistedAt.map fun _ => now }

/-- The first part of editing a product: the row as it was read, with the edited columns
replaced. -/
def readProductEdit (env : Env) (caller : User) (request : ProductRequest) :
    MarketM MarketProduct := do
  ofExcept (validatePermission (some caller.toUser) .admin)
  let productId ← okOr request.id ⟨.invalidArgument, "invalid_id:id"⟩
  let existing ← getMarketProduct env productId
  ofExcept (validatePrice request)
  ofExcept (validateDetailsMatchType existing.productType request.details)
  return existing.edited env.now request

/-- What writing a row makes of the current one: every column is written, except one whose
new value is unset. -/
def MarketProduct.changeset (row current : MarketProduct) : MarketProduct :=
  { row with
    id := current.id
    delistedAt := row.delistedAt <|> current.delistedAt }

/-- The tables with a row written over the current one. -/
def MarketDb.writeProduct (db : MarketDb) (row : MarketProduct) : MarketDb :=
  { db with products := db.products.modify row.id row.changeset fun _ => rfl }

/-- A written row is found under its key. -/
theorem MarketDb.get_writeProduct (db : MarketDb) (row : MarketProduct) (id : Nat) :
    (db.writeProduct row).products.get id =
      if id = row.id then (db.products.get id).map row.changeset else db.products.get id :=
  db.products.get_modify row.changeset (fun _ => rfl) row.id id

/-- The second part of editing a product: the row is written back. -/
def writeProduct (env : Env) (row : MarketProduct) : MarketM Unit :=
  execute env .updateProduct ⟨.internal, "failed_to_update_product"⟩ fun db =>
    if (db.products.get row.id).isSome then
      some ((), db.writeProduct row)
    else none

/-- Edits a product. -/
def updateMarketProduct (env : Env) (caller : User) (request : ProductRequest) : MarketM Unit := do
  let row ← readProductEdit env caller request
  writeProduct env row

/-- The metadata of a checkout session; the texts are empty where unset. -/
structure SessionMetadata where
  rellmUserId : Option Nat
  rellmMarketProductId : Option Nat
  rellmHostingDomain : String := ""
  rellmHostingContactEmail : String := ""
  rellmHostingAdditionalInformation : String := ""
  deriving DecidableEq, Repr

/-- A checkout session to be created: what it charges, and its metadata. -/
structure CheckoutSessionParams where
  currency : String
  unitAmount : UInt32
  customer : Option String
  metadata : SessionMetadata
  deriving DecidableEq, Repr

structure MakeMarketPurchaseRequest where
  marketProductId : Option Nat
  rellmHostingDetails : Option RellmHostingPurchaseDetails := none
  deriving DecidableEq, Repr

/-- The Stripe settings, if they can be used. -/
def usableServerStripeConfig (env : Env) : Option StripeConfig :=
  env.stripeConfig.filter fun config => config.stripeEnabled && config.stripeSecretKey ≠ ""

/-- Stripe's code of a supported currency. -/
def currencyCode (currency : UInt32) : Option String :=
  [(840, "usd"), (978, "eur"), (826, "gbp"), (124, "cad"), (36, "aud"), (392, "jpy"),
    (756, "chf")].lookup currency

/-- The reply for any other currency. -/
def unsupportedCurrency : Status := ⟨.invalidArgument, "unsupported_currency"⟩

/-- The Stripe customer of the buyer's latest subscription that has one. -/
def getMarketCustomerIdForBuyer (db : MarketDb) (buyerId : Nat) : Option String :=
  let subscriptions := db.subscriptions.rows.filter fun subscription =>
    decide (subscription.buyerId = buyerId) && subscription.stripeCustomerId.isSome
  (subscriptions.mergeSort fun a b => decide (b.createdAt ≤ a.createdAt)).head?.bind
    (·.stripeCustomerId)

/-- Whether every slot of a capped product is sold. -/
def MarketProduct.soldOut (product : MarketProduct) : Bool :=
  decide (0 < product.availableCount) && decide (product.availableCount.toInt ≤ product.soldCount)

/-- The market has to be open. -/
def checkMarketEnabled (configuration : ServerConfiguration) : Except Status Unit :=
  if configuration.marketSettings.any (·.enabled) then .ok ()
  else .error ⟨.failedPrecondition, "market_disabled"⟩

/-- A product has to be on sale with a slot left, and a request has to say what its type needs. -/
def checkPurchasable (product : MarketProduct) (request : MakeMarketPurchaseRequest) :
    Except Status Unit :=
  if product.delistedAt.isSome then .error ⟨.failedPrecondition, "product_delisted"⟩
  else if product.soldOut then .error ⟨.failedPrecondition, "product_sold_out"⟩
  else if product.productType = .rellmHosting ∧ request.rellmHostingDetails.isNone then
    .error ⟨.invalidArgument, "rellm_hosting_details_required"⟩
  else if product.productType = .permissionsAccess then
    match product.details.toPermissionsAccess with
    | none => .error ⟨.internal, "invalid_product_details"⟩
    | some parsed => validatePermissionsArePurchasable parsed.permissions
  else .ok ()

/-- The host of the frontend, unless it is blank. -/
def usableFrontendHost (configuration : ServerConfiguration) : Option String :=
  (configuration.externalCdnConfig.map (·.frontendHost)).filter fun host => !(trim host).isEmpty

/-- Starts to buy a product: the checkout session to be created. -/
def makeMarketPurchase (env : Env) (request : MakeMarketPurchaseRequest) (caller : User) :
    MarketM CheckoutSessionParams := do
  let configuration ← okOr env.serverConfiguration ⟨.unauthenticated, "data_error"⟩
  ofExcept (checkMarketEnabled configuration)
  let productId ← okOr request.marketProductId ⟨.invalidArgument, "invalid_id:market_product_id"⟩
  let product ← getMarketProduct env productId
  ofExcept (checkPurchasable product request)
  let _ ← okOr (usableServerStripeConfig env) ⟨.failedPrecondition, "stripe_not_configured"⟩
  let _ ← okOr (usableFrontendHost configuration)
    ⟨.failedPrecondition, "frontend_host_not_configured"⟩
  let currency ← okOr (currencyCode product.currency.toUInt32) unsupportedCurrency
  let db ← get
  let hosting := request.rellmHostingDetails.getD {}
  return {
    currency := currency
    unitAmount := product.amount.toUInt32
    customer := getMarketCustomerIdForBuyer db caller.id
    metadata := {
      rellmUserId := some caller.id
      rellmMarketProductId := some product.id
      rellmHostingDomain := hosting.domain
      rellmHostingContactEmail := hosting.contactEmail
      rellmHostingAdditionalInformation := hosting.additionalInformation } }

section

variable {env : Env} {db : MarketDb}

theorem getMarketProduct_ok {id : Nat} {product : MarketProduct}
    (hfault : env.faults .selectProduct = false) (h : db.products.get id = some product) :
    getMarketProduct env id db = .ok product db :=
  execute_ok hfault (by rw [h]; rfl)

theorem getMarketProduct_error {id : Nat}
    (h : env.faults .selectProduct = true ∨ db.products.get id = none) :
    getMarketProduct env id db = .error ⟨.notFound, "product_not_found"⟩ db := by
  apply execute_error
  rcases h with hfault | hnone
  · exact .inl hfault
  · exact .inr (by rw [hnone]; rfl)

theorem incrementMarketProductSoldCount_apply (productId : Nat) :
    incrementMarketProductSoldCount env productId db =
      .ok () (if env.faults .incrementSoldCount then db
        else db.updateSoldCount productId (· + 1)) := by
  rw [incrementMarketProductSoldCount, logged_apply, execute]
  split <;> rfl

theorem decrementMarketProductSoldCount_apply (productId : Nat) :
    decrementMarketProductSoldCount env productId db =
      .ok () (if env.faults .decrementSoldCount then db
        else db.updateSoldCount productId (· - 1)) := by
  rw [decrementMarketProductSoldCount, logged_apply, execute]
  split <;> rfl

/-- A check reads and writes nothing. -/
theorem ofExcept_eq_ok {α : Type} {check : Except Status α} {a : α} {db' : MarketDb} :
    ofExcept check db = .ok a db' ↔ check = .ok a ∧ db = db' := by
  cases check with
  | ok b =>
    constructor
    · rintro ⟨⟩
      exact ⟨rfl, rfl⟩
    · rintro ⟨h, rfl⟩
      obtain rfl := Except.ok.inj h
      rfl
  | error e =>
    constructor
    · rintro ⟨⟩
    · rintro ⟨h, _⟩
      cases h

theorem okOr_eq_ok {α : Type} {value : Option α} {error : Status} {a : α} {db' : MarketDb} :
    okOr value error db = .ok a db' ↔ value = some a ∧ db = db' := by
  cases value with
  | none =>
    constructor
    · rintro ⟨⟩
    · rintro ⟨h, _⟩
      cases h
  | some b =>
    constructor
    · rintro ⟨⟩
      exact ⟨rfl, rfl⟩
    · rintro ⟨h, rfl⟩
      obtain rfl := Option.some.inj h
      rfl

theorem getMarketProduct_eq_ok {id : Nat} {product : MarketProduct} {db' : MarketDb} :
    getMarketProduct env id db = .ok product db' ↔
      env.faults .selectProduct = false ∧ db.products.get id = some product ∧ db = db' := by
  cases hfault : env.faults .selectProduct with
  | true =>
    rw [getMarketProduct_error (.inl hfault)]
    simp
  | false =>
    cases hget : db.products.get id with
    | none =>
      rw [getMarketProduct_error (.inr hget)]
      simp
    | some found =>
      rw [getMarketProduct_ok hfault hget]
      simp

/-- The row to be written back is the requested one as it was read, edited; its details are those
of its type. -/
theorem readProductEdit_requested {caller : User} {request : ProductRequest} {row : MarketProduct}
    {db' : MarketDb} (h : readProductEdit env caller request db = .ok row db') :
    db = db' ∧ ∃ existing, request.id = some existing.id ∧
      db.products.get existing.id = some existing ∧
      validateDetailsMatchType existing.productType request.details = .ok () ∧
      row = existing.edited env.now request := by
  rw [readProductEdit] at h
  obtain ⟨_, _, hadmin, hallowed⟩ := bind_eq_ok.mp h
  obtain ⟨_, rfl⟩ := ofExcept_eq_ok.mp hadmin
  obtain ⟨productId, _, hid, hidentified⟩ := bind_eq_ok.mp hallowed
  obtain ⟨hrequested, rfl⟩ := okOr_eq_ok.mp hid
  obtain ⟨existing, _, hproduct, hread⟩ := bind_eq_ok.mp hidentified
  obtain ⟨_, hget, rfl⟩ := getMarketProduct_eq_ok.mp hproduct
  have hkey : existing.id = productId := Table.key_of_get hget
  obtain ⟨_, _, hprice, hpriced⟩ := bind_eq_ok.mp hread
  obtain ⟨_, rfl⟩ := ofExcept_eq_ok.mp hprice
  obtain ⟨_, _, hdetails, hchecked⟩ := bind_eq_ok.mp hpriced
  obtain ⟨hmatch, rfl⟩ := ofExcept_eq_ok.mp hdetails
  cases hchecked
  rw [← hkey] at hrequested hget
  exact ⟨rfl, existing, hrequested, hget, hmatch, rfl⟩

/-- The row to be written back is the one that was read, edited. -/
theorem readProductEdit_eq_ok {caller : User} {request : ProductRequest} {row : MarketProduct}
    {db' : MarketDb} (h : readProductEdit env caller request db = .ok row db') :
    db = db' ∧ ∃ existing, db.products.get existing.id = some existing ∧
      row = existing.edited env.now request := by
  obtain ⟨hdb, existing, _, hget, _, hrow⟩ := readProductEdit_requested h
  exact ⟨hdb, existing, hget, hrow⟩

theorem ofExcept_readOnly {α : Type} (check : Except Status α) : ReadOnly (ofExcept check) := by
  cases check <;> exact fun _ => rfl

theorem getMarketProduct_readOnly (id : Nat) : ReadOnly (getMarketProduct env id) := by
  apply execute_readOnly
  intro db product db' h
  obtain ⟨_, _, heq⟩ := Option.map_eq_some_iff.mp h
  exact (Prod.mk.inj heq).2.symm

/-- Reading a product to edit it writes nothing. -/
theorem readProductEdit_readOnly (caller : User) (request : ProductRequest) :
    ReadOnly (readProductEdit env caller request) := by
  refine (ofExcept_readOnly _).bind fun _ => ?_
  refine (okOr_readOnly _).bind fun productId => ?_
  refine (getMarketProduct_readOnly productId).bind fun existing => ?_
  refine (ofExcept_readOnly _).bind fun _ => ?_
  exact (ofExcept_readOnly _).bind fun _ => ReadOnly.pure _

/-- Starting to buy a product writes nothing. -/
theorem makeMarketPurchase_readOnly (request : MakeMarketPurchaseRequest) (caller : User) :
    ReadOnly (makeMarketPurchase env request caller) := by
  refine (okOr_readOnly _).bind fun _ => ?_
  refine (ofExcept_readOnly _).bind fun _ => ?_
  refine (okOr_readOnly _).bind fun productId => ?_
  refine (getMarketProduct_readOnly productId).bind fun _ => ?_
  refine (ofExcept_readOnly _).bind fun _ => ?_
  refine (okOr_readOnly _).bind fun _ => ?_
  refine (okOr_readOnly _).bind fun _ => ?_
  exact (okOr_readOnly _).bind fun _ => fun _ => rfl

/-- The session that is created charges the current price of the product. -/
theorem makeMarketPurchase_charges {request : MakeMarketPurchaseRequest} {caller : User}
    {params : CheckoutSessionParams} {db' : MarketDb}
    (h : makeMarketPurchase env request caller db = .ok params db') :
    ∃ product, db.products.get product.id = some product ∧
      checkPurchasable product request = .ok () ∧
      params.metadata.rellmMarketProductId = some product.id ∧
      params.unitAmount = product.amount.toUInt32 ∧
      currencyCode product.currency.toUInt32 = some params.currency := by
  rw [makeMarketPurchase] at h
  obtain ⟨configuration, _, hconfiguration, hconfigured⟩ := bind_eq_ok.mp h
  obtain ⟨_, rfl⟩ := okOr_eq_ok.mp hconfiguration
  obtain ⟨_, _, henabled, hopen⟩ := bind_eq_ok.mp hconfigured
  obtain ⟨_, rfl⟩ := ofExcept_eq_ok.mp henabled
  obtain ⟨productId, _, hid, hidentified⟩ := bind_eq_ok.mp hopen
  obtain ⟨_, rfl⟩ := okOr_eq_ok.mp hid
  obtain ⟨product, _, hproduct, hread⟩ := bind_eq_ok.mp hidentified
  obtain ⟨_, hget, rfl⟩ := getMarketProduct_eq_ok.mp hproduct
  have hkey : product.id = productId := Table.key_of_get hget
  obtain ⟨_, _, hcheck, hchecked⟩ := bind_eq_ok.mp hread
  obtain ⟨hpurchasable, rfl⟩ := ofExcept_eq_ok.mp hcheck
  obtain ⟨_, _, hstripe, hpayable⟩ := bind_eq_ok.mp hchecked
  obtain ⟨_, rfl⟩ := okOr_eq_ok.mp hstripe
  obtain ⟨_, _, hhost, hreachable⟩ := bind_eq_ok.mp hpayable
  obtain ⟨_, rfl⟩ := okOr_eq_ok.mp hhost
  obtain ⟨currency, _, hcurrency, hcreated⟩ := bind_eq_ok.mp hreachable
  obtain ⟨hcode, rfl⟩ := okOr_eq_ok.mp hcurrency
  cases hcreated
  exact ⟨product, hkey ▸ hget, hpurchasable, rfl, rfl, hcode⟩

/-- Editing a product does nothing, or writes the current row with the edited columns. -/
theorem updateMarketProduct_cases (caller : User) (request : ProductRequest) :
    finalState (updateMarketProduct env caller request db) = db ∨
      ∃ existing, db.products.get existing.id = some existing ∧
        finalState (updateMarketProduct env caller request db) =
          db.writeProduct (existing.edited env.now request) := by
  rw [updateMarketProduct]
  cases hread : readProductEdit env caller request db with
  | error e db' =>
    have hdb : finalState (readProductEdit env caller request db) = db :=
      readProductEdit_readOnly caller request db
    rw [hread] at hdb
    rw [bind_of_error hread]
    exact .inl hdb
  | ok row db' =>
    obtain ⟨rfl, existing, hget, rfl⟩ := readProductEdit_eq_ok hread
    rw [bind_of_ok hread, writeProduct]
    cases hfault : env.faults .updateProduct with
    | true =>
      rw [execute_error (.inl hfault)]
      exact .inl rfl
    | false =>
      refine .inr ⟨existing, hget, ?_⟩
      have hsome : (db.products.get (existing.edited env.now request).id).isSome = true := by
        rw [MarketProduct.edited, hget]
        rfl
      rw [execute_ok hfault (if_pos hsome)]
      rfl

end

end Rellm.Market
