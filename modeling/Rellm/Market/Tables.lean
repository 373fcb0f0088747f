import Rellm.Calendar.Vevents
import Rellm.Foundation.Serial
import Rellm.Foundation.Statements
import Rellm.Protos.Permissions
import Rellm.Protos.ServerConfiguration

/-!
# The tables of the marketplace

Products, the subscriptions and purchases made of them, and the payments recorded
for a purchase, with the users they are about. The operations on them execute
statements one by one, without a transaction; any statement may fail. An id that
travels as a base58 text is modelled by what the text decodes to.
-/

namespace Rellm.Market

open Foundation Calendar

/-- What a product grants once purchased. -/
inductive PurchaseType where
  | mediaStorage
  | aiGrants
  | rellmHosting
  | permissionsAccess
  deriving DecidableEq, Repr

/-- How often a product bills. -/
inductive PurchasePeriod where
  | indefinite
  | annual
  | monthly
  deriving DecidableEq, Repr

/-- The raw value of `FULFILLMENT_STATUS_AWAITING_HOST_ADMIN`, the default. -/
def awaitingHostAdmin : Int32 := 0

structure FulfillmentNote where
  userId : String
  note : String
  fulfillmentStatus : Int32
  createdAt : Option Timestamp := none
  deriving DecidableEq, Repr

structure MediaStorageDetails where
  allocationBytes : UInt64
  deriving DecidableEq, Repr

structure AiGrantDetails where
  aiProviderId : Option Nat
  modelNames : List String
  tokens : UInt64
  deriving DecidableEq, Repr

structure PermissionsAccessDetails where
  permissions : List Int32
  name : String := ""
  description : String := ""
  deriving DecidableEq, Repr

structure RellmHostingPurchaseDetails where
  dbSizeBytes : UInt64 := 0
  objectStorageSizeBytes : UInt64 := 0
  additionalDescription : String := ""
  domain : String := ""
  contactEmail : String := ""
  additionalInformation : String := ""
  deriving DecidableEq, Repr

structure RellmHostingSubscriptionDetails extends RellmHostingPurchaseDetails where
  fulfillmentStatus : Int32 := awaitingHostAdmin
  fulfillmentNotes : List FulfillmentNote := []
  deriving DecidableEq, Repr

/-- The value of a `details` column: the fields of one message, without a tag. Unset
details are an empty object. -/
inductive DetailsJson where
  | unset
  | mediaStorage (details : MediaStorageDetails)
  | aiGrant (details : AiGrantDetails)
  | permissionsAccess (details : PermissionsAccessDetails)
  | rellmHostingPurchase (details : RellmHostingPurchaseDetails)
  | rellmHostingSubscription (details : RellmHostingSubscriptionDetails)
  deriving DecidableEq, Repr

namespace DetailsJson

def toMediaStorage : DetailsJson → Option MediaStorageDetails
  | mediaStorage details => some details
  | _ => none

def toAiGrant : DetailsJson → Option AiGrantDetails
  | aiGrant details => some details
  | _ => none

def toPermissionsAccess : DetailsJson → Option PermissionsAccessDetails
  | permissionsAccess details => some details
  | _ => none

/-- The fields a hosting purchase lacks have defaults. -/
def toRellmHostingSubscription : DetailsJson → Option RellmHostingSubscriptionDetails
  | rellmHostingPurchase details => some { toRellmHostingPurchaseDetails := details }
  | rellmHostingSubscription details => some details
  | _ => none

end DetailsJson

structure MarketProduct where
  id : Nat
  productType : PurchaseType
  period : PurchasePeriod
  amount : Int32
  currency : Int32
  details : DetailsJson
  createdAt : Instant
  delistedAt : Option Instant := none
  availableCount : Int32
  soldCount : Nat := 0
  deriving DecidableEq, Repr

structure NewMarketSubscription where
  buyerId : Nat
  productId : Nat
  productType : PurchaseType
  period : PurchasePeriod
  amount : Int32
  currency : Int32
  details : DetailsJson
  renewsAt : Option Instant
  stripeCustomerId : Option String
  stripePaymentMethodId : Option String
  deriving DecidableEq, Repr

structure MarketSubscription extends NewMarketSubscription where
  id : Nat
  createdAt : Instant
  canceledAt : Option Instant := none
  serviceTerminatedAt : Option Instant := none
  deriving DecidableEq, Repr

structure NewMarketPurchase where
  buyerId : Nat
  productId : Nat
  subscriptionId : Option Nat
  productType : PurchaseType
  details : DetailsJson
  stripeCheckoutSessionId : Option String
  stripePaymentIntentId : Option String
  deriving DecidableEq, Repr

structure MarketPurchase extends NewMarketPurchase where
  id : Nat
  createdAt : Instant
  deriving DecidableEq, Repr

/-- What of a card is kept for display. -/
structure CardDetails where
  brand : String
  last4 : String
  expMonth : UInt32
  expYear : UInt32
  deriving DecidableEq, Repr

structure NewMarketPayment where
  purchaseId : Nat
  amount : Int32
  currency : Int32
  stripePaymentIntentId : Option String
  stripeRefundId : Option String := none
  method : Option CardDetails
  deriving DecidableEq, Repr

structure MarketPayment extends NewMarketPayment where
  id : Nat
  createdAt : Instant
  deriving DecidableEq, Repr

/-- The columns of a user that the marketplace reads or writes. -/
structure User extends Rellm.User where
  id : Nat
  mediaStorageLimitBytes : Option Int64 := none
  deriving DecidableEq, Repr

structure AiProviderGrant where
  aiProviderId : Nat
  granteeId : Nat
  modelNames : List String
  tokensRemaining : Int64
  overage : Int64
  deriving DecidableEq, Repr

/-- The unique key of a grant. -/
def AiProviderGrant.key (grant : AiProviderGrant) : Nat × Nat :=
  (grant.aiProviderId, grant.granteeId)

/-- The tables, and the ids of the AI providers. -/
structure MarketDb where
  users : Table User.id
  aiProviders : List Nat
  grants : Table AiProviderGrant.key
  products : Serial MarketProduct.id
  subscriptions : Serial MarketSubscription.id
  purchases : Serial MarketPurchase.id
  payments : Serial MarketPayment.id

/-- The payments recorded for a purchase. -/
def MarketDb.paymentsOf (db : MarketDb) (purchaseId : Nat) : List MarketPayment :=
  db.payments.rows.filter fun payment => payment.purchaseId = purchaseId

/-- Payments are of purchases that are stored. -/
def PaymentsStored (db : MarketDb) : Prop :=
  ∀ payment ∈ db.payments.rows, payment.purchaseId < db.purchases.next

instance (db : MarketDb) : Decidable (PaymentsStored db) :=
  inferInstanceAs (Decidable (∀ payment ∈ db.payments.rows, payment.purchaseId < db.purchases.next))

/-- The next purchase has no payments yet. -/
theorem PaymentsStored.paymentsOf_next {db : MarketDb} (h : PaymentsStored db) :
    db.paymentsOf db.purchases.next = [] := by
  rw [MarketDb.paymentsOf, List.filter_eq_nil_iff]
  intro payment hmem
  have hbelow := h payment hmem
  simp only [decide_eq_true_eq]
  omega

/-- The statements that the operations execute. -/
inductive Statement where
  | selectPurchase
  | selectProduct
  | selectSubscription
  | selectUser
  | selectDue
  | selectTerminable
  | insertSubscription
  | insertPurchase
  | insertPayment
  | incrementSoldCount
  | decrementSoldCount
  | updateStorageLimit
  | updatePermissions
  | upsertGrant
  | updateProduct
  | updateSubscription
  | cancelSubscription
  | advanceRenewal
  | endSubscription
  | stampTermination
  deriving DecidableEq, Repr

/-- What an operation finds besides the tables: the time, the server's configuration where it
can be read, and the statements that fail. -/
structure Env where
  now : Instant
  serverConfiguration : Option ServerConfiguration := none
  stripeConfig : Option StripeConfig := none
  faults : Statement → Bool := fun _ => false

/-- An operation on the tables. -/
abbrev MarketM := EStateM Status MarketDb

/-- Executes a statement; it fails where the database does, or where a key forbids it. -/
def execute {α : Type} (env : Env) (statement : Statement) (error : Status)
    (effect : MarketDb → Option (α × MarketDb)) : MarketM α := fun db =>
  if env.faults statement then .error error db
  else match effect db with
    | none => .error error db
    | some (result, db') => .ok result db'

/-- The value, or else an error reply. -/
def okOr {α : Type} (value : Option α) (error : Status) : MarketM α :=
  match value with
  | none => throw error
  | some a => pure a

section

variable {α : Type} {env : Env} {statement : Statement} {error : Status}
variable {effect : MarketDb → Option (α × MarketDb)} {db db' : MarketDb} {result : α}

/-- A statement that neither fails nor is forbidden takes effect. -/
theorem execute_ok (hfault : env.faults statement = false)
    (heffect : effect db = some (result, db')) :
    execute env statement error effect db = .ok result db' := by
  simp [execute, hfault, heffect]

/-- A statement that does not take effect changes nothing. -/
theorem execute_error (h : env.faults statement = true ∨ effect db = none) :
    execute env statement error effect db = .error error db := by
  rcases h with hfault | heffect
  · simp [execute, hfault]
  · simp [execute, heffect]

/-- A statement succeeds if neither it fails nor a key forbids it. -/
theorem succeeded_execute : succeeded (execute env statement error effect db) =
    (!env.faults statement && (effect db).isSome) := by
  rw [execute]
  cases env.faults statement with
  | true => rfl
  | false =>
    cases effect db <;> rfl

/-- A statement relates the states around it as its effect does. -/
theorem execute_within {R : MarketDb → MarketDb → Prop} (hrefl : ∀ db, R db db)
    (heffect : ∀ db result db', effect db = some (result, db') → R db db') :
    Within R (execute env statement error effect) := by
  intro db
  rw [execute]
  split
  · exact hrefl db
  · split
    · exact hrefl db
    · rename_i hresult
      exact heffect db _ _ hresult

/-- A statement that fails writes nothing. -/
theorem execute_onFailure {R : MarketDb → MarketDb → Prop} (hrefl : ∀ db, R db db) :
    OnFailure R (execute env statement error effect) := by
  intro db e db' h
  rw [execute] at h
  split at h
  · cases h
    exact hrefl db
  · split at h
    · cases h
      exact hrefl db
    · cases h

/-- What a statement that succeeded took for its effect. -/
theorem execute_eq_ok (h : execute env statement error effect db = .ok result db') :
    effect db = some (result, db') := by
  rw [execute] at h
  split at h
  · cases h
  · split at h
    · cases h
    · rename_i heffect
      cases h
      exact heffect

/-- A statement whose effect only reads writes nothing. -/
theorem execute_readOnly
    (heffect : ∀ db result db', effect db = some (result, db') → db' = db) :
    ReadOnly (execute env statement error effect) :=
  execute_within (R := fun db db' => db' = db) (fun _ => rfl) heffect

@[simp] theorem okOr_none : okOr (none : Option α) error db = .error error db := rfl

@[simp] theorem okOr_some : okOr (some result) error db = .ok result db := rfl

theorem okOr_within {R : MarketDb → MarketDb → Prop} (hrefl : ∀ db, R db db)
    (value : Option α) : Within R (okOr value error) := by
  cases value with
  | none => exact Within.throw hrefl error
  | some a => exact Within.pure hrefl a

theorem okOr_readOnly (value : Option α) : ReadOnly (okOr value error) :=
  okOr_within (R := fun db db' => db' = db) (fun _ => rfl) value

end

end Rellm.Market
