import Rellm.Market.Tables

/-!
# Entitlements

Applying what a purchase grants to its buyer, and revoking it when the service of
a subscription ends. Neither touches the marketplace's own tables.
-/

namespace Rellm.Market

open Foundation

/-- The permissions with the given raw values, each once. A value outside the enumeration has
no defined conversion in the source and is dropped here. -/
def toProtoPermissions (values : List Int32) : List Permission :=
  (unique values).filterMap Permission.ofI32

/-- The JSON column of a list of permissions. -/
def permissionsJson (permissions : List Permission) : NamesJson :=
  NamesJson.encode Permission.asStrName (unique permissions)

/-- Adds a permission that is not there yet. -/
def addPermission (permissions : List Permission) (permission : Permission) : List Permission :=
  if permission ∈ permissions then permissions else permissions ++ [permission]

/-- Rewrites the row of a user. -/
def MarketDb.updateUser (db : MarketDb) (userId : Nat) (f : User → User)
    (hf : ∀ user, (f user).id = user.id) : MarketDb :=
  { db with users := db.users.update (fun user => user.id = userId) f hf }

def getUser (env : Env) (id : Nat) : MarketM User :=
  execute env .selectUser ⟨.notFound, "user_not_found"⟩ fun db =>
    (db.users.get id).map fun user => (user, db)

/-- Sets the storage limit of a user. -/
def updateStorageLimit (env : Env) (userId : Nat) (limit : Option Int64) (error : Status) :
    MarketM Unit :=
  execute env .updateStorageLimit error fun db =>
    some ((), db.updateUser userId (fun user => { user with mediaStorageLimitBytes := limit })
      fun _ => rfl)

/-- Sets the permissions of a user. -/
def updatePermissions (env : Env) (userId : Nat) (permissions : List Permission)
    (error : Status) : MarketM Unit :=
  execute env .updatePermissions error fun db =>
    some ((), db.updateUser userId
      (fun user => { user with permissions := permissionsJson permissions }) fun _ => rfl)

/-- Inserts a grant or resets the one with its key. -/
def upsertAiProviderGrant (env : Env) (grant : AiProviderGrant) : MarketM Unit :=
  execute env .upsertGrant ⟨.internal, "failed_to_grant_ai_provider"⟩ fun db =>
    if grant.aiProviderId ∈ db.aiProviders ∧ (db.users.get grant.granteeId).isSome then
      some ((), { db with grants := db.grants.put grant })
    else none

/-- Applies the entitlement of a purchase to its buyer. -/
def fulfillPurchase (env : Env) (purchaseType : PurchaseType) (buyerId : Nat)
    (details : DetailsJson) : MarketM Unit :=
  match purchaseType with
  | .mediaStorage => do
    let parsed ← okOr details.toMediaStorage ⟨.internal, "invalid_purchase_details"⟩
    updateStorageLimit env buyerId (some parsed.allocationBytes.toInt64)
      ⟨.internal, "failed_to_apply_entitlement"⟩
  | .aiGrants => do
    let parsed ← okOr details.toAiGrant ⟨.internal, "invalid_purchase_details"⟩
    let aiProviderId ← okOr parsed.aiProviderId ⟨.invalidArgument, "invalid_id:ai_provider_id"⟩
    upsertAiProviderGrant env {
      aiProviderId := aiProviderId
      granteeId := buyerId
      modelNames := parsed.modelNames
      tokensRemaining := parsed.tokens.toInt64
      overage := 0 }
  | .rellmHosting => pure ()
  | .permissionsAccess => do
    let parsed ← okOr details.toPermissionsAccess ⟨.internal, "invalid_purchase_details"⟩
    let buyer ← getUser env buyerId
    let updated :=
      (toProtoPermissions parsed.permissions).foldl addPermission buyer.permissions.toProtoPermissions
    updatePermissions env buyerId updated ⟨.internal, "failed_to_apply_entitlement"⟩

/-- Revokes the entitlement of a subscription from its buyer. -/
def terminateEntitlement (env : Env) (purchaseType : PurchaseType) (buyerId : Nat)
    (details : DetailsJson) : MarketM Unit :=
  match purchaseType with
  | .mediaStorage => do
    let configuration ← okOr env.serverConfiguration ⟨.unauthenticated, "data_error"⟩
    updateStorageLimit env buyerId
      (configuration.mediaSettings.map (·.defaultUserMediaAllocationBytes.toInt64))
      ⟨.internal, "failed_to_revoke_entitlement"⟩
  | .permissionsAccess => do
    let parsed ← okOr details.toPermissionsAccess ⟨.internal, "invalid_subscription_details"⟩
    let buyer ← getUser env buyerId
    let updated := buyer.permissions.toProtoPermissions.filter fun permission =>
      permission ∉ toProtoPermissions parsed.permissions
    updatePermissions env buyerId updated ⟨.internal, "failed_to_revoke_entitlement"⟩
  | .aiGrants | .rellmHosting => pure ()

/-- Whether an entitlement can be applied: the details are the type's, what they name exists,
and no statement fails. -/
def canFulfill (env : Env) (db : MarketDb) (purchaseType : PurchaseType) (buyerId : Nat)
    (details : DetailsJson) : Bool :=
  match purchaseType with
  | .mediaStorage => details.toMediaStorage.isSome && !env.faults .updateStorageLimit
  | .aiGrants => (details.toAiGrant.bind (·.aiProviderId)).any fun aiProviderId =>
      decide (aiProviderId ∈ db.aiProviders) && (db.users.get buyerId).isSome &&
        !env.faults .upsertGrant
  | .rellmHosting => true
  | .permissionsAccess => details.toPermissionsAccess.isSome && (db.users.get buyerId).isSome &&
      !env.faults .selectUser && !env.faults .updatePermissions

/-- At most the users and their grants differ, and the same users exist. -/
structure OnlyUsers (db db' : MarketDb) : Prop where
  aiProviders : db'.aiProviders = db.aiProviders
  products : db'.products = db.products
  subscriptions : db'.subscriptions = db.subscriptions
  purchases : db'.purchases = db.purchases
  payments : db'.payments = db.payments
  users : ∀ id, (db'.users.get id).isSome = (db.users.get id).isSome

namespace OnlyUsers

theorem refl (db : MarketDb) : OnlyUsers db db := ⟨rfl, rfl, rfl, rfl, rfl, fun _ => rfl⟩

theorem trans (db db' db'' : MarketDb) (h : OnlyUsers db db') (h' : OnlyUsers db' db'') :
    OnlyUsers db db'' where
  aiProviders := h'.aiProviders.trans h.aiProviders
  products := h'.products.trans h.products
  subscriptions := h'.subscriptions.trans h.subscriptions
  purchases := h'.purchases.trans h.purchases
  payments := h'.payments.trans h.payments
  users id := (h'.users id).trans (h.users id)

/-- Rewriting a user keeps who exists. -/
theorem updateUser (db : MarketDb) (userId : Nat) (f : User → User)
    (hf : ∀ user, (f user).id = user.id) : OnlyUsers db (db.updateUser userId f hf) :=
  ⟨rfl, rfl, rfl, rfl, rfl, fun id => by simp [MarketDb.updateUser]⟩

end OnlyUsers

section

variable {env : Env}

theorem getUser_within (id : Nat) : Within OnlyUsers (getUser env id) := by
  apply execute_within OnlyUsers.refl
  intro db user db' h
  obtain ⟨_, _, heq⟩ := Option.map_eq_some_iff.mp h
  obtain ⟨rfl, rfl⟩ := Prod.mk.inj heq
  exact .refl db

theorem updateStorageLimit_within (userId : Nat) (limit : Option Int64) (error : Status) :
    Within OnlyUsers (updateStorageLimit env userId limit error) := by
  apply execute_within OnlyUsers.refl
  intro db _ db' h
  obtain ⟨_, rfl⟩ := Prod.mk.inj (Option.some.inj h)
  exact .updateUser db _ _ _

theorem updatePermissions_within (userId : Nat) (permissions : List Permission) (error : Status) :
    Within OnlyUsers (updatePermissions env userId permissions error) := by
  apply execute_within OnlyUsers.refl
  intro db _ db' h
  obtain ⟨_, rfl⟩ := Prod.mk.inj (Option.some.inj h)
  exact .updateUser db _ _ _

theorem upsertAiProviderGrant_within (grant : AiProviderGrant) :
    Within OnlyUsers (upsertAiProviderGrant env grant) := by
  apply execute_within OnlyUsers.refl
  intro db _ db' h
  split at h
  · obtain ⟨_, rfl⟩ := Prod.mk.inj (Option.some.inj h)
    exact ⟨rfl, rfl, rfl, rfl, rfl, fun _ => rfl⟩
  · cases h

/-- Applying an entitlement changes users and grants only. -/
theorem fulfillPurchase_within (purchaseType : PurchaseType) (buyerId : Nat)
    (details : DetailsJson) :
    Within OnlyUsers (fulfillPurchase env purchaseType buyerId details) := by
  cases purchaseType with
  | mediaStorage =>
    exact (okOr_within OnlyUsers.refl _).bind OnlyUsers.trans
      fun _ => updateStorageLimit_within _ _ _
  | aiGrants =>
    refine (okOr_within OnlyUsers.refl _).bind OnlyUsers.trans fun _ => ?_
    exact (okOr_within OnlyUsers.refl _).bind OnlyUsers.trans
      fun _ => upsertAiProviderGrant_within _
  | rellmHosting => exact Within.pure OnlyUsers.refl ()
  | permissionsAccess =>
    refine (okOr_within OnlyUsers.refl _).bind OnlyUsers.trans fun _ => ?_
    exact (getUser_within _).bind OnlyUsers.trans fun _ => updatePermissions_within _ _ _

/-- Revoking an entitlement changes users only. -/
theorem terminateEntitlement_within (purchaseType : PurchaseType) (buyerId : Nat)
    (details : DetailsJson) :
    Within OnlyUsers (terminateEntitlement env purchaseType buyerId details) := by
  cases purchaseType with
  | mediaStorage =>
    exact (okOr_within OnlyUsers.refl _).bind OnlyUsers.trans
      fun _ => updateStorageLimit_within _ _ _
  | aiGrants => exact Within.pure OnlyUsers.refl ()
  | rellmHosting => exact Within.pure OnlyUsers.refl ()
  | permissionsAccess =>
    refine (okOr_within OnlyUsers.refl _).bind OnlyUsers.trans fun _ => ?_
    exact (getUser_within _).bind OnlyUsers.trans fun _ => updatePermissions_within _ _ _

/-- An entitlement is applied exactly if it can be. -/
theorem succeeded_fulfillPurchase (db : MarketDb) (purchaseType : PurchaseType) (buyerId : Nat)
    (details : DetailsJson) :
    succeeded (fulfillPurchase env purchaseType buyerId details db) =
      canFulfill env db purchaseType buyerId details := by
  cases purchaseType with
  | mediaStorage =>
    rw [fulfillPurchase, canFulfill]
    cases details.toMediaStorage with
    | none => rfl
    | some parsed =>
      rw [bind_of_ok (okOr_some), updateStorageLimit, succeeded_execute]
      simp
  | aiGrants =>
    rw [fulfillPurchase, canFulfill]
    cases details.toAiGrant with
    | none => rfl
    | some parsed =>
      rw [bind_of_ok (okOr_some), Option.bind_some]
      cases parsed.aiProviderId with
      | none => rfl
      | some aiProviderId =>
        rw [bind_of_ok (okOr_some), upsertAiProviderGrant, succeeded_execute, Option.any_some,
          Bool.and_comm]
        by_cases h : aiProviderId ∈ db.aiProviders ∧ (db.users.get buyerId).isSome
        · simp [h]
        · rw [if_neg h]
          simp only [not_and, Bool.not_eq_true] at h
          by_cases hprovider : aiProviderId ∈ db.aiProviders
          · simp [h hprovider]
          · simp [hprovider]
  | rellmHosting => rfl
  | permissionsAccess =>
    rw [fulfillPurchase, canFulfill]
    cases details.toPermissionsAccess with
    | none => rfl
    | some parsed =>
      rw [bind_of_ok (okOr_some)]
      cases hselect : env.faults .selectUser with
      | true =>
        have hgetUser : getUser env buyerId db = .error ⟨.notFound, "user_not_found"⟩ db :=
          execute_error (.inl hselect)
        rw [bind_of_error hgetUser]
        simp
      | false =>
        cases hbuyer : db.users.get buyerId with
        | none =>
          have hgetUser : getUser env buyerId db = .error ⟨.notFound, "user_not_found"⟩ db :=
            execute_error (.inr (by rw [hbuyer]; rfl))
          rw [bind_of_error hgetUser]
          simp
        | some buyer =>
          have hgetUser : getUser env buyerId db = .ok buyer db :=
            execute_ok hselect (by rw [hbuyer]; rfl)
          rw [bind_of_ok hgetUser, updatePermissions, succeeded_execute]
          simp

/-- Whether an entitlement can be applied depends on which users and providers exist. -/
theorem canFulfill_congr {db db' : MarketDb} (hproviders : db'.aiProviders = db.aiProviders)
    (husers : ∀ id, (db'.users.get id).isSome = (db.users.get id).isSome)
    (purchaseType : PurchaseType) (buyerId : Nat) (details : DetailsJson) :
    canFulfill env db' purchaseType buyerId details =
      canFulfill env db purchaseType buyerId details := by
  cases purchaseType <;> simp [canFulfill, hproviders, husers]

end

end Rellm.Market
