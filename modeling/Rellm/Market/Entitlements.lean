import Rellm.Market.Slots

/-!
# Storage entitlements

The storage limit of a user is one field that every purchase, renewal and termination
overwrites. It is what the latest of these set: the allocation of the subscription
fulfilled last, or the server's default where a subscription was terminated since,
also while other subscriptions of the user are in effect.
-/

namespace Rellm.Market

open Foundation Calendar

/-- The storage limit of a user. -/
def storageLimit (buyerId : Nat) (db : MarketDb) : Option Int64 :=
  (db.users.get buyerId).bind (·.mediaStorageLimitBytes)

/-- The storage that details allocate. -/
def DetailsJson.allocation (details : DetailsJson) : Option Int64 :=
  details.toMediaStorage.map (·.allocationBytes.toInt64)

/-- The storage limit of a server's users by default. -/
def defaultStorageLimit (configuration : ServerConfiguration) : Option Int64 :=
  configuration.mediaSettings.map (·.defaultUserMediaAllocationBytes.toInt64)

/-- The limit that a purchase sets for a user. -/
def granted (buyerId : Nat) (purchaseType : PurchaseType) (payerId : Nat) (details : DetailsJson) :
    Option Int64 :=
  if purchaseType = .mediaStorage ∧ payerId = buyerId then details.allocation else none

/-- The limit that terminating a subscription sets for a user. -/
def revoked (buyerId : Nat) (configuration : Option ServerConfiguration)
    (purchaseType : PurchaseType) (payerId : Nat) : Option (Option Int64) :=
  if purchaseType = .mediaStorage ∧ payerId = buyerId then
    configuration.map defaultStorageLimit
  else none

/-- The users are there as before, with the same limits. -/
structure SameLimits (db db' : MarketDb) : Prop where
  users : ∀ id, (db'.users.get id).isSome = (db.users.get id).isSome
  limits : ∀ buyerId, storageLimit buyerId db' = storageLimit buyerId db

namespace SameLimits

theorem refl (db : MarketDb) : SameLimits db db := ⟨fun _ => rfl, fun _ => rfl⟩

theorem trans (db db' db'' : MarketDb) (h : SameLimits db db') (h' : SameLimits db' db'') :
    SameLimits db db'' where
  users id := (h'.users id).trans (h.users id)
  limits buyerId := (h'.limits buyerId).trans (h.limits buyerId)

theorem of_users {db db' : MarketDb} (h : db'.users = db.users) : SameLimits db db' where
  users _ := by rw [h]
  limits _ := by rw [storageLimit, h, storageLimit]

end SameLimits

section

variable {chrono : Chrono} {env : Env} {stripe : StripeApi} {purchaseType : PurchaseType}
variable {db db' : MarketDb} {buyerId payerId : Nat} {details : DetailsJson}

/-- Setting the limit of a user sets that user's limit only. -/
theorem storageLimit_updateUser (hbuyer : (db.users.get buyerId).isSome = true)
    (limit : Option Int64) :
    storageLimit buyerId (db.updateUser payerId
      (fun user => { user with mediaStorageLimitBytes := limit }) fun _ => rfl) =
        if payerId = buyerId then limit else storageLimit buyerId db := by
  obtain ⟨user, huser⟩ := Option.isSome_iff_exists.mp hbuyer
  rw [storageLimit, MarketDb.updateUser, Table.get_update_key, storageLimit, huser]
  by_cases h : payerId = buyerId
  · rw [if_pos h, if_pos h.symm]
    rfl
  · rw [if_neg h, if_neg fun heq => h heq.symm]

theorem getUser_keepsLimits (id : Nat) : Within SameLimits (getUser env id) := by
  apply execute_within SameLimits.refl
  intro db user db' h
  obtain ⟨_, _, heq⟩ := Option.map_eq_some_iff.mp h
  obtain ⟨rfl, rfl⟩ := Prod.mk.inj heq
  exact .refl db

/-- Setting the permissions of a user sets no limit. -/
theorem updatePermissions_keepsLimits (permissions : List Permission) (error : Status) :
    Within SameLimits (updatePermissions env payerId permissions error) := by
  apply execute_within SameLimits.refl
  intro db _ db' h
  obtain ⟨_, rfl⟩ := Prod.mk.inj (Option.some.inj h)
  refine ⟨(OnlyUsers.updateUser db _ _ _).users, fun buyerId => ?_⟩
  rw [storageLimit, MarketDb.updateUser, Table.get_update_key, storageLimit]
  split
  · cases db.users.get buyerId <;> rfl
  · rfl

/-- Granting permissions to a user, or taking them back, sets no limit. -/
theorem permissions_keepLimits {α : Type} (value : Option α) (error error' : Status)
    (updated : α → User → List Permission) :
    Within SameLimits (do
      let parsed ← okOr value error
      let buyer ← getUser env payerId
      updatePermissions env payerId (updated parsed buyer) error') := by
  refine (okOr_within SameLimits.refl _).bind SameLimits.trans fun parsed => ?_
  exact (getUser_keepsLimits _).bind SameLimits.trans fun buyer =>
    updatePermissions_keepsLimits _ _

theorem upsertAiProviderGrant_keepsLimits (grant : AiProviderGrant) :
    Within SameLimits (upsertAiProviderGrant env grant) := by
  apply execute_within SameLimits.refl
  intro db _ db' h
  split at h
  · obtain ⟨_, rfl⟩ := Prod.mk.inj (Option.some.inj h)
    exact .of_users rfl
  · cases h

/-- A purchase that is no storage sets no limit. -/
theorem fulfillPurchase_keepsLimits (h : purchaseType ≠ .mediaStorage) :
    Within SameLimits (fulfillPurchase env purchaseType payerId details) := by
  cases purchaseType with
  | mediaStorage => exact absurd rfl h
  | aiGrants =>
    refine (okOr_within SameLimits.refl _).bind SameLimits.trans fun _ => ?_
    exact (okOr_within SameLimits.refl _).bind SameLimits.trans fun _ =>
      upsertAiProviderGrant_keepsLimits _
  | rellmHosting => exact Within.pure SameLimits.refl ()
  | permissionsAccess => exact permissions_keepLimits _ _ _ _

/-- Applying an entitlement sets the limit it grants. -/
theorem storageLimit_fulfillPurchase (hfault : env.faults .updateStorageLimit = false)
    (hbuyer : (db.users.get buyerId).isSome = true) :
    storageLimit buyerId (finalState (fulfillPurchase env purchaseType payerId details db)) =
      (granted buyerId purchaseType payerId details).or (storageLimit buyerId db) := by
  by_cases h : purchaseType = .mediaStorage
  · subst h
    rw [fulfillPurchase, granted, DetailsJson.allocation]
    cases details.toMediaStorage with
    | none => simp [bind_of_error okOr_none]
    | some parsed =>
      have hupdate : updateStorageLimit env payerId (some parsed.allocationBytes.toInt64)
          ⟨.internal, "failed_to_apply_entitlement"⟩ db = .ok () (db.updateUser payerId
            (fun user => { user with
              mediaStorageLimitBytes := some parsed.allocationBytes.toInt64 }) fun _ => rfl) :=
        execute_ok hfault rfl
      rw [bind_of_ok okOr_some, hupdate, finalState_ok, storageLimit_updateUser hbuyer]
      by_cases hpayer : payerId = buyerId <;> simp [hpayer]
  · rw [granted, if_neg fun hboth => h hboth.1, Option.none_or]
    exact (fulfillPurchase_keepsLimits h db).limits buyerId

/-- Revoking an entitlement sets the limit back. -/
theorem storageLimit_terminateEntitlement (hfault : env.faults .updateStorageLimit = false)
    (hbuyer : (db.users.get buyerId).isSome = true) :
    storageLimit buyerId (finalState (terminateEntitlement env purchaseType payerId details db)) =
      (revoked buyerId env.serverConfiguration purchaseType payerId).getD
        (storageLimit buyerId db) := by
  cases purchaseType with
  | mediaStorage =>
    rw [terminateEntitlement, revoked]
    cases env.serverConfiguration with
    | none => simp [bind_of_error okOr_none]
    | some configuration =>
      have hupdate : updateStorageLimit env payerId (defaultStorageLimit configuration)
          ⟨.internal, "failed_to_revoke_entitlement"⟩ db = .ok () (db.updateUser payerId
            (fun user => { user with
              mediaStorageLimitBytes := defaultStorageLimit configuration }) fun _ => rfl) :=
        execute_ok hfault rfl
      rw [defaultStorageLimit] at hupdate
      rw [bind_of_ok okOr_some, hupdate, finalState_ok, storageLimit_updateUser hbuyer]
      by_cases hpayer : payerId = buyerId <;> simp [hpayer, defaultStorageLimit]
  | aiGrants => rfl
  | rellmHosting => rfl
  | permissionsAccess => exact (permissions_keepLimits _ _ _ _ db).limits buyerId

/-- A purchase whose entitlement cannot be applied sets no limit. -/
theorem fulfillPurchase_onFailure :
    OnFailure SameLimits (fulfillPurchase env purchaseType payerId details) := by
  by_cases h : purchaseType = .mediaStorage
  · subst h
    exact OnFailure.bind SameLimits.trans (okOr_within SameLimits.refl _) fun _ =>
      execute_onFailure SameLimits.refl
  · exact (fulfillPurchase_keepsLimits h).onFailure

variable {subscription : MarketSubscription}

theorem insertMarketPurchase_keepsLimits (new : NewMarketPurchase) :
    Within SameLimits (insertMarketPurchase env new) :=
  insertMarketPurchase_within SameLimits.refl fun _ => .of_users rfl

theorem insertMarketPayment_keepsLimits (new : NewMarketPayment) :
    Within SameLimits (insertMarketPayment env new) :=
  insertMarketPayment_within SameLimits.refl fun _ => .of_users rfl

theorem advanceRenewal_keepsLimits (id : Nat) (renewsAt : Instant) :
    Within SameLimits (advanceRenewal env id renewsAt) :=
  advanceRenewal_within SameLimits.refl fun _ => .of_users rfl

theorem checkChargeable_keepsLimits : Within SameLimits (checkChargeable subscription) :=
  checkChargeable_readOnly.mono fun db _ h => h ▸ SameLimits.refl db

theorem createOffSessionPaymentIntent_keepsLimits (outcome : ChargeOutcome) :
    Within SameLimits (createOffSessionPaymentIntent outcome) :=
  (createOffSessionPaymentIntent_readOnly outcome).mono fun db _ h => h ▸ SameLimits.refl db

/-- A subscription that cannot be renewed sets no limit. -/
theorem renewOne_onFailure :
    OnFailure SameLimits (renewOne chrono env stripe purchaseType subscription) := by
  refine OnFailure.bind SameLimits.trans checkChargeable_keepsLimits fun _ => ?_
  refine OnFailure.bind SameLimits.trans (createOffSessionPaymentIntent_keepsLimits _) fun _ => ?_
  refine OnFailure.bind SameLimits.trans (insertMarketPurchase_keepsLimits _) fun purchase => ?_
  refine OnFailure.bind SameLimits.trans (insertMarketPayment_keepsLimits _) fun _ => ?_
  refine OnFailure.bind SameLimits.trans (advanceRenewal_keepsLimits _ _) fun _ => ?_
  exact fulfillPurchase_onFailure

/-- A renewed subscription sets no limit before its entitlement is applied again. -/
theorem renewOne_ok (h : renewOne chrono env stripe purchaseType subscription db = .ok () db') :
    ∃ before, SameLimits db before ∧
      fulfillPurchase env purchaseType subscription.buyerId subscription.details before =
        .ok () db' := by
  rw [renewOne] at h
  obtain ⟨_, checked, hcheck, hchecked⟩ := bind_eq_ok.mp h
  obtain ⟨intentId, charged, hcharge, hcharged⟩ := bind_eq_ok.mp hchecked
  rw [recordRenewal] at hcharged
  obtain ⟨purchase, purchased, hpurchase, hpurchased⟩ := bind_eq_ok.mp hcharged
  obtain ⟨_, paid, hpayment, hpaid⟩ := bind_eq_ok.mp hpurchased
  obtain ⟨_, advanced, hadvance, hadvanced⟩ := bind_eq_ok.mp hpaid
  have hdetails : purchase.details = subscription.details := by
    have heffect := execute_eq_ok hpurchase
    split at heffect
    · obtain ⟨rfl, _⟩ := Prod.mk.inj (Option.some.inj heffect)
      rfl
    · cases heffect
  rw [hdetails] at hadvanced
  refine ⟨advanced, ?_, hadvanced⟩
  refine SameLimits.trans _ _ _ (checkChargeable_keepsLimits.of_ok hcheck) ?_
  refine SameLimits.trans _ _ _
    ((createOffSessionPaymentIntent_keepsLimits _).of_ok hcharge) ?_
  refine SameLimits.trans _ _ _ ((insertMarketPurchase_keepsLimits _).of_ok hpurchase) ?_
  refine SameLimits.trans _ _ _ ((insertMarketPayment_keepsLimits _).of_ok hpayment) ?_
  exact (advanceRenewal_keepsLimits _ _).of_ok hadvance

/-- Renewing a subscription, or ending it, sets the limit that the renewal grants. -/
theorem storageLimit_renewOrEnd (hfaults : ∀ statement, env.faults statement = false)
    (hbuyer : (db.users.get buyerId).isSome = true) :
    storageLimit buyerId
        (finalState (renewOrEnd chrono env stripe purchaseType subscription db)) =
      ((if renewable env stripe purchaseType db subscription then
          granted buyerId purchaseType subscription.buyerId subscription.details
        else none).or (storageLimit buyerId db)) := by
  rw [renewOrEnd, ← @succeeded_renewOne chrono]
  cases hrenew : renewOne chrono env stripe purchaseType subscription db with
  | ok _ db' =>
    obtain ⟨before, hsame, hfulfill⟩ := renewOne_ok hrenew
    have hlimit := @storageLimit_fulfillPurchase _ purchaseType _ _ subscription.buyerId
      subscription.details (hfaults _) ((hsame.users buyerId).trans hbuyer)
    rw [hfulfill, finalState_ok, hsame.limits] at hlimit
    rw [recover_of_ok hrenew, finalState_ok, hlimit, succeeded_ok, if_pos rfl]
  | error e db' =>
    have hsame := renewOne_onFailure db e db' hrenew
    have hcancel : storageLimit buyerId (db'.cancel subscription.id env.now) =
        storageLimit buyerId db' := rfl
    rw [recover_of_error hrenew, endSubscription_apply (hfaults _), finalState_ok, hcancel,
      hsame.limits, succeeded_error, if_neg Bool.false_ne_true, Option.none_or]

end

end Rellm.Market
