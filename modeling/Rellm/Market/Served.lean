import Rellm.Market.Entitlements

/-!
# The service of subscriptions

Who a subscription serves and with what is fixed when it is stored, and its service is
terminated only after it was canceled. No operation but the termination of
subscriptions ends a service.
-/

namespace Rellm.Market

open Foundation Calendar

/-- The same service is paid for, and a canceled subscription stays canceled. -/
structure MarketSubscription.ServedAs (row row' : MarketSubscription) : Prop where
  buyerId : row'.buyerId = row.buyerId
  productType : row'.productType = row.productType
  details : row'.details = row.details
  serviceTerminatedAt : row'.serviceTerminatedAt = row.serviceTerminatedAt
  canceled : row.canceledAt.isSome = true → row'.canceledAt.isSome = true

theorem MarketSubscription.ServedAs.refl (row : MarketSubscription) : row.ServedAs row :=
  ⟨rfl, rfl, rfl, rfl, fun h => h⟩

/-- A subscription whose service is terminated is canceled. -/
def TerminatedCanceled (db : MarketDb) : Prop :=
  ∀ row ∈ db.subscriptions.rows, row.serviceTerminatedAt.isSome = true →
    row.canceledAt.isSome = true

instance (db : MarketDb) : Decidable (TerminatedCanceled db) :=
  inferInstanceAs (Decidable (∀ row ∈ db.subscriptions.rows, _ → _))

/-- Every subscription is still there, with the same service. -/
structure SameService (db db' : MarketDb) : Prop where
  kept : ∀ id row, db.subscriptions.get id = some row →
    ∃ row', db'.subscriptions.get id = some row' ∧ row.ServedAs row'
  sound : TerminatedCanceled db → TerminatedCanceled db'

namespace SameService

theorem refl (db : MarketDb) : SameService db db :=
  ⟨fun _ row h => ⟨row, h, .refl row⟩, id⟩

theorem trans (db db' db'' : MarketDb) (h : SameService db db') (h' : SameService db' db'') :
    SameService db db'' where
  kept := by
    intro id row hget
    obtain ⟨row', hget', hserved⟩ := h.kept id row hget
    obtain ⟨row'', hget'', hserved'⟩ := h'.kept id row' hget'
    exact ⟨row'', hget'', hserved'.buyerId.trans hserved.buyerId,
      hserved'.productType.trans hserved.productType, hserved'.details.trans hserved.details,
      hserved'.serviceTerminatedAt.trans hserved.serviceTerminatedAt,
      fun hcanceled => hserved'.canceled (hserved.canceled hcanceled)⟩
  sound hsound := h'.sound (h.sound hsound)

theorem of_subscriptions {db db' : MarketDb} (h : db'.subscriptions = db.subscriptions) :
    SameService db db' where
  kept id row hget := ⟨row, h ▸ hget, .refl row⟩
  sound hsound := by
    rw [TerminatedCanceled, h]
    exact hsound

theorem of_onlyUsers (db db' : MarketDb) (h : OnlyUsers db db') : SameService db db' :=
  of_subscriptions h.subscriptions

/-- A rewrite of a subscription that keeps its service. -/
theorem updateSubscription (db : MarketDb) (id : Nat)
    {f : MarketSubscription → MarketSubscription} (hf : ∀ row, (f row).id = row.id)
    (hserved : ∀ row : MarketSubscription, row.ServedAs (f row)) :
    SameService db (db.updateSubscription id f hf) where
  kept := by
    intro other row hget
    rw [MarketDb.updateSubscription, Serial.get_modify, hget]
    split
    · exact ⟨f row, rfl, hserved row⟩
    · exact ⟨row, rfl, .refl row⟩
  sound := by
    intro hsound row hrow hterminated
    rcases Serial.mem_modify _ _ _ hrow with ⟨hold, _⟩ | ⟨old, hold, rfl⟩
    · exact hsound row hold hterminated
    · rw [(hserved old).serviceTerminatedAt] at hterminated
      have hmem : old ∈ db.subscriptions.rows := (Table.get_eq_some_iff.mp hold).1
      exact (hserved old).canceled (hsound old hmem hterminated)

/-- A new subscription leaves the others. -/
theorem addSubscription (db : MarketDb) (now : Instant) (new : NewMarketSubscription) :
    SameService db (db.addSubscription now new) where
  kept id row hget := ⟨row, db.subscriptions.get_insert_of_get _ _ hget, .refl row⟩
  sound := by
    intro hsound row hrow hterminated
    rcases List.mem_append.mp hrow with hold | hnew
    · exact hsound row hold hterminated
    · rw [List.mem_singleton.mp hnew] at hterminated
      cases hterminated

end SameService

section

variable {chrono : Chrono} {env : Env} {stripe : StripeApi} {purchaseType : PurchaseType}
variable {db db' : MarketDb} {subscription : MarketSubscription}

theorem sameService_cancel (db : MarketDb) (id : Nat) (now : Instant) :
    SameService db (db.cancel id now) :=
  .updateSubscription db id _ fun _ => ⟨rfl, rfl, rfl, rfl, fun _ => rfl⟩

theorem renewOne_keepsService :
    Within SameService (renewOne chrono env stripe purchaseType subscription) :=
  renewOne_within SameService.refl SameService.trans (fun _ _ => .of_subscriptions rfl)
    (fun _ _ => .of_subscriptions rfl)
    (fun db id _ => .updateSubscription db id _ fun _ => ⟨rfl, rfl, rfl, rfl, fun h => h⟩)
    SameService.of_onlyUsers

/-- A renewal run ends no service. -/
theorem renewSubscriptionsOfType_keepsService :
    Within SameService (renewSubscriptionsOfType chrono env stripe purchaseType) :=
  renewSubscriptionsOfType_within SameService.refl SameService.trans
    (fun _ => renewOne_keepsService) fun db id => sameService_cancel db id _

theorem Cancels.sameService (h : Cancels env db db') : SameService db db' := by
  obtain ⟨row, _, _, hdb⟩ := h
  obtain ⟨hkept, hsound⟩ := sameService_cancel db row.id env.now
  rw [hdb]
  split
  · exact ⟨hkept, hsound⟩
  · exact ⟨hkept, hsound⟩

/-- A completed checkout leaves the services that are there. -/
theorem Checkout.sameService (checkout : Checkout) :
    SameService db (checkout.fulfilled chrono db) := by
  have hadd := SameService.addSubscription db checkout.env.now (checkout.subscription chrono)
  have hrecorded : SameService (checkout.subscribed chrono db) (checkout.recorded chrono db) :=
    .of_subscriptions rfl
  have hfulfilled : SameService (checkout.recorded chrono db) (checkout.fulfilled chrono db) :=
    .of_onlyUsers _ _ checkout.fulfilled_onlyUsers
  exact .trans _ _ _ hadd (.trans _ _ _ hrecorded hfulfilled)

/-- The terminable subscriptions are rows that are terminable. -/
theorem MarketDb.get_of_mem_terminableSubscriptions {now : Instant}
    (h : subscription ∈ db.terminableSubscriptions purchaseType now) :
    db.subscriptions.get subscription.id = some subscription ∧
      subscription.productType = purchaseType ∧ subscription.canceledAt.isSome = true := by
  obtain ⟨hmem, hterminable⟩ := List.mem_filter.mp ((List.mergeSort_perm _ _).mem_iff.mp h)
  simp only [MarketSubscription.terminable, Bool.and_eq_true, decide_eq_true_eq] at hterminable
  refine ⟨Table.mem_rows_iff.mp hmem, hterminable.1.1.1, ?_⟩
  cases hcanceledAt : subscription.canceledAt with
  | none => simp [hcanceledAt] at hterminable
  | some canceledAt => rfl

theorem stampTermination_apply (hfault : env.faults .stampTermination = false) (id : Nat) :
    stampTermination env id db = .ok () (db.terminate id env.now) := by
  have hstamp : execute env .stampTermination ⟨.internal, "db_error"⟩
      (fun db => some ((), db.terminate id env.now)) db = .ok () (db.terminate id env.now) :=
    execute_ok hfault rfl
  rw [stampTermination, logged_apply, hstamp, finalState_ok]

/-- Terminating the service of a subscription changes users, and stamps the subscription unless
that fails. -/
theorem terminateOrSkip_cases (hfault : env.faults .stampTermination = false) :
    ∃ revokedDb, OnlyUsers db revokedDb ∧
      (finalState (terminateOrSkip env purchaseType subscription db) = revokedDb ∨
        succeeded (terminateEntitlement env purchaseType subscription.buyerId subscription.details
          db) = true ∧
        finalState (terminateOrSkip env purchaseType subscription db) =
          revokedDb.terminate subscription.id env.now) := by
  have husers := @terminateEntitlement_within env purchaseType subscription.buyerId
    subscription.details db
  rw [terminateOrSkip, terminateOne]
  cases hterminate : terminateEntitlement env purchaseType subscription.buyerId
    subscription.details db with
  | error e revokedDb =>
    rw [hterminate] at husers
    refine ⟨revokedDb, husers, .inl ?_⟩
    rw [recover_bind_of_error hterminate]
    rfl
  | ok _ revokedDb =>
    rw [hterminate] at husers
    refine ⟨revokedDb, husers, .inr ⟨rfl, ?_⟩⟩
    rw [recover_bind_of_ok hterminate, recover_of_ok (stampTermination_apply hfault _),
      finalState_ok]

end

end Rellm.Market
