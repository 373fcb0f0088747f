import Rellm.Market.Products

/-!
# Subscriptions

Canceling a subscription, and keeping the notes on a hosting order. A note is
appended by reading the row, checking the request against it, and later writing
the whole row back.
-/

namespace Rellm.Market

open Foundation Calendar

/-- Rewrites the row of a subscription. -/
def MarketDb.updateSubscription (db : MarketDb) (id : Nat)
    (f : MarketSubscription → MarketSubscription) (hf : ∀ row, (f row).id = row.id) : MarketDb :=
  { db with subscriptions := db.subscriptions.modify id f hf }

/-- Sets when a subscription was canceled. -/
def MarketDb.cancel (db : MarketDb) (id : Nat) (now : Instant) : MarketDb :=
  db.updateSubscription id (fun row => { row with canceledAt := some now }) fun _ => rfl

def getMarketSubscription (env : Env) (id : Nat) : MarketM MarketSubscription :=
  execute env .selectSubscription ⟨.notFound, "subscription_not_found"⟩ fun db =>
    (db.subscriptions.get id).map fun subscription => (subscription, db)

def setCanceled (env : Env) (id : Nat) : MarketM Unit :=
  execute env .cancelSubscription ⟨.internal, "failed_to_cancel_subscription"⟩ fun db =>
    some ((), db.cancel id env.now)

/-- Cancels a subscription that was read, and frees its slot, unless it was canceled before. -/
def cancelExisting (env : Env) (existing : MarketSubscription) : MarketM Unit :=
  if existing.canceledAt.isNone then do
    setCanceled env existing.id
    decrementMarketProductSoldCount env existing.productId
  else pure ()

/-- Cancels a subscription, for its buyer or an admin. -/
def cancelMarketSubscription (env : Env) (requestId : Option Nat) (caller : User) :
    MarketM Unit := do
  let subscriptionId ← okOr requestId ⟨.invalidArgument, "invalid_id:id"⟩
  let existing ← getMarketSubscription env subscriptionId
  if existing.buyerId ≠ caller.id then
    ofExcept (validatePermission (some caller.toUser) .admin)
  cancelExisting env existing

/-- The notes beyond those stored already, each by the caller, and with a text unless it
changes the status; and the status after them. -/
def appendedNotes (callerId : String) (stamp : Timestamp) :
    Int32 → List FulfillmentNote → Except Status (Int32 × List FulfillmentNote)
  | running, [] => .ok (running, [])
  | running, note :: rest =>
    if note.userId ≠ callerId then
      .error ⟨.permissionDenied, "fulfillment_note_user_id_mismatch"⟩
    else if note.fulfillmentStatus = running ∧ (trim note.note).isEmpty then
      .error ⟨.invalidArgument, "fulfillment_note_text_required"⟩
    else do
      let (status, appended) ← appendedNotes callerId stamp note.fulfillmentStatus rest
      return (status, { note with createdAt := some stamp } :: appended)

/-- A subscription in a request. -/
structure SubscriptionRequest where
  id : Option Nat
  details : Option ProductDetails
  deriving DecidableEq, Repr

/-- The hosting details of a request. -/
def SubscriptionRequest.hosting (request : SubscriptionRequest) :
    Option RellmHostingSubscriptionDetails :=
  match request.details with
  | some (.rellmHosting details) => some details
  | _ => none

/-- The first part of appending notes: the row as it was read, with the notes appended. -/
def readSubscriptionEdit (toProtoId : Nat → String) (stamp : Timestamp) (env : Env)
    (request : SubscriptionRequest) (caller : User) : MarketM MarketSubscription := do
  ofExcept (validatePermission (some caller.toUser) .admin)
  let subscriptionId ← okOr request.id ⟨.invalidArgument, "invalid_id:id"⟩
  let existing ← getMarketSubscription env subscriptionId
  if existing.productType ≠ .rellmHosting then
    throw ⟨.failedPrecondition, "not_a_rellm_hosting_subscription"⟩
  let incoming ← okOr request.hosting
    ⟨.invalidArgument, "rellm_hosting_subscription_details_required"⟩
  let current ← okOr existing.details.toRellmHostingSubscription
    ⟨.internal, "invalid_stored_details"⟩
  if ¬ current.fulfillmentNotes <+: incoming.fulfillmentNotes then
    throw ⟨.invalidArgument, "fulfillment_notes_must_only_be_appended"⟩
  let (status, appended) ← ofExcept (appendedNotes (toProtoId caller.id) stamp
    current.fulfillmentStatus
    (incoming.fulfillmentNotes.drop current.fulfillmentNotes.length))
  return { existing with
    details := .rellmHostingSubscription { current with
      fulfillmentStatus := status
      fulfillmentNotes := current.fulfillmentNotes ++ appended } }

/-- What writing a row makes of the current one: every column is written, except those whose
new value is unset. -/
def MarketSubscription.changeset (row current : MarketSubscription) : MarketSubscription :=
  { row with
    id := current.id
    renewsAt := row.renewsAt <|> current.renewsAt
    canceledAt := row.canceledAt <|> current.canceledAt
    stripeCustomerId := row.stripeCustomerId <|> current.stripeCustomerId
    stripePaymentMethodId := row.stripePaymentMethodId <|> current.stripePaymentMethodId
    serviceTerminatedAt := row.serviceTerminatedAt <|> current.serviceTerminatedAt }

/-- The second part of appending notes: the row is written back. -/
def writeSubscription (env : Env) (row : MarketSubscription) : MarketM Unit :=
  execute env .updateSubscription ⟨.internal, "failed_to_update_subscription"⟩ fun db =>
    if (db.subscriptions.get row.id).isSome then
      some ((), db.updateSubscription row.id row.changeset fun _ => rfl)
    else none

/-- Appends notes to a hosting order. -/
def updateMarketSubscription (toProtoId : Nat → String) (stamp : Timestamp) (env : Env)
    (request : SubscriptionRequest) (caller : User) : MarketM Unit := do
  let row ← readSubscriptionEdit toProtoId stamp env request caller
  writeSubscription env row

section

variable {env : Env} {db : MarketDb}

theorem getMarketSubscription_eq_ok {id : Nat} {subscription : MarketSubscription}
    {db' : MarketDb} (h : getMarketSubscription env id db = .ok subscription db') :
    db.subscriptions.get id = some subscription ∧ db = db' := by
  rw [getMarketSubscription, execute] at h
  split at h
  · cases h
  · cases hget : db.subscriptions.get id with
    | none =>
      rw [hget] at h
      cases h
    | some found =>
      rw [hget] at h
      cases h
      exact ⟨rfl, rfl⟩

theorem getMarketSubscription_readOnly (id : Nat) : ReadOnly (getMarketSubscription env id) := by
  apply execute_readOnly
  intro db subscription db' h
  obtain ⟨_, _, heq⟩ := Option.map_eq_some_iff.mp h
  exact (Prod.mk.inj heq).2.symm

/-- Whether the row of a subscription is canceled, and its slot freed, by a cancellation. -/
def Cancels (env : Env) (db db' : MarketDb) : Prop :=
  ∃ row, db.subscriptions.get row.id = some row ∧ row.canceledAt = none ∧
    db' = if env.faults .decrementSoldCount then db.cancel row.id env.now
      else (db.cancel row.id env.now).updateSoldCount row.productId (· - 1)

theorem cancelExisting_cases {row : MarketSubscription}
    (hrow : db.subscriptions.get row.id = some row) :
    finalState (cancelExisting env row db) = db ∨
      Cancels env db (finalState (cancelExisting env row db)) := by
  rw [cancelExisting]
  split
  · rename_i hnone
    cases hfault : env.faults .cancelSubscription with
    | true =>
      have hset : setCanceled env row.id db =
          .error ⟨.internal, "failed_to_cancel_subscription"⟩ db := execute_error (.inl hfault)
      rw [bind_of_error hset]
      exact .inl rfl
    | false =>
      have hset : setCanceled env row.id db = .ok () (db.cancel row.id env.now) :=
        execute_ok hfault rfl
      rw [bind_of_ok hset, decrementMarketProductSoldCount_apply]
      exact .inr ⟨row, hrow, Option.isNone_iff_eq_none.mp hnone, rfl⟩
  · exact .inl rfl

/-- A cancellation does nothing, or cancels a subscription that was not canceled and frees its
slot. -/
theorem cancelMarketSubscription_cases (requestId : Option Nat) (caller : User) :
    finalState (cancelMarketSubscription env requestId caller db) = db ∨
      Cancels env db (finalState (cancelMarketSubscription env requestId caller db)) := by
  rw [cancelMarketSubscription]
  cases requestId with
  | none => exact .inl rfl
  | some id =>
    rw [bind_of_ok okOr_some]
    have hreadOnly := @getMarketSubscription_readOnly env id db
    cases hget : getMarketSubscription env id db with
    | error e db' =>
      rw [hget] at hreadOnly
      rw [bind_of_error hget]
      exact .inl hreadOnly
    | ok row db' =>
      obtain ⟨hrow, rfl⟩ := getMarketSubscription_eq_ok hget
      have hkey : row.id = id := Table.key_of_get hrow
      rw [bind_of_ok hget]
      split
      · cases hadmin : validatePermission (some caller.toUser) .admin with
        | error e => exact .inl rfl
        | ok allowed => exact cancelExisting_cases (hkey ▸ hrow)
      · exact cancelExisting_cases (hkey ▸ hrow)

end

end Rellm.Market
