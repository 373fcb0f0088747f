import Rellm.Market.Operations

/-!
# The notes on hosting orders

A note is appended by a call that reads the subscription, checks the request against
it, and later writes the whole row back. Between the two, other calls write. The
notes only grow, and nothing else of the subscription changes, exactly if the row
that is written over is still the one that was read.
-/

namespace Rellm.Market

open Foundation Calendar

/-- The status that the notes leave an order in. -/
def notedStatus (notes : List FulfillmentNote) : Int32 :=
  (notes.getLast?.map (·.fulfillmentStatus)).getD awaitingHostAdmin

/-- The status of an order is that of its last note. -/
def RellmHostingSubscriptionDetails.Follows (details : RellmHostingSubscriptionDetails) : Prop :=
  details.fulfillmentStatus = notedStatus details.fulfillmentNotes

instance (details : RellmHostingSubscriptionDetails) : Decidable details.Follows :=
  inferInstanceAs (Decidable (_ = _))

/-- The order of a subscription to a server. -/
def MarketSubscription.order (subscription : MarketSubscription) :
    Option RellmHostingSubscriptionDetails :=
  subscription.details.toRellmHostingSubscription

/-- The notes of a subscription. -/
def MarketSubscription.notes (subscription : MarketSubscription) : List FulfillmentNote :=
  (subscription.order.map (·.fulfillmentNotes)).getD []

/-- The order of every subscription has the status of its last note. -/
def StatusesFollow (db : MarketDb) : Prop :=
  ∀ row ∈ db.subscriptions.rows, ∀ details ∈ row.order, details.Follows

instance (db : MarketDb) : Decidable (StatusesFollow db) :=
  inferInstanceAs (Decidable (∀ row ∈ db.subscriptions.rows, ∀ details ∈ row.order, _))

/-- A call that has read a subscription and checked its request, and has not written yet. -/
structure SubscriptionEdit where
  callerId : Nat
  read : MarketSubscription
  edited : MarketSubscription

/-- The notes that the call appends. -/
def SubscriptionEdit.appended (edit : SubscriptionEdit) : List FulfillmentNote :=
  edit.edited.notes.drop edit.read.notes.length

/-- The tables, and the calls that have not written yet. -/
structure Orders where
  db : MarketDb
  edits : List SubscriptionEdit := []

/-- The events: a call reads, or writes what it read; a subscription is canceled; subscriptions
are renewed. -/
inductive OrderEvent where
  | read (stamp : Timestamp) (env : Env) (request : SubscriptionRequest) (caller : User)
  | write (env : Env) (index : Nat)
  | cancel (env : Env) (subscriptionId : Option Nat) (caller : User)
  | renew (env : Env) (stripe : StripeApi) (purchaseType : PurchaseType)

namespace Orders

variable (toProtoId : Nat → String) (chrono : Chrono) (s : Orders)

/-- The call that reads, where its request passes. -/
def reads (stamp : Timestamp) (env : Env) (request : SubscriptionRequest) (caller : User) :
    Option SubscriptionEdit :=
  match readSubscriptionEdit toProtoId stamp env request caller s.db with
  | .ok edited _ => (s.db.subscriptions.get edited.id).map fun read =>
    { callerId := caller.id, read := read, edited := edited }
  | .error _ _ => none

/-- What an event makes of the state. -/
def step : OrderEvent → Orders
  | .read stamp env request caller =>
    { s with edits := s.edits ++ (s.reads toProtoId stamp env request caller).toList }
  | .write env index =>
    match s.edits[index]? with
    | none => s
    | some edit =>
      { db := finalState (writeSubscription env edit.edited s.db), edits := s.edits.eraseIdx index }
  | .cancel env subscriptionId caller =>
    { s with db := finalState (cancelMarketSubscription env subscriptionId caller s.db) }
  | .renew env stripe purchaseType =>
    { s with db := finalState (renewSubscriptionsOfType chrono env stripe purchaseType s.db) }

/-- The call that an event lets write. -/
def writes : OrderEvent → Option SubscriptionEdit
  | .write env index => (s.edits[index]?).filter fun edit =>
    !env.faults .updateSubscription && (s.db.subscriptions.get edit.edited.id).isSome
  | _ => none

/-- The notes that an event appends to a subscription. -/
def appends (event : OrderEvent) (subscriptionId : Nat) : List FulfillmentNote :=
  (((s.writes event).filter fun edit => edit.edited.id = subscriptionId).map
    (·.appended)).getD []

end Orders

/-- At most the notes and the status of the order differ. -/
def MarketSubscription.SameButNotes (row row' : MarketSubscription) : Prop :=
  { row' with details := row.details } = row ∧
    row'.order.map (·.toRellmHostingPurchaseDetails) =
      row.order.map (·.toRellmHostingPurchaseDetails)

/-- The law of an event: to the notes of each subscription it appends those of the call that
writes, each by its caller, and that call changes nothing else. -/
structure Appends (toProtoId : Nat → String) (s : Orders) (s' : Orders) (event : OrderEvent) :
    Prop where
  notes : ∀ id row, s.db.subscriptions.get id = some row →
    ∃ row', s'.db.subscriptions.get id = some row' ∧
      row'.notes = row.notes ++ s.appends event id
  attributed : ∀ edit ∈ s.writes event, ∀ note ∈ edit.appended,
    note.userId = toProtoId edit.callerId
  unchanged : ∀ edit ∈ s.writes event, ∀ row row',
    s.db.subscriptions.get edit.edited.id = some row →
    s'.db.subscriptions.get edit.edited.id = some row' → row.SameButNotes row'

/-- In every column that writing the row back would set, the current row is as it was read. -/
def MarketSubscription.StillIn (read current : MarketSubscription) : Prop :=
  MarketSubscription.changeset { read with details := current.details } current = current ∧
    read.order = current.order

instance (read current : MarketSubscription) : Decidable (read.StillIn current) :=
  inferInstanceAs (Decidable (_ ∧ _))

/-- The call that writes finds the subscription as it read it. -/
def FindsAsRead (s : Orders) (event : OrderEvent) : Prop :=
  ∀ edit ∈ s.writes event, ∀ row ∈ s.db.subscriptions.get edit.edited.id, edit.read.StillIn row

instance (s : Orders) (event : OrderEvent) : Decidable (FindsAsRead s event) :=
  inferInstanceAs (Decidable (∀ edit ∈ s.writes event,
    ∀ row ∈ s.db.subscriptions.get edit.edited.id, _))

/-- The edited row of a call is the row it read, with notes by its caller appended. -/
def SubscriptionEdit.Valid (toProtoId : Nat → String) (edit : SubscriptionEdit) : Prop :=
  ∃ current status appended, edit.read.order = some current ∧
    edit.edited = { edit.read with
      details := .rellmHostingSubscription { current with
        fulfillmentStatus := status
        fulfillmentNotes := current.fulfillmentNotes ++ appended } } ∧
    current.Follows ∧ status = notedStatus (current.fulfillmentNotes ++ appended) ∧
    ∀ note ∈ appended, note.userId = toProtoId edit.callerId

/-- What holds between the events. -/
structure Orders.Sound (toProtoId : Nat → String) (s : Orders) : Prop where
  follow : StatusesFollow s.db
  valid : ∀ edit ∈ s.edits, edit.Valid toProtoId

section

variable {toProtoId : Nat → String} {chrono : Chrono} {env : Env} {db db' : MarketDb} {s : Orders}

/-- Appended notes are by the caller, and the last of them has the new status. -/
theorem appendedNotes_eq_ok {callerId : String} {stamp : Timestamp} {running status : Int32}
    {incoming appended : List FulfillmentNote}
    (h : appendedNotes callerId stamp running incoming = .ok (status, appended)) :
    (∀ note ∈ appended, note.userId = callerId) ∧
      status = (appended.getLast?.map (·.fulfillmentStatus)).getD running := by
  induction incoming generalizing running status appended with
  | nil =>
    obtain ⟨rfl, rfl⟩ := Prod.mk.inj (Except.ok.inj h)
    exact ⟨List.forall_mem_nil _, rfl⟩
  | cons note rest ih =>
    rw [appendedNotes] at h
    split at h
    · cases h
    · rename_i huser
      split at h
      · cases h
      · cases hrest : appendedNotes callerId stamp note.fulfillmentStatus rest with
        | error e =>
          rw [hrest] at h
          cases h
        | ok result =>
          obtain ⟨restStatus, restAppended⟩ := result
          rw [hrest] at h
          obtain ⟨rfl, rfl⟩ := Prod.mk.inj (Except.ok.inj h)
          obtain ⟨hby, hstatus⟩ := ih hrest
          constructor
          · intro appendedNote hmem
            rcases List.mem_cons.mp hmem with rfl | hmem
            · exact not_not.mp huser
            · exact hby appendedNote hmem
          · rw [hstatus, List.getLast?_cons]
            cases restAppended.getLast? <;> rfl

/-- A request that passes appends notes by the caller to the order of the row that is read. -/
theorem readSubscriptionEdit_eq_ok {stamp : Timestamp} {request : SubscriptionRequest}
    {caller : User} {edited : MarketSubscription}
    (h : readSubscriptionEdit toProtoId stamp env request caller db = .ok edited db') :
    db' = db ∧ ∃ read current status appended, db.subscriptions.get edited.id = some read ∧
      read.order = some current ∧
      edited = { read with
        details := .rellmHostingSubscription { current with
          fulfillmentStatus := status
          fulfillmentNotes := current.fulfillmentNotes ++ appended } } ∧
      (∀ note ∈ appended, note.userId = toProtoId caller.id) ∧
      status = (appended.getLast?.map (·.fulfillmentStatus)).getD current.fulfillmentStatus := by
  rw [readSubscriptionEdit] at h
  obtain ⟨_, _, hadmin, hallowed⟩ := bind_eq_ok.mp h
  obtain ⟨_, rfl⟩ := ofExcept_eq_ok.mp hadmin
  obtain ⟨id, _, hid, hidentified⟩ := bind_eq_ok.mp hallowed
  obtain ⟨_, rfl⟩ := okOr_eq_ok.mp hid
  obtain ⟨read, _, hread, hfound⟩ := bind_eq_ok.mp hidentified
  obtain ⟨hget, rfl⟩ := getMarketSubscription_eq_ok hread
  have hkey : read.id = id := Table.key_of_get hget
  split at hfound
  · cases hfound
  · obtain ⟨incoming, _, hincoming, hhosting⟩ := bind_eq_ok.mp hfound
    obtain ⟨_, rfl⟩ := okOr_eq_ok.mp hincoming
    obtain ⟨current, _, hcurrent, hparsed⟩ := bind_eq_ok.mp hhosting
    obtain ⟨horder, rfl⟩ := okOr_eq_ok.mp hcurrent
    split at hparsed
    · cases hparsed
    · obtain ⟨⟨status, appended⟩, _, hnotes, hedited⟩ := bind_eq_ok.mp hparsed
      obtain ⟨happended, rfl⟩ := ofExcept_eq_ok.mp hnotes
      obtain ⟨hby, hstatus⟩ := appendedNotes_eq_ok happended
      cases hedited
      exact ⟨rfl, read, current, status, appended, hkey ▸ hget, horder, rfl, hby, hstatus⟩

/-- The status after appended notes. -/
theorem notedStatus_append (notes appended : List FulfillmentNote) :
    notedStatus (notes ++ appended) =
      (appended.getLast?.map (·.fulfillmentStatus)).getD (notedStatus notes) := by
  rw [notedStatus, notedStatus, List.getLast?_append]
  cases appended.getLast? <;> rfl

theorem StatusesFollow.of_get (h : StatusesFollow db) {id : Nat} {row : MarketSubscription}
    (hget : db.subscriptions.get id = some row) {details : RellmHostingSubscriptionDetails}
    (horder : row.order = some details) : details.Follows :=
  h row (Table.get_eq_some_iff.mp hget).1 details horder

/-- A call that reads is valid. -/
theorem valid_of_reads (hsound : s.Sound toProtoId) {stamp : Timestamp}
    {request : SubscriptionRequest} {caller : User} {edit : SubscriptionEdit}
    (h : edit ∈ s.reads toProtoId stamp env request caller) : edit.Valid toProtoId := by
  rw [Orders.reads] at h
  split at h
  · rename_i edited db' hread
    obtain ⟨rfl, read, current, status, appended, hget, horder, hedited, hby, hstatus⟩ :=
      readSubscriptionEdit_eq_ok hread
    have hfollows := hsound.follow.of_get hget horder
    rw [hget] at h
    obtain rfl := Option.some.inj h
    refine ⟨current, status, appended, horder, hedited, hfollows, ?_, hby⟩
    rw [notedStatus_append, ← hfollows, hstatus]
  · cases h

/-- What a call writes over a row. -/
theorem changeset_order {edit : SubscriptionEdit} (row : MarketSubscription) :
    (edit.edited.changeset row).order = edit.edited.order := rfl

/-- The edited order has the status of its last note. -/
theorem SubscriptionEdit.Valid.follows {edit : SubscriptionEdit} (h : edit.Valid toProtoId)
    {details : RellmHostingSubscriptionDetails} (horder : edit.edited.order = some details) :
    details.Follows := by
  obtain ⟨current, status, appended, _, hedited, _, hstatus, _⟩ := h
  rw [hedited] at horder
  obtain rfl := Option.some.inj horder
  exact hstatus

/-- The notes that a call appends are by its caller. -/
theorem SubscriptionEdit.Valid.notes {edit : SubscriptionEdit} (h : edit.Valid toProtoId) :
    edit.edited.notes = edit.read.notes ++ edit.appended ∧
      ∀ note ∈ edit.appended, note.userId = toProtoId edit.callerId := by
  obtain ⟨current, status, appended, hcurrent, hedited, _, _, hby⟩ := h
  have hread : edit.read.notes = current.fulfillmentNotes := by
    rw [MarketSubscription.notes, hcurrent]
    rfl
  have hnotes : edit.edited.notes = edit.read.notes ++ appended := by
    rw [hread, hedited]
    rfl
  have happended : edit.appended = appended := by
    rw [SubscriptionEdit.appended, hnotes, List.drop_left]
  rw [happended]
  exact ⟨hnotes, hby⟩

/-- A write changes the row of its subscription, or nothing. -/
theorem finalState_writeSubscription (row : MarketSubscription) :
    finalState (writeSubscription env row db) =
      if !env.faults .updateSubscription && (db.subscriptions.get row.id).isSome then
        db.updateSubscription row.id row.changeset fun _ => rfl
      else db := by
  rw [writeSubscription, execute]
  cases env.faults .updateSubscription with
  | true => rfl
  | false =>
    by_cases hfound : (db.subscriptions.get row.id).isSome = true
    · simp [hfound]
    · simp [hfound]

/-- The subscriptions have the same orders. -/
def SameOrders (db db' : MarketDb) : Prop :=
  db'.subscriptions.rows.map (fun row => (row.id, row.details)) =
    db.subscriptions.rows.map fun row => (row.id, row.details)

theorem SameOrders.of_subscriptions (h : db'.subscriptions = db.subscriptions) :
    SameOrders db db' := by
  rw [SameOrders, h]

/-- A rewrite of a subscription that keeps its order. -/
theorem SameOrders.updateSubscription (db : MarketDb) (id : Nat)
    {f : MarketSubscription → MarketSubscription} (hf : ∀ row, (f row).id = row.id)
    (hdetails : ∀ row : MarketSubscription, (f row).details = row.details) :
    SameOrders db (db.updateSubscription id f hf) :=
  db.subscriptions.toTable.map_rows_update hf fun row => Prod.ext (hf row) (hdetails row)

theorem sameOrders_cancel (db : MarketDb) (id : Nat) (now : Instant) :
    SameOrders db (db.cancel id now) :=
  .updateSubscription db id _ fun _ => rfl

/-- A cancellation changes no order. -/
theorem cancelMarketSubscription_keepsOrders (subscriptionId : Option Nat) (caller : User) :
    SameOrders db (finalState (cancelMarketSubscription env subscriptionId caller db)) := by
  rcases @cancelMarketSubscription_cases env db subscriptionId caller with
    hsame | ⟨row, _, _, hcancels⟩
  · exact .of_subscriptions (congrArg MarketDb.subscriptions hsame)
  · have hsubscriptions : (finalState (cancelMarketSubscription env subscriptionId caller
        db)).subscriptions = (db.cancel row.id env.now).subscriptions := by
      rw [hcancels]
      split <;> rfl
    rw [SameOrders, hsubscriptions]
    exact sameOrders_cancel db row.id env.now

/-- A renewal run changes no order. -/
theorem renewSubscriptionsOfType_keepsOrders {stripe : StripeApi} {purchaseType : PurchaseType} :
    Within SameOrders (renewSubscriptionsOfType chrono env stripe purchaseType) := by
  have htrans (db db' db'' : MarketDb) (h : SameOrders db db') (h' : SameOrders db' db'') :
      SameOrders db db'' := h'.trans h
  refine renewSubscriptionsOfType_within (fun _ => rfl) htrans (fun _ => ?_)
    fun db id => sameOrders_cancel db id _
  exact renewOne_within (fun _ => rfl) htrans (fun _ _ => rfl) (fun _ _ => rfl)
    (fun db id _ => .updateSubscription db id _ fun _ => rfl)
    fun _ _ husers => .of_subscriptions husers.subscriptions

theorem SameOrders.statusesFollow (h : SameOrders db db') (hfollow : StatusesFollow db) :
    StatusesFollow db' := by
  intro row hrow details horder
  have hmem : (row.id, row.details) ∈ db'.subscriptions.rows.map fun row => (row.id, row.details) :=
    List.mem_map.mpr ⟨row, hrow, rfl⟩
  rw [h] at hmem
  obtain ⟨row', hrow', heq⟩ := List.mem_map.mp hmem
  refine hfollow row' hrow' details ?_
  rw [MarketSubscription.order, (Prod.mk.inj heq).2]
  exact horder

/-- Every event keeps the statuses those of the last notes. -/
theorem Orders.sound_step (s : Orders) (event : OrderEvent) (h : s.Sound toProtoId) :
    (s.step toProtoId chrono event).Sound toProtoId := by
  cases event with
  | read stamp env request caller =>
    refine ⟨h.follow, fun edit hedit => ?_⟩
    rcases List.mem_append.mp hedit with hold | hnew
    · exact h.valid edit hold
    · exact valid_of_reads h (Option.mem_toList.mp hnew)
  | write env index =>
    rw [Orders.step]
    cases hedit : s.edits[index]? with
    | none => exact h
    | some edit =>
      have hvalid := h.valid edit (List.mem_of_getElem? hedit)
      refine ⟨?_, fun other hother => h.valid other (List.mem_of_mem_eraseIdx hother)⟩
      dsimp only
      rw [finalState_writeSubscription]
      split
      · intro row hrow details horder
        rcases Serial.mem_modify _ _ _ hrow with ⟨hold, _⟩ | ⟨old, _, rfl⟩
        · exact h.follow row hold details horder
        · exact hvalid.follows horder
      · exact h.follow
  | cancel env subscriptionId caller =>
    exact ⟨(cancelMarketSubscription_keepsOrders subscriptionId caller).statusesFollow h.follow,
      h.valid⟩
  | renew env stripe purchaseType =>
    exact ⟨(renewSubscriptionsOfType_keepsOrders s.db).statusesFollow h.follow, h.valid⟩

/-- Subscriptions with the same orders have the same notes. -/
theorem SameOrders.notes (h : SameOrders db db') {id : Nat} {row : MarketSubscription}
    (hget : db.subscriptions.get id = some row) :
    ∃ row', db'.subscriptions.get id = some row' ∧ row'.notes = row.notes := by
  have hparts := Table.map_get_of_map_rows (k := Prod.fst) (fun _ => rfl) h id
  rw [hget, Option.map_some, Option.map_eq_some_iff] at hparts
  obtain ⟨row', hget', heq⟩ := hparts
  refine ⟨row', hget', ?_⟩
  rw [MarketSubscription.notes, MarketSubscription.order, (Prod.mk.inj heq).2]
  rfl

/-- An event by which no call writes and that changes no order obeys the law. -/
theorem Appends.of_sameOrders {s' : Orders} {event : OrderEvent} (hnone : s.writes event = none)
    (h : SameOrders s.db s'.db) : Appends toProtoId s s' event where
  notes := by
    intro id row hget
    obtain ⟨row', hget', hnotes⟩ := h.notes hget
    refine ⟨row', hget', ?_⟩
    rw [hnotes, Orders.appends, hnone]
    exact (List.append_nil _).symm
  attributed := by
    intro edit hedit
    rw [hnone] at hedit
    cases hedit
  unchanged := by
    intro edit hedit
    rw [hnone] at hedit
    cases hedit

/-- A row that is as it was read keeps all but its notes when the call writes. -/
theorem SubscriptionEdit.Valid.sameButNotes {edit : SubscriptionEdit} (h : edit.Valid toProtoId)
    {row : MarketSubscription} (hrow : edit.read.StillIn row) :
    (edit.edited.changeset row).notes = row.notes ++ edit.appended ∧
      row.SameButNotes (edit.edited.changeset row) := by
  obtain ⟨hcolumns, horder⟩ := hrow
  constructor
  · have hnotes : (edit.edited.changeset row).notes = edit.edited.notes := rfl
    have hread : edit.read.notes = row.notes := by
      rw [MarketSubscription.notes, horder, MarketSubscription.notes]
    rw [hnotes, h.notes.1, hread]
  · obtain ⟨current, status, appended, hcurrent, hedited, _⟩ := h
    constructor
    · rw [hedited]
      exact hcolumns
    · rw [changeset_order, hedited, ← horder, hcurrent]
      rfl

/-- A call that keeps all but the notes of a row, and appends to them, finds it as it was read. -/
theorem SubscriptionEdit.Valid.stillIn {edit : SubscriptionEdit} (h : edit.Valid toProtoId)
    {row : MarketSubscription} (hfollows : ∀ details ∈ row.order, details.Follows)
    (hnotes : (edit.edited.changeset row).notes = row.notes ++ edit.appended)
    (hsame : row.SameButNotes (edit.edited.changeset row)) : edit.read.StillIn row := by
  obtain ⟨hcolumns, hpurchase⟩ := hsame
  have hwritten : (edit.edited.changeset row).notes = edit.edited.notes := rfl
  rw [hwritten, h.notes.1, List.append_left_inj] at hnotes
  obtain ⟨current, status, appended, hcurrent, hedited, hfollowsRead, _⟩ := h
  constructor
  · rw [hedited] at hcolumns
    exact hcolumns
  · rw [changeset_order, hedited] at hpurchase
    obtain ⟨stored, hstored, hdetails⟩ := Option.map_eq_some_iff.mp hpurchase.symm
    have hfollowsStored := hfollows stored hstored
    simp only [MarketSubscription.notes, hcurrent, hstored, Option.map_some, Option.getD_some]
      at hnotes
    rw [hcurrent, hstored, Option.some_inj]
    rw [RellmHostingSubscriptionDetails.Follows, ← hnotes, ← hfollowsRead] at hfollowsStored
    obtain ⟨purchase, currentStatus, notes⟩ := current
    obtain ⟨storedPurchase, storedStatus, storedNotes⟩ := stored
    simp only at hdetails hnotes hfollowsStored
    rw [hdetails, hnotes, hfollowsStored]

/-- A write obeys the law exactly if the row is as it was read. -/
theorem appends_write (hsound : s.Sound toProtoId) (env : Env) (index : Nat) :
    Appends toProtoId s (s.step toProtoId chrono (.write env index)) (.write env index) ↔
      FindsAsRead s (.write env index) := by
  cases hwrites : s.writes (.write env index) with
  | none =>
    have hsubscriptions : (s.step toProtoId chrono (.write env index)).db = s.db := by
      rw [Orders.step]
      cases hedit : s.edits[index]? with
      | none => rfl
      | some edit =>
        rw [Orders.writes, hedit, Option.filter_eq_none_iff] at hwrites
        exact (finalState_writeSubscription edit.edited).trans (if_neg (hwrites edit rfl))
    refine iff_of_true (.of_sameOrders hwrites ?_) (by simp [FindsAsRead, hwrites])
    rw [hsubscriptions]
    exact .of_subscriptions rfl
  | some edit =>
    obtain ⟨hedit, hwritten⟩ := Option.filter_eq_some_iff.mp hwrites
    have hvalid := hsound.valid edit (List.mem_of_getElem? hedit)
    obtain ⟨row, hget⟩ : ∃ row, s.db.subscriptions.get edit.edited.id = some row := by
      simp only [Bool.and_eq_true] at hwritten
      exact Option.isSome_iff_exists.mp hwritten.2
    have hdb : (s.step toProtoId chrono (.write env index)).db =
        s.db.updateSubscription edit.edited.id edit.edited.changeset fun _ => rfl := by
      rw [Orders.step, hedit]
      exact (finalState_writeSubscription edit.edited).trans (if_pos hwritten)
    have hget' (id : Nat) : (s.step toProtoId chrono (.write env index)).db.subscriptions.get id =
        if id = edit.edited.id then (s.db.subscriptions.get id).map edit.edited.changeset
        else s.db.subscriptions.get id := by
      rw [hdb]
      exact s.db.subscriptions.get_modify _ _ _ _
    have happends (id : Nat) : s.appends (.write env index) id =
        if id = edit.edited.id then edit.appended else [] := by
      rw [Orders.appends, hwrites, Option.filter_some]
      by_cases hid : id = edit.edited.id
      · simp [hid]
      · have hother : ¬ edit.edited.id = id := fun heq => hid heq.symm
        simp [hid, hother]
    constructor
    · intro h other hother row' hrow'
      obtain rfl := Option.some.inj (hwrites.symm.trans hother)
      obtain rfl := Option.some.inj (hget.symm.trans hrow')
      obtain ⟨after, hafter, hnotes⟩ := h.notes _ row hget
      have hunchanged := h.unchanged edit hwrites row after hget hafter
      rw [hget', if_pos rfl, hget] at hafter
      obtain rfl := Option.some.inj hafter
      rw [happends, if_pos rfl] at hnotes
      exact hvalid.stillIn (fun _ horder => hsound.follow.of_get hget horder) hnotes hunchanged
    · intro h
      obtain ⟨hnotes, hunchanged⟩ := hvalid.sameButNotes (h edit hwrites row hget)
      constructor
      · intro id current hcurrent
        rw [hget', happends]
        by_cases hid : id = edit.edited.id
        · obtain rfl := Option.some.inj (hget.symm.trans (hid ▸ hcurrent))
          rw [if_pos hid, if_pos hid, hcurrent]
          exact ⟨_, rfl, hnotes⟩
        · rw [if_neg hid, if_neg hid, List.append_nil]
          exact ⟨current, hcurrent, rfl⟩
      · intro other hother
        obtain rfl := Option.some.inj (hwrites.symm.trans hother)
        exact hvalid.notes.2
      · intro other hother before after hbefore hafter
        obtain rfl := Option.some.inj (hwrites.symm.trans hother)
        obtain rfl := Option.some.inj (hget.symm.trans hbefore)
        rw [hget', if_pos rfl, hget] at hafter
        obtain rfl := Option.some.inj hafter
        exact hunchanged

/-- An event obeys the law exactly if the call that writes finds the subscription as it read it. -/
theorem appends_step (s : Orders) (event : OrderEvent) (hsound : s.Sound toProtoId) :
    Appends toProtoId s (s.step toProtoId chrono event) event ↔ FindsAsRead s event := by
  cases event with
  | read stamp env request caller =>
    exact iff_of_true (.of_sameOrders rfl (.of_subscriptions rfl)) fun _ h => by cases h
  | write env index => exact appends_write hsound env index
  | cancel env subscriptionId caller =>
    exact iff_of_true
      (.of_sameOrders rfl (cancelMarketSubscription_keepsOrders subscriptionId caller))
      fun _ h => by cases h
  | renew env stripe purchaseType =>
    exact iff_of_true (.of_sameOrders rfl (renewSubscriptionsOfType_keepsOrders s.db))
      fun _ h => by cases h

end

/-- The law of a run: every event appends the notes of the call that writes and changes nothing
else, and every status is that of the last note. -/
structure NotesKept (toProtoId : Nat → String) (chrono : Chrono) (db : MarketDb)
    (events : List OrderEvent) : Prop where
  appends : Along (Orders.step toProtoId chrono)
    (fun s event => Appends toProtoId s (s.step toProtoId chrono event) event) { db := db } events
  follow : Throughout (Orders.step toProtoId chrono) (fun s => StatusesFollow s.db) { db := db }
    events

/-- For every interleaving of calls with each other, with cancellations and with renewal runs, the
notes are kept if and only if every call that writes finds the subscription as it read it. -/
theorem notes_kept_iff (toProtoId : Nat → String) (chrono : Chrono) (db : MarketDb)
    (hfollow : StatusesFollow db) (events : List OrderEvent) :
    NotesKept toProtoId chrono db events ↔
      Along (Orders.step toProtoId chrono) FindsAsRead { db := db } events := by
  have hstart : Orders.Sound toProtoId { db := db } := ⟨hfollow, List.forall_mem_nil _⟩
  have hagree := along_iff_of_invariant (I := fun s : Orders => s.Sound toProtoId)
    (fun s event h _ => @Orders.sound_step _ chrono s event h)
    (fun s event h => @appends_step _ chrono s event h) hstart events
  constructor
  · intro h
    exact hagree.mp h.appends
  · intro h
    refine ⟨hagree.mpr h, throughout_iff.mpr fun before _ => ?_⟩
    exact (run_invariant_of_all (I := fun s : Orders => s.Sound toProtoId)
      (fun s event h => @Orders.sound_step _ chrono s event h) hstart before).follow

/-- A market with one hosting order, without notes. -/
def hostingMarket : MarketDb where
  users := .empty
  aiProviders := []
  grants := .empty
  products := .empty
  subscriptions := Serial.empty.insert (fun id => {
    id := id
    buyerId := 1
    productId := 1
    productType := .rellmHosting
    period := .monthly
    amount := 500
    currency := 840
    details := .rellmHostingPurchase {}
    renewsAt := some (days 31)
    stripeCustomerId := none
    stripePaymentMethodId := none
    createdAt := 0 }) fun _ => rfl
  purchases := .empty
  payments := .empty

/-- An admin reads the order, to append a note to an order without notes. -/
def readsToNote (adminId : Nat) (note : String) : OrderEvent :=
  .read ⟨0, 0⟩ { now := 0 } {
    id := some 1
    details := some (.rellmHosting { fulfillmentNotes := [⟨Nat.repr adminId, note, 0, none⟩] }) }
    { permissions := .array [some "ADMIN"], id := adminId }

/-- The notes of a call that is not disturbed are kept. -/
theorem notes_kept_undisturbed :
    NotesKept Nat.repr januaryChrono hostingMarket
      [readsToNote 2 "paid", .cancel { now := 0 } (some 1) { permissions := .array [], id := 1 },
        .write { now := 0 } 0] :=
  (notes_kept_iff Nat.repr januaryChrono hostingMarket (by decide) _).mpr (by decide +kernel)

/-- The note of one admin is lost when another, who read before it was written, writes. -/
theorem interleaved_notes_lost :
    ¬ ∀ (toProtoId : Nat → String) (chrono : Chrono) (db : MarketDb), StatusesFollow db →
      ∀ events : List OrderEvent, NotesKept toProtoId chrono db events := by
  intro h
  have hkept := h Nat.repr januaryChrono hostingMarket (by decide)
    [readsToNote 2 "paid", readsToNote 3 "deployed", .write { now := 0 } 0, .write { now := 0 } 0]
  obtain ⟨_, _, _, hlast, _⟩ := hkept.appends
  obtain ⟨after, hafter, hnotes⟩ := hlast.notes 1 _ rfl
  obtain rfl := Option.some.inj hafter
  exact absurd hnotes (by decide +kernel)

end Rellm.Market
