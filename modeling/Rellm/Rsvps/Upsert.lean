import Rellm.Content.Tables
import Rellm.Users.ContactMethods

/-!
# Answering an invitation

An RSVP is about an occasion and attributed to a user, or to an anonymous attendee who
holds its token. A call to upsert one reads the RSVP it is about, decides what to make
of it, checks the attendee limit, and writes; a call to delete one finds it the same way.
-/

namespace Rellm.Rsvps

open Foundation Content

inductive RsvpStatus where
  | interested
  | requested
  | going
  | notGoing
  deriving DecidableEq, Repr

/-- A stored guest count: at least one, and within an `i32`. -/
structure Guests where
  value : Nat
  pos : 1 ≤ value
  bounded : value < 2147483648
  deriving DecidableEq, Repr

/-- Who comes alone. -/
def Guests.one : Guests := ⟨1, by decide, by decide⟩

/-- A request's guest count, which is at least one, as an `i32`. -/
def Guests.tryFrom (numberOfGuests : UInt32) : Option Guests :=
  if h : 1 ≤ numberOfGuests.toNat ∧ numberOfGuests.toNat < 2147483648 then
    some ⟨numberOfGuests.toNat, h.1, h.2⟩
  else none

theorem Guests.value_of_tryFrom {numberOfGuests : UInt32} {guests : Guests}
    (h : Guests.tryFrom numberOfGuests = some guests) : guests.value = numberOfGuests.toNat := by
  unfold tryFrom at h
  split at h
  · rw [← Option.some.inj h]
  · cases h

/-- Whom a stored RSVP is attributed to: a user, or an anonymous attendee with a token. -/
inductive Attendee where
  | user (userId : Nat)
  | anonymous (name : String) (contactMethods : List Users.ContactMethod) (authToken : String)
  deriving DecidableEq, Repr

namespace Attendee

def userId : Attendee → Option Nat
  | user userId => some userId
  | anonymous _ _ _ => none

def authToken : Attendee → Option String
  | user _ => none
  | anonymous _ _ authToken => some authToken

def name : Attendee → Option String
  | user _ => none
  | anonymous name _ _ => some name

def contactMethods : Attendee → List Users.ContactMethod
  | user _ => []
  | anonymous _ contactMethods _ => contactMethods

end Attendee

structure Rsvp where
  id : Nat
  occasionId : Nat
  attendee : Attendee
  numberOfGuests : Guests
  status : RsvpStatus
  invitingUserId : Option Nat
  publicNote : String
  privateNote : String
  moderation : Moderation
  deriving DecidableEq, Repr

abbrev RsvpTable := Serial Rsvp.id

/-- An RSVP written over the one with an id. -/
def Rsvp.over (after row : Rsvp) : Rsvp := { after with id := row.id }

theorem Rsvp.over_id (after row : Rsvp) : (after.over row).id = row.id := rfl

/-- An RSVP written over one with its own id. -/
theorem Rsvp.over_eq {after row : Rsvp} (h : after.id = row.id) : after.over row = after := by
  rw [Rsvp.over, ← h]

/-- The attendee a reply names; it has no contact methods. -/
inductive ReplyAttendee where
  | user (userId : Nat)
  | anonymous (name : String) (authToken : Option String)
  deriving DecidableEq, Repr

structure RsvpReply where
  id : Nat
  occasionId : Nat
  attendee : ReplyAttendee
  numberOfGuests : Nat
  status : RsvpStatus
  invitingUserId : Option Nat
  publicNote : String
  privateNote : String
  moderation : Moderation
  deriving DecidableEq, Repr

/-- An RSVP as a reply shows it; the token and the private note are for some readers only. -/
def Rsvp.toProto (row : Rsvp) (includeAuthTokens includePrivateNote : Bool) : RsvpReply where
  id := row.id
  occasionId := row.occasionId
  attendee :=
    match row.attendee with
    | .user userId => .user userId
    | .anonymous name _ authToken =>
      .anonymous name (if includeAuthTokens then some authToken else none)
  numberOfGuests := row.numberOfGuests.value
  status := row.status
  invitingUserId := row.invitingUserId
  publicNote := row.publicNote
  privateNote := if includePrivateNote then row.privateNote else ""
  moderation := row.moderation

/-- The attendee a request names. -/
inductive RequestAttendee where
  | user (userId : Option Nat)
  | anonymous (name : String) (contactMethods : List Users.ContactMethod)
      (authToken : Option String)
  deriving DecidableEq, Repr

structure RsvpRequest where
  occasionId : Option Nat
  attendee : Option RequestAttendee
  numberOfGuests : UInt32
  status : RsvpStatus
  publicNote : String
  privateNote : String
  moderation : Moderation
  deriving DecidableEq, Repr

/-- The token a request presents. -/
def RsvpRequest.authToken (request : RsvpRequest) : Option String :=
  match request.attendee with
  | some (.anonymous _ _ authToken) => authToken
  | _ => none

/-- The RSVP of an attendee to an occasion, found by user or else by token. -/
def getRsvp (rsvps : RsvpTable) (occasionId : Nat) (attendeeUserId : Option Nat)
    (attendeeAuthToken : Option String) : Option Rsvp :=
  match attendeeUserId, attendeeAuthToken with
  | some userId, _ => rsvps.rows.find? fun row =>
    row.occasionId = occasionId ∧ row.attendee.userId = some userId
  | none, some authToken => rsvps.rows.find? fun row =>
    row.occasionId = occasionId ∧ row.attendee.authToken = some authToken
  | none, none => none

/-- The RSVP settings of an event; without any, all are unset. -/
def eventInfo (event : Event) : EventInfo := event.info.getD {}

/-- Whether RSVPs, and anonymous RSVPs, are on for an occasion. -/
def rsvpsAllowed (event : EventInfo) (occasion : Option OccasionRsvpInfo) : Bool × Bool :=
  let allows := ((occasion.bind (·.allowsRsvps)).or event.allowsRsvps).getD false
  let allowsAnonymous :=
    ((occasion.bind (·.allowsAnonymousRsvps)).or event.allowsAnonymousRsvps).getD false
  (allows, allows && allowsAnonymous)

/-- The attendee limit of an occasion: its own, or else that of the event. -/
def maxAttendees (event : EventInfo) (occasion : Option OccasionRsvpInfo) : Option UInt32 :=
  (occasion.bind (·.maxAttendees)).or event.maxAttendees

/-- Whether an RSVP counts against the attendee limit. -/
def countsTowardLimit (status : RsvpStatus) (moderation : Moderation) : Bool :=
  status = .going && passes moderation

/-- The guests of an RSVP that count against the limit of an occasion, one RSVP left out. -/
def Rsvp.counted (occasionId : Nat) (excludingRsvpId : Option Nat) (row : Rsvp) : Nat :=
  if row.occasionId = occasionId ∧ countsTowardLimit row.status row.moderation ∧
    some row.id ≠ excludingRsvpId then row.numberOfGuests.value else 0

/-- The guests of the counted RSVPs to an occasion, but for one RSVP. -/
def taken (rsvps : RsvpTable) (occasionId : Nat) (excludingRsvpId : Option Nat) : Nat :=
  (rsvps.rows.map (Rsvp.counted occasionId excludingRsvpId)).sum

/-- Fails if more guests would put the counted attendees of an occasion over the limit; the sum is
a `bigint` and the check in `i64` arithmetic. -/
def checkAttendeeLimit (limit : Option UInt32) (rsvps : RsvpTable) (occasionId : Nat)
    (excludingRsvpId : Option Nat) (guests : Nat) : Except Status Unit :=
  match limit with
  | none => .ok ()
  | some limit =>
    if 2 ^ 63 ≤ taken rsvps occasionId excludingRsvpId then
      .error ⟨.internal, "failed_to_count_attendees"⟩
    else if Int64.ofNat limit.toNat <
        Int64.ofNat (taken rsvps occasionId excludingRsvpId) + Int64.ofNat guests then
      .error ⟨.failedPrecondition, "attendee_limit_reached"⟩
    else .ok ()

/-- The row an upsert inserts, with the guest count as requested. -/
structure NewRsvp where
  occasionId : Nat
  attendee : Attendee
  numberOfGuests : UInt32
  status : RsvpStatus
  invitingUserId : Option Nat
  publicNote : String
  privateNote : String
  moderation : Moderation
  deriving DecidableEq, Repr

/-- The row inserted under an id. -/
def NewRsvp.row (new : NewRsvp) (guests : Guests) (id : Nat) : Rsvp where
  id := id
  occasionId := new.occasionId
  attendee := new.attendee
  numberOfGuests := guests
  status := new.status
  invitingUserId := new.invitingUserId
  publicNote := new.publicNote
  privateNote := new.privateNote
  moderation := new.moderation

@[simp] theorem NewRsvp.row_id (new : NewRsvp) (guests : Guests) (id : Nat) :
    (new.row guests id).id = id := rfl

@[simp] theorem NewRsvp.row_occasionId (new : NewRsvp) (guests : Guests) (id : Nat) :
    (new.row guests id).occasionId = new.occasionId := rfl

/-- An upsert that has read the RSVP it is about: that RSVP and what becomes of it, or a new one. -/
inductive Upsert where
  | update (before after : Rsvp)
  | insert (new : NewRsvp)
  deriving DecidableEq, Repr

def Upsert.occasionId : Upsert → Nat
  | update before _ => before.occasionId
  | insert new => new.occasionId

/-- The user a request names as the attendee; the field an id that does not decode is blamed on
depends on whether the caller is logged in. -/
def attendeeUserId (user : Option Content.User) (request : RsvpRequest) : Except Status (Option Nat) :=
  match request.attendee with
  | some (.user (some userId)) => .ok (some userId)
  | some (.user none) =>
    .error (invalidId (if user.isSome then "user_attendee.user_id" else "author.user_id"))
  | _ => .ok none

/-- The attendee an upsert stores: an anonymous one keeps the token of the RSVP there is. -/
def storedAttendee (request : RsvpRequest) (userId : Option Nat) (existing : Option Rsvp)
    (newToken : String) : Except Status Attendee :=
  match userId, request.attendee with
  | some userId, _ => .ok (.user userId)
  | none, some (.anonymous name contactMethods _) =>
    .ok (.anonymous name contactMethods ((existing.bind (·.attendee.authToken)).getD newToken))
  | none, _ => .error ⟨.invalidArgument, "attendee_required"⟩

/-- Whether a caller owns the event of an occasion. -/
def isEventOwner (user : Option Content.User) (target : OccasionContext) : Bool :=
  user.isSome && target.eventPost.userId = user.map (·.id)

/-- The moderation the owner of an event leaves on an RSVP. -/
def ownerModeration (moderation stored : Moderation) : Moderation :=
  match moderation with
  | .rejected => .rejected
  | .approved => .approved
  | .pending => .pending
  | .unmoderated => .approved
  | .unknown => stored

/-- A new name or public note of an anonymous attendee is moderated again. -/
def Rsvp.resetAnonymous (request : RsvpRequest) (attendee : Attendee) (isAnonymous : Bool)
    (row : Rsvp) : Rsvp :=
  if isAnonymous ∧ (row.publicNote ≠ request.publicNote ∨ attendee.name ≠ row.attendee.name) then
    { row with attendee := attendee, moderation := .pending }
  else row

/-- The owner of the event moderates an RSVP. -/
def Rsvp.moderate (request : RsvpRequest) (isOwner : Bool) (row : Rsvp) : Rsvp :=
  if isOwner then
    { row with moderation := ownerModeration request.moderation row.moderation }
  else row

/-- What a call of the attendee makes of an RSVP. -/
def Rsvp.answer (request : RsvpRequest) (guests : Guests) (row : Rsvp) : Rsvp :=
  { row with
    numberOfGuests := guests
    publicNote := request.publicNote
    privateNote := request.privateNote
    status := request.status }

def invalidNumberOfGuests : Status := ⟨.invalidArgument, "invalid_number_of_guests"⟩

/-- What a call makes of the RSVP it is about. -/
def updatedRsvp (request : RsvpRequest) (attendee : Attendee) (isOwner isOwn isAnonymous : Bool)
    (row : Rsvp) : Except Status Rsvp := do
  require (isOwn || isOwner || isAnonymous) ⟨.permissionDenied, "cannot_update_rsvp"⟩
  let moderated := (row.resetAnonymous request attendee isAnonymous).moderate request isOwner
  if isOwn || isAnonymous then
    let guests ← okOr (Guests.tryFrom request.numberOfGuests) invalidNumberOfGuests
    return moderated.answer request guests
  else return moderated

/-- The status of a new RSVP. -/
def newStatus (invitingUserId : Option Nat) (isOwn : Bool) (status : RsvpStatus) : RsvpStatus :=
  if invitingUserId.isSome && !isOwn then .requested
  else match status with
    | .going => .going
    | .notGoing => .notGoing
    | _ => .interested

/-- The moderation of a new RSVP: pending if it is anonymous, or if the event says so and the
caller does not own it. -/
def newModeration (info : EventInfo) (isOwner isAnonymous : Bool) : Moderation :=
  if isAnonymous || (!isOwner && info.defaultRsvpModeration = some Moderation.pending.toI32) then
    .pending
  else .unmoderated

/-- Whether a caller is the attendee. -/
def isOwnRsvp (user : Option Content.User) (userId : Option Nat) : Bool :=
  user.isSome && userId = user.map (·.id)

/-- The new RSVP of a call; only a caller who is the attendee is recorded as inviting. -/
def newRow (request : RsvpRequest) (user : Option Content.User) (target : OccasionContext)
    (occasionId : Nat) (userId : Option Nat) (attendee : Attendee) : NewRsvp :=
  let invitingUserId := if isOwnRsvp user userId then user.map (·.id) else none
  { occasionId := occasionId
    attendee := attendee
    numberOfGuests := request.numberOfGuests
    status := newStatus invitingUserId (isOwnRsvp user userId) request.status
    invitingUserId := invitingUserId
    publicNote := request.publicNote
    privateNote := request.privateNote
    moderation :=
      newModeration (eventInfo target.event) (isEventOwner user target) userId.isNone }

/-- The new RSVP of a call that is about none, if the settings allow it. -/
def newRsvp (request : RsvpRequest) (user : Option Content.User) (target : OccasionContext)
    (occasionId : Nat) (userId : Option Nat) (attendee : Attendee) : Except Status NewRsvp := do
  let allowed := rsvpsAllowed (eventInfo target.event) target.occasion.info.rsvpInfo
  require allowed.1 ⟨.permissionDenied, "rsvps_not_allowed"⟩
  require (!userId.isNone || allowed.2) ⟨.permissionDenied, "anonymous_rsvps_not_allowed"⟩
  return newRow request user target occasionId userId attendee

section

variable (content : ContentDb)

/-- Reads the RSVP a request is about and decides what becomes of it. -/
def prepareUpsert (request : RsvpRequest) (user : Option Content.User) (newToken : String)
    (rsvps : RsvpTable) : Except Status Upsert := do
  let occasionId ← okOr request.occasionId (invalidId "occasion_id")
  require (1 ≤ request.numberOfGuests) invalidNumberOfGuests
  let target ← okOr (content.occasionContext occasionId) ⟨.internal, "invalid_occasion_id"⟩
  let userId ← attendeeUserId user request
  let existing := getRsvp rsvps occasionId userId request.authToken
  let attendee ← storedAttendee request userId existing newToken
  match existing with
  | some row =>
    let after ← updatedRsvp request attendee (isEventOwner user target) (isOwnRsvp user userId)
      userId.isNone row
    return .update row after
  | none => return .insert (← newRsvp request user target occasionId userId attendee)

/-- The attendee limit that applies to an occasion. -/
def attendeeLimit (occasionId : Nat) : Option UInt32 :=
  (content.occasionContext occasionId).bind fun target =>
    maxAttendees (eventInfo target.event) target.occasion.info.rsvpInfo

/-- The check of the attendee limit: only an RSVP that newly counts, or grows, is checked. -/
def Upsert.check (rsvps : RsvpTable) : Upsert → Except Status Unit
  | update before after =>
    if countsTowardLimit after.status after.moderation &&
        (!countsTowardLimit before.status before.moderation ||
          decide (before.numberOfGuests.value < after.numberOfGuests.value)) then
      checkAttendeeLimit (attendeeLimit content before.occasionId) rsvps before.occasionId
        (some before.id) after.numberOfGuests.value
    else .ok ()
  | insert new =>
    if countsTowardLimit new.status new.moderation then
      checkAttendeeLimit (attendeeLimit content new.occasionId) rsvps new.occasionId none
        new.numberOfGuests.toNat
    else .ok ()

/-- Updates the RSVP, if it is still there, or inserts the new one; the user it is attributed to
exists. -/
def Upsert.write (rsvps : RsvpTable) : Upsert → Except Status (RsvpTable × Rsvp)
  | update before after =>
    .ok (rsvps.modify before.id after.over after.over_id, after)
  | insert new => do
    let guests ← okOr (Guests.tryFrom new.numberOfGuests) invalidNumberOfGuests
    require (new.attendee.userId.all fun userId => (content.users.get userId).isSome)
      ⟨.internal, "failed_to_create_rsvp"⟩
    return (rsvps.insert (new.row guests) (new.row_id guests), new.row guests rsvps.next)

/-- Creates or updates an RSVP. -/
def upsertRsvp (request : RsvpRequest) (user : Option Content.User) (newToken : String)
    (rsvps : RsvpTable) : Except Status (RsvpTable × RsvpReply) := do
  let upsert ← prepareUpsert content request user newToken rsvps
  upsert.check content rsvps
  let (rsvps, row) ← upsert.write content rsvps
  return (rsvps, row.toProto true true)

/-- Finds the RSVP a request to delete is about. -/
def findRsvpToDelete (request : RsvpRequest) (user : Option Content.User) (rsvps : RsvpTable) :
    Except Status Nat := do
  let occasionId ← okOr request.occasionId (invalidId "occasion_id")
  let target ← okOr (content.occasionContext occasionId) ⟨.internal, "invalid_occasion_id"⟩
  let userId ← attendeeUserId none request
  require (isEventOwner user target || isOwnRsvp user userId || userId.isNone)
    ⟨.permissionDenied, "not_your_event_or_rsvp"⟩
  let row ← okOr (getRsvp rsvps occasionId userId request.authToken) ⟨.notFound, "rsvp_not_found"⟩
  return row.id

/-- Deletes an RSVP. -/
def deleteRsvp (request : RsvpRequest) (user : Option Content.User) (rsvps : RsvpTable) :
    Except Status RsvpTable := do
  let id ← findRsvpToDelete content request user rsvps
  return rsvps.delete fun row => row.id = id

end

section

variable {content : ContentDb} {request : RsvpRequest} {user : Option Content.User}
variable {newToken : String} {rsvps : RsvpTable}

/-- An RSVP that is found is stored, about the occasion, and attributed to the attendee. -/
theorem getRsvp_eq_some {occasionId : Nat} {userId : Option Nat} {authToken : Option String}
    {row : Rsvp} (h : getRsvp rsvps occasionId userId authToken = some row) :
    rsvps.get row.id = some row ∧ row.occasionId = occasionId ∧ row.attendee.userId = userId ∧
      (userId = none → row.attendee.authToken = authToken) := by
  cases userId with
  | some userId =>
    have hfound := of_decide_eq_true (List.find?_some (p := fun row : Rsvp =>
      row.occasionId = occasionId ∧ row.attendee.userId = some userId) h)
    refine ⟨Table.mem_rows_iff.mp (List.mem_of_find?_eq_some h), hfound.1, hfound.2, ?_⟩
    intro hnone
    cases hnone
  | none =>
    cases authToken with
    | none => cases h
    | some authToken =>
      have hfound := of_decide_eq_true (List.find?_some (p := fun row : Rsvp =>
        row.occasionId = occasionId ∧ row.attendee.authToken = some authToken) h)
      refine ⟨Table.mem_rows_iff.mp (List.mem_of_find?_eq_some h), hfound.1, ?_, fun _ => hfound.2⟩
      have htoken := hfound.2
      cases hattendee : row.attendee with
      | user userId =>
        rw [hattendee] at htoken
        cases htoken
      | anonymous name contactMethods token => rfl

/-- What becomes of an RSVP: the caller may change it, and answers if it is the attendee. -/
theorem updatedRsvp_eq_ok {attendee : Attendee} {isOwner isOwn isAnonymous : Bool}
    {row after : Rsvp} :
    updatedRsvp request attendee isOwner isOwn isAnonymous row = .ok after ↔
      (isOwn || isOwner || isAnonymous) = true ∧
      if (isOwn || isAnonymous) = true then
        ∃ guests, Guests.tryFrom request.numberOfGuests = some guests ∧
          ((row.resetAnonymous request attendee isAnonymous).moderate request isOwner).answer
            request guests = after
      else (row.resetAnonymous request attendee isAnonymous).moderate request isOwner = after := by
  simp only [updatedRsvp, checks_eq_ok, require_eq_ok, exists_const]
  apply and_congr_right
  intro _
  split <;> simp only [checks_eq_ok, okOr_eq_ok, pure_eq_ok]

section

variable (request) (attendee : Attendee) (isAnonymous isOwner : Bool) (guests : Guests) (row : Rsvp)

@[simp] theorem resetAnonymous_id :
    (row.resetAnonymous request attendee isAnonymous).id = row.id := by
  unfold Rsvp.resetAnonymous
  split <;> rfl

@[simp] theorem resetAnonymous_occasionId :
    (row.resetAnonymous request attendee isAnonymous).occasionId = row.occasionId := by
  unfold Rsvp.resetAnonymous
  split <;> rfl

@[simp] theorem moderate_id : (row.moderate request isOwner).id = row.id := by
  unfold Rsvp.moderate
  split <;> rfl

@[simp] theorem moderate_occasionId :
    (row.moderate request isOwner).occasionId = row.occasionId := by
  unfold Rsvp.moderate
  split <;> rfl

@[simp] theorem answer_id : (row.answer request guests).id = row.id := rfl

@[simp] theorem answer_occasionId : (row.answer request guests).occasionId = row.occasionId := rfl

end

/-- What becomes of an RSVP keeps its id and its occasion. -/
theorem updatedRsvp_same {attendee : Attendee} {isOwner isOwn isAnonymous : Bool}
    {row after : Rsvp}
    (h : updatedRsvp request attendee isOwner isOwn isAnonymous row = .ok after) :
    after.id = row.id ∧ after.occasionId = row.occasionId := by
  obtain ⟨_, h⟩ := updatedRsvp_eq_ok.mp h
  split at h
  · obtain ⟨guests, _, rfl⟩ := h
    simp
  · rw [← h]
    simp

/-- What a call that has read the RSVP it is about has checked. -/
theorem prepareUpsert_eq_ok {upsert : Upsert}
    (h : prepareUpsert content request user newToken rsvps = .ok upsert) :
    ∃ occasionId target userId attendee, request.occasionId = some occasionId ∧
      1 ≤ request.numberOfGuests ∧ content.occasionContext occasionId = some target ∧
      attendeeUserId user request = .ok userId ∧
      storedAttendee request userId (getRsvp rsvps occasionId userId request.authToken) newToken =
        .ok attendee ∧
      match getRsvp rsvps occasionId userId request.authToken with
      | some row => ∃ after, updatedRsvp request attendee (isEventOwner user target)
          (isOwnRsvp user userId) userId.isNone row = .ok after ∧
          upsert = .update row after
      | none => ∃ new, newRsvp request user target occasionId userId attendee = .ok new ∧
          upsert = .insert new := by
  simp only [prepareUpsert, checks_eq_ok, okOr_eq_ok, require_eq_ok] at h
  obtain ⟨occasionId, hoccasion, _, hguests, target, htarget, userId, huser, attendee, hattendee,
    h⟩ := h
  refine ⟨occasionId, target, userId, attendee, hoccasion, hguests, htarget, huser, hattendee, ?_⟩
  cases hget : getRsvp rsvps occasionId userId request.authToken with
  | some row =>
    rw [hget] at h
    obtain ⟨after, hafter, h⟩ := checks_eq_ok.mp h
    exact ⟨after, hafter, (pure_eq_ok.mp h).symm⟩
  | none =>
    rw [hget] at h
    obtain ⟨new, hnew, h⟩ := checks_eq_ok.mp h
    exact ⟨new, hnew, (pure_eq_ok.mp h).symm⟩

/-- What a new RSVP is: one that the settings allow, with its status and moderation. -/
theorem newRsvp_eq_ok {target : OccasionContext} {occasionId : Nat} {userId : Option Nat}
    {attendee : Attendee} {new : NewRsvp} :
    newRsvp request user target occasionId userId attendee = .ok new ↔
      (rsvpsAllowed (eventInfo target.event) target.occasion.info.rsvpInfo).1 = true ∧
      (!userId.isNone ||
        (rsvpsAllowed (eventInfo target.event) target.occasion.info.rsvpInfo).2) = true ∧
      newRow request user target occasionId userId attendee = new := by
  simp only [newRsvp, checks_eq_ok, require_eq_ok, pure_eq_ok, exists_const]

end

/-- A user without permissions. -/
def guest (id : Nat) : Content.User :=
  { id := id, permissions := .array [], defaultFollowModeration := .unmoderated }

/-- A post of the first user that everybody sees. -/
def partyPost (id : Nat) (context : PostContext) : Post where
  id := id
  userId := some 1
  context := context
  visibility := .globalPublic
  moderation := .unmoderated
  createdAt := 0
  lastActivityAt := 0

def partyInfo : EventInfo where
  allowsRsvps := some true
  allowsAnonymousRsvps := some true
  maxAttendees := some 2
  hideLocationUntilRsvpApproved := some true

def partyOccasion : Occasion where
  eventId := 1
  postId := 2
  userId := some 1
  startsAt := 0
  endsAt := 1
  location := some { uniformlyFormattedAddress := "123 Main St" }

/-- An event with one occasion: a party of the first user, which takes RSVPs of two guests in all;
there are two more users. -/
def party : ContentDb :=
  { ContentDb.empty with
    users := ⟨⟨[guest 1, guest 2, guest 3], by decide⟩, 4, by decide⟩
    posts := ⟨⟨[partyPost 1 .event, partyPost 2 .occasion], by decide⟩, 3, by decide⟩
    events := ⟨[⟨1, some partyInfo⟩], by decide⟩
    occasions := ⟨[partyOccasion], by decide⟩ }

/-- A request to go to the party. -/
def going (attendee : RequestAttendee) (guests : UInt32) : RsvpRequest where
  occasionId := some 2
  attendee := some attendee
  numberOfGuests := guests
  status := .going
  publicNote := ""
  privateNote := ""
  moderation := .unknown

end Rellm.Rsvps
