import Rellm.Events.Visible
import Rellm.Posts.Write

/-!
# Writing events

An event and its occasions each have a post of their own. An event is created in one
transaction. The calls that change one write statement after statement: its details and
its post, new occasions, those it keeps, and the deletion of those it no longer has.
-/

namespace Rellm.Events

open Foundation Content Calendar Posts

/-- An occasion of a request; its times are the seconds of timestamps. -/
structure OccasionRequest where
  post : Option PostRequest := none
  info : Option OccasionInfo := none
  startsAt : Option Int64 := none
  endsAt : Option Int64 := none
  location : Option Content.Location := none
  timezone : Option String := none
  deriving DecidableEq, Repr

structure EventRequest where
  post : Option PostRequest := none
  info : Option EventInfo := none
  occasions : List OccasionRequest := []
  deriving DecidableEq, Repr

/-- The event that a request is about. -/
def eventPostId (request : EventRequest) : Except Status Nat := do
  let post ← okOr request.post ⟨.invalidArgument, "post_required"⟩
  okOr post.id (invalidId "post.id")

def getEvent (eventId : Nat) (db : ContentDb) : Except Status Event :=
  okOr (db.events.get eventId) ⟨.notFound, "event_not_found"⟩

/-- The occasion of an event that a request is about, or none for a new one. -/
def findExistingOccasion (request : OccasionRequest) (eventId : Nat) (db : ContentDb) :
    Option Occasion := do
  let post ← request.post
  let postId ← post.id
  (db.occasions.get postId).filter fun occasion => occasion.eventId = eventId

/-- The settings that an occasion stores. -/
def occasionInfo (info : Option OccasionInfo) : OccasionInfo := ⟨info.bind (·.rsvpInfo)⟩

/-- The instant of a timestamp that has to be there; one before the epoch aborts the call. -/
def sentTime (seconds : Option Int64) (missing : Failure) : Except Failure Instant := do
  let seconds ← okOr seconds missing
  if seconds < 0 then .error .panic else .ok (seconds.toInt * 1000000)

/-- The author of a post. -/
def authorOf (db : ContentDb) (postId : Nat) : Option Nat :=
  (db.posts.get postId).bind (·.userId)

/-- A new occasion; its user is the author of its post. -/
def newOccasion (request : OccasionRequest) (eventId postId : Nat) (startsAt endsAt : Instant)
    (db : ContentDb) : Occasion where
  eventId := eventId
  postId := postId
  userId := authorOf db postId
  info := occasionInfo request.info
  startsAt := startsAt
  endsAt := endsAt
  location := request.location
  timezone := request.timezone

/-- A new post is written. -/
def insertPost (new : NewPost) (now : Instant) : Rpc Nat := do
  let id := (← get).posts.next
  modify fun db =>
    { db with posts := db.posts.insert (new.row none now) (new.row_id none now) }
  return id

/-- A new event is written. -/
def insertEvent (event : Event) : Rpc Unit :=
  checked
    (fun db => answered (okOr (db.events.insert event) ⟨.internal, "internal_error"⟩))
    (fun events db => { db with events := events })
    fun _ _ => .ok ()

/-- The occasions with a new one; one without its times aborts the call. -/
def withOccasion (request : OccasionRequest) (eventId postId : Nat) (failure : Status)
    (db : ContentDb) : Except Failure (Table Occasion.postId) := do
  let startsAt ← sentTime request.startsAt .panic
  let endsAt ← sentTime request.endsAt .panic
  answered (require (db.events.get eventId).isSome failure)
  answered (okOr (db.occasions.insert (newOccasion request eventId postId startsAt endsAt db))
    failure)

/-- A new occasion of an event is written. -/
def insertOccasion (request : OccasionRequest) (eventId postId : Nat) (failure : Status) :
    Rpc Unit :=
  checked (withOccasion request eventId postId failure)
    (fun occasions db => { db with occasions := occasions })
    fun _ _ => .ok ()

/-- What a caller reads back of an event. -/
def readEvent (user : Content.User) (eventId : Nat) (db : ContentDb) :
    Except Failure EventReply := do
  let replies ← answered (getEventByPostId db (some user) (some eventId))
  okOr replies.head? .panic

section

variable (config : ServerConfiguration) (user : Content.User)

/-- The post of a new occasion, which may be missing in the request. -/
def occasionPost (fallback : Visibility) (moderation : Moderation) (post : Option PostRequest)
    (media : List Nat) : NewPost where
  userId := some user.id
  parentPostId := none
  title := post.bind (·.title)
  link := toLink (post.bind (·.link))
  content := post.bind (·.content)
  context := .occasion
  visibility := (post.map (·.visibility)).getD fallback
  moderation := moderation
  media := media

/-- The check of an occasion of an event that is created. -/
def checkOccasion (occasion : OccasionRequest) : Except Status Unit := do
  match occasion.post with
  | some post => do
    validateMaxLength post.link "occasion.post.link" 10000
    validateMaxLength post.content "occasion.post.content" 10000
    let _ ← decodedIds "occasion.media" post.media
    validatePublish user .publishEventsGlobally .publishEventsLocally
      (resolveVisibility post.visibility)
  | none => pure ()
  require (occasion.startsAt.isSome && occasion.endsAt.isSome)
    ⟨.invalidArgument, "start_and_end_times_required"⟩

/-- The check of an event that is created, and the request for its post. -/
def checkCreateEvent (request : EventRequest) : Except Status PostRequest := do
  validatePermission (some user.toUser) .createEvents
  let post ← okOr request.post ⟨.invalidArgument, "post_required"⟩
  let _ ← decodedIds "media" post.media
  require (request.occasions ≠ []) ⟨.invalidArgument, "at_least_one_occasion_required"⟩
  request.occasions.forM (checkOccasion user)
  validateMaxLength post.link "post.link" 10000
  validateMaxLength post.content "post.content" 10000
  validatePublish user .publishEventsGlobally .publishEventsLocally
    (resolveVisibility post.visibility)
  return post

/-- The moderation that events start with. -/
def eventModeration : Moderation :=
  defaultModeration (config.eventSettings.getD {}).defaultModeration

/-- The post of a new event. -/
def newEventPost (post : PostRequest) : NewPost where
  userId := some user.id
  parentPostId := none
  title := post.title
  link := toLink post.link
  content := post.content
  context := .event
  visibility := resolveVisibility post.visibility
  moderation := eventModeration config
  media := post.media.filterMap id

/-- An occasion of an event that is created. -/
def insertEventOccasion (post : PostRequest) (eventId : Nat) (now : Instant)
    (occasion : OccasionRequest) : Rpc Unit := do
  let media := ((occasion.post.map (·.media)).getD []).filterMap id
  let postId ← insertPost
    (occasionPost user post.visibility (eventModeration config) occasion.post media) now
  insertOccasion occasion eventId postId ⟨.internal, "internal_error"⟩

/-- The transaction of a call to create an event. -/
def commitCreateEvent (request : EventRequest) (post : PostRequest) (now : Instant) : Rpc Nat := do
  let eventId ← insertPost (newEventPost config user post) now
  insertEvent ⟨eventId, request.info⟩
  request.occasions.forM (insertEventOccasion config user post eventId now)
  modify fun db => updateEventCounts db user.id
  return eventId

/-- `CreateEvent`. -/
def createEvent (request : EventRequest) (now : Instant) : Rpc Nat := do
  let post ← attempt fun _ => answered (checkCreateEvent user request)
  transaction (commitCreateEvent config user request post now)

/-- The owner of an event may change it, and those who moderate posts or events. -/
def validateEventEditPermission (event : Event) (db : ContentDb) : Except Status Unit := do
  let eventPost ← okOr (db.posts.get event.postId) ⟨.notFound, "event_post_not_found"⟩
  if eventPost.userId = some user.id then return ()
  else validateAnyPermission (some user.toUser) .admin [.moderatePosts, .moderateEvents]

/-- The event of a request, if the caller may change it. -/
def editableEvent (eventId : Nat) (db : ContentDb) : Except Status Event := do
  let event ← getEvent eventId db
  validateEventEditPermission user event db
  return event

/-- The details of an event are written, and then its post by a call of its own. -/
def updateEventDetailsImpl (eventId : Nat) (request : EventRequest) (now : Instant) :
    Rpc Unit := do
  let existing ← attempt fun db => answered (getEvent eventId db)
  modify fun db =>
    { db with
      events := db.events.update (fun event => event.postId = existing.postId)
        (fun event => { event with info := request.info }) fun _ => rfl }
  match request.post with
  | none => throw (.status ⟨.invalidArgument, "event must contain associated post"⟩)
  | some post =>
    let postId ← attempt fun _ => answered (okOr post.id (invalidId "post.id"))
    if postId = existing.postId then
      let _ ← updatePost user post now
    else
      throw (.status ⟨.invalidArgument, "post ID mismatches event post ID"⟩)

/-- The media of the post of an occasion. -/
def occasionMedia (occasion : OccasionRequest) : Except Status (List Nat) :=
  decodedIds "occasion.post.media" ((occasion.post.map (·.media)).getD [])

/-- A new occasion of an event, with its post. -/
def createOccasion (event : Event) (occasion : OccasionRequest) (now : Instant) : Rpc Nat := do
  let media ← attempt fun _ => answered (occasionMedia occasion)
  let postId ← insertPost
    (occasionPost user .globalPublic .unmoderated occasion.post media) now
  insertOccasion occasion event.postId postId ⟨.internal, "failed_to_create_occasion"⟩
  return postId

/-- An occasion of a request with the id of its post, which is created if it is new. -/
def resolveOccasion (event : Event) (now : Instant) (occasion : OccasionRequest) :
    Rpc OccasionRequest := do
  if (findExistingOccasion occasion event.postId (← get)).isSome then
    return occasion
  else
    let postId ← createOccasion user event occasion now
    return { occasion with post := some { occasion.post.getD {} with id := some postId } }

/-- The new occasions of a request are written, one after the other. -/
def createNewOccasionsImpl (event : Event) (occasions : List OccasionRequest) (now : Instant) :
    Rpc (List OccasionRequest) := do
  let resolved ← occasions.mapM (resolveOccasion user event now)
  modify fun db => updateEventCounts db user.id
  return resolved

/-- An occasion with what a request changes; a column that would be empty keeps what it had. -/
def updatedOccasion (request : OccasionRequest) (startsAt endsAt : Instant) (author : Option Nat)
    (now : Instant) (existing : Occasion) : Occasion :=
  let informed :=
    if request.info.isSome ∧ occasionInfo request.info ≠ existing.info then
      { existing with info := occasionInfo request.info, updatedAt := some now }
    else existing
  let moved :=
    if startsAt ≠ existing.startsAt ∨ endsAt ≠ existing.endsAt ∨
        request.location ≠ existing.location ∨ request.timezone ≠ existing.timezone then
      { informed with
        startsAt := startsAt
        endsAt := endsAt
        location := request.location
        timezone := request.timezone
        updatedAt := some now }
    else informed
  { moved with
    postId := existing.postId
    userId := author
    location := moved.location.or existing.location
    timezone := moved.timezone.or existing.timezone
    updatedAt := moved.updatedAt.or existing.updatedAt }

theorem updatedOccasion_postId (request : OccasionRequest) (startsAt endsAt : Instant)
    (author : Option Nat) (now : Instant) (existing : Occasion) :
    (updatedOccasion request startsAt endsAt author now existing).postId = existing.postId := rfl

/-- What a request makes of an occasion and of its post. -/
structure UpdateOccasion where
  existing : Occasion
  post : Post
  startsAt : Instant
  endsAt : Instant
  deriving DecidableEq, Repr

/-- The check of an occasion of a request that the event has. -/
def checkUpdateOccasion (request : OccasionRequest) (existing : Occasion) (db : ContentDb) :
    Except Failure UpdateOccasion := do
  let post ← answered (okOr (db.posts.get existing.postId) ⟨.notFound, "occasion_post_not_found"⟩)
  let missing : Failure := .status ⟨.invalidArgument, "invalid_timestamp:_None"⟩
  let startsAt ← sentTime request.startsAt missing
  let endsAt ← sentTime request.endsAt missing
  answered (require (startsAt ≤ endsAt)
    ⟨.invalidArgument, "occasion[" ++ toString existing.postId ++
      "] starts_at must be before ends_at"⟩)
  return ⟨existing, post, startsAt, endsAt⟩

/-- The occasion is written, and then its post with the visibility of the request. -/
def UpdateOccasion.write (update : UpdateOccasion) (request : OccasionRequest) (now : Instant)
    (db : ContentDb) : ContentDb :=
  savePost
    { update.post with visibility := (request.post.map (·.visibility)).getD .private }
    { db with
      occasions := db.occasions.update (fun occasion => occasion.postId = update.existing.postId)
        (updatedOccasion request update.startsAt update.endsAt (authorOf db update.existing.postId)
          now)
        (updatedOccasion_postId request update.startsAt update.endsAt _ now) }

/-- One occasion of a request is written, if the event has it. -/
def updateOccasion (event : Event) (now : Instant) (request : OccasionRequest) : Rpc Unit := do
  match findExistingOccasion request event.postId (← get) with
  | none => return ()
  | some existing =>
    let update ← attempt (checkUpdateOccasion request existing)
    modify (update.write request now)

/-- The occasions of a request that the event has are written, one after the other. -/
def updateOccasionsImpl (event : Event) (occasions : List OccasionRequest) (now : Instant) :
    Rpc Unit :=
  occasions.forM (updateOccasion event now)

/-- The occasions of an event that a request does not keep, and the authors of their posts. -/
def removedOccasions (event : Event) (occasions : List OccasionRequest) (db : ContentDb) :
    List (Nat × Option Nat) :=
  let kept := occasions.filterMap fun occasion => occasion.post.bind (·.id)
  (db.occasions.rows.filter fun occasion =>
    occasion.eventId = event.postId && decide (occasion.postId ∉ kept)).filterMap fun occasion =>
      (db.posts.get occasion.postId).map fun post => (post.id, post.userId)

/-- The users whose counters are refreshed: those who wrote a removed occasion, and the caller. -/
def affectedUserIds (removed : List (Nat × Option Nat)) : List Nat :=
  unique ((removed.filterMap (·.2) ++ [user.id]).mergeSort fun id id' => id ≤ id')

/-- The occasions that a request does not keep are deleted. -/
def deleteRemovedOccasionsImpl (event : Event) (occasions : List OccasionRequest)
    (db : ContentDb) : ContentDb :=
  let removed := removedOccasions event occasions db
  (affectedUserIds user removed).foldl updateEventCounts
    { db with
      occasions := db.occasions.delete fun occasion =>
        decide (occasion.postId ∈ removed.map (·.1)) }

section

variable (request : EventRequest) (now : Instant)

/-- `UpdateEventDetails`. -/
def updateEventDetails : Rpc EventReply := do
  let eventId ← attempt fun _ => answered (eventPostId request)
  updateEventDetailsImpl user eventId request now
  attempt (readEvent user eventId)

/-- `CreateNewOccasions`. -/
def createNewOccasions : Rpc EventReply := do
  let eventId ← attempt fun _ => answered (eventPostId request)
  let event ← attempt fun db => answered (editableEvent user eventId db)
  let _ ← createNewOccasionsImpl user event request.occasions now
  attempt (readEvent user eventId)

/-- `UpdateOccasions`. -/
def updateOccasions : Rpc EventReply := do
  let eventId ← attempt fun _ => answered (eventPostId request)
  let event ← attempt fun db => answered (editableEvent user eventId db)
  updateOccasionsImpl event request.occasions now
  attempt (readEvent user eventId)

/-- `DeleteRemovedOccasions`. -/
def deleteRemovedOccasions : Rpc EventReply := do
  let eventId ← attempt fun _ => answered (eventPostId request)
  let event ← attempt fun db => answered (editableEvent user eventId db)
  modify (deleteRemovedOccasionsImpl user event request.occasions)
  attempt (readEvent user eventId)

/-- `UpdateEvent`. -/
def updateEvent : Rpc EventReply := do
  let eventId ← attempt fun _ => answered (eventPostId request)
  updateEventDetailsImpl user eventId request now
  let event ← attempt fun db => answered (editableEvent user eventId db)
  let resolved ← createNewOccasionsImpl user event request.occasions now
  updateOccasionsImpl event request.occasions now
  modify (deleteRemovedOccasionsImpl user event resolved)
  attempt (readEvent user eventId)

end

/-- The event that a call is about to delete, with its owner. -/
structure DeleteEvent where
  eventId : Nat
  owner : Option Nat
  deriving DecidableEq, Repr

def checkDeleteEvent (request : EventRequest) (db : ContentDb) : Except Status DeleteEvent := do
  let eventId ← eventPostId request
  let event ← getEvent eventId db
  let eventPost ← okOr (db.posts.get event.postId) ⟨.notFound, "event_post_not_found"⟩
  require (eventPost.userId = some user.id || isAdmin user)
    ⟨.permissionDenied, "permission_denied"⟩
  return ⟨event.postId, eventPost.userId⟩

/-- The event is deleted with its occasions, and the counters of its owner are refreshed. -/
def DeleteEvent.write (delete : DeleteEvent) (db : ContentDb) : ContentDb :=
  let deleted := { db with
    events := db.events.delete fun event => event.postId = delete.eventId
    occasions := db.occasions.delete fun occasion => occasion.eventId = delete.eventId }
  match delete.owner with
  | some owner => updateEventCounts deleted owner
  | none => deleted

/-- `DeleteEvent`. -/
def deleteEvent (request : EventRequest) : Rpc Unit :=
  checked (fun db => answered (checkDeleteEvent user request db)) DeleteEvent.write
    fun _ _ => .ok ()

end

end Rellm.Events
