import Rellm.Calendar.Vevents

/-!
# The tables behind synced content

Posts, and the events and occasions that rest on one post each, with the keys,
foreign keys and unique indexes the schema enforces. A statement that breaks one
of these fails, and the transaction it belongs to changes nothing.
-/

namespace Rellm.Sync

open Foundation Calendar

/-- What kind of content a post is. -/
inductive PostContext where
  | post
  | reply
  | event
  | occasion
  | federatedReply
  deriving DecidableEq, Repr

/-- What a sync source subscribes to; an unset configuration is stored as an empty object. -/
inductive SyncSourceConfiguration where
  | icsSubscriptionUrl (url : String)
  | stellarwpIcsSubscriptionUrl (url : String)
  | rssSubscriptionUrl (url : String)
  | atomSubscriptionUrl (url : String)
  | unset
  deriving DecidableEq, Repr

/-- A sync source. -/
structure SyncSource where
  id : Nat
  userId : Nat
  configuration : SyncSourceConfiguration
  eventCount : Nat := 0
  occasionCount : Nat := 0
  postCount : Nat := 0
  deriving DecidableEq, Repr

structure Location where
  id : String := ""
  creatorId : String := ""
  uniformlyFormattedAddress : String
  deriving DecidableEq, Repr

/-- The columns of a post before the database assigns its id. -/
structure NewPost where
  userId : Option Nat
  title : Option String
  link : Option String
  content : Option String
  visibility : Visibility
  context : PostContext
  moderation : Moderation
  deriving DecidableEq, Repr

/-- A post; a synced one carries its source's identifier for it, and an occasion's
own post also the occurrence's recurrence anchor. -/
structure Post extends NewPost where
  id : Nat
  syncSourceId : Option Nat := none
  syncSourceUid : Option String := none
  syncSourceRecurrenceAnchor : Option Instant := none
  deriving DecidableEq, Repr

/-- An event, which is its post. -/
structure Event where
  postId : Nat
  deriving DecidableEq, Repr

/-- An occasion of an event, with a post of its own. -/
structure Occasion where
  postId : Nat
  eventId : Nat
  startsAt : Instant
  endsAt : Instant
  location : Option Location := none
  timezone : Option String := none
  syncMissingSince : Option Instant := none
  deriving DecidableEq, Repr

/-- The tables; the two lists name the posts and occasions shared to a destination. -/
structure Database where
  syncSources : Table SyncSource.id
  posts : Table Post.id
  events : Table Event.postId
  occasions : Table Occasion.postId
  postSyncDestinations : List Nat := []
  occasionSyncDestinations : List Nat := []
  nextPostId : Nat

/-- Why a statement or a transaction fails. -/
inductive DbError where
  | rollbackTransaction
  | notFound
  | uniqueViolation
  | foreignKeyViolation
  deriving DecidableEq, Repr

namespace Database

variable (db : Database)

/-- The anchor of a post. -/
def anchorOf (postId : Nat) : Option Instant :=
  (db.posts.get postId).bind (·.syncSourceRecurrenceAnchor)

/-- Inserts a post under the next id. -/
def insertPost (new : NewPost) : Except DbError (Nat × Database) :=
  match db.posts.insert { new with id := db.nextPostId } with
  | none => .error .uniqueViolation
  | some posts =>
    .ok (db.nextPostId, { db with posts := posts, nextPostId := db.nextPostId + 1 })

def insertEvent (event : Event) : Except DbError Database :=
  if (db.posts.get event.postId).isNone then .error .foreignKeyViolation
  else match db.events.insert event with
    | none => .error .uniqueViolation
    | some events => .ok { db with events := events }

def insertOccasion (occasion : Occasion) : Except DbError Database :=
  if (db.posts.get occasion.postId).isNone || (db.events.get occasion.eventId).isNone then
    .error .foreignKeyViolation
  else match db.occasions.insert occasion with
    | none => .error .uniqueViolation
    | some occasions => .ok { db with occasions := occasions }

/-- The unique indexes: a source has one post for a UID without an anchor, and one
for a UID with an anchor. -/
def syncKeyTaken (postId sourceId : Nat) (uid : String) (anchor : Option Instant) : Bool :=
  db.posts.rows.any fun post => decide (post.id ≠ postId ∧ post.syncSourceId = some sourceId ∧
    post.syncSourceUid = some uid ∧ post.syncSourceRecurrenceAnchor = anchor)

/-- Sets the sync columns of a post. -/
def setSyncKey (postId sourceId : Nat) (uid : String) (anchor : Option Instant) :
    Except DbError Database :=
  if db.syncKeyTaken postId sourceId uid anchor then .error .uniqueViolation
  else .ok { db with
    posts := db.posts.update (fun post => post.id = postId)
      (fun post => { post with
        syncSourceId := some sourceId
        syncSourceUid := some uid
        syncSourceRecurrenceAnchor := anchor })
      (fun _ => rfl) }

/-- Rewrites a post's text. -/
def updatePostText (postId : Nat) (title content link : Option String) : Database :=
  { db with
    posts := db.posts.update (fun post => post.id = postId)
      (fun post => { post with title := title, content := content, link := link })
      (fun _ => rfl) }

/-- Deletes posts with the events and occasions that rest on them, and the occasions
of these events; a row that is shared to a destination cannot be deleted. -/
def deletePosts (postIds : List Nat) : Except DbError Database :=
  let deletedOccasion := fun occasion : Occasion =>
    postIds.contains occasion.postId || postIds.contains occasion.eventId
  if db.postSyncDestinations.any postIds.contains ||
      db.occasions.rows.any (fun occasion =>
        deletedOccasion occasion && db.occasionSyncDestinations.contains occasion.postId) then
    .error .foreignKeyViolation
  else .ok { db with
    posts := db.posts.delete fun post => postIds.contains post.id
    events := db.events.delete fun event => postIds.contains event.postId
    occasions := db.occasions.delete deletedOccasion }

end Database

end Rellm.Sync
