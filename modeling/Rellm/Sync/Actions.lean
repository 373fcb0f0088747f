import Rellm.Foundation.Run
import Rellm.Sync.EventSync

/-!
# What changes the database

Besides syncs of calendars, syncs of RSS and Atom feeds write posts of a source,
and users create, edit and delete posts, events and occasions. Deleting an event
or an occasion deletes its row and leaves its post. An action that fails changes
nothing.
-/

namespace Rellm.Sync

open Foundation Calendar

/-- An entry of an RSS or Atom feed. -/
structure FeedEntry where
  id : String
  title : Option String
  content : Option String
  link : Option String
  deriving DecidableEq, Repr

/-- The posts of a source by their UID. -/
def existingPostIdsByUid (db : Database) (sourceId : Nat) : HashMap String Nat :=
  .collect ((db.posts.rows.filter fun post => post.syncSourceId = some sourceId).filterMap
    fun post => post.syncSourceUid.map fun uid => (uid, post.id))

/-- The moderation of new posts: pending where the server asks for it. -/
def defaultPostModeration (config : Option ServerConfiguration) : Moderation :=
  if (config.map fun c => (c.postSettings.getD {}).defaultModeration) =
      some Moderation.pending.toI32 then .pending
  else .unmoderated

/-- The columns of a new post for an entry. -/
def newEntryPost (ownerUserId : Nat) (moderation : Moderation) (entry : FeedEntry) : NewPost where
  userId := some ownerUserId
  title := entry.title
  link := entry.link
  content := entry.content
  visibility := .globalPublic
  context := .post
  moderation := moderation

/-- Creates the post of an entry; its source must still exist. -/
def createPostForEntry (source : SyncSource) (moderation : Moderation) (db : Database)
    (entry : FeedEntry) : Except DbError Database := do
  let inserted ← db.insertPost (newEntryPost source.userId moderation entry)
  if (inserted.2.syncSources.get source.id).isNone then .error .foreignKeyViolation
  else inserted.2.setSyncKey inserted.1 source.id entry.id none

/-- One entry updates the post with its id or creates one. -/
def syncEntry (source : SyncSource) (moderation : Moderation)
    (existingPostIds : HashMap String Nat) (db : Database) (entry : FeedEntry) :
    Except DbError Database :=
  if (trim entry.id).isEmpty then .ok db
  else match existingPostIds.value entry.id with
    | some postId => syncPostText db postId entry.title entry.content entry.link
    | none => createPostForEntry source moderation db entry

/-- Upserts the entries of a feed into the posts of its source. -/
def syncFeed (source : SyncSource) (config : Option ServerConfiguration)
    (entries : List FeedEntry) (db : Database) : Except DbError Database := do
  let db ← entries.foldlM
    (syncEntry source (defaultPostModeration config) (existingPostIdsByUid db source.id)) db
  let postCount := db.posts.rows.countP fun post => post.syncSourceId = some source.id
  return { db with
    syncSources := db.syncSources.update (fun row => row.id = source.id)
      (fun row => { row with postCount := postCount }) (fun _ => rfl) }

namespace Database

variable (db : Database)

/-- Rewrites the columns of a post that its author can edit. -/
def editPost (postId : Nat) (columns : NewPost) : Database :=
  { db with
    posts := db.posts.update (fun post => post.id = postId)
      (fun post => { post with toNewPost := { columns with context := post.context } })
      (fun _ => rfl) }

/-- Moves an occasion of an event. -/
def editOccasion (eventId postId : Nat) (startsAt endsAt : Instant) (location : Option Location)
    (timezone : Option String) : Except DbError Database :=
  if endsAt < startsAt then .error .rollbackTransaction
  else .ok { db with
    occasions := db.occasions.update
      (fun row => decide (row.postId = postId) && decide (row.eventId = eventId))
      (fun row => { row with
        startsAt := startsAt
        endsAt := endsAt
        location := location
        timezone := timezone })
      (fun _ => rfl) }

/-- Creates an event that is not synced, with its post. -/
def createEvent (columns : NewPost) : Except DbError Database := do
  let inserted ← db.insertPost { columns with context := .event }
  inserted.2.insertEvent { postId := inserted.1 }

/-- Creates an occasion of an event by hand, with its post. -/
def createOccasion (columns : NewPost) (eventId : Nat) (startsAt endsAt : Instant)
    (location : Option Location) (timezone : Option String) : Except DbError Database := do
  let inserted ← db.insertPost { columns with context := .occasion }
  inserted.2.insertOccasion {
    postId := inserted.1
    eventId := eventId
    startsAt := startsAt
    endsAt := endsAt
    location := location
    timezone := timezone }

/-- Deletes the rows of some occasions; one that is shared to a destination stays, and with
it all of them. -/
def deleteOccasionRows (deleted : Occasion → Bool) : Except DbError Database :=
  if db.occasions.rows.any fun occasion =>
      deleted occasion && db.occasionSyncDestinations.contains occasion.postId then
    .error .foreignKeyViolation
  else .ok { db with occasions := db.occasions.delete deleted }

/-- Deletes the row of an event with those of its occasions; the posts stay. -/
def deleteEvent (eventId : Nat) : Except DbError Database := do
  let db ← db.deleteOccasionRows fun occasion => occasion.eventId = eventId
  return { db with events := db.events.delete fun event => event.postId = eventId }

/-- Deletes the rows of the occasions of an event that are not kept; their posts stay. -/
def deleteRemovedOccasions (eventId : Nat) (keptIds : List Nat) : Except DbError Database :=
  db.deleteOccasionRows fun occasion =>
    decide (occasion.eventId = eventId) && !keptIds.contains occasion.postId

/-- Deletes a sync source, with its posts or detached from them. -/
def deleteSyncSource (sourceId : Nat) (deleteSyncedEvents : Bool) : Except DbError Database := do
  let db ← if deleteSyncedEvents then
      db.deletePosts ((db.posts.rows.filter fun post =>
        post.syncSourceId = some sourceId).map (·.id))
    else .ok { db with
      posts := db.posts.update (fun post => post.syncSourceId = some sourceId)
        (fun post => { post with
          syncSourceId := none
          syncSourceUid := none
          syncSourceRecurrenceAnchor := none })
        (fun _ => rfl) }
  return { db with syncSources := db.syncSources.delete fun source => source.id = sourceId }

end Database

/-- What can happen to the database. -/
inductive Action where
  | syncCalendar (order : HashOrder) (call : SyncCall)
  | syncFeed (source : SyncSource) (config : Option ServerConfiguration) (entries : List FeedEntry)
  | putSyncSource (source : SyncSource)
  | deleteSyncSource (sourceId : Nat) (deleteSyncedEvents : Bool)
  | createPost (columns : NewPost)
  | createEvent (columns : NewPost)
  | createOccasion (columns : NewPost) (eventId : Nat) (startsAt endsAt : Instant)
      (location : Option Location) (timezone : Option String)
  | editPost (postId : Nat) (columns : NewPost)
  | editOccasion (eventId postId : Nat) (startsAt endsAt : Instant) (location : Option Location)
      (timezone : Option String)
  | deleteEvent (eventId : Nat)
  | deleteRemovedOccasions (eventId : Nat) (keptIds : List Nat)
  | sharePost (postId : Nat)
  | shareOccasion (postId : Nat)

/-- What an action makes of the database, if it succeeds. -/
def perform (crates : CalendarCrates) (db : Database) : Action → Option Database
  | .syncCalendar order call => (syncSourceCalendar crates order call db).toOption
  | .syncFeed source config entries => (syncFeed source config entries db).toOption
  | .putSyncSource source => some { db with syncSources := db.syncSources.put source }
  | .deleteSyncSource sourceId deleteSyncedEvents =>
    (db.deleteSyncSource sourceId deleteSyncedEvents).toOption
  | .createPost columns => ((db.insertPost columns).map Prod.snd).toOption
  | .createEvent columns => (db.createEvent columns).toOption
  | .createOccasion columns eventId startsAt endsAt location timezone =>
    (db.createOccasion columns eventId startsAt endsAt location timezone).toOption
  | .editPost postId columns => some (db.editPost postId columns)
  | .editOccasion eventId postId startsAt endsAt location timezone =>
    (db.editOccasion eventId postId startsAt endsAt location timezone).toOption
  | .deleteEvent eventId => (db.deleteEvent eventId).toOption
  | .deleteRemovedOccasions eventId keptIds =>
    (db.deleteRemovedOccasions eventId keptIds).toOption
  | .sharePost postId =>
    some { db with postSyncDestinations := postId :: db.postSyncDestinations }
  | .shareOccasion postId =>
    some { db with occasionSyncDestinations := postId :: db.occasionSyncDestinations }

/-- An action that fails leaves the database as it was. -/
def step (crates : CalendarCrates) (db : Database) (action : Action) : Database :=
  (perform crates db action).getD db

/-- The database before anything was written. -/
def Database.fresh : Database where
  syncSources := .empty
  posts := .empty
  events := .empty
  occasions := .empty
  nextPostId := 1

/-- A database that some actions lead to. -/
def Reachable (crates : CalendarCrates) (db : Database) : Prop :=
  ∃ actions, run (step crates) .fresh actions = db

end Rellm.Sync
