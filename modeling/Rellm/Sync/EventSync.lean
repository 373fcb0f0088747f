import Rellm.Protos.ServerConfiguration
import Rellm.Sync.Database

/-!
# Syncing a calendar

One sync writes what a calendar produces into the events and occasions of its
source. An occurrence updates the occasion with its anchor or creates one; an
occasion the calendar no longer produces is first marked, and deleted when it
is still missing three days later. An event goes with its last occasion.
-/

namespace Rellm.Sync

open Foundation Calendar

def syncPastWindowDays : Int := 365

def syncFutureWindowDays : Int := 365

/-- How many days an occasion can stay absent before it is deleted. -/
def missingGracePeriodDays : Int := 3

/-- What a feed says about events absent from it. -/
structure FeedCoverage where
  truncatedAfter : Option Instant := none
  upcomingOnly : Bool := false
  deriving DecidableEq, Repr

/-- What one sync passes unchanged to everything it calls. -/
structure SyncParams where
  sourceId : Nat
  ownerUserId : Nat
  moderation : Moderation
  pruneWindowStart : Instant
  missingHorizon : Option Instant
  now : Instant

/-- Deletes synced posts; what they were shared to is forgotten first. -/
def deleteSyncedPosts (db : Database) (postIds : List Nat) : Except DbError Database :=
  if postIds.isEmpty then .ok db
  else
    let db := { db with
      postSyncDestinations := db.postSyncDestinations.filter fun id => !postIds.contains id
      occasionSyncDestinations :=
        db.occasionSyncDestinations.filter fun id => !postIds.contains id }
    db.deletePosts postIds

/-- The posts of a source with a context, of which some row is missing. -/
def orphanedPostIds (db : Database) (sourceId : Nat) (context : PostContext)
    (hasRow : Nat → Bool) : List Nat :=
  (db.posts.rows.filter fun post =>
    decide (post.syncSourceId = some sourceId) && decide (post.context = context) &&
      !hasRow post.id).map (·.id)

/-- Deletes the event and occasion posts of a source whose row no longer exists. -/
def deleteOrphanedSyncedPosts (db : Database) (sourceId : Nat) : Except DbError Database := do
  let orphanedEventPostIds :=
    orphanedPostIds db sourceId .event fun id => (db.events.get id).isSome
  let orphanedOccasionPostIds :=
    orphanedPostIds db sourceId .occasion fun id => (db.occasions.get id).isSome
  let db ← deleteSyncedPosts db orphanedEventPostIds
  deleteSyncedPosts db orphanedOccasionPostIds

/-- The moderation of new events: pending where the server asks for it. -/
def defaultEventModeration (config : Option ServerConfiguration) : Moderation :=
  if (config.map fun c => (c.eventSettings.getD {}).defaultModeration) =
      some Moderation.pending.toI32 then .pending
  else .unmoderated

/-- The events of a source by the UID of their post. -/
def existingEventIdsByUid (db : Database) (sourceId : Nat) : HashMap String Nat :=
  .collect (db.events.rows.filterMap fun event =>
    (db.posts.get event.postId).bind fun post =>
      if post.syncSourceId = some sourceId ∧ post.syncSourceRecurrenceAnchor = none then
        post.syncSourceUid.map fun uid => (uid, event.postId)
      else none)

/-- The columns of a new event's post. -/
def newEventPost (params : SyncParams) (group : EventGroup) : NewPost where
  userId := some params.ownerUserId
  title := group.title
  link := group.link
  content := group.content
  visibility := .globalPublic
  context := .event
  moderation := params.moderation

/-- Creates the event of a group, with its post. -/
def createEventForGroup (params : SyncParams) (db : Database) (group : EventGroup) :
    Except DbError (Nat × Database) := do
  let inserted ← db.insertPost (newEventPost params group)
  let db ← inserted.2.setSyncKey inserted.1 params.sourceId group.uid none
  let db ← db.insertEvent { postId := inserted.1 }
  return (inserted.1, db)

/-- Brings a post's text up to date. -/
def syncPostText (db : Database) (postId : Nat) (title content link : Option String) :
    Except DbError Database :=
  match db.posts.get postId with
  | none => .error .notFound
  | some post =>
    if post.title ≠ title ∨ post.content ≠ content ∨ post.link ≠ link then
      .ok (db.updatePostText postId title content link)
    else .ok db

def locationJson (location : Option String) : Option Location :=
  location.map fun address => { uniformlyFormattedAddress := address }

/-- An occasion brought up to date with its occurrence, and no longer missing. -/
def refreshed (occ : Occurrence) (occasion : Occasion) : Occasion :=
  { occasion with
    startsAt := occ.startsAt
    endsAt := occ.endsAt
    location := locationJson occ.location
    timezone := occ.timezone
    syncMissingSince := none }

/-- The columns of a new occasion's post; only an override brings its own text. -/
def newOccasionPost (params : SyncParams) (occ : Occurrence) : NewPost where
  userId := some params.ownerUserId
  title := if occ.isOverride then occ.title else none
  link := none
  content := if occ.isOverride then occ.content else none
  visibility := .globalPublic
  context := .occasion
  moderation := params.moderation

/-- A new occasion for an occurrence. -/
def newOccasion (eventId postId : Nat) (occ : Occurrence) : Occasion where
  postId := postId
  eventId := eventId
  startsAt := occ.startsAt
  endsAt := occ.endsAt
  location := locationJson occ.location
  timezone := occ.timezone

/-- Creates the occasion of an occurrence, with its post. -/
def createOccasion (params : SyncParams) (eventId : Nat) (uid : String) (db : Database)
    (occ : Occurrence) : Except DbError Database := do
  let inserted ← db.insertPost (newOccasionPost params occ)
  let db ← inserted.2.insertOccasion (newOccasion eventId inserted.1 occ)
  db.setSyncKey inserted.1 params.sourceId uid (some occ.recurrenceAnchor)

/-- Updates the occasion of an occurrence, and an override's text. -/
def updateOccasion (db : Database) (existing : Occasion) (occ : Occurrence) :
    Except DbError Database :=
  let db :=
    if existing.startsAt ≠ occ.startsAt ∨ existing.endsAt ≠ occ.endsAt ∨
        existing.location ≠ locationJson occ.location ∨ existing.timezone ≠ occ.timezone ∨
        existing.syncMissingSince.isSome then
      { db with
        occasions := db.occasions.update (fun row => row.postId = existing.postId)
          (refreshed occ) (fun _ => rfl) }
    else db
  if occ.isOverride then syncPostText db existing.postId occ.title occ.content none else .ok db

/-- The occasions of an event by the anchor of their post. -/
def existingByAnchor (db : Database) (eventId : Nat) : HashMap Instant Occasion :=
  .collect ((db.occasions.rows.filter fun row => row.eventId = eventId).filterMap fun row =>
    (db.anchorOf row.postId).map fun anchor => (anchor, row))

/-- One occurrence is written, and taken from the occasions not seen yet. -/
def upsertOccurrence (params : SyncParams) (eventId : Nat) (uid : String)
    (state : Database × HashMap Instant Occasion) (occ : Occurrence) :
    Except DbError (Database × HashMap Instant Occasion) :=
  match state.2.value occ.recurrenceAnchor with
  | some existing => do
    let db ← updateOccasion state.1 existing occ
    return (db, state.2.delete fun entry => entry.1 = occ.recurrenceAnchor)
  | none => do
    let db ← createOccasion params eventId uid state.1 occ
    return (db, state.2)

/-- Whether a sync covers an occasion, so that it counts as missing when absent. -/
def covers (params : SyncParams) (occasion : Occasion) : Bool :=
  decide (params.pruneWindowStart ≤ occasion.endsAt) &&
    params.missingHorizon.all fun horizon => decide (occasion.startsAt < horizon)

/-- Whether an occasion has been missing for the grace period. -/
def expired (params : SyncParams) (occasion : Occasion) : Bool :=
  occasion.syncMissingSince.any fun missingSince =>
    decide (days missingGracePeriodDays ≤ params.now - missingSince)

/-- Writes the occurrences of a group under its event, then marks or deletes the
occasions of the event that were not among them. -/
def reconcileOccasions (params : SyncParams) (db : Database) (eventId : Nat)
    (group : EventGroup) : Except DbError Database := do
  let state ← group.occurrences.foldlM (upsertOccurrence params eventId group.uid)
    (db, existingByAnchor db eventId)
  let db := state.1
  let missing := (state.2.rows.map Prod.snd).filter (covers params)
  let newlyMissingIds := (missing.filter (·.syncMissingSince.isNone)).map (·.postId)
  let expiredIds := (missing.filter (expired params)).map (·.postId)
  let db := { db with
    occasions := db.occasions.update (fun row => newlyMissingIds.contains row.postId)
      (fun row => { row with syncMissingSince := some params.now }) (fun _ => rfl) }
  deleteSyncedPosts db expiredIds

/-- One group is written under the event of its UID, which is created if absent. -/
def syncGroup (params : SyncParams) (existingEventIds : HashMap String Nat) (db : Database)
    (group : EventGroup) : Except DbError Database :=
  match existingEventIds.value group.uid with
  | some eventId => do
    let db ← syncPostText db eventId group.title group.content group.link
    reconcileOccasions params db eventId group
  | none => do
    let created ← createEventForGroup params db group
    reconcileOccasions params created.2 created.1 group

/-- A group without occurrences. -/
def emptyGroup : EventGroup where
  uid := ""
  title := none
  content := none
  link := none
  occurrences := []

/-- An event that vanished from the feed loses its occasions, and goes with the last. -/
def pruneEvent (params : SyncParams) (db : Database) (eventId : Nat) :
    Except DbError Database := do
  let db ← reconcileOccasions params db eventId emptyGroup
  if db.occasions.rows.countP (fun row => row.eventId = eventId) = 0 then
    deleteSyncedPosts db [eventId]
  else return db

/-- Stores how many events and occasions a source has. -/
def storeCounts (db : Database) (sourceId : Nat) : Database :=
  let ofSource := fun postId => decide ((db.posts.get postId).bind (·.syncSourceId) = some sourceId)
  { db with
    syncSources := db.syncSources.update (fun source => source.id = sourceId)
      (fun source => { source with
        eventCount := db.events.rows.countP fun event => ofSource event.postId
        occasionCount := db.occasions.rows.countP fun occasion => ofSource occasion.postId })
      (fun _ => rfl) }

/-- The groups of a feed are written, then the events whose UID it no longer has are
pruned. -/
def writeGroups (order : HashOrder) (params : SyncParams) (groups : List EventGroup)
    (db : Database) : Except DbError Database := do
  let db ← deleteOrphanedSyncedPosts db params.sourceId
  let existingEventIds := existingEventIdsByUid db params.sourceId
  let db ← groups.foldlM (syncGroup params existingEventIds) db
  let staleEventIds := unique ((existingEventIds.rows.filter fun entry =>
    !(groups.map (·.uid)).contains entry.1).map Prod.snd)
  let db ← (order.staleEvents staleEventIds).foldlM (pruneEvent params) db
  return storeCounts db params.sourceId

/-- The transaction of a sync: nothing is written for a configuration that changed
since the calendar was fetched. -/
def syncTransaction (order : HashOrder) (source : SyncSource) (params : SyncParams)
    (groups : List EventGroup) (db : Database) : Except DbError Database :=
  match db.syncSources.get source.id with
  | none => .error .notFound
  | some current =>
    if current.configuration ≠ source.configuration then .error .rollbackTransaction
    else writeGroups order params groups db

/-- One sync of a calendar: the feed as it was fetched, and when. -/
structure SyncCall where
  source : SyncSource
  calendar : List Vevent
  coverage : FeedCoverage := {}
  serverConfiguration : Option ServerConfiguration := none
  now : Instant

namespace SyncCall

variable (call : SyncCall)

def windowStart : Instant := call.now - days syncPastWindowDays

def windowEnd : Instant := call.now + days syncFutureWindowDays

/-- What the call passes to the reconciliation. -/
def params : SyncParams where
  sourceId := call.source.id
  ownerUserId := call.source.userId
  moderation := defaultEventModeration call.serverConfiguration
  pruneWindowStart := if call.coverage.upcomingOnly then call.now else call.windowStart
  missingHorizon := call.coverage.truncatedAfter
  now := call.now

end SyncCall

/-- The error reply of a failed sync. -/
def DbError.toStatus : DbError → Status
  | .rollbackTransaction => ⟨.aborted, "sync_source_changed"⟩
  | .notFound => ⟨.aborted, "sync_source_changed"⟩
  | .uniqueViolation => ⟨.internal, "failed_to_sync_source"⟩
  | .foreignKeyViolation => ⟨.internal, "failed_to_sync_source"⟩

/-- Upserts everything in a calendar into the events and occasions of its source. -/
def syncSourceCalendar (crates : CalendarCrates) (order : HashOrder) (call : SyncCall)
    (db : Database) : Except Status Database :=
  let groups := groupVevents crates order call.calendar call.windowStart call.windowEnd
  (syncTransaction order call.source call.params groups db).mapError DbError.toStatus

end Rellm.Sync
