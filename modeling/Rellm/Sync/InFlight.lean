import Rellm.Calendar.Overrides
import Rellm.Paging.CollectPages
import Rellm.Sync.References

/-!
# Syncs in flight

A sync loads the row of its source, fetches the feed, and writes what it fetched some
time later; in between the source can be edited or deleted, and other syncs run. A
calendar is written only for the configuration it was fetched with. An RSS or Atom feed
is written whatever the configuration is by then.
-/

namespace Rellm.Sync

open Foundation Calendar Paging

/-- What the fetch of a feed returned. -/
inductive Fetched where
  | ics (calendar : List Vevent)
  | stellarwp (paged : PagedCalendar)
  | feed (entries : List FeedEntry)

/-- The feeds that the fetch of a configuration can return. -/
def SyncSourceConfiguration.fetches : SyncSourceConfiguration → Fetched → Bool
  | .icsSubscriptionUrl url, .ics _ => !(trim url).isEmpty
  | .stellarwpIcsSubscriptionUrl url, .stellarwp _ => !(trim url).isEmpty
  | .rssSubscriptionUrl url, .feed _ => !(trim url).isEmpty
  | .atomSubscriptionUrl url, .feed _ => !(trim url).isEmpty
  | _, _ => false

/-- A sync that has not written yet: the source as it was loaded, and what was fetched. -/
structure InFlight where
  source : SyncSource
  fetched : Fetched

/-- The transaction that writes what was fetched. -/
def InFlight.write (flight : InFlight) (order : HashOrder) (config : Option ServerConfiguration)
    (now : Instant) : Action :=
  match flight.fetched with
  | .ics calendar => .syncCalendar order {
      source := flight.source
      calendar := calendar
      serverConfiguration := config
      now := now }
  | .stellarwp paged => .syncCalendar order {
      source := flight.source
      calendar := paged.calendar
      coverage := { truncatedAfter := paged.coverageHorizon, upcomingOnly := true }
      serverConfiguration := config
      now := now }
  | .feed entries => .syncFeed flight.source config entries

/-- The database and the syncs in flight. -/
structure SyncState where
  db : Database
  inFlight : List InFlight

/-- Whether an action is the transaction of a sync. -/
def Action.isSync : Action → Bool
  | .syncCalendar _ _ => true
  | .syncFeed _ _ _ => true
  | _ => false

/-- A sync loads its source and fetches, a sync writes, or a user does something else: in
particular edits or deletes a source. -/
inductive SyncEvent where
  | read (sourceId : Nat) (fetched : Fetched)
  | write (index : Nat) (order : HashOrder) (config : Option ServerConfiguration) (now : Instant)
  | act (action : Action) (notSync : action.isSync = false)

namespace SyncState

variable (crates : CalendarCrates)

/-- What an event makes of the state. -/
def step (s : SyncState) : SyncEvent → SyncState
  | .read sourceId fetched =>
    match s.db.syncSources.get sourceId with
    | none => s
    | some source =>
      if source.configuration.fetches fetched then
        { s with inFlight := s.inFlight ++ [⟨source, fetched⟩] }
      else s
  | .write index order config now =>
    match s.inFlight[index]? with
    | none => s
    | some flight =>
      { db := Sync.step crates s.db (flight.write order config now)
        inFlight := s.inFlight.eraseIdx index }
  | .act action _ => { s with db := Sync.step crates s.db action }

/-- Nothing stored and nothing in flight. -/
def fresh : SyncState where
  db := .fresh
  inFlight := []

end SyncState

/-- Two databases have the same posts, events and occasions. -/
structure SameContent (db db' : Database) : Prop where
  posts : db'.posts = db.posts
  events : db'.events = db.events
  occasions : db'.occasions = db.occasions

/-- The source has the configuration that the feed was fetched with. -/
def InFlight.Current (flight : InFlight) (db : Database) : Prop :=
  ∃ current, db.syncSources.get flight.source.id = some current ∧
    current.configuration = flight.source.configuration

/-- A write creates or changes content only for the configuration its feed was fetched with. -/
def WritesOnlyCurrent (crates : CalendarCrates) (s : SyncState) : SyncEvent → Prop
  | .write index order config now => ∀ flight, s.inFlight[index]? = some flight →
      ¬ SameContent s.db (s.step crates (.write index order config now)).db →
      flight.Current s.db
  | _ => True

/-- An entry is skipped, or its post is there and up to date. -/
def StoredAsIs (db : Database) (sourceId : Nat) (entry : FeedEntry) : Prop :=
  (trim entry.id).isEmpty = true ∨ ∃ postId post,
    (existingPostIdsByUid db sourceId).value entry.id = some postId ∧
    db.posts.get postId = some post ∧
    post.title = entry.title ∧ post.content = entry.content ∧ post.link = entry.link

/-- An RSS or Atom feed with an entry to create or change is only written while its source, if
it still exists, has the configuration it was fetched with. -/
def FeedUnchanged (s : SyncState) : SyncEvent → Prop
  | .write index _ _ _ => ∀ flight entries current, s.inFlight[index]? = some flight →
      flight.fetched = .feed entries → s.db.syncSources.get flight.source.id = some current →
      current.configuration = flight.source.configuration ∨
        ∀ entry ∈ entries, StoredAsIs s.db flight.source.id entry
  | _ => True

section

variable {crates : CalendarCrates} {db : Database}

theorem SameContent.refl (db : Database) : SameContent db db := ⟨rfl, rfl, rfl⟩

/-- An entry that is stored as it is changes nothing. -/
theorem syncEntry_storedAsIs {source : SyncSource} {moderation : Moderation} {entry : FeedEntry}
    (h : StoredAsIs db source.id entry) :
    syncEntry source moderation (existingPostIdsByUid db source.id) db entry = .ok db := by
  rw [syncEntry]
  rcases h with hblank | ⟨postId, post, hexisting, hpost, htitle, hcontent, hlink⟩
  · rw [if_pos hblank]
  · split
    · rfl
    · rw [hexisting]
      simp only [syncPostText, hpost, htitle, hcontent, hlink]
      simp

/-- A feed whose entries are all stored as they are changes no content. -/
theorem syncFeed_storedAsIs {source : SyncSource} {config : Option ServerConfiguration}
    {entries : List FeedEntry} (h : ∀ entry ∈ entries, StoredAsIs db source.id entry) :
    SameContent db (step crates db (.syncFeed source config entries)) := by
  have hentry : ∀ entry ∈ entries, syncEntry source (defaultPostModeration config)
      (existingPostIdsByUid db source.id) db entry = .ok db :=
    fun entry hmem => syncEntry_storedAsIs (h entry hmem)
  have hfold := foldlM_eq_self hentry
  simp only [step, perform, syncFeed, hfold, bind, Except.bind]
  exact ⟨rfl, rfl, rfl⟩

/-- Without its source a feed changes no content: it has no posts, and none can be created. -/
theorem syncFeed_missing {source : SyncSource} {config : Option ServerConfiguration}
    {entries : List FeedEntry} (hdb : Referenced db)
    (hmissing : db.syncSources.get source.id = none) :
    SameContent db (step crates db (.syncFeed source config entries)) := by
  have hnone : ∀ uid, (existingPostIdsByUid db source.id).value uid = none := by
    intro uid
    rw [Option.eq_none_iff_forall_ne_some]
    intro postId hvalue
    have hmem := Table.mem_of_mem_collect (HashMap.value_eq_some_iff.mp hvalue)
    obtain ⟨post, hpost, _⟩ := List.mem_filterMap.mp hmem
    obtain ⟨hrow, hnamed⟩ := List.mem_filter.mp hpost
    have hsome := hdb post.id post source.id (Table.mem_rows_iff.mp hrow) (of_decide_eq_true hnamed)
    rw [hmissing] at hsome
    cases hsome
  cases hfold : entries.foldlM (syncEntry source (defaultPostModeration config)
      (existingPostIdsByUid db source.id)) db with
  | error e =>
    simp only [step, perform, syncFeed, hfold, bind, Except.bind]
    exact .refl db
  | ok written =>
    have hsame : written = db := by
      refine foldlM_invariant (I := fun between => between = db) ?_ rfl hfold
      rintro between entry after rfl hentry
      rw [syncEntry] at hentry
      split at hentry
      · exact (Except.ok.inj hentry).symm
      · rw [hnone] at hentry
        simp only [createPostForEntry, bind, Except.bind] at hentry
        split at hentry
        · cases hentry
        · rename_i inserted hinserted
          have hsources : inserted.2.syncSources = between.syncSources := by
            rw [Database.insertPost] at hinserted
            split at hinserted
            · cases hinserted
            · obtain rfl := Except.ok.inj hinserted
              rfl
          rw [hsources, hmissing] at hentry
          cases hentry
    subst hsame
    simp only [step, perform, syncFeed, hfold, bind, Except.bind]
    exact ⟨rfl, rfl, rfl⟩

/-- A calendar fetched for another configuration changes nothing. -/
theorem syncCalendar_stale {order : HashOrder} {call : SyncCall} (h : ¬ call.Current db) :
    SameContent db (step crates db (.syncCalendar order call)) := by
  rw [step, perform, syncSourceCalendar_aborted h]
  exact .refl db

/-- What every event keeps of the database. -/
structure SyncState.Sound (s : SyncState) : Prop where
  valid : Valid s.db
  referenced : Referenced s.db

/-- An action keeps the database sound. -/
theorem sound_of_step {s : SyncState} (h : s.Sound) (action : Action) (inFlight : List InFlight) :
    SyncState.Sound { db := Sync.step crates s.db action, inFlight := inFlight } where
  valid := step_valid h.valid action
  referenced := step_referenced h.valid h.referenced action

/-- Every event keeps the database sound. -/
theorem SyncState.Sound.step {s : SyncState} (h : s.Sound) (event : SyncEvent) :
    (s.step crates event).Sound := by
  cases event with
  | read sourceId fetched =>
    rw [SyncState.step]
    split
    · exact h
    · split
      · exact ⟨h.valid, h.referenced⟩
      · exact h
  | write index order config now =>
    rw [SyncState.step]
    split
    · exact h
    · exact sound_of_step h _ _
  | act action _ => exact sound_of_step h action s.inFlight

/-- A sync in flight that is no longer current writes no content, unless it is a feed with an
entry to create or change. -/
theorem write_stale {db : Database} (hdb : Referenced db) {flight : InFlight} {order : HashOrder}
    {config : Option ServerConfiguration} {now : Instant} (hstale : ¬ flight.Current db)
    (hfeed : ∀ entries current, flight.fetched = .feed entries →
      db.syncSources.get flight.source.id = some current →
      ∀ entry ∈ entries, StoredAsIs db flight.source.id entry) :
    SameContent db (step crates db (flight.write order config now)) := by
  rw [InFlight.write]
  cases hfetched : flight.fetched with
  | ics calendar => exact syncCalendar_stale hstale
  | stellarwp paged => exact syncCalendar_stale hstale
  | feed entries =>
    cases hget : db.syncSources.get flight.source.id with
    | none => exact syncFeed_missing hdb hget
    | some current => exact syncFeed_storedAsIs (hfeed entries current hfetched hget)

/-- In every run of syncs, edits and deletions in which an RSS or Atom feed with something to
write finds the configuration it was fetched with, nothing is written for an outdated one. -/
theorem writes_only_current (events : List SyncEvent)
    (h : Along (SyncState.step crates) FeedUnchanged .fresh events) :
    Along (SyncState.step crates) (WritesOnlyCurrent crates) .fresh events := by
  have hfresh : SyncState.fresh.Sound := ⟨fresh_valid, fun _ _ _ hpost => by cases hpost⟩
  refine Along.of_invariant (I := SyncState.Sound) ?_ hfresh h
  intro s event hsound hunchanged
  refine ⟨?_, hsound.step event⟩
  cases event with
  | read sourceId fetched => trivial
  | act action notSync => trivial
  | write index order config now =>
    intro flight hflight hwritten
    by_contra hstale
    apply hwritten
    simp only [SyncState.step, hflight]
    refine write_stale hsound.referenced hstale fun entries current hfetched hget => ?_
    rcases hunchanged flight entries current hflight hfetched hget with hsame | hstored
    · exact absurd ⟨current, hget, hsame⟩ hstale
    · exact hstored

end

/-- A source that subscribes to an RSS feed. -/
def rssSource : SyncSource where
  id := 1
  userId := 1
  configuration := .rssSubscriptionUrl "https://example.org/news.rss"

/-- The same source after an edit. -/
def editedSource : SyncSource :=
  { rssSource with configuration := .rssSubscriptionUrl "https://example.org/blog.rss" }

/-- The feed of the source before the edit. -/
def rssEntries : List FeedEntry :=
  [{ id := "item", title := some "News", content := none, link := none }]

/-- Without an edit in between, what is written is current. -/
theorem writes_only_current_unedited :
    Along (SyncState.step sampleCrates) (WritesOnlyCurrent sampleCrates) .fresh
      [.act (.putSyncSource rssSource) rfl, .read 1 (.feed rssEntries),
        .write 0 .asListed none 0] := by
  refine writes_only_current _ ⟨trivial, trivial, ?_, trivial⟩
  intro flight entries current hflight _ hget
  obtain rfl : (⟨rssSource, .feed rssEntries⟩ : InFlight) = flight := Option.some.inj hflight
  obtain rfl : rssSource = current := Option.some.inj hget
  exact .inl rfl

/-- A feed fetched before an edit of its source is written after it. -/
theorem edited_feed_is_written :
    ¬ ∀ (crates : CalendarCrates) (events : List SyncEvent),
      Along (SyncState.step crates) (WritesOnlyCurrent crates) .fresh events := by
  intro h
  obtain ⟨_, _, _, hwrite, _⟩ := h sampleCrates
    [.act (.putSyncSource rssSource) rfl, .read 1 (.feed rssEntries),
      .act (.putSyncSource editedSource) rfl, .write 0 .asListed none 0]
  obtain ⟨current, hget, hconfiguration⟩ :=
    hwrite ⟨rssSource, .feed rssEntries⟩ rfl fun hsame => by
      have hlength := congrArg (fun posts => posts.rows.length) hsame.posts
      exact absurd hlength (by decide)
  obtain rfl : editedSource = current := Option.some.inj hget
  exact absurd hconfiguration (by decide)

end Rellm.Sync
