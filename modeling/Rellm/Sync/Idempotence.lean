import Rellm.Calendar.Overrides
import Rellm.Sync.Grace
import Rellm.Sync.Renaming
import Rellm.Sync.Settled

/-!
# Syncing a calendar again

A current sync stores what its calendar produces once, syncing again changes no
row, and other iteration orders leave the same rows. All of this holds exactly
if no other content of the source holds a produced UID: a post that the source
got from an RSS or Atom feed before it subscribed to a calendar is not cleared
away, and then every sync breaks a unique index.
-/

namespace Rellm.Sync

open Foundation Calendar

section

variable {next : Nat} {db db' : Database}

/-- Rows that rest on posts of a source are as many under renamed ids. -/
theorem Renamed.countP_eq {ρ : Type} {key : ρ → Nat} {rename : Nat → Nat}
    (h : Renamed rename db db') (t t' : Table key)
    (hpost : ∀ row ∈ t.rows, (db.posts.get (key row)).isSome)
    (hpost' : ∀ row ∈ t'.rows, (db'.posts.get (key row)).isSome)
    (hrows : ∀ p, (db.posts.get p).isSome →
      ((t'.get (rename p)).isSome ↔ (t.get p).isSome)) (sourceId : Nat) :
    (t.rows.countP fun row =>
        decide ((db.posts.get (key row)).bind (·.syncSourceId) = some sourceId)) =
      t'.rows.countP fun row =>
        decide ((db'.posts.get (key row)).bind (·.syncSourceId) = some sourceId) := by
  have hsource : ∀ p, (db.posts.get p).isSome →
      (db'.posts.get (rename p)).bind (·.syncSourceId) =
        (db.posts.get p).bind (·.syncSourceId) := by
    intro p hsome
    obtain ⟨post, hget⟩ := Option.isSome_iff_exists.mp hsome
    rw [h.posts p hsome, hget]
    rfl
  have hget : ∀ {u : Table key} {row : ρ}, row ∈ u.rows → (u.get (key row)).isSome := by
    intro u row hmem
    rw [Table.mem_rows_iff.mp hmem]
    rfl
  refine Table.countP_eq_of_rename (f := rename) ?_ ?_ ?_
  · intro row hmem hp
    have hsome := hpost row hmem
    obtain ⟨row', hrow'⟩ := Option.isSome_iff_exists.mp ((hrows _ hsome).mpr (hget hmem))
    obtain ⟨hmem', hkey⟩ := Table.get_eq_some_iff.mp hrow'
    refine ⟨row', hmem', ?_, hkey⟩
    rw [hkey, hsource _ hsome]
    exact hp
  · intro row' hmem' hp'
    obtain ⟨p, hsome, hrename⟩ := h.onto _ (hpost' row' hmem')
    have hrow' : (t'.get (rename p)).isSome := by
      rw [hrename]
      exact hget hmem'
    obtain ⟨row, hrow⟩ := Option.isSome_iff_exists.mp ((hrows p hsome).mp hrow')
    obtain ⟨hmem, rfl⟩ := Table.get_eq_some_iff.mp hrow
    refine ⟨row, hmem, ?_, hrename⟩
    rw [← hsource _ hsome, hrename]
    exact hp'
  · intro row hmem other hother _ _ heq
    exact h.injective _ _ (hpost row hmem) (hpost other hother) heq

/-- The counts of a source are the same under renamed ids. -/
theorem SameUpToNewIds.storeCounts (h : SameUpToNewIds next db db') (hdb : Valid db)
    (hdb' : Valid db') (sourceId : Nat) :
    SameUpToNewIds next (storeCounts db sourceId) (storeCounts db' sourceId) := by
  obtain ⟨hsources, rename, hold, hrenamed⟩ := h
  have hevents := hrenamed.countP_eq db.events db'.events
    (fun row hmem => hdb.eventPost _ (by rw [Table.mem_rows_iff.mp hmem]; rfl))
    (fun row hmem => hdb'.eventPost _ (by rw [Table.mem_rows_iff.mp hmem]; rfl))
    (fun p hsome => by rw [hrenamed.events p hsome, Option.isSome_map]) sourceId
  have hoccasions := hrenamed.countP_eq db.occasions db'.occasions
    (fun row hmem => hdb.occasionPost _ (by rw [Table.mem_rows_iff.mp hmem]; rfl))
    (fun row hmem => hdb'.occasionPost _ (by rw [Table.mem_rows_iff.mp hmem]; rfl))
    (fun p hsome => by rw [hrenamed.occasions p hsome, Option.isSome_map]) sourceId
  refine ⟨?_, rename, hold, ⟨hrenamed.injective, hrenamed.onto, hrenamed.posts, hrenamed.events,
    hrenamed.occasions⟩⟩
  simp only [Sync.storeCounts, hsources, hevents, hoccasions]

/-- Two syncs of the same feed leave the same rows up to the ids of new ones. -/
theorem Writes.sameUpToNewIds {params : SyncParams} {feed : Feed} {db1 db2 : Database}
    (h : Writes params feed db db1) (h' : Writes params feed db db2) :
    SameUpToNewIds db.nextPostId db1 db2 := by
  obtain ⟨cleaned, synced, hclean, hcleaned, hsynced, rfl⟩ := h.steps
  obtain ⟨cleaned', synced', hclean', _, hsynced', rfl⟩ := h'.steps
  obtain rfl := Except.ok.inj (hclean.symm.trans hclean')
  rw [← hcleaned.next]
  exact (hsynced.sameUpToNewIds hsynced' hcleaned.valid).storeCounts hsynced.valid hsynced'.valid
    params.sourceId

/-- After a sync the database is settled for its feed. -/
theorem Writes.settled {params : SyncParams} {feed : Feed} (h : Writes params feed db db') :
    Settled params feed db' := by
  obtain ⟨cleaned, synced, _, hcleaned, hsynced, rfl⟩ := h.steps
  exact (hsynced.settled hcleaned.valid hcleaned.noOrphans).storeCounts

/-- The source is still current after a sync. -/
theorem Writes.current {params : SyncParams} {feed : Feed} (h : Writes params feed db db')
    {call : SyncCall} (hcurrent : call.Current db) : call.Current db' := by
  obtain ⟨current, hget, hconfiguration⟩ := hcurrent
  have hsame := h.configuration call.source.id
  rw [hget, Option.map_some, Option.map_eq_some_iff] at hsame
  obtain ⟨current', hget', hconfiguration'⟩ := hsame
  exact ⟨current', hget', hconfiguration'.trans hconfiguration⟩

end

section

variable (crates : CalendarCrates)

/-- The result of a sync: it has each produced event and occasion once, syncing again changes
no row, and with other iteration orders the same rows get other new ids at most. -/
structure StoresOnce (call : SyncCall) (db db' : Database) : Prop where
  event : ∀ uid, call.Lists crates uid →
    ∃! p, (db'.events.get p).isSome ∧ db'.keyOf p = some ⟨call.source.id, uid, none⟩
  occasion : ∀ uid anchor, (call.produced crates uid anchor).isSome →
    ∃! p, (db'.occasions.get p).isSome ∧
      db'.keyOf p = some ⟨call.source.id, uid, some anchor⟩
  again : ∀ order, ∃ db'', syncSourceCalendar crates order call db' = .ok db'' ∧
    db''.posts = db'.posts ∧ db''.events = db'.events ∧ db''.occasions = db'.occasions
  anyOrder : ∀ order, ∃ db'', syncSourceCalendar crates order call db = .ok db'' ∧
    SameUpToNewIds db.nextPostId db' db''

/-- A sync is aborted, with any iteration orders, if the configuration changed, and else
succeeds and stores what is produced once. -/
def SyncsOnce (call : SyncCall) (db : Database) : Prop :=
  (∀ order, ¬ call.Current db →
    syncSourceCalendar crates order call db = .error ⟨.aborted, "sync_source_changed"⟩) ∧
  (∀ order, call.Current db → ∃ db', syncSourceCalendar crates order call db = .ok db' ∧
    StoresOnce crates call db db')

variable {crates} {call : SyncCall} {db db' : Database}

/-- What a sync that succeeds leaves. -/
theorem storesOnce_of_ok {order : HashOrder} (hdb : Valid db)
    (hok : syncSourceCalendar crates order call db = .ok db') :
    StoresOnce crates call db db' := by
  obtain ⟨hcurrent, hfree, hwrites⟩ := writes_of_ok hdb hok
  have hsettled := hwrites.settled
  refine ⟨?_, ?_, ?_, ?_⟩
  · rintro uid ⟨anchor, occ, hocc⟩
    have htext := calendarFeed_text_isSome_iff.mpr ⟨anchor, occ, hocc⟩
    obtain ⟨p, hsome, hkey⟩ := hsettled.presentEvent uid htext
    exact ⟨p, ⟨hsome, hkey⟩, fun q hq => hwrites.valid.unique q p _ hq.2 hkey⟩
  · intro uid anchor hproduced
    obtain ⟨occ, hocc⟩ := Option.isSome_iff_exists.mp hproduced
    obtain ⟨p, o, hkey, ho, _⟩ := hwrites.stored hocc
    refine ⟨p, ⟨by rw [ho]; rfl, hkey⟩, fun q hq => hwrites.valid.unique q p _ hq.2 hkey⟩
  · intro order'
    refine ⟨storeCounts db' call.params.sourceId, ?_, rfl, rfl, rfl⟩
    rw [syncSourceCalendar_current (hwrites.current hcurrent),
      hsettled.writeGroups_eq order' (calendarFeed_has order')]
    rfl
  · intro order'
    obtain ⟨db'', hok'', hwrites''⟩ : ∃ db'', syncSourceCalendar crates order' call db = .ok db'' ∧
        Writes call.params (call.feed crates) db db'' := syncSourceCalendar_ok hdb hcurrent hfree
    exact ⟨db'', hok'', hwrites.sameUpToNewIds hwrites''⟩

/-- From every reachable database a sync stores what its calendar produces once and for all
exactly if no produced UID is held by a post of the source that is neither an event's nor an
occasion's, unless it is aborted anyway. -/
theorem syncsOnce_iff (hreachable : Reachable crates db) :
    SyncsOnce crates call db ↔
      (call.Current db → ∀ uid, call.Lists crates uid → ¬ Blocked db call.source.id uid) := by
  constructor
  · rintro ⟨_, hsyncs⟩ hcurrent
    obtain ⟨db', hok, _⟩ := hsyncs .asListed hcurrent
    exact (writes_of_ok hreachable.valid hok).2.1
  · intro hfree
    refine ⟨fun order hnot => syncSourceCalendar_aborted hnot, ?_⟩
    intro order hcurrent
    obtain ⟨db', hok, _⟩ : ∃ db', syncSourceCalendar crates order call db = .ok db' ∧
        Writes call.params (call.feed crates) db db' :=
      syncSourceCalendar_ok hreachable.valid hcurrent (hfree hcurrent)
    exact ⟨db', hok, storesOnce_of_ok hreachable.valid hok⟩

end

/-- The rule for a meeting that was synced the day before. -/
theorem syncsOnce_iff_meeting :
    SyncsOnce sampleCrates (sampleSync [singleMeeting] 1).2
        (syncStep sampleCrates sampleDatabase (sampleSync [singleMeeting] 0)) ↔
      ((sampleSync [singleMeeting] 1).2.Current
          (syncStep sampleCrates sampleDatabase (sampleSync [singleMeeting] 0)) →
        ∀ uid, (sampleSync [singleMeeting] 1).2.Lists sampleCrates uid →
          ¬ Blocked (syncStep sampleCrates sampleDatabase (sampleSync [singleMeeting] 0)) 1 uid) :=
  syncsOnce_iff ⟨[.putSyncSource sampleSource,
    .syncCalendar .asListed (sampleSync [singleMeeting] 0).2], rfl⟩

/-- The source while it still subscribed to an RSS feed. -/
def sampleFeedSource : SyncSource :=
  { sampleSource with configuration := .rssSubscriptionUrl "https://example.org/feed.xml" }

/-- The database of a source that switched from a feed to a calendar, when an entry of the
feed and a meeting of the calendar have the same id. -/
def switchedDatabase : Database :=
  run (step sampleCrates) .fresh [
    .putSyncSource sampleFeedSource,
    .syncFeed sampleFeedSource none [⟨"single", some "Meeting", none, none⟩],
    .putSyncSource sampleSource]

/-- The post of the feed blocks every sync of the calendar. -/
theorem switched_not_syncsOnce :
    Reachable sampleCrates switchedDatabase ∧
    ¬ SyncsOnce sampleCrates (sampleSync [singleMeeting] 0).2 switchedDatabase := by
  refine ⟨⟨_, rfl⟩, ?_⟩
  rintro ⟨_, hsyncs⟩
  obtain ⟨db', hok, _⟩ := hsyncs .asListed (by decide)
  have hfails : ¬ Succeeds sampleCrates switchedDatabase (sampleSync [singleMeeting] 0) := by
    decide
  apply hfails
  rw [Succeeds]
  have hcall : syncSourceCalendar sampleCrates (sampleSync [singleMeeting] 0).1
      (sampleSync [singleMeeting] 0).2 switchedDatabase = .ok db' := hok
  rw [hcall]
  rfl

end Rellm.Sync
