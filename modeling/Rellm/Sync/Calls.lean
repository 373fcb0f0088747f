import Rellm.Calendar.Grouping
import Rellm.Sync.WriteGroups

/-!
# One sync of a calendar

What a calendar produces is the feed of a sync, in whatever order its groups are
listed. A sync of it succeeds exactly if the configuration of the source is the
one it was fetched for and no produced UID is blocked, and then it writes that
feed.
-/

namespace Rellm.Sync

open Foundation Calendar

section

variable (crates : CalendarCrates) (calendar : List Vevent) (windowStart windowEnd : Instant)

open Classical in
/-- The text of the event a calendar produces something for. -/
noncomputable def eventText (uid : String) : Option EventText :=
  if ∃ anchor, (produced crates calendar windowStart windowEnd uid anchor).isSome then
    (seriesAt crates calendar windowStart windowEnd uid).map fun series =>
      ⟨series.master.propertyValue "SUMMARY", series.master.propertyValue "DESCRIPTION",
        series.master.propertyValue "URL"⟩
  else none

/-- What a calendar produces, as a feed. -/
noncomputable def calendarFeed : Feed where
  text := eventText crates calendar windowStart windowEnd
  occurrence := produced crates calendar windowStart windowEnd
  anchored _ _ _ h := produced_anchor h
  listed uid anchor h := by
    obtain ⟨occ, hocc⟩ := Option.isSome_iff_exists.mp h
    obtain ⟨series, hseries, _⟩ := Option.bind_eq_some_iff.mp hocc
    rw [eventText, if_pos ⟨anchor, h⟩, hseries]
    rfl

variable {crates calendar windowStart windowEnd}

/-- A feed has a text exactly where its calendar produces something. -/
theorem calendarFeed_text_isSome_iff {uid : String} :
    ((calendarFeed crates calendar windowStart windowEnd).text uid).isSome ↔
      ∃ anchor occ, produced crates calendar windowStart windowEnd uid anchor = some occ := by
  constructor
  · intro h
    by_cases hproduced : ∃ anchor,
        (produced crates calendar windowStart windowEnd uid anchor).isSome
    · obtain ⟨anchor, hsome⟩ := hproduced
      obtain ⟨occ, hocc⟩ := Option.isSome_iff_exists.mp hsome
      exact ⟨anchor, occ, hocc⟩
    · have hnone : (calendarFeed crates calendar windowStart windowEnd).text uid = none :=
        if_neg hproduced
      rw [hnone] at h
      cases h
  · rintro ⟨anchor, occ, hocc⟩
    exact (calendarFeed crates calendar windowStart windowEnd).listed uid anchor
      (Option.isSome_iff_exists.mpr ⟨occ, hocc⟩)

/-- The feed of a calendar has every group of it. -/
theorem calendarFeed_lists (order : HashOrder) {group : EventGroup}
    (h : group ∈ groupVevents crates order calendar windowStart windowEnd) :
    (calendarFeed crates calendar windowStart windowEnd).Lists group where
  text := by
    obtain ⟨series, hseries, htitle, hcontent, hlink, _⟩ := (mem_groupVevents_iff order).mp h
    obtain ⟨anchor, occ, hocc⟩ := (exists_group_iff order group.uid).mp ⟨group, h, rfl⟩
    have hproduced : ∃ anchor,
        (produced crates calendar windowStart windowEnd group.uid anchor).isSome :=
      ⟨anchor, Option.isSome_iff_exists.mpr ⟨occ, hocc⟩⟩
    refine (if_pos hproduced).trans ?_
    rw [hseries, htitle, hcontent, hlink]
    rfl
  occurrence := by
    funext anchor
    ext occ
    rw [occurrenceAt_eq_some_iff (group_anchors_nodup h)]
    constructor
    · intro hproduced
      have hanchor := produced_anchor hproduced
      subst hanchor
      exact ⟨(mem_occurrences_iff_produced h).mpr hproduced, rfl⟩
    · rintro ⟨hmem, rfl⟩
      exact (mem_occurrences_iff_produced h).mp hmem
  nodup := group_anchors_nodup h

/-- The groups of a calendar, in any order, are what its feed has. -/
theorem calendarFeed_has (order : HashOrder) :
    (calendarFeed crates calendar windowStart windowEnd).Has
      (groupVevents crates order calendar windowStart windowEnd) where
  lists _ h := calendarFeed_lists order h
  nodup := group_uids_nodup order
  complete uid h := by
    obtain ⟨group, hmem, rfl⟩ := (exists_group_iff order uid).mpr
      (calendarFeed_text_isSome_iff.mp h)
    exact List.mem_map.mpr ⟨group, hmem, rfl⟩

end

namespace SyncCall

variable (crates : CalendarCrates) (call : SyncCall)

/-- The occurrence a call's calendar produces for a UID and an anchor in its window. -/
def produced (uid : String) (anchor : Instant) : Option Occurrence :=
  Calendar.produced crates call.calendar call.windowStart call.windowEnd uid anchor

/-- The feed of a call. -/
noncomputable def feed : Feed :=
  calendarFeed crates call.calendar call.windowStart call.windowEnd

/-- A call produces something under a UID. -/
def Lists (uid : String) : Prop := ∃ anchor occ, call.produced crates uid anchor = some occ

/-- The source has the configuration its calendar was fetched for. -/
def Current (db : Database) : Prop :=
  ∃ current, db.syncSources.get call.source.id = some current ∧
    current.configuration = call.source.configuration

instance (db : Database) : Decidable (call.Current db) :=
  decidable_of_iff (((db.syncSources.get call.source.id).any fun current =>
    decide (current.configuration = call.source.configuration)) = true) (by
      rw [Current]
      cases db.syncSources.get call.source.id with
      | none => simp
      | some current => simp)

end SyncCall

section

variable {crates : CalendarCrates} {order : HashOrder} {call : SyncCall} {db db' : Database}

/-- A call of the calendar that is current runs the transaction's writes. -/
theorem syncSourceCalendar_current (h : call.Current db) :
    syncSourceCalendar crates order call db =
      (writeGroups order call.params (groupVevents crates order call.calendar call.windowStart
        call.windowEnd) db).mapError DbError.toStatus := by
  obtain ⟨current, hget, hconfiguration⟩ := h
  rw [syncSourceCalendar, syncTransaction, hget]
  simp only [hconfiguration, ne_eq, not_true_eq_false, if_false]

/-- A sync whose configuration changed in the meantime is aborted. -/
theorem syncSourceCalendar_aborted (h : ¬ call.Current db) :
    syncSourceCalendar crates order call db = .error ⟨.aborted, "sync_source_changed"⟩ := by
  rw [syncSourceCalendar, syncTransaction]
  cases hget : db.syncSources.get call.source.id with
  | none => rfl
  | some current =>
    have hconfiguration : current.configuration ≠ call.source.configuration :=
      fun heq => h ⟨current, hget, heq⟩
    simp only [if_pos hconfiguration]
    rfl

/-- The groups of a call have the UIDs it produces something under. -/
theorem exists_group_blocked_iff (order : HashOrder) :
    (∃ group ∈ groupVevents crates order call.calendar call.windowStart call.windowEnd,
      Blocked db call.source.id group.uid) ↔
      ∃ uid, call.Lists crates uid ∧ Blocked db call.source.id uid := by
  constructor
  · rintro ⟨group, hmem, hblocked⟩
    exact ⟨group.uid, (exists_group_iff order group.uid).mp ⟨group, hmem, rfl⟩, hblocked⟩
  · rintro ⟨uid, hlists, hblocked⟩
    obtain ⟨group, hmem, rfl⟩ := (exists_group_iff order uid).mpr hlists
    exact ⟨group, hmem, hblocked⟩

/-- A current sync of which no UID is blocked succeeds and writes its feed. -/
theorem syncSourceCalendar_ok (hdb : Valid db) (hcurrent : call.Current db)
    (hfree : ∀ uid, call.Lists crates uid → ¬ Blocked db call.source.id uid) :
    ∃ db', syncSourceCalendar crates order call db = .ok db' ∧
      Writes call.params (call.feed crates) db db' := by
  have hgroups : ∀ group ∈ groupVevents crates order call.calendar call.windowStart
      call.windowEnd, ¬ Blocked db call.params.sourceId group.uid := by
    intro group hmem hblocked
    obtain ⟨uid, hlists, hheld⟩ := (exists_group_blocked_iff order).mp ⟨group, hmem, hblocked⟩
    exact hfree uid hlists hheld
  obtain ⟨db', hok, hwrites⟩ := writeGroups_ok hdb order (calendarFeed_has order) hgroups
  refine ⟨db', ?_, hwrites⟩
  rw [syncSourceCalendar_current hcurrent, hok]
  rfl

/-- A current sync of which some UID is blocked fails. -/
theorem syncSourceCalendar_blocked (hdb : Valid db) (hcurrent : call.Current db)
    (hblocked : ∃ uid, call.Lists crates uid ∧ Blocked db call.source.id uid) :
    syncSourceCalendar crates order call db = .error ⟨.internal, "failed_to_sync_source"⟩ := by
  have hgroup := (exists_group_blocked_iff order).mpr hblocked
  rw [syncSourceCalendar_current hcurrent,
    writeGroups_error hdb order (calendarFeed_has order) hgroup]
  rfl

/-- A sync that succeeds was current, had no UID blocked, and wrote its feed. -/
theorem writes_of_ok (hdb : Valid db)
    (h : syncSourceCalendar crates order call db = .ok db') :
    call.Current db ∧ (∀ uid, call.Lists crates uid → ¬ Blocked db call.source.id uid) ∧
      Writes call.params (call.feed crates) db db' := by
  by_cases hcurrent : call.Current db
  · have hfree : ∀ uid, call.Lists crates uid → ¬ Blocked db call.source.id uid := by
      intro uid hlists hblocked
      rw [syncSourceCalendar_blocked hdb hcurrent ⟨uid, hlists, hblocked⟩] at h
      cases h
    obtain ⟨db'', hok, hwrites⟩ := syncSourceCalendar_ok hdb hcurrent hfree
    rw [hok] at h
    obtain rfl := Except.ok.inj h
    exact ⟨hcurrent, hfree, hwrites⟩
  · rw [syncSourceCalendar_aborted hcurrent] at h
    cases h

end

/-- Storing counts keeps every row a sync looks at. -/
theorem Valid.storeCounts {db : Database} (h : Valid db) (sourceId : Nat) :
    Valid (storeCounts db sourceId) := h.of_rows rfl rfl rfl rfl

namespace Writes

variable {params : SyncParams} {feed : Feed} {db db' : Database}

theorem valid (h : Writes params feed db db') : Valid db' := by
  obtain ⟨_, synced, _, _, hsynced, rfl⟩ := h.steps
  exact hsynced.valid.storeCounts params.sourceId

/-- A sync rewrites only the counts of its source. -/
theorem configuration (h : Writes params feed db db') (id : Nat) :
    (db'.syncSources.get id).map (·.configuration) =
      (db.syncSources.get id).map (·.configuration) := by
  obtain ⟨cleaned, synced, _, hcleaned, hsynced, rfl⟩ := h.steps
  have hsources : synced.syncSources = db.syncSources :=
    hsynced.syncSources.trans hcleaned.syncSources
  rw [Sync.storeCounts, Table.get_update, hsources, Option.map_map]
  apply Option.map_congr
  intro source _
  rw [Function.comp_apply]
  split <;> rfl

/-- What the calendar has for the anchor of an occasion decides what becomes of it. -/
theorem occasion (h : Writes params feed db db') (hdb : Valid db) {p : Nat} {uid : String}
    {anchor : Instant} (hkey : db.keyOf p = some ⟨params.sourceId, uid, some anchor⟩) :
    db'.occasions.get p =
      (db.occasions.get p).bind (fate params (feed.occurrence uid anchor)) := by
  obtain ⟨cleaned, synced, _, hcleaned, hsynced, rfl⟩ := h.steps
  by_cases horphan : Orphan db params.sourceId p
  · have hlt := hdb.lt_of_key hkey
    have hgone := hcleaned.orphan p horphan
    have hnot : ¬ Affected params.sourceId (fun _ => True) cleaned p := by
      rintro ⟨_, _, _, hkey', _⟩
      rw [Database.keyOf, hgone] at hkey'
      cases hkey'
    rw [(horphan.no_rows hdb).2]
    exact (hsynced.others p (hcleaned.next ▸ hlt) hnot).occasions.trans
      ((hcleaned.occasions p).trans (horphan.no_rows hdb).2)
  · have hkey' : cleaned.keyOf p = some ⟨params.sourceId, uid, some anchor⟩ := by
      rw [Database.keyOf, hcleaned.other p horphan]
      exact hkey
    have hfate := hsynced.occasion p uid anchor trivial hkey'
    rw [hcleaned.occasions] at hfate
    exact hfate

/-- An occasion without an anchor of the source stays as it is. -/
theorem occasion_other (h : Writes params feed db db') (hdb : Valid db) {p : Nat} {o : Occasion}
    (ho : db.occasions.get p = some o)
    (hkey : ∀ uid anchor, db.keyOf p ≠ some ⟨params.sourceId, uid, some anchor⟩) :
    db'.occasions.get p = some o := by
  obtain ⟨cleaned, synced, _, hcleaned, hsynced, rfl⟩ := h.steps
  have horphan : ¬ Orphan db params.sourceId p := by
    intro horphan
    rw [(horphan.no_rows hdb).2] at ho
    cases ho
  have hlt := hdb.fresh p (hdb.occasionPost p (Option.isSome_iff_exists.mpr ⟨o, ho⟩))
  have hnot : ¬ Affected params.sourceId (fun _ => True) cleaned p := by
    rintro ⟨uid, anchor, _, hkey', hevent⟩
    rw [Database.keyOf, hcleaned.other p horphan] at hkey'
    cases anchor with
    | some anchor => exact hkey uid anchor hkey'
    | none =>
      have hsome := (hdb.occasionKey p o _ ho hkey').1
      cases hsome
  exact (hsynced.others p (hcleaned.next ▸ hlt) hnot).occasions.trans
    ((hcleaned.occasions p).trans ho)

/-- An occurrence is stored: some occasion has its anchor and is up to date with it. -/
theorem stored (h : Writes params feed db db') {uid : String} {anchor : Instant}
    {occ : Occurrence} (hocc : feed.occurrence uid anchor = some occ) :
    ∃ p o, db'.keyOf p = some ⟨params.sourceId, uid, some anchor⟩ ∧
      db'.occasions.get p = some o ∧ refreshed occ o = o := by
  obtain ⟨cleaned, synced, _, hcleaned, hsynced, rfl⟩ := h.steps
  obtain ⟨p, hkey⟩ := hsynced.presentOccasion uid anchor trivial (by rw [hocc]; rfl)
  obtain ⟨o, ho⟩ := Option.isSome_iff_exists.mp
    (hsynced.noOrphans.occasion_isSome hsynced.valid hkey)
  refine ⟨p, o, hkey, ho, ?_⟩
  by_cases hp : p < cleaned.nextPostId
  · have hfate := hsynced.occasion p uid anchor trivial (hsynced.keyOf_of_some hp hkey)
    rw [ho, hocc] at hfate
    obtain ⟨before, _, hbefore⟩ := Option.bind_eq_some_iff.mp hfate.symm
    obtain rfl := Option.some.inj hbefore
    rfl
  · obtain ⟨occ', e, hocc', _, _, ho', _⟩ := hsynced.created_occasion (Nat.le_of_not_lt hp) hkey
    rw [hocc] at hocc'
    obtain rfl := Option.some.inj hocc'
    rw [ho] at ho'
    obtain rfl := Option.some.inj ho'
    rfl

/-- An occasion of the source after a sync was one before, or is newly created. -/
theorem occasion_origin (h : Writes params feed db db') {p : Nat} {uid : String}
    {anchor : Instant} {o : Occasion}
    (hkey : db'.keyOf p = some ⟨params.sourceId, uid, some anchor⟩)
    (ho : db'.occasions.get p = some o) :
    db.keyOf p = some ⟨params.sourceId, uid, some anchor⟩ ∨ o.syncMissingSince = none := by
  obtain ⟨cleaned, synced, _, hcleaned, hsynced, rfl⟩ := h.steps
  by_cases hp : p < cleaned.nextPostId
  · left
    have hold := hsynced.keyOf_of_some hp hkey
    have hnot : ¬ Orphan db params.sourceId p := by
      intro horphan
      rw [Database.keyOf, hcleaned.orphan p horphan] at hold
      cases hold
    rw [Database.keyOf, hcleaned.other p hnot] at hold
    exact hold
  · right
    obtain ⟨occ, e, _, _, _, hrow, _⟩ := hsynced.created_occasion (Nat.le_of_not_lt hp) hkey
    have ho' : synced.occasions.get p = some o := ho
    rw [hrow] at ho'
    obtain rfl := Option.some.inj ho'
    rfl

end Writes

end Rellm.Sync
