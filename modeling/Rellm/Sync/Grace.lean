import Rellm.Calendar.Overrides
import Rellm.Sync.Reachable

/-!
# The grace period

Over a run of syncs of one source, an occasion is deleted only by a sync that
covers it and has nothing for it, when an earlier one that did the same was at
least the grace period before and none since had it. The mark on an occasion
names that earlier sync.
-/

namespace Rellm.Sync

open Foundation Calendar

section

variable (crates : CalendarCrates)

/-- One more sync, with the orders its hash maps happen to have. -/
def syncStep (db : Database) (entry : HashOrder × SyncCall) : Database :=
  step crates db (.syncCalendar entry.1 entry.2)

/-- A sync succeeds. -/
def Succeeds (db : Database) (entry : HashOrder × SyncCall) : Prop :=
  (syncSourceCalendar crates entry.1 entry.2 db).toOption.isSome

instance (db : Database) (entry : HashOrder × SyncCall) : Decidable (Succeeds crates db entry) :=
  inferInstanceAs (Decidable (_ = true))

/-- A run has a sync at some time that covered an occasion and had nothing for its anchor,
and none since that had something. -/
def MissedSince (db : Database) (entries : List (HashOrder × SyncCall)) (p : Nat) (uid : String)
    (anchor since : Instant) : Prop :=
  ∃ older missed newer, entries = older ++ missed :: newer ∧ missed.2.now = since ∧
    (∃ o, (run (syncStep crates) db older).occasions.get p = some o ∧
      covers missed.2.params o = true) ∧
    missed.2.produced crates uid anchor = none ∧
    ∀ entry ∈ newer, entry.2.produced crates uid anchor = none

/-- The sync of a source may delete an occasion after a run of others. -/
def MayDelete (db : Database) (entries : List (HashOrder × SyncCall)) (call : SyncCall) (p : Nat)
    (o : Occasion) : Prop :=
  ∃ uid anchor since, (run (syncStep crates) db entries).keyOf p =
      some ⟨call.source.id, uid, some anchor⟩ ∧
    covers call.params o = true ∧ call.produced crates uid anchor = none ∧
    since + days missingGracePeriodDays ≤ call.now ∧
    MissedSince crates db entries p uid anchor since

/-- What a sync after a run of others deletes: occasions that it may delete, none without an
anchor, and an event only when each of its occasions is among those it may delete. -/
structure DeletesLate (db : Database) (entries : List (HashOrder × SyncCall))
    (last : HashOrder × SyncCall) : Prop where
  occasion : ∀ p o, (run (syncStep crates) db entries).occasions.get p = some o →
    (run (syncStep crates) db (entries ++ [last])).occasions.get p = none →
    MayDelete crates db entries last.2 p o
  unanchored : ∀ p o, (run (syncStep crates) db entries).occasions.get p = some o →
    (run (syncStep crates) db entries).anchorOf p = none →
    (run (syncStep crates) db (entries ++ [last])).occasions.get p = some o
  event : ∀ p post, (run (syncStep crates) db entries).posts.get p = some post →
    post.context = .event →
    (run (syncStep crates) db (entries ++ [last])).posts.get p = none →
    ∀ q o, o.eventId = p →
      (run (syncStep crates) db (entries ++ [last])).occasions.get q ≠ some o ∧
      ((run (syncStep crates) db entries).occasions.get q = some o →
        MayDelete crates db entries last.2 q o)

end

section

variable {crates : CalendarCrates} {db db' : Database} {entry : HashOrder × SyncCall}
  {entries : List (HashOrder × SyncCall)} {sourceId : Nat}

/-- What a sync that succeeds writes. -/
theorem writes_of_succeeds (hdb : Valid db) (h : Succeeds crates db entry) :
    Writes entry.2.params (entry.2.feed crates) db (syncStep crates db entry) := by
  obtain ⟨db', hdb'⟩ := Option.isSome_iff_exists.mp h
  have hstep : syncStep crates db entry = db' := by
    rw [syncStep, step, perform, hdb', Option.getD_some]
  rw [hstep]
  exact (writes_of_ok hdb (ok_of_toOption hdb')).2.2

/-- A missed occasion stays missed when the next sync has nothing for it either. -/
theorem MissedSince.append {p : Nat} {uid : String} {anchor since : Instant}
    (h : MissedSince crates db entries p uid anchor since)
    (hnone : entry.2.produced crates uid anchor = none) :
    MissedSince crates db (entries ++ [entry]) p uid anchor since := by
  obtain ⟨older, missed, newer, rfl, hnow, hcovered, hmissed, hnewer⟩ := h
  refine ⟨older, missed, newer ++ [entry], by simp, hnow, hcovered, hmissed, ?_⟩
  intro other hmem
  rcases List.mem_append.mp hmem with hold | hlast
  · exact hnewer other hold
  · rw [List.mem_singleton.mp hlast]
    exact hnone

/-- Every mark on an occasion of the source is the time of a sync that missed it. -/
structure MarksMissed (crates : CalendarCrates) (sourceId : Nat) (db : Database)
    (entries : List (HashOrder × SyncCall)) : Prop where
  valid : Valid (run (syncStep crates) db entries)
  marks : ∀ p o uid anchor since, (run (syncStep crates) db entries).occasions.get p = some o →
    (run (syncStep crates) db entries).keyOf p = some ⟨sourceId, uid, some anchor⟩ →
    o.syncMissingSince = some since → MissedSince crates db entries p uid anchor since

/-- One more sync of the source marks only what it misses. -/
theorem MarksMissed.append (h : MarksMissed crates sourceId db entries)
    (hsource : entry.2.source.id = sourceId)
    (hok : Succeeds crates (run (syncStep crates) db entries) entry) :
    MarksMissed crates sourceId db (entries ++ [entry]) := by
  have hwrites := writes_of_succeeds h.valid hok
  have hrun : run (syncStep crates) db (entries ++ [entry]) =
      syncStep crates (run (syncStep crates) db entries) entry := run_append _ _ _
  have hid : entry.2.params.sourceId = sourceId := hsource
  refine ⟨by rw [hrun]; exact hwrites.valid, ?_⟩
  intro p o uid anchor since ho hkey hmark
  rw [hrun] at ho hkey
  rw [← hid] at hkey
  rcases hwrites.occasion_origin hkey ho with hold | hnew
  · have hfate := hwrites.occasion h.valid hold
    rw [ho] at hfate
    obtain ⟨before, hbefore, hbecomes⟩ := Option.bind_eq_some_iff.mp hfate.symm
    rw [hid] at hold
    cases hwanted : entry.2.produced crates uid anchor with
    | some occ =>
      have hrefreshed : fate entry.2.params (some occ) before = some o := by
        rw [← hwanted]
        exact hbecomes
      obtain rfl := Option.some.inj hrefreshed
      cases hmark
    | none =>
      have hmissing : missingFate entry.2.params before = some o := by
        have hnone : fate entry.2.params none before = some o := by
          rw [← hwanted]
          exact hbecomes
        exact hnone
      have hkept : o = before → MissedSince crates db (entries ++ [entry]) p uid anchor since := by
        rintro rfl
        exact (h.marks p o uid anchor since hbefore hold hmark).append hwanted
      rw [missingFate] at hmissing
      split at hmissing
      · rename_i hcovers
        split at hmissing
        · -- the sync itself puts the mark
          obtain rfl := Option.some.inj hmissing
          obtain rfl := Option.some.inj hmark
          exact ⟨entries, entry, [], rfl, rfl, ⟨before, hbefore, hcovers⟩, hwanted,
            fun other hmem => absurd hmem List.not_mem_nil⟩
        · split at hmissing
          · cases hmissing
          · exact hkept (Option.some.inj hmissing).symm
      · exact hkept (Option.some.inj hmissing).symm
  · rw [hnew] at hmark
    cases hmark

/-- The marks are those of syncs that missed, after every run of syncs of the source. -/
theorem marksMissed_run (hdb : Valid db)
    (hunmarked : ∀ p o uid anchor, db.occasions.get p = some o →
      db.keyOf p = some ⟨sourceId, uid, some anchor⟩ → o.syncMissingSince = none)
    (hsource : ∀ entry ∈ entries, entry.2.source.id = sourceId)
    (hok : Along (syncStep crates) (Succeeds crates) db entries) :
    MarksMissed crates sourceId db entries := by
  induction entries using List.reverseRecOn with
  | nil =>
    refine ⟨hdb, ?_⟩
    intro p o uid anchor since ho hkey hmark
    rw [hunmarked p o uid anchor ho hkey] at hmark
    cases hmark
  | append_singleton entries entry ih =>
    obtain ⟨hbefore, hlast⟩ := along_append.mp hok
    have hmarks := ih (fun other hmem => hsource other (List.mem_append_left _ hmem)) hbefore
    exact hmarks.append (hsource entry (List.mem_append_right _ (List.mem_singleton.mpr rfl)))
      hlast.1

/-- An occasion that stays keeps its event. -/
theorem fate_eventId {params : SyncParams} {wanted : Option Occurrence} {o o' : Occasion}
    (h : fate params wanted o = some o') : o'.eventId = o.eventId := by
  cases wanted with
  | none => exact missingFate_eventId h
  | some occ =>
    obtain rfl := Option.some.inj h
    rfl

/-- An occasion that stays keeps its event through a whole sync. -/
theorem Writes.eventId_of_kept {params : SyncParams} {feed : Feed} (h : Writes params feed db db')
    (hdb : Valid db) {q : Nat} {o o' : Occasion} (ho : db.occasions.get q = some o)
    (ho' : db'.occasions.get q = some o') : o'.eventId = o.eventId := by
  by_cases hkeyed : ∃ uid anchor, db.keyOf q = some ⟨params.sourceId, uid, some anchor⟩
  · obtain ⟨uid, anchor, hkey⟩ := hkeyed
    rw [h.occasion hdb hkey, ho] at ho'
    exact fate_eventId ho'
  · have hkey : ∀ uid anchor, db.keyOf q ≠ some ⟨params.sourceId, uid, some anchor⟩ :=
      fun uid anchor heq => hkeyed ⟨uid, anchor, heq⟩
    rw [h.occasion_other hdb ho hkey] at ho'
    obtain rfl := Option.some.inj ho'
    rfl

/-- A deleted occasion is one that the sync may delete. -/
theorem mayDelete_of_deleted {call : SyncCall}
    (hmarks : MarksMissed crates call.source.id db entries)
    (hwrites : Writes call.params (call.feed crates) (run (syncStep crates) db entries) db')
    {p : Nat} {o : Occasion} (ho : (run (syncStep crates) db entries).occasions.get p = some o)
    (hgone : db'.occasions.get p = none) : MayDelete crates db entries call p o := by
  by_cases hkeyed : ∃ uid anchor, (run (syncStep crates) db entries).keyOf p =
      some ⟨call.source.id, uid, some anchor⟩
  · obtain ⟨uid, anchor, hkey⟩ := hkeyed
    have hfate := hwrites.occasion hmarks.valid hkey
    rw [hgone, ho, Option.bind_some] at hfate
    have hfate' : fate call.params (call.produced crates uid anchor) o = none := hfate.symm
    cases hwanted : call.produced crates uid anchor with
    | some occ =>
      rw [hwanted] at hfate'
      cases hfate'
    | none =>
      rw [hwanted, fate, missingFate] at hfate'
      split at hfate'
      · rename_i hcovers
        split at hfate'
        · cases hfate'
        · split at hfate'
          · rename_i hexpired
            rw [expired, Option.any_eq_true] at hexpired
            obtain ⟨since, hmark, hlong⟩ := hexpired
            have hlong : days missingGracePeriodDays ≤ call.now - since := of_decide_eq_true hlong
            exact ⟨uid, anchor, since, hkey, hcovers, hwanted, by omega,
              hmarks.marks p o uid anchor since ho hkey hmark⟩
          · cases hfate'
      · cases hfate'
  · have hkey : ∀ uid anchor, (run (syncStep crates) db entries).keyOf p ≠
        some ⟨call.source.id, uid, some anchor⟩ :=
      fun uid anchor heq => hkeyed ⟨uid, anchor, heq⟩
    rw [hwrites.occasion_other hmarks.valid ho hkey] at hgone
    cases hgone

/-- Over every run of successful syncs of one source, starting where none of its occasions is
marked, a sync deletes only what was missed for the grace period. -/
theorem deleted_only_after_grace_period {last : HashOrder × SyncCall}
    (hreachable : Reachable crates db)
    (hunmarked : ∀ p o uid anchor, db.occasions.get p = some o →
      db.keyOf p = some ⟨last.2.source.id, uid, some anchor⟩ → o.syncMissingSince = none)
    (hsource : ∀ entry ∈ entries, entry.2.source.id = last.2.source.id)
    (hok : Along (syncStep crates) (Succeeds crates) db (entries ++ [last])) :
    DeletesLate crates db entries last := by
  obtain ⟨hbefore, hlast⟩ := along_append.mp hok
  have hmarks := marksMissed_run hreachable.valid hunmarked hsource hbefore
  have hrun : run (syncStep crates) db (entries ++ [last]) =
      syncStep crates (run (syncStep crates) db entries) last := run_append _ _ _
  have hwrites := writes_of_succeeds hmarks.valid hlast.1
  rw [← hrun] at hwrites
  refine ⟨fun p o ho hgone => mayDelete_of_deleted hmarks hwrites ho hgone, ?_, ?_⟩
  · intro p o ho hanchor
    refine hwrites.occasion_other hmarks.valid ho ?_
    intro uid anchor hkey
    obtain ⟨post, hpost, hsync⟩ := Option.bind_eq_some_iff.mp hkey
    have hown := (Post.syncKey_eq_some_iff.mp hsync).2.2
    rw [Database.anchorOf, hpost, Option.bind_some, hown] at hanchor
    cases hanchor
  · intro p post hpost _ hgone
    have hnone : ∀ q o', (run (syncStep crates) db (entries ++ [last])).occasions.get q = some o' →
        o'.eventId ≠ p := by
      rintro q o' ho' rfl
      have hevent := hwrites.valid.eventPost _ (hwrites.valid.occasionEvent q o' ho')
      rw [hgone] at hevent
      cases hevent
    intro q o heq
    refine ⟨fun ho => hnone q o ho heq, fun ho => mayDelete_of_deleted hmarks hwrites ho ?_⟩
    rw [Option.eq_none_iff_forall_ne_some]
    intro o' ho'
    exact hnone q o' ho' ((hwrites.eventId_of_kept hmarks.valid ho ho').trans heq)

end

/-- A meeting, and a source that subscribes to its calendar. -/
def singleMeeting : Vevent := sampleVevent [
  ("UID", "single"),
  ("DTSTART", "20260106T100000Z"),
  ("DTEND", "20260106T150000Z")]

def sampleSource : SyncSource where
  id := 1
  userId := 7
  configuration := .icsSubscriptionUrl "https://example.org/calendar.ics"

/-- A sync of the source at some day of January 2026. -/
def sampleSync (calendar : List Vevent) (day : Int) : HashOrder × SyncCall :=
  (.asListed, { source := sampleSource, calendar := calendar, now := 1767225600000000 + days day })

/-- The database with the source alone. -/
def sampleDatabase : Database := step sampleCrates .fresh (.putSyncSource sampleSource)

/-- The rule at a meeting that vanished from its calendar on the second day. -/
theorem deleted_only_after_grace_period_meeting :
    DeletesLate sampleCrates sampleDatabase [sampleSync [singleMeeting] 0, sampleSync [] 1]
      (sampleSync [] 4) := by
  refine deleted_only_after_grace_period ⟨[.putSyncSource sampleSource], rfl⟩ ?_ ?_ ?_
  · intro p o uid anchor ho
    cases ho
  · decide
  · exact ⟨by decide, by decide, by decide, trivial⟩

end Rellm.Sync
