import Rellm.Calendar.Overrides
import Rellm.Sync.Grace

/-!
# What a calendar still describes

A sync leaves an occasion that its calendar still describes alone exactly if it
does not cover the occasion, if the occasion was marked less than the grace
period before, or if the occurrence is in the window the calendar is expanded
for. The first is decided by when the occasion ends, the last by when it starts,
so that an occurrence across the edge of the window can be marked and deleted.
-/

namespace Rellm.Sync

open Foundation Calendar

/-- An occasion is neither deleted nor newly marked. -/
def Untouched (db' : Database) (p : Nat) (o : Occasion) : Prop :=
  ∃ o', db'.occasions.get p = some o' ∧
    (o'.syncMissingSince.isSome → o'.syncMissingSince = o.syncMissingSince)

/-- An occasion was marked less than the grace period before a sync. -/
def RecentlyMarked (call : SyncCall) (o : Occasion) : Prop :=
  ∃ since, o.syncMissingSince = some since ∧ call.now < since + days missingGracePeriodDays

section

variable {crates : CalendarCrates} {order : HashOrder} {call : SyncCall} {db db' : Database}

/-- A missing occasion is left alone if it is not covered or was marked recently. -/
theorem missingFate_untouched_iff {o : Occasion} :
    (∃ o', missingFate call.params o = some o' ∧
      (o'.syncMissingSince.isSome → o'.syncMissingSince = o.syncMissingSince)) ↔
      (covers call.params o = true → RecentlyMarked call o) := by
  rw [missingFate, RecentlyMarked]
  by_cases hcovers : covers call.params o = true
  · rw [if_pos hcovers]
    cases hmark : o.syncMissingSince with
    | none =>
      refine iff_of_false ?_ ?_
      · rintro ⟨o', ho', hsame⟩
        obtain rfl := Option.some.inj ho'
        have hnone := hsame rfl
        cases hnone
      · intro h
        obtain ⟨since, hsince, _⟩ := h hcovers
        cases hsince
    | some since =>
      have hexpired : expired call.params o = true ↔
          since + days missingGracePeriodDays ≤ call.now := by
        have hnow : call.params.now = call.now := rfl
        rw [expired, hmark, Option.any_some, decide_eq_true_eq, hnow]
        exact ⟨Int.add_le_of_le_sub_left, Int.le_sub_left_of_add_le⟩
      simp only [Option.isNone_some, Bool.false_eq_true, if_false, hexpired]
      constructor
      · rintro ⟨o', ho', _⟩ _
        split at ho'
        · cases ho'
        · rename_i hnot
          exact ⟨since, rfl, Int.not_le.mp hnot⟩
      · intro h
        obtain ⟨since', hsince, hlt⟩ := h hcovers
        obtain rfl := Option.some.inj hsince
        rw [if_neg (Int.not_le.mpr hlt)]
        exact ⟨o, rfl, fun _ => hmark⟩
  · rw [if_neg hcovers]
    exact iff_of_true ⟨o, rfl, fun _ => rfl⟩ fun h => absurd h hcovers

/-- A successful sync leaves an occasion that its calendar still describes alone exactly if
it covers it only where the occasion was marked recently or is in the window. -/
theorem described_untouched_iff (hreachable : Reachable crates db)
    (hok : syncSourceCalendar crates order call db = .ok db') {p : Nat} {o : Occasion}
    {uid : String} {anchor : Instant} (ho : db.occasions.get p = some o)
    (hkey : db.keyOf p = some ⟨call.source.id, uid, some anchor⟩)
    (hdescribes : Describes crates call.calendar uid anchor) :
    Untouched db' p o ↔
      (covers call.params o = true → RecentlyMarked call o ∨ ∃ master masterStart,
        InWindow crates call.calendar call.windowStart call.windowEnd uid anchor master
          masterStart) := by
  have hwrites := (writes_of_ok hreachable.valid hok).2.2
  have hfate := hwrites.occasion hreachable.valid hkey
  rw [ho, Option.bind_some] at hfate
  rw [Untouched, hfate, ← produced_isSome_iff_of_describes hdescribes]
  have hfeed : (call.feed crates).occurrence uid anchor =
      produced crates call.calendar call.windowStart call.windowEnd uid anchor := rfl
  rw [hfeed]
  cases produced crates call.calendar call.windowStart call.windowEnd uid anchor with
  | some occ =>
    refine iff_of_true ⟨refreshed occ o, rfl, ?_⟩ fun _ => .inr rfl
    intro hmarked
    cases hmarked
  | none =>
    simp only [Option.isSome_none, Bool.false_eq_true, or_false]
    exact missingFate_untouched_iff

end

/-- A fair of ten days, and again a year later. -/
def fair : Vevent := sampleVevent [
  ("UID", "fair"),
  ("DTSTART", "20260105T100000Z"),
  ("DTEND", "20260115T100000Z"),
  ("RRULE", "FREQ=DAILY;INTERVAL=365;COUNT=2")]

/-- The database after a sync before the fair. -/
def fairDatabase : Database :=
  run (step sampleCrates) .fresh [.putSyncSource sampleSource,
    .syncCalendar .asListed (sampleSync [fair] 0).2]

/-- A sync in the second fair, when the window starts in the first. -/
def fairSync : SyncCall := (sampleSync [fair] 374).2

/-- The database after that sync. -/
def fairDatabaseLater : Database :=
  step sampleCrates fairDatabase (.syncCalendar .asListed fairSync)

/-- The occasion of the first fair. -/
def fairOccasion : Occasion where
  postId := 2
  eventId := 1
  startsAt := 1767607200000000
  endsAt := 1768471200000000

theorem fairDatabase_reachable : Reachable sampleCrates fairDatabase := ⟨_, rfl⟩

theorem fairSync_ok :
    syncSourceCalendar sampleCrates .asListed fairSync fairDatabase = .ok fairDatabaseLater := by
  have hok : Succeeds sampleCrates fairDatabase (.asListed, fairSync) := by decide
  obtain ⟨db', hdb'⟩ := Option.isSome_iff_exists.mp hok
  have hlater : fairDatabaseLater = db' := by
    rw [fairDatabaseLater, step, perform, hdb', Option.getD_some]
  rw [hlater]
  exact ok_of_toOption hdb'

theorem fair_describes : Describes sampleCrates [fair] "fair" 1767607200000000 := by
  refine .inl ⟨fair, 1767607200000000, by decide, by decide, ?_, by decide⟩
  exact List.mem_map.mpr ⟨0, by decide, by decide⟩

/-- The rule at the first fair. -/
theorem described_untouched_iff_fair :
    Untouched fairDatabaseLater 2 fairOccasion ↔
      (covers fairSync.params fairOccasion = true → RecentlyMarked fairSync fairOccasion ∨
        ∃ master masterStart, InWindow sampleCrates [fair] fairSync.windowStart
          fairSync.windowEnd "fair" 1767607200000000 master masterStart) :=
  described_untouched_iff fairDatabase_reachable fairSync_ok (by decide) (by decide)
    fair_describes

/-- The first fair is still described while it lasts, and yet a sync marks it as missing. -/
theorem fair_marked :
    Reachable sampleCrates fairDatabase ∧
    syncSourceCalendar sampleCrates .asListed fairSync fairDatabase = .ok fairDatabaseLater ∧
    fairDatabase.occasions.get 2 = some fairOccasion ∧
    fairDatabase.keyOf 2 = some ⟨fairSync.source.id, "fair", some 1767607200000000⟩ ∧
    Describes sampleCrates [fair] "fair" 1767607200000000 ∧
    fairOccasion.startsAt ≤ fairSync.windowEnd ∧
    ¬ Untouched fairDatabaseLater 2 fairOccasion := by
  refine ⟨fairDatabase_reachable, fairSync_ok, by decide, by decide, fair_describes, by decide, ?_⟩
  rintro ⟨o', ho', hsame⟩
  have hmarked : (fairDatabaseLater.occasions.get 2).map (·.syncMissingSince) =
      some (some fairSync.now) := by decide
  rw [ho', Option.map_some, Option.some.injEq] at hmarked
  rw [hmarked] at hsame
  cases hsame rfl

end Rellm.Sync
