import Rellm.Calendar.Overrides
import Rellm.Sync.Reachable

/-!
# Moved occurrences

An override that moves an occurrence keeps its times in the groups of its
calendar and in the database exactly if the start it replaces is not expanded,
or the times it has are those of that start anyway.
-/

namespace Rellm.Sync

open Foundation Calendar

/-- Syncing a calendar at the time of a window stores the times of an override. -/
def StoresOverride (crates : CalendarCrates) (order : HashOrder) (calendar : List Vevent)
    (windowStart windowEnd : Instant) (uid : String) (duration : Int) (recurrenceId : Instant)
    (overrideEvent : Vevent) : Prop :=
  ∀ call db db', Reachable crates db → call.calendar = calendar →
    call.windowStart = windowStart → call.windowEnd = windowEnd →
    syncSourceCalendar crates order call db = .ok db' →
    ∃ p o, db'.keyOf p = some ⟨call.source.id, uid, some recurrenceId⟩ ∧
      db'.occasions.get p = some o ∧
      o.startsAt = ownStart crates recurrenceId overrideEvent ∧
      o.endsAt = ownEnd crates duration recurrenceId overrideEvent

section

variable {crates : CalendarCrates} {order : HashOrder} {calendar : List Vevent} {uid : String}
  {windowStart windowEnd masterStart recurrenceId : Instant} {master overrideEvent : Vevent}

/-- What the groups list, a sync stores. -/
theorem storesOverride_of_applies {duration : Int}
    (h : AppliesOverride crates order calendar windowStart windowEnd uid duration recurrenceId
      overrideEvent) :
    StoresOverride crates order calendar windowStart windowEnd uid duration recurrenceId
      overrideEvent := by
  rintro call db db' hreachable rfl rfl rfl hok
  obtain ⟨occ, hoccurrences, _, hstarts, hends⟩ := h
  rw [occurrencesAt_groupVevents] at hoccurrences
  have hproduced : (call.feed crates).occurrence uid recurrenceId = some occ := by
    cases hfound : produced crates call.calendar call.windowStart call.windowEnd uid
        recurrenceId with
    | none =>
      rw [hfound] at hoccurrences
      cases hoccurrences
    | some found =>
      rw [hfound] at hoccurrences
      obtain rfl := List.head_eq_of_cons_eq hoccurrences
      exact hfound
  have hwrites := (writes_of_ok hreachable.valid hok).2.2
  obtain ⟨p, o, hkey, ho, hcurrent⟩ := hwrites.stored hproduced
  refine ⟨p, o, hkey, ho, ?_, ?_⟩
  · rw [← hcurrent, ← hstarts]
    rfl
  · rw [← hcurrent, ← hends]
    rfl

/-- An override within the window keeps its times, in the groups and when they are stored,
exactly if its start is not expanded or its times are those of the expanded start. -/
theorem override_keeps_times_iff (order : HashOrder)
    (hmaster : masterOf calendar uid = some master)
    (hstart : getDateProperty crates master "DTSTART" = some masterStart)
    (hoverride : lastOverride crates calendar uid recurrenceId = some overrideEvent)
    (hwithin : windowStart ≤ ownEnd crates (masterDuration crates master masterStart) recurrenceId
      overrideEvent) :
    (AppliesOverride crates order calendar windowStart windowEnd uid
        (masterDuration crates master masterStart) recurrenceId overrideEvent ∧
      StoresOverride crates order calendar windowStart windowEnd uid
        (masterDuration crates master masterStart) recurrenceId overrideEvent) ↔
      (IsExpanded crates master masterStart windowStart windowEnd recurrenceId →
        ownStart crates recurrenceId overrideEvent = recurrenceId ∧
        ownEnd crates (masterDuration crates master masterStart) recurrenceId overrideEvent =
          recurrenceId + masterDuration crates master masterStart) := by
  rw [← appliesOverride_iff order hmaster hstart hoverride hwithin]
  exact and_iff_left_of_imp storesOverride_of_applies

end

/-- A daily meeting on three days, of which the second was moved to the afternoon. -/
def dailyMeeting : Vevent := sampleVevent [
  ("UID", "daily"),
  ("DTSTART", "20260105T100000Z"),
  ("DTEND", "20260105T110000Z"),
  ("RRULE", "FREQ=DAILY;COUNT=3")]

def movedMeeting : Vevent := sampleVevent [
  ("UID", "daily"),
  ("RECURRENCE-ID", "20260106T100000Z"),
  ("DTSTART", "20260106T150000Z"),
  ("DTEND", "20260106T160000Z")]

/-- The start of the second meeting, before it was moved. -/
def movedFrom : Instant := 1767693600000000

/-- The law of overrides at the moved meeting, in the window of a sync on that day. -/
theorem override_keeps_times_iff_meeting :
    (AppliesOverride sampleCrates .asListed [dailyMeeting, movedMeeting] (movedFrom - days 365)
        (movedFrom + days 365) "daily" 3600000000 movedFrom movedMeeting ∧
      StoresOverride sampleCrates .asListed [dailyMeeting, movedMeeting] (movedFrom - days 365)
        (movedFrom + days 365) "daily" 3600000000 movedFrom movedMeeting) ↔
      (IsExpanded sampleCrates dailyMeeting 1767607200000000 (movedFrom - days 365)
          (movedFrom + days 365) movedFrom →
        ownStart sampleCrates movedFrom movedMeeting = movedFrom ∧
        ownEnd sampleCrates 3600000000 movedFrom movedMeeting = movedFrom + 3600000000) :=
  override_keeps_times_iff .asListed (by decide) (by decide) (by decide) (by decide)

/-- The moved meeting is within the window and still listed at the time it was moved from. -/
theorem movedMeeting_not_moved :
    masterOf [dailyMeeting, movedMeeting] "daily" = some dailyMeeting ∧
    getDateProperty sampleCrates dailyMeeting "DTSTART" = some 1767607200000000 ∧
    lastOverride sampleCrates [dailyMeeting, movedMeeting] "daily" movedFrom =
      some movedMeeting ∧
    movedFrom - days 365 ≤ ownEnd sampleCrates 3600000000 movedFrom movedMeeting ∧
    ¬ AppliesOverride sampleCrates .asListed [dailyMeeting, movedMeeting] (movedFrom - days 365)
      (movedFrom + days 365) "daily"
      (masterDuration sampleCrates dailyMeeting 1767607200000000) movedFrom movedMeeting := by
  refine ⟨by decide, by decide, by decide, by decide, ?_⟩
  have hlisted : (occurrencesAt (groupVevents sampleCrates .asListed [dailyMeeting, movedMeeting]
      (movedFrom - days 365) (movedFrom + days 365)) "daily" movedFrom).map (·.startsAt) =
      [movedFrom] := by decide
  have hmoved : ownStart sampleCrates movedFrom movedMeeting ≠ movedFrom := by decide
  rintro ⟨occ, hocc, _, hstarts, _⟩
  rw [hocc] at hlisted
  exact hmoved (hstarts.symm.trans (List.head_eq_of_cons_eq hlisted))

end Rellm.Sync
