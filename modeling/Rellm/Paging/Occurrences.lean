import Rellm.Calendar.Overrides
import Rellm.Paging.CollectPages

/-!
# From merged pages to occurrences

The merge keeps a VEVENT for each key, while a group has one master for each UID and
the overrides of that master. A VEVENT therefore reaches the groups with its start
exactly if its UID has a master that can be placed in time and the start is one the
master expands to or one an override outside the expansion gives.
-/

namespace Rellm.Paging

open Calendar

section

variable (crates : CalendarCrates) (calendar : List Vevent) (windowStart windowEnd : Instant)

/-- A VEVENT with a start ends within a window. -/
def EndsWithin (event : Vevent) (start : Instant) : Prop :=
  windowStart ≤ (getDateProperty crates event "DTEND").getD start ∧
    (getDateProperty crates event "DTEND").getD start ≤ windowEnd

instance (event : Vevent) (start : Instant) :
    Decidable (EndsWithin crates windowStart windowEnd event start) :=
  inferInstanceAs (Decidable (_ ∧ _))

/-- Some group of a UID lists an occurrence with a start. -/
def Lists (groups : List EventGroup) (uid : String) (start : Instant) : Prop :=
  ∃ group ∈ groups, group.uid = uid ∧ ∃ occ ∈ group.occurrences, occ.startsAt = start

instance (groups : List EventGroup) (uid : String) (start : Instant) :
    Decidable (Lists groups uid start) :=
  inferInstanceAs (Decidable (∃ group ∈ groups, _ ∧ ∃ occ ∈ group.occurrences, _))

/-- Every VEVENT with a UID and a readable start that ends within the window yields an
occurrence of its UID with that start. -/
def LosesNoOccurrence (order : HashOrder) : Prop :=
  ∀ event ∈ calendar, ∀ uid start, event.propertyValue "UID" = some uid →
    getDateProperty crates event "DTSTART" = some start →
    EndsWithin crates windowStart windowEnd event start →
    Lists (groupVevents crates order calendar windowStart windowEnd) uid start

/-- A start of a UID that is grouped: its first VEVENT without a `RECURRENCE-ID` can be placed
in time, and the start is an expanded one of that master, or the one the last override of a
recurrence id outside the expansion gives, and does not end before the window. -/
def GroupsStart (uid : String) (start : Instant) : Prop :=
  ∃ master masterStart, masterOf calendar uid = some master ∧
    getDateProperty crates master "DTSTART" = some masterStart ∧
    (IsExpanded crates master masterStart windowStart windowEnd start ∧
        windowStart ≤ start + masterDuration crates master masterStart ∨
      ∃ recurrenceId overrideEvent,
        lastOverride crates calendar uid recurrenceId = some overrideEvent ∧
        ¬ IsExpanded crates master masterStart windowStart windowEnd recurrenceId ∧
        ownStart crates recurrenceId overrideEvent = start ∧
        windowStart ≤ ownEnd crates (masterDuration crates master masterStart) recurrenceId
          overrideEvent)

/-- Every VEVENT with a UID and a readable start that ends within the window has a start that
is grouped. -/
def GroupsEveryStart : Prop :=
  ∀ event ∈ calendar, ∀ uid start, event.propertyValue "UID" = some uid →
    getDateProperty crates event "DTSTART" = some start →
    EndsWithin crates windowStart windowEnd event start →
    GroupsStart crates calendar windowStart windowEnd uid start

variable {crates calendar windowStart windowEnd}

/-- The groups list a start exactly if an occurrence with it is produced. -/
theorem lists_iff_produced (order : HashOrder) (uid : String) (start : Instant) :
    Lists (groupVevents crates order calendar windowStart windowEnd) uid start ↔
      ∃ anchor occ, produced crates calendar windowStart windowEnd uid anchor = some occ ∧
        occ.startsAt = start := by
  constructor
  · rintro ⟨group, hgroup, rfl, occ, hocc, hstart⟩
    exact ⟨occ.recurrenceAnchor, occ, (mem_occurrences_iff_produced hgroup).mp hocc, hstart⟩
  · rintro ⟨anchor, occ, hocc, hstart⟩
    obtain ⟨group, hgroup, rfl⟩ := (exists_group_iff order uid).mpr ⟨anchor, occ, hocc⟩
    refine ⟨group, hgroup, rfl, occ, ?_, hstart⟩
    apply (mem_occurrences_iff_produced hgroup).mpr
    rw [produced_anchor hocc]
    exact hocc

/-- An occurrence with a start is produced exactly if the start is grouped. -/
theorem produced_start_iff (uid : String) (start : Instant) :
    (∃ anchor occ, produced crates calendar windowStart windowEnd uid anchor = some occ ∧
        occ.startsAt = start) ↔
      GroupsStart crates calendar windowStart windowEnd uid start := by
  constructor
  · rintro ⟨anchor, occ, hocc, rfl⟩
    have hsome : (produced crates calendar windowStart windowEnd uid anchor).isSome := by
      rw [hocc]
      rfl
    obtain ⟨master, masterStart, hmaster, hplaced, hexpandedEnd, hmovedEnd⟩ :=
      produced_isSome_iff.mp hsome
    refine ⟨master, masterStart, hmaster, hplaced, ?_⟩
    by_cases hexpanded : IsExpanded crates master masterStart windowStart windowEnd anchor
    · have hends := hexpandedEnd hexpanded
      rw [produced_expanded hmaster hplaced hexpanded, if_neg (Int.not_lt.mpr hends)] at hocc
      obtain rfl := Option.some.inj hocc
      exact .inl ⟨hexpanded, hends⟩
    · obtain ⟨overrideEvent, hoverride, hends⟩ := hmovedEnd hexpanded
      rw [produced_moved hmaster hplaced hexpanded, hoverride, Option.bind_some,
        if_neg (Int.not_lt.mpr hends)] at hocc
      obtain rfl := Option.some.inj hocc
      exact .inr ⟨anchor, overrideEvent, hoverride, hexpanded, rfl, hends⟩
  · rintro ⟨master, masterStart, hmaster, hplaced, hcase⟩
    rcases hcase with ⟨hexpanded, hends⟩ |
      ⟨recurrenceId, overrideEvent, hoverride, hexpanded, hstart, hends⟩
    · have hocc := produced_expanded hmaster hplaced hexpanded
      rw [if_neg (Int.not_lt.mpr hends)] at hocc
      exact ⟨start, _, hocc, rfl⟩
    · have hocc := produced_moved hmaster hplaced hexpanded
      rw [hoverride, Option.bind_some, if_neg (Int.not_lt.mpr hends)] at hocc
      exact ⟨recurrenceId, _, hocc, hstart⟩

/-- No occurrence of a calendar is lost exactly if each of its starts is grouped. -/
theorem losesNoOccurrence_iff_groups (order : HashOrder) :
    LosesNoOccurrence crates calendar windowStart windowEnd order ↔
      GroupsEveryStart crates calendar windowStart windowEnd := by
  simp only [LosesNoOccurrence, GroupsEveryStart, lists_iff_produced, produced_start_iff]

end

/-- The pages of a feed lose no occurrence on their way to the groups exactly if each start
of the merged calendar is grouped. -/
theorem pages_lose_no_occurrence_iff (crates : CalendarCrates) (reader : PageReader)
    (maxPages : Nat) (now : Instant) (order : HashOrder) (windowStart windowEnd : Instant) :
    (∀ paged, collectPages reader crates maxPages now = .ok paged →
        LosesNoOccurrence crates paged.calendar windowStart windowEnd order) ↔
      ∀ paged, collectPages reader crates maxPages now = .ok paged →
        GroupsEveryStart crates paged.calendar windowStart windowEnd := by
  simp only [losesNoOccurrence_iff_groups]

/-- A feed of one page that lists a series as two plain VEVENTs sharing a UID. -/
def repeatedSeries : PageReader where
  fetchPage pageNumber := .ok (if pageNumber = 1 then "BEGIN:VCALENDAR" else "")
  parse _ := some [
    sampleVevent [("UID", "series"), ("DTSTART", "20260105T100000Z")],
    sampleVevent [("UID", "series"), ("DTSTART", "20260106T100000Z")]]

/-- The second VEVENT of the series is merged, and its start is not grouped. -/
theorem repeatedSeries_loses_occurrence :
    ¬ ∀ (crates : CalendarCrates) (reader : PageReader) (maxPages : Nat) (now : Instant)
      (order : HashOrder) (windowStart windowEnd : Instant) (paged : PagedCalendar),
      collectPages reader crates maxPages now = .ok paged →
        LosesNoOccurrence crates paged.calendar windowStart windowEnd order := by
  intro h
  have hok : collectPages repeatedSeries sampleCrates 80 0 = .ok {
      calendar := [
        sampleVevent [("UID", "series"), ("DTSTART", "20260105T100000Z")],
        sampleVevent [("UID", "series"), ("DTSTART", "20260106T100000Z")]]
      coverageHorizon := none } := by
    rfl
  have hlists := h sampleCrates repeatedSeries 80 0 .asListed 1767607200000000 1768471200000000 _
    hok (sampleVevent [("UID", "series"), ("DTSTART", "20260106T100000Z")]) (by decide) "series"
    1767693600000000 (by decide) (by decide) (by decide)
  exact absurd hlists (by decide)

end Rellm.Paging
