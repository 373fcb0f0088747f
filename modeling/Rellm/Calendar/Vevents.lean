import Rellm.Foundation.Table
import Rellm.Protos.Common

/-!
# Grouping the VEVENTs of a calendar

One `UID` of a parsed calendar is one event, and each of its occurrences is one
occasion, known by its recurrence anchor. The calendar and recurrence crates are
parameters; instants are microseconds, the resolution the database stores.
-/

namespace Rellm.Calendar

open Foundation

/-- A UTC instant in microseconds since the epoch. -/
abbrev Instant := Int

/-- A number of days, as a duration. -/
def days (n : Int) : Int := n * 86400000000

/-- A `DATE-TIME`; without a time zone the naive time is kept as if it were UTC. -/
inductive CalendarDateTime where
  | utc (instant : Instant)
  | floating (naive : Instant)
  | withTimezone (naive : Instant) (tzid : String)
  deriving DecidableEq, Repr

/-- A `DATE`, counted in days since the epoch, or a `DATE-TIME`. -/
inductive DatePerhapsTime where
  | date (day : Int)
  | dateTime (value : CalendarDateTime)
  deriving DecidableEq, Repr

/-- A property of a VEVENT. -/
structure Property where
  value : String
  params : List (String × String) := []
  deriving DecidableEq, Repr

/-- A VEVENT: its properties by name. -/
structure Vevent where
  properties : List (String × Property)
  deriving DecidableEq, Repr

namespace Vevent

def property (event : Vevent) (key : String) : Option Property := event.properties.lookup key

def propertyValue (event : Vevent) (key : String) : Option String :=
  (event.property key).map (·.value)

end Vevent

/-- A validated recurrence rule: the starts it has, and those within given bounds,
each once and in order. -/
structure Recurrence where
  isStart : Instant → Prop
  between : Instant → Instant → List Instant
  sorted : ∀ after before, (between after before).Pairwise (· < ·)
  mem_between : ∀ after before start,
    start ∈ between after before ↔ isStart start ∧ after ≤ start ∧ start ≤ before

/-- A rule with finitely many starts. -/
def Recurrence.ofStarts (starts : List Instant) (h : starts.Pairwise (· < ·)) : Recurrence where
  isStart start := start ∈ starts
  between after before := starts.filter fun start => decide (after ≤ start ∧ start ≤ before)
  sorted _ _ := h.filter _
  mem_between _ _ _ := by rw [List.mem_filter, decide_eq_true_eq]

/-- What the calendar, time zone and recurrence crates compute. -/
structure CalendarCrates where
  fromProperty : Property → Option DatePerhapsTime
  parseDateTime : String → Option CalendarDateTime
  tryIntoUtc : Instant → String → Option Instant
  parseRule : String → Instant → Option Recurrence

/-- The orders in which hash maps happen to be iterated. -/
structure HashOrder where
  groups : List (String × List Vevent) → List (String × List Vevent)
  overrides : List (Instant × Vevent) → List (Instant × Vevent)
  staleEvents : List Nat → List Nat
  groups_perm : ∀ entries, (groups entries).Perm entries
  overrides_perm : ∀ entries, (overrides entries).Perm entries
  staleEvents_perm : ∀ ids, (staleEvents ids).Perm ids

/-- The orders in which the entries are listed. -/
def HashOrder.asListed : HashOrder where
  groups := id
  overrides := id
  staleEvents := id
  groups_perm _ := .refl _
  overrides_perm _ := .refl _
  staleEvents_perm _ := .refl _

/-- One occurrence of a series, with its identity within the series. -/
structure Occurrence where
  recurrenceAnchor : Instant
  startsAt : Instant
  endsAt : Instant
  location : Option String
  title : Option String
  content : Option String
  timezone : Option String
  isOverride : Bool
  deriving DecidableEq, Repr

/-- One event of the feed and its occurrences. -/
structure EventGroup where
  uid : String
  title : Option String
  content : Option String
  link : Option String
  occurrences : List Occurrence
  deriving DecidableEq, Repr

def maxRruleOccurrences : Nat := 2000

section

variable (crates : CalendarCrates)

/-- The instant a date stands for; an unresolvable time zone counts as UTC. -/
def datePerhapsTimeToUtc : DatePerhapsTime → Option Instant
  | .date day => some (days day)
  | .dateTime (.utc instant) => some instant
  | .dateTime (.floating naive) => some naive
  | .dateTime (.withTimezone naive tzid) => (crates.tryIntoUtc naive tzid).or (some naive)

def getDateProperty (event : Vevent) (key : String) : Option Instant := do
  let property ← event.property key
  let date ← crates.fromProperty property
  datePerhapsTimeToUtc crates date

/-- The time zone a date property was expressed in, if it carries one. -/
def getTzidProperty (event : Vevent) (key : String) : Option String := do
  let property ← event.property key
  match ← crates.fromProperty property with
  | .dateTime (.withTimezone _ tzid) => some tzid
  | _ => none

/-- The excluded starts of a master, listed in one property. -/
def parseExdates (event : Vevent) : List Instant :=
  match event.propertyValue "EXDATE" with
  | none => []
  | some raw =>
    ((raw.splitOn ",").filterMap fun token => crates.parseDateTime (trim token)).filterMap
      fun date => datePerhapsTimeToUtc crates (.dateTime date)

/-- The starts of a series within the window, at most the first 2000 of them. -/
def expandOccurrenceStarts (master : Vevent) (masterStart windowStart windowEnd : Instant) :
    List Instant :=
  match master.propertyValue "RRULE" with
  | none => [masterStart]
  | some rrule =>
    match crates.parseRule rrule masterStart with
    | none => [masterStart]
    | some rule =>
      ((rule.between windowStart windowEnd).filter fun start =>
        !(parseExdates crates master).contains start).take maxRruleOccurrences

/-- An occurrence starting at its anchor; text comes from an override only. -/
def buildOccurrence (recurrenceAnchor endsAt : Instant) (master : Vevent)
    (overrideEvent : Option Vevent) : Occurrence :=
  let sourceEvent := overrideEvent.getD master
  { recurrenceAnchor := recurrenceAnchor
    startsAt := recurrenceAnchor
    endsAt := endsAt
    location := sourceEvent.propertyValue "LOCATION"
    title := overrideEvent.bind (·.propertyValue "SUMMARY")
    content := overrideEvent.bind (·.propertyValue "DESCRIPTION")
    timezone := (getTzidProperty crates sourceEvent "DTSTART").or
      (getTzidProperty crates master "DTSTART")
    isOverride := overrideEvent.isSome }

def Occurrence.withStart (occurrence : Occurrence) (startsAt : Instant) : Occurrence :=
  { occurrence with startsAt := startsAt }

/-- The override VEVENTs by the occurrence they replace; the last one counts. -/
def overridesOf (vevents : List Vevent) : HashMap Instant Vevent :=
  .collect ((vevents.filter fun e => (e.propertyValue "RECURRENCE-ID").isSome).filterMap fun e =>
    (getDateProperty crates e "RECURRENCE-ID").map fun recurrenceId => (recurrenceId, e))

/-- The VEVENTs by `UID`; those without one are left out. -/
def byUid (calendar : List Vevent) : List (String × List Vevent) :=
  (unique (calendar.filterMap (·.propertyValue "UID"))).map fun uid =>
    (uid, calendar.filter fun e => e.propertyValue "UID" = some uid)

/-- One event: the expanded starts of its master, then the overrides outside them.
Nothing without a master that has a start, or without occurrences in the window. -/
def eventGroup (order : HashOrder) (uid : String) (vevents : List Vevent)
    (windowStart windowEnd : Instant) : Option EventGroup := do
  let master ← vevents.find? fun e => (e.propertyValue "RECURRENCE-ID").isNone
  let masterStart ← getDateProperty crates master "DTSTART"
  let masterEnd := (getDateProperty crates master "DTEND").getD masterStart
  let duration := masterEnd - masterStart
  let overrides := overridesOf crates vevents
  let occurrenceStarts := expandOccurrenceStarts crates master masterStart windowStart windowEnd
  let expanded := occurrenceStarts.filterMap fun occStart =>
    let occEnd := occStart + duration
    if occEnd < windowStart then none
    else some (buildOccurrence crates occStart occEnd master (overrides.value occStart))
  let moved := (order.overrides overrides.rows).filterMap fun entry =>
    let recurrenceId := entry.1
    let overrideEvent := entry.2
    if recurrenceId ∈ occurrenceStarts then none
    else
      let startsAt := (getDateProperty crates overrideEvent "DTSTART").getD recurrenceId
      let endsAt := (getDateProperty crates overrideEvent "DTEND").getD (startsAt + duration)
      if endsAt < windowStart then none
      else some ((buildOccurrence crates recurrenceId endsAt master
        (some overrideEvent)).withStart startsAt)
  let occurrences := expanded ++ moved
  if occurrences.isEmpty then none
  else some {
    uid := uid
    title := master.propertyValue "SUMMARY"
    content := master.propertyValue "DESCRIPTION"
    link := master.propertyValue "URL"
    occurrences := occurrences }

/-- The events of a calendar, each with its occurrences in the window. -/
def groupVevents (order : HashOrder) (calendar : List Vevent) (windowStart windowEnd : Instant) :
    List EventGroup :=
  (order.groups (byUid calendar)).filterMap fun entry =>
    eventGroup crates order entry.1 entry.2 windowStart windowEnd

end

end Rellm.Calendar
