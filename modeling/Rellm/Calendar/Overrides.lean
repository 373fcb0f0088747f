import Rellm.Calendar.Described

/-!
# The times of an override

An override replaces one occurrence of its series. Outside the expanded starts
its occurrence has the override's own times. At an expanded start it has the
times of the start, so that there an override keeps its times only where they
are those of the start.
-/

namespace Rellm.Calendar

open Foundation

/-- With distinct keys, what is found under a key is all there is. -/
theorem filter_key_eq_find? {α : Type} {l : List α} {κ : Type} [DecidableEq κ] {f : α → κ}
    (hnodup : (l.map f).Nodup) (k : κ) :
    (l.filter fun x => f x = k) = (l.find? fun x => f x = k).toList := by
  induction l with
  | nil => rfl
  | cons x l ih =>
    rw [List.map_cons, List.nodup_cons] at hnodup
    by_cases hx : f x = k
    · have hnone : (l.filter fun y => f y = k) = [] := by
        rw [List.filter_eq_nil_iff]
        intro y hy hkey
        rw [← hx] at hkey
        exact hnodup.1 (List.mem_map.mpr ⟨y, hy, of_decide_eq_true hkey⟩)
      rw [List.filter_cons, if_pos (decide_eq_true hx), List.find?_cons, decide_eq_true hx, hnone]
      rfl
    · have hkey : ¬ decide (f x = k) = true := by simpa using hx
      rw [List.filter_cons, if_neg hkey, List.find?_cons, decide_eq_false hx, ih hnodup.2]

/-- The occurrences that groups list under a UID and an anchor. -/
def occurrencesAt (groups : List EventGroup) (uid : String) (anchor : Instant) :
    List Occurrence :=
  ((groups.filter fun group => group.uid = uid).flatMap (·.occurrences)).filter fun occ =>
    occ.recurrenceAnchor = anchor

section

variable {crates : CalendarCrates} {order : HashOrder} {calendar : List Vevent} {uid : String}
  {windowStart windowEnd masterStart recurrenceId : Instant} {master overrideEvent : Vevent}

/-- Groups list under a UID and an anchor what is produced there, once. -/
theorem occurrencesAt_groupVevents (order : HashOrder) (uid : String) (anchor : Instant) :
    occurrencesAt (groupVevents crates order calendar windowStart windowEnd) uid anchor =
      (produced crates calendar windowStart windowEnd uid anchor).toList := by
  rw [occurrencesAt, filter_key_eq_find? (group_uids_nodup order)]
  cases hfind : (groupVevents crates order calendar windowStart windowEnd).find?
      fun group => group.uid = uid with
  | none =>
    have hnone : produced crates calendar windowStart windowEnd uid anchor = none := by
      rw [Option.eq_none_iff_forall_ne_some]
      intro occ hocc
      obtain ⟨group, hgroup, huid⟩ := (exists_group_iff order uid).mpr ⟨anchor, occ, hocc⟩
      exact List.find?_eq_none.mp hfind group hgroup (decide_eq_true huid)
    rw [hnone]
    rfl
  | some group =>
    have hgroup := List.mem_of_find?_eq_some hfind
    have huid : group.uid = uid := by simpa using List.find?_some hfind
    subst huid
    have hsame : (group.occurrences.find? fun occ => occ.recurrenceAnchor = anchor) =
        produced crates calendar windowStart windowEnd group.uid anchor := by
      ext occ
      constructor
      · intro hocc
        have hanchor : occ.recurrenceAnchor = anchor := by simpa using List.find?_some hocc
        rw [← hanchor]
        exact (mem_occurrences_iff_produced hgroup).mp (List.mem_of_find?_eq_some hocc)
      · intro hocc
        have hanchor := produced_anchor hocc
        rw [← hanchor] at hocc
        have hmem := (mem_occurrences_iff_produced hgroup).mpr hocc
        cases hother : group.occurrences.find? fun occ => occ.recurrenceAnchor = anchor with
        | none =>
          exact absurd (decide_eq_true hanchor) (List.find?_eq_none.mp hother occ hmem)
        | some other =>
          have hanchor' : other.recurrenceAnchor = anchor := by
            simpa using List.find?_some hother
          rw [List.inj_on_of_nodup_map (group_anchors_nodup hgroup)
            (List.mem_of_find?_eq_some hother) hmem (hanchor'.trans hanchor.symm)]
    rw [Option.toList_some, List.flatMap_singleton,
      filter_key_eq_find? (group_anchors_nodup hgroup), hsame]

/-- The groups list exactly one occurrence at the recurrence id of an override, with the
times the override gives it. -/
def AppliesOverride (crates : CalendarCrates) (order : HashOrder) (calendar : List Vevent)
    (windowStart windowEnd : Instant) (uid : String) (duration : Int) (recurrenceId : Instant)
    (overrideEvent : Vevent) : Prop :=
  ∃ occ, occurrencesAt (groupVevents crates order calendar windowStart windowEnd) uid
      recurrenceId = [occ] ∧
    occ.isOverride = true ∧ occ.startsAt = ownStart crates recurrenceId overrideEvent ∧
    occ.endsAt = ownEnd crates duration recurrenceId overrideEvent

/-- An override within the window is applied exactly if its start is not expanded or its
times are those of the expanded start. -/
theorem appliesOverride_iff (order : HashOrder) (hmaster : masterOf calendar uid = some master)
    (hstart : getDateProperty crates master "DTSTART" = some masterStart)
    (hoverride : lastOverride crates calendar uid recurrenceId = some overrideEvent)
    (hwithin : windowStart ≤ ownEnd crates (masterDuration crates master masterStart) recurrenceId
      overrideEvent) :
    AppliesOverride crates order calendar windowStart windowEnd uid
        (masterDuration crates master masterStart) recurrenceId overrideEvent ↔
      IsExpanded crates master masterStart windowStart windowEnd recurrenceId →
        ownStart crates recurrenceId overrideEvent = recurrenceId ∧
        ownEnd crates (masterDuration crates master masterStart) recurrenceId overrideEvent =
          recurrenceId + masterDuration crates master masterStart := by
  rw [AppliesOverride, occurrencesAt_groupVevents]
  by_cases hexpanded : IsExpanded crates master masterStart windowStart windowEnd recurrenceId
  · rw [produced_expanded hmaster hstart hexpanded, hoverride]
    constructor
    · rintro ⟨occ, hocc, _, hstarts, hends⟩ _
      split at hocc
      · cases hocc
      · obtain rfl := List.head_eq_of_cons_eq hocc
        exact ⟨hstarts.symm, hends.symm⟩
    · intro h
      obtain ⟨hstarts, hends⟩ := h hexpanded
      have hnot : ¬ recurrenceId + masterDuration crates master masterStart < windowStart := by
        rw [← hends]
        exact Int.not_lt.mpr hwithin
      rw [if_neg hnot]
      exact ⟨_, rfl, rfl, hstarts.symm, hends.symm⟩
  · rw [produced_moved hmaster hstart hexpanded, hoverride, Option.bind_some,
      if_neg (Int.not_lt.mpr hwithin)]
    exact iff_of_true ⟨_, rfl, rfl, rfl, rfl⟩ fun h => absurd h hexpanded

end

/-- A rule that repeats a number of times at an interval of days. -/
def sampleRecurrence (start : Instant) (interval count : Nat) : Recurrence :=
  .ofStarts ((List.range count).map fun k => start + days ((interval + 1) * k : Nat)) (by
    rw [List.pairwise_map]
    refine List.pairwise_lt_range.imp fun {k l} hlt => ?_
    have hmul : (interval + 1) * k < (interval + 1) * l :=
      Nat.mul_lt_mul_of_pos_left hlt (Nat.succ_pos interval)
    exact Int.add_lt_add_left
      (Int.mul_lt_mul_of_pos_right (Int.ofNat_lt.mpr hmul) (by decide)) start)

/-- Two rules as the recurrence crate expands them. -/
def sampleRule (rrule : String) (start : Instant) : Option Recurrence :=
  if rrule = "FREQ=DAILY;COUNT=3" then some (sampleRecurrence start 0 3)
  else if rrule = "FREQ=DAILY;INTERVAL=365;COUNT=2" then some (sampleRecurrence start 364 2)
  else none

/-- The crates on a few dates and rules. -/
def sampleCrates : CalendarCrates where
  fromProperty property := (sampleDates.lookup property.value).map fun instant =>
    .dateTime (.utc instant)
  parseDateTime raw := (sampleDates.lookup raw).map .utc
  tryIntoUtc _ _ := none
  parseRule := sampleRule
where
  sampleDates : List (String × Instant) := [
    ("20260105T100000Z", 1767607200000000),
    ("20260105T110000Z", 1767610800000000),
    ("20260106T100000Z", 1767693600000000),
    ("20260106T150000Z", 1767711600000000),
    ("20260106T160000Z", 1767715200000000),
    ("20260115T100000Z", 1768471200000000)]

/-- A VEVENT with some properties. -/
def sampleVevent (properties : List (String × String)) : Vevent where
  properties := properties.map fun property => (property.1, { value := property.2 })

end Rellm.Calendar
