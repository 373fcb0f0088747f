import Rellm.Calendar.Vevents

/-!
# What a calendar produces

The occurrence a calendar produces for a UID and an anchor, read off its VEVENTs
without any iteration. Every grouping lists exactly these occurrences, one for
each anchor, whatever the order in which its hash maps are iterated.
-/

namespace Rellm.Calendar

open Foundation

/-- A series that can be placed in time: its master and what the groups are built from. -/
structure Series where
  master : Vevent
  start : Instant
  duration : Int
  starts : List Instant
  overrides : HashMap Instant Vevent

section

variable (crates : CalendarCrates)

/-- The series some VEVENTs of one UID describe, if they have a master with a start. -/
def seriesOf (vevents : List Vevent) (windowStart windowEnd : Instant) : Option Series := do
  let master ← vevents.find? fun e => (e.propertyValue "RECURRENCE-ID").isNone
  let start ← getDateProperty crates master "DTSTART"
  some {
    master := master
    start := start
    duration := (getDateProperty crates master "DTEND").getD start - start
    starts := expandOccurrenceStarts crates master start windowStart windowEnd
    overrides := overridesOf crates vevents }

/-- The start an override gives its occurrence. -/
def ownStart (recurrenceId : Instant) (overrideEvent : Vevent) : Instant :=
  (getDateProperty crates overrideEvent "DTSTART").getD recurrenceId

/-- The end an override gives its occurrence. -/
def ownEnd (duration : Int) (recurrenceId : Instant) (overrideEvent : Vevent) : Instant :=
  (getDateProperty crates overrideEvent "DTEND").getD
    (ownStart crates recurrenceId overrideEvent + duration)

namespace Series

variable (series : Series) (windowStart : Instant)

/-- The occurrence of an expanded start, unless it ends before the window. -/
def expandedAt (anchor : Instant) : Option Occurrence :=
  if anchor + series.duration < windowStart then none
  else some (buildOccurrence crates anchor (anchor + series.duration) series.master
    (series.overrides.value anchor))

/-- The occurrence of an override outside the expanded starts. -/
def movedAt (anchor : Instant) (overrideEvent : Vevent) : Option Occurrence :=
  let endsAt := ownEnd crates series.duration anchor overrideEvent
  if endsAt < windowStart then none
  else some ((buildOccurrence crates anchor endsAt series.master
    (some overrideEvent)).withStart (ownStart crates anchor overrideEvent))

/-- The occurrence of a series with an anchor. -/
def occurrenceAt (anchor : Instant) : Option Occurrence :=
  if anchor ∈ series.starts then series.expandedAt crates windowStart anchor
  else (series.overrides.value anchor).bind (series.movedAt crates windowStart anchor)

/-- The occurrences of a series, overrides in some order. -/
def occurrences (order : HashOrder) : List Occurrence :=
  series.starts.filterMap (series.expandedAt crates windowStart) ++
    (order.overrides series.overrides.rows).filterMap fun entry =>
      if entry.1 ∈ series.starts then none else series.movedAt crates windowStart entry.1 entry.2

end Series

/-- A group is the series of its VEVENTs, if that has any occurrences. -/
theorem eventGroup_eq (order : HashOrder) (uid : String) (vevents : List Vevent)
    (windowStart windowEnd : Instant) :
    eventGroup crates order uid vevents windowStart windowEnd =
      (seriesOf crates vevents windowStart windowEnd).bind fun series =>
        if (series.occurrences crates windowStart order).isEmpty then none
        else some {
          uid := uid
          title := series.master.propertyValue "SUMMARY"
          content := series.master.propertyValue "DESCRIPTION"
          link := series.master.propertyValue "URL"
          occurrences := series.occurrences crates windowStart order } := by
  simp only [eventGroup, seriesOf]
  cases vevents.find? fun e => (e.propertyValue "RECURRENCE-ID").isNone with
  | none => rfl
  | some master =>
    simp only [Option.bind_eq_bind, Option.bind_some]
    cases getDateProperty crates master "DTSTART" <;> rfl

end

/-- The expanded starts are distinct, as the rule returns them. -/
theorem expandOccurrenceStarts_nodup (crates : CalendarCrates) (master : Vevent)
    (masterStart windowStart windowEnd : Instant) :
    (expandOccurrenceStarts crates master masterStart windowStart windowEnd).Nodup := by
  rw [expandOccurrenceStarts]
  split
  · exact List.nodup_singleton _
  · split
    · exact List.nodup_singleton _
    · rename_i rule _
      have hrule : (rule.between windowStart windowEnd).Nodup :=
        (rule.sorted windowStart windowEnd).imp fun h => Int.ne_of_lt h
      exact (hrule.filter _).sublist (List.take_sublist _ _)

/-- Filtering a list into values that keep their source's key keeps a part of the keys. -/
theorem map_filterMap_sublist {α β γ : Type} {f : α → Option β} {g : β → γ} {k : α → γ}
    (h : ∀ a b, f a = some b → g b = k a) (l : List α) :
    ((l.filterMap f).map g).Sublist (l.map k) := by
  induction l with
  | nil => exact List.Sublist.slnil
  | cons a l ih =>
    cases hf : f a with
    | none =>
      rw [List.filterMap_cons_none hf, List.map_cons]
      exact ih.cons _
    | some b =>
      rw [List.filterMap_cons_some hf, List.map_cons, List.map_cons, h a b hf]
      exact ih.cons_cons _

namespace Series

variable {crates : CalendarCrates} {series : Series} {windowStart : Instant}

/-- An expanded occurrence is known by the start it was expanded from. -/
theorem expandedAt_anchor {anchor : Instant} {o : Occurrence}
    (h : series.expandedAt crates windowStart anchor = some o) : o.recurrenceAnchor = anchor := by
  rw [expandedAt] at h
  split at h
  · cases h
  · obtain rfl := Option.some.inj h
    rfl

/-- A moved occurrence is known by the start it was moved from. -/
theorem movedAt_anchor {anchor : Instant} {e : Vevent} {o : Occurrence}
    (h : series.movedAt crates windowStart anchor e = some o) : o.recurrenceAnchor = anchor := by
  simp only [movedAt] at h
  split at h
  · cases h
  · obtain rfl := Option.some.inj h
    rfl

/-- The occurrence at an anchor is known by that anchor. -/
theorem occurrenceAt_anchor {anchor : Instant} {o : Occurrence}
    (h : series.occurrenceAt crates windowStart anchor = some o) :
    o.recurrenceAnchor = anchor := by
  rw [occurrenceAt] at h
  split at h
  · exact expandedAt_anchor h
  · obtain ⟨e, _, he⟩ := Option.bind_eq_some_iff.mp h
    exact movedAt_anchor he

/-- The occurrences of a series are those it has at their anchors, in any order. -/
theorem mem_occurrences_iff (order : HashOrder) {o : Occurrence} :
    o ∈ series.occurrences crates windowStart order ↔
      series.occurrenceAt crates windowStart o.recurrenceAnchor = some o := by
  rw [occurrences, List.mem_append, List.mem_filterMap, List.mem_filterMap, occurrenceAt]
  constructor
  · rintro (⟨anchor, hmem, ho⟩ | ⟨⟨anchor, e⟩, hmem, ho⟩)
    · rw [expandedAt_anchor ho, if_pos hmem, ho]
    · have hrow := (order.overrides_perm series.overrides.rows).mem_iff.mp hmem
      simp only at ho
      split at ho
      · cases ho
      · rename_i hnot
        rw [movedAt_anchor ho, if_neg hnot, HashMap.value_eq_some_iff.mpr hrow]
        exact ho
  · intro ho
    split at ho
    · exact .inl ⟨_, ‹_›, ho⟩
    · rename_i hnot
      obtain ⟨e, he, hmoved⟩ := Option.bind_eq_some_iff.mp ho
      have hrow := HashMap.value_eq_some_iff.mp he
      refine .inr ⟨(o.recurrenceAnchor, e), ?_, ?_⟩
      · exact (order.overrides_perm series.overrides.rows).mem_iff.mpr hrow
      · rw [if_neg hnot]
        exact hmoved

/-- A series has at most one occurrence with an anchor. -/
theorem occurrences_nodup (hstarts : series.starts.Nodup) (order : HashOrder) :
    ((series.occurrences crates windowStart order).map (·.recurrenceAnchor)).Nodup := by
  have hexpanded : ((series.starts.filterMap (series.expandedAt crates windowStart)).map
      (·.recurrenceAnchor)).Sublist (series.starts.map id) :=
    map_filterMap_sublist (fun _ _ => expandedAt_anchor) series.starts
  rw [List.map_id] at hexpanded
  have hmoved : (((order.overrides series.overrides.rows).filterMap fun entry =>
      if entry.1 ∈ series.starts then none
      else series.movedAt crates windowStart entry.1 entry.2).map (·.recurrenceAnchor)).Sublist
      ((order.overrides series.overrides.rows).map Prod.fst) := by
    apply map_filterMap_sublist
    intro entry o ho
    split at ho
    · cases ho
    · exact movedAt_anchor ho
  have hkeys : ((order.overrides series.overrides.rows).map Prod.fst).Nodup :=
    (((order.overrides_perm series.overrides.rows).map Prod.fst).nodup_iff).mpr
      series.overrides.nodup
  rw [occurrences, List.map_append]
  refine (hstarts.sublist hexpanded).append (hkeys.sublist hmoved) ?_
  intro anchor hleft hright
  obtain ⟨o, ho, rfl⟩ := List.mem_map.mp hright
  obtain ⟨entry, _, hentry⟩ := List.mem_filterMap.mp ho
  split at hentry
  · cases hentry
  · rename_i hnot
    rw [movedAt_anchor hentry] at hleft
    exact hnot (hexpanded.subset hleft)

end Series

section

variable (crates : CalendarCrates) (calendar : List Vevent) (windowStart windowEnd : Instant)

/-- The series of a UID. -/
def seriesAt (uid : String) : Option Series :=
  seriesOf crates (calendar.filter fun e => e.propertyValue "UID" = some uid) windowStart windowEnd

/-- The occurrence a calendar produces for a UID and an anchor. -/
def produced (uid : String) (anchor : Instant) : Option Occurrence :=
  (seriesAt crates calendar windowStart windowEnd uid).bind fun series =>
    series.occurrenceAt crates windowStart anchor

variable {crates calendar windowStart windowEnd}

/-- A series has distinct starts. -/
theorem seriesOf_starts_nodup {vevents : List Vevent} {series : Series}
    (h : seriesOf crates vevents windowStart windowEnd = some series) :
    series.starts.Nodup := by
  obtain ⟨master, _, h⟩ := Option.bind_eq_some_iff.mp h
  obtain ⟨start, _, h⟩ := Option.bind_eq_some_iff.mp h
  obtain rfl := Option.some.inj h
  exact expandOccurrenceStarts_nodup crates master start windowStart windowEnd

/-- A UID with a series is the UID of some VEVENT. -/
theorem mem_uids_of_seriesAt {uid : String} {series : Series}
    (h : seriesAt crates calendar windowStart windowEnd uid = some series) :
    uid ∈ calendar.filterMap (·.propertyValue "UID") := by
  obtain ⟨master, hmaster, _⟩ := Option.bind_eq_some_iff.mp h
  have hmem := List.mem_filter.mp (List.mem_of_find?_eq_some hmaster)
  exact List.mem_filterMap.mpr ⟨master, hmem.1, of_decide_eq_true hmem.2⟩

/-- The groups of a calendar are its series with occurrences. -/
theorem mem_groupVevents_iff (order : HashOrder) {group : EventGroup} :
    group ∈ groupVevents crates order calendar windowStart windowEnd ↔
      ∃ series, seriesAt crates calendar windowStart windowEnd group.uid = some series ∧
        group.title = series.master.propertyValue "SUMMARY" ∧
        group.content = series.master.propertyValue "DESCRIPTION" ∧
        group.link = series.master.propertyValue "URL" ∧
        group.occurrences = series.occurrences crates windowStart order ∧
        group.occurrences ≠ [] := by
  rw [groupVevents, List.mem_filterMap]
  constructor
  · rintro ⟨entry, hentry, hgroup⟩
    rw [(order.groups_perm _).mem_iff, byUid, List.mem_map] at hentry
    obtain ⟨uid, _, rfl⟩ := hentry
    rw [eventGroup_eq] at hgroup
    obtain ⟨series, hseries, hgroup⟩ := Option.bind_eq_some_iff.mp hgroup
    split at hgroup
    · cases hgroup
    · rename_i hne
      obtain rfl := Option.some.inj hgroup
      exact ⟨series, hseries, rfl, rfl, rfl, rfl, fun hnil => hne (List.isEmpty_iff.mpr hnil)⟩
  · rintro ⟨series, hseries, htitle, hcontent, hlink, hoccurrences, hne⟩
    refine ⟨(group.uid, calendar.filter fun e => e.propertyValue "UID" = some group.uid), ?_, ?_⟩
    · rw [(order.groups_perm _).mem_iff, byUid, List.mem_map]
      exact ⟨group.uid, mem_unique.mpr (mem_uids_of_seriesAt hseries), rfl⟩
    · have hempty : (series.occurrences crates windowStart order).isEmpty = false := by
        rw [← hoccurrences, List.isEmpty_eq_false_iff]
        exact hne
      rw [eventGroup_eq, ← seriesAt, hseries, Option.bind_some, hempty]
      obtain ⟨uid, title, content, link, occurrences⟩ := group
      simp only at htitle hcontent hlink hoccurrences
      subst htitle hcontent hlink hoccurrences
      rfl

/-- A group lists exactly the occurrences its calendar produces for its UID. -/
theorem mem_occurrences_iff_produced {order : HashOrder} {group : EventGroup}
    (h : group ∈ groupVevents crates order calendar windowStart windowEnd) {o : Occurrence} :
    o ∈ group.occurrences ↔
      produced crates calendar windowStart windowEnd group.uid o.recurrenceAnchor = some o := by
  obtain ⟨series, hseries, _, _, _, hoccurrences, _⟩ := (mem_groupVevents_iff order).mp h
  rw [hoccurrences, Series.mem_occurrences_iff, produced, hseries, Option.bind_some]

/-- What a calendar produces at an anchor is known by that anchor. -/
theorem produced_anchor {uid : String} {anchor : Instant} {o : Occurrence}
    (h : produced crates calendar windowStart windowEnd uid anchor = some o) :
    o.recurrenceAnchor = anchor := by
  obtain ⟨series, _, ho⟩ := Option.bind_eq_some_iff.mp h
  exact Series.occurrenceAt_anchor ho

/-- The occurrences of a group have different anchors. -/
theorem group_anchors_nodup {order : HashOrder} {group : EventGroup}
    (h : group ∈ groupVevents crates order calendar windowStart windowEnd) :
    (group.occurrences.map (·.recurrenceAnchor)).Nodup := by
  obtain ⟨series, hseries, _, _, _, hoccurrences, _⟩ := (mem_groupVevents_iff order).mp h
  rw [hoccurrences]
  exact Series.occurrences_nodup (seriesOf_starts_nodup hseries) order

/-- A calendar has a group for a UID exactly if it produces something for it. -/
theorem exists_group_iff (order : HashOrder) (uid : String) :
    (∃ group ∈ groupVevents crates order calendar windowStart windowEnd, group.uid = uid) ↔
      ∃ anchor o, produced crates calendar windowStart windowEnd uid anchor = some o := by
  constructor
  · rintro ⟨group, hgroup, rfl⟩
    obtain ⟨_, _, _, _, _, _, hne⟩ := (mem_groupVevents_iff order).mp hgroup
    obtain ⟨o, ho⟩ := List.exists_mem_of_ne_nil _ hne
    exact ⟨_, o, (mem_occurrences_iff_produced hgroup).mp ho⟩
  · rintro ⟨anchor, o, ho⟩
    obtain ⟨series, hseries, hat⟩ := Option.bind_eq_some_iff.mp ho
    have hmem : o ∈ series.occurrences crates windowStart order := by
      rw [Series.mem_occurrences_iff, Series.occurrenceAt_anchor hat]
      exact hat
    exact ⟨⟨uid, _, _, _, _⟩, (mem_groupVevents_iff order).mpr
      ⟨series, hseries, rfl, rfl, rfl, rfl, List.ne_nil_of_mem hmem⟩, rfl⟩

/-- No two groups of a calendar share a UID. -/
theorem group_uids_nodup (order : HashOrder) :
    ((groupVevents crates order calendar windowStart windowEnd).map (·.uid)).Nodup := by
  have hkeys : ((order.groups (byUid calendar)).map Prod.fst).Nodup := by
    rw [((order.groups_perm (byUid calendar)).map Prod.fst).nodup_iff, byUid, List.map_map]
    have hid : (Prod.fst ∘ fun uid => (uid, calendar.filter fun e =>
        e.propertyValue "UID" = some uid)) = id := rfl
    rw [hid, List.map_id]
    exact unique_nodup _
  refine hkeys.sublist (map_filterMap_sublist ?_ _)
  intro entry group hgroup
  rw [eventGroup_eq] at hgroup
  obtain ⟨series, _, hgroup⟩ := Option.bind_eq_some_iff.mp hgroup
  split at hgroup
  · cases hgroup
  · obtain rfl := Option.some.inj hgroup
    rfl

end

end Rellm.Calendar
