import Rellm.Calendar.Grouping

/-!
# Expanded starts and overrides

Which starts of a series are expanded and which overrides count, read off the
calendar: a start of the rule is expanded within the window unless it is excluded
or too many come before it, and of the overrides with one recurrence id the last
counts. An occurrence is produced from its start where that is expanded, else
from its override.
-/

namespace Rellm.Calendar

open Foundation

/-- Among the first of a sorted list are those with few before them. -/
theorem mem_take_iff_of_sorted {l : List Int} (hsorted : l.Pairwise (· < ·)) (n : Nat) (x : Int) :
    x ∈ l.take n ↔ x ∈ l ∧ (l.filter fun y => y < x).length < n := by
  induction l generalizing n with
  | nil => simp
  | cons a l ih =>
    obtain ⟨hfirst, hrest⟩ := List.pairwise_cons.mp hsorted
    cases n with
    | zero => simp
    | succ n =>
      rw [List.take_succ_cons, List.mem_cons, List.mem_cons, ih hrest]
      by_cases hx : x = a
      · have hnone : (a :: l).filter (fun y => y < x) = [] := by
          rw [List.filter_eq_nil_iff]
          intro y hy
          rw [decide_eq_true_eq, hx]
          rcases List.mem_cons.mp hy with rfl | hmem
          · exact Int.lt_irrefl y
          · exact Int.not_lt.mpr (Int.le_of_lt (hfirst y hmem))
        rw [hnone]
        simp [hx]
      · have hcons : x ∈ l → ((a :: l).filter fun y => y < x).length =
            (l.filter fun y => y < x).length + 1 := by
          intro hmem
          rw [List.filter_cons, if_pos (decide_eq_true (hfirst x hmem)), List.length_cons]
        constructor
        · rintro (heq | ⟨hmem, hlt⟩)
          · exact absurd heq hx
          · rw [hcons hmem]
            exact ⟨.inr hmem, Nat.succ_lt_succ hlt⟩
        · rintro ⟨heq | hmem, hlt⟩
          · exact absurd heq hx
          · rw [hcons hmem] at hlt
            exact .inr ⟨hmem, Nat.lt_of_succ_lt_succ hlt⟩

section

variable (crates : CalendarCrates)

/-- The recurrence rule of a master, if it has one that can be expanded. -/
def masterRule (master : Vevent) (masterStart : Instant) : Option Recurrence :=
  (master.propertyValue "RRULE").bind fun rrule => crates.parseRule rrule masterStart

/-- The duration of a series. -/
def masterDuration (master : Vevent) (masterStart : Instant) : Int :=
  (getDateProperty crates master "DTEND").getD masterStart - masterStart

/-- The master VEVENT of a UID. -/
def masterOf (calendar : List Vevent) (uid : String) : Option Vevent :=
  (calendar.filter fun e => e.propertyValue "UID" = some uid).find? fun e =>
    (e.propertyValue "RECURRENCE-ID").isNone

/-- The last override of a UID with a recurrence id. -/
def lastOverride (calendar : List Vevent) (uid : String) (recurrenceId : Instant) :
    Option Vevent :=
  (calendar.filter fun e => e.propertyValue "UID" = some uid ∧
    getDateProperty crates e "RECURRENCE-ID" = some recurrenceId).getLast?

/-- A start of the recurrence set of a master, after its exclusions. -/
def IsStart (master : Vevent) (masterStart start : Instant) : Prop :=
  match masterRule crates master masterStart with
  | none => start = masterStart
  | some rule => rule.isStart start ∧ start ∉ parseExdates crates master

/-- How many starts of a master in the window come before an instant. -/
def startsBefore (master : Vevent) (masterStart windowStart windowEnd instant : Instant) : Nat :=
  match masterRule crates master masterStart with
  | none => 0
  | some rule => ((rule.between windowStart windowEnd).filter fun start =>
      !(parseExdates crates master).contains start && decide (start < instant)).length

/-- Where a start of a master is expanded: without a rule anywhere, else within the window
and with fewer than 2000 others before it. -/
def InExpansion (master : Vevent) (masterStart windowStart windowEnd start : Instant) : Prop :=
  (masterRule crates master masterStart).isSome → windowStart ≤ start ∧ start ≤ windowEnd ∧
    startsBefore crates master masterStart windowStart windowEnd start < maxRruleOccurrences

/-- A start that is expanded. -/
def IsExpanded (master : Vevent) (masterStart windowStart windowEnd start : Instant) : Prop :=
  IsStart crates master masterStart start ∧
    InExpansion crates master masterStart windowStart windowEnd start

/-- What a calendar still describes: a start of the recurrence set of a UID's master, or an
occurrence that is overridden. -/
def Describes (calendar : List Vevent) (uid : String) (anchor : Instant) : Prop :=
  (∃ master masterStart, masterOf calendar uid = some master ∧
    getDateProperty crates master "DTSTART" = some masterStart ∧
    IsStart crates master masterStart anchor) ∨
  (lastOverride crates calendar uid anchor).isSome

/-- An occurrence that is described is produced: the UID has a master that can be placed in
time; an expanded start, or else the override, does not end before the window; and without
an override the start is expanded. -/
structure InWindow (calendar : List Vevent) (windowStart windowEnd : Instant) (uid : String)
    (anchor : Instant) (master : Vevent) (masterStart : Instant) : Prop where
  ofUid : masterOf calendar uid = some master
  placed : getDateProperty crates master "DTSTART" = some masterStart
  expanded : IsExpanded crates master masterStart windowStart windowEnd anchor →
    windowStart ≤ anchor + masterDuration crates master masterStart
  moved : ∀ overrideEvent, lastOverride crates calendar uid anchor = some overrideEvent →
    ¬ IsExpanded crates master masterStart windowStart windowEnd anchor →
    windowStart ≤ ownEnd crates (masterDuration crates master masterStart) anchor overrideEvent
  plain : lastOverride crates calendar uid anchor = none →
    InExpansion crates master masterStart windowStart windowEnd anchor

/-- The expanded starts of a master. -/
theorem mem_expandOccurrenceStarts_iff {master : Vevent}
    {masterStart windowStart windowEnd start : Instant} :
    start ∈ expandOccurrenceStarts crates master masterStart windowStart windowEnd ↔
      IsExpanded crates master masterStart windowStart windowEnd start := by
  have hstarts : expandOccurrenceStarts crates master masterStart windowStart windowEnd =
      match masterRule crates master masterStart with
      | none => [masterStart]
      | some rule => ((rule.between windowStart windowEnd).filter fun start =>
          !(parseExdates crates master).contains start).take maxRruleOccurrences := by
    rw [expandOccurrenceStarts, masterRule]
    cases master.propertyValue "RRULE" <;> rfl
  rw [hstarts, IsExpanded, InExpansion, IsStart, startsBefore]
  cases masterRule crates master masterStart with
  | none => simp
  | some rule =>
    have hsorted : ((rule.between windowStart windowEnd).filter fun start =>
        !(parseExdates crates master).contains start).Pairwise (· < ·) :=
      (rule.sorted windowStart windowEnd).filter _
    simp only [Option.isSome_some, true_implies]
    rw [mem_take_iff_of_sorted hsorted, List.mem_filter, rule.mem_between, List.filter_filter]
    simp only [Bool.not_eq_true', List.contains_eq_mem, decide_eq_false_iff_not]
    constructor
    · rintro ⟨⟨⟨hstart, hafter, hbefore⟩, hexcluded⟩, hfew⟩
      refine ⟨⟨hstart, hexcluded⟩, hafter, hbefore, ?_⟩
      simpa only [Bool.and_comm] using hfew
    · rintro ⟨⟨hstart, hexcluded⟩, hafter, hbefore, hfew⟩
      refine ⟨⟨⟨hstart, hafter, hbefore⟩, hexcluded⟩, ?_⟩
      simpa only [Bool.and_comm] using hfew

variable {crates} {calendar : List Vevent} {uid : String}
  {windowStart windowEnd masterStart anchor : Instant} {master : Vevent}

/-- The override under a recurrence id is the last one that has it. -/
theorem overridesOf_value (calendar : List Vevent) (uid : String) (recurrenceId : Instant) :
    (overridesOf crates (calendar.filter fun e => e.propertyValue "UID" = some uid)).value
      recurrenceId = lastOverride crates calendar uid recurrenceId := by
  rw [HashMap.value, overridesOf, Table.get_collect, lastOverride, ← List.getLast?_map]
  congr 1
  induction calendar with
  | nil => rfl
  | cons e calendar ih =>
    by_cases huid : e.propertyValue "UID" = some uid
    · cases hid : getDateProperty crates e "RECURRENCE-ID" with
      | none =>
        by_cases hproperty : (e.propertyValue "RECURRENCE-ID").isSome = true <;>
          simpa [huid, hid, hproperty] using ih
      | some own =>
        have hproperty : (e.propertyValue "RECURRENCE-ID").isSome = true := by
          obtain ⟨property, hget, _⟩ := Option.bind_eq_some_iff.mp hid
          rw [Vevent.propertyValue, hget]
          rfl
        by_cases hown : own = recurrenceId <;>
          simpa [huid, hid, hproperty, hown] using ih
    · simpa [huid] using ih

/-- The series of a UID is read off its master. -/
theorem seriesAt_eq (hmaster : masterOf calendar uid = some master)
    (hstart : getDateProperty crates master "DTSTART" = some masterStart) :
    seriesAt crates calendar windowStart windowEnd uid = some {
      master := master
      start := masterStart
      duration := masterDuration crates master masterStart
      starts := expandOccurrenceStarts crates master masterStart windowStart windowEnd
      overrides := overridesOf crates
        (calendar.filter fun e => e.propertyValue "UID" = some uid) } := by
  rw [masterOf] at hmaster
  rw [seriesAt, seriesOf, hmaster]
  simp only [Option.bind_eq_bind, Option.bind_some, hstart]
  rfl

/-- What is produced at an expanded start. -/
theorem produced_expanded (hmaster : masterOf calendar uid = some master)
    (hstart : getDateProperty crates master "DTSTART" = some masterStart)
    (hexpanded : IsExpanded crates master masterStart windowStart windowEnd anchor) :
    produced crates calendar windowStart windowEnd uid anchor =
      if anchor + masterDuration crates master masterStart < windowStart then none
      else some (buildOccurrence crates anchor
        (anchor + masterDuration crates master masterStart) master
        (lastOverride crates calendar uid anchor)) := by
  rw [produced, seriesAt_eq hmaster hstart, Option.bind_some, Series.occurrenceAt,
    if_pos ((mem_expandOccurrenceStarts_iff crates).mpr hexpanded), Series.expandedAt]
  simp only [overridesOf_value]

/-- What is produced at another anchor. -/
theorem produced_moved (hmaster : masterOf calendar uid = some master)
    (hstart : getDateProperty crates master "DTSTART" = some masterStart)
    (hexpanded : ¬ IsExpanded crates master masterStart windowStart windowEnd anchor) :
    produced crates calendar windowStart windowEnd uid anchor =
      (lastOverride crates calendar uid anchor).bind fun overrideEvent =>
        if ownEnd crates (masterDuration crates master masterStart) anchor overrideEvent <
            windowStart then none
        else some ((buildOccurrence crates anchor
          (ownEnd crates (masterDuration crates master masterStart) anchor overrideEvent) master
          (some overrideEvent)).withStart (ownStart crates anchor overrideEvent)) := by
  rw [produced, seriesAt_eq hmaster hstart, Option.bind_some, Series.occurrenceAt,
    if_neg (mt (mem_expandOccurrenceStarts_iff crates).mp hexpanded)]
  simp only [overridesOf_value]
  rfl

/-- Something is produced at an anchor exactly if the UID has a master that can be placed in
time and its start, or else its override, does not end before the window. -/
theorem produced_isSome_iff :
    (produced crates calendar windowStart windowEnd uid anchor).isSome ↔
      ∃ master masterStart, masterOf calendar uid = some master ∧
        getDateProperty crates master "DTSTART" = some masterStart ∧
        (IsExpanded crates master masterStart windowStart windowEnd anchor →
          windowStart ≤ anchor + masterDuration crates master masterStart) ∧
        (¬ IsExpanded crates master masterStart windowStart windowEnd anchor →
          ∃ overrideEvent, lastOverride crates calendar uid anchor = some overrideEvent ∧
            windowStart ≤ ownEnd crates (masterDuration crates master masterStart) anchor
              overrideEvent) := by
  have hcase : ∀ master masterStart, masterOf calendar uid = some master →
      getDateProperty crates master "DTSTART" = some masterStart →
      ((produced crates calendar windowStart windowEnd uid anchor).isSome ↔
        (IsExpanded crates master masterStart windowStart windowEnd anchor →
          windowStart ≤ anchor + masterDuration crates master masterStart) ∧
        (¬ IsExpanded crates master masterStart windowStart windowEnd anchor →
          ∃ overrideEvent, lastOverride crates calendar uid anchor = some overrideEvent ∧
            windowStart ≤ ownEnd crates (masterDuration crates master masterStart) anchor
              overrideEvent)) := by
    intro master masterStart hmaster hstart
    by_cases hexpanded : IsExpanded crates master masterStart windowStart windowEnd anchor
    · rw [produced_expanded hmaster hstart hexpanded]
      split
      · rename_i hends
        exact iff_of_false Bool.false_ne_true
          fun h => absurd (h.1 hexpanded) (Int.not_le.mpr hends)
      · rename_i hends
        exact iff_of_true rfl
          ⟨fun _ => Int.not_lt.mp hends, fun hnot => absurd hexpanded hnot⟩
    · rw [produced_moved hmaster hstart hexpanded]
      cases lastOverride crates calendar uid anchor with
      | none =>
        refine iff_of_false Bool.false_ne_true ?_
        rintro ⟨_, hmoved⟩
        obtain ⟨_, hnone, _⟩ := hmoved hexpanded
        cases hnone
      | some overrideEvent =>
        rw [Option.bind_some]
        split
        · rename_i hends
          refine iff_of_false Bool.false_ne_true ?_
          rintro ⟨_, hmoved⟩
          obtain ⟨_, heq, hwithin⟩ := hmoved hexpanded
          obtain rfl := Option.some.inj heq
          exact absurd hwithin (Int.not_le.mpr hends)
        · rename_i hends
          exact iff_of_true rfl ⟨fun h => absurd h hexpanded,
            fun _ => ⟨overrideEvent, rfl, Int.not_lt.mp hends⟩⟩
  constructor
  · intro hsome
    obtain ⟨occ, hocc⟩ := Option.isSome_iff_exists.mp hsome
    obtain ⟨series, hseries, _⟩ := Option.bind_eq_some_iff.mp hocc
    obtain ⟨master, hmaster, hseries⟩ := Option.bind_eq_some_iff.mp hseries
    obtain ⟨masterStart, hstart, _⟩ := Option.bind_eq_some_iff.mp hseries
    exact ⟨master, masterStart, hmaster, hstart, (hcase master masterStart hmaster hstart).mp hsome⟩
  · rintro ⟨master, masterStart, hmaster, hstart, hrest⟩
    exact (hcase master masterStart hmaster hstart).mpr hrest

/-- What is described is produced exactly if it is in the window. -/
theorem produced_isSome_iff_of_describes (hdescribes : Describes crates calendar uid anchor) :
    (produced crates calendar windowStart windowEnd uid anchor).isSome ↔
      ∃ master masterStart,
        InWindow crates calendar windowStart windowEnd uid anchor master masterStart := by
  rw [produced_isSome_iff]
  constructor
  · rintro ⟨master, masterStart, hmaster, hstart, hexpanded, hmoved⟩
    refine ⟨master, masterStart, hmaster, hstart, hexpanded, ?_, ?_⟩
    · intro overrideEvent hoverride hnot
      obtain ⟨found, hfound, hwithin⟩ := hmoved hnot
      rw [hoverride] at hfound
      obtain rfl := Option.some.inj hfound
      exact hwithin
    · intro hnone
      by_contra hnot
      obtain ⟨found, hfound, _⟩ := hmoved fun hexpanded => hnot hexpanded.2
      rw [hnone] at hfound
      cases hfound
  · rintro ⟨master, masterStart, h⟩
    refine ⟨master, masterStart, h.ofUid, h.placed, h.expanded, ?_⟩
    intro hnot
    cases hoverride : lastOverride crates calendar uid anchor with
    | some overrideEvent => exact ⟨overrideEvent, rfl, h.moved overrideEvent hoverride hnot⟩
    | none =>
      rcases hdescribes with ⟨master', masterStart', hmaster, hstart, his⟩ | hsome
      · rw [h.ofUid, Option.some.injEq] at hmaster
        subst hmaster
        rw [h.placed, Option.some.injEq] at hstart
        subst hstart
        exact absurd ⟨his, h.plain hoverride⟩ hnot
      · rw [hoverride] at hsome
        cases hsome

end

end Rellm.Calendar
