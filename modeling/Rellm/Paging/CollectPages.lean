import Rellm.Calendar.Vevents

/-!
# Collecting the pages of a feed

Pages of one feed overlap, so the VEVENTs of each page are added to those of the
pages before it unless one with the same key is already there. The merger carries
the facts its fields keep: the keys seen are those of the calendar, each once, and
the latest start is the greatest readable one.

Pages are fetched in batches and examined strictly in order. The batches stop at a
page past the end of the feed, at a failure, or after a batch with a page that added
nothing new; in the last case a few more pages are looked at for the end of the feed.
However the pages are collected, the calendar is that of the first pages merged one
after another.
-/

namespace Rellm.Paging

open Calendar

/-! ## Merging -/

section

/-- Identifies one VEVENT across overlapping pages. -/
def eventKey (event : Vevent) : String :=
  (event.propertyValue "UID").getD "" ++ "\x1f" ++
    (event.propertyValue "RECURRENCE-ID").getD "" ++ "\x1f" ++
    (event.propertyValue "DTSTART").getD ""

/-- The greatest of a list and one more value. -/
theorem max?_concat (l : List Int) (a : Int) :
    (l ++ [a]).max? = some ((l.max?.map (max · a)).getD a) := by
  cases l with
  | nil => rfl
  | cons b l =>
    rw [List.cons_append, List.max?_cons', List.max?_cons', List.foldl_append]
    rfl

/-- The readable starts of some VEVENTs. -/
def startsOf (crates : CalendarCrates) (events : List Vevent) : List Instant :=
  events.filterMap fun event => getDateProperty crates event "DTSTART"

/-- The VEVENTs gathered across pages so far. -/
structure Merger (crates : CalendarCrates) where
  calendar : List Vevent
  seenKeys : List String
  latestStart : Option Instant
  seen : seenKeys = calendar.map eventKey
  nodup : seenKeys.Nodup
  latest : latestStart = (startsOf crates calendar).max?

namespace Merger

variable {crates : CalendarCrates}

/-- Nothing gathered yet. -/
def new : Merger crates where
  calendar := []
  seenKeys := []
  latestStart := none
  seen := rfl
  nodup := List.nodup_nil
  latest := rfl

/-- One VEVENT that has not been seen is added. -/
def push (merger : Merger crates) (event : Vevent) (h : eventKey event ∉ merger.seenKeys) :
    Merger crates where
  calendar := merger.calendar ++ [event]
  seenKeys := merger.seenKeys ++ [eventKey event]
  latestStart :=
    match getDateProperty crates event "DTSTART" with
    | some start => some ((merger.latestStart.map (max · start)).getD start)
    | none => merger.latestStart
  seen := by rw [merger.seen, List.map_append, List.map_singleton]
  nodup := by
    refine List.nodup_append.mpr ⟨merger.nodup, List.nodup_singleton _, ?_⟩
    intro key hkey other hother
    rw [List.mem_singleton.mp hother]
    rintro rfl
    exact h hkey
  latest := by
    rw [startsOf, List.filterMap_append]
    cases hstart : getDateProperty crates event "DTSTART" with
    | none =>
      simp only [List.filterMap_cons, hstart, List.filterMap_nil, List.append_nil]
      exact merger.latest
    | some start =>
      simp only [List.filterMap_cons, hstart, List.filterMap_nil]
      rw [max?_concat, merger.latest]
      rfl

/-- The VEVENTs of a page that have not been seen on an earlier page are added; how many
there were is returned. -/
def absorb (merger : Merger crates) : List Vevent → Merger crates × Nat
  | [] => (merger, 0)
  | event :: page =>
    if h : eventKey event ∈ merger.seenKeys then merger.absorb page
    else
      let rest := (merger.push event h).absorb page
      (rest.1, rest.2 + 1)

/-- What is kept of a page was gathered before or is on the page. -/
theorem mem_absorb {merger : Merger crates} {page : List Vevent} {event : Vevent}
    (h : event ∈ (merger.absorb page).1.calendar) : event ∈ merger.calendar ∨ event ∈ page := by
  induction page generalizing merger with
  | nil => exact .inl h
  | cons first page ih =>
    rw [absorb] at h
    split at h
    · rcases ih h with hold | hnew
      · exact .inl hold
      · exact .inr (List.mem_cons_of_mem _ hnew)
    · rcases ih h with hold | hnew
      · rcases List.mem_append.mp hold with hold | hfirst
        · exact .inl hold
        · rw [List.mem_singleton.mp hfirst]
          exact .inr List.mem_cons_self
      · exact .inr (List.mem_cons_of_mem _ hnew)

/-- The keys gathered are those gathered before and those of the page. -/
theorem mem_seenKeys_absorb (merger : Merger crates) (page : List Vevent) (key : String) :
    key ∈ (merger.absorb page).1.seenKeys ↔
      key ∈ merger.seenKeys ∨ key ∈ page.map eventKey := by
  induction page generalizing merger with
  | nil => simp [absorb]
  | cons first page ih =>
    rw [absorb, List.map_cons, List.mem_cons]
    split
    · rename_i hseen
      rw [ih]
      constructor
      · rintro (hold | hnew)
        · exact .inl hold
        · exact .inr (.inr hnew)
      · rintro (hold | rfl | hnew)
        · exact .inl hold
        · exact .inl hseen
        · exact .inr hnew
    · simp only [ih, push, List.mem_append, List.mem_singleton]
      rw [or_assoc]

/-- The latest start is a start of the calendar, and none of it is later. -/
theorem latestStart_eq_some_iff (merger : Merger crates) (latest : Instant) :
    merger.latestStart = some latest ↔
      latest ∈ startsOf crates merger.calendar ∧
        ∀ start ∈ startsOf crates merger.calendar, start ≤ latest := by
  rw [merger.latest, List.max?_eq_some_iff]

/-- A calendar without a readable start has no latest start. -/
theorem latestStart_eq_none_iff (merger : Merger crates) :
    merger.latestStart = none ↔ startsOf crates merger.calendar = [] := by
  rw [merger.latest, List.max?_eq_none_iff]

end Merger

end

/-! ## Collecting -/

section

/-- How many more pages to look at for an empty one after a page that added nothing new. -/
def stallProbePages : Nat := 6

/-- Pages fetched concurrently. -/
def pagesPerBatch : Nat := 4

/-- What one fetched page turned out to be. -/
inductive Page where
  | endOfFeed
  | calendar (events : List Vevent)
  deriving DecidableEq, Repr

/-- The fetch of one page, and what the calendar crate reads in a body. -/
structure PageReader where
  fetchPage : Nat → Except Status String
  parse : String → Option (List Vevent)

namespace PageReader

variable (reader : PageReader)

def parseCalendar (body : String) : Except Status (List Vevent) :=
  match reader.parse body with
  | some events => .ok events
  | none => .error { code := .failedPrecondition, message := "ics_parse_failed" }

/-- An empty body is past the end for any page after the first; anything else must parse. -/
def classifyPage (pageNumber : Nat) (body : String) : Except Status Page :=
  if (trim body).isEmpty then
    if pageNumber > 1 then .ok .endOfFeed
    else .error { code := .failedPrecondition, message := "stellarwp_empty_response" }
  else (reader.parseCalendar body).map .calendar

/-- One page, fetched and classified. -/
def readPage (pageNumber : Nat) : Except Status Page := do
  let body ← reader.fetchPage pageNumber
  reader.classifyPage pageNumber body

end PageReader

/-- How far a collection has come: what was gathered, whether an empty page was seen, and
whether some page added nothing new. -/
structure Progress (crates : CalendarCrates) where
  merger : Merger crates
  reachedEnd : Bool
  stalled : Bool

/-- What a collection returns: every distinct VEVENT, and unless the end of the feed was
reached the latest start seen. -/
structure PagedCalendar where
  calendar : List Vevent
  coverageHorizon : Option Instant
  deriving DecidableEq, Repr

section

variable {crates : CalendarCrates} (reader : PageReader)

/-- A page's VEVENTs are merged; one that adds nothing new stalls the collection. -/
def Progress.take (progress : Progress crates) (events : List Vevent) : Progress crates :=
  let absorbed := progress.merger.absorb events
  { progress with
    merger := absorbed.1
    stalled := progress.stalled || absorbed.2 == 0 }

/-- The pages of one batch, examined in order up to a failure or the end of the feed. -/
def examineBatch (progress : Progress crates) : List Nat → Except Status (Progress crates)
  | [] => .ok progress
  | pageNumber :: batch => do
    match ← reader.readPage pageNumber with
    | .endOfFeed => .ok { progress with reachedEnd := true }
    | .calendar events => examineBatch (progress.take events) batch

/-- The batches from one page on, and the last page fetched. The fuel is at least the
number of batches left. -/
def fetchBatches (perBatch maxPages : Nat) :
    Nat → Nat → Progress crates → Nat → Except Status (Progress crates × Nat)
  | 0, _, progress, lastPageFetched => .ok (progress, lastPageFetched)
  | fuel + 1, batchStart, progress, lastPageFetched =>
    if batchStart ≤ maxPages ∧ progress.stalled = false then do
      let batchEnd := min maxPages (batchStart + perBatch - 1)
      let progress ← examineBatch reader progress
        (List.range' batchStart (batchEnd + 1 - batchStart))
      if progress.reachedEnd then .ok (progress, batchEnd)
      else fetchBatches perBatch maxPages fuel (batchStart + perBatch) progress batchEnd
    else .ok (progress, lastPageFetched)

/-- More pages, one at a time, until an empty one or anything else that is no calendar. -/
def probe (progress : Progress crates) : List Nat → Progress crates
  | [] => progress
  | pageNumber :: pages =>
    match reader.readPage pageNumber with
    | .error _ => progress
    | .ok .endOfFeed => { progress with reachedEnd := true }
    | .ok (.calendar events) =>
      probe { progress with merger := (progress.merger.absorb events).1 } pages

/-- The pages of a feed, merged, with a number of pages to a batch. -/
def collectPagesBy (crates : CalendarCrates) (perBatch maxPages : Nat) (now : Instant) :
    Except Status PagedCalendar := do
  let start : Progress crates := { merger := .new, reachedEnd := false, stalled := false }
  let (progress, lastPageFetched) ← fetchBatches reader perBatch maxPages maxPages 1 start 0
  let progress :=
    if progress.stalled && !progress.reachedEnd then
      probe reader progress (List.range' (lastPageFetched + 1) stallProbePages)
    else progress
  .ok {
    calendar := progress.merger.calendar
    coverageHorizon :=
      if progress.reachedEnd then none else some (progress.merger.latestStart.getD now) }

/-- The pages of a feed, merged. -/
def collectPages (crates : CalendarCrates) (maxPages : Nat) (now : Instant) :
    Except Status PagedCalendar :=
  collectPagesBy reader crates pagesPerBatch maxPages now

/-- The VEVENTs of a page, if it is a calendar. -/
def PageReader.pageEvents (pageNumber : Nat) : List Vevent :=
  match reader.readPage pageNumber with
  | .ok (.calendar events) => events
  | _ => []

/-- The first pages, merged one after another. -/
def PageReader.mergedThrough (crates : CalendarCrates) : Nat → Merger crates
  | 0 => .new
  | page + 1 => ((mergedThrough crates page).absorb (reader.pageEvents (page + 1))).1

/-- Each of the first pages is a calendar. -/
def PageReader.CalendarsThrough (last : Nat) : Prop :=
  ∀ page, 1 ≤ page → page ≤ last → ∃ events, reader.readPage page = .ok (.calendar events)

/-- A page that adds nothing new to the pages before it. -/
def PageReader.AddsNothing (crates : CalendarCrates) (page : Nat) : Prop :=
  ((reader.mergedThrough crates (page - 1)).absorb (reader.pageEvents page)).2 = 0

/-- The first pages have been examined: all are calendars and merged, and the page after
them is empty if the end of the feed was reached. -/
structure Examined (progress : Progress crates) (last : Nat) : Prop where
  calendars : reader.CalendarsThrough last
  merged : progress.merger = reader.mergedThrough crates last
  ended : progress.reachedEnd = true → reader.readPage (last + 1) = .ok .endOfFeed

/-- A collection has stalled exactly if one of the first pages added nothing new. -/
def StalledWithin (progress : Progress crates) (last : Nat) : Prop :=
  progress.stalled = true ↔ ∃ page, 1 ≤ page ∧ page ≤ last ∧ reader.AddsNothing crates page

/-- How the batches can end: stopped with all the batches before, or at a page past the end
of the feed, or at a page that fails. -/
inductive BatchesEnd (perBatch maxPages : Nat) :
    Except Status (Progress crates × Nat) → Prop where
  | stopped (progress : Progress crates) (last : Nat) (hexamined : Examined reader progress last)
      (hstalled : StalledWithin reader progress last) (hopen : progress.reachedEnd = false)
      (hle : last ≤ maxPages) (hbatch : perBatch ∣ last ∨ last = maxPages)
      (hstop : progress.stalled = true ∨ last = maxPages) :
      BatchesEnd perBatch maxPages (.ok (progress, last))
  | reachedEnd (progress : Progress crates) (last lastPageFetched : Nat)
      (hexamined : Examined reader progress last) (hend : progress.reachedEnd = true)
      (hlt : last < maxPages) : BatchesEnd perBatch maxPages (.ok (progress, lastPageFetched))
  | failed (status : Status) (last : Nat) (hcalendars : reader.CalendarsThrough last)
      (hread : reader.readPage (last + 1) = .error status) (hlt : last < maxPages) :
      BatchesEnd perBatch maxPages (.error status)

variable {reader}

/-- One more page that is a calendar. -/
theorem CalendarsThrough.succ {last : Nat} (h : reader.CalendarsThrough last)
    {events : List Vevent} (hread : reader.readPage (last + 1) = .ok (.calendar events)) :
    reader.CalendarsThrough (last + 1) := by
  intro page hone hle
  rcases Nat.lt_or_eq_of_le hle with hlt | rfl
  · exact h page hone (by omega)
  · exact ⟨events, hread⟩

/-- The events of a page that is a calendar. -/
theorem pageEvents_of_calendar {page : Nat} {events : List Vevent}
    (h : reader.readPage page = .ok (.calendar events)) : reader.pageEvents page = events := by
  simp only [PageReader.pageEvents, h]

/-- Merging the next page examines it. -/
theorem Examined.absorb {progress next : Progress crates} {last : Nat}
    (h : Examined reader progress last) {events : List Vevent}
    (hread : reader.readPage (last + 1) = .ok (.calendar events))
    (hmerger : next.merger = (progress.merger.absorb events).1)
    (hopen : next.reachedEnd = false) : Examined reader next (last + 1) where
  calendars := CalendarsThrough.succ h.calendars hread
  merged := by
    rw [hmerger, h.merged, PageReader.mergedThrough, pageEvents_of_calendar hread]
  ended := by
    intro hended
    rw [hopen] at hended
    cases hended

/-- Seeing an empty page is all the end of the feed changes. -/
theorem Examined.end {progress : Progress crates} {last : Nat}
    (h : Examined reader progress last) (hread : reader.readPage (last + 1) = .ok .endOfFeed) :
    Examined reader { progress with reachedEnd := true } last where
  calendars := h.calendars
  merged := h.merged
  ended := fun _ => hread

/-- Examining one more page keeps track of whether some page added nothing new. -/
theorem StalledWithin.take {progress : Progress crates} {last : Nat}
    (hexamined : Examined reader progress last) (h : StalledWithin reader progress last)
    {events : List Vevent} (hread : reader.readPage (last + 1) = .ok (.calendar events)) :
    StalledWithin reader (progress.take events) (last + 1) := by
  have hadds : (progress.merger.absorb events).2 = 0 ↔ reader.AddsNothing crates (last + 1) := by
    rw [PageReader.AddsNothing, Nat.add_sub_cancel, pageEvents_of_calendar hread,
      hexamined.merged]
  have hbefore : progress.stalled = true ↔
      ∃ page, 1 ≤ page ∧ page ≤ last ∧ reader.AddsNothing crates page := h
  rw [StalledWithin, Progress.take, Bool.or_eq_true, beq_iff_eq, hadds, hbefore]
  constructor
  · rintro (⟨page, hone, hle, hpage⟩ | hpage)
    · exact ⟨page, hone, by omega, hpage⟩
    · exact ⟨last + 1, by omega, Nat.le_refl _, hpage⟩
  · rintro ⟨page, hone, hle, hpage⟩
    rcases Nat.lt_or_eq_of_le hle with hlt | rfl
    · exact .inl ⟨page, hone, by omega, hpage⟩
    · exact .inr hpage

/-- How the examination of a batch can end. -/
theorem examineBatch_cases {progress : Progress crates} {last : Nat} (count : Nat)
    (hexamined : Examined reader progress last) (hstalled : StalledWithin reader progress last)
    (hopen : progress.reachedEnd = false) :
    (∃ next, examineBatch reader progress (List.range' (last + 1) count) = .ok next ∧
      Examined reader next (last + count) ∧ StalledWithin reader next (last + count) ∧
      next.reachedEnd = false) ∨
    (∃ next page, examineBatch reader progress (List.range' (last + 1) count) = .ok next ∧
      Examined reader next page ∧ next.reachedEnd = true ∧ page < last + count) ∨
    (∃ status page, examineBatch reader progress (List.range' (last + 1) count) =
        .error status ∧ reader.CalendarsThrough page ∧
      reader.readPage (page + 1) = .error status ∧ page < last + count) := by
  induction count generalizing progress last with
  | zero => exact .inl ⟨progress, rfl, hexamined, hstalled, hopen⟩
  | succ count ih =>
    rw [List.range'_succ]
    cases hread : reader.readPage (last + 1) with
    | error status =>
      refine .inr (.inr ⟨status, last, ?_, hexamined.calendars, hread, by omega⟩)
      simp only [examineBatch, hread]
      rfl
    | ok page =>
      cases page with
      | endOfFeed =>
        refine .inr (.inl ⟨_, last, ?_, hexamined.end hread, rfl, by omega⟩)
        simp only [examineBatch, hread]
        rfl
      | calendar events =>
        have hstep : examineBatch reader progress
            ((last + 1) :: List.range' (last + 1 + 1) count) =
            examineBatch reader (progress.take events) (List.range' (last + 1 + 1) count) := by
          rw [examineBatch, hread]
          rfl
        have hnext : Examined reader (progress.take events) (last + 1) :=
          hexamined.absorb hread rfl hopen
        have hrest := ih hnext (hstalled.take hexamined hread) hopen
        rw [hstep]
        simpa only [Nat.add_assoc, Nat.add_comm 1 count] using hrest

/-- However the batches go, they end in one of the three ways. -/
theorem fetchBatches_end {perBatch maxPages : Nat} (hbatch : 0 < perBatch) (fuel : Nat)
    {batchStart last : Nat} {progress : Progress crates}
    (hexamined : Examined reader progress last) (hstalled : StalledWithin reader progress last)
    (hopen : progress.reachedEnd = false) (hle : last ≤ maxPages)
    (hat : batchStart = last + 1 ∧ perBatch ∣ last ∨ last = maxPages ∧ maxPages < batchStart)
    (hfuel : maxPages < batchStart + fuel) :
    BatchesEnd reader perBatch maxPages
      (fetchBatches reader perBatch maxPages fuel batchStart progress last) := by
  have hboundary : perBatch ∣ last ∨ last = maxPages := by
    rcases hat with ⟨_, hdvd⟩ | ⟨heq, _⟩
    · exact .inl hdvd
    · exact .inr heq
  induction fuel generalizing batchStart last progress with
  | zero =>
    refine .stopped progress last hexamined hstalled hopen hle hboundary (.inr ?_)
    omega
  | succ fuel ih =>
    rw [fetchBatches]
    split
    · rename_i hmore
      obtain ⟨rfl, hdvd⟩ : batchStart = last + 1 ∧ perBatch ∣ last := by
        rcases hat with hat | ⟨_, hlt⟩
        · exact hat
        · exact absurd hmore.1 (Nat.not_le.mpr hlt)
      obtain ⟨count, hcount⟩ : ∃ count, min maxPages (last + 1 + perBatch - 1) = last + count := by
        exact ⟨min maxPages (last + 1 + perBatch - 1) - last, by omega⟩
      have hrange : last + count + 1 - (last + 1) = count := by omega
      simp only [hcount, hrange]
      rcases examineBatch_cases count hexamined hstalled hopen with
        ⟨next, hok, hnext, hnextStalled, hnextOpen⟩ | ⟨next, page, hok, hnext, hend, hlt⟩ |
        ⟨status, page, herror, hcalendars, hread, hlt⟩
      · have hnextAt : last + 1 + perBatch = last + count + 1 ∧ perBatch ∣ last + count ∨
            last + count = maxPages ∧ maxPages < last + 1 + perBatch := by
          rcases Nat.le_total (last + perBatch) maxPages with hfull | hshort
          · have hwhole : count = perBatch := by omega
            rw [hwhole]
            exact .inl ⟨by omega, Nat.dvd_add hdvd (Nat.dvd_refl perBatch)⟩
          · exact .inr (by omega)
        have hrest := ih hnext hnextStalled hnextOpen (by omega) hnextAt (by omega)
          (hnextAt.imp And.right And.left)
        simpa only [bind, Except.bind, hok, hnextOpen, Bool.false_eq_true, if_false] using hrest
      · simp only [bind, Except.bind, hok, hend, if_true]
        exact .reachedEnd next page _ hnext hend (by omega)
      · rw [herror]
        exact .failed status page hcalendars hread (by omega)
    · rename_i hdone
      refine .stopped progress last hexamined hstalled hopen hle hboundary ?_
      by_cases hstop : progress.stalled = true
      · exact .inl hstop
      · rw [Bool.not_eq_true] at hstop
        have hpast : ¬ batchStart ≤ maxPages := fun hstart => hdone ⟨hstart, hstop⟩
        rcases hat with ⟨rfl, _⟩ | ⟨heq, _⟩
        · exact .inr (by omega)
        · exact .inr heq

/-- Looking at more pages examines them. -/
theorem probe_examined {progress : Progress crates} {last : Nat} (count : Nat)
    (hexamined : Examined reader progress last) (hopen : progress.reachedEnd = false) :
    ∃ page, last ≤ page ∧
      Examined reader (probe reader progress (List.range' (last + 1) count)) page := by
  induction count generalizing progress last with
  | zero => exact ⟨last, Nat.le_refl _, hexamined⟩
  | succ count ih =>
    rw [List.range'_succ, probe]
    cases hread : reader.readPage (last + 1) with
    | error status => exact ⟨last, Nat.le_refl _, hexamined⟩
    | ok page =>
      cases page with
      | endOfFeed => exact ⟨last, Nat.le_refl _, hexamined.end hread⟩
      | calendar events =>
        have hnext : Examined reader
            { progress with merger := (progress.merger.absorb events).1 } (last + 1) :=
          hexamined.absorb hread rfl hopen
        obtain ⟨page, hle, hpage⟩ := ih hnext hopen
        exact ⟨page, by omega, hpage⟩

variable (reader) (crates) in
/-- The batches of a whole collection end in one of the three ways. -/
theorem batches_end {perBatch : Nat} (hbatch : 0 < perBatch) (maxPages : Nat) :
    BatchesEnd reader perBatch maxPages (fetchBatches reader perBatch maxPages maxPages 1
      { merger := (.new : Merger crates), reachedEnd := false, stalled := false } 0) := by
  have hstart : Examined reader
      { merger := (.new : Merger crates), reachedEnd := false, stalled := false } 0 :=
    ⟨fun page hone hle => absurd hone (by omega), rfl, fun h => by cases h⟩
  refine fetchBatches_end hbatch maxPages hstart ?_ rfl (Nat.zero_le _)
    (.inl ⟨rfl, Nat.dvd_zero perBatch⟩) (by omega)
  · refine iff_of_false Bool.false_ne_true ?_
    rintro ⟨page, hone, hle, _⟩
    omega

variable (reader) (crates) in
/-- What the first pages give when the collection ends with them. -/
def PageReader.pagedThrough (now : Instant) (last : Nat) (reachedEnd : Bool) : PagedCalendar where
  calendar := (reader.mergedThrough crates last).calendar
  coverageHorizon :=
    if reachedEnd then none
    else some ((reader.mergedThrough crates last).latestStart.getD now)

/-- What is collected is the first pages merged, and it is complete only if the page after
them is empty; a truncated collection of any pages has examined at least one. -/
theorem collectPagesBy_ok {perBatch maxPages : Nat} {now : Instant} {paged : PagedCalendar}
    (hbatch : 0 < perBatch)
    (h : collectPagesBy reader crates perBatch maxPages now = .ok paged) :
    ∃ last reachedEnd, reader.CalendarsThrough last ∧
      paged = reader.pagedThrough crates now last reachedEnd ∧
      (reachedEnd = true → reader.readPage (last + 1) = .ok .endOfFeed) ∧
      (reachedEnd = false → 0 < maxPages → 0 < last) := by
  have hfinish : ∀ (progress : Progress crates) last, Examined reader progress last →
      ({ calendar := progress.merger.calendar
         coverageHorizon := if progress.reachedEnd then none
           else some (progress.merger.latestStart.getD now) } : PagedCalendar) =
        reader.pagedThrough crates now last progress.reachedEnd := by
    intro progress last hexamined
    rw [PageReader.pagedThrough, hexamined.merged]
  have hend := batches_end crates reader hbatch maxPages
  rw [collectPagesBy] at h
  generalize fetchBatches reader perBatch maxPages maxPages 1 _ 0 = outcome at h hend
  cases hend with
  | failed status last hcalendars hread hlt => cases h
  | reachedEnd progress last lastPageFetched hexamined hend hlt =>
    have hpaged : _ = paged := Except.ok.inj h
    simp only [hend, Bool.not_true, Bool.and_false, Bool.false_eq_true, if_false] at hpaged
    refine ⟨last, true, hexamined.calendars, ?_, fun _ => hexamined.ended hend,
      fun hopen => by cases hopen⟩
    rw [← hend, ← hfinish progress last hexamined, hend]
    exact hpaged.symm
  | stopped progress last hexamined hstalled hopen hle hboundary hstop =>
    have hsome : 0 < maxPages → 0 < last := by
      intro hmax
      rcases hstop with hstop | rfl
      · obtain ⟨page, hone, hpage, _⟩ := hstalled.mp hstop
        omega
      · exact hmax
    have hpaged := Except.ok.inj h
    obtain ⟨page, hpage, hprobed⟩ := probe_examined stallProbePages hexamined hopen
    split at hpaged
    · refine ⟨page, _, hprobed.calendars, ?_, hprobed.ended, fun _ hmax => ?_⟩
      · rw [← hfinish _ page hprobed]
        exact hpaged.symm
      · have := hsome hmax
        omega
    · refine ⟨last, _, hexamined.calendars, ?_, hexamined.ended, fun _ => hsome⟩
      rw [← hfinish _ last hexamined]
      exact hpaged.symm

end

end

end Rellm.Paging
