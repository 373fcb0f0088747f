import Rellm.Calendar.Overrides
import Rellm.Paging.Coverage

/-!
# Pages that are windows of one list

A site serves overlapping windows of one list of VEVENTs sorted by start. Whatever the
windows are, everything that starts before the horizon of a collection has been merged,
so that an occasion the site still lists is never covered and absent.
-/

namespace Rellm.Paging

open Calendar

/-- A site that serves windows of one list of VEVENTs: each page starts some VEVENTs after the
one before it, and past the end of the list the body is empty. -/
structure ServesWindows (reader : PageReader) (events : List Vevent) (step len : Nat) : Prop where
  body : ∀ page, 1 ≤ page → ∃ body, reader.fetchPage page = .ok body ∧
    if step * (page - 1) < events.length then
      (trim body).isEmpty = false ∧
        reader.parse body = some ((events.drop (step * (page - 1))).take len)
    else (trim body).isEmpty = true

/-- A list of VEVENTs sorted by their readable starts. -/
structure SortedBy (crates : CalendarCrates) (start : Vevent → Instant) (events : List Vevent) :
    Prop where
  readable : ∀ event ∈ events, getDateProperty crates event "DTSTART" = some (start event)
  sorted : events.Pairwise fun event later => start event ≤ start later

section

variable {crates : CalendarCrates} {reader : PageReader} {events : List Vevent}
  {start : Vevent → Instant} {step len : Nat}

/-- A page within the list is its window. -/
theorem ServesWindows.readPage_window (h : ServesWindows reader events step len) {page : Nat}
    (hone : 1 ≤ page) (hwithin : step * (page - 1) < events.length) :
    reader.readPage page = .ok (.calendar ((events.drop (step * (page - 1))).take len)) := by
  obtain ⟨body, hfetch, hbody⟩ := h.body page hone
  rw [if_pos hwithin] at hbody
  simp [PageReader.readPage, hfetch, bind, Except.bind, PageReader.classifyPage, hbody.1,
    PageReader.parseCalendar, hbody.2, Except.map]

/-- A later page past the list is empty. -/
theorem ServesWindows.readPage_past (h : ServesWindows reader events step len) {page : Nat}
    (hlater : 1 < page) (hpast : events.length ≤ step * (page - 1)) :
    reader.readPage page = .ok .endOfFeed := by
  obtain ⟨body, hfetch, hbody⟩ := h.body page (Nat.le_of_lt hlater)
  rw [if_neg (Nat.not_lt.mpr hpast)] at hbody
  simp [PageReader.readPage, hfetch, bind, Except.bind, PageReader.classifyPage, hbody, hlater]

/-- The first page past the list, if it is the first of all, fails. -/
theorem ServesWindows.within_of_calendar (h : ServesWindows reader events step len) {page : Nat}
    (hone : 1 ≤ page) {listed : List Vevent}
    (hread : reader.readPage page = .ok (.calendar listed)) :
    step * (page - 1) < events.length := by
  by_contra hpast
  obtain ⟨body, hfetch, hbody⟩ := h.body page hone
  rw [if_neg hpast] at hbody
  simp only [PageReader.readPage, hfetch, bind, Except.bind, PageReader.classifyPage, hbody,
    if_true] at hread
  split at hread <;> cases hread

/-- The first windows together list the first VEVENTs. -/
theorem ServesWindows.mem_pages_iff (h : ServesWindows reader events step len) (hstep : 1 ≤ step)
    (hlen : step ≤ len) {last : Nat} (hlast : 0 < last) (hpages : reader.CalendarsThrough last)
    (event : Vevent) :
    (∃ page, 1 ≤ page ∧ page ≤ last ∧ event ∈ reader.pageEvents page) ↔
      event ∈ events.take (step * (last - 1) + len) := by
  have hwindow : ∀ page, 1 ≤ page → page ≤ last →
      reader.pageEvents page = (events.drop (step * (page - 1))).take len := by
    intro page hone hle
    obtain ⟨listed, hread⟩ := hpages page hone hle
    exact pageEvents_of_calendar (h.readPage_window hone (h.within_of_calendar hone hread))
  constructor
  · rintro ⟨page, hone, hle, hmem⟩
    rw [hwindow page hone hle, List.mem_take_iff_getElem] at hmem
    obtain ⟨i, hi, rfl⟩ := hmem
    have hbefore : step * (page - 1) ≤ step * (last - 1) :=
      Nat.mul_le_mul_left _ (by omega)
    simp only [List.length_drop] at hi
    rw [List.getElem_drop, List.mem_take_iff_getElem]
    exact ⟨step * (page - 1) + i, by omega, rfl⟩
  · intro hmem
    obtain ⟨i, hi, rfl⟩ := List.mem_take_iff_getElem.mp hmem
    -- the window that starts at most a step before the VEVENT, or the last one
    obtain ⟨page, hone, hle, hfrom, hto⟩ : ∃ page, 1 ≤ page ∧ page ≤ last ∧
        step * (page - 1) ≤ i ∧ i < step * (page - 1) + len := by
      rcases Nat.lt_or_ge (i / step) last with hearly | hlate
      · refine ⟨i / step + 1, Nat.succ_pos _, hearly, ?_, ?_⟩
        · rw [Nat.add_sub_cancel]
          exact Nat.mul_div_le i step
        · rw [Nat.add_sub_cancel]
          have := Nat.lt_mul_div_succ i (Nat.lt_of_lt_of_le Nat.zero_lt_one hstep)
          rw [Nat.mul_add, Nat.mul_one] at this
          omega
      · have hpast : step * (last - 1) ≤ i := by
          calc
            step * (last - 1) ≤ step * (i / step) := Nat.mul_le_mul_left _ (by omega)
            _ ≤ i := Nat.mul_div_le i step
        exact ⟨last, hlast, Nat.le_refl _, hpast, by omega⟩
    refine ⟨page, hone, hle, ?_⟩
    rw [hwindow page hone hle, List.mem_take_iff_getElem]
    refine ⟨i - step * (page - 1), by rw [List.length_drop]; omega, ?_⟩
    rw [List.getElem_drop]
    congr 1
    omega

/-- In a sorted list what starts before one of the first is one of the first. -/
theorem mem_take_of_start_lt (hsorted : events.Pairwise fun event later => start event ≤ start later)
    {count : Nat} {event first : Vevent} (hfirst : first ∈ events.take count)
    (hmem : event ∈ events) (hlt : start event < start first) : event ∈ events.take count := by
  rw [← List.take_append_drop count events] at hsorted hmem
  rcases List.mem_append.mp hmem with hmem | hmem
  · exact hmem
  · have hle := (List.pairwise_append.mp hsorted).2.2 first hfirst event hmem
    exact absurd hlt (Int.not_lt.mpr hle)

/-- The latest start merged from windows of a sorted list is that of one of the first. -/
theorem ServesWindows.latest_merged (h : ServesWindows reader events step len) (hstep : 1 ≤ step)
    (hlen : step ≤ len) (hsorted : SortedBy crates start events) {last : Nat} (hlast : 0 < last)
    (hpages : reader.CalendarsThrough last) :
    ∃ merged ∈ events.take (step * (last - 1) + len),
      (reader.mergedThrough crates last).latestStart = some (start merged) := by
  have hlisted : ∀ merged ∈ (reader.mergedThrough crates last).calendar,
      merged ∈ events.take (step * (last - 1) + len) ∧
        getDateProperty crates merged "DTSTART" = some (start merged) := by
    intro merged hmerged
    have hmem := (h.mem_pages_iff hstep hlen hlast hpages merged).mp (mem_mergedThrough hmerged)
    exact ⟨hmem, hsorted.readable merged (List.mem_of_mem_take hmem)⟩
  cases hlatest : (reader.mergedThrough crates last).latestStart with
  | some latest =>
    have hstarts := ((Merger.latestStart_eq_some_iff _ latest).mp hlatest).1
    obtain ⟨merged, hmerged, hstart⟩ := List.mem_filterMap.mp hstarts
    obtain ⟨hmem, hreadable⟩ := hlisted merged hmerged
    rw [hstart] at hreadable
    exact ⟨merged, hmem, hreadable⟩
  | none =>
    -- the first page lists the first VEVENT, so something with a start was merged
    exfalso
    obtain ⟨listed, hread⟩ := hpages 1 (Nat.le_refl _) hlast
    have hwithin := h.within_of_calendar (Nat.le_refl _) hread
    rw [Nat.sub_self, Nat.mul_zero] at hwithin
    have hfirst : events[0] ∈ events.take (step * (last - 1) + len) :=
      List.mem_take_iff_getElem.mpr ⟨0, by omega, rfl⟩
    obtain ⟨page, hone, hle, hpage⟩ :=
      (h.mem_pages_iff hstep hlen hlast hpages events[0]).mpr hfirst
    have hkey : eventKey events[0] ∈
        (reader.mergedThrough crates last).calendar.map eventKey :=
      (mergedThrough_holds last).kept page hone (by omega) _ hpage
    obtain ⟨merged, hmerged, _⟩ := List.mem_map.mp hkey
    have hnone := (Merger.latestStart_eq_none_iff _).mp hlatest
    have hsome : start merged ∈ startsOf crates (reader.mergedThrough crates last).calendar :=
      List.mem_filterMap.mpr ⟨merged, hmerged, (hlisted merged hmerged).2⟩
    rw [hnone] at hsome
    cases hsome

/-- Of windows of a sorted list everything that starts before the horizon is merged. -/
theorem ServesWindows.covered (h : ServesWindows reader events step len) (hstep : 1 ≤ step)
    (hlen : step ≤ len) (hsorted : SortedBy crates start events) {perBatch maxPages : Nat}
    (hbatch : 0 < perBatch) (hmax : 1 ≤ maxPages) {now : Instant} {paged : PagedCalendar}
    (hok : collectPagesBy reader crates perBatch maxPages now = .ok paged) {event : Vevent}
    (hmem : event ∈ events)
    (hbefore : ∀ horizon, paged.coverageHorizon = some horizon → start event < horizon) :
    eventKey event ∈ paged.calendar.map eventKey := by
  obtain ⟨last, reachedEnd, hpages, rfl, hend, hopen⟩ := collectPagesBy_ok hbatch hok
  have hlast : 0 < last := by
    cases reachedEnd with
    | false => exact hopen rfl hmax
    | true =>
      have := (readPage_endOfFeed (hend rfl)).1
      omega
  have hfirst : event ∈ events.take (step * (last - 1) + len) := by
    cases reachedEnd with
    | true =>
      have hpast : ¬ step * last < events.length := by
        intro hwithin
        have hwindow := h.readPage_window (Nat.succ_pos last) hwithin
        rw [hend rfl] at hwindow
        cases hwindow
      have hprev : step * last = step * (last - 1) + step := by
        rw [← Nat.mul_succ, Nat.succ_eq_add_one, Nat.sub_add_cancel hlast]
      rw [List.take_of_length_le (by omega)]
      exact hmem
    | false =>
      -- the horizon is the start of a VEVENT that was merged
      obtain ⟨merged, hlisted, hlatest⟩ := h.latest_merged hstep hlen hsorted hlast hpages
      have hhorizon := hbefore (start merged) (by
        simp only [PageReader.pagedThrough, hlatest, Option.getD_some]
        rfl)
      exact mem_take_of_start_lt hsorted.sorted hlisted hmem hhorizon
  obtain ⟨page, hone, hle, hpage⟩ := (h.mem_pages_iff hstep hlen hlast hpages event).mpr hfirst
  exact (mergedThrough_holds last).kept page hone (by omega) event hpage

/-- A site with something to list is collected without a failure. -/
theorem ServesWindows.collected (h : ServesWindows reader events step len)
    (hsome : events ≠ []) {perBatch : Nat} (hbatch : 0 < perBatch) (maxPages : Nat)
    (now : Instant) :
    ∃ paged, collectPagesBy reader crates perBatch maxPages now = .ok paged := by
  have hend := batches_end crates reader hbatch maxPages
  rw [collectPagesBy]
  generalize fetchBatches reader perBatch maxPages maxPages 1 _ 0 = outcome at hend
  cases hend with
  | stopped progress last hexamined hstalled hopen hle hboundary hstop => exact ⟨_, rfl⟩
  | reachedEnd progress last lastPageFetched hexamined hend hlt => exact ⟨_, rfl⟩
  | failed status last hcalendars hread hlt =>
    exfalso
    by_cases hwithin : step * (last + 1 - 1) < events.length
    · rw [h.readPage_window (by omega) hwithin] at hread
      cases hread
    · have hlast : 0 < last := by
        apply Nat.pos_of_ne_zero
        rintro rfl
        have := List.length_pos_iff.mpr hsome
        rw [Nat.zero_add, Nat.sub_self, Nat.mul_zero] at hwithin
        exact hwithin this
      rw [h.readPage_past (by omega) (Nat.not_lt.mp hwithin)] at hread
      cases hread

end

/-- What a collection of pages promises: it is complete only with all pages before an empty
one, a page that fails in order fails it, the size of a batch matters only if a page adds
nothing new, and of windows of a sorted list it covers everything before its horizon. Pages
count as reached some pages past the batch of one that added nothing new. -/
structure CollectsPages (more : Nat) (crates : CalendarCrates) (reader : PageReader)
    (maxPages : Nat) (now : Instant) : Prop where
  complete : ∀ paged, collectPages reader crates maxPages now = .ok paged →
    paged.coverageHorizon = none → ∃ page, 1 < page ∧
      (∃ body, reader.fetchPage page = .ok body ∧ (trim body).isEmpty = true) ∧
      reader.CalendarsThrough (page - 1) ∧ HoldsPagesBefore reader paged.calendar page
  failing : ∀ page status, 1 ≤ page → page ≤ maxPages →
    Reached crates reader pagesPerBatch more page → reader.readPage page = .error status →
    ∃ reply, collectPages reader crates maxPages now = .error reply
  batches : EveryPageAdds crates reader maxPages →
    collectPages reader crates maxPages now = collectPagesBy reader crates 1 maxPages now
  windows : ∀ events start step len, ServesWindows reader events step len → 1 ≤ step →
    step ≤ len → SortedBy crates start events → 1 ≤ maxPages →
    (events ≠ [] → ∃ paged, collectPages reader crates maxPages now = .ok paged) ∧
    ∀ paged, collectPages reader crates maxPages now = .ok paged → ∀ event ∈ events,
      (∀ horizon, paged.coverageHorizon = some horizon → start event < horizon) →
      eventKey event ∈ paged.calendar.map eventKey

/-- A collection keeps its promises, for the failures of the pages its batches reach. -/
theorem collectsPages (crates : CalendarCrates) (reader : PageReader) (maxPages : Nat)
    (now : Instant) : CollectsPages 0 crates reader maxPages now where
  complete paged hok hnone := by
    obtain ⟨last, reachedEnd, hcalendars, rfl, hend, _⟩ :=
      collectPagesBy_ok (Nat.succ_pos 3 : 0 < pagesPerBatch) hok
    cases reachedEnd with
    | false => cases hnone
    | true =>
      obtain ⟨hlater, hbody⟩ := readPage_endOfFeed (hend rfl)
      exact ⟨last + 1, hlater, hbody, hcalendars, mergedThrough_holds last⟩
  failing page status hone hle hreached hread :=
    ⟨status, collectPagesBy_failing (by decide) hone hle hreached hread⟩
  batches hadds := collectPagesBy_eq_of_everyPageAdds now (by decide) (by decide) hadds
  windows events start step len hserves hstep hlen hsorted hmax := by
    refine ⟨fun hsome => hserves.collected hsome (by decide) maxPages now, ?_⟩
    intro paged hok event hmem hbefore
    exact hserves.covered hstep hlen hsorted (by decide) hmax hok hmem hbefore

/-- A site that serves the same VEVENT on every page and fails on the fifth. -/
def repeatingSite : PageReader where
  fetchPage pageNumber :=
    if pageNumber = 5 then
      .error { code := .failedPrecondition, message := "stellarwp_fetch_failed" }
    else .ok "BEGIN:VCALENDAR"
  parse _ := some [sampleVevent [("UID", "meeting"), ("DTSTART", "20260105T100000Z")]]

/-- The failure of the fifth page, reached while looking for the end of the feed, is no failure
of the collection. -/
theorem repeatingSite_collects_despite_failure :
    ¬ ∀ (crates : CalendarCrates) (reader : PageReader) (maxPages : Nat) (now : Instant),
      CollectsPages stallProbePages crates reader maxPages now := by
  intro h
  have hreached : Reached sampleCrates repeatingSite pagesPerBatch stallProbePages 5 := by
    constructor
    · intro page _ hle
      refine ⟨[sampleVevent [("UID", "meeting"), ("DTSTART", "20260105T100000Z")]], ?_⟩
      have hother : page ≠ 5 := by omega
      simp only [PageReader.readPage, repeatingSite, if_neg hother]
      rfl
    · intro stalled hone hlt _
      have hpos : 0 < (stalled + pagesPerBatch - 1) / pagesPerBatch :=
        Nat.div_pos (by rw [pagesPerBatch]; omega) (by decide)
      simp only [batchEnd, pagesPerBatch, stallProbePages] at hpos ⊢
      omega
  obtain ⟨reply, hfails⟩ := (h sampleCrates repeatingSite 8 0).failing 5
    { code := .failedPrecondition, message := "stellarwp_fetch_failed" } (by decide) (by decide)
    hreached rfl
  have hok : (collectPages repeatingSite sampleCrates 8 0).isOk = true := by
    rfl
  rw [hfails] at hok
  cases hok

end Rellm.Paging
