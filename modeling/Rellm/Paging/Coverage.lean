import Rellm.Paging.CollectPages

/-!
# What a collection covers

A complete collection holds the VEVENTs of all pages before the empty one, a page the
batches reach that fails fails the collection, and the size of a batch does not matter
as long as every page adds something.
-/

namespace Rellm.Paging

open Calendar

section

variable {crates : CalendarCrates} {reader : PageReader}

/-- What is merged comes from one of the pages. -/
theorem mem_mergedThrough {last : Nat} {event : Vevent}
    (h : event ∈ (reader.mergedThrough crates last).calendar) :
    ∃ page, 1 ≤ page ∧ page ≤ last ∧ event ∈ reader.pageEvents page := by
  induction last with
  | zero => cases h
  | succ last ih =>
    rcases Merger.mem_absorb h with hold | hnew
    · obtain ⟨page, hone, hle, hpage⟩ := ih hold
      exact ⟨page, hone, by omega, hpage⟩
    · exact ⟨last + 1, by omega, Nat.le_refl _, hnew⟩

/-- The keys merged are those of the pages. -/
theorem mem_keys_mergedThrough (last : Nat) (key : String) :
    key ∈ (reader.mergedThrough crates last).seenKeys ↔
      ∃ page, 1 ≤ page ∧ page ≤ last ∧ key ∈ (reader.pageEvents page).map eventKey := by
  induction last with
  | zero =>
    refine iff_of_false List.not_mem_nil ?_
    rintro ⟨page, hone, hle, _⟩
    omega
  | succ last ih =>
    rw [PageReader.mergedThrough, Merger.mem_seenKeys_absorb, ih]
    constructor
    · rintro (⟨page, hone, hle, hpage⟩ | hnew)
      · exact ⟨page, hone, by omega, hpage⟩
      · exact ⟨last + 1, by omega, Nat.le_refl _, hnew⟩
    · rintro ⟨page, hone, hle, hpage⟩
      rcases Nat.lt_or_eq_of_le hle with hlt | rfl
      · exact .inl ⟨page, hone, by omega, hpage⟩
      · exact .inr hpage

/-- A page that is empty is not the first, and has an empty body. -/
theorem readPage_endOfFeed {page : Nat} (h : reader.readPage page = .ok .endOfFeed) :
    1 < page ∧ ∃ body, reader.fetchPage page = .ok body ∧ (trim body).isEmpty = true := by
  rw [PageReader.readPage] at h
  cases hfetch : reader.fetchPage page with
  | error status =>
    rw [hfetch] at h
    cases h
  | ok body =>
    simp only [hfetch, bind, Except.bind, PageReader.classifyPage, PageReader.parseCalendar] at h
    split at h
    · rename_i hempty
      split at h
      · exact ⟨‹_›, body, rfl, hempty⟩
      · cases h
    · cases hparse : reader.parse body <;> simp [hparse, Except.map] at h

/-- The calendar holds exactly the distinct VEVENTs of the pages before one, each once. -/
structure HoldsPagesBefore (reader : PageReader) (calendar : List Vevent) (page : Nat) :
    Prop where
  distinct : (calendar.map eventKey).Nodup
  listed : ∀ event ∈ calendar, ∃ earlier, 1 ≤ earlier ∧ earlier < page ∧
    event ∈ reader.pageEvents earlier
  kept : ∀ earlier, 1 ≤ earlier → earlier < page → ∀ event ∈ reader.pageEvents earlier,
    eventKey event ∈ calendar.map eventKey

/-- The merged pages are held. -/
theorem mergedThrough_holds (last : Nat) :
    HoldsPagesBefore reader (reader.mergedThrough crates last).calendar (last + 1) where
  distinct := by
    rw [← (reader.mergedThrough crates last).seen]
    exact (reader.mergedThrough crates last).nodup
  listed event hmem := by
    obtain ⟨page, hone, hle, hpage⟩ := mem_mergedThrough hmem
    exact ⟨page, hone, by omega, hpage⟩
  kept page hone hlt event hmem := by
    rw [← (reader.mergedThrough crates last).seen, mem_keys_mergedThrough]
    exact ⟨page, hone, by omega, List.mem_map_of_mem hmem⟩

/-- The last page of the batch that a page is in. -/
def batchEnd (perBatch page : Nat) : Nat := (page + perBatch - 1) / perBatch * perBatch

/-- Up to the end of its batch a page is followed by the pages of its batch. -/
theorem batchEnd_le {perBatch page last : Nat} (hbatch : 0 < perBatch) (hle : page ≤ last)
    (hdvd : perBatch ∣ last) : batchEnd perBatch page ≤ last := by
  obtain ⟨count, rfl⟩ := hdvd
  rw [batchEnd, Nat.mul_comm perBatch]
  apply Nat.mul_le_mul_right
  apply Nat.le_of_lt_succ
  rw [Nat.div_lt_iff_lt_mul hbatch, Nat.succ_mul, Nat.mul_comm count]
  omega

/-- A page is reached in order: each page before it is a calendar, and one that adds nothing
new is in its batch, or in one that ends few pages before. -/
def Reached (crates : CalendarCrates) (reader : PageReader) (perBatch more page : Nat) : Prop :=
  reader.CalendarsThrough (page - 1) ∧ ∀ stalled, 1 ≤ stalled → stalled < page →
    reader.AddsNothing crates stalled → page ≤ batchEnd perBatch stalled + more

/-- No page up to the last, with calendars only before it, adds nothing new. -/
def EveryPageAdds (crates : CalendarCrates) (reader : PageReader) (maxPages : Nat) : Prop :=
  ∀ page, 1 ≤ page → page ≤ maxPages → reader.CalendarsThrough page →
    ¬ reader.AddsNothing crates page

/-- The first pages are calendars up to the first that is not. -/
theorem last_unique {last other : Nat} (hlast : reader.CalendarsThrough last)
    (hother : reader.CalendarsThrough other)
    (hstop : ∀ events, reader.readPage (last + 1) ≠ .ok (.calendar events))
    (hstop' : ∀ events, reader.readPage (other + 1) ≠ .ok (.calendar events)) : last = other := by
  rcases Nat.lt_trichotomy last other with hlt | heq | hgt
  · obtain ⟨events, hread⟩ := hother (last + 1) (by omega) (by omega)
    exact absurd hread (hstop events)
  · exact heq
  · obtain ⟨events, hread⟩ := hlast (other + 1) (by omega) (by omega)
    exact absurd hread (hstop' events)

/-- A failing page that the batches reach fails the collection. -/
theorem collectPagesBy_failing {perBatch maxPages page : Nat} {now : Instant} {status : Status}
    (hbatch : 0 < perBatch) (hone : 1 ≤ page) (hle : page ≤ maxPages)
    (hreached : Reached crates reader perBatch 0 page)
    (hread : reader.readPage page = .error status) :
    collectPagesBy reader crates perBatch maxPages now = .error status := by
  obtain ⟨hcalendars, hstalledBefore⟩ := hreached
  obtain ⟨before, rfl⟩ : ∃ before, page = before + 1 := ⟨page - 1, by omega⟩
  rw [Nat.add_sub_cancel] at hcalendars
  have hfails : ∀ events, reader.readPage (before + 1) ≠ .ok (.calendar events) := by
    intro events hcalendar
    rw [hread] at hcalendar
    cases hcalendar
  have hend := batches_end crates reader hbatch maxPages
  rw [collectPagesBy]
  generalize fetchBatches reader perBatch maxPages maxPages 1 _ 0 = outcome at hend
  cases hend with
  | stopped progress last hexamined hstalled hopen hlast hboundary hstop =>
    have hshort : last ≤ before := by
      by_contra hlong
      obtain ⟨events, hcalendar⟩ := hexamined.calendars (before + 1) hone (by omega)
      exact hfails events hcalendar
    obtain ⟨stalled, hfirst, hwithin, hadds⟩ := hstalled.mp (hstop.resolve_right (by omega))
    have hin := hstalledBefore stalled hfirst (by omega) hadds
    have hdone := batchEnd_le hbatch hwithin (hboundary.resolve_right (by omega))
    omega
  | reachedEnd progress last lastPageFetched hexamined hend hlt =>
    have hempty := hexamined.ended hend
    have hsame := last_unique hexamined.calendars hcalendars (fun events hcalendar => by
      rw [hempty] at hcalendar
      cases hcalendar) hfails
    rw [hsame, hread] at hempty
    cases hempty
  | failed other last hother hotherRead hlt =>
    have hsame := last_unique hother hcalendars (fun events hcalendar => by
      rw [hotherRead] at hcalendar
      cases hcalendar) hfails
    rw [hsame, hread] at hotherRead
    rw [Except.error.inj hotherRead]
    rfl

variable (crates) (reader) in
/-- The outcome of a collection that stops after the first pages. -/
def outcomeAfter (maxPages : Nat) (now : Instant) (last : Nat) : Except Status PagedCalendar :=
  if last = maxPages then .ok (reader.pagedThrough crates now last false)
  else match reader.readPage (last + 1) with
    | .ok _ => .ok (reader.pagedThrough crates now last true)
    | .error status => .error status

/-- As long as every page adds something, a collection stops at the last page or at the first
that is no calendar. -/
theorem collectPagesBy_of_everyPageAdds {perBatch maxPages : Nat} (now : Instant)
    (hbatch : 0 < perBatch) (hadds : EveryPageAdds crates reader maxPages) :
    ∃ last, last ≤ maxPages ∧ reader.CalendarsThrough last ∧
      (last ≠ maxPages → ∀ events, reader.readPage (last + 1) ≠ .ok (.calendar events)) ∧
      collectPagesBy reader crates perBatch maxPages now =
        outcomeAfter crates reader maxPages now last := by
  have hend := batches_end crates reader hbatch maxPages
  rw [collectPagesBy]
  generalize fetchBatches reader perBatch maxPages maxPages 1 _ 0 = outcome at hend
  cases hend with
  | stopped progress last hexamined hstalled hopen hle hboundary hstop =>
    have hgoing : progress.stalled = false := by
      rw [← Bool.not_eq_true]
      intro hstall
      obtain ⟨page, hone, hpage, hnothing⟩ := hstalled.mp hstall
      refine hadds page hone (by omega) (fun earlier hfirst hearlier => ?_) hnothing
      exact hexamined.calendars earlier hfirst (by omega)
    obtain rfl := hstop.resolve_left (by rw [hgoing]; exact Bool.false_ne_true)
    refine ⟨last, hle, hexamined.calendars, fun hne => absurd rfl hne, ?_⟩
    simp [bind, Except.bind, outcomeAfter, PageReader.pagedThrough, hgoing, hopen,
      hexamined.merged]
  | reachedEnd progress last lastPageFetched hexamined hend hlt =>
    have hempty := hexamined.ended hend
    refine ⟨last, Nat.le_of_lt hlt, hexamined.calendars, fun _ events => ?_, ?_⟩
    · simp [hempty]
    · simp [bind, Except.bind, outcomeAfter, PageReader.pagedThrough, hend, hempty,
        Nat.ne_of_lt hlt, hexamined.merged]
  | failed status last hcalendars hread hlt =>
    refine ⟨last, Nat.le_of_lt hlt, hcalendars, fun _ events => ?_, ?_⟩
    · simp [hread]
    · simp [bind, Except.bind, outcomeAfter, hread, Nat.ne_of_lt hlt]

/-- As long as every page adds something, the size of a batch does not matter. -/
theorem collectPagesBy_eq_of_everyPageAdds {perBatch other maxPages : Nat} (now : Instant)
    (hbatch : 0 < perBatch) (hother : 0 < other) (hadds : EveryPageAdds crates reader maxPages) :
    collectPagesBy reader crates perBatch maxPages now =
      collectPagesBy reader crates other maxPages now := by
  obtain ⟨last, hle, hcalendars, hstop, houtcome⟩ :=
    collectPagesBy_of_everyPageAdds now hbatch hadds
  obtain ⟨last', hle', hcalendars', hstop', houtcome'⟩ :=
    collectPagesBy_of_everyPageAdds now hother hadds
  have hsame : last = last' := by
    rcases Nat.lt_trichotomy last last' with hlt | heq | hgt
    · obtain ⟨events, hread⟩ := hcalendars' (last + 1) (by omega) (by omega)
      exact absurd hread (hstop (by omega) events)
    · exact heq
    · obtain ⟨events, hread⟩ := hcalendars (last' + 1) (by omega) (by omega)
      exact absurd hread (hstop' (by omega) events)
  rw [houtcome, houtcome', hsame]

end

end Rellm.Paging
