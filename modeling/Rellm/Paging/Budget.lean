import Mathlib.Algebra.GroupWithZero.Nat
import Mathlib.Data.Nat.Find
import Rellm.Calendar.Overrides
import Rellm.Paging.Coverage

/-!
# The page budget of a collection

The pages that a collection fetches: those of each batch at once, and then one by one those that it
looks at after a batch with a page that added nothing new. Page numbers are words of 32 bits.
-/

namespace Rellm.Paging

open Calendar

section

variable {crates : CalendarCrates} (reader : PageReader)

/-- The batches from one page on, with the last page of them and the pages that were fetched; none
while there are more batches than the fuel. -/
def fetchBatchesLogged (maxPages : UInt32) : Nat → UInt32 → Progress crates → UInt32 → List Nat →
    Option (Except Status (Progress crates × UInt32) × List Nat)
  | 0, _, _, _, _ => none
  | fuel + 1, batchStart, progress, lastPageFetched, fetched =>
    if batchStart ≤ maxPages ∧ progress.stalled = false then
      let batchEnd := min maxPages (batchStart + UInt32.ofNat pagesPerBatch - 1)
      let batch := List.range' batchStart.toNat (batchEnd.toNat + 1 - batchStart.toNat)
      let lastPageFetched := if batch.isEmpty then lastPageFetched else batchEnd
      match examineBatch reader progress batch with
      | .error status => some (.error status, fetched ++ batch)
      | .ok progress =>
        if progress.reachedEnd then some (.ok (progress, lastPageFetched), fetched ++ batch)
        else fetchBatchesLogged maxPages fuel (batchStart + UInt32.ofNat pagesPerBatch) progress
          lastPageFetched (fetched ++ batch)
    else some (.ok (progress, lastPageFetched), fetched)

/-- More pages, one at a time, with those that were fetched. -/
def probeLogged (progress : Progress crates) : List Nat → Progress crates × List Nat
  | [] => (progress, [])
  | pageNumber :: pages =>
    match reader.readPage pageNumber with
    | .error _ => (progress, [pageNumber])
    | .ok .endOfFeed => ({ progress with reachedEnd := true }, [pageNumber])
    | .ok (.calendar events) =>
      let probed := probeLogged { progress with merger := (progress.merger.absorb events).1 } pages
      (probed.1, pageNumber :: probed.2)

/-- The pages of a feed, merged, with the pages that were fetched. -/
def collectPagesLogged (crates : CalendarCrates) (maxPages : UInt32) (now : Instant) (fuel : Nat) :
    Option (Except Status PagedCalendar × List Nat) := do
  let start : Progress crates := { merger := .new, reachedEnd := false, stalled := false }
  let (outcome, fetched) ← fetchBatchesLogged reader maxPages fuel 1 start 0 []
  match outcome with
  | .error status => return (.error status, fetched)
  | .ok (progress, lastPageFetched) =>
    let first := lastPageFetched + 1
    let last := lastPageFetched + UInt32.ofNat stallProbePages
    let (progress, probed) :=
      if progress.stalled && !progress.reachedEnd then
        probeLogged reader progress (List.range' first.toNat (last.toNat + 1 - first.toNat))
      else (progress, [])
    return (.ok {
      calendar := progress.merger.calendar
      coverageHorizon :=
        if progress.reachedEnd then none else some (progress.merger.latestStart.getD now) },
      fetched ++ probed)

/-- A collection ends, and fetches no page but those of its budget, each at most once. -/
def WithinBudget (crates : CalendarCrates) (maxPages : UInt32) (now : Instant) : Prop :=
  ∃ fuel outcome fetched,
    collectPagesLogged reader crates maxPages now fuel = some (outcome, fetched) ∧
      (∀ page ∈ fetched, 1 ≤ page ∧ page ≤ maxPages.toNat) ∧ fetched.Nodup

/-- The last page of the batch that a page is in. -/
def lastOfBatch (maxPages page : Nat) : Nat := min maxPages (batchEnd pagesPerBatch page)

/-- The first page that adds nothing new. -/
structure FirstStall (crates : CalendarCrates) (page : Nat) : Prop where
  pos : 1 ≤ page
  addsNothing : reader.AddsNothing crates page
  first : ∀ earlier, 1 ≤ earlier → earlier < page → ¬ reader.AddsNothing crates earlier

/-- Every page of the budget is a calendar, and the pages that are looked at after the batch with the
first page that adds nothing new go past the budget. -/
def ProbesPast (crates : CalendarCrates) (maxPages : Nat) : Prop :=
  reader.CalendarsThrough maxPages ∧ ∃ page, FirstStall reader crates page ∧ page ≤ maxPages ∧
    maxPages < lastOfBatch maxPages page + stallProbePages ∧
    lastOfBatch maxPages page + stallProbePages < 2 ^ 32

/-- All pages of the batches before the last page numbers are calendars that add something new, so
that the next batch starts over at the first page. -/
def StartsOver (crates : CalendarCrates) (maxPages : Nat) : Prop :=
  2 ^ 32 - 3 ≤ maxPages ∧ reader.CalendarsThrough (2 ^ 32 - 4) ∧
    ∀ page, 1 ≤ page → page ≤ 2 ^ 32 - 4 → ¬ reader.AddsNothing crates page

/-- What the batches before a page have left: all pages up to the last one are fetched and examined,
and if one of them added nothing new, the last one ends its batch. -/
structure BatchesDone (maxPages : UInt32) (progress : Progress crates) (last : UInt32)
    (fetched : List Nat) : Prop where
  examined : Examined reader progress last.toNat
  stalled : StalledWithin reader progress last.toNat
  reachedEnd : progress.reachedEnd = false
  early : ∀ page, 1 ≤ page → page ≤ last.toNat → reader.AddsNothing crates page →
    last.toNat ≤ lastOfBatch maxPages.toNat page
  fetched : fetched = List.range' 1 last.toNat
  boundary : pagesPerBatch ∣ last.toNat ∨ last = maxPages
  within : last.toNat ≤ maxPages.toNat
  small : last.toNat ≤ 2 ^ 32 - 4

/-- How the batches can end with some fuel left: they still run, they stopped, they came to a page
that is past the end of the feed or fails, or they started over. -/
inductive BatchesLogged (maxPages last : UInt32) (fuel : Nat) :
    Option (Except Status (Progress crates × UInt32) × List Nat) → Prop where
  | running (hfuel : fuel ≤ maxPages.toNat - last.toNat) : BatchesLogged maxPages last fuel none
  | stopped (progress : Progress crates) (last' : UInt32) (fetched : List Nat)
      (hdone : BatchesDone reader maxPages progress last' fetched)
      (hstop : progress.stalled = true ∨ last' = maxPages) :
      BatchesLogged maxPages last fuel (some (.ok (progress, last'), fetched))
  | ended (outcome : Except Status (Progress crates × UInt32)) (page last' : Nat)
      (houtcome : ∀ progress last, outcome = .ok (progress, last) → progress.reachedEnd = true)
      (hend : ∀ events, reader.readPage (page + 1) ≠ .ok (.calendar events))
      (hpage : page < last') (hlast : last' ≤ maxPages.toNat) (hsmall : last' ≤ 2 ^ 32 - 4) :
      BatchesLogged maxPages last fuel (some (outcome, List.range' 1 last'))
  | startedOver (result : Option (Except Status (Progress crates × UInt32) × List Nat))
      (hstartsOver : StartsOver reader crates maxPages.toNat)
      (hdup : ∀ outcome fetched, result = some (outcome, fetched) → ¬ fetched.Nodup) :
      BatchesLogged maxPages last fuel result

end

section

variable {crates : CalendarCrates} {reader : PageReader}

theorem toNat_min (a b : UInt32) : (min a b).toNat = min a.toNat b.toNat := by
  have hmin : min a b = if a ≤ b then a else b := rfl
  rw [hmin, Nat.min_def]
  simp only [UInt32.le_iff_toNat_le]
  split <;> rfl

/-- What was fetched stays fetched. -/
theorem prefix_of_fetchBatchesLogged {maxPages batchStart last : UInt32} {fuel : Nat}
    {progress : Progress crates} {fetched fetched' : List Nat}
    {outcome : Except Status (Progress crates × UInt32)}
    (h : fetchBatchesLogged reader maxPages fuel batchStart progress last fetched =
      some (outcome, fetched')) : fetched <+: fetched' := by
  induction fuel generalizing batchStart progress last fetched with
  | zero => cases h
  | succ fuel ih =>
    rw [fetchBatchesLogged] at h
    split at h
    · dsimp only at h
      split at h
      · cases h
        exact List.prefix_append _ _
      · split at h
        · cases h
          exact List.prefix_append _ _
        · exact (List.prefix_append _ _).trans (ih h)
    · cases h
      exact List.prefix_refl _

/-- The pages of a batch are fetched. -/
theorem append_prefix_of_fetchBatchesLogged {maxPages batchStart last : UInt32} {fuel : Nat}
    {progress : Progress crates} {fetched fetched' : List Nat}
    {outcome : Except Status (Progress crates × UInt32)}
    (hmore : batchStart ≤ maxPages ∧ progress.stalled = false)
    (h : fetchBatchesLogged reader maxPages (fuel + 1) batchStart progress last fetched =
      some (outcome, fetched')) :
    fetched ++ List.range' batchStart.toNat
      ((min maxPages (batchStart + UInt32.ofNat pagesPerBatch - 1)).toNat + 1 - batchStart.toNat) <+:
      fetched' := by
  rw [fetchBatchesLogged, if_pos hmore] at h
  dsimp only at h
  split at h
  · cases h
    exact List.prefix_refl _
  · split at h
    · cases h
      exact List.prefix_refl _
    · exact prefix_of_fetchBatchesLogged h

/-- The batch after the last page numbers is empty, and the next one is the first. -/
theorem fetchBatchesLogged_wrap {maxPages last : UInt32} (hmax : 2 ^ 32 - 3 ≤ maxPages.toNat)
    {progress : Progress crates} (hstalled : progress.stalled = false)
    (hopen : progress.reachedEnd = false) (fuel : Nat) (fetched : List Nat) :
    fetchBatchesLogged reader maxPages (fuel + 1) (UInt32.ofNat (2 ^ 32 - 3)) progress last fetched =
      fetchBatchesLogged reader maxPages fuel 1 progress last fetched := by
  have hle : UInt32.ofNat (2 ^ 32 - 3) ≤ maxPages := by
    rw [UInt32.le_iff_toNat_le]
    exact hmax
  have hempty : List.range' (UInt32.ofNat (2 ^ 32 - 3)).toNat
      ((min maxPages (UInt32.ofNat (2 ^ 32 - 3) + UInt32.ofNat pagesPerBatch - 1)).toNat + 1 -
        (UInt32.ofNat (2 ^ 32 - 3)).toNat) = [] := by
    have hend : (UInt32.ofNat (2 ^ 32 - 3) + UInt32.ofNat pagesPerBatch - 1).toNat = 0 := by decide
    rw [toNat_min, hend, Nat.min_zero, List.range'_eq_nil_iff]
    decide
  have hnext : UInt32.ofNat (2 ^ 32 - 3) + UInt32.ofNat pagesPerBatch = 1 := by decide
  rw [fetchBatchesLogged, if_pos ⟨hle, hstalled⟩]
  simp only [hempty, examineBatch, hopen, List.isEmpty_nil, List.append_nil, Bool.false_eq_true,
    if_false, if_true]
  rw [hnext]

/-- Batches that start over fetch the first page again. -/
theorem not_nodup_of_startsOver {maxPages last : UInt32} {fuel : Nat} {progress : Progress crates}
    {fetched fetched' : List Nat} {outcome : Except Status (Progress crates × UInt32)}
    (hmax : 2 ^ 32 - 3 ≤ maxPages.toNat) (hstalled : progress.stalled = false)
    (hopen : progress.reachedEnd = false) (hfirst : 1 ∈ fetched)
    (h : fetchBatchesLogged reader maxPages fuel (UInt32.ofNat (2 ^ 32 - 3)) progress last fetched =
      some (outcome, fetched')) : ¬ fetched'.Nodup := by
  cases fuel with
  | zero => cases h
  | succ fuel =>
    rw [fetchBatchesLogged_wrap hmax hstalled hopen] at h
    cases fuel with
    | zero => cases h
    | succ fuel =>
      have hone : (1 : UInt32) ≤ maxPages := by
        rw [UInt32.le_iff_toNat_le]
        exact Nat.le_trans (by decide) hmax
      have hstarts := append_prefix_of_fetchBatchesLogged ⟨hone, hstalled⟩ h
      have hagain : 1 ∈ List.range' (1 : UInt32).toNat
          ((min maxPages (1 + UInt32.ofNat pagesPerBatch - 1)).toNat + 1 - (1 : UInt32).toNat) := by
        have hfour : (1 + UInt32.ofNat pagesPerBatch - 1).toNat = 4 := by decide
        have htoNat : (1 : UInt32).toNat = 1 := rfl
        rw [List.mem_range'_1, toNat_min, hfour, htoNat]
        omega
      intro hnodup
      have hboth := hnodup.sublist hstarts.sublist
      exact (List.nodup_append.mp hboth).2.2 1 hfirst 1 hagain rfl

/-- Fuel that was left at a later page was left before. -/
theorem BatchesLogged.of_later {maxPages last last' : UInt32} {fuel : Nat}
    {result : Option (Except Status (Progress crates × UInt32) × List Nat)}
    (h : BatchesLogged reader maxPages last' fuel result) (hlt : last.toNat < last'.toNat)
    (hle : last'.toNat ≤ maxPages.toNat) : BatchesLogged reader maxPages last (fuel + 1) result := by
  cases h with
  | running hfuel => exact .running (by omega)
  | stopped progress last'' fetched hdone hstop => exact .stopped progress last'' fetched hdone hstop
  | ended outcome page last'' houtcome hend hpage hlast hsmall =>
    exact .ended outcome page last'' houtcome hend hpage hlast hsmall
  | startedOver _ hstartsOver hdup => exact .startedOver _ hstartsOver hdup

/-- However the batches go from a state in which those before are done, they end in one of the
ways. -/
theorem fetchBatchesLogged_end (fuel : Nat) {maxPages batchStart last : UInt32}
    {progress : Progress crates} {fetched : List Nat}
    (h : BatchesDone reader maxPages progress last fetched)
    (hat : batchStart.toNat = last.toNat + 1 ∧ pagesPerBatch ∣ last.toNat ∨
      last = maxPages ∧ maxPages.toNat < batchStart.toNat) :
    BatchesLogged reader maxPages last fuel
      (fetchBatchesLogged reader maxPages fuel batchStart progress last fetched) := by
  induction fuel generalizing batchStart last progress fetched with
  | zero => exact .running (Nat.zero_le _)
  | succ fuel ih =>
    by_cases hmore : batchStart ≤ maxPages ∧ progress.stalled = false
    · have hstart := UInt32.le_iff_toNat_le.mp hmore.1
      obtain ⟨hstartAt, hdvd⟩ := hat.resolve_right fun hpast => by omega
      have hmultiple : 4 ∣ last.toNat := hdvd
      have hfour : (UInt32.ofNat pagesPerBatch).toNat = 4 := rfl
      have hone : (1 : UInt32).toNat = 1 := rfl
      have hclear : ∀ page, 1 ≤ page → page ≤ last.toNat → ¬ reader.AddsNothing crates page := by
        intro page hpos hpage hadds
        have hstalled := h.stalled.mpr ⟨page, hpos, hpage, hadds⟩
        rw [hmore.2] at hstalled
        cases hstalled
      by_cases hwraps : batchStart.toNat + 4 < 2 ^ 32
      · have hends : (batchStart + UInt32.ofNat pagesPerBatch - 1).toNat = last.toNat + 4 := by
          have hsum : (batchStart + UInt32.ofNat pagesPerBatch).toNat = batchStart.toNat + 4 := by
            rw [UInt32.toNat_add, hfour, Nat.mod_eq_of_lt hwraps]
          rw [UInt32.toNat_sub_of_le _ _ (UInt32.le_iff_toNat_le.mpr (by omega)), hsum, hone]
          omega
        obtain ⟨batchEnd, hbatchEnd⟩ : ∃ batchEnd, batchEnd =
            min maxPages (batchStart + UInt32.ofNat pagesPerBatch - 1) := ⟨_, rfl⟩
        have htoNat : batchEnd.toNat = min maxPages.toNat (last.toNat + 4) := by
          rw [hbatchEnd, toNat_min, hends]
        obtain ⟨count, hcount⟩ : ∃ count, batchEnd.toNat = last.toNat + count :=
          ⟨batchEnd.toNat - last.toNat, by omega⟩
        have hsmall := h.small
        have hrange : List.range' batchStart.toNat (batchEnd.toNat + 1 - batchStart.toNat) =
            List.range' (last.toNat + 1) count := by
          rw [hstartAt, hcount]
          congr 1
          omega
        have hsome : (List.range' (last.toNat + 1) count).isEmpty = false := by
          rw [List.isEmpty_eq_false_iff, Ne, List.range'_eq_nil_iff]
          omega
        have hfetched : fetched ++ List.range' (last.toNat + 1) count =
            List.range' 1 batchEnd.toNat := by
          rw [h.fetched, hcount, Nat.add_comm last.toNat 1, List.range'_append_1]
        rw [fetchBatchesLogged, if_pos hmore]
        simp only [← hbatchEnd, hrange, hsome, Bool.false_eq_true, if_false, hfetched]
        rcases examineBatch_cases count h.examined h.stalled h.reachedEnd with
          ⟨next, hok, hexamined, hstalled, hopen⟩ | ⟨next, page, hok, hexamined, hend, hlt⟩ |
          ⟨status, page, herror, hcalendars, hread, hlt⟩
        · simp only [hok, hopen, Bool.false_eq_true, if_false]
          have hdone : BatchesDone reader maxPages next batchEnd
              (List.range' 1 batchEnd.toNat) := by
            refine ⟨hcount ▸ hexamined, hcount ▸ hstalled, hopen, ?_, rfl, ?_, by omega, by omega⟩
            · intro page hpos hpage hadds
              have hafter : last.toNat < page := by
                by_contra hle
                exact hclear page hpos (Nat.not_lt.mp hle) hadds
              rw [lastOfBatch, Paging.batchEnd, pagesPerBatch]
              omega
            · by_cases hfull : last.toNat + 4 ≤ maxPages.toNat
              · left
                rw [pagesPerBatch]
                omega
              · exact .inr (UInt32.toNat_inj.mp (by omega))
          refine (ih hdone ?_).of_later (by omega) (by omega)
          have hnext : (batchStart + UInt32.ofNat pagesPerBatch).toNat = last.toNat + 5 := by
            rw [UInt32.toNat_add, hfour, Nat.mod_eq_of_lt hwraps]
            omega
          by_cases hfull : last.toNat + 4 ≤ maxPages.toNat
          · refine .inl ⟨by omega, ?_⟩
            rw [pagesPerBatch]
            omega
          · exact .inr ⟨UInt32.toNat_inj.mp (by omega), by omega⟩
        · simp only [hok, hend, if_true]
          refine .ended _ page _ ?_ ?_ (by omega) (by omega) (by omega)
          · rintro _ _ ⟨⟩
            exact hend
          · intro events hevents
            rw [hexamined.ended hend] at hevents
            cases hevents
        · simp only [herror]
          refine .ended _ page _ ?_ ?_ (by omega) (by omega) (by omega)
          · rintro _ _ ⟨⟩
          · intro events hevents
            rw [hread] at hevents
            cases hevents
      · have hlast : last.toNat = 2 ^ 32 - 4 := by
          have := h.small
          omega
        have hover : batchStart = UInt32.ofNat (2 ^ 32 - 3) := by
          apply UInt32.toNat_inj.mp
          rw [hstartAt, hlast]
          rfl
        refine .startedOver _ ⟨by omega, hlast ▸ h.examined.calendars, hlast ▸ hclear⟩ ?_
        intro outcome fetched' hresult
        have hmax : 2 ^ 32 - 3 ≤ maxPages.toNat := by omega
        have hfirst : 1 ∈ fetched := by
          rw [h.fetched, List.mem_range'_1]
          omega
        rw [hover] at hresult
        exact not_nodup_of_startsOver hmax hmore.2 h.reachedEnd hfirst hresult
    · rw [fetchBatchesLogged, if_neg hmore]
      refine .stopped progress last fetched h ?_
      by_cases hstalled : progress.stalled = true
      · exact .inl hstalled
      · rw [Bool.not_eq_true] at hstalled
        rcases hat with ⟨hstartAt, _⟩ | ⟨heq, _⟩
        · have hpast : ¬ batchStart ≤ maxPages := fun hle => hmore ⟨hle, hstalled⟩
          rw [UInt32.le_iff_toNat_le] at hpast
          have := h.within
          exact .inr (UInt32.toNat_inj.mp (by omega))
        · exact .inr heq

variable (reader) in
/-- The pages that are looked at go on while they are calendars. -/
theorem probeLogged_fetched (progress : Progress crates) (first count : Nat) :
    ∃ looked, (probeLogged reader progress (List.range' first count)).2 = List.range' first looked ∧
      looked ≤ count ∧
      (∀ page, first ≤ page → page + 1 < first + looked →
        ∃ events, reader.readPage page = .ok (.calendar events)) ∧
      (looked < count → ∃ page, first ≤ page ∧ page + 1 = first + looked ∧
        ∀ events, reader.readPage page ≠ .ok (.calendar events)) := by
  induction count generalizing progress first with
  | zero =>
    refine ⟨0, rfl, Nat.le_refl _, fun page _ hlt => ?_, nofun⟩
    omega
  | succ count ih =>
    rw [List.range'_succ, probeLogged]
    have hstops (hread : ∀ events, reader.readPage first ≠ .ok (.calendar events)) :
        (∀ page, first ≤ page → page + 1 < first + 1 →
          ∃ events, reader.readPage page = .ok (.calendar events)) ∧
        (1 < count + 1 → ∃ page, first ≤ page ∧ page + 1 = first + 1 ∧
          ∀ events, reader.readPage page ≠ .ok (.calendar events)) :=
      ⟨fun page _ _ => by omega, fun _ => ⟨first, Nat.le_refl _, rfl, hread⟩⟩
    cases hread : reader.readPage first with
    | error status =>
      refine ⟨1, rfl, Nat.le_add_left _ _, hstops fun events heq => ?_⟩
      rw [hread] at heq
      cases heq
    | ok body =>
      cases body with
      | endOfFeed =>
        refine ⟨1, rfl, Nat.le_add_left _ _, hstops fun events heq => ?_⟩
        rw [hread] at heq
        cases heq
      | calendar events =>
        obtain ⟨looked, hfetched, hle, hbefore, hafter⟩ :=
          ih { progress with merger := (progress.merger.absorb events).1 } (first + 1)
        refine ⟨looked + 1, ?_, Nat.succ_le_succ hle, ?_, ?_⟩
        · dsimp only
          rw [hfetched, List.range'_succ]
        · intro page hfirst hlt
          rcases Nat.eq_or_lt_of_le hfirst with rfl | hlater
          · exact ⟨events, hread⟩
          · exact hbefore page hlater (by omega)
        · intro hlt
          obtain ⟨page, hfirst, heq, hpage⟩ := hafter (by omega)
          exact ⟨page, by omega, by omega, hpage⟩

variable (reader) (crates) in
/-- The batches of a whole collection, with the pages they fetch. -/
theorem batchesLogged_end (maxPages : UInt32) (fuel : Nat) :
    BatchesLogged reader maxPages 0 fuel (fetchBatchesLogged reader maxPages fuel 1
      { merger := (.new : Merger crates), reachedEnd := false, stalled := false } 0 []) := by
  have hzero : (0 : UInt32).toNat = 0 := rfl
  refine fetchBatchesLogged_end fuel ⟨⟨?_, rfl, nofun⟩, ?_, rfl, ?_, rfl, .inl (Nat.dvd_zero _), ?_, ?_⟩
    (.inl ⟨rfl, Nat.dvd_zero _⟩)
  · intro page hone hle
    omega
  · refine iff_of_false Bool.false_ne_true ?_
    rintro ⟨page, hone, hle, _⟩
    omega
  · intro page hone hle
    omega
  · omega
  · omega

/-- Batches that stopped at a page that adds nothing new have the first such page in their last
batch. -/
theorem BatchesDone.exists_firstStall {maxPages last : UInt32} {progress : Progress crates}
    {fetched : List Nat} (h : BatchesDone reader maxPages progress last fetched)
    (hstalled : progress.stalled = true) :
    ∃ page, FirstStall reader crates page ∧ page ≤ last.toNat ∧
      lastOfBatch maxPages.toNat page = last.toNat := by
  classical
  have hsome := h.stalled.mp hstalled
  let hfind : ∃ page, 1 ≤ page ∧ reader.AddsNothing crates page :=
    hsome.imp fun page hpage => ⟨hpage.1, hpage.2.2⟩
  obtain ⟨page, hpos, hle, hadds⟩ := hsome
  have hfirst := Nat.find_spec hfind
  have hfirstLe : Nat.find hfind ≤ last.toNat :=
    Nat.le_trans (Nat.find_min' hfind ⟨hpos, hadds⟩) hle
  refine ⟨Nat.find hfind, ⟨hfirst.1, hfirst.2, ?_⟩, hfirstLe, ?_⟩
  · intro earlier hearlier hlt haddsEarlier
    exact Nat.find_min hfind hlt ⟨hearlier, haddsEarlier⟩
  · apply Nat.le_antisymm
    · rw [lastOfBatch]
      rcases h.boundary with hdvd | rfl
      · exact Nat.le_trans (Nat.min_le_right _ _) (batchEnd_le (by decide) hfirstLe hdvd)
      · exact Nat.min_le_left _ _
    · exact h.early _ hfirst.1 hfirstLe hfirst.2

theorem FirstStall.unique {page page' : Nat} (h : FirstStall reader crates page)
    (h' : FirstStall reader crates page') : page = page' := by
  rcases Nat.lt_trichotomy page page' with hlt | heq | hlt
  · exact absurd h.addsNothing (h'.first page h.pos hlt)
  · exact heq
  · exact absurd h'.addsNothing (h.first page' h'.pos hlt)

/-- What a collection fetches after its batches. -/
theorem snd_of_collectPagesLogged {maxPages : UInt32} {now : Instant} {fuel : Nat}
    {progress : Progress crates} {last : UInt32} {outcome : Except Status PagedCalendar}
    {fetched fetched' : List Nat}
    (hbatches : fetchBatchesLogged reader maxPages fuel 1
      { merger := (.new : Merger crates), reachedEnd := false, stalled := false } 0 [] =
        some (.ok (progress, last), fetched))
    (h : collectPagesLogged reader crates maxPages now fuel = some (outcome, fetched')) :
    fetched' = fetched ++
      if progress.stalled && !progress.reachedEnd then
        (probeLogged reader progress (List.range' (last + 1).toNat
          ((last + UInt32.ofNat stallProbePages).toNat + 1 - (last + 1).toNat))).2
      else [] := by
  rw [collectPagesLogged, hbatches] at h
  dsimp only [Option.bind_eq_bind, Option.bind_some] at h
  split at h
  · rename_i hlooks
    rw [if_pos hlooks]
    cases h
    rfl
  · rename_i hlooks
    rw [if_neg hlooks]
    cases h
    rfl

/-- Where a collection fetches, by how its batches end. -/
theorem fetched_cases {maxPages : UInt32} {now : Instant} {fuel : Nat}
    {outcome : Except Status PagedCalendar} {fetched : List Nat}
    (h : collectPagesLogged reader crates maxPages now fuel = some (outcome, fetched)) :
    (∃ (progress : Progress crates) (last : UInt32),
      BatchesDone reader maxPages progress last (List.range' 1 last.toNat) ∧
      (progress.stalled = true ∨ last = maxPages) ∧
      fetched = List.range' 1 last.toNat ++
        if progress.stalled then
          (probeLogged reader progress (List.range' (last + 1).toNat
            ((last + UInt32.ofNat stallProbePages).toNat + 1 - (last + 1).toNat))).2
        else []) ∨
    (∃ page last, (∀ events, reader.readPage (page + 1) ≠ .ok (.calendar events)) ∧
      page < last ∧ last ≤ maxPages.toNat ∧ last ≤ 2 ^ 32 - 4 ∧ fetched = List.range' 1 last) ∨
    (StartsOver reader crates maxPages.toNat ∧ ¬ fetched.Nodup) := by
  have hend := batchesLogged_end crates reader maxPages fuel
  generalize hresult : fetchBatchesLogged reader maxPages fuel 1 _ 0 [] = result at hend
  cases hend with
  | running hfuel =>
    rw [collectPagesLogged, hresult] at h
    cases h
  | stopped progress last fetched' hdone hstop =>
    obtain rfl := hdone.fetched
    refine .inl ⟨progress, last, hdone, hstop, ?_⟩
    have hfetched := snd_of_collectPagesLogged hresult h
    rw [hdone.reachedEnd, Bool.not_false, Bool.and_true] at hfetched
    exact hfetched
  | ended outcome' page last houtcome hread hpage hlast hsmall =>
    refine .inr (.inl ⟨page, last, hread, hpage, hlast, hsmall, ?_⟩)
    cases outcome' with
    | error status =>
      rw [collectPagesLogged, hresult] at h
      cases h
      rfl
    | ok progress =>
      obtain ⟨progress, last'⟩ := progress
      have hfetched := snd_of_collectPagesLogged hresult h
      rw [houtcome progress last' rfl, Bool.not_true, Bool.and_false, if_neg Bool.false_ne_true,
        List.append_nil] at hfetched
      exact hfetched
  | startedOver _ hstartsOver hdup =>
    refine .inr (.inr ⟨hstartsOver, ?_⟩)
    rw [collectPagesLogged, hresult] at h
    obtain ⟨⟨outcome', fetched'⟩, hbatches, h⟩ := Option.bind_eq_some_iff.mp h
    have hstarts : fetched' <+: fetched := by
      cases outcome' with
      | error status =>
        cases h
        exact List.prefix_refl _
      | ok progress =>
        cases h
        exact List.prefix_append _ _
    exact fun hnodup => hdup outcome' fetched' hbatches (hnodup.sublist hstarts.sublist)

variable (reader) (crates) in
/-- A collection with fuel for each page of its budget ends, unless its batches start over. -/
theorem exists_collected (maxPages : UInt32) (now : Instant) :
    StartsOver reader crates maxPages.toNat ∨
      ∃ outcome fetched, collectPagesLogged reader crates maxPages now (maxPages.toNat + 1) =
        some (outcome, fetched) := by
  have hend := batchesLogged_end crates reader maxPages (maxPages.toNat + 1)
  rw [collectPagesLogged]
  generalize fetchBatchesLogged reader maxPages (maxPages.toNat + 1) 1 _ 0 [] = result at hend
  cases hend with
  | running hfuel => omega
  | stopped progress last fetched _ _ => exact .inr ⟨_, _, rfl⟩
  | ended outcome page last _ _ _ _ _ =>
    cases outcome with
    | error status => exact .inr ⟨_, _, rfl⟩
    | ok progress => exact .inr ⟨_, _, rfl⟩
  | startedOver _ hstartsOver _ => exact .inl hstartsOver

/-- The page numbers after a batch, of which there are none where the last of them overflows. -/
theorem probed_range (last : UInt32) (hsmall : last.toNat ≤ 2 ^ 32 - 4) :
    (last + 1).toNat = last.toNat + 1 ∧
      (last + UInt32.ofNat stallProbePages).toNat + 1 - (last + 1).toNat =
        if last.toNat + stallProbePages < 2 ^ 32 then stallProbePages else 0 := by
  have hone : (1 : UInt32).toNat = 1 := rfl
  have hsix : (UInt32.ofNat stallProbePages).toNat = 6 := rfl
  have hnext : (last + 1).toNat = last.toNat + 1 := by
    rw [UInt32.toNat_add, hone, Nat.mod_eq_of_lt (by omega)]
  refine ⟨hnext, ?_⟩
  rw [hnext, UInt32.toNat_add, hsix, stallProbePages]
  split
  · rename_i hlt
    rw [Nat.mod_eq_of_lt hlt]
    omega
  · omega

/-- The pages that are looked at end within the budget unless they go past it. -/
theorem looked_le {maxPages last : UInt32} {progress : Progress crates}
    (hdone : BatchesDone reader maxPages progress last (List.range' 1 last.toNat))
    (hstalled : progress.stalled = true) {looked : Nat}
    (hle : looked ≤ if last.toNat + stallProbePages < 2 ^ 32 then stallProbePages else 0)
    (hbefore : ∀ page, last.toNat + 1 ≤ page → page + 1 < last.toNat + 1 + looked →
      ∃ events, reader.readPage page = .ok (.calendar events))
    (hwithin : ¬ ProbesPast reader crates maxPages.toNat) :
    last.toNat + looked ≤ maxPages.toNat := by
  by_contra hpast
  obtain ⟨page, hfirst, hpage, hlast⟩ := hdone.exists_firstStall hstalled
  have hlastLe := hdone.within
  split at hle
  · rename_i hlt
    refine hwithin ⟨?_, page, hfirst, by omega, by omega, by omega⟩
    intro page hpos hpageLe
    by_cases hdonePage : page ≤ last.toNat
    · exact hdone.examined.calendars page hpos hdonePage
    · exact hbefore page (by omega) (by omega)
  · omega

end

/-- A collection keeps to its budget unless it looks for the end of the feed past the budget, or the
page numbers start over. -/
theorem withinBudget_iff (reader : PageReader) (crates : CalendarCrates) (maxPages : UInt32)
    (now : Instant) : WithinBudget reader crates maxPages now ↔
      ¬ ProbesPast reader crates maxPages.toNat ∧ ¬ StartsOver reader crates maxPages.toNat := by
  constructor
  · rintro ⟨fuel, outcome, fetched, h, hwithin, hnodup⟩
    rcases fetched_cases h with ⟨progress, last, hdone, hstop, rfl⟩ |
      ⟨page, last, hread, hpage, hlast, hsmall, rfl⟩ | ⟨_, hdup⟩
    · have hlastLe := hdone.within
      constructor
      · rintro ⟨hcalendars, page, hfirst, hpage, hpast, hword⟩
        have hstalled : progress.stalled = true := by
          rcases hstop with hstalled | rfl
          · exact hstalled
          · exact hdone.stalled.mpr ⟨page, hfirst.pos, hpage, hfirst.addsNothing⟩
        obtain ⟨page', hfirst', _, hlast⟩ := hdone.exists_firstStall hstalled
        obtain rfl := hfirst.unique hfirst'
        rw [hlast] at hpast hword
        obtain ⟨hnext, hcount⟩ := probed_range last hdone.small
        rw [if_pos hword] at hcount
        obtain ⟨looked, hlooked, hle, _, hafter⟩ :=
          probeLogged_fetched reader progress (last.toNat + 1) stallProbePages
        rw [if_pos hstalled, hcount, hnext, hlooked] at hwithin
        have hreaches : maxPages.toNat < last.toNat + looked := by
          by_cases hshort : looked < stallProbePages
          · obtain ⟨page, hfrom, heq, hpage⟩ := hafter hshort
            by_contra hin
            obtain ⟨events, hevents⟩ := hcalendars page (by omega) (by omega)
            exact hpage events hevents
          · omega
        have hfetched := hwithin (maxPages.toNat + 1)
          (List.mem_append_right _ (List.mem_range'_1.mpr (by omega)))
        omega
      · rintro ⟨hmax, _, hclear⟩
        have hsmall := hdone.small
        rcases hstop with hstalled | rfl
        · obtain ⟨page, hpos, hpage, hadds⟩ := hdone.stalled.mp hstalled
          exact hclear page hpos (by omega) hadds
        · omega
    · constructor
      · rintro ⟨hcalendars, _⟩
        obtain ⟨events, hevents⟩ := hcalendars (page + 1) (by omega) (by omega)
        exact hread events hevents
      · rintro ⟨_, hcalendars, _⟩
        obtain ⟨events, hevents⟩ := hcalendars (page + 1) (by omega) (by omega)
        exact hread events hevents
    · exact absurd hnodup hdup
  · rintro ⟨hprobes, hstarts⟩
    obtain ⟨outcome, fetched, h⟩ :=
      (exists_collected crates reader maxPages now).resolve_left hstarts
    refine ⟨maxPages.toNat + 1, outcome, fetched, h, ?_⟩
    have hrange (last : Nat) (hlast : last ≤ maxPages.toNat) :
        (∀ page ∈ List.range' 1 last, 1 ≤ page ∧ page ≤ maxPages.toNat) ∧
          (List.range' 1 last).Nodup := by
      refine ⟨fun page hmem => ?_, List.nodup_range'⟩
      have := List.mem_range'_1.mp hmem
      omega
    rcases fetched_cases h with ⟨progress, last, hdone, _, rfl⟩ |
      ⟨page, last, _, _, hlast, _, rfl⟩ | ⟨hstartsOver, _⟩
    · split
      · rename_i hstalled
        obtain ⟨hnext, hcount⟩ := probed_range last hdone.small
        obtain ⟨looked, hlooked, hle, hbefore, _⟩ :=
          probeLogged_fetched reader progress (last.toNat + 1)
            (if last.toNat + stallProbePages < 2 ^ 32 then stallProbePages else 0)
        rw [hcount, hnext, hlooked, Nat.add_comm last.toNat 1, List.range'_append_1]
        exact hrange _ (looked_le hdone hstalled hle hbefore hprobes)
      · rw [List.append_nil]
        exact hrange _ hdone.within
    · exact hrange last hlast
    · exact absurd hstartsOver hstarts

/-- Pages that are calendars without events. -/
def emptyPages : PageReader where
  fetchPage _ := .ok "BEGIN:VCALENDAR"
  parse _ := some []

/-- A collection of one page looks at the next page when the first one adds nothing new. -/
theorem emptyPages_past_budget :
    ¬ ∀ (reader : PageReader) (crates : CalendarCrates) (maxPages : UInt32) (now : Instant),
      1 ≤ maxPages → WithinBudget reader crates maxPages now := by
  intro h
  obtain ⟨fuel, outcome, fetched, hrun, hwithin, _⟩ := h emptyPages sampleCrates 1 0 (by decide)
  obtain _ | _ | fuel := fuel
  · cases hrun
  · cases hrun
  · have hfetched : fetched = [1, 2, 3, 4, 5, 6, 7] := by
      cases hrun
      rfl
    rw [hfetched] at hwithin
    exact absurd (hwithin 2 (by decide)).2 (by decide)

end Rellm.Paging
