import Mathlib.Data.Set.Image
import Rellm.Media.Listing

/-!
# All pages of a media listing

The pages of `GetMedia`, asked for one after another, are sorted anew each time. Together they are
what a viewer asked for exactly if no page breaks off among items that are equally new, or match
equally well, and a search does not match more items than it keeps.
-/

namespace Rellm.Media

open Foundation Content

section

variable (search : MediaSearch) (library : MediaLibrary) (viewer : Option Content.User)

/-- The items that match a request and that the viewer may see. -/
def MediaLibrary.matching (selection : MediaSelection) : List MediaEntry :=
  library.media.rows.filter fun entry =>
    selection.query.all (fun query => search.matchesMedia entry query) &&
      (library.shows viewer entry && library.asks selection entry)

/-- The answers to requests for the pages of a listing; the database sorts for each as it may. -/
def mediaRequests (engines : Nat → MediaEngine search) (request : GetMediaRequest) (page : Nat) :
    Option (List MediaEntry × Bool) :=
  if page < UInt32.size then
    match getMedia search (engines page) library viewer
        { request with page := UInt32.ofNat page } with
    | .ok response => some (response.media, response.hasNextPage)
    | .error _ => none
  else none

/-- Every page has a number and breaks off between items that are sorted apart, and what matches a
search is among the first of every sort. -/
def MediaLibrary.FitsPages (selection : MediaSelection) : Prop :=
  (library.matching search viewer selection).length ≤ UInt32.size * mediaPageSize ∧
    match selection.query with
    | none => PageBreaks (fun entry : MediaEntry => entry.createdAt) mediaPageSize
        (library.matching search viewer selection)
    | some query =>
      FitsCap (fun entry => search.mediaRank entry query)
          (library.media.rows.filter fun entry => search.matchesMedia entry query) searchLimit
          (fun entry => library.shows viewer entry && library.asks selection entry) ∧
        PageBreaks (fun entry => search.mediaRank entry query) mediaPageSize
          (library.matching search viewer selection)

/-- The items that a request lists, sorted. -/
def MediaLibrary.listed (selection : MediaSelection) (engine : MediaEngine search) :
    List MediaEntry :=
  let rows := (library.queryVisibleMedia viewer).filter (library.asks selection)
  match selection.query with
  | some query =>
    let matching := library.media.rows.filter fun entry => search.matchesMedia entry query
    inOrderOf ((((engine.best query).sort matching).take searchLimit).map (·.id)) rows
  | none => engine.newest.sort rows

end

section

variable {search : MediaSearch} {library : MediaLibrary} {viewer : Option Content.User}
variable {request : GetMediaRequest} {selection : MediaSelection}

theorem getMedia_eq (hparse : request.parse search.isAlphanumeric = .ok selection)
    (engine : MediaEngine search) (page : UInt32) :
    getMedia search engine library viewer { request with page := page } =
      .ok ⟨(pageOf mediaPageSize (library.listed search viewer selection engine) page.toNat).1,
        (pageOf mediaPageSize (library.listed search viewer selection engine) page.toNat).2⟩ := by
  have hparsed : GetMediaRequest.parse search.isAlphanumeric { request with page := page } =
      .ok selection := hparse
  rw [getMedia, checks_of_ok (answered_eq_ok.mpr hparsed), MediaLibrary.listed]
  cases selection.query with
  | none => exact loadPage_eq _ page
  | some query => exact loadPage_eq _ page

/-- The pages of a listing are cut out of its items, sorted for each. -/
theorem mediaRequests_eq (hparse : request.parse search.isAlphanumeric = .ok selection)
    (engines : Nat → MediaEngine search) :
    mediaRequests search library viewer engines request =
      pagesOf UInt32.size mediaPageSize fun page =>
        library.listed search viewer selection (engines page) := by
  funext page
  rw [mediaRequests, pagesOf]
  split
  · rename_i hlt
    rw [getMedia_eq hparse, UInt32.toNat_ofNat_of_lt' hlt]
  · rfl

/-- What holds for all lists in the range of a function holds for all its values. -/
theorem forall_values_iff {ι β : Type} (f : ι → β) (P : (Nat → β) → Prop) :
    (∀ g : Nat → ι, P fun page => f (g page)) ↔
      ∀ ls : Nat → β, (∀ page, ls page ∈ Set.range f) → P ls := by
  constructor
  · intro h ls hls
    choose g hg using hls
    have hls : ls = fun page => f (g page) := funext fun page => (hg page).symm
    exact hls ▸ h g
  · intro h g
    exact h _ fun page => Set.mem_range_self _

theorem queryVisibleMedia_filter : (library.queryVisibleMedia viewer).filter
      (library.asks selection) =
    library.media.rows.filter fun entry =>
      library.shows viewer entry && library.asks selection entry := by
  rw [MediaLibrary.queryVisibleMedia, List.filter_filter]
  exact List.filter_congr fun entry _ => Bool.and_comm _ _

theorem matching_none (hquery : selection.query = none) :
    library.matching search viewer selection =
      (library.queryVisibleMedia viewer).filter (library.asks selection) := by
  rw [queryVisibleMedia_filter, MediaLibrary.matching, hquery]
  rfl

theorem matching_some {query : String} (hquery : selection.query = some query) :
    library.matching search viewer selection =
      (library.media.rows.filter fun entry => search.matchesMedia entry query).filter fun entry =>
        library.shows viewer entry && library.asks selection entry := by
  rw [MediaLibrary.matching, hquery, List.filter_filter]
  exact List.filter_congr fun entry _ => Bool.and_comm _ _

/-- Without a search, the lists are the sorts of the items that match. -/
theorem range_listed_none (hquery : selection.query = none) :
    Set.range (library.listed search viewer selection) =
      keptSorts (fun entry : MediaEntry => entry.createdAt)
        (library.matching search viewer selection) fun _ => true := by
  have hlisted (engine : MediaEngine search) : library.listed search viewer selection engine =
      engine.newest.sort (library.matching search viewer selection) := by
    rw [MediaLibrary.listed, matching_none hquery, hquery]
  ext l
  constructor
  · rintro ⟨engine, rfl⟩
    exact ⟨_, engine.newest.sorts _, by rw [List.filter_true, hlisted]⟩
  · rintro ⟨sorted, hsorted, rfl⟩
    refine ⟨⟨.making hsorted, fun _ => .stable _⟩, ?_⟩
    rw [hlisted, Sorter.sort_making, List.filter_true]

/-- In a search, they are what the viewer may see of the first items that match. -/
theorem range_listed_some {query : String} (hquery : selection.query = some query) :
    Set.range (library.listed search viewer selection) =
      cappedSorts (fun entry => search.mediaRank entry query)
        (library.media.rows.filter fun entry => search.matchesMedia entry query) searchLimit
        fun entry => library.shows viewer entry && library.asks selection entry := by
  let matching := library.media.rows.filter fun entry => search.matchesMedia entry query
  have hlisted (engine : MediaEngine search) : library.listed search viewer selection engine =
      (((engine.best query).sort matching).take searchLimit).filter fun entry =>
        library.shows viewer entry && library.asks selection entry := by
    have hperm := ((engine.best query).sorts matching).1
    have hstored : ∀ entry ∈ ((engine.best query).sort matching).take searchLimit,
        entry ∈ library.media.rows := fun entry hentry =>
      List.mem_of_mem_filter (hperm.mem_iff.mp (List.mem_of_mem_take hentry))
    have hids : ((((engine.best query).sort matching).take searchLimit).map (·.id)).Nodup :=
      ((hperm.map (·.id)).nodup_iff.mpr
        (library.media.nodup.sublist (List.filter_sublist.map _))).sublist
        ((List.take_sublist _ _).map _)
    have hrows : ((library.queryVisibleMedia viewer).filter (library.asks selection)).Nodup :=
      ((List.Nodup.of_map _ library.media.nodup).filter _).filter _
    rw [MediaLibrary.listed, hquery]
    refine (inOrderOf_eq hids hrows fun entry hentry other hother hid => ?_).trans ?_
    · exact library.media.eq_of_key_eq (hstored entry hentry)
        (List.mem_of_mem_filter (List.mem_of_mem_filter hother)) hid
    · refine List.filter_congr fun entry hentry => ?_
      rw [queryVisibleMedia_filter, Bool.eq_iff_iff, decide_eq_true_iff, List.mem_filter]
      exact and_iff_right (hstored entry hentry)
  ext l
  constructor
  · rintro ⟨engine, rfl⟩
    exact ⟨_, (engine.best query).sorts _, (hlisted engine).symm⟩
  · rintro ⟨sorted, hsorted, rfl⟩
    -- an engine that sorts the items of this search so
    let best (other : String) : Sorter fun entry => search.mediaRank entry other :=
      if h : other = query then .making (h ▸ hsorted) else .stable _
    have hsort : (best query).sort matching = sorted := by
      rw [show best query = .making hsorted from dif_pos rfl, Sorter.sort_making]
    exact ⟨⟨.stable _, best⟩, (hlisted _).trans (by rw [hsort])⟩

/-- The pages of a listing together are what a viewer asked for, each item once and however the
database sorts, exactly if no page breaks off among equal items, no search matches too much, and
every page has a number. -/
theorem media_returnsEachOnce_iff (hparse : request.parse search.isAlphanumeric = .ok selection) :
    (∀ engines : Nat → MediaEngine search,
        ReturnsEachOnce (mediaRequests search library viewer engines request)
          (library.matching search viewer selection)) ↔
      library.FitsPages search viewer selection := by
  have hrows := List.Nodup.of_map _ library.media.nodup
  have hmatching : (library.matching search viewer selection).Nodup := hrows.filter _
  have hall := forall_values_iff (library.listed search viewer selection) fun ls =>
    ReturnsEachOnce (pagesOf UInt32.size mediaPageSize ls)
      (library.matching search viewer selection)
  have hnonempty : (Set.range (library.listed search viewer selection)).Nonempty :=
    ⟨_, ⟨.stable _, fun _ => .stable _⟩, rfl⟩
  simp only [mediaRequests_eq hparse]
  rw [hall, forall_returnsEachOnce_iff (by decide) hnonempty, MediaLibrary.FitsPages]
  cases hquery : selection.query with
  | none =>
    have hsame : ∀ l ∈ keptSorts (fun entry : MediaEntry => entry.createdAt)
        (library.matching search viewer selection) fun _ => true,
        l.Perm (library.matching search viewer selection) := by
      rintro _ ⟨sorted, hsorted, rfl⟩
      rw [List.filter_true]
      exact hsorted.1
    rw [range_listed_none hquery, agreeBefore_keptSorts_iff hmatching, List.filter_true,
      and_iff_right hsame, and_comm]
  | some query =>
    have hmatched := hrows.filter fun entry => search.matchesMedia entry query
    rw [range_listed_some hquery, matching_some hquery, cappedSorts_perm_iff hmatched]
    constructor
    · rintro ⟨hcap, hagree, hlength⟩
      rw [cappedSorts_eq ((cappedSorts_perm_iff hmatched).mpr hcap)] at hagree
      exact ⟨hlength, hcap, (agreeBefore_keptSorts_iff hmatched).mp hagree⟩
    · rintro ⟨hlength, hcap, hbreaks⟩
      refine ⟨hcap, ?_, hlength⟩
      rw [cappedSorts_eq ((cappedSorts_perm_iff hmatched).mpr hcap)]
      exact (agreeBefore_keptSorts_iff hmatched).mpr hbreaks

/-- A page with any number is answered. -/
theorem getMedia_answers (hparse : request.parse search.isAlphanumeric = .ok selection)
    (engine : MediaEngine search) (page : UInt32) :
    ∃ response,
      getMedia search engine library viewer { request with page := page } = .ok response :=
  ⟨_, getMedia_eq hparse engine page⟩

end

end Rellm.Media
