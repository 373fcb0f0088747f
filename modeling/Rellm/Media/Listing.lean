import Rellm.Foundation.Overflow
import Rellm.Foundation.Pages
import Rellm.Media.Ranges
import Rellm.Media.Serving
import Rellm.Posts.Visible

/-!
# Listing media

`GetMedia` selects what a viewer may see and asks for, and cuts a page out of it: the newest items
first, or for a search those that match best. The order of the database leaves items open that are
equally new, or match equally well; it may be another for each call.
-/

namespace Rellm.Media

open Foundation Content Calendar

/-- A stored item with the time it was created. -/
structure MediaEntry extends MediaItem where
  createdAt : Instant
  deriving DecidableEq, Repr

def MediaEntry.key (entry : MediaEntry) : Nat := entry.id

/-- What `GetMedia` reads: the items, who follows whom, the items that are avatars, and a setting.
The ids of users are handed out from one on. -/
structure MediaLibrary where
  media : Table MediaEntry.key
  follows : Table Follow.key
  avatars : List Nat
  licensedGlobally : Bool
  owned : ∀ entry ∈ media.rows, entry.userId ≠ some 0
  followed : ∀ follow ∈ follows.rows, follow.userId ≠ 0

/-- A listing that is asked for. -/
structure GetMediaRequest where
  mediaId : Option IdText := none
  userId : Option IdText := none
  contentType : Option String := none
  searchText : Option String := none
  page : UInt32 := 0
  deriving DecidableEq, Repr

inductive ContentTypeFilter where
  | exact (contentType : List Char)
  | leading (start : List Char)
  deriving DecidableEq, Repr

/-- Whether a text is one part of a content type. -/
def validPart (part : List Char) : Bool :=
  decide (part ≠ []) && part.all fun c => c.isAlphanum || decide (c ∈ "+-._".toList)

def parseContentTypeFilter (contentType : String) : Except Status ContentTypeFilter :=
  let contentType := (trim contentType).toList.map Char.toLower
  let invalid : Status := ⟨.invalidArgument, "invalid_content_type"⟩
  match splitOnce '/' contentType with
  | none => .error invalid
  | some (main, sub) =>
    if sub = ['*'] ∧ validPart main = true then .ok (.leading (main ++ ['/']))
    else if validPart main = true ∧ validPart sub = true then .ok (.exact contentType)
    else .error invalid

/-- Whether a text starts as a pattern says, in which an underscore stands for any character. -/
def likeLeading : List Char → List Char → Bool
  | [], _ => true
  | _ :: _, [] => false
  | p :: pattern, c :: text => (decide (p = '_') || decide (p = c)) && likeLeading pattern text

/-- Whether the type of the original passes a filter; an item without an original has none. -/
def ContentTypeFilter.keeps (filter : ContentTypeFilter) (item : MediaItem) : Bool :=
  item.original.any fun original =>
    match filter with
    | .exact contentType => decide (original.contentType.toList = contentType)
    | .leading start => likeLeading start original.contentType.toList

/-- What the database and the standard library know of texts: which characters are alphanumeric,
which items a query matches, and how well. -/
structure MediaSearch where
  isAlphanumeric : Char → Bool
  matchesMedia : MediaEntry → String → Bool
  mediaRank : MediaEntry → String → Nat

/-- What a request asks for. -/
structure MediaSelection where
  mediaId : Option Nat
  userId : Option Nat
  contentType : Option ContentTypeFilter
  query : Option String
  deriving DecidableEq, Repr

/-- An optional part of a request, parsed. -/
def parsed {α β : Type} (parse : α → Except Status β) : Option α → Except Status (Option β)
  | none => .ok none
  | some value => (parse value).map some

/-- Reads a request; an id or a content type may be none, and a search needs some word. -/
def GetMediaRequest.parse (isAlphanumeric : Char → Bool) (request : GetMediaRequest) :
    Except Status MediaSelection := do
  let userId ← parsed (·.toDbIdOrErr "user_id") request.userId
  let mediaId ← parsed (·.toDbIdOrErr "media_id") request.mediaId
  let contentType ← parsed parseContentTypeFilter request.contentType
  let query := ((request.searchText.map trim).filter fun text => text ≠ "").map
    (Posts.prefixTsqueryText isAlphanumeric)
  require (query ≠ some "") ⟨.invalidArgument, "search_text_required"⟩
  return ⟨mediaId, userId, contentType, query⟩

/-- The visibilities of the items of others that everybody may see who is a viewer of a kind. -/
def publicMediaVisibilities (viewer : Option Content.User) (licensedGlobally : Bool) :
    List Visibility :=
  [.globalPublic] ++ (if viewer.isSome then [.serverPublic] else []) ++
    (if viewer.isSome || licensedGlobally then [.licensed] else [])

namespace MediaLibrary

variable (library : MediaLibrary) (viewer : Option Content.User)

/-- Whether a viewer may see an item. -/
def shows (entry : MediaEntry) : Bool :=
  decide (entry.visibility ∈ publicMediaVisibilities viewer library.licensedGlobally) ||
    (decide (entry.visibility = .limited) &&
      entry.userId.any fun owner => (library.follows.get (viewerId viewer, owner)).isSome) ||
    decide (entry.userId = some (viewerId viewer))

/-- The items that a viewer may see. -/
def queryVisibleMedia : List MediaEntry := library.media.rows.filter (library.shows viewer)

/-- Whether an item is asked for. What nobody posted is listed only with its id or its owner. -/
def asks (selection : MediaSelection) (entry : MediaEntry) : Bool :=
  selection.mediaId.all (fun id => entry.id = id) &&
    selection.userId.all (fun id => entry.userId = some id) &&
    (selection.mediaId.isSome || selection.userId.isSome ||
      (entry.userId.isSome && !entry.generated && decide (entry.id ∉ library.avatars))) &&
    selection.contentType.all (·.keeps entry.toMediaItem)

end MediaLibrary

/-- How the database sorts in one call. -/
structure MediaEngine (search : MediaSearch) where
  newest : Sorter fun entry : MediaEntry => entry.createdAt
  best : ∀ query, Sorter fun entry => search.mediaRank entry query

structure GetMediaResponse where
  media : List MediaEntry
  hasNextPage : Bool
  deriving DecidableEq, Repr

def mediaPageSize : Nat := 100

/-- The most items that a search matches. -/
def searchLimit : Nat := 1000

/-- A page of sorted items; an offset that overflows aborts the call. -/
def loadPage (rows : List MediaEntry) (page : UInt32) : Except Failure GetMediaResponse := do
  let _ ← okOr (checked64 (page.toNat * mediaPageSize)) .panic
  let answer := pageOf mediaPageSize rows page.toNat
  return ⟨answer.1, answer.2⟩

/-- The items of a search in the order of the ids that match. -/
def inOrderOf (ids : List Nat) (rows : List MediaEntry) : List MediaEntry :=
  (rows.filter fun entry => entry.id ∈ ids).mergeSort fun a b => ids.idxOf a.id ≤ ids.idxOf b.id

/-- `GetMedia`, without the authors that the items are sent with. -/
def getMedia (search : MediaSearch) (engine : MediaEngine search) (library : MediaLibrary)
    (viewer : Option Content.User) (request : GetMediaRequest) :
    Except Failure GetMediaResponse := do
  let selection ← answered (request.parse search.isAlphanumeric)
  let rows := (library.queryVisibleMedia viewer).filter (library.asks selection)
  match selection.query with
  | some query =>
    let matching := library.media.rows.filter fun entry => search.matchesMedia entry query
    let matchingIds := (((engine.best query).sort matching).take searchLimit).map (·.id)
    loadPage (inOrderOf matchingIds rows) request.page
  | none => loadPage ((engine.newest).sort rows) request.page

section

variable {search : MediaSearch} {engine : MediaEngine search} {library : MediaLibrary}
variable {viewer : Option Content.User}

/-- No page number overflows. -/
theorem loadPage_eq (rows : List MediaEntry) (page : UInt32) :
    loadPage rows page =
      .ok ⟨(pageOf mediaPageSize rows page.toNat).1, (pageOf mediaPageSize rows page.toNat).2⟩ := by
  have hlt := page.toNat_lt
  have hsize : mediaPageSize = 100 := rfl
  obtain ⟨offset, hoffset, _⟩ := checked64_of_bounds ((page.toNat : Int) * mediaPageSize)
    (by rw [hsize]; omega) (by rw [hsize]; omega)
  rw [loadPage, hoffset]
  rfl

/-- Items come in the order of their ids. -/
theorem pairwise_idxOf {entries : List MediaEntry} (h : (entries.map (·.id)).Nodup) :
    entries.Pairwise fun a b =>
      (entries.map (·.id)).idxOf a.id ≤ (entries.map (·.id)).idxOf b.id := by
  rw [List.pairwise_iff_getElem]
  intro i j hi hj hij
  have hposition (k : Nat) (hk : k < entries.length) :
      (entries.map (·.id)).idxOf entries[k].id = k := by
    have hindex := h.idxOf_getElem k (by rwa [List.length_map])
    rwa [List.getElem_map] at hindex
  rw [hposition i hi, hposition j hj]
  exact hij.le

/-- The items that match, in their order, are those of the others that are among them. -/
theorem inOrderOf_eq {matching rows : List MediaEntry} (hids : (matching.map (·.id)).Nodup)
    (hrows : rows.Nodup)
    (hsame : ∀ entry ∈ matching, ∀ other ∈ rows, entry.id = other.id → entry = other) :
    inOrderOf (matching.map (·.id)) rows = matching.filter fun entry => entry ∈ rows := by
  have hperm : (inOrderOf (matching.map (·.id)) rows).Perm
      (matching.filter fun entry => entry ∈ rows) := by
    refine (List.mergeSort_perm _ _).trans ?_
    refine (List.perm_ext_iff_of_nodup (hrows.filter _)
      ((List.Nodup.of_map _ hids).filter _)).mpr ?_
    intro entry
    rw [List.mem_filter, List.mem_filter, decide_eq_true_iff, decide_eq_true_iff, List.mem_map]
    constructor
    · rintro ⟨hentry, other, hother, hid⟩
      exact ⟨hsame other hother entry hentry hid ▸ hother, hentry⟩
    · rintro ⟨hmatching, hentry⟩
      exact ⟨hentry, entry, hmatching, rfl⟩
  let before : MediaEntry → MediaEntry → Bool := fun a b =>
    decide ((matching.map (·.id)).idxOf a.id ≤ (matching.map (·.id)).idxOf b.id)
  have htrans (a b c : MediaEntry) (hab : before a b = true) (hbc : before b c = true) :
      before a c = true :=
    decide_eq_true ((of_decide_eq_true hab).trans (of_decide_eq_true hbc))
  have htotal (a b : MediaEntry) : (before a b || before b a) = true := by
    rw [Bool.or_eq_true, decide_eq_true_iff, decide_eq_true_iff]
    exact le_total _ _
  have hsorted := List.pairwise_mergeSort htrans htotal
    (rows.filter fun entry => entry.id ∈ matching.map (·.id))
  have hfiltered : (matching.filter fun entry => entry ∈ rows).Pairwise fun a b =>
      before a b = true :=
    ((pairwise_idxOf hids).sublist List.filter_sublist).imp decide_eq_true
  refine List.Perm.eq_of_pairwise (fun a b ha hb hab hba => ?_) hsorted hfiltered hperm
  obtain ⟨hb, hbrows⟩ := List.mem_filter.mp hb
  have haids : a.id ∈ matching.map (·.id) :=
    of_decide_eq_true (List.mem_filter.mp (List.mem_mergeSort.mp ha)).2
  have hid : a.id = b.id := (List.idxOf_inj haids).mp
    ((of_decide_eq_true hab).antisymm (of_decide_eq_true hba))
  exact (hsame b hb a (List.mem_filter.mp (List.mem_mergeSort.mp ha)).1 hid.symm).symm

end

end Rellm.Media
