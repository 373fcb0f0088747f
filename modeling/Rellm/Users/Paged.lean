import Rellm.Media.Paged
import Rellm.Users.Visible

/-!
# All pages of a listing

A page of users skips a hundred for each page before it and has up to a thousand, so the pages of a
listing of more than a hundred overlap. A negative page number aborts the call.
-/

namespace Rellm.Users

open Foundation Content

/-- How users may stand to the user of a request. -/
inductive UserRelation where
  | following
  | followers
  | friends
  deriving DecidableEq, Repr

def UserRelation.holds (db : DirectoryDb) (relation : UserRelation) (target id : Nat) : Bool :=
  match relation with
  | .following => db.followsPassing target id
  | .followers => db.followsPassing id target
  | .friends => db.followsPassing target id && db.followsPassing id target

/-- What a request lists; some listings may be searched. -/
inductive UserQuery where
  | nothing
  | asking (user : Account) (searched : Bool)
  | related (relation : UserRelation) (userId : IdText) (searched : Bool)
  | named (username : String)
  | identified (userId : IdText)
  | all (searched : Bool)

/-- What a request of a viewer lists. -/
def userQuery (viewer : Option Account) (request : GetUsersRequest) : UserQuery :=
  match viewer, request.listingType, request.username, request.userId with
  | some user, some .followRequests, _, _ => .asking user false
  | some user, some .followRequestsTextSearch, _, _ => .asking user true
  | none, some .followRequests, _, _ => .nothing
  | none, some .followRequestsTextSearch, _, _ => .nothing
  | _, some .following, _, some userId => .related .following userId false
  | _, some .followingTextSearch, _, some userId => .related .following userId true
  | _, some .followers, _, some userId => .related .followers userId false
  | _, some .followersTextSearch, _, some userId => .related .followers userId true
  | _, some .friends, _, some userId => .related .friends userId false
  | _, some .friendsTextSearch, _, some userId => .related .friends userId true
  | _, some .usersTextSearch, _, _ => .all true
  | _, _, some username, _ => .named username
  | _, _, _, some userId => .identified userId
  | _, _, _, _ => .all false

section

variable (search : UserSearch) (db : DirectoryDb) (viewer : Option Account)
variable (request : GetUsersRequest)

/-- The text that a listing is searched for, which has to be given then. -/
def searchedText (searched : Bool) : Except Failure (Option String) :=
  if searched then requiredSearchText search request else .ok none

/-- The listing of a query. -/
def UserQuery.listing : UserQuery → Except Failure Listing
  | .nothing => .ok (.plain [])
  | .asking user searched => do
    getFollowRequests search db request user (← searchedText search request searched)
  | .related relation userId searched => do
    getConnected search db viewer request (relation.holds db) userId
      (← searchedText search request searched)
  | .named username => getByUsername db viewer request username
  | .identified userId => getByUserId db viewer request userId
  | .all searched => do
    getAllUsers search db viewer request (← searchedText search request searched)

theorem listedUsers_eq :
    listedUsers search db viewer request =
      (userQuery viewer request).listing search db viewer request := by
  obtain ⟨username, userId, searchText, page, listing⟩ := request
  rcases viewer with _ | user <;> rcases listing with _ | listing <;> cases username <;>
    cases userId <;> first | rfl | cases listing <;> rfl

/-- Whether a user is kept by a listing of the visible ones, and by a search. -/
def keepsVisible (p : ListedUser → Bool) (query : Option String) (row : ListedUser) : Bool :=
  p row && DirectoryDb.visibleProfile viewer row && matchesQuery search query row

/-- Which users a query asks for and may be shown; nothing is listed where nobody is logged in whose
requests these are. -/
def UserQuery.asked : UserQuery → Except Failure (Option (ListedUser → Bool))
  | .nothing => .ok none
  | .asking _ searched => do
    let query ← searchedText search request searched
    return some fun row =>
      (row.targetFollow.any fun follow => follow.targetUserModeration = .pending) &&
        matchesQuery search query row
  | .related relation userId searched => do
    let query ← searchedText search request searched
    let targetUserId ← answered (userId.toDbIdOrErr "user_id")
    return some (keepsVisible search viewer
      (fun row => relation.holds db targetUserId row.account.id) query)
  | .named username =>
    .ok (some fun row =>
      (DirectoryDb.visibleProfile viewer row || row.follow.isSome || row.targetFollow.isSome) &&
        decide (row.account.username = username))
  | .identified userId => do
    let userId ← answered (userId.toDbIdOrErr "user_id")
    return some fun row =>
      DirectoryDb.visibleProfile viewer row && decide (row.account.id = userId)
  | .all searched => do
    let query ← searchedText search request searched
    return some (keepsVisible search viewer (fun _ => true) query)

/-- The rows of a page of the users that are asked for. -/
def pageOfAsked (page : Option Int32) :
    Option (ListedUser → Bool) → Except Failure (List ListedUser)
  | none => .ok []
  | some keep => (pageOffset page).map (db.page viewer keep)

end

section

variable {search : UserSearch} {db : DirectoryDb} {viewer : Option Account}
variable {request : GetUsersRequest}

/-- The rows of a listing that is a page. -/
theorem map_rows {check : Except Failure Nat} {make : List ListedUser → Listing}
    (hmake : ∀ rows, (make rows).rows = rows) (page : Nat → List ListedUser) :
    (check >>= fun offset => .ok (make (page offset))).map Listing.rows = check.map page := by
  cases check with
  | error e => rfl
  | ok offset => exact congrArg Except.ok (hmake (page offset))

/-- The rows of a listing that is checked first. -/
theorem map_rows_bind {α : Type} {check : Except Failure α} {listing : α → Except Failure Listing}
    {asked : α → Except Failure (Option (ListedUser → Bool))}
    {page : Option (ListedUser → Bool) → Except Failure (List ListedUser)}
    (h : ∀ a, (listing a).map Listing.rows = asked a >>= page) :
    (check >>= listing).map Listing.rows = (check >>= asked) >>= page := by
  cases check with
  | error e => rfl
  | ok a => exact h a

/-- A listing selects a page of the users that are asked for. -/
theorem listedUsers_rows (page : Option Int32) :
    (listedUsers search db viewer { request with page := page }).map Listing.rows =
      (userQuery viewer request).asked search db viewer request >>= pageOfAsked db viewer page := by
  have hviewer : ∀ user searched, userQuery viewer request = .asking user searched →
      viewer = some user := by
    intro user searched h
    unfold userQuery at h
    split at h <;> cases h <;> rfl
  rw [listedUsers_eq]
  change ((userQuery viewer request).listing search db viewer { request with page := page }).map
    Listing.rows = _
  cases hquery : userQuery viewer request with
  | nothing => rfl
  | asking user searched =>
    rw [hviewer user searched hquery]
    exact map_rows_bind fun query => map_rows (fun _ => rfl) _
  | related relation userId searched =>
    exact map_rows_bind fun query => map_rows_bind fun id => map_rows (fun _ => rfl) _
  | named username => exact map_rows (fun _ => rfl) _
  | identified userId => exact map_rows_bind fun id => map_rows (fun _ => rfl) _
  | all searched => exact map_rows_bind fun query => map_rows (fun _ => rfl) _

end

/-- The users on a page have their offsets as the page says. -/
def userPageOffset : Nat := 100

section

variable (search : UserSearch) (db : DirectoryDb) (viewer : Option Account)
variable (request : GetUsersRequest)

/-- The users that are asked for and may be shown. -/
def askedRows : Option (ListedUser → Bool) → List ListedUser
  | none => []
  | some keep => (db.users.rows.map (db.listedUser viewer)).filter keep

/-- The answers to requests for the pages of a listing, until a page is empty. -/
def userRequests (page : Nat) : Option (List IdText × Bool) :=
  if page < 2147483648 then
    match getUsers search db viewer { request with page := some (Int32.ofNat page) } with
    | .ok response => some (response.users.map (·.id), !response.users.isEmpty)
    | .error _ => none
  else none

end

section

variable {search : UserSearch} {db : DirectoryDb} {viewer : Option Account}
variable {request : GetUsersRequest} {kept : Option (ListedUser → Bool)}

/-- The id that a row is sent with. -/
def ListedUser.sentId (row : ListedUser) : IdText := toProtoId row.account.id

/-- A page of a listing answers with the ids of its rows. -/
theorem getUsers_ids
    (hasked : (userQuery viewer request).asked search db viewer request = .ok kept)
    (page : Option Int32) :
    (getUsers search db viewer { request with page := page }).map
        (fun response => response.users.map (·.id)) =
      (pageOfAsked db viewer page kept).map fun rows => rows.map ListedUser.sentId := by
  have hrows : (listedUsers search db viewer { request with page := page }).map Listing.rows =
      (userQuery viewer request).asked search db viewer request >>= pageOfAsked db viewer page :=
    listedUsers_rows page
  rw [hasked] at hrows
  rw [getUsers]
  cases hlisted : listedUsers search db viewer { request with page := page } with
  | error e =>
    rw [hlisted] at hrows
    have herror : pageOfAsked db viewer page kept = .error e := hrows.symm
    rw [herror]
    rfl
  | ok listing =>
    rw [hlisted] at hrows
    have hok : pageOfAsked db viewer page kept = .ok listing.rows := hrows.symm
    rw [hok]
    exact congrArg Except.ok (List.map_map.trans
      (List.map_congr_left fun row _ => id_marshalled listing row))

/-- An offset that fits is that of the page. -/
theorem toInt_offset {page : Int32} (hlow : -2147483648 ≤ page.toInt * 100)
    (hhigh : page.toInt * 100 < 2147483648) : (page * 100).toInt = page.toInt * 100 := by
  have hhundred : (100 : Int32).toInt = 100 := by decide
  rw [Int32.toInt_mul, hhundred]
  exact Int.bmod_eq_of_le (by omega) (by omega)

/-- A page whose offset does not overflow has that offset. -/
theorem pageOffset_eq {page : Int32} (hnonneg : 0 ≤ page.toInt) (hfits : page.toInt ≤ 21474836) :
    pageOffset (some page) = .ok (page.toInt.toNat * userPageOffset) := by
  have hoffset := toInt_offset (by omega : -2147483648 ≤ page.toInt * 100) (by omega)
  have hlow : ¬ page * 100 < 0 := by
    rw [Int32.lt_iff_toInt_lt, hoffset, Int32.toInt_zero]
    omega
  have hhundred : userPageOffset = 100 := rfl
  rw [pageOffset, Option.getD_some, if_neg hlow, hoffset, hhundred]
  congr 1
  omega

/-- A listing without a number for the page that aborts answers with its rows. -/
theorem userRequests_eq {keep : ListedUser → Bool}
    (hasked : (userQuery viewer request).asked search db viewer request = .ok (some keep))
    {page : Nat} (hpage : page ≤ 21474836) :
    userRequests search db viewer request page =
      some ((db.page viewer keep (page * userPageOffset)).map ListedUser.sentId,
        !(db.page viewer keep (page * userPageOffset)).isEmpty) := by
  have hnumber : (Int32.ofNat page).toInt = page := Int32.toInt_ofNat_of_lt (by omega)
  have hids := getUsers_ids hasked (some (Int32.ofNat page))
  rw [pageOfAsked, pageOffset_eq (by omega) (by omega), hnumber, Int.toNat_natCast] at hids
  rw [userRequests, if_pos (by omega)]
  cases hresponse : getUsers search db viewer { request with page := some (Int32.ofNat page) } with
  | error e =>
    rw [hresponse] at hids
    cases hids
  | ok response =>
    rw [hresponse] at hids
    have husers : response.users.map (·.id) =
        (db.page viewer keep (page * userPageOffset)).map ListedUser.sentId := Except.ok.inj hids
    have hempty := congrArg List.isEmpty husers
    rw [List.isEmpty_map, List.isEmpty_map] at hempty
    rw [← husers, ← hempty]

/-- Different users are sent with different ids. -/
theorem nodup_sentIds : ((askedRows db viewer kept).map ListedUser.sentId).Nodup := by
  cases kept with
  | none => exact List.nodup_nil
  | some keep =>
    refine List.Nodup.sublist (List.filter_sublist.map _) ?_
    rw [List.map_map]
    have hids : (db.users.rows.map (ListedUser.sentId ∘ db.listedUser viewer)) =
        (db.users.rows.map (·.id)).map toProtoId := by
      rw [List.map_map]
      rfl
    rw [hids]
    exact db.users.nodup.map fun id id' h => Option.some.inj (congrArg IdText.decoded h)

/-- The first page has the next user after a hundred, and so has the second. -/
theorem mem_both_pages {α : Type} {rows : List α} (hlong : 100 < rows.length) :
    ∃ a, a ∈ rows.take 1000 ∧ a ∈ (rows.drop 100).take 1000 := by
  obtain ⟨a, tail, htail⟩ := List.exists_cons_of_length_pos (l := rows.drop 100) (by
    rw [List.length_drop]
    omega)
  refine ⟨a, ?_, ?_⟩
  · have hlength : (rows.take 100).length = 100 := List.length_take_of_le hlong.le
    rw [← List.take_append_drop 100 rows, List.take_append, hlength, htail]
    exact List.mem_append_right _ List.mem_cons_self
  · rw [htail]
    exact List.mem_cons_self

/-- Nothing is collected of a listing whose pages overlap, each user once. -/
theorem length_le_of_collected {keep : ListedUser → Bool} {ids : List IdText}
    (hasked : (userQuery viewer request).asked search db viewer request = .ok (some keep))
    (hcollected : Collected (userRequests search db viewer request) 0 ids) (hnodup : ids.Nodup) :
    (askedRows db viewer (some keep)).length ≤ userPageOffset := by
  by_contra hlong
  obtain ⟨row, hfirst, hsecond⟩ : ∃ row, row ∈ db.page viewer keep (0 * userPageOffset) ∧
      row ∈ db.page viewer keep (1 * userPageOffset) :=
    mem_both_pages (show 100 < ((askedRows db viewer (some keep)).mergeSort
        DirectoryDb.newestAccountFirst).length by
      rw [List.length_mergeSort]
      exact Nat.not_le.mp hlong)
  have hanswers {page : Nat} (hpage : page ≤ 21474836) {answer : List IdText} {more : Bool}
      (hrow : row ∈ db.page viewer keep (page * userPageOffset))
      (hanswer : userRequests search db viewer request page = some (answer, more)) :
      row.sentId ∈ answer ∧ more = true := by
    rw [userRequests_eq hasked hpage] at hanswer
    obtain ⟨rfl, rfl⟩ := Prod.ext_iff.mp (Option.some.inj hanswer)
    refine ⟨List.mem_map_of_mem hrow, ?_⟩
    cases hrows : db.page viewer keep (page * userPageOffset) with
    | nil =>
      rw [hrows] at hrow
      cases hrow
    | cons _ _ => rfl
  cases hcollected with
  | last hanswer => exact absurd (hanswers (by decide) hfirst hanswer).2 Bool.false_ne_true
  | more hanswer hrest =>
    have hfirstId := (hanswers (by decide) hfirst hanswer).1
    cases hrest with
    | last hanswer =>
      have hsecondId := (hanswers (by decide) hsecond hanswer).1
      exact (List.nodup_append.mp hnodup).2.2 _ hfirstId _ hsecondId rfl
    | more hanswer _ =>
      have hsecondId := (hanswers (by decide) hsecond hanswer).1
      exact (List.nodup_append.mp hnodup).2.2 _ hfirstId _ (List.mem_append_left _ hsecondId) rfl

/-- A listing of at most a hundred users is its first page. -/
theorem exists_collected_users {keep : ListedUser → Bool}
    (hasked : (userQuery viewer request).asked search db viewer request = .ok (some keep))
    (hshort : (askedRows db viewer (some keep)).length ≤ userPageOffset) :
    ReturnsEachOnce (userRequests search db viewer request)
      ((askedRows db viewer (some keep)).map ListedUser.sentId) := by
  have hsorted := List.mergeSort_perm (askedRows db viewer (some keep))
    DirectoryDb.newestAccountFirst
  have hfirst : (db.page viewer keep (0 * userPageOffset)).Perm
      (askedRows db viewer (some keep)) := by
    refine List.Perm.trans ?_ hsorted
    rw [DirectoryDb.page, paged, Nat.zero_mul, List.drop_zero, List.take_of_length_le]
    · rfl
    · rw [List.length_mergeSort]
      exact hshort.trans (by decide)
  have hsecond : db.page viewer keep (1 * userPageOffset) = [] := by
    rw [DirectoryDb.page, paged, Nat.one_mul, List.drop_of_length_le, List.take_nil]
    rw [List.length_mergeSort]
    exact hshort
  have hpage := userRequests_eq hasked (Nat.zero_le 21474836)
  cases hmore : (db.page viewer keep (0 * userPageOffset)).isEmpty with
  | true =>
    rw [hmore] at hpage
    exact ⟨_, .last hpage, hfirst.map _⟩
  | false =>
    rw [hmore] at hpage
    have hlast : userRequests search db viewer request 1 = some ([], false) := by
      rw [userRequests_eq hasked (by decide), hsecond]
      rfl
    refine ⟨_, .more hpage (.last hlast), ?_⟩
    rw [List.append_nil]
    exact hfirst.map _

/-- The pages of a listing have every user that is asked for once exactly if these are no more than a
hundred. -/
theorem users_returnsEachOnce_iff
    (hasked : (userQuery viewer request).asked search db viewer request = .ok kept) :
    ReturnsEachOnce (userRequests search db viewer request)
        ((askedRows db viewer kept).map ListedUser.sentId) ↔
      (askedRows db viewer kept).length ≤ userPageOffset := by
  cases kept with
  | none =>
    refine iff_of_true ⟨[], .last ?_, List.Perm.refl _⟩ (Nat.zero_le _)
    have hids := getUsers_ids hasked (some (Int32.ofNat 0))
    rw [userRequests, if_pos (by decide)]
    cases hresponse : getUsers search db viewer { request with page := some (Int32.ofNat 0) } with
    | error e =>
      rw [hresponse] at hids
      cases hids
    | ok response =>
      rw [hresponse] at hids
      have hnone : response.users.map (·.id) = [] := Except.ok.inj hids
      have hempty := congrArg List.isEmpty hnone
      rw [List.isEmpty_map] at hempty
      change some (response.users.map (·.id), !response.users.isEmpty) = _
      rw [hnone, hempty]
      rfl
  | some keep =>
    constructor
    · rintro ⟨ids, hcollected, hperm⟩
      exact length_le_of_collected hasked hcollected (hperm.nodup_iff.mpr nodup_sentIds)
    · exact exists_collected_users hasked

/-- A page of a listing is answered: the offset does not overflow, and the call does not abort. -/
def AnswersPage (search : UserSearch) (db : DirectoryDb) (viewer : Option Account)
    (request : GetUsersRequest) (kept : Option (ListedUser → Bool)) (page : Int32) : Prop :=
  (kept.isSome = true → (checked32 (page.toInt * 100)).isSome = true) ∧
    getUsers search db viewer { request with page := some page } ≠ .error .panic

/-- The pages that are answered have numbers that are not negative, and not too great. -/
theorem answersPage_iff
    (hasked : (userQuery viewer request).asked search db viewer request = .ok kept)
    (page : Int32) : AnswersPage search db viewer request kept page ↔
      (kept.isSome = true → 0 ≤ page.toInt ∧ page.toInt ≤ 21474836) := by
  have hids := getUsers_ids hasked (some page)
  have hanswered (rows : List ListedUser)
      (hrows : pageOfAsked db viewer (some page) kept = .ok rows) :
      getUsers search db viewer { request with page := some page } ≠ .error .panic := by
    intro hpanic
    rw [hpanic, hrows] at hids
    cases hids
  cases kept with
  | none =>
    exact iff_of_true ⟨fun h => absurd h Bool.false_ne_true, hanswered [] rfl⟩ fun h =>
      absurd h Bool.false_ne_true
  | some keep =>
    constructor
    · rintro ⟨hfits, hpanic⟩ hkept
      obtain ⟨hlow, hhigh⟩ : -2147483648 ≤ page.toInt * 100 ∧ page.toInt * 100 < 2147483648 := by
        by_contra hout
        have hnone : checked32 (page.toInt * 100) = none := if_neg hout
        have hfits := hfits hkept
        rw [hnone] at hfits
        cases hfits
      have hoffset := toInt_offset hlow hhigh
      have hnonneg : ¬ page * 100 < 0 := by
        intro hnegative
        have hpage : pageOfAsked db viewer (some page) (some keep) = .error .panic := by
          rw [pageOfAsked, pageOffset, Option.getD_some, if_pos hnegative]
          rfl
        rw [hpage] at hids
        cases hresponse : getUsers search db viewer { request with page := some page } with
        | error e =>
          rw [hresponse] at hids hpanic
          have he : e = .panic := Except.error.inj hids
          exact hpanic (congrArg Except.error he)
        | ok response =>
          rw [hresponse] at hids
          cases hids
      rw [Int32.lt_iff_toInt_lt, hoffset, Int32.toInt_zero] at hnonneg
      omega
    · intro hpage
      obtain ⟨hnonneg, hsmall⟩ := hpage rfl
      refine ⟨fun _ => ?_, hanswered (db.page viewer keep (page.toInt.toNat * userPageOffset)) ?_⟩
      · obtain ⟨offset, hoffset, _⟩ := checked32_of_bounds (page.toInt * 100) (by omega) (by omega)
        rw [hoffset]
        rfl
      · rw [pageOfAsked, pageOffset_eq hnonneg hsmall]
        rfl

end

/-- An accepted request for the pages of a listing of media or of users, with the tables. -/
inductive ListingCall where
  | media (search : Media.MediaSearch) (library : Media.MediaLibrary)
      (viewer : Option Content.User) (request : Media.GetMediaRequest)
      (selection : Media.MediaSelection)
      (accepted : request.parse search.isAlphanumeric = .ok selection)
  | users (search : UserSearch) (db : DirectoryDb) (viewer : Option Account)
      (request : GetUsersRequest) (kept : Option (ListedUser → Bool))
      (accepted : (userQuery viewer request).asked search db viewer request = .ok kept)

namespace ListingCall

/-- The page numbers that the type of a request allows. -/
def Page : ListingCall → Type
  | .media .. => UInt32
  | .users .. => Int32

/-- The pages together have everything that is asked for once, however the database sorts. -/
def ReturnsEachOnce : ListingCall → Prop
  | .media search library viewer request selection _ =>
    ∀ engines : Nat → Media.MediaEngine search,
      Foundation.ReturnsEachOnce (Media.mediaRequests search library viewer engines request)
        (library.matching search viewer selection)
  | .users search db viewer request kept _ =>
    Foundation.ReturnsEachOnce (userRequests search db viewer request)
      ((askedRows db viewer kept).map ListedUser.sentId)

/-- A page is answered, without an overflow and without aborting. -/
def Answers : (call : ListingCall) → call.Page → Prop
  | .media search library viewer request _ _, page =>
    ∀ engine : Media.MediaEngine search, ∃ response,
      Media.getMedia search engine library viewer { request with page := page } = .ok response
  | .users search db viewer request kept _, page => AnswersPage search db viewer request kept page

/-- Media pages break off between items that are sorted apart; users fit on the first page. -/
def FitsPages : ListingCall → Prop
  | .media search library viewer _ selection _ => library.FitsPages search viewer selection
  | .users _ db viewer _ kept _ => (askedRows db viewer kept).length ≤ userPageOffset

/-- A page of users has a number that is not negative, and not too great to have an offset. -/
def AllowsPage : (call : ListingCall) → call.Page → Prop
  | .media .., _ => True
  | .users _ _ _ _ kept _, page =>
    kept.isSome = true → 0 ≤ Int32.toInt page ∧ Int32.toInt page ≤ 21474836

/-- The pages of a listing together return everything once exactly if no page breaks off among equal
items, and users fit on one page; and all pages are answered but those of users whose number is
negative or too great. -/
theorem returnsEachOnce_iff (call : ListingCall) :
    (call.ReturnsEachOnce ↔ call.FitsPages) ∧
      ∀ page : call.Page, call.Answers page ↔ call.AllowsPage page := by
  cases call with
  | media search library viewer request selection accepted =>
    exact ⟨Media.media_returnsEachOnce_iff accepted, fun page =>
      iff_of_true (fun engine => Media.getMedia_answers accepted engine page) trivial⟩
  | users search db viewer request kept accepted =>
    exact ⟨users_returnsEachOnce_iff accepted, answersPage_iff accepted⟩

end ListingCall

/-- The page before the first of a listing of users aborts the call. -/
theorem negative_page_aborts :
    ¬ ∀ call : ListingCall, call.ReturnsEachOnce ∧ ∀ page : call.Page, call.Answers page := by
  intro h
  have hanswers := (h (.users plainSearch (unseenDirectory .empty) none {} _ rfl)).2 (-1 : Int32)
  exact hanswers.2 rfl

end Rellm.Users
