import Rellm.Posts.Visible

/-!
# Reading events

Every listing of events is a query over the occasions joined with their event, its post
and what may show that post to the viewer, and their own post. The filter that shows
posts has to pass for both posts; what shows the post of the event counts for that of the
occasion.
-/

namespace Rellm.Events

open Foundation Content Calendar Posts

inductive EventListingType where
  | allAccessibleEvents
  | followingEvents
  | myGroupsEvents
  | directEvents
  | eventsPendingModeration
  | eventTextSearch
  | groupEvents
  | groupEventsPendingModeration
  | newlyAddedEvents
  deriving DecidableEq, Repr

structure TimeFilter where
  endsAfter : Option EpochSeconds := none
  deriving DecidableEq, Repr

structure GetEventsRequest where
  authorUserId : Option (Option Nat) := none
  excludedAuthorUserIds : List (Option Nat) := []
  groupId : Option (Option Nat) := none
  timeFilter : Option TimeFilter := none
  postId : Option (Option Nat) := none
  listingType : EventListingType := .allAccessibleEvents
  searchText : Option String := none
  occasionPostIds : List (Option Nat) := []
  deriving DecidableEq, Repr

/-- An occasion with its event, the post of the event with what may show it, and its own post. -/
structure JoinedOccasion where
  occasion : Occasion
  event : Event
  eventRow : JoinedPost
  occasionPost : Post
  deriving DecidableEq, Repr

/-- An occasion joined with its event, the posts of both and what may show the event's. -/
def joinedOccasions (db : ContentDb) (viewer : Nat) (occasion : Occasion) : List JoinedOccasion :=
  match db.events.get occasion.eventId, db.posts.get occasion.postId with
  | some event, some occasionPost =>
    match db.posts.get event.postId with
    | some eventPost => (joined db viewer eventPost).map fun eventRow =>
      ⟨occasion, event, eventRow, occasionPost⟩
    | none => []
  | _, _ => []

/-- The filter of all listings: both posts are shown, and the post of the event has an author and
passes moderation, or is the viewer's own. -/
def visibleOccasion (user : Option Content.User) (row : JoinedOccasion) : Bool :=
  visibleTo user row.eventRow &&
    visibleTo user { row.eventRow with post := row.occasionPost } &&
    (passes row.eventRow.post.moderation || row.eventRow.post.userId = some (viewerId user)) &&
    row.eventRow.post.userId.isSome

/-- When an occasion that is listed has to end at the earliest. -/
def endsAfter (filter : Option TimeFilter) : Instant :=
  Content.toDb ((filter.bind (·.endsAfter)).getD 100)

/-- What a listing reads of a joined occasion. -/
structure EventLoadData where
  occasion : Occasion
  event : Event
  eventPost : Post
  occasionPost : Post
  deriving DecidableEq, Repr

def JoinedOccasion.data (row : JoinedOccasion) : EventLoadData :=
  ⟨row.occasion, row.event, row.eventRow.post, row.occasionPost⟩

structure OccasionReply where
  occasion : Occasion
  post : Post
  deriving DecidableEq, Repr

/-- An event as it is returned, with some of its occasions and the number of all it has. -/
structure EventReply where
  event : Event
  post : Post
  occasions : List OccasionReply
  occasionCount : Nat
  deriving DecidableEq, Repr

/-- The most occasions that are listed. -/
def listingOccasionLimit : Nat := 1000

/-- The most occasions that are returned of a single event. -/
def singleOccasionLimit : Nat := 1000

section

variable (db : ContentDb) (user : Option Content.User)

/-- The joined occasions that a query shows. -/
def visibleOccasions (filter : Option TimeFilter) (keep : JoinedOccasion → Bool) :
    List JoinedOccasion :=
  (db.occasions.rows.flatMap (joinedOccasions db (viewerId user))).filter fun row =>
    visibleOccasion user row && endsAfter filter < row.occasion.endsAt && keep row

/-- The first occasions that a query shows, by their start. -/
def firstVisibleEvents (limit : Nat) (filter : Option TimeFilter)
    (keep : JoinedOccasion → Bool) : List EventLoadData :=
  capped (fun data data' => data.occasion.startsAt ≤ data'.occasion.startsAt) limit
    (((visibleOccasions db user filter keep).map JoinedOccasion.data).dedup)

/-- The occasions that a listing shows. -/
def queryVisibleEvents (filter : Option TimeFilter) (keep : JoinedOccasion → Bool) :
    List EventLoadData :=
  firstVisibleEvents db user listingOccasionLimit filter keep

/-- The occasions of an event that the viewer may see. -/
def countOccasions (eventId : Nat) : Nat :=
  db.occasions.rows.countP fun occasion => occasion.eventId = eventId &&
    (db.posts.get occasion.postId).any fun post =>
      decide (post.visibility ∈ publicVisibilities user) ||
        post.userId = some (viewerId user)

/-- The number of the occasions of an event; an event of which none is counted gets the number of
those that are returned. -/
def attachedCount (eventId returned : Nat) : Nat :=
  match countOccasions db user eventId with
  | 0 => returned
  | count + 1 => count + 1

/-- One event for each occasion. -/
def marshalableEventData (data : List EventLoadData) : List EventReply :=
  data.map fun data =>
    { event := data.event
      post := data.eventPost
      occasions := [⟨data.occasion, data.occasionPost⟩]
      occasionCount := attachedCount db user data.event.postId 1 }

/-- The author of the event of an occasion is none of those the request leaves out. -/
def keepsEventAuthor (excluded : List Nat) (row : JoinedOccasion) : Bool :=
  keepsAuthor excluded row.eventRow.post

def getPublicAndFollowingEvents (filter : Option TimeFilter) (excluded : List Nat) :
    List EventReply :=
  marshalableEventData db user (queryVisibleEvents db user filter (keepsEventAuthor excluded))

def getUserEvents (author : Nat) (filter : Option TimeFilter) (excluded : List Nat) :
    List EventReply :=
  marshalableEventData db user (queryVisibleEvents db user filter fun row =>
    row.eventRow.post.userId = some author && keepsEventAuthor excluded row)

/-- An occasion with its event and the posts of both. -/
def occasionData (occasion : Occasion) : Option EventLoadData := do
  let event ← db.events.get occasion.eventId
  let eventPost ← db.posts.get event.postId
  let occasionPost ← db.posts.get occasion.postId
  return ⟨occasion, event, eventPost, occasionPost⟩

/-- Better matches first, and of those later ones. -/
def bestOccasionFirst (search : TextSearch) (query : String) (data data' : EventLoadData) : Bool :=
  search.occasionRank data'.occasion query < search.occasionRank data.occasion query ||
    (search.occasionRank data'.occasion query = search.occasionRank data.occasion query &&
      data'.occasion.startsAt ≤ data.occasion.startsAt)

/-- The author a request asks for. -/
def requestedEventAuthor (request : GetEventsRequest) : Except Status (Option Nat) :=
  match request.authorUserId with
  | none => .ok none
  | some none => .error (invalidId "author_user_id")
  | some (some author) => .ok (some author)

/-- The occasions that a search finds. -/
def matchingOccasionIds (search : TextSearch) (filter : Option TimeFilter) (query : String)
    (author : Option Nat) (excluded : List Nat) : List Nat :=
  (((visibleOccasions db user filter fun row =>
    search.matchesOccasion row.occasion query &&
      row.occasion.userId.all (fun author => decide (author ∉ excluded)) &&
      author.all fun author => row.occasion.userId = some author).map
      (·.occasion.postId)).dedup.mergeSort fun id id' => id ≤ id').take listingOccasionLimit

def getSearchEvents (search : TextSearch) (request : GetEventsRequest) (excluded : List Nat) :
    Except Status (List EventReply) := do
  let query ← searchQuery search.isAlphanumeric request.searchText
  let author ← requestedEventAuthor request
  let matching := matchingOccasionIds db user search request.timeFilter query author excluded
  let data := (db.occasions.rows.filter fun occasion =>
    decide (occasion.postId ∈ matching)).filterMap (occasionData db)
  return marshalableEventData db user
    (capped (bestOccasionFirst search query) listingOccasionLimit data)

/-- The occasions with some posts; an id that does not decode is left out. -/
def getEventsByOccasionPostIds (postIds : List (Option Nat)) : List EventReply :=
  let ids := postIds.filterMap id
  if ids = [] then []
  else marshalableEventData db user (queryVisibleEvents db user none fun row =>
    decide (row.occasion.postId ∈ ids))

def getEventById (eventId : Nat) : Except Status (List EventReply) :=
  match firstVisibleEvents db user singleOccasionLimit none
    fun row => row.event.postId = eventId with
  | [] => .error ⟨.notFound, "event_not_found"⟩
  | first :: others => .ok [{
      event := first.event
      post := first.eventPost
      occasions := (first :: others).map fun data => ⟨data.occasion, data.occasionPost⟩
      occasionCount :=
        attachedCount db user first.event.postId (first :: others).length }]

/-- The event that a post belongs to: its own post, or that of one of its occasions. -/
def eventIdOfPost (postId : Nat) : Option Nat :=
  match db.occasions.rows.find? fun occasion =>
    occasion.postId = postId || (db.events.get occasion.eventId).any (·.postId = postId) with
  | some occasion => some occasion.eventId
  | none => (db.events.get postId).map (·.postId)

def getEventByPostId (postId : Option Nat) : Except Status (List EventReply) := do
  let postId ← okOr postId (invalidId "post_id")
  let eventId ← okOr (eventIdOfPost db postId) ⟨.notFound, "event_not_found"⟩
  getEventById db user eventId

def getGroupEvents (groupId : Nat) (filter : Option TimeFilter) (excluded : List Nat) :
    Except Status (List EventReply) := do
  let group ← okOr (db.groups.get groupId) ⟨.notFound, "group_not_found"⟩
  let membership := user.bind fun user => db.getMembership groupId user.id
  validateGroupPermission group membership user .viewPosts
  return marshalableEventData db user (queryVisibleEvents db user filter fun row =>
    row.eventRow.groupPost.any (fun groupPost =>
      groupPost.groupId = groupId && passes groupPost.groupModeration) &&
      keepsEventAuthor excluded row)

/-- `GetEvents`: the listing that a request asks for. -/
def getEvents (search : TextSearch) (request : GetEventsRequest) :
    Except Status (List EventReply) := do
  let excluded ← decodedIds "excluded_author_user_ids" request.excludedAuthorUserIds
  if request.occasionPostIds ≠ [] then
    return getEventsByOccasionPostIds db user request.occasionPostIds
  else match request.listingType, request.authorUserId, request.postId with
  | .eventTextSearch, _, _ => getSearchEvents db user search request excluded
  | .groupEvents, _, _ => do
    let groupId ← okOr request.groupId ⟨.invalidArgument, "group_id_invalid"⟩
    let groupId ← okOr groupId (invalidId "group_id")
    getGroupEvents db user groupId request.timeFilter excluded
  | _, some author, _ => do
    let author ← okOr author (invalidId "author_user_id")
    return getUserEvents db user author request.timeFilter excluded
  | _, none, some postId => getEventByPostId db user postId
  | _, none, none => return getPublicAndFollowingEvents db user request.timeFilter excluded

end

/-- The filters of the listings show an occasion to a viewer, at some time. -/
def VisibleOccasion (db : ContentDb) (user : Option Content.User) (data : EventLoadData) : Prop :=
  (data.occasion ∈ db.occasions.rows ∧ 0 < data.occasion.endsAt) ∧
    ∃ row ∈ joinedOccasions db (viewerId user) data.occasion,
      visibleOccasion user row = true ∧ row.data = data

section

variable {db : ContentDb} {user : Option Content.User} {data : EventLoadData}

/-- What is joined is read from the tables. -/
theorem mem_joinedOccasions {viewer : Nat} {occasion : Occasion} {row : JoinedOccasion} :
    row ∈ joinedOccasions db viewer occasion ↔
      row.occasion = occasion ∧ db.events.get occasion.eventId = some row.event ∧
        db.posts.get occasion.postId = some row.occasionPost ∧
        db.posts.get row.event.postId = some row.eventRow.post ∧
        row.eventRow ∈ joined db viewer row.eventRow.post := by
  unfold joinedOccasions
  constructor
  · intro h
    split at h
    · rename_i event occasionPost hevent hoccasionPost
      split at h
      · rename_i eventPost heventPost
        obtain ⟨eventRow, heventRow, rfl⟩ := List.mem_map.mp h
        have hpost := post_of_mem_joined heventRow
        refine ⟨rfl, hevent, hoccasionPost, ?_, ?_⟩
        · rw [hpost]
          exact heventPost
        · rw [hpost]
          exact heventRow
      · cases h
    · cases h
  · rintro ⟨rfl, hevent, hoccasionPost, heventPost, heventRow⟩
    rw [hevent, hoccasionPost]
    dsimp only
    rw [heventPost]
    exact List.mem_map.mpr ⟨row.eventRow, heventRow, rfl⟩

/-- The rows of an occasion differ only in what may show the post of its event. -/
theorem occasionData_of_mem_joinedOccasions {viewer : Nat} {occasion : Occasion}
    {row : JoinedOccasion} (h : row ∈ joinedOccasions db viewer occasion) :
    occasionData db occasion = some row.data := by
  obtain ⟨rfl, hevent, hoccasionPost, heventPost, _⟩ := mem_joinedOccasions.mp h
  simp [occasionData, hevent, hoccasionPost, heventPost, JoinedOccasion.data]

theorem occasionData_of_visible (h : VisibleOccasion db user data) :
    occasionData db data.occasion = some data := by
  obtain ⟨_, row, hrow, _, hdata⟩ := h
  rw [occasionData_of_mem_joinedOccasions hrow, hdata]

theorem mem_visibleOccasions {filter : Option TimeFilter} {keep : JoinedOccasion → Bool}
    {row : JoinedOccasion} :
    row ∈ visibleOccasions db user filter keep ↔
      (row.occasion ∈ db.occasions.rows ∧
        row ∈ joinedOccasions db (viewerId user) row.occasion) ∧
      (visibleOccasion user row = true ∧ endsAfter filter < row.occasion.endsAt) ∧
        keep row = true := by
  simp only [visibleOccasions, List.mem_filter, List.mem_flatMap, Bool.and_eq_true,
    decide_eq_true_eq]
  apply and_congr_left
  intro _
  constructor
  · rintro ⟨occasion, hoccasion, hrow⟩
    rw [(mem_joinedOccasions.mp hrow).1]
    exact ⟨hoccasion, hrow⟩
  · rintro ⟨hoccasion, hrow⟩
    exact ⟨row.occasion, hoccasion, hrow⟩

theorem visible_of_mem_visibleOccasions {filter : Option TimeFilter}
    {keep : JoinedOccasion → Bool} {row : JoinedOccasion}
    (h : row ∈ visibleOccasions db user filter keep) : VisibleOccasion db user row.data := by
  obtain ⟨⟨hoccasion, hrow⟩, ⟨hvisible, hends⟩, _⟩ := mem_visibleOccasions.mp h
  exact ⟨⟨hoccasion, lt_of_le_of_lt (toDb_nonneg _) hends⟩, row, hrow, hvisible, rfl⟩

theorem visible_of_firstVisibleEvents {limit : Nat} {filter : Option TimeFilter}
    {keep : JoinedOccasion → Bool} (h : data ∈ firstVisibleEvents db user limit filter keep) :
    VisibleOccasion db user data := by
  obtain ⟨row, hrow, rfl⟩ := List.mem_map.mp (List.mem_dedup.mp (mem_of_mem_capped h))
  exact visible_of_mem_visibleOccasions hrow

/-- An event is returned for some visible occasions of it. -/
structure EventReply.Backed (db : ContentDb) (user : Option Content.User) (reply : EventReply) :
    Prop where
  some : reply.occasions ≠ []
  visible : ∀ occasion ∈ reply.occasions,
    VisibleOccasion db user ⟨occasion.occasion, reply.event, reply.post, occasion.post⟩

variable {search : TextSearch} {request : GetEventsRequest} {replies : List EventReply}
variable {reply : EventReply}

theorem backed_of_marshalableEventData {rows : List EventLoadData}
    (hrows : ∀ data ∈ rows, VisibleOccasion db user data)
    (h : reply ∈ marshalableEventData db user rows) : reply.Backed db user := by
  obtain ⟨data, hdata, rfl⟩ := List.mem_map.mp h
  refine ⟨List.cons_ne_nil _ _, ?_⟩
  intro occasion hoccasion
  rw [List.mem_singleton.mp hoccasion]
  exact hrows data hdata

/-- All occasions that are returned of an event share its row and its post. -/
theorem backed_of_getEventById {eventId : Nat} (h : getEventById db user eventId = .ok replies)
    (hreply : reply ∈ replies) : reply.Backed db user := by
  unfold getEventById at h
  split at h
  · cases h
  · rename_i first others hrows
    cases h
    rw [List.mem_singleton.mp hreply]
    have hshared (data : EventLoadData) (hdata : data ∈ first :: others) :
        VisibleOccasion db user data ∧ db.events.get eventId = some data.event ∧
          db.posts.get eventId = some data.eventPost := by
      rw [← hrows] at hdata
      have hvisible := visible_of_firstVisibleEvents hdata
      obtain ⟨row, hrow, rfl⟩ := List.mem_map.mp (List.mem_dedup.mp (mem_of_mem_capped hdata))
      obtain ⟨⟨_, hjoined⟩, _, hkeep⟩ := mem_visibleOccasions.mp hrow
      obtain ⟨_, hevent, _, heventPost, _⟩ := mem_joinedOccasions.mp hjoined
      have hid := of_decide_eq_true hkeep
      rw [hid] at heventPost
      refine ⟨hvisible, ?_, heventPost⟩
      rw [← hid, Table.key_of_get hevent]
      exact hevent
    refine ⟨List.cons_ne_nil _ _, ?_⟩
    intro occasion hoccasion
    obtain ⟨data, hdata, rfl⟩ := List.mem_map.mp hoccasion
    obtain ⟨hvisible, hevent, heventPost⟩ := hshared data hdata
    obtain ⟨_, hfirst, hfirstPost⟩ := hshared first List.mem_cons_self
    have hsameEvent : first.event = data.event := Option.some.inj (hfirst.symm.trans hevent)
    have hsamePost : first.eventPost = data.eventPost :=
      Option.some.inj (hfirstPost.symm.trans heventPost)
    dsimp only
    rw [hsameEvent, hsamePost]
    exact hvisible

theorem backed_of_getSearchEvents {excluded : List Nat}
    (h : getSearchEvents db user search request excluded = .ok replies)
    (hreply : reply ∈ replies) : reply.Backed db user := by
  simp only [getSearchEvents, checks_eq_ok, pure_eq_ok] at h
  obtain ⟨query, _, author, _, rfl⟩ := h
  apply backed_of_marshalableEventData _ hreply
  intro data hdata
  obtain ⟨occasion, hoccasion, hjoin⟩ := List.mem_filterMap.mp (mem_of_mem_capped hdata)
  obtain ⟨hmem, hmatching⟩ := List.mem_filter.mp hoccasion
  have hid := List.mem_dedup.mp
    (List.mem_mergeSort.mp (List.mem_of_mem_take (of_decide_eq_true hmatching)))
  obtain ⟨row, hrow, hpostId⟩ := List.mem_map.mp hid
  obtain ⟨⟨hrowMem, hjoined⟩, _⟩ := mem_visibleOccasions.mp hrow
  have hsame := db.occasions.eq_of_key_eq hrowMem hmem hpostId
  have hvisible := visible_of_mem_visibleOccasions hrow
  have hdata := occasionData_of_visible hvisible
  rw [← hsame] at hjoin
  have heq : row.data = data := Option.some.inj (hdata.symm.trans hjoin)
  rwa [heq] at hvisible

/-- Whatever the listing, an event is returned for visible occasions of it. -/
theorem backed_of_getEvents (h : getEvents db user search request = .ok replies)
    (hreply : reply ∈ replies) : reply.Backed db user := by
  have hquery {filter : Option TimeFilter} {keep : JoinedOccasion → Bool} {reply : EventReply}
      (hreply : reply ∈ marshalableEventData db user (queryVisibleEvents db user filter keep)) :
      reply.Backed db user :=
    backed_of_marshalableEventData (fun _ => visible_of_firstVisibleEvents) hreply
  simp only [getEvents, checks_eq_ok] at h
  obtain ⟨excluded, _, h⟩ := h
  split at h
  · rw [pure_eq_ok] at h
    subst h
    unfold getEventsByOccasionPostIds at hreply
    dsimp only at hreply
    split at hreply
    · cases hreply
    · exact hquery hreply
  · split at h
    · exact backed_of_getSearchEvents h hreply
    · simp only [getGroupEvents, checks_eq_ok, pure_eq_ok] at h
      obtain ⟨_, _, _, _, _, _, _, _, rfl⟩ := h
      exact hquery hreply
    · simp only [checks_eq_ok, pure_eq_ok] at h
      obtain ⟨_, _, rfl⟩ := h
      exact hquery hreply
    · simp only [getEventByPostId, checks_eq_ok] at h
      obtain ⟨_, _, _, _, h⟩ := h
      exact backed_of_getEventById h hreply
    · rw [pure_eq_ok] at h
      subst h
      exact hquery hreply

/-- A search engine that finds a single occasion. -/
def findsOnly (occasion : Occasion) : TextSearch where
  isAlphanumeric _ := true
  matchesPost _ _ := false
  postRank _ _ := 0
  matchesOccasion other _ := other = occasion
  occasionRank _ _ := 0
  popularity _ _ := 0

/-- A search through occasions of all times. -/
def searchAll : GetEventsRequest where
  listingType := .eventTextSearch
  searchText := some "x"
  timeFilter := some { endsAfter := some 0 }

theorem matchingOccasionIds_findsOnly (h : VisibleOccasion db user data) :
    matchingOccasionIds db user (findsOnly data.occasion) searchAll.timeFilter
      "x:*" none [] = [data.occasion.postId] := by
  unfold matchingOccasionIds
  have hids : ((visibleOccasions db user searchAll.timeFilter fun row =>
      (findsOnly data.occasion).matchesOccasion row.occasion "x:*" &&
        row.occasion.userId.all (fun author => decide (author ∉ ([] : List Nat))) &&
        (none : Option Nat).all fun author => row.occasion.userId = some author).map
        (·.occasion.postId)).dedup = [data.occasion.postId] := by
    apply List.perm_singleton.mp
    rw [List.perm_ext_iff_of_nodup (List.nodup_dedup _) (List.nodup_singleton _)]
    intro id
    rw [List.mem_singleton, List.mem_dedup, List.mem_map]
    constructor
    · rintro ⟨row, hrow, rfl⟩
      obtain ⟨_, _, hkeep⟩ := mem_visibleOccasions.mp hrow
      have hfound : row.occasion = data.occasion := by
        simpa [findsOnly] using hkeep
      rw [hfound]
    · rintro rfl
      obtain ⟨⟨hmem, hends⟩, row, hrow, hvisible, _⟩ := h
      have hoccasion := (mem_joinedOccasions.mp hrow).1
      refine ⟨row, mem_visibleOccasions.mpr ⟨⟨?_, ?_⟩, ⟨hvisible, ?_⟩, ?_⟩, ?_⟩
      · rwa [hoccasion]
      · rwa [hoccasion]
      · rw [hoccasion]
        exact hends
      · simp [findsOnly, hoccasion]
      · rw [hoccasion]
  rw [hids, List.mergeSort_singleton]
  rfl

/-- Of the occasions, the one with a given post is read. -/
theorem load_occasion (h : VisibleOccasion db user data) :
    (db.occasions.rows.filter fun occasion =>
      decide (occasion.postId ∈ [data.occasion.postId])).filterMap (occasionData db) = [data] := by
  have honly : (db.occasions.rows.filter fun occasion =>
      decide (occasion.postId ∈ [data.occasion.postId])) = [data.occasion] := by
    apply List.perm_singleton.mp
    rw [List.perm_ext_iff_of_nodup ((List.Nodup.of_map _ db.occasions.nodup).filter _)
      (List.nodup_singleton _)]
    intro occasion
    simp only [List.mem_filter, List.mem_singleton, decide_eq_true_eq]
    constructor
    · rintro ⟨hmem, hid⟩
      exact db.occasions.eq_of_key_eq hmem h.1.1 hid
    · rintro rfl
      exact ⟨h.1.1, rfl⟩
  rw [honly, List.filterMap_cons, occasionData_of_visible h]
  rfl

/-- A visible occasion is returned by a search that finds only it. -/
theorem getEvents_searchAll (h : VisibleOccasion db user data) :
    getEvents db user (findsOnly data.occasion) searchAll =
      .ok (marshalableEventData db user [data]) := by
  have hquery : searchQuery (findsOnly data.occasion).isAlphanumeric
      searchAll.searchText = .ok "x:*" := by
    simp only [findsOnly, searchAll]
    decide +kernel
  have hauthor : requestedEventAuthor searchAll = .ok none := rfl
  have hfound : getSearchEvents db user (findsOnly data.occasion) searchAll [] =
      .ok (marshalableEventData db user [data]) := by
    unfold getSearchEvents
    rw [checks_of_ok hquery, checks_of_ok hauthor]
    dsimp only
    rw [matchingOccasionIds_findsOnly h, load_occasion h, capped, List.mergeSort_singleton]
    rfl
  rw [← hfound]
  rfl

end

section

variable {db : ContentDb} {user : Option Content.User} {data : EventLoadData}

/-- The visible occasions are those of which both posts reach the viewer through the post of the
event, which has an author and passes moderation, or is the viewer's own. -/
theorem visibleOccasion_iff_reaches :
    VisibleOccasion db user data ↔
      (data.occasion ∈ db.occasions.rows ∧ 0 < data.occasion.endsAt) ∧
        occasionData db data.occasion = some data ∧
        Reaches db user data.eventPost data.eventPost ∧
        Reaches db user data.eventPost data.occasionPost ∧
        (passes data.eventPost.moderation = true ∨
          data.eventPost.userId = some (viewerId user)) ∧
        data.eventPost.userId.isSome := by
  constructor
  · intro h
    have hdata := occasionData_of_visible h
    obtain ⟨hoccasion, row, hrow, hvisible, rfl⟩ := h
    obtain ⟨_, _, _, _, hjoined⟩ := mem_joinedOccasions.mp hrow
    simp only [visibleOccasion, Bool.and_eq_true, Bool.or_eq_true, decide_eq_true_eq] at hvisible
    obtain ⟨⟨⟨hevent, hown⟩, hmoderation⟩, hauthor⟩ := hvisible
    exact ⟨hoccasion, hdata, reaches_of_visibleTo hjoined hevent,
      reaches_of_visibleTo hjoined hown, hmoderation, hauthor⟩
  · rintro ⟨hoccasion, hdata, hevent, hown, hmoderation, hauthor⟩
    refine ⟨hoccasion, ?_⟩
    obtain ⟨occasion, event, eventPost, occasionPost⟩ := data
    simp only [occasionData, Option.bind_eq_bind, Option.bind_eq_some_iff] at hdata
    obtain ⟨_, hgetEvent, _, hgetEventPost, _, hgetOccasionPost, hdata⟩ := hdata
    cases hdata
    obtain ⟨row, hrow, hshows⟩ := exists_row_shows db user eventPost
    have hpost := post_of_mem_joined hrow
    refine ⟨⟨occasion, event, row, occasionPost⟩, ?_, ?_, ?_⟩
    · refine mem_joinedOccasions.mpr ⟨rfl, hgetEvent, hgetOccasionPost, ?_, ?_⟩
      · rw [hpost]
        exact hgetEventPost
      · rw [hpost]
        exact hrow
    · have hshown := hshows eventPost hevent
      rw [← hpost] at hshown hmoderation hauthor
      simp only [visibleOccasion, Bool.and_eq_true, Bool.or_eq_true, decide_eq_true_eq]
      exact ⟨⟨⟨hshown, hshows occasionPost hown⟩, hmoderation⟩, hauthor⟩
    · rw [JoinedOccasion.data, hpost]

end

end Rellm.Events
