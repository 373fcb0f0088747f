import Rellm.Content.Access
import Rellm.Foundation.Queries

/-!
# Reading posts

Every listing of posts is a query over the posts joined with what may show them to the
viewer: a follow of the author, and the groups a post is shared in with the viewer's
memberships there. A post is shown if one of its joined rows passes the filter that all
listings share, and the filter of the listing.
-/

namespace Rellm.Posts

open Foundation Content Calendar

inductive PostListingType where
  | allAccessiblePosts
  | followingPosts
  | myGroupsPosts
  | directPosts
  | postsPendingModeration
  | textSearch
  | recentlyPopularPosts
  | groupPosts
  | groupPostsPendingModeration
  deriving DecidableEq, Repr

structure GetPostsRequest where
  postId : Option (Option Nat) := none
  authorUserId : Option (Option Nat) := none
  excludedAuthorUserIds : List (Option Nat) := []
  groupId : Option (Option Nat) := none
  replyDepth : Option UInt32 := none
  context : PostContext := .post
  listingType : PostListingType := .allAccessiblePosts
  page : UInt32 := 0
  searchText : Option String := none
  publishedOrCreatedBefore : Option EpochSeconds := none
  deriving DecidableEq, Repr

/-- What the database and the standard library know of texts and scores: which characters are
alphanumeric, which rows a query matches and how well, and how popular a post is at a time. -/
structure TextSearch where
  isAlphanumeric : Char → Bool
  matchesPost : Post → String → Bool
  postRank : Post → String → Nat
  matchesOccasion : Occasion → String → Bool
  occasionRank : Occasion → String → Nat
  popularity : Instant → Post → Nat

/-- The query for words that start like those of a text; other characters are dropped. -/
def prefixTsqueryText (isAlphanumeric : Char → Bool) (searchText : String) : String :=
  let words := (searchText.toList.splitOnP isWhitespace).map fun word =>
    String.ofList (word.filter isAlphanumeric)
  String.intercalate " & " ((words.filter fun word => word ≠ "").map fun word => word ++ ":*")

/-- The query of a request, if it has any text to look for. -/
def searchQuery (isAlphanumeric : Char → Bool) (searchText : Option String) :
    Except Status String := do
  let searchText ← okOr ((searchText.map trim).filter fun text => text ≠ "")
    ⟨.invalidArgument, "search_text_required"⟩
  let query := prefixTsqueryText isAlphanumeric searchText
  require (query ≠ "") ⟨.invalidArgument, "search_text_required"⟩
  return query

/-- When a post was published, or else created. -/
def sortPublishedAt (post : Post) : Instant := post.publishedAt.getD post.createdAt

/-- Newest posts first. -/
def newestFirst (post post' : Post) : Bool :=
  sortPublishedAt post' < sortPublishedAt post ||
    (sortPublishedAt post' = sortPublishedAt post && post'.id ≤ post.id)

/-- A post with what may show it to a viewer. -/
structure JoinedPost where
  post : Post
  follow : Option Follow
  groupPost : Option GroupPost
  membership : Option Membership
  deriving DecidableEq, Repr

/-- A post joined with a viewer's follow of its author, the groups it is shared in and the viewer's
membership of each. -/
def joined (db : ContentDb) (viewer : Nat) (post : Post) : List JoinedPost :=
  (leftJoin (fun groupPost => groupPost.postId = post.id) db.groupPosts.rows).map fun groupPost =>
    { post := post
      follow := post.userId.bind fun author => db.follows.get (viewer, author)
      groupPost := groupPost
      membership := groupPost.bind fun groupPost =>
        db.memberships.get (viewer, groupPost.groupId) }

/-- The filter of all listings: a post is public, or limited and a follow or a membership shows it,
or the viewer's own. -/
def visibleTo (user : Option Content.User) (row : JoinedPost) : Bool :=
  decide (row.post.visibility ∈ publicVisibilities user) ||
    (row.post.visibility = .limited &&
      row.follow.any fun follow => follow.userId = viewerId user) ||
    (row.post.visibility = .limited && row.membership.any fun membership =>
      membership.passes && membership.userId = viewerId user) ||
    row.post.userId = some (viewerId user)

/-- The most posts on a page. -/
def pageSize : Nat := 200

/-- The most matches a search ranks. -/
def searchCandidateLimit : Nat := 5000

/-- A post as it is returned, with the group it is listed for and its replies. -/
inductive PostReply where
  | mk (post : Post) (groupPost : Option GroupPost) (replies : List PostReply)

/-- The post that a reply is about. -/
def PostReply.post : PostReply → Post
  | .mk post _ _ => post

/-- A post without replies. -/
def PostReply.single (post : Post) : PostReply := ⟨post, none, []⟩

/-- A reply shows a post: it is the one returned, or one of the replies at any depth. -/
inductive PostReply.Shows (shown : Post) : PostReply → Prop
  | self (groupPost : Option GroupPost) (replies : List PostReply) :
      Shows shown ⟨shown, groupPost, replies⟩
  | deeper (post : Post) (groupPost : Option GroupPost) (replies : List PostReply)
      (reply : PostReply) (hreply : reply ∈ replies) (hshows : Shows shown reply) :
      Shows shown ⟨post, groupPost, replies⟩

section

variable (db : ContentDb) (user : Option Content.User)

/-- The joined rows that a listing shows. -/
def visibleRows (keep : JoinedPost → Bool) : List JoinedPost :=
  (db.posts.rows.flatMap (joined db (viewerId user))).filter fun row =>
    visibleTo user row && keep row

/-- The posts that a listing shows. -/
def visiblePosts (keep : JoinedPost → Bool) : List Post :=
  ((visibleRows db user keep).map (·.post)).dedup

/-- The author of a post is none of those the request leaves out. -/
def keepsAuthor (excluded : List Nat) (post : Post) : Bool :=
  post.userId.all fun author => decide (author ∉ excluded)

/-- The time before which a request asks for posts. -/
def GetPostsRequest.cutoff (request : GetPostsRequest) : Option Instant :=
  request.publishedOrCreatedBefore.map Content.toDb

/-- A post was published before the time the request asks for. -/
def beforeCutoff (cutoff : Option Instant) (post : Post) : Bool :=
  cutoff.all fun cutoff => sortPublishedAt post < cutoff

/-- Posts, but not replies, are listed at the top level only. -/
def topLevel (context : PostContext) (post : Post) : Bool :=
  context ≠ .post || post.parentPostId.isNone

def getByPostId (postId : Option Nat) : Except Status (List PostReply) := do
  let postId ← okOr postId ⟨.invalidArgument, "post_id_invalid"⟩
  let result := (visiblePosts db user fun row => row.post.id = postId).take pageSize
  require (result ≠ []) ⟨.notFound, "post_not_found"⟩
  return result.map .single

/-- The replies to a post, out of the replies to some posts at each depth. -/
def getRepliesToPostIds : Nat → List Nat → Nat → List PostReply
  | 0, _, _ => []
  | depth + 1, postIds, parent =>
    let level := paged (fun post post' => sortPublishedAt post' ≤ sortPublishedAt post) 0 pageSize
      (visiblePosts db user fun row =>
        row.post.parentPostId.any (fun parent => decide (parent ∈ postIds)) &&
          (row.post.userId.isSome || decide (0 < row.post.responseCount)))
    (level.filter fun post => post.parentPostId.getD 0 = parent).map fun post =>
      ⟨post, none, getRepliesToPostIds depth (level.map (·.id)) post.id⟩

def getRepliesToPostId (postId : Option Nat) (replyDepth : Nat) :
    Except Status (List PostReply) := do
  let postId ← okOr postId ⟨.invalidArgument, "replies_to_post_id_invalid"⟩
  return getRepliesToPostIds db user replyDepth [postId] postId

/-- A page of the posts that a listing shows, newest first. -/
def feed (offset : Nat) (keep : Post → Bool) (keepRow : JoinedPost → Bool) : List PostReply :=
  (paged newestFirst offset pageSize
    (visiblePosts db user fun row => keep row.post && keepRow row)).map .single

def getPublicAndFollowingPosts (request : GetPostsRequest) (excluded : List Nat) (offset : Nat) :
    List PostReply :=
  feed db user offset (fun post => post.context = request.context && post.userId.isSome &&
    keepsAuthor excluded post && topLevel request.context post &&
    beforeCutoff request.cutoff post) fun _ => true

/-- The author a request asks for. -/
def requestedAuthor (request : GetPostsRequest) (field : String) : Except Status (Option Nat) :=
  match request.authorUserId with
  | none => .ok none
  | some none => .error (invalidId field)
  | some (some author) => .ok (some author)

/-- How far back popular posts are looked for. -/
def recentlyPopularWindow : Int := days 14

/-- More popular posts first, and of those newer ones. -/
def mostPopularFirst (search : TextSearch) (reference : Instant) (post post' : Post) : Bool :=
  search.popularity reference post' < search.popularity reference post ||
    (search.popularity reference post' = search.popularity reference post &&
      newestFirst post post')

def getRecentlyPopularPosts (search : TextSearch) (now : Instant) (request : GetPostsRequest)
    (excluded : List Nat) (offset : Nat) : Except Status (List PostReply) := do
  let author ← requestedAuthor request "author_user_id"
  let reference := request.cutoff.getD now
  let posts := visiblePosts db user fun row =>
    row.post.context = request.context && row.post.userId.isSome &&
      reference - recentlyPopularWindow ≤ sortPublishedAt row.post &&
      keepsAuthor excluded row.post && topLevel request.context row.post &&
      author.all (fun author => row.post.userId = some author) &&
      beforeCutoff request.cutoff row.post
  return (paged (mostPopularFirst search reference) offset pageSize posts).map .single

/-- Better matches first, and of those newer ones. -/
def bestMatchFirst (search : TextSearch) (query : String) (post post' : Post) : Bool :=
  search.postRank post' query < search.postRank post query ||
    (search.postRank post' query = search.postRank post query && newestFirst post post')

def getSearchPosts (search : TextSearch) (request : GetPostsRequest) (excluded : List Nat)
    (offset : Nat) : Except Status (List PostReply) := do
  let query ← searchQuery search.isAlphanumeric request.searchText
  let author ← requestedAuthor request "author_user_id"
  let matching := ((visiblePosts db user fun row =>
    row.post.context = request.context && search.matchesPost row.post query &&
      keepsAuthor excluded row.post &&
      author.all (fun author => row.post.userId = some author) &&
      beforeCutoff request.cutoff row.post).map (·.id)).take
      searchCandidateLimit
  return (paged (bestMatchFirst search query) offset pageSize
    (db.posts.rows.filter fun post => decide (post.id ∈ matching))).map .single

def getUserPosts (request : GetPostsRequest) (excluded : List Nat) (offset : Nat) :
    Except Status (List PostReply) := do
  let author ← requestedAuthor request "user_id"
  return feed db user offset (fun post => post.context = request.context &&
    author.all (fun author => post.userId = some author) && keepsAuthor excluded post &&
    beforeCutoff request.cutoff post) fun _ => true

/-- The caller, who has to be logged in. -/
def loggedIn : Except Status Content.User := okOr user ⟨.unauthenticated, "must_be_logged_in"⟩

def getMyGroupPosts (cutoff : Option Instant) (excluded : List Nat) (offset : Nat) :
    List PostReply :=
  feed db user offset (fun post => post.context = .post && keepsAuthor excluded post &&
    beforeCutoff cutoff post) fun row =>
      row.membership.any (fun membership => membership.userId = viewerId user) &&
        row.groupPost.any fun groupPost => passes groupPost.groupModeration

def getFollowingPosts (context : PostContext) (cutoff : Option Instant) (excluded : List Nat)
    (offset : Nat) : List PostReply :=
  feed db user offset (fun post => post.context = context && keepsAuthor excluded post &&
    topLevel context post && beforeCutoff cutoff post) fun row =>
      row.follow.any fun follow =>
        follow.userId = viewerId user && passes follow.targetUserModeration

def getGroupPosts (groupId : Nat) (moderations : List Moderation) (cutoff : Option Instant)
    (excluded : List Nat) (offset : Nat) : Except Status (List PostReply) := do
  let group ← okOr (db.groups.get groupId) ⟨.notFound, "group_not_found"⟩
  let membership := user.bind fun user => db.getMembership groupId user.id
  validateGroupPermission group membership user .viewPosts
  let rows := visibleRows db user fun row =>
    row.post.context = .post &&
      row.groupPost.any (fun groupPost => groupPost.groupId = groupId &&
        decide (groupPost.groupModeration ∈ moderations)) &&
      keepsAuthor excluded row.post && beforeCutoff cutoff row.post
  let listed := (rows.map fun row => (row.post, row.groupPost)).dedup
  return (paged (fun entry entry' => newestFirst entry.1 entry'.1) offset pageSize listed).map
    fun entry => ⟨entry.1, entry.2, []⟩

/-- The group a request asks for. -/
def requestedGroup (request : GetPostsRequest) : Except Status Nat :=
  match request.groupId with
  | none => .error ⟨.invalidArgument, "group_id_required"⟩
  | some groupId => okOr groupId (invalidId "group_id")

/-- `GetPosts`: the listing that a request asks for. -/
def getPosts (search : TextSearch) (now : Instant) (request : GetPostsRequest) :
    Except Status (List PostReply) := do
  let excluded ← decodedIds "excluded_author_user_ids" request.excludedAuthorUserIds
  let offset := request.page.toNat * pageSize
  match request.postId, request.listingType, request.authorUserId with
  | some postId, _, _ =>
    match request.replyDepth with
    | none | some 0 => getByPostId db user postId
    | some replyDepth => getRepliesToPostId db user postId replyDepth.toNat
  | none, .textSearch, _ => getSearchPosts db user search request excluded offset
  | none, .recentlyPopularPosts, _ =>
    getRecentlyPopularPosts db user search now request excluded offset
  | none, _, some _ => getUserPosts db user request excluded offset
  | none, .myGroupsPosts, none => do
    let _ ← loggedIn user
    return getMyGroupPosts db user request.cutoff excluded offset
  | none, .followingPosts, none => do
    let _ ← loggedIn user
    return getFollowingPosts db user request.context request.cutoff excluded offset
  | none, .groupPosts, none => do
    let groupId ← requestedGroup request
    getGroupPosts db user groupId [.unmoderated, .approved] request.cutoff excluded offset
  | none, .groupPostsPendingModeration, none => do
    let _ ← loggedIn user
    let groupId ← requestedGroup request
    getGroupPosts db user groupId [.pending] request.cutoff excluded offset
  | none, _, none => return getPublicAndFollowingPosts db user request excluded offset

end

/-- The visibility filter shows a post to a viewer. -/
def Visible (db : ContentDb) (user : Option Content.User) (post : Post) : Prop :=
  post ∈ db.posts.rows ∧ ∃ row ∈ joined db (viewerId user) post, visibleTo user row = true

section

variable {db : ContentDb} {user : Option Content.User} {post : Post}

theorem post_of_mem_joined {viewer : Nat} {row : JoinedPost} (h : row ∈ joined db viewer post) :
    row.post = post := by
  obtain ⟨groupPost, _, rfl⟩ := List.mem_map.mp h
  rfl

/-- A listing shows the posts that pass both filters. -/
theorem mem_visiblePosts {keep : JoinedPost → Bool} :
    post ∈ visiblePosts db user keep ↔
      post ∈ db.posts.rows ∧
        ∃ row ∈ joined db (viewerId user) post, visibleTo user row = true ∧ keep row = true := by
  simp only [visiblePosts, visibleRows, List.mem_dedup, List.mem_map, List.mem_filter,
    List.mem_flatMap, Bool.and_eq_true]
  constructor
  · rintro ⟨row, ⟨⟨other, hother, hrow⟩, hvisible, hkeep⟩, rfl⟩
    rw [post_of_mem_joined hrow]
    exact ⟨hother, row, hrow, hvisible, hkeep⟩
  · rintro ⟨hpost, row, hrow, hvisible, hkeep⟩
    exact ⟨row, ⟨⟨post, hpost, hrow⟩, hvisible, hkeep⟩, post_of_mem_joined hrow⟩

theorem nodup_visiblePosts (keep : JoinedPost → Bool) : (visiblePosts db user keep).Nodup :=
  List.nodup_dedup _

theorem visible_of_mem_visiblePosts {keep : JoinedPost → Bool}
    (h : post ∈ visiblePosts db user keep) : Visible db user post := by
  obtain ⟨hpost, row, hrow, hvisible, _⟩ := mem_visiblePosts.mp h
  exact ⟨hpost, row, hrow, hvisible⟩

/-- Only the posts of a reply are shown that it shows itself or in its replies. -/
theorem shows_mk {shown : Post} {groupPost : Option GroupPost} {replies : List PostReply} :
    PostReply.Shows shown ⟨post, groupPost, replies⟩ ↔
      shown = post ∨ ∃ reply ∈ replies, PostReply.Shows shown reply := by
  constructor
  · intro h
    cases h with
    | self => exact Or.inl rfl
    | deeper _ _ _ reply hreply hshows => exact Or.inr ⟨reply, hreply, hshows⟩
  · rintro (rfl | ⟨reply, hreply, hshows⟩)
    · exact .self groupPost replies
    · exact .deeper post groupPost replies reply hreply hshows

/-- Posts without replies show themselves only. -/
theorem mem_of_shows_single {posts : List Post} {reply : PostReply}
    (hreply : reply ∈ posts.map .single) (h : reply.Shows post) : post ∈ posts := by
  obtain ⟨other, hother, rfl⟩ := List.mem_map.mp hreply
  obtain rfl | ⟨_, hnone, _⟩ := shows_mk.mp h
  · exact hother
  · cases hnone

theorem visible_of_feed {offset : Nat} {keep : Post → Bool} {keepRow : JoinedPost → Bool}
    {reply : PostReply} (hreply : reply ∈ feed db user offset keep keepRow)
    (h : reply.Shows post) : Visible db user post :=
  visible_of_mem_visiblePosts (mem_of_mem_paged (mem_of_shows_single hreply h))

/-- Replies are shown as posts are, at any depth. -/
theorem visible_of_replies {depth : Nat} {postIds : List Nat} {parent : Nat} {reply : PostReply}
    (hreply : reply ∈ getRepliesToPostIds db user depth postIds parent) (h : reply.Shows post) :
    Visible db user post := by
  induction depth generalizing postIds parent reply with
  | zero => cases hreply
  | succ depth ih =>
    obtain ⟨other, hother, rfl⟩ := List.mem_map.mp hreply
    obtain rfl | ⟨deeper, hdeeper, hshows⟩ := shows_mk.mp h
    · exact visible_of_mem_visiblePosts (mem_of_mem_paged (List.mem_filter.mp hother).1)
    · exact ih hdeeper hshows

variable {search : TextSearch} {now : Instant} {request : GetPostsRequest}
variable {replies : List PostReply} {reply : PostReply}

theorem visible_of_getByPostId {postId : Option Nat}
    (h : getByPostId db user postId = .ok replies) (hreply : reply ∈ replies)
    (hshows : reply.Shows post) : Visible db user post := by
  simp only [getByPostId, checks_eq_ok, okOr_eq_ok, require_eq_ok, pure_eq_ok] at h
  obtain ⟨_, _, _, _, rfl⟩ := h
  exact visible_of_mem_visiblePosts (List.mem_of_mem_take (mem_of_shows_single hreply hshows))

theorem visible_of_getSearchPosts {excluded : List Nat} {offset : Nat}
    (h : getSearchPosts db user search request excluded offset = .ok replies)
    (hreply : reply ∈ replies) (hshows : reply.Shows post) : Visible db user post := by
  simp only [getSearchPosts, checks_eq_ok, pure_eq_ok] at h
  obtain ⟨_, _, _, _, rfl⟩ := h
  have hmem := List.mem_filter.mp (mem_of_mem_paged (mem_of_shows_single hreply hshows))
  obtain ⟨other, hother, hid⟩ :=
    List.mem_map.mp (List.mem_of_mem_take (of_decide_eq_true hmem.2))
  have hvisible := visible_of_mem_visiblePosts hother
  rwa [db.posts.eq_of_key_eq hvisible.1 hmem.1 hid] at hvisible

theorem visible_of_getGroupPosts {groupId : Nat} {moderations : List Moderation}
    {cutoff : Option Instant} {excluded : List Nat} {offset : Nat}
    (h : getGroupPosts db user groupId moderations cutoff excluded offset = .ok replies)
    (hreply : reply ∈ replies) (hshows : reply.Shows post) : Visible db user post := by
  simp only [getGroupPosts, checks_eq_ok, okOr_eq_ok, pure_eq_ok] at h
  obtain ⟨_, _, _, _, rfl⟩ := h
  obtain ⟨entry, hentry, rfl⟩ := List.mem_map.mp hreply
  obtain rfl | ⟨_, hnone, _⟩ := shows_mk.mp hshows
  · obtain ⟨row, hrow, rfl⟩ := List.mem_map.mp (List.mem_dedup.mp (mem_of_mem_paged hentry))
    exact visible_of_mem_visiblePosts (List.mem_dedup.mpr (List.mem_map_of_mem hrow))
  · cases hnone

/-- Whatever the listing, only visible posts are returned. -/
theorem visible_of_getPosts (h : getPosts db user search now request = .ok replies)
    (hreply : reply ∈ replies) (hshows : reply.Shows post) : Visible db user post := by
  simp only [getPosts, checks_eq_ok] at h
  obtain ⟨excluded, _, h⟩ := h
  split at h
  · split at h
    · exact visible_of_getByPostId h hreply hshows
    · exact visible_of_getByPostId h hreply hshows
    · simp only [getRepliesToPostId, checks_eq_ok, okOr_eq_ok, pure_eq_ok] at h
      obtain ⟨_, _, rfl⟩ := h
      exact visible_of_replies hreply hshows
  · exact visible_of_getSearchPosts h hreply hshows
  · simp only [getRecentlyPopularPosts, checks_eq_ok, pure_eq_ok] at h
    obtain ⟨_, _, rfl⟩ := h
    exact visible_of_mem_visiblePosts (mem_of_mem_paged (mem_of_shows_single hreply hshows))
  · simp only [getUserPosts, checks_eq_ok, pure_eq_ok] at h
    obtain ⟨_, _, rfl⟩ := h
    exact visible_of_feed hreply hshows
  · simp only [checks_eq_ok, pure_eq_ok] at h
    obtain ⟨_, _, rfl⟩ := h
    exact visible_of_feed hreply hshows
  · simp only [checks_eq_ok, pure_eq_ok] at h
    obtain ⟨_, _, rfl⟩ := h
    exact visible_of_feed hreply hshows
  · simp only [checks_eq_ok] at h
    obtain ⟨_, _, h⟩ := h
    exact visible_of_getGroupPosts h hreply hshows
  · simp only [checks_eq_ok] at h
    obtain ⟨_, _, _, _, h⟩ := h
    exact visible_of_getGroupPosts h hreply hshows
  · rw [pure_eq_ok] at h
    subst h
    exact visible_of_feed hreply hshows

/-- The request for a single post. -/
def singlePost (id : Nat) : GetPostsRequest := { postId := some (some id) }

/-- A visible post is returned on its own. -/
theorem getPosts_singlePost (search : TextSearch) (now : Instant) (h : Visible db user post) :
    getPosts db user search now (singlePost post.id) = .ok [.single post] := by
  have hresult : (visiblePosts db user fun row => row.post.id = post.id) = [post] := by
    apply List.perm_singleton.mp
    rw [List.perm_ext_iff_of_nodup (nodup_visiblePosts _) (List.nodup_singleton post)]
    intro other
    rw [List.mem_singleton]
    constructor
    · intro hother
      obtain ⟨hrow, row, hjoined, _, hid⟩ := mem_visiblePosts.mp hother
      rw [post_of_mem_joined hjoined, decide_eq_true_eq] at hid
      exact db.posts.eq_of_key_eq hrow h.1 hid
    · rintro rfl
      obtain ⟨hpost, row, hrow, hvisible⟩ := h
      refine mem_visiblePosts.mpr ⟨hpost, row, hrow, hvisible, ?_⟩
      rw [post_of_mem_joined hrow, decide_eq_true_eq]
  have hfound : getByPostId db user (some post.id) = .ok [.single post] := by
    simp [getByPostId, okOr, hresult, pageSize, require, bind, Except.bind, pure, Except.pure]
  rw [← hfound]
  rfl

end

/-- A viewer follows the author of a post, or has asked to. -/
def Followed (db : ContentDb) (user : Option Content.User) (post : Post) : Prop :=
  ∃ author follow, post.userId = some author ∧
    db.follows.get (viewerId user, author) = some follow

/-- A post is shared, accepted or not, in a group that a viewer belongs to. -/
def SharedWith (db : ContentDb) (user : Option Content.User) (post : Post) : Prop :=
  ∃ groupPost ∈ db.groupPosts.rows, groupPost.postId = post.id ∧
    ∃ membership, db.memberships.get (viewerId user, groupPost.groupId) = some membership ∧
      membership.passes = true

/-- A post reaches a viewer: it is public, or limited and a follow or a group shows it, or the
viewer's own. What shows it belongs to another post, which may be the post itself. -/
def Reaches (db : ContentDb) (user : Option Content.User) (through post : Post) : Prop :=
  post.visibility ∈ publicVisibilities user ∨
    (post.visibility = .limited ∧ (Followed db user through ∨ SharedWith db user through)) ∨
    post.userId = some (viewerId user)

section

variable {db : ContentDb} {user : Option Content.User} {through post : Post}

/-- What a joined row shows reaches the viewer. -/
theorem reaches_of_visibleTo {row : JoinedPost} (hrow : row ∈ joined db (viewerId user) through)
    (h : visibleTo user { row with post := post } = true) : Reaches db user through post := by
  obtain ⟨groupPost, hgroupPost, rfl⟩ := List.mem_map.mp hrow
  simp only [visibleTo, Bool.or_eq_true, Bool.and_eq_true, decide_eq_true_eq] at h
  obtain ((hpublic | ⟨hlimited, hfollow⟩) | ⟨hlimited, hmembership⟩) | hown := h
  · exact Or.inl hpublic
  · obtain ⟨follow, hfollow, _⟩ := (Option.any_eq_true _ _).mp hfollow
    obtain ⟨author, hauthor, hget⟩ := Option.bind_eq_some_iff.mp hfollow
    exact Or.inr (Or.inl ⟨hlimited, Or.inl ⟨author, follow, hauthor, hget⟩⟩)
  · obtain ⟨membership, hmembership, hpasses⟩ := (Option.any_eq_true _ _).mp hmembership
    obtain ⟨groupPost, rfl, hget⟩ := Option.bind_eq_some_iff.mp hmembership
    obtain ⟨hshared, hpost⟩ := some_mem_leftJoin.mp hgroupPost
    rw [Bool.and_eq_true] at hpasses
    exact Or.inr (Or.inl ⟨hlimited, Or.inr ⟨groupPost, hshared, of_decide_eq_true hpost,
      membership, hget, hpasses.1⟩⟩)
  · exact Or.inr (Or.inr hown)

/-- One of the joined rows shows all that reaches the viewer. -/
theorem exists_row_shows (db : ContentDb) (user : Option Content.User) (through : Post) :
    ∃ row ∈ joined db (viewerId user) through, ∀ post, Reaches db user through post →
      visibleTo user { row with post := post } = true := by
  have hfollow (follow : Option Follow)
      (heq : follow = through.userId.bind fun author => db.follows.get (viewerId user, author))
      (h : Followed db user through) :
      (follow.any fun follow => follow.userId = viewerId user) = true := by
    obtain ⟨author, found, hauthor, hget⟩ := h
    have hkey := congrArg Prod.fst (Table.key_of_get hget)
    rw [heq, hauthor, Option.bind_some, hget]
    simpa [Follow.key] using hkey
  by_cases hshared : SharedWith db user through
  · obtain ⟨groupPost, hgroupPost, hpost, membership, hget, hpasses⟩ := hshared
    refine ⟨_, List.mem_map_of_mem (some_mem_leftJoin.mpr ⟨hgroupPost, decide_eq_true hpost⟩), ?_⟩
    have hkey := congrArg Prod.fst (Table.key_of_get hget)
    rintro post (hpublic | ⟨hlimited, _⟩ | hown)
    · simp [visibleTo, hpublic]
    · simp only [visibleTo, hlimited, Option.bind_some, hget, Option.any_some, hpasses]
      simp [Membership.key] at hkey
      simp [hkey]
    · simp [visibleTo, hown]
  · obtain ⟨groupPost, hgroupPost⟩ :=
      exists_mem_leftJoin (fun groupPost => groupPost.postId = through.id) db.groupPosts.rows
    refine ⟨_, List.mem_map_of_mem hgroupPost, ?_⟩
    rintro post (hpublic | ⟨hlimited, hfollowed | hother⟩ | hown)
    · simp [visibleTo, hpublic]
    · simp [visibleTo, hlimited, hfollow _ rfl hfollowed]
    · exact absurd hother hshared
    · simp [visibleTo, hown]

/-- The visible posts are those that reach the viewer. -/
theorem visible_iff_reaches :
    Visible db user post ↔ post ∈ db.posts.rows ∧ Reaches db user post post := by
  apply and_congr_right
  intro _
  constructor
  · rintro ⟨row, hrow, hvisible⟩
    apply reaches_of_visibleTo hrow
    rwa [← post_of_mem_joined hrow]
  · intro h
    obtain ⟨row, hrow, hshows⟩ := exists_row_shows db user post
    refine ⟨row, hrow, ?_⟩
    have hvisible := hshows post h
    rwa [← post_of_mem_joined hrow] at hvisible

end

end Rellm.Posts
