import Mathlib.Algebra.Order.Field.Rat
import Mathlib.Data.List.Lex
import Mathlib.Data.List.MinMax
import Mathlib.Data.Rat.Cast.Order
import Rellm.Client.QuoteLinks
import Rellm.Foundation.Sorting

/-!
# Paged feeds

A page of posts shows those of several sources, each of which is paged on its own. Of the posts that
are loaded, only those are shown that no source with further pages could still precede. The loaded
posts are kept by key in a dictionary, in whose order the posts are that the display does not tell
apart.
-/

namespace Rellm.Client.PostsPage

open Foundation

/-- A text by its code units, in whose order dictionaries are kept. -/
abbrev Units := List Nat

structure Timestamp where
  seconds : Int
  nanos : Int
  deriving DecidableEq, Repr

def timestampToPosix (timestamp : Timestamp) : Int :=
  timestamp.seconds * 1000 + timestamp.nanos.tdiv 1000000

structure Post where
  id : Units
  context : PostContext
  author : Option Units := none
  media : List Units := []
  publishedAt : Option Timestamp := none
  createdAt : Option Timestamp := none
  deriving DecidableEq, Repr

/-- When a post was published, or else created, in milliseconds. -/
def postTimestamp (post : Post) : Int :=
  match post.publishedAt, post.createdAt with
  | some published, _ => timestampToPosix published
  | none, some created => timestampToPosix created
  | none, none => 0

/-- The code units of an ASCII text. -/
def units (text : String) : Units := text.toList.map Char.toNat

def sensitiveMediaHiddenId : Units := units "sensitive-media-hidden"

def hasHiddenSensitiveMedia (post : Post) : Bool := post.media.any (· = sensitiveMediaHiddenId)

/-- The dictionary in the order of its keys. -/
def dictToList {β : Type} (dict : HashMap Units β) : List (Units × β) :=
  dict.rows.mergeSort fun row row' => row.1 ≤ row'.1

def dictValues {β : Type} (dict : HashMap Units β) : List β := (dictToList dict).map Prod.snd

/-- A loaded post with its place in the ranking of its source, as a fraction of the first page. -/
structure FeedEntry where
  key : Units
  host : Units
  post : Post
  rank : ℚ
  millis : Int
  deriving DecidableEq

inductive Order where
  | byRecency
  | byRank
  deriving DecidableEq, Repr

/-- How far the loaded posts of a source reach. -/
structure Frontier where
  rank : ℚ
  millis : Int
  deriving DecidableEq

def frontierOf : List FeedEntry → Option Frontier
  | [] => none
  | first :: rest => some (rest.foldl (fun frontier entry =>
      ⟨max frontier.rank entry.rank, min frontier.millis entry.millis⟩) ⟨first.rank, first.millis⟩)

/-- Whether an entry is displayed no later than another. -/
def displayLe : Order → FeedEntry → FeedEntry → Bool
  | .byRecency, entry, entry' => -entry.millis ≤ -entry'.millis
  | .byRank, entry, entry' =>
    entry.rank < entry'.rank || (entry.rank = entry'.rank && -entry.millis ≤ -entry'.millis)

def sortEntries (order : Order) (entries : List FeedEntry) : List FeedEntry :=
  entries.mergeSort (displayLe order)

/-- Where the part ends that is safe to show. -/
def limit (order : Order) (frontiers : List Frontier) : Option ℚ :=
  match order with
  | .byRecency => (frontiers.map fun frontier => (frontier.millis : ℚ)).max?
  | .byRank => (frontiers.map (·.rank)).min?

/-- The entries that no source with further pages could still precede. -/
def safeEntries (order : Order) (frontiers : List Frontier) (entries : List FeedEntry) :
    List FeedEntry :=
  match limit order frontiers with
  | none => entries
  | some bound =>
    match order with
    | .byRecency => entries.filter fun entry => bound ≤ entry.millis
    | .byRank => entries.filter fun entry => entry.rank ≤ bound

/-- Whether a source with a frontier holds the safe part back. -/
def isBinding (order : Order) (frontiers : List Frontier) (frontier : Frontier) : Bool :=
  match order, limit order frontiers with
  | .byRecency, some bound => (frontier.millis : ℚ) = bound
  | .byRank, some bound => frontier.rank = bound
  | _, none => false

inductive ServerPosts where
  | loading
  | loaded (posts : List Post)
  | failed
  deriving DecidableEq, Repr

/-- The posts of a source. Its next page is asked for with a cursor, here by the page's number. -/
structure ServerFeed where
  status : ServerPosts
  host : Units
  requestId : Nat
  refreshing : Bool
  next : Option Nat
  loadingMore : Bool
  rankBase : Nat
  deriving DecidableEq, Repr

inductive PostsSort where
  | sortRecent
  | sortPopular
  | sortFollowing
  deriving DecidableEq, Repr

inductive Tab where
  | recentPosts
  | postsBefore
  deriving DecidableEq, Repr

/-- The page; the text searched for is without the blanks around it. -/
structure Model where
  postsByServer : HashMap Units ServerFeed
  nextRequestId : Nat
  context : PostContext
  searchText : Units
  sort : PostsSort
  tab : Tab
  hiddenAuthors : HashMap Units (List Units)

/-- What the app decides on which posts are dropped when they land. -/
structure Shared where
  customNavPostIds : Units → List Units
  showCustomNavPosts : Bool
  showSensitiveMediaPosts : Bool

def isPopularListing (model : Model) : Bool := model.sort = .sortPopular && model.tab = .recentPosts

def pagingOrder (model : Model) : Order :=
  if !model.searchText.isEmpty || isPopularListing model then .byRank else .byRecency

def isHiddenAuthor (model : Model) (host : Units) (post : Post) : Bool :=
  post.author.any fun userId =>
    (model.hiddenAuthors.value host).any fun hidden => decide (userId ∈ hidden)

def postAnimationKey (host : Units) (post : Post) : Units := host ++ units "@" ++ post.id

/-- Whether a post of a source is listed. -/
def isListed (model : Model) (host : Units) (post : Post) : Bool :=
  post.context = model.context && !isHiddenAuthor model host post

/-- The entry of a post at a place in its source. -/
def entryAt (feed : ServerFeed) (index : Nat) (post : Post) : FeedEntry where
  key := postAnimationKey feed.host post
  host := feed.host
  post := post
  rank := (index : ℚ) / (max 1 feed.rankBase : Nat)
  millis := postTimestamp post

def feedEntries (model : Model) (feed : ServerFeed) : List FeedEntry :=
  match feed.status with
  | .loaded posts => (posts.filter (isListed model feed.host)).mapIdx (entryAt feed)
  | _ => []

/-- The frontier of each source that has further pages. -/
def unfinishedFrontiers (model : Model) : List (Units × Frontier) :=
  (dictToList model.postsByServer).filterMap fun row =>
    if row.2.next.isNone then none
    else (frontierOf (feedEntries model row.2)).map fun frontier => (row.1, frontier)

/-- The loaded posts that are fit to show, in the order of the display. -/
def orderedEntries (model : Model) : List FeedEntry :=
  let entries := (dictValues model.postsByServer).flatMap (feedEntries model)
  safeEntries (pagingOrder model) ((unfinishedFrontiers model).map Prod.snd)
    (sortEntries (pagingOrder model)
      (dictValues (Table.collect (entries.map fun entry => (entry.key, entry)))))

/-- The sources whose next page is needed to show more. -/
def bindingFeedKeys (model : Model) : List Units :=
  let frontiers := unfinishedFrontiers model
  (frontiers.filter fun row =>
    isBinding (pagingOrder model) (frontiers.map Prod.snd) row.2).map Prod.fst

/-- Asks a source for its next page, unless it has none or was asked already. -/
def startLoading (model : Model) (key : Units) : Model :=
  match model.postsByServer.value key with
  | some feed =>
    match feed.next with
    | some _ =>
      if feed.loadingMore || feed.refreshing then model
      else
        { model with
          nextRequestId := model.nextRequestId + 1
          postsByServer := model.postsByServer.put (key,
            { feed with
              requestId := model.nextRequestId
              loadingMore := true
              refreshing := true }) }
    | none => model
  | none => model

/-- Asks those of some sources for their next pages that are relevant. -/
def loadMoreFeeds (relevant : List Units) (model : Model) (keys : List Units) : Model :=
  (relevant.filter fun key => decide (key ∈ keys)).foldl startLoading model

def filterFeedPosts (hiddenPostIds : List Units) (hideSensitiveMedia : Bool) (posts : List Post) :
    List Post :=
  posts.filter fun post =>
    !decide (post.id ∈ hiddenPostIds) && !(hideSensitiveMedia && hasHiddenSensitiveMedia post)

/-- The posts of a page that are kept. -/
def keptPosts (shared : Shared) (host : Units) (posts : List Post) : List Post :=
  filterFeedPosts (if shared.showCustomNavPosts then [] else shared.customNavPostIds host)
    (!shared.showSensitiveMediaPosts) posts

/-- A page of a source has landed: the first replaces the posts of the source, a later one is
appended to them. -/
def gotFeedPosts (shared : Shared) (relevant : List Units) (host : Units) (requestId : Nat)
    (rawPosts : List Post) (next : Option Nat) (model : Model) : Model :=
  match model.postsByServer.value host with
  | none => model
  | some feed =>
    if feed.requestId ≠ requestId then model
    else
      let appending := feed.loadingMore
      let existing := match feed.status with
        | .loaded loaded => loaded
        | _ => []
      let knownIds := if appending then existing.map Post.id else []
      let newRawPosts := rawPosts.filter fun post => !decide (post.id ∈ knownIds)
      let posts := keptPosts shared feed.host newRawPosts
      let nextCursor := if newRawPosts.isEmpty then none else next
      let updatedFeed :=
        { feed with
          status := .loaded (if appending then existing ++ posts else posts)
          refreshing := false
          loadingMore := false
          next := nextCursor
          rankBase := if appending then feed.rankBase else
            max 1 (posts.filter fun post => post.context = model.context).length }
      let landed := { model with postsByServer := model.postsByServer.put (host, updatedFeed) }
      if posts.all (fun post => post.context ≠ model.context) && nextCursor.isSome then
        loadMoreFeeds relevant landed [host]
      else landed

end Rellm.Client.PostsPage
