import Mathlib.Data.List.Nodup
import Rellm.Client.Merging

/-!
# Runs of paged feeds

The pages of the sources land in any order between the sources. Which pages have landed determines
what is loaded of each source.
-/

namespace Rellm.Client.PostsPage

open Foundation

/-- A source with the pages that it hands out. -/
structure Source where
  key : Units
  host : Units
  pages : List (List Post)
  deriving DecidableEq

namespace Source

/-- The posts of a page and the cursor of the next. -/
def answer (s : Source) (number : Nat) : List Post × Option Nat :=
  (s.pages.getD number [], if number + 1 < s.pages.length then some (number + 1) else none)

/-- The feed that waits for its first page. -/
def firstFeed (s : Source) (requestId : Nat) : ServerFeed where
  status := .loading
  host := s.host
  requestId := requestId
  refreshing := true
  next := none
  loadingMore := false
  rankBase := 1

/-- The feed of which some pages have landed. -/
def landedFeed (s : Source) (landed requestId : Nat) (loadingMore : Bool) : ServerFeed where
  status := if landed = 0 then .loading else .loaded (s.pages.take landed).flatten
  host := s.host
  requestId := requestId
  refreshing := landed = 0 || loadingMore
  next := if 0 < landed ∧ landed < s.pages.length then some landed else none
  loadingMore := loadingMore
  rankBase := if landed = 0 then 1 else max 1 (s.pages.getD 0 []).length

theorem firstFeed_eq (s : Source) (requestId : Nat) :
    s.firstFeed requestId = s.landedFeed 0 requestId false := by
  simp [firstFeed, landedFeed]

/-- The entry of a post at a place in the source. -/
def entryAt (s : Source) : Nat → Post → FeedEntry := PostsPage.entryAt (s.landedFeed 1 0 false)

/-- The entries of the first pages. -/
def entries (s : Source) (landed : Nat) : List FeedEntry :=
  (s.pages.take landed).flatten.mapIdx s.entryAt

/-- The entries of all pages. -/
def allEntries (s : Source) : List FeedEntry := s.pages.flatten.mapIdx s.entryAt

variable {s : Source} {landed : Nat}

theorem take_flatten_succ (s : Source) (landed : Nat) :
    (s.pages.take (landed + 1)).flatten =
      (s.pages.take landed).flatten ++ (s.answer landed).1 := by
  rw [List.take_add_one, List.flatten_append, answer]
  cases hpage : s.pages[landed]? with
  | none => simp [hpage]
  | some posts => simp [hpage]

theorem entries_zero (s : Source) : s.entries 0 = [] := rfl

theorem entries_of_length_le (h : s.pages.length ≤ landed) : s.entries landed = s.allEntries := by
  rw [entries, List.take_of_length_le h, allEntries]

/-- Pages that land later come after those that have landed. -/
theorem entries_prefix {landed' : Nat} (h : landed ≤ landed') :
    s.entries landed <+: s.entries landed' := by
  obtain ⟨more, hmore⟩ := List.take_prefix_take_left (l := s.pages) h
  rw [entries, entries, ← hmore, List.flatten_append, List.mapIdx_append]
  exact List.prefix_append _ _

theorem entries_prefix_allEntries (s : Source) (landed : Nat) :
    s.entries landed <+: s.allEntries := by
  rw [← entries_of_length_le (le_max_left s.pages.length landed)]
  exact entries_prefix (le_max_right _ _)

theorem map_key_mapIdx (s : Source) (posts : List Post) :
    (posts.mapIdx s.entryAt).map FeedEntry.key = posts.map (postAnimationKey s.host) := by
  refine List.ext_getElem (by simp) fun index _ _ => ?_
  simp [entryAt, PostsPage.entryAt, landedFeed]

theorem mem_entries_iff {entry : FeedEntry} :
    entry ∈ s.entries landed ↔
      ∃ index, ∃ h : index < (s.pages.take landed).flatten.length,
        s.entryAt index (s.pages.take landed).flatten[index] = entry :=
  List.mem_mapIdx

/-- A page that holds posts has landed. -/
theorem entries_ne_nil (hpages : ∀ posts ∈ s.pages, posts ≠ []) (h : 0 < landed)
    (hne : s.pages ≠ []) : s.entries landed ≠ [] := by
  cases hpage : s.pages with
  | nil => exact absurd hpage hne
  | cons first rest =>
    obtain ⟨number, rfl⟩ := Nat.exists_eq_succ_of_ne_zero h.ne'
    have hfirst := hpages first (by simp [hpage])
    simp [entries, hpage, hfirst]

/-- A page that lands adds its posts. -/
theorem mem_entries_succ {entry : FeedEntry} (h : entry ∈ s.entries (landed + 1)) :
    entry ∈ s.entries landed ∨
      ∃ index, ∃ post ∈ (s.answer landed).1, s.entryAt index post = entry := by
  rw [entries, take_flatten_succ, List.mapIdx_append, List.mem_append] at h
  obtain h | h := h
  · exact Or.inl h
  · obtain ⟨index, hindex, heq⟩ := List.mem_mapIdx.mp h
    exact Or.inr ⟨_, _, List.getElem_mem hindex, heq⟩

theorem exists_mem_entries_succ {post : Post} (h : post ∈ (s.answer landed).1) :
    ∃ index, s.entryAt index post ∈ s.entries (landed + 1) := by
  obtain ⟨index, hindex, rfl⟩ := List.getElem_of_mem h
  refine ⟨index + (s.pages.take landed).flatten.length, ?_⟩
  rw [entries, take_flatten_succ, List.mapIdx_append, List.mem_append]
  exact Or.inr (List.mem_mapIdx.mpr ⟨index, hindex, rfl⟩)

/-- By rank, a source is in the strict order of its ranking. -/
theorem pairwise_rank (posts : List Post) :
    (posts.mapIdx s.entryAt).Pairwise fun a b => position .byRank a < position .byRank b := by
  refine List.pairwise_iff_getElem.mpr fun index index' h h' hlt => ?_
  rw [List.getElem_mapIdx, List.getElem_mapIdx]
  refine div_lt_div_of_pos_right (by exact_mod_cast hlt) ?_
  exact_mod_cast lt_max_of_lt_left Nat.one_pos

/-- By recency, a source that hands out its newest posts first is in that order. -/
theorem pairwise_millis {posts : List Post}
    (h : posts.Pairwise fun post post' => postTimestamp post' ≤ postTimestamp post) :
    (posts.mapIdx s.entryAt).Pairwise fun a b =>
      position .byRecency a ≤ position .byRecency b := by
  refine List.pairwise_iff_getElem.mpr fun index index' hindex hindex' hlt => ?_
  rw [List.getElem_mapIdx, List.getElem_mapIdx]
  rw [List.length_mapIdx] at hindex hindex'
  have hle := List.pairwise_iff_getElem.mp h index index' hindex hindex' hlt
  simp only [position, entryAt, PostsPage.entryAt, neg_le_neg_iff, Int.cast_le]
  exact hle

end Source

/-- The sources of a page: none of their posts is hidden or listed twice, and where the page goes by
recency each hands out its newest posts first. -/
structure Sources where
  page : Model
  shared : Shared
  sources : List Source
  keys_nodup : (sources.map Source.key).Nodup
  pages_ne : ∀ s ∈ sources, ∀ posts ∈ s.pages, posts ≠ []
  listed : ∀ s ∈ sources, ∀ posts ∈ s.pages, ∀ post ∈ posts, isListed page s.host post = true
  kept : ∀ s ∈ sources, ∀ posts ∈ s.pages, keptPosts shared s.host posts = posts
  posts_nodup : (sources.flatMap fun s =>
    s.pages.flatten.map (postAnimationKey s.host)).Nodup
  newest_first : pagingOrder page = .byRecency → ∀ s ∈ sources,
    s.pages.flatten.Pairwise fun post post' => postTimestamp post' ≤ postTimestamp post

namespace Sources

/-- The page that has asked every source for its first page. -/
def start (c : Sources) : Model :=
  { c.page with
    postsByServer := Table.collect (c.sources.mapIdx fun index s =>
      (s.key, s.firstFeed (c.page.nextRequestId + index)))
    nextRequestId := c.page.nextRequestId + c.sources.length }

/-- The source that was asked for a page that has not landed, and the number of that page. -/
def inFlight (c : Sources) (model : Model) (key : Units) : Option (Source × ServerFeed × Nat) :=
  match c.sources.find? fun s => s.key = key, model.postsByServer.value key with
  | some s, some feed =>
    if feed.refreshing then
      some (s, feed, if feed.loadingMore then feed.next.getD 0 else 0)
    else none
  | _, _ => none

/-- The page that a source was asked for lands. -/
def arrive (c : Sources) (model : Model) (key : Units) : Model :=
  match c.inFlight model key with
  | some (s, feed, number) =>
    gotFeedPosts c.shared (c.sources.map Source.key) key feed.requestId (s.answer number).1
      (s.answer number).2 model
  | none => model

end Sources

inductive Action where
  | loadMore (keys : List Units)
  | arrive (key : Units)
  deriving DecidableEq, Repr

/-- A step of the page: it asks some sources for their next pages, or a page lands. -/
def step (c : Sources) (model : Model) : Action → Model
  | .loadMore keys => loadMoreFeeds (c.sources.map Source.key) model keys
  | .arrive key => c.arrive model key

/-- Nothing but the feeds differs. -/
def SamePage (model model' : Model) : Prop :=
  model' = { model with
    postsByServer := model'.postsByServer
    nextRequestId := model'.nextRequestId }

/-- How many pages have landed of each source. -/
structure Reached (c : Sources) (landed : Units → Nat) (model : Model) : Prop where
  page : SamePage c.page model
  feed : ∀ s ∈ c.sources, ∃ requestId loadingMore,
    model.postsByServer.value s.key =
      some (s.landedFeed (landed s.key) requestId loadingMore) ∧
    (loadingMore = true → 0 < landed s.key ∧ landed s.key < s.pages.length)
  source : ∀ key feed, model.postsByServer.value key = some feed → ∃ s ∈ c.sources, s.key = key

section

variable {c : Sources} {landed : Units → Nat} {model : Model} {s : Source}

theorem Sources.eq_of_key_eq {s' : Source} (h : s ∈ c.sources) (h' : s' ∈ c.sources)
    (hkey : s.key = s'.key) : s = s' :=
  List.inj_on_of_nodup_map c.keys_nodup h h' hkey

theorem Sources.find_eq (h : s ∈ c.sources) :
    (c.sources.find? fun s' => s'.key = s.key) = some s := by
  cases hfind : c.sources.find? fun s' => s'.key = s.key with
  | none => exact absurd (List.find?_eq_none.mp hfind s h) (by simp)
  | some found =>
    have hkey : found.key = s.key := by simpa using List.find?_some hfind
    rw [c.eq_of_key_eq (List.mem_of_find?_eq_some hfind) h hkey]

/-- Before any page has landed, every source is waited for. -/
theorem reached_start (c : Sources) : Reached c (fun _ => 0) c.start where
  page := rfl
  feed s hs := by
    generalize hrows : (c.sources.mapIdx fun index s =>
      (s.key, s.firstFeed (c.page.nextRequestId + index))) = rows
    have hsome : ((Table.collect rows : HashMap Units ServerFeed).get s.key).isSome := by
      obtain ⟨index, hindex, hget⟩ := List.getElem_of_mem hs
      refine Table.get_collect_isSome.mpr ⟨(s.key, s.firstFeed (c.page.nextRequestId + index)), ?_, rfl⟩
      rw [← hrows]
      exact List.mem_mapIdx.mpr ⟨index, hindex, by rw [hget]⟩
    obtain ⟨row, hget⟩ := Option.isSome_iff_exists.mp hsome
    obtain ⟨hrow, hkey⟩ := Table.get_eq_some_iff.mp hget
    have hmem := Table.mem_of_mem_collect hrow
    rw [← hrows] at hmem
    obtain ⟨index, hindex, rfl⟩ := List.mem_mapIdx.mp hmem
    obtain rfl := c.eq_of_key_eq (List.getElem_mem hindex) hs hkey
    refine ⟨c.page.nextRequestId + index, false, ?_, nofun⟩
    rw [← Source.firstFeed_eq]
    show HashMap.value (Table.collect _) _ = _
    rw [hrows, HashMap.value, hget]
    rfl
  source key feed hvalue := by
    obtain ⟨index, hindex, heq⟩ := List.mem_mapIdx.mp
      (Table.mem_of_mem_collect (HashMap.value_eq_some_iff.mp hvalue))
    exact ⟨_, List.getElem_mem hindex, (Prod.ext_iff.mp heq).1⟩

/-- A feed of which another number of pages has landed is put in its place. -/
theorem Reached.put (h : Reached c landed model) (hs : s ∈ c.sources) (number requestId : Nat)
    (loadingMore : Bool) (hmore : loadingMore = true → 0 < number ∧ number < s.pages.length)
    {model' : Model} (hpage : SamePage c.page model')
    (hput : model'.postsByServer =
      model.postsByServer.put (s.key, s.landedFeed number requestId loadingMore)) :
    Reached c (Function.update landed s.key number) model' where
  page := hpage
  feed s' hs' := by
    rw [hput, HashMap.value_put]
    by_cases hkey : s'.key = s.key
    · obtain rfl := c.eq_of_key_eq hs' hs hkey
      rw [if_pos rfl, Function.update_self]
      exact ⟨requestId, loadingMore, rfl, hmore⟩
    · rw [if_neg hkey, Function.update_of_ne hkey]
      exact h.feed s' hs'
  source key feed hvalue := by
    rw [hput, HashMap.value_put] at hvalue
    split at hvalue
    · rename_i hkey
      exact ⟨s, hs, hkey.symm⟩
    · exact h.source key feed hvalue

/-- Asking a source for its next page leaves what has landed. -/
theorem Reached.startLoading (h : Reached c landed model) (key : Units) :
    Reached c landed (startLoading model key) := by
  unfold PostsPage.startLoading
  cases hvalue : model.postsByServer.value key with
  | none => exact h
  | some feed =>
    obtain ⟨s, hs, rfl⟩ := h.source key feed hvalue
    obtain ⟨requestId, loadingMore, hfeed, _⟩ := h.feed s hs
    rw [hvalue, Option.some.injEq] at hfeed
    subst hfeed
    dsimp only
    split
    · rename_i next hnext
      split
      · exact h
      · rename_i hidle
        have hlanded : 0 < landed s.key ∧ landed s.key < s.pages.length := by
          by_contra hnot
          rw [Source.landedFeed, if_neg hnot] at hnext
          cases hnext
        have heq : { s.landedFeed (landed s.key) requestId loadingMore with
              requestId := model.nextRequestId
              loadingMore := true
              refreshing := true } = s.landedFeed (landed s.key) model.nextRequestId true := by
          simp [Source.landedFeed]
        rw [heq, ← Function.update_eq_self s.key landed]
        refine h.put hs _ model.nextRequestId true (fun _ => hlanded) ?_ ?_
        · rw [SamePage, h.page]
        · rw [Function.update_eq_self]
    · exact h

theorem Sources.source_nodup (hs : s ∈ c.sources) :
    (s.pages.flatten.map (postAnimationKey s.host)).Nodup :=
  (List.nodup_flatMap.mp c.posts_nodup).1 s hs

theorem Source.answer_of_length_le {number : Nat} (h : s.pages.length ≤ number) :
    s.answer number = ([], none) := by
  rw [Source.answer, if_neg (by omega), List.getD_eq_getElem?_getD,
    List.getElem?_eq_none h]
  rfl

theorem Source.answer_mem {number : Nat} (h : number < s.pages.length) :
    (s.answer number).1 ∈ s.pages := by
  rw [Source.answer, List.getD_eq_getElem?_getD, List.getElem?_eq_getElem h]
  exact List.getElem_mem h

theorem Source.mem_flatten_of_answer {number : Nat} {post : Post}
    (h : post ∈ (s.answer number).1) : post ∈ s.pages.flatten := by
  by_cases hnumber : number < s.pages.length
  · exact List.mem_flatten.mpr ⟨_, Source.answer_mem hnumber, h⟩
  · rw [Source.answer_of_length_le (not_lt.mp hnumber)] at h
    exact absurd h List.not_mem_nil

theorem Reached.isListed_eq (h : Reached c landed model) (hs : s ∈ c.sources) {post : Post}
    (hpost : post ∈ s.pages.flatten) : isListed model s.host post = true := by
  obtain ⟨posts, hposts, hpost⟩ := List.mem_flatten.mp hpost
  rw [h.page]
  exact c.listed s hs posts hposts post hpost

theorem Reached.context_eq (h : Reached c landed model) (hs : s ∈ c.sources) {number : Nat}
    {post : Post} (hpost : post ∈ (s.answer number).1) : post.context = model.context := by
  have hlisted := h.isListed_eq hs (Source.mem_flatten_of_answer hpost)
  rw [isListed, Bool.and_eq_true, decide_eq_true_eq] at hlisted
  exact hlisted.1

/-- A page has none of the posts that have landed. -/
theorem Sources.id_notMem (hs : s ∈ c.sources) {number : Nat} {post : Post}
    (hpost : post ∈ (s.answer number).1) :
    post.id ∉ (s.pages.take number).flatten.map Post.id := by
  intro hmem
  obtain ⟨known, hknown, hid⟩ := List.mem_map.mp hmem
  have hnodup : ((s.pages.take (number + 1)).flatten.map (postAnimationKey s.host)).Nodup := by
    have hstarts : (s.pages.take (number + 1)).flatten <+: s.pages.flatten := by
      conv_rhs => rw [← List.take_append_drop (number + 1) s.pages, List.flatten_append]
      exact List.prefix_append _ _
    exact (c.source_nodup hs).sublist (hstarts.sublist.map _)
  rw [Source.take_flatten_succ, List.map_append] at hnodup
  refine List.disjoint_of_nodup_append hnodup (List.mem_map_of_mem hknown) ?_
  have hkey : postAnimationKey s.host known = postAnimationKey s.host post := by
    rw [postAnimationKey, postAnimationKey, hid]
  rw [hkey]
  exact List.mem_map_of_mem hpost

/-- A page that holds posts is all kept. -/
theorem Sources.keptPosts_answer (hs : s ∈ c.sources) (number : Nat) :
    keptPosts c.shared s.host (s.answer number).1 = (s.answer number).1 := by
  by_cases hnumber : number < s.pages.length
  · exact c.kept s hs _ (Source.answer_mem hnumber)
  · rw [Source.answer_of_length_le (not_lt.mp hnumber)]
    rfl

/-- The next page of a source lands. -/
theorem Reached.gotFeedPosts (h : Reached c landed model) (hs : s ∈ c.sources) {requestId : Nat}
    {loadingMore : Bool}
    (hfeed : model.postsByServer.value s.key =
      some (s.landedFeed (landed s.key) requestId loadingMore))
    (hmore : loadingMore = true ↔ 0 < landed s.key) :
    Reached c (Function.update landed s.key (landed s.key + 1))
      (gotFeedPosts c.shared (c.sources.map Source.key) s.key requestId
        (s.answer (landed s.key)).1 (s.answer (landed s.key)).2 model) := by
  generalize hnumber : landed s.key = number at *
  have hnew (known : List Units) (hknown : known = [] ∨
        known = (s.pages.take number).flatten.map Post.id) :
      ((s.answer number).1.filter fun post => !decide (post.id ∈ known)) =
        (s.answer number).1 := by
    refine List.filter_eq_self.mpr fun post hpost => ?_
    rw [Bool.not_eq_true', decide_eq_false_iff_not]
    obtain rfl | rfl := hknown
    · exact List.not_mem_nil
    · exact c.id_notMem hs hpost
  have hnext : (if (s.answer number).1.isEmpty then none else (s.answer number).2) =
      (s.landedFeed (number + 1) requestId false).next := by
    by_cases hlast : number + 1 < s.pages.length
    · have hne := c.pages_ne s hs _ (Source.answer_mem (by omega : number < s.pages.length))
      rw [List.isEmpty_eq_false_iff.mpr hne]
      simp [Source.answer, Source.landedFeed, hlast]
    · simp [Source.answer, Source.landedFeed, hlast]
  have hshown : ((s.answer number).1.all (fun post => decide (post.context ≠ model.context)) &&
      (s.landedFeed (number + 1) requestId false).next.isSome) = false := by
    by_cases hlast : number + 1 < s.pages.length
    · have hpage := Source.answer_mem (by omega : number < s.pages.length)
      obtain ⟨post, hpost⟩ := List.exists_mem_of_ne_nil _ (c.pages_ne s hs _ hpage)
      rw [Bool.and_eq_false_iff, List.all_eq_false]
      exact Or.inl ⟨post, hpost, by simp [h.context_eq hs hpost]⟩
    · simp [Source.landedFeed, hlast]
  unfold PostsPage.gotFeedPosts
  rw [hfeed]
  obtain rfl | hpos := Nat.eq_zero_or_pos number
  · have hfirst : loadingMore = false := by
      simpa using hmore
    rw [hfirst, ← Source.firstFeed_eq]
    dsimp only [Source.firstFeed]
    rw [if_neg (not_not.mpr rfl)]
    simp only [Bool.false_eq_true, if_false, hnew [] (Or.inl rfl), c.keptPosts_answer hs, hnext,
      hshown]
    refine h.put hs 1 requestId false nofun ?_ ?_
    · rw [SamePage, h.page]
    · have hcount : ((s.answer 0).1.filter fun post => decide (post.context = model.context)) =
          (s.answer 0).1 :=
        List.filter_eq_self.mpr fun post hpost => decide_eq_true (h.context_eq hs hpost)
      rw [hcount]
      have htake := s.take_flatten_succ 0
      simp [Source.landedFeed, Source.answer, htake]
  · have hlater : s.landedFeed number requestId loadingMore =
        { s.landedFeed number requestId true with
          status := .loaded (s.pages.take number).flatten
          loadingMore := true } := by
      simp [Source.landedFeed, hmore.mpr hpos, hpos.ne']
    rw [hlater]
    have hid : (s.landedFeed number requestId true).requestId = requestId := rfl
    have hhost : (s.landedFeed number requestId true).host = s.host := rfl
    dsimp only
    rw [hid, if_neg (not_not.mpr rfl)]
    simp only [Bool.false_eq_true, if_false, if_true, hnew _ (Or.inr rfl), hhost,
      c.keptPosts_answer hs, hnext, hshown]
    refine h.put hs (number + 1) requestId false nofun ?_ ?_
    · rw [SamePage, h.page]
    · rw [← Source.take_flatten_succ]
      simp [Source.landedFeed, hpos.ne']

/-- A page that is asked for is the one after those that have landed. -/
theorem Reached.inFlight_eq_some (h : Reached c landed model) {key : Units} {feed : ServerFeed}
    {number : Nat} (hflight : c.inFlight model key = some (s, feed, number)) :
    s ∈ c.sources ∧ s.key = key ∧ number = landed key ∧
      (number = 0 ∨ number < s.pages.length) ∧
      ∃ requestId loadingMore, feed = s.landedFeed number requestId loadingMore ∧
        model.postsByServer.value key = some feed ∧ (loadingMore = true ↔ 0 < number) := by
  unfold Sources.inFlight at hflight
  cases hfind : c.sources.find? fun s => decide (s.key = key) with
  | none =>
    rw [hfind] at hflight
    cases hflight
  | some found =>
    cases hvalue : model.postsByServer.value key with
    | none =>
      rw [hfind, hvalue] at hflight
      cases hflight
    | some waiting =>
      rw [hfind, hvalue] at hflight
      dsimp only at hflight
      split at hflight
      · rename_i hrefreshing
        rw [Option.some.injEq, Prod.mk.injEq, Prod.mk.injEq] at hflight
        obtain ⟨rfl, rfl, rfl⟩ := hflight
        have hs := List.mem_of_find?_eq_some hfind
        obtain rfl : found.key = key := by simpa using List.find?_some hfind
        obtain ⟨requestId, loadingMore, hfeed, hmore⟩ := h.feed found hs
        rw [hvalue, Option.some.injEq] at hfeed
        subst hfeed
        have hnumber : (if loadingMore = true then
            (found.landedFeed (landed found.key) requestId loadingMore).next.getD 0 else 0) =
            landed found.key ∧ (landed found.key = 0 ∨ landed found.key < found.pages.length) ∧
            (loadingMore = true ↔ 0 < landed found.key) := by
          cases loadingMore with
          | false =>
            have hzero : landed found.key = 0 := by
              simpa [Source.landedFeed] using hrefreshing
            simp [hzero]
          | true =>
            obtain ⟨hpos, hlt⟩ := hmore rfl
            simp [Source.landedFeed, hpos, hlt]
        obtain ⟨hnumber, hle, hiff⟩ := hnumber
        refine ⟨hs, rfl, hnumber, ?_, ?_⟩
        · exact hnumber.symm ▸ hle
        · exact hnumber.symm ▸ ⟨requestId, loadingMore, rfl, rfl, hiff⟩
      · cases hflight

/-- A source whose feed is refreshing is asked for the page after those that have landed. -/
theorem Reached.inFlight_of_refreshing (h : Reached c landed model) (hs : s ∈ c.sources)
    {feed : ServerFeed} (hvalue : model.postsByServer.value s.key = some feed)
    (hrefreshing : feed.refreshing = true) :
    c.inFlight model s.key = some (s, feed, landed s.key) := by
  have hflight : c.inFlight model s.key =
      some (s, feed, if feed.loadingMore then feed.next.getD 0 else 0) := by
    rw [Sources.inFlight, Sources.find_eq hs, hvalue]
    dsimp only
    rw [if_pos hrefreshing]
  obtain ⟨_, _, hnumber, _⟩ := h.inFlight_eq_some hflight
  rw [hflight, hnumber]

theorem Reached.arrive (h : Reached c landed model) {key : Units} {feed : ServerFeed}
    {number : Nat} (hflight : c.inFlight model key = some (s, feed, number)) :
    Reached c (Function.update landed key (landed key + 1)) (c.arrive model key) := by
  obtain ⟨hs, rfl, rfl, _, requestId, loadingMore, rfl, hvalue, hmore⟩ :=
    h.inFlight_eq_some hflight
  rw [Sources.arrive, hflight]
  exact h.gotFeedPosts hs hvalue hmore

theorem Reached.loadMore (h : Reached c landed model) (keys : List Units) :
    Reached c landed (step c model (.loadMore keys)) := by
  rw [step, loadMoreFeeds]
  generalize (c.sources.map Source.key).filter (fun key => decide (key ∈ keys)) = asked
  induction asked generalizing model with
  | nil => exact h
  | cons key asked ih => exact ih (h.startLoading key)

/-- No page that has landed is lost by a step. -/
theorem Reached.step (h : Reached c landed model) (action : Action) :
    ∃ landed', Reached c landed' (step c model action) ∧ ∀ key, landed key ≤ landed' key := by
  cases action with
  | loadMore keys => exact ⟨landed, h.loadMore keys, fun _ => le_rfl⟩
  | arrive key =>
    cases hflight : c.inFlight model key with
    | none =>
      refine ⟨landed, ?_, fun _ => le_rfl⟩
      rw [PostsPage.step, Sources.arrive, hflight]
      exact h
    | some found =>
      obtain ⟨s, feed, number⟩ := found
      refine ⟨_, h.arrive hflight, fun other => ?_⟩
      by_cases hkey : other = key
      · subst hkey
        rw [Function.update_self]
        exact Nat.le_succ _
      · rw [Function.update_of_ne hkey]

/-- No page that has landed is lost by a run. -/
theorem Reached.run (h : Reached c landed model) (actions : List Action) :
    ∃ landed', Reached c landed' (Foundation.run (PostsPage.step c) model actions) ∧
      ∀ key, landed key ≤ landed' key := by
  induction actions generalizing model landed with
  | nil => exact ⟨landed, h, fun _ => le_rfl⟩
  | cons action actions ih =>
    obtain ⟨landed', h', hle⟩ := h.step action
    obtain ⟨landed'', h'', hle'⟩ := ih h'
    exact ⟨landed'', h'', fun key => (hle key).trans (hle' key)⟩

end

end Rellm.Client.PostsPage
