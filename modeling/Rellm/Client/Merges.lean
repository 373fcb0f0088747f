import Mathlib.Algebra.Order.BigOperators.Group.List
import Mathlib.Data.List.Pairwise
import Rellm.Client.Paged

/-!
# What a page shows while its sources are loaded

A page of a source that lands keeps what is shown and adds below it, but for posts that are as old as
a shown one and come before it in the dictionary. Once all is loaded, the sorted posts of all sources
are shown, and loading the sources that hold the list back leads there.
-/

namespace Rellm.Client.PostsPage

open Foundation

/-- The first page of every source has landed. -/
def AllLanded (model : Model) : Prop :=
  ∀ key feed, model.postsByServer.value key = some feed → feed.status ≠ .loading

/-- Every source has handed out all its pages. -/
def Exhausted (model : Model) : Prop :=
  ∀ key feed, model.postsByServer.value key = some feed →
    feed.status ≠ .loading ∧ feed.next = none

/-- What is shown stays where it is, and nothing is inserted above it. -/
def PrefixKept (c : Sources) (model : Model) (action : Action) : Prop :=
  AllLanded model → orderedEntries model <+: orderedEntries (step c model action)

/-- A list has every post of the sources once, in the order of the display. -/
def IsMerge (c : Sources) (entries : List FeedEntry) : Prop :=
  entries.Perm (c.sources.flatMap Source.allEntries) ∧
    entries.Pairwise (Before (pagingOrder c.page))

/-- Loads the next pages of the sources that hold the list back. -/
def loadBinding (c : Sources) (model : Model) : Model :=
  run (step c) model
    (.loadMore (bindingFeedKeys model) :: (bindingFeedKeys model).map Action.arrive)

/-- While a source has pages left, some source holds the list back, and loading those that do leads
to the merge of all sources. -/
def BindingLeads (c : Sources) (model : Model) : Prop :=
  AllLanded model → ¬ Exhausted model →
    bindingFeedKeys model ≠ [] ∧
      ∃ rounds, Exhausted ((loadBinding c)^[rounds] model) ∧
        IsMerge c (orderedEntries ((loadBinding c)^[rounds] model))

/-- What the feeds of a run are merged to. -/
structure Merges (c : Sources) (actions : List Action) : Prop where
  prefix_kept : Along (step c) (PrefixKept c) c.start actions
  complete : Throughout (step c)
    (fun model => Exhausted model → IsMerge c (orderedEntries model)) c.start actions
  binding : Throughout (step c) (BindingLeads c) c.start actions

/-- By recency, no post of a page that lands comes in the dictionary before a loaded one of its time,
unless some source with further pages has only handed out newer posts. -/
def TiesKept (c : Sources) (model : Model) : Action → Prop
  | .loadMore _ => True
  | .arrive key =>
    AllLanded model → pagingOrder model = .byRecency →
      ∀ s feed number, c.inFlight model key = some (s, feed, number) →
        ∀ post ∈ (s.answer number).1, ∀ entry, Loaded model entry →
          entry.millis = postTimestamp post →
          entry.key < postAnimationKey s.host post ∨
            ∃ key' feed', model.postsByServer.value key' = some feed' ∧ feed'.next ≠ none ∧
              feedEntries model feed' ≠ [] ∧
              ∀ last ∈ feedEntries model feed', postTimestamp post < last.millis

section

variable {c : Sources} {landed : Units → Nat} {model : Model} {s : Source}

theorem Reached.pagingOrder_eq (h : Reached c landed model) :
    pagingOrder model = pagingOrder c.page := by
  rw [h.page]
  rfl

/-- What is loaded of a source are the entries of the pages that have landed. -/
theorem Reached.feedEntries_eq (h : Reached c landed model) (hs : s ∈ c.sources) (number requestId : Nat)
    (loadingMore : Bool) :
    feedEntries model (s.landedFeed number requestId loadingMore) = s.entries number := by
  obtain rfl | hpos := Nat.eq_zero_or_pos number
  · rfl
  · have hlisted : ((s.pages.take number).flatten.filter (isListed model s.host)) =
        (s.pages.take number).flatten := by
      refine List.filter_eq_self.mpr fun post hpost => h.isListed_eq hs ?_
      obtain ⟨posts, hposts, hpost⟩ := List.mem_flatten.mp hpost
      exact List.mem_flatten.mpr ⟨posts, List.mem_of_mem_take hposts, hpost⟩
    have hentry : entryAt (s.landedFeed number requestId loadingMore) = s.entryAt := by
      funext index post
      simp [Source.entryAt, entryAt, Source.landedFeed, hpos.ne']
    have hfeed : s.landedFeed number requestId loadingMore =
        { s.landedFeed number requestId loadingMore with
          status := .loaded (s.pages.take number).flatten } := by
      simp [Source.landedFeed, hpos.ne']
    rw [feedEntries, hfeed]
    dsimp only
    rw [← hfeed, hentry]
    have hhost : (s.landedFeed number requestId loadingMore).host = s.host := rfl
    rw [hhost, hlisted]
    rfl

theorem Reached.allLanded_iff (h : Reached c landed model) :
    AllLanded model ↔ ∀ s ∈ c.sources, 0 < landed s.key := by
  constructor
  · intro hall s hs
    obtain ⟨requestId, loadingMore, hvalue, _⟩ := h.feed s hs
    have hstatus := hall s.key _ hvalue
    by_contra hzero
    exact hstatus (if_pos (by omega))
  · intro hall key feed hvalue
    obtain ⟨s, hs, rfl⟩ := h.source key feed hvalue
    obtain ⟨requestId, loadingMore, hfeed, _⟩ := h.feed s hs
    rw [hvalue, Option.some.injEq] at hfeed
    rw [hfeed]
    simp [Source.landedFeed, (hall s hs).ne']

theorem Source.landedFeed_next_ne_none {number requestId : Nat} {loadingMore : Bool} :
    (s.landedFeed number requestId loadingMore).next ≠ none ↔
      0 < number ∧ number < s.pages.length := by
  rw [Source.landedFeed]
  dsimp only
  split
  · rename_i h
    simp [h]
  · rename_i h
    simp [h]

theorem Reached.exhausted_iff (h : Reached c landed model) :
    Exhausted model ↔ ∀ s ∈ c.sources, 0 < landed s.key ∧ s.pages.length ≤ landed s.key := by
  constructor
  · intro hall s hs
    obtain ⟨requestId, loadingMore, hvalue, _⟩ := h.feed s hs
    have hpos := h.allLanded_iff.mp (fun key feed hvalue => (hall key feed hvalue).1) s hs
    have hnext := (hall s.key _ hvalue).2
    refine ⟨hpos, not_lt.mp fun hlt => ?_⟩
    exact Source.landedFeed_next_ne_none.mpr ⟨hpos, hlt⟩ hnext
  · intro hall key feed hvalue
    refine ⟨h.allLanded_iff.mpr (fun s hs => (hall s hs).1) key feed hvalue, ?_⟩
    obtain ⟨s, hs, rfl⟩ := h.source key feed hvalue
    obtain ⟨requestId, loadingMore, hfeed, _⟩ := h.feed s hs
    rw [hvalue, Option.some.injEq] at hfeed
    by_contra hnext
    rw [hfeed] at hnext
    exact absurd (Source.landedFeed_next_ne_none.mp hnext).2 (not_lt.mpr (hall s hs).2)

theorem Reached.loaded_iff (h : Reached c landed model) {entry : FeedEntry} :
    Loaded model entry ↔ ∃ s ∈ c.sources, entry ∈ s.entries (landed s.key) := by
  constructor
  · rintro ⟨key, feed, hvalue, hentry⟩
    obtain ⟨s, hs, rfl⟩ := h.source key feed hvalue
    obtain ⟨requestId, loadingMore, hfeed, _⟩ := h.feed s hs
    rw [hvalue, Option.some.injEq] at hfeed
    rw [hfeed, h.feedEntries_eq hs] at hentry
    exact ⟨s, hs, hentry⟩
  · rintro ⟨s, hs, hentry⟩
    obtain ⟨requestId, loadingMore, hvalue, _⟩ := h.feed s hs
    refine ⟨s.key, _, hvalue, ?_⟩
    rw [h.feedEntries_eq hs]
    exact hentry

/-- A statement about the sources with further pages is one about how many have landed. -/
theorem Reached.exists_unfinished_iff (h : Reached c landed model) {P : List FeedEntry → Prop} :
    (∃ key feed, model.postsByServer.value key = some feed ∧ feed.next ≠ none ∧
      feedEntries model feed ≠ [] ∧ P (feedEntries model feed)) ↔
      ∃ s ∈ c.sources, 0 < landed s.key ∧ landed s.key < s.pages.length ∧
        P (s.entries (landed s.key)) := by
  constructor
  · rintro ⟨key, feed, hvalue, hnext, _, hP⟩
    obtain ⟨s, hs, rfl⟩ := h.source key feed hvalue
    obtain ⟨requestId, loadingMore, hfeed, _⟩ := h.feed s hs
    rw [hvalue, Option.some.injEq] at hfeed
    rw [hfeed] at hnext
    rw [hfeed, h.feedEntries_eq hs] at hP
    obtain ⟨hpos, hlt⟩ := Source.landedFeed_next_ne_none.mp hnext
    exact ⟨s, hs, hpos, hlt, hP⟩
  · rintro ⟨s, hs, hpos, hlt, hP⟩
    obtain ⟨requestId, loadingMore, hvalue, _⟩ := h.feed s hs
    refine ⟨s.key, _, hvalue, Source.landedFeed_next_ne_none.mpr ⟨hpos, hlt⟩, ?_⟩
    rw [h.feedEntries_eq hs]
    exact ⟨Source.entries_ne_nil (c.pages_ne s hs) hpos (List.ne_nil_of_length_pos (by omega)), hP⟩

/-- An entry is not safe exactly if a source with further pages has only handed out earlier ones. -/
theorem Reached.not_safe_iff (h : Reached c landed model) {entry : FeedEntry} :
    ¬ Safe model entry ↔
      ∃ s ∈ c.sources, 0 < landed s.key ∧ landed s.key < s.pages.length ∧
        ∀ last ∈ s.entries (landed s.key),
          position (pagingOrder model) last < position (pagingOrder model) entry := by
  have hiff := h.exists_unfinished_iff (P := fun entries => ∀ last ∈ entries,
    position (pagingOrder model) last < position (pagingOrder model) entry)
  rw [← hiff, Safe]
  push Not
  rfl

/-- The key of an entry of a source is that of one of its posts. -/
theorem Source.key_mem {number : Nat} {entry : FeedEntry} (h : entry ∈ s.entries number) :
    entry.key ∈ s.pages.flatten.map (postAnimationKey s.host) := by
  rw [← Source.map_key_mapIdx]
  exact List.mem_map_of_mem ((s.entries_prefix_allEntries number).subset h)

/-- Only one source has an entry with a key. -/
theorem Sources.eq_of_entry_key_eq (hs : s ∈ c.sources) {s' : Source} (hs' : s' ∈ c.sources)
    {number number' : Nat} {entry entry' : FeedEntry} (h : entry ∈ s.entries number)
    (h' : entry' ∈ s'.entries number') (hkey : entry.key = entry'.key) : s = s' := by
  by_contra hne
  have hdisjoint := (List.nodup_flatMap.mp c.posts_nodup).2
  have hkeys := Source.key_mem h
  rw [hkey] at hkeys
  have : Std.Symm (Function.onFun List.Disjoint fun s : Source =>
      s.pages.flatten.map (postAnimationKey s.host)) := ⟨fun _ _ h _ hmem hmem' => h hmem' hmem⟩
  exact hdisjoint.forall hs hs' hne hkeys (Source.key_mem h')

theorem Sources.entries_nodup (hs : s ∈ c.sources) (number : Nat) :
    ((s.entries number).map FeedEntry.key).Nodup := by
  have hnodup := c.source_nodup hs
  rw [← Source.map_key_mapIdx] at hnodup
  exact hnodup.sublist ((s.entries_prefix_allEntries number).sublist.map _)

/-- No two loaded entries have one key. -/
theorem Reached.keys_nodup (h : Reached c landed model) :
    ((loadedEntries model).map FeedEntry.key).Nodup := by
  have hsource (row : Units × ServerFeed) (hrow : row ∈ dictToList model.postsByServer) :
      ∃ s ∈ c.sources, s.key = row.1 ∧
        feedEntries model row.2 = s.entries (landed s.key) := by
    have hvalue := mem_dictToList.mp hrow
    obtain ⟨s, hs, hkey⟩ := h.source row.1 row.2 hvalue
    obtain ⟨requestId, loadingMore, hfeed, _⟩ := h.feed s hs
    rw [hkey, hvalue, Option.some.injEq] at hfeed
    refine ⟨s, hs, hkey, ?_⟩
    rw [hfeed, hkey, h.feedEntries_eq hs]
  have hrows : ((dictToList model.postsByServer).map Prod.fst).Nodup :=
    ((List.mergeSort_perm _ _).map Prod.fst).nodup_iff.mpr model.postsByServer.nodup
  rw [loadedEntries, dictValues, List.flatMap_map, List.map_flatMap, List.nodup_flatMap]
  constructor
  · intro row hrow
    obtain ⟨s, hs, _, hentries⟩ := hsource row hrow
    rw [hentries]
    exact c.entries_nodup hs _
  · refine (List.pairwise_map.mp hrows).imp_of_mem fun {row row'} hrow hrow' hne => ?_
    obtain ⟨s, hs, hkey, hentries⟩ := hsource row hrow
    obtain ⟨s', hs', hkey', hentries'⟩ := hsource row' hrow'
    change List.Disjoint ((feedEntries model row.2).map FeedEntry.key)
      ((feedEntries model row'.2).map FeedEntry.key)
    rw [hentries, hentries']
    intro key hmem hmem'
    obtain ⟨entry, hentry, rfl⟩ := List.mem_map.mp hmem
    obtain ⟨entry', hentry', heq⟩ := List.mem_map.mp hmem'
    have hsame := c.eq_of_entry_key_eq hs hs' hentry hentry' heq.symm
    rw [← hkey, ← hkey', hsame] at hne
    exact hne rfl

/-- A page of a source that lands comes after what the source has handed out. -/
theorem Sources.position_le (c : Sources) (hs : s ∈ c.sources) {number : Nat} {entry last : FeedEntry}
    (hlast : last ∈ s.entries number) (hentry : entry ∈ s.entries (number + 1))
    (hnew : entry ∉ s.entries number) :
    position (pagingOrder c.page) last ≤ position (pagingOrder c.page) entry ∧
      (pagingOrder c.page = .byRank →
        position .byRank last < position .byRank entry) := by
  obtain ⟨rest, hrest⟩ := Source.entries_prefix (s := s) (Nat.le_succ number)
  have hentry' := hentry
  rw [← hrest] at hentry'
  have hmem := (List.mem_append.mp hentry').resolve_left hnew
  have hsublist : (s.entries number ++ rest).Sublist s.allEntries := by
    rw [hrest]
    exact (s.entries_prefix_allEntries _).sublist
  have hrank := (List.pairwise_append.mp
    ((Source.pairwise_rank s.pages.flatten).sublist hsublist)).2.2 last hlast entry hmem
  cases horder : pagingOrder c.page with
  | byRank => exact ⟨hrank.le, fun _ => hrank⟩
  | byRecency =>
    refine ⟨?_, nofun⟩
    exact (List.pairwise_append.mp
      ((Source.pairwise_millis (c.newest_first horder s hs)).sublist hsublist)).2.2
      last hlast entry hmem

/-- What is shown is determined by the pages that have landed. -/
theorem Reached.orderedEntries_eq (h : Reached c landed model) {model' : Model}
    (h' : Reached c landed model') : orderedEntries model = orderedEntries model' := by
  have horder : pagingOrder model = pagingOrder model' := by
    rw [h.pagingOrder_eq, h'.pagingOrder_eq]
  have hsafe (entry : FeedEntry) : Safe model entry ↔ Safe model' entry := by
    rw [← not_iff_not, h.not_safe_iff, h'.not_safe_iff, horder]
  refine eq_of_pairwise_of_mem_iff (fun _ _ => Before.asymm)
    (pairwise_orderedEntries h.keys_nodup) ?_ fun entry => ?_
  · rw [horder]
    exact pairwise_orderedEntries h'.keys_nodup
  · rw [mem_orderedEntries h.keys_nodup, mem_orderedEntries h'.keys_nodup, h.loaded_iff,
      h'.loaded_iff, hsafe]

/-- A safe entry comes no later than some entry of each source with further pages. -/
theorem Reached.exists_position_le (h : Reached c landed model) {entry : FeedEntry}
    (hsafe : Safe model entry) (hs : s ∈ c.sources) (hpos : 0 < landed s.key)
    (hlt : landed s.key < s.pages.length) :
    ∃ last ∈ s.entries (landed s.key),
      position (pagingOrder model) entry ≤ position (pagingOrder model) last := by
  by_contra hnone
  push Not at hnone
  exact h.not_safe_iff.mpr ⟨s, hs, hpos, hlt, hnone⟩ hsafe

section

variable {model' : Model} {landed' : Units → Nat}

theorem Reached.loaded_mono (h : Reached c landed model) (h' : Reached c landed' model')
    (hle : ∀ key, landed key ≤ landed' key) {entry : FeedEntry} (hentry : Loaded model entry) :
    Loaded model' entry := by
  obtain ⟨s, hs, hmem⟩ := h.loaded_iff.mp hentry
  exact h'.loaded_iff.mpr ⟨s, hs, (Source.entries_prefix (hle s.key)).subset hmem⟩

/-- What is safe stays so while pages land, once the first pages have. -/
theorem Reached.safe_mono (h : Reached c landed model) (h' : Reached c landed' model')
    (hle : ∀ key, landed key ≤ landed' key) (hall : ∀ s ∈ c.sources, 0 < landed s.key)
    {entry : FeedEntry} (hsafe : Safe model entry) : Safe model' entry := by
  by_contra hnot
  obtain ⟨s, hs, _, hlt, hlast⟩ := h'.not_safe_iff.mp hnot
  rw [h'.pagingOrder_eq, ← h.pagingOrder_eq] at hlast
  refine h.not_safe_iff.mpr ⟨s, hs, hall s hs, (hle s.key).trans_lt hlt, ?_⟩ hsafe
  exact fun last hmem => hlast last ((Source.entries_prefix (hle s.key)).subset hmem)

/-- What comes to be shown of the entries that are loaded already comes after what is shown. -/
theorem Reached.before_of_not_safe (h : Reached c landed model) {a b : FeedEntry}
    (ha : Safe model a) (hb : ¬ Safe model b) : Before (pagingOrder model) a b := by
  obtain ⟨s, hs, hpos, hlt, hlast⟩ := h.not_safe_iff.mp hb
  obtain ⟨last, hmem, hle⟩ := h.exists_position_le ha hs hpos hlt
  exact before_of_position_lt (hle.trans_lt (hlast last hmem))

end

/-- A page keeps what is shown exactly if it keeps the order of the posts of one time. -/
theorem Reached.prefixKept_arrive_iff (h : Reached c landed model) {key : Units}
    {feed : ServerFeed} {number : Nat} (hflight : c.inFlight model key = some (s, feed, number)) :
    PrefixKept c model (.arrive key) ↔ TiesKept c model (.arrive key) := by
  refine imp_congr_right fun hall => ?_
  have hall := h.allLanded_iff.mp hall
  have h' := h.arrive hflight
  obtain ⟨hs, rfl, rfl, hlength, _⟩ := h.inFlight_eq_some hflight
  have hpos := hall s hs
  have hlt := hlength.resolve_left hpos.ne'
  have hle (key : Units) :
      landed key ≤ Function.update landed s.key (landed s.key + 1) key := by
    by_cases hkey : key = s.key
    · rw [hkey, Function.update_self]
      exact Nat.le_succ _
    · rw [Function.update_of_ne hkey]
  have horder : pagingOrder (c.arrive model s.key) = pagingOrder model := by
    rw [h.pagingOrder_eq, h'.pagingOrder_eq]
  -- a post of the page is not loaded yet
  have hfresh {index : Nat} {post : Post} (hpost : post ∈ (s.answer (landed s.key)).1) :
      s.entryAt index post ∉ s.entries (landed s.key) := by
    intro hmem
    obtain ⟨index', hindex, heq⟩ := Source.mem_entries_iff.mp hmem
    have hpost' : (s.pages.take (landed s.key)).flatten[index'] = post :=
      congrArg FeedEntry.post heq
    refine c.id_notMem hs hpost (List.mem_map.mpr ⟨_, List.getElem_mem hindex, ?_⟩)
    rw [hpost']
  have hshown := pairwise_orderedEntries h'.keys_nodup
  rw [horder] at hshown
  rw [PostsPage.step, prefix_iff_of_pairwise (fun _ _ => Before.asymm)
    (pairwise_orderedEntries h.keys_nodup) hshown]
  constructor
  · rintro ⟨_, hafter⟩ hrecent s' feed' number' hflight' post hpost entry hentry hmillis
    rw [hflight, Option.some.injEq, Prod.mk.injEq, Prod.mk.injEq] at hflight'
    obtain ⟨rfl, rfl, rfl⟩ := hflight'
    by_contra hnot
    push Not at hnot
    obtain ⟨hkey, hreached⟩ := hnot
    have hsafe : Safe model entry := by
      intro key' feed' hvalue hnext hentries
      obtain ⟨last, hlast, hold⟩ := hreached key' feed' hvalue hnext hentries
      refine ⟨last, hlast, ?_⟩
      rw [hrecent]
      simp only [position, neg_le_neg_iff, Int.cast_le, hmillis]
      exact hold
    obtain ⟨index, hnew⟩ := Source.exists_mem_entries_succ hpost
    have hsame : position (pagingOrder model) (s.entryAt index post) =
        position (pagingOrder model) entry := by
      rw [hrecent]
      simp only [position, hmillis]
      rfl
    have hloaded : Loaded (c.arrive model s.key) (s.entryAt index post) := by
      refine h'.loaded_iff.mpr ⟨s, hs, ?_⟩
      rw [Function.update_self]
      exact hnew
    have hsafe' : Safe (c.arrive model s.key) (s.entryAt index post) := by
      intro key' feed' hvalue hnext hentries
      obtain ⟨last, hlast, hle⟩ := h.safe_mono h' hle hall hsafe key' feed' hvalue hnext hentries
      refine ⟨last, hlast, ?_⟩
      rw [horder] at hle ⊢
      rw [hsame]
      exact hle
    have hbefore := hafter _ ((mem_orderedEntries h'.keys_nodup).mpr ⟨hloaded, hsafe'⟩)
      (fun hmem => by
        obtain ⟨s', hs', hold⟩ := h.loaded_iff.mp ((mem_orderedEntries h.keys_nodup).mp hmem).1
        obtain rfl := c.eq_of_entry_key_eq hs' hs hold hnew rfl
        exact hfresh hpost hold)
      entry ((mem_orderedEntries h.keys_nodup).mpr ⟨hentry, hsafe⟩)
    rw [hrecent] at hbefore
    exact absurd ((before_iff_of_millis_eq hmillis).mp hbefore) (not_lt.mpr hkey)
  · intro hties
    refine ⟨fun a ha => ?_, fun b hb hnew a ha => ?_⟩
    · obtain ⟨hloaded, hsafe⟩ := (mem_orderedEntries h.keys_nodup).mp ha
      exact (mem_orderedEntries h'.keys_nodup).mpr
        ⟨h.loaded_mono h' hle hloaded, h.safe_mono h' hle hall hsafe⟩
    · obtain ⟨hloaded, hsafe⟩ := (mem_orderedEntries h.keys_nodup).mp ha
      obtain ⟨hloaded', _⟩ := (mem_orderedEntries h'.keys_nodup).mp hb
      by_cases hold : Loaded model b
      · exact h.before_of_not_safe hsafe fun hsafe' =>
          hnew ((mem_orderedEntries h.keys_nodup).mpr ⟨hold, hsafe'⟩)
      -- `b` is a post of the page
      have hpage : b ∈ s.entries (landed s.key + 1) := by
        obtain ⟨s', hs', hmem⟩ := h'.loaded_iff.mp hloaded'
        by_cases hkey : s'.key = s.key
        · obtain rfl := c.eq_of_key_eq hs' hs hkey
          rw [Function.update_self] at hmem
          exact hmem
        · rw [Function.update_of_ne hkey] at hmem
          exact absurd (h.loaded_iff.mpr ⟨s', hs', hmem⟩) hold
      have hnotold : b ∉ s.entries (landed s.key) := fun hmem =>
        hold (h.loaded_iff.mpr ⟨s, hs, hmem⟩)
      obtain ⟨index, post, hpost, rfl⟩ := (Source.mem_entries_succ hpage).resolve_left hnotold
      obtain ⟨last, hlast, hale⟩ := h.exists_position_le hsafe hs hpos hlt
      obtain ⟨hleb, hrank⟩ := c.position_le hs hlast hpage hnotold
      rw [← h.pagingOrder_eq] at hleb hrank
      cases hmode : pagingOrder model with
      | byRank =>
        rw [hmode] at hale
        exact before_of_position_lt (hale.trans_lt (hrank hmode))
      | byRecency =>
        rw [hmode] at hale hleb
        obtain hbelow | htie := (hale.trans hleb).lt_or_eq
        · exact before_of_position_lt hbelow
        · have hmillis : a.millis = postTimestamp post := by
            simpa [position, Source.entryAt, entryAt] using htie
          obtain hkey | ⟨key', feed', hvalue, hnext, hne, hnewer⟩ :=
            hties hmode s feed (landed s.key) hflight post hpost a hloaded hmillis
          · exact (before_iff_of_millis_eq hmillis).mpr hkey
          · -- then `a` would not be shown
            obtain ⟨last', hlast', hle'⟩ := hsafe key' feed' hvalue hnext hne
            have hyounger := hnewer last' hlast'
            rw [hmode] at hle'
            simp only [position, neg_le_neg_iff, Int.cast_le] at hle'
            omega

/-- A step keeps what is shown exactly if it keeps the order of the posts of one time. -/
theorem Reached.prefixKept_iff (h : Reached c landed model) (action : Action) :
    PrefixKept c model action ↔ TiesKept c model action := by
  cases action with
  | loadMore keys =>
    refine iff_of_true (fun _ => ?_) trivial
    rw [h.orderedEntries_eq (h.loadMore keys)]
  | arrive key =>
    cases hflight : c.inFlight model key with
    | none =>
      refine iff_of_true (fun _ => ?_) fun _ _ s feed number hsome => ?_
      · rw [PostsPage.step, Sources.arrive, hflight]
      · rw [hflight] at hsome
        cases hsome
    | some found =>
      obtain ⟨s, feed, number⟩ := found
      exact h.prefixKept_arrive_iff hflight

/-- Once all is loaded, the posts of all sources are shown in the order of the display. -/
theorem Reached.isMerge (h : Reached c landed model) (hexhausted : Exhausted model) :
    IsMerge c (orderedEntries model) := by
  have hall := h.exhausted_iff.mp hexhausted
  have hshown := pairwise_orderedEntries h.keys_nodup
  have hsafe (entry : FeedEntry) : Safe model entry := by
    by_contra hnot
    obtain ⟨s, hs, _, hlt, _⟩ := h.not_safe_iff.mp hnot
    exact absurd hlt (not_lt.mpr (hall s hs).2)
  have hirrefl (entry : FeedEntry) : ¬ Before (pagingOrder model) entry entry :=
    fun hbefore => hbefore.asymm hbefore
  have hnodup : (c.sources.flatMap Source.allEntries).Nodup := by
    have hkeys : ((c.sources.flatMap Source.allEntries).map FeedEntry.key).Nodup := by
      have hsame : (c.sources.flatMap Source.allEntries).map FeedEntry.key =
          c.sources.flatMap fun s => s.pages.flatten.map (postAnimationKey s.host) := by
        rw [List.map_flatMap]
        exact List.flatMap_congr fun s _ => s.map_key_mapIdx _
      rw [hsame]
      exact c.posts_nodup
    exact hkeys.of_map _
  constructor
  · refine (List.perm_ext_iff_of_nodup (nodup_of_pairwise hirrefl hshown) hnodup).mpr
      fun entry => ?_
    rw [mem_orderedEntries h.keys_nodup, h.loaded_iff, List.mem_flatMap,
      and_iff_left (hsafe entry)]
    refine exists_congr fun s => and_congr_right fun hs => ?_
    rw [Source.entries_of_length_le (hall s hs).2]
  · rw [← h.pagingOrder_eq]
    exact hshown

/-- A source that holds the list back has further pages. -/
theorem Reached.unfinished_of_binding (h : Reached c landed model) {key : Units}
    (hkey : key ∈ bindingFeedKeys model) :
    ∃ s ∈ c.sources, s.key = key ∧ 0 < landed s.key ∧ landed s.key < s.pages.length := by
  obtain ⟨⟨_, frontier⟩, hrow, rfl⟩ := List.mem_map.mp hkey
  obtain ⟨feed, hvalue, hnext, _⟩ := mem_unfinishedFrontiers.mp (List.mem_filter.mp hrow).1
  obtain ⟨s, hs, hsame⟩ := h.source _ feed hvalue
  obtain ⟨requestId, loadingMore, hfeed, _⟩ := h.feed s hs
  rw [hsame, hvalue, Option.some.injEq] at hfeed
  rw [hfeed] at hnext
  rw [← hsame] at hnext
  exact ⟨s, hs, hsame, Source.landedFeed_next_ne_none.mp hnext⟩

/-- While a source has pages left, some source holds the list back. -/
theorem Reached.binding_ne_nil (h : Reached c landed model) (hall : AllLanded model)
    (hleft : ¬ Exhausted model) : bindingFeedKeys model ≠ [] := by
  rw [h.exhausted_iff] at hleft
  push Not at hleft
  obtain ⟨s, hs, hlength⟩ := hleft
  have hpos := h.allLanded_iff.mp hall s hs
  obtain ⟨key, feed, hvalue, hnext, hne, _⟩ :=
    (h.exists_unfinished_iff (P := fun _ => True)).mpr ⟨s, hs, hpos, hlength hpos, trivial⟩
  obtain ⟨frontier, hfrontier⟩ := frontierOf_isSome hne
  have hmem : (key, frontier) ∈ unfinishedFrontiers model :=
    mem_unfinishedFrontiers.mpr ⟨feed, hvalue, hnext, hfrontier⟩
  have hfrontiers : (unfinishedFrontiers model).map Prod.snd ≠ [] :=
    List.ne_nil_of_mem (List.mem_map_of_mem hmem)
  obtain ⟨binding, hbinding, hbinds⟩ := exists_isBinding (pagingOrder model) hfrontiers
  obtain ⟨row, hrow, rfl⟩ := List.mem_map.mp hbinding
  exact List.ne_nil_of_mem (List.mem_map_of_mem (List.mem_filter.mpr ⟨hrow, hbinds⟩))

/-- A source has been asked for a page. -/
def Waiting (model : Model) (key : Units) : Prop :=
  ∃ feed, model.postsByServer.value key = some feed ∧ feed.refreshing = true

theorem waiting_startLoading {key : Units} (hwaiting : Waiting model key) (other : Units) :
    Waiting (startLoading model other) key := by
  unfold startLoading
  split
  · split
    · split
      · exact hwaiting
      · rw [Waiting, HashMap.value_put]
        split
        · exact ⟨_, rfl, rfl⟩
        · exact hwaiting
    · exact hwaiting
  · exact hwaiting

theorem waiting_foldl {key : Units} (hwaiting : Waiting model key) (asked : List Units) :
    Waiting (asked.foldl startLoading model) key := by
  induction asked generalizing model with
  | nil => exact hwaiting
  | cons other asked ih => exact ih (waiting_startLoading hwaiting other)

theorem Reached.waiting_startLoading (h : Reached c landed model) (hs : s ∈ c.sources)
    (hpos : 0 < landed s.key) (hlt : landed s.key < s.pages.length) :
    Waiting (PostsPage.startLoading model s.key) s.key := by
  obtain ⟨requestId, loadingMore, hvalue, _⟩ := h.feed s hs
  have hnext : (s.landedFeed (landed s.key) requestId loadingMore).next =
      some (landed s.key) := if_pos ⟨hpos, hlt⟩
  unfold PostsPage.startLoading
  rw [hvalue]
  dsimp only
  rw [hnext]
  dsimp only
  split
  · rename_i hbusy
    refine ⟨_, hvalue, ?_⟩
    simp only [Source.landedFeed, Bool.or_eq_true] at hbusy ⊢
    tauto
  · rw [Waiting, HashMap.value_put, if_pos rfl]
    exact ⟨_, rfl, rfl⟩

/-- A source with further pages that is asked for its next is waited for. -/
theorem Reached.waiting_loadMore (h : Reached c landed model) (hs : s ∈ c.sources)
    (hpos : 0 < landed s.key) (hlt : landed s.key < s.pages.length) {keys : List Units}
    (hkey : s.key ∈ keys) : Waiting (PostsPage.step c model (.loadMore keys)) s.key := by
  rw [PostsPage.step, loadMoreFeeds]
  have hasked : s.key ∈ (c.sources.map Source.key).filter fun key => decide (key ∈ keys) :=
    List.mem_filter.mpr ⟨List.mem_map_of_mem hs, decide_eq_true hkey⟩
  generalize (c.sources.map Source.key).filter (fun key => decide (key ∈ keys)) = asked at hasked
  induction asked generalizing model with
  | nil => exact absurd hasked List.not_mem_nil
  | cons key asked ih =>
    by_cases hrest : s.key ∈ asked
    · exact ih (h.startLoading key) hrest
    · obtain rfl := (List.mem_cons.mp hasked).resolve_right hrest
      have hwaiting := h.waiting_startLoading hs hpos hlt
      rw [List.foldl_cons]
      exact waiting_foldl hwaiting asked

/-- Loading the sources that hold the list back makes one of them hand out a page. -/
theorem Reached.loadBinding (h : Reached c landed model) (hall : AllLanded model)
    (hleft : ¬ Exhausted model) :
    ∃ landed', Reached c landed' (loadBinding c model) ∧ (∀ key, landed key ≤ landed' key) ∧
      ∃ s ∈ c.sources, landed s.key < s.pages.length ∧ landed s.key < landed' s.key := by
  cases hkeys : bindingFeedKeys model with
  | nil => exact absurd hkeys (h.binding_ne_nil hall hleft)
  | cons key rest =>
    obtain ⟨s, hs, rfl, hpos, hlt⟩ := h.unfinished_of_binding (hkeys ▸ List.mem_cons_self)
    have hasked := h.loadMore (bindingFeedKeys model)
    obtain ⟨feed, hvalue, hrefreshing⟩ := h.waiting_loadMore hs hpos hlt
      (hkeys ▸ List.mem_cons_self : s.key ∈ bindingFeedKeys model)
    have hflight := hasked.inFlight_of_refreshing hs hvalue hrefreshing
    obtain ⟨landed', h', hle⟩ := (hasked.arrive hflight).run (rest.map Action.arrive)
    refine ⟨landed', ?_, fun other => le_trans ?_ (hle other), s, hs, hlt, ?_⟩
    · rw [PostsPage.loadBinding, hkeys]
      rw [hkeys] at h'
      exact h'
    · by_cases hother : other = s.key
      · rw [hother, Function.update_self]
        exact Nat.le_succ _
      · rw [Function.update_of_ne hother]
    · have hself := hle s.key
      rw [Function.update_self] at hself
      exact hself

/-- How many pages have not landed. -/
def remaining (c : Sources) (landed : Units → Nat) : Nat :=
  (c.sources.map fun s => s.pages.length - landed s.key).sum

theorem Reached.exists_rounds (h : Reached c landed model) (hall : AllLanded model) {bound : Nat}
    (hbound : remaining c landed ≤ bound) :
    ∃ rounds, Exhausted ((PostsPage.loadBinding c)^[rounds] model) ∧
      IsMerge c (orderedEntries ((PostsPage.loadBinding c)^[rounds] model)) := by
  induction bound using Nat.strongRecOn generalizing model landed with
  | ind bound ih =>
    by_cases hexhausted : Exhausted model
    · exact ⟨0, hexhausted, h.isMerge hexhausted⟩
    · obtain ⟨landed', h', hle, s, hs, hlt, hmore⟩ := h.loadBinding hall hexhausted
      have hfewer : remaining c landed' < remaining c landed := by
        refine List.sum_lt_sum _ _ (fun s' _ => ?_) ⟨s, hs, ?_⟩
        · exact Nat.sub_le_sub_left (hle s'.key) _
        · omega
      have hall' : AllLanded (PostsPage.loadBinding c model) :=
        h'.allLanded_iff.mpr fun s' hs' =>
          (h.allLanded_iff.mp hall s' hs').trans_le (hle s'.key)
      obtain ⟨rounds, hrounds⟩ := ih _ (hfewer.trans_le hbound) h' hall' le_rfl
      exact ⟨rounds + 1, hrounds⟩

end

/-- Some pages of each source have landed. -/
def Landed (c : Sources) (model : Model) : Prop := ∃ landed, Reached c landed model

theorem landed_start (c : Sources) : Landed c c.start := ⟨_, reached_start c⟩

theorem landed_step (c : Sources) (model : Model) (action : Action) (h : Landed c model) :
    Landed c (step c model action) := by
  obtain ⟨landed, h⟩ := h
  obtain ⟨landed', h', _⟩ := h.step action
  exact ⟨landed', h'⟩

/-- Along a run, what is shown is kept exactly if the order of the posts of one time is. -/
theorem along_prefixKept_iff (c : Sources) (actions : List Action) :
    Along (step c) (PrefixKept c) c.start actions ↔
      Along (step c) (TiesKept c) c.start actions := by
  refine along_iff_of_invariant (fun model action h _ => landed_step c model action h)
    (fun model action h => ?_) (landed_start c) actions
  obtain ⟨landed, h⟩ := h
  exact h.prefixKept_iff action

/-- The pages of any sources, however they land, are merged as the page says exactly if no page
brings a post that comes in the dictionary before a shown one of its time. -/
theorem merges_iff (c : Sources) (actions : List Action) :
    Merges c actions ↔ Along (step c) (TiesKept c) c.start actions := by
  constructor
  · exact fun h => (along_prefixKept_iff c actions).mp h.prefix_kept
  · intro hties
    refine ⟨(along_prefixKept_iff c actions).mpr hties, ?_, ?_⟩
    · refine Throughout.of_invariant (landed_step c) (fun model h hexhausted => ?_)
        (landed_start c)
      obtain ⟨landed, h⟩ := h
      exact h.isMerge hexhausted
    · refine Throughout.of_invariant (landed_step c) (fun model h hall hleft => ?_)
        (landed_start c)
      obtain ⟨landed, h⟩ := h
      exact ⟨h.binding_ne_nil hall hleft, h.exists_rounds hall le_rfl⟩

/-- A post of the first second. -/
def earlyPost (id : String) : Post where
  id := units id
  context := .post
  publishedAt := some ⟨1, 0⟩

/-- A source with a page for each of two posts of one time. -/
def tiedSource : Source where
  key := units "rellm.social"
  host := units "rellm.social"
  pages := [[earlyPost "zb"], [earlyPost "za"]]

def tiedSources : Sources where
  page :=
    { postsByServer := Table.empty
      nextRequestId := 0
      context := .post
      searchText := []
      sort := .sortRecent
      tab := .recentPosts
      hiddenAuthors := Table.empty }
  shared :=
    { customNavPostIds := fun _ => []
      showCustomNavPosts := false
      showSensitiveMediaPosts := false }
  sources := [tiedSource]
  keys_nodup := by decide +kernel
  pages_ne := by decide +kernel
  listed := by decide +kernel
  kept := by decide +kernel
  posts_nodup := by decide +kernel
  newest_first := by decide +kernel

/-- A post of the second page is inserted above the post of the first. -/
theorem inserted_above :
    ¬ Merges tiedSources
      [.arrive tiedSource.key, .loadMore [tiedSource.key], .arrive tiedSource.key] := by
  intro h
  obtain ⟨_, _, hties, _⟩ := (along_prefixKept_iff _ _).mp h.prefix_kept
  have hrows : (step tiedSources (step tiedSources tiedSources.start (.arrive tiedSource.key))
      (.loadMore [tiedSource.key])).postsByServer.rows =
      [(tiedSource.key, tiedSource.landedFeed 1 1 true)] := by
    decide +kernel
  have hflight : tiedSources.inFlight (step tiedSources (step tiedSources tiedSources.start
      (.arrive tiedSource.key)) (.loadMore [tiedSource.key])) tiedSource.key =
      some (tiedSource, tiedSource.landedFeed 1 1 true, 1) := by
    decide +kernel
  have hrecent : pagingOrder (step tiedSources (step tiedSources tiedSources.start
      (.arrive tiedSource.key)) (.loadMore [tiedSource.key])) = .byRecency := by
    decide +kernel
  have hentries : feedEntries (step tiedSources (step tiedSources tiedSources.start
      (.arrive tiedSource.key)) (.loadMore [tiedSource.key])) (tiedSource.landedFeed 1 1 true) =
      [tiedSource.entryAt 0 (earlyPost "zb")] := by
    decide +kernel
  generalize step tiedSources (step tiedSources tiedSources.start (.arrive tiedSource.key))
    (.loadMore [tiedSource.key]) = model at *
  have hfeed (key : Units) (feed : ServerFeed) (hvalue : model.postsByServer.value key = some feed) :
      key = tiedSource.key ∧ feed = tiedSource.landedFeed 1 1 true := by
    rw [HashMap.value_eq_some_iff, hrows, List.mem_singleton, Prod.mk.injEq] at hvalue
    exact hvalue
  have hvalue : model.postsByServer.value tiedSource.key =
      some (tiedSource.landedFeed 1 1 true) := by
    rw [HashMap.value_eq_some_iff, hrows]
    exact List.mem_singleton_self _
  have hloaded : Loaded model (tiedSource.entryAt 0 (earlyPost "zb")) :=
    ⟨_, _, hvalue, hentries ▸ List.mem_singleton_self _⟩
  have hall : AllLanded model := fun key feed hvalue => by
    rw [(hfeed key feed hvalue).2]
    decide +kernel
  obtain hkey | ⟨key, feed, hvalue, _, _, hnewer⟩ :=
    hties hall hrecent tiedSource _ 1 hflight (earlyPost "za") (by decide +kernel) _ hloaded
      (by decide +kernel)
  · exact absurd hkey (by decide +kernel)
  · rw [(hfeed key feed hvalue).2, hentries] at hnewer
    exact absurd (hnewer _ (List.mem_singleton_self _)) (by decide +kernel)

end Rellm.Client.PostsPage
