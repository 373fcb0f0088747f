import Rellm.Client.Feeds
import Rellm.Foundation.Run

/-!
# Merging paged feeds

Each source hands out a list of posts page by page, newest first or in its own ranking. What is shown
of the loaded posts is in the order of the display and determined by how many pages of each source
have landed. By rank, a page only ever adds below what is shown. By recency it does so unless a post
of it is as old as one that is shown and precedes it in the dictionary.
-/

namespace Rellm.Client.PostsPage

open Foundation

/-- The place of an entry that the display goes by first. -/
def position : Order → FeedEntry → ℚ
  | .byRecency, entry => -(entry.millis : ℚ)
  | .byRank, entry => entry.rank

/-- The place that a frontier stands for. -/
def Frontier.position : Order → Frontier → ℚ
  | .byRecency, frontier => -(frontier.millis : ℚ)
  | .byRank, frontier => frontier.rank

/-- An entry is displayed before another: what the display does not tell apart is in the order of
the dictionary. -/
def Before (order : Order) (entry entry' : FeedEntry) : Prop :=
  displayLe order entry entry' = true ∧ (displayLe order entry' entry = true → entry.key < entry'.key)

section

variable {order : Order} {a b c : FeedEntry}

theorem displayLe_trans (h : displayLe order a b = true) (h' : displayLe order b c = true) :
    displayLe order a c = true := by
  cases order <;> simp only [displayLe, Bool.or_eq_true, Bool.and_eq_true, decide_eq_true_eq] at *
  · omega
  · grind

theorem displayLe_total : (displayLe order a b || displayLe order b a) = true := by
  cases order <;> simp only [displayLe, Bool.or_eq_true, Bool.and_eq_true, decide_eq_true_eq]
  · omega
  · grind

theorem Before.asymm (h : Before order a b) : ¬ Before order b a :=
  fun h' => lt_asymm (h.2 h'.1) (h'.2 h.1)

/-- What has an earlier place is displayed before. -/
theorem before_of_position_lt (h : position order a < position order b) : Before order a b := by
  cases order <;>
    simp only [position, Before, displayLe, Bool.or_eq_true, Bool.and_eq_true,
      decide_eq_true_eq, neg_lt_neg_iff, Int.cast_lt] at *
  · exact ⟨by omega, fun hle => by omega⟩
  · refine ⟨Or.inl h, ?_⟩
    rintro (hlt | ⟨heq, _⟩)
    · exact absurd hlt (lt_asymm h)
    · exact absurd heq h.ne'

/-- By recency, entries of one time are displayed in the order of their keys. -/
theorem before_iff_of_millis_eq (h : a.millis = b.millis) :
    Before .byRecency a b ↔ a.key < b.key := by
  simp [Before, displayLe, h]

end

/-- A frontier is the last place of the entries of its source. -/
theorem frontierOf_eq_some (order : Order) {entries : List FeedEntry} {frontier : Frontier}
    (h : frontierOf entries = some frontier) :
    (∀ entry ∈ entries, position order entry ≤ frontier.position order) ∧
      ∃ entry ∈ entries, position order entry = frontier.position order := by
  cases entries with
  | nil => cases h
  | cons first rest =>
    cases h
    induction rest using List.reverseRecOn with
    | nil =>
      refine ⟨fun entry hentry => ?_, first, List.mem_singleton_self _, ?_⟩
      · rw [List.mem_singleton.mp hentry]
        cases order <;> exact le_rfl
      · cases order <;> rfl
    | append_singleton rest last ih =>
      obtain ⟨hle, entry, hentry, heq⟩ := ih
      rw [List.foldl_append, List.foldl_cons, List.foldl_nil]
      generalize rest.foldl _ _ = frontier at hle heq
      have hmem {other : FeedEntry} (h : other ∈ first :: (rest ++ [last])) :
          other ∈ first :: rest ∨ other = last := by
        rw [← List.cons_append, List.mem_append, List.mem_singleton] at h
        exact h
      have hin {other : FeedEntry} (h : other ∈ first :: rest) :
          other ∈ first :: (rest ++ [last]) := by
        rw [← List.cons_append]
        exact List.mem_append_left _ h
      have hlast : last ∈ first :: (rest ++ [last]) := by
        rw [← List.cons_append]
        exact List.mem_append_right _ (List.mem_singleton_self _)
      cases order with
      | byRecency =>
        simp only [position, Frontier.position, neg_le_neg_iff, Int.cast_le, neg_inj,
          Int.cast_inj] at hle heq ⊢
        refine ⟨fun other hother => ?_, ?_⟩
        · obtain hother | rfl := hmem hother
          · exact (min_le_left _ _).trans (hle other hother)
          · exact min_le_right _ _
        · obtain hmin | hmin := min_choice frontier.millis last.millis
          · exact ⟨entry, hin hentry, heq.trans hmin.symm⟩
          · exact ⟨last, hlast, hmin.symm⟩
      | byRank =>
        simp only [position, Frontier.position] at hle heq ⊢
        refine ⟨fun other hother => ?_, ?_⟩
        · obtain hother | rfl := hmem hother
          · exact (hle other hother).trans (le_max_left _ _)
          · exact le_max_right _ _
        · obtain hmax | hmax := max_choice frontier.rank last.rank
          · exact ⟨entry, hin hentry, heq.trans hmax.symm⟩
          · exact ⟨last, hlast, hmax.symm⟩

/-- The safe entries are those no later than any frontier. -/
theorem mem_safeEntries {order : Order} {frontiers : List Frontier} {entries : List FeedEntry}
    {entry : FeedEntry} :
    entry ∈ safeEntries order frontiers entries ↔
      entry ∈ entries ∧ ∀ frontier ∈ frontiers,
        position order entry ≤ frontier.position order := by
  unfold safeEntries
  cases hlimit : limit order frontiers with
  | none =>
    have hnil : frontiers = [] := by
      cases order <;> simpa [limit] using hlimit
    simp [hnil]
  | some bound =>
    cases order with
    | byRecency =>
      have hbound : bound ≤ (entry.millis : ℚ) ↔ _ := List.max?_le_iff hlimit
      simp only [List.mem_filter, decide_eq_true_eq, hbound, List.forall_mem_map, position,
        Frontier.position, neg_le_neg_iff]
    | byRank =>
      have hbound : entry.rank ≤ bound ↔ _ := List.le_min?_iff hlimit
      simp only [List.mem_filter, decide_eq_true_eq, hbound, List.forall_mem_map, position,
        Frontier.position]

theorem safeEntries_sublist {order : Order} {frontiers : List Frontier}
    {entries : List FeedEntry} : (safeEntries order frontiers entries).Sublist entries := by
  unfold safeEntries
  split
  · exact List.Sublist.refl _
  · split <;> exact List.filter_sublist

/-- Where there are frontiers, one of them binds. -/
theorem exists_isBinding (order : Order) {frontiers : List Frontier} (h : frontiers ≠ []) :
    ∃ frontier ∈ frontiers, isBinding order frontiers frontier = true := by
  cases order with
  | byRecency =>
    cases hlimit : limit .byRecency frontiers with
    | none => exact absurd (by simpa [limit] using hlimit) h
    | some bound =>
      obtain ⟨frontier, hfrontier, heq⟩ := List.mem_map.mp (List.max?_mem hlimit)
      exact ⟨frontier, hfrontier, by simp [isBinding, hlimit, heq]⟩
  | byRank =>
    cases hlimit : limit .byRank frontiers with
    | none => exact absurd (by simpa [limit] using hlimit) h
    | some bound =>
      obtain ⟨frontier, hfrontier, heq⟩ := List.mem_map.mp (List.min?_mem hlimit)
      exact ⟨frontier, hfrontier, by simp [isBinding, hlimit, heq]⟩

/-- The entries of a dictionary by key are in the order of the keys. -/
theorem dictValues_collect {entries : List FeedEntry}
    (hkeys : (entries.map FeedEntry.key).Nodup) :
    (dictValues (Table.collect (entries.map fun entry => (entry.key, entry)))).Pairwise
        (fun a b => a.key < b.key) ∧
      ∀ entry, entry ∈ dictValues (Table.collect (entries.map fun entry => (entry.key, entry))) ↔
        entry ∈ entries := by
  generalize hdict : (Table.collect (entries.map fun entry => (entry.key, entry)) :
    HashMap Units FeedEntry) = dict
  have hmem (row : Units × FeedEntry) :
      row ∈ dict.rows ↔ ∃ entry ∈ entries, (entry.key, entry) = row := by
    constructor
    · intro hrow
      rw [← hdict] at hrow
      exact List.mem_map.mp (Table.mem_of_mem_collect hrow)
    · rintro ⟨entry, hentry, rfl⟩
      have hsome : (dict.get entry.key).isSome := by
        rw [← hdict]
        exact Table.get_collect_isSome.mpr ⟨_, List.mem_map_of_mem hentry, rfl⟩
      obtain ⟨row, hget⟩ := Option.isSome_iff_exists.mp hsome
      obtain ⟨hrow, hkey⟩ := Table.get_eq_some_iff.mp hget
      have hfound := hrow
      rw [← hdict] at hfound
      obtain ⟨found, hmem, rfl⟩ := List.mem_map.mp (Table.mem_of_mem_collect hfound)
      obtain rfl := List.inj_on_of_nodup_map hkeys hmem hentry hkey
      exact hrow
  constructor
  · rw [dictValues, List.pairwise_map]
    have hnodup : ((dictToList dict).map Prod.fst).Nodup :=
      ((List.mergeSort_perm _ _).map Prod.fst).nodup_iff.mpr dict.nodup
    have hsorted : (dictToList dict).Pairwise fun row row' => row.1 ≤ row'.1 := by
      refine (List.pairwise_mergeSort ?_ ?_ dict.rows).imp fun h => of_decide_eq_true h
      · intro a b c hab hbc
        rw [decide_eq_true_eq] at *
        exact hab.trans hbc
      · intro a b
        rw [Bool.or_eq_true, decide_eq_true_eq, decide_eq_true_eq]
        exact le_total a.1 b.1
    refine (hsorted.and (List.pairwise_map.mp hnodup)).imp_of_mem fun {row row'} hrow hrow' h => ?_
    obtain ⟨entry, _, rfl⟩ := (hmem row).mp (List.mem_mergeSort.mp hrow)
    obtain ⟨entry', _, rfl⟩ := (hmem row').mp (List.mem_mergeSort.mp hrow')
    exact lt_of_le_of_ne h.1 h.2
  · intro entry
    rw [dictValues, List.mem_map]
    constructor
    · rintro ⟨row, hrow, rfl⟩
      obtain ⟨entry, hentry, rfl⟩ := (hmem row).mp (List.mem_mergeSort.mp hrow)
      exact hentry
    · intro hentry
      exact ⟨(entry.key, entry), List.mem_mergeSort.mpr ((hmem _).mpr ⟨entry, hentry, rfl⟩), rfl⟩

section

variable {model : Model}

/-- An entry is loaded. -/
def Loaded (model : Model) (entry : FeedEntry) : Prop :=
  ∃ key feed, model.postsByServer.value key = some feed ∧ entry ∈ feedEntries model feed

/-- No source with further pages could still precede an entry. -/
def Safe (model : Model) (entry : FeedEntry) : Prop :=
  ∀ key feed, model.postsByServer.value key = some feed → feed.next ≠ none →
    feedEntries model feed ≠ [] →
    ∃ last ∈ feedEntries model feed,
      position (pagingOrder model) entry ≤ position (pagingOrder model) last

theorem mem_dictToList {β : Type} {dict : HashMap Units β} {key : Units} {value : β} :
    (key, value) ∈ dictToList dict ↔ dict.value key = some value := by
  rw [dictToList, List.mem_mergeSort, HashMap.value_eq_some_iff]

/-- The loaded entries of all sources. -/
def loadedEntries (model : Model) : List FeedEntry :=
  (dictValues model.postsByServer).flatMap (feedEntries model)

theorem mem_loadedEntries {entry : FeedEntry} :
    entry ∈ loadedEntries model ↔ Loaded model entry := by
  rw [loadedEntries, List.mem_flatMap]
  constructor
  · rintro ⟨feed, hfeed, hentry⟩
    obtain ⟨⟨key, _⟩, hrow, rfl⟩ := List.mem_map.mp hfeed
    exact ⟨key, _, mem_dictToList.mp hrow, hentry⟩
  · rintro ⟨key, feed, hvalue, hentry⟩
    exact ⟨feed, List.mem_map.mpr ⟨(key, feed), mem_dictToList.mpr hvalue, rfl⟩, hentry⟩

theorem mem_unfinishedFrontiers {key : Units} {frontier : Frontier} :
    (key, frontier) ∈ unfinishedFrontiers model ↔
      ∃ feed, model.postsByServer.value key = some feed ∧ feed.next ≠ none ∧
        frontierOf (feedEntries model feed) = some frontier := by
  rw [unfinishedFrontiers, List.mem_filterMap]
  constructor
  · rintro ⟨⟨key', feed⟩, hrow, hfrontier⟩
    split at hfrontier
    · cases hfrontier
    · rename_i hnext
      obtain ⟨found, hfound, hrow'⟩ := Option.map_eq_some_iff.mp hfrontier
      cases hrow'
      exact ⟨feed, mem_dictToList.mp hrow, fun hnone => hnext (by simp [hnone]), hfound⟩
  · rintro ⟨feed, hvalue, hnext, hfrontier⟩
    refine ⟨(key, feed), mem_dictToList.mpr hvalue, ?_⟩
    rw [if_neg (by simpa using hnext), hfrontier]
    rfl

theorem frontierOf_isSome {entries : List FeedEntry} (h : entries ≠ []) :
    ∃ frontier, frontierOf entries = some frontier := by
  cases entries with
  | nil => exact absurd rfl h
  | cons first rest => exact ⟨_, rfl⟩

/-- An entry is no later than the frontiers exactly if no source could precede it. -/
theorem forall_frontier_iff {entry : FeedEntry} :
    (∀ frontier ∈ (unfinishedFrontiers model).map Prod.snd,
      position (pagingOrder model) entry ≤ frontier.position (pagingOrder model)) ↔
      Safe model entry := by
  constructor
  · intro h key feed hvalue hnext hentries
    obtain ⟨frontier, hfrontier⟩ := frontierOf_isSome hentries
    obtain ⟨_, last, hlast, heq⟩ := frontierOf_eq_some (pagingOrder model) hfrontier
    refine ⟨last, hlast, ?_⟩
    rw [heq]
    exact h frontier (List.mem_map.mpr
      ⟨(key, frontier), mem_unfinishedFrontiers.mpr ⟨feed, hvalue, hnext, hfrontier⟩, rfl⟩)
  · intro h frontier hmem
    obtain ⟨⟨key, _⟩, hrow, rfl⟩ := List.mem_map.mp hmem
    obtain ⟨feed, hvalue, hnext, hfrontier⟩ := mem_unfinishedFrontiers.mp hrow
    have hentries : feedEntries model feed ≠ [] := by
      intro hnil
      rw [hnil] at hfrontier
      cases hfrontier
    obtain ⟨last, hlast, hle⟩ := h key feed hvalue hnext hentries
    exact hle.trans ((frontierOf_eq_some _ hfrontier).1 last hlast)

/-- What is shown are the loaded entries that no source could precede. -/
theorem mem_orderedEntries (hkeys : ((loadedEntries model).map FeedEntry.key).Nodup)
    {entry : FeedEntry} :
    entry ∈ orderedEntries model ↔ Loaded model entry ∧ Safe model entry := by
  have hdict := (dictValues_collect hkeys).2 entry
  rw [← mem_loadedEntries, ← forall_frontier_iff, ← hdict]
  rw [orderedEntries, mem_safeEntries, sortEntries, List.mem_mergeSort]
  rfl

/-- What is shown is in the order of the display. -/
theorem pairwise_orderedEntries (hkeys : ((loadedEntries model).map FeedEntry.key).Nodup) :
    (orderedEntries model).Pairwise (Before (pagingOrder model)) := by
  refine List.Pairwise.sublist safeEntries_sublist ?_
  exact pairwise_mergeSort_of_pairwise (fun _ _ _ => displayLe_trans) (fun _ _ => displayLe_total)
    (fun _ _ => lt_asymm) (dictValues_collect hkeys).1

end

end Rellm.Client.PostsPage
