import Mathlib.Logic.Function.Basic
import Rellm.Foundation.Pages

/-!
# Threads

The replies to a row, the replies to these, and so on can be loaded row by row, or level by level,
where one query loads the replies to all rows of a level. A query returns so many rows at most.
Level by level comes to the same exactly where no level has more replies than a query returns,
unless they are all to one row.
-/

namespace Rellm.Foundation

universe u v w x

variable {α : Type u} {κ : Type v} {ρ : Type w} {τ : Type x} [DecidableEq κ] [LinearOrder ρ]

/-- The replies to some rows. -/
def repliesTo (parent : α → κ) (replies : List α) (ids : List κ) : List α :=
  replies.filter fun reply => parent reply ∈ ids

/-- The first rows of a sort of some rows. -/
def Newest (key : α → ρ) (limit : Nat) (rows kept : List α) : Prop :=
  ∃ sorted, Sorts key rows sorted ∧ sorted.take limit = kept

section

variable (parent name : α → κ) (key : α → ρ) (limit : Nat) (replies : List α) (node : α → List τ → τ)

/-- The replies to a row as they are loaded row by row, to some depth. -/
def IsThread : Nat → κ → List τ → Prop
  | 0, _, thread => thread = []
  | depth + 1, id, thread => ∃ (kept : List α) (answers : α → List τ),
      Newest key limit (repliesTo parent replies [id]) kept ∧
      thread = kept.map (fun reply => node reply (answers reply)) ∧
        ∀ reply ∈ kept, IsThread depth (name reply) (answers reply)

/-- The replies to a row as they are loaded level by level, to some depth; each level is sorted in a
way of its own. -/
def batched (sorters : Nat → List κ → Sorter key) : Nat → List κ → κ → List τ
  | 0, _, _ => []
  | depth + 1, ids, id =>
    let level := ((sorters depth ids).sort (repliesTo parent replies ids)).take limit
    (level.filter fun reply => parent reply = id).map fun reply =>
      node reply (batched sorters depth (level.map name) (name reply))

/-- One query returns all replies to some rows, or they are all to one row. -/
def FitsQuery (ids : List κ) : Prop :=
  (repliesTo parent replies ids).length ≤ limit ∨
    ∃ id, ∀ reply ∈ repliesTo parent replies ids, parent reply = id

/-- At each level down to some depth, one query suffices. -/
def FitsLevels : Nat → List κ → Prop
  | 0, _ => True
  | depth + 1, ids => FitsQuery parent limit replies ids ∧
      ∀ kept, Newest key limit (repliesTo parent replies ids) kept → FitsLevels depth (kept.map name)

end

section

variable {parent name : α → κ} {key : α → ρ} {limit : Nat} {replies rows kept : List α}
variable {node : α → List τ → τ} {ids : List κ} {id : κ} {depth : Nat} {thread : List τ}

theorem mem_repliesTo {reply : α} :
    reply ∈ repliesTo parent replies ids ↔ reply ∈ replies ∧ parent reply ∈ ids := by
  rw [repliesTo, List.mem_filter, decide_eq_true_eq]

theorem mem_repliesTo_singleton {reply : α} :
    reply ∈ repliesTo parent replies [id] ↔ reply ∈ replies ∧ parent reply = id := by
  rw [mem_repliesTo, List.mem_singleton]

/-- Of the replies to some rows, those to one of them are the replies to this one. -/
theorem filter_repliesTo (h : id ∈ ids) :
    (repliesTo parent replies ids).filter (fun reply => parent reply = id) =
      repliesTo parent replies [id] := by
  rw [repliesTo, repliesTo, List.filter_filter]
  apply List.filter_congr
  intro reply _
  rw [Bool.eq_iff_iff, Bool.and_eq_true, decide_eq_true_eq, decide_eq_true_eq, decide_eq_true_eq,
    List.mem_singleton]
  constructor
  · exact And.left
  · rintro rfl
    exact ⟨rfl, h⟩

theorem Newest.length_eq (h : Newest key limit rows kept) : kept.length = min limit rows.length := by
  obtain ⟨sorted, ⟨hperm, _⟩, rfl⟩ := h
  rw [List.length_take, hperm.length_eq]

theorem Newest.mem {reply : α} (h : Newest key limit rows kept) (hmem : reply ∈ kept) :
    reply ∈ rows := by
  obtain ⟨sorted, ⟨hperm, _⟩, rfl⟩ := h
  exact hperm.mem_iff.mp (List.mem_of_mem_take hmem)

/-- Rows that are no more than the limit are all kept. -/
theorem Newest.perm (h : Newest key limit rows kept) (hle : rows.length ≤ limit) :
    kept.Perm rows := by
  obtain ⟨sorted, ⟨hperm, _⟩, rfl⟩ := h
  rwa [List.take_of_length_le (by rwa [hperm.length_eq])]

/-- Rows that are kept may be sorted out of others of which all are kept. -/
theorem Newest.filter (h : Newest key limit rows kept) (hle : rows.length ≤ limit)
    (keep : α → Bool) : Newest key limit (rows.filter keep) (kept.filter keep) := by
  obtain ⟨sorted, ⟨hperm, hsorted⟩, rfl⟩ := h
  refine ⟨sorted.filter keep, ⟨hperm.filter keep, hsorted.sublist List.filter_sublist⟩, ?_⟩
  rw [List.take_of_length_le (l := sorted) (by rwa [hperm.length_eq]), List.take_of_length_le]
  rw [(hperm.filter keep).length_eq]
  exact (List.length_filter_le keep rows).trans hle

theorem newest_level (sorters : Nat → List κ → Sorter key) (depth : Nat) (ids : List κ) :
    Newest key limit (repliesTo parent replies ids)
      (((sorters depth ids).sort (repliesTo parent replies ids)).take limit) :=
  ⟨_, (sorters depth ids).sorts _, rfl⟩

/-- Where one query suffices, what it returns for a row is what a query for this row may. -/
theorem FitsQuery.newest (h : FitsQuery parent limit replies ids)
    (hkept : Newest key limit (repliesTo parent replies ids) kept) (hid : id ∈ ids) :
    Newest key limit (repliesTo parent replies [id]) (kept.filter fun reply => parent reply = id) := by
  rw [← filter_repliesTo hid]
  rcases h with hle | ⟨only, hall⟩
  · exact hkept.filter hle _
  · by_cases heq : only = id
    · have hrows : (repliesTo parent replies ids).filter (fun reply => parent reply = id) =
          repliesTo parent replies ids :=
        List.filter_eq_self.mpr fun reply hreply => decide_eq_true ((hall reply hreply).trans heq)
      have hself : kept.filter (fun reply => parent reply = id) = kept :=
        List.filter_eq_self.mpr fun reply hreply =>
          decide_eq_true ((hall reply (hkept.mem hreply)).trans heq)
      rwa [hrows, hself]
    · have hnone (part : List α) (hpart : ∀ reply ∈ part, reply ∈ repliesTo parent replies ids) :
          part.filter (fun reply => parent reply = id) = [] := by
        rw [List.filter_eq_nil_iff]
        intro reply hreply hparent
        exact heq ((hall reply (hpart reply hreply)).symm.trans (of_decide_eq_true hparent))
      rw [hnone _ fun _ h => h, hnone _ fun _ h => hkept.mem h]
      exact ⟨[], ⟨List.Perm.refl _, List.Pairwise.nil⟩, List.take_nil⟩

/-- A query suffices where what it returns for each row is as much as a query for this row
returns. -/
theorem fitsQuery_of_newest (hlimit : 0 < limit) (hnodup : replies.Nodup)
    (hkept : Newest key limit (repliesTo parent replies ids) kept)
    (h : ∀ id ∈ ids, Newest key limit (repliesTo parent replies [id])
      (kept.filter fun reply => parent reply = id)) : FitsQuery parent limit replies ids := by
  by_contra hfits
  rw [FitsQuery, not_or, Nat.not_le, not_exists] at hfits
  obtain ⟨hmore, hothers⟩ := hfits
  have hfull : kept.length = limit := by
    rw [hkept.length_eq]
    omega
  -- no row takes all of the query, so that all replies to each are among those it returns
  have hall : ∀ reply ∈ repliesTo parent replies ids, reply ∈ kept := by
    intro reply hreply
    obtain ⟨hmem, hparent⟩ := mem_repliesTo.mp hreply
    have hown := h (parent reply) hparent
    have hlt : (kept.filter fun other => parent other = parent reply).length < limit := by
      by_contra hge
      have hsame := List.length_filter_eq_length_iff.mp
        (Nat.le_antisymm (List.length_filter_le _ kept) (hfull ▸ Nat.not_lt.mp hge))
      obtain ⟨other, hne⟩ := not_forall.mp (hothers (parent reply))
      obtain ⟨hother, hne⟩ := Classical.not_imp.mp hne
      obtain ⟨hotherMem, hotherParent⟩ := mem_repliesTo.mp hother
      have hlength := (h (parent other) hotherParent).length_eq
      have hpos : 0 < (repliesTo parent replies [parent other]).length :=
        List.length_pos_of_mem (mem_repliesTo_singleton.mpr ⟨hotherMem, rfl⟩)
      obtain ⟨shown, hshown⟩ := List.exists_mem_of_length_pos
        (l := kept.filter fun reply => parent reply = parent other) (by omega)
      obtain ⟨hshownMem, hshownParent⟩ := List.mem_filter.mp hshown
      exact hne ((of_decide_eq_true hshownParent).symm.trans (of_decide_eq_true (hsame shown hshownMem)))
    have hperm := hown.perm (by
      have := hown.length_eq
      omega)
    exact (List.mem_filter.mp (hperm.mem_iff.mpr (mem_repliesTo_singleton.mpr ⟨hmem, rfl⟩))).1
  have hle := (List.subperm_of_subset (hnodup.filter _) hall).length_le
  rw [hfull] at hle
  exact absurd hmore (Nat.not_lt.mpr hle)

/-- Nodes with their replies tell what they are and what their replies are. -/
theorem map_node_inj (hnode : Function.Injective2 node) {rows' : List α}
    {answers answers' : α → List τ}
    (h : rows.map (fun reply => node reply (answers reply)) =
      rows'.map fun reply => node reply (answers' reply)) :
    rows = rows' ∧ ∀ reply ∈ rows, answers reply = answers' reply := by
  induction rows generalizing rows' with
  | nil =>
    obtain rfl := List.map_eq_nil_iff.mp h.symm
    exact ⟨rfl, fun _ hnone => absurd hnone List.not_mem_nil⟩
  | cons reply rows ih =>
    obtain ⟨reply', rest, rfl, hfirst, hrest⟩ := List.map_eq_cons_iff.mp h.symm
    obtain ⟨rfl, hanswers⟩ := hnode hfirst
    obtain ⟨rfl, hothers⟩ := ih hrest.symm
    exact ⟨rfl, List.forall_mem_cons.mpr ⟨hanswers.symm, hothers⟩⟩

/-- Threads of one level are those of the next where one query suffices. -/
theorem forall_isThread_succ_iff (hnode : Function.Injective2 node) (hlimit : 0 < limit)
    (hnodup : replies.Nodup) (hkept : Newest key limit (repliesTo parent replies ids) kept)
    (answers : α → List τ) :
    (∀ id ∈ ids, IsThread parent name key limit replies node (depth + 1) id
      ((kept.filter fun reply => parent reply = id).map fun reply => node reply (answers reply))) ↔
    FitsQuery parent limit replies ids ∧
      ∀ reply ∈ kept, IsThread parent name key limit replies node depth (name reply)
        (answers reply) := by
  constructor
  · intro h
    have hthread : ∀ id ∈ ids, Newest key limit (repliesTo parent replies [id])
        (kept.filter fun reply => parent reply = id) ∧
        ∀ reply ∈ kept.filter fun reply => parent reply = id,
          IsThread parent name key limit replies node depth (name reply) (answers reply) := by
      intro id hid
      obtain ⟨kept', answers', hkept', heq, hanswers⟩ := h id hid
      obtain ⟨rfl, hsame⟩ := map_node_inj hnode heq
      refine ⟨hkept', fun reply hreply => ?_⟩
      rw [hsame reply hreply]
      exact hanswers reply hreply
    refine ⟨fitsQuery_of_newest hlimit hnodup hkept fun id hid => (hthread id hid).1, ?_⟩
    intro reply hreply
    exact (hthread (parent reply) (mem_repliesTo.mp (hkept.mem hreply)).2).2 reply
      (List.mem_filter.mpr ⟨hreply, decide_eq_true rfl⟩)
  · rintro ⟨hfits, hanswers⟩ id hid
    exact ⟨_, answers, hfits.newest hkept hid, rfl, fun reply hreply =>
      hanswers reply (List.mem_filter.mp hreply).1⟩

/-- The sorts of the levels below say what is loaded. -/
theorem batched_congr {sorters sorters' : Nat → List κ → Sorter key}
    (h : ∀ below < depth, sorters below = sorters' below) (ids : List κ) (id : κ) :
    batched parent name key limit replies node sorters depth ids id =
      batched parent name key limit replies node sorters' depth ids id := by
  induction depth generalizing ids id with
  | zero => rfl
  | succ depth ih =>
    have hbelow := ih fun below hlt => h below (Nat.lt_succ_of_lt hlt)
    simp only [batched, h depth (Nat.lt_succ_self depth), hbelow]

/-- Rows are loaded level by level as they are row by row, however each level is sorted, exactly if
one query suffices at each level. -/
theorem forall_isThread_iff [DecidableEq α] (hnode : Function.Injective2 node) (hlimit : 0 < limit)
    (hnodup : replies.Nodup) :
    (∀ sorters, ∀ id ∈ ids, IsThread parent name key limit replies node depth id
      (batched parent name key limit replies node sorters depth ids id)) ↔
    FitsLevels parent name key limit replies depth ids := by
  induction depth generalizing ids with
  | zero => exact iff_of_true (fun _ _ _ => rfl) trivial
  | succ depth ih =>
    constructor
    · intro h
      have hstep (sorters : Nat → List κ → Sorter key) :=
        (forall_isThread_succ_iff hnode hlimit hnodup (newest_level sorters depth ids) _).mp
          (h sorters)
      refine ⟨(hstep fun _ _ => Sorter.stable key).1, ?_⟩
      rintro kept ⟨sorted, hsorted, rfl⟩
      rw [← ih]
      intro sorters id hid
      obtain ⟨reply, hreply, rfl⟩ := List.mem_map.mp hid
      -- the level is sorted like this, and what is below it in any way
      let sorters' : Nat → List κ → Sorter key := fun depth' ids' =>
        if depth' = depth then Sorter.making hsorted else sorters depth' ids'
      have hlevel : ((sorters' depth ids).sort (repliesTo parent replies ids)).take limit =
          sorted.take limit := by
        rw [show sorters' depth ids = Sorter.making hsorted from if_pos rfl, Sorter.sort_making]
      have hthread := (hstep sorters').2 reply (by rwa [hlevel])
      rw [hlevel] at hthread
      have hbelow : ∀ below < depth, sorters' below = sorters below :=
        fun below hlt => funext fun _ => if_neg (Nat.ne_of_lt hlt)
      rwa [batched_congr hbelow] at hthread
    · rintro ⟨hfits, hnext⟩ sorters
      refine (forall_isThread_succ_iff hnode hlimit hnodup (newest_level sorters depth ids) _).mpr
        ⟨hfits, fun reply hreply => ?_⟩
      exact ih.mpr (hnext _ (newest_level sorters depth ids)) sorters _
        (List.mem_map_of_mem hreply)

/-- Fewer rows of a level fit where all of them do. -/
theorem FitsQuery.mono {ids' : List κ} (h : FitsQuery parent limit replies ids)
    (hsub : ids' ⊆ ids) : FitsQuery parent limit replies ids' := by
  have hsublist : (repliesTo parent replies ids').Sublist (repliesTo parent replies ids) :=
    List.monotone_filter_right replies fun reply hparent =>
      decide_eq_true (hsub (of_decide_eq_true hparent))
  refine h.imp hsublist.length_le.trans ?_
  rintro ⟨id, hall⟩
  exact ⟨id, fun reply hreply => hall reply (hsublist.subset hreply)⟩

theorem FitsLevels.mono {ids' : List κ}
    (h : FitsLevels parent name key limit replies depth ids) (hsub : ids' ⊆ ids) :
    FitsLevels parent name key limit replies depth ids' := by
  induction depth generalizing ids ids' with
  | zero => trivial
  | succ depth ih =>
    obtain ⟨hfits, hnext⟩ := h
    refine ⟨hfits.mono hsub, fun kept' hkept' => ?_⟩
    have hstable : Newest key limit (repliesTo parent replies ids) _ :=
      newest_level (fun _ _ => Sorter.stable key) depth ids
    rcases hfits with hle | ⟨only, hall⟩
    · refine ih (hnext _ hstable) (List.map_subset name fun reply hreply => ?_)
      obtain ⟨hmem, hparent⟩ := mem_repliesTo.mp (hkept'.mem hreply)
      exact (hstable.perm hle).mem_iff.mpr (mem_repliesTo.mpr ⟨hmem, hsub hparent⟩)
    · by_cases honly : only ∈ ids'
      · have hrows : repliesTo parent replies ids' = repliesTo parent replies ids := by
          apply List.filter_congr
          intro reply hreply
          apply decide_eq_decide.mpr
          refine ⟨fun hparent => hsub hparent, fun hparent => ?_⟩
          rw [hall reply (mem_repliesTo.mpr ⟨hreply, hparent⟩)]
          exact honly
        rw [hrows] at hkept'
        exact hnext _ hkept'
      · have hnone : kept' = [] := by
          apply List.eq_nil_iff_forall_not_mem.mpr
          intro reply hreply
          obtain ⟨hmem, hparent⟩ := mem_repliesTo.mp (hkept'.mem hreply)
          rw [hall reply (mem_repliesTo.mpr ⟨hmem, hsub hparent⟩)] at hparent
          exact honly hparent
        rw [hnone]
        exact ih (hnext _ hstable) (List.nil_subset _)

/-- Rows with different keys are sorted in one way. -/
theorem Newest.unique {kept' : List α} (h : Newest key limit rows kept)
    (h' : Newest key limit rows kept')
    (hdistinct : ∀ a ∈ rows, ∀ b ∈ rows, key a = key b → a = b) : kept = kept' := by
  obtain ⟨sorted, ⟨hperm, hsorted⟩, rfl⟩ := h
  obtain ⟨sorted', ⟨hperm', hsorted'⟩, rfl⟩ := h'
  have hsame : sorted = sorted' := by
    refine List.Perm.eq_of_pairwise ?_ hsorted hsorted' (hperm.trans hperm'.symm)
    intro a b ha hb hle hge
    exact hdistinct a (hperm.mem_iff.mp ha) b (hperm'.mem_iff.mp hb) (le_antisymm hge hle)
  rw [hsame]

/-- Where the replies to each row have different keys, there is one thread of a row. -/
theorem IsThread.unique {thread' : List τ}
    (h : IsThread parent name key limit replies node depth id thread)
    (h' : IsThread parent name key limit replies node depth id thread')
    (hdistinct : ∀ a ∈ replies, ∀ b ∈ replies, parent a = parent b → key a = key b → a = b) :
    thread = thread' := by
  induction depth generalizing id thread thread' with
  | zero => exact h.trans h'.symm
  | succ depth ih =>
    obtain ⟨kept, answers, hkept, rfl, hanswers⟩ := h
    obtain ⟨kept', answers', hkept', rfl, hanswers'⟩ := h'
    obtain rfl := hkept.unique hkept' fun a ha b hb => by
      obtain ⟨ha, hparent⟩ := mem_repliesTo_singleton.mp ha
      obtain ⟨hb, hparent'⟩ := mem_repliesTo_singleton.mp hb
      exact hdistinct a ha b hb (hparent.trans hparent'.symm)
    apply List.map_congr_left
    intro reply hreply
    rw [ih (hanswers reply hreply) (hanswers' reply hreply)]

end

end Rellm.Foundation
