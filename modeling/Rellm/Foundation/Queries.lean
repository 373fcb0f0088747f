import Mathlib.Algebra.BigOperators.Group.List.Basic
import Mathlib.Data.List.Dedup
import Mathlib.Data.List.Nodup

/-!
# Ranking and grouping

A query numbers its rows in an order and keeps those up to a limit. A row is kept exactly
if fewer rows than the limit rank before it; of rows that rank before all others, as many
are kept as the limit allows. A query that groups its rows adds up each group, which for
an accumulation that adds up itself comes to the same as going through the rows. A left
join keeps a row that matches no other; a page of a listing skips as many rows as its
offset says.
-/

namespace Rellm.Foundation

universe u

variable {α : Type u}

/-- The rows whose number in the order does not exceed the limit. -/
def capped (le : α → α → Bool) (limit : Nat) (rows : List α) : List α :=
  (rows.mergeSort le).take limit

variable {le : α → α → Bool} {limit : Nat} {rows : List α}

theorem mem_of_mem_capped {a : α} (h : a ∈ capped le limit rows) : a ∈ rows :=
  List.mem_mergeSort.mp (List.mem_of_mem_take h)

theorem length_capped : (capped le limit rows).length = min limit rows.length := by
  rw [capped, List.length_take, List.length_mergeSort]

/-- All rows are kept where the limit is not exceeded. -/
theorem capped_perm (h : rows.length ≤ limit) : (capped le limit rows).Perm rows := by
  rw [capped, List.take_of_length_le (by rwa [List.length_mergeSort])]
  exact List.mergeSort_perm rows le

/-- Of rows that come before all others, as many are taken as the limit allows. -/
theorem countP_take {p : α → Bool} (h : rows.Pairwise fun a b => p b = true → p a = true) :
    (rows.take limit).countP p = min limit (rows.countP p) := by
  induction rows generalizing limit with
  | nil => simp
  | cons a rows ih =>
    obtain ⟨hfirst, hrest⟩ := List.pairwise_cons.mp h
    cases limit with
    | zero => simp
    | succ limit =>
      rw [List.take_succ_cons, List.countP_cons, List.countP_cons, ih hrest]
      by_cases ha : p a = true
      · rw [if_pos ha]
        omega
      · have hnone : rows.countP p = 0 := by
          rw [List.countP_eq_zero]
          intro b hb hp
          exact ha (hfirst b hb hp)
        rw [if_neg ha, hnone]
        omega

/-- A row of a list without repetitions is taken exactly if fewer rows come before it. -/
theorem mem_take_iff {before after : List α} {a : α} (h : a ∉ before) :
    a ∈ (before ++ a :: after).take limit ↔ before.length < limit := by
  constructor
  · intro hmem
    by_contra hle
    rw [List.take_append_of_le_length (Nat.not_lt.mp hle)] at hmem
    exact h (List.mem_of_mem_take hmem)
  · intro hlt
    rw [List.take_append, List.mem_append]
    right
    obtain ⟨n, hn⟩ := Nat.exists_eq_succ_of_ne_zero (Nat.sub_ne_zero_of_lt hlt)
    rw [hn, List.take_succ_cons]
    exact List.mem_cons_self

section

variable (htrans : ∀ a b c, le a b = true → le b c = true → le a c = true)
variable (htotal : ∀ a b, (le a b || le b a) = true)

include htrans htotal

/-- Of rows that rank before all others, as many are kept as the limit allows. -/
theorem countP_capped {p : α → Bool} (h : ∀ a b, le a b = true → p b = true → p a = true) :
    (capped le limit rows).countP p = min limit (rows.countP p) := by
  have hsorted := List.pairwise_mergeSort htrans htotal rows
  rw [capped, countP_take (hsorted.imp fun {a b} => h a b),
    (List.mergeSort_perm rows le).countP_eq]

/-- A row is kept exactly if fewer rows than the limit rank before it. -/
theorem mem_capped_iff [DecidableEq α] (hanti : ∀ a ∈ rows, ∀ b ∈ rows, le a b = true →
    le b a = true → a = b) (hnodup : rows.Nodup) {a : α} (ha : a ∈ rows) :
    a ∈ capped le limit rows ↔ rows.countP (fun b => le b a && decide (b ≠ a)) < limit := by
  have hperm := List.mergeSort_perm rows le
  have hsorted := List.pairwise_mergeSort htrans htotal rows
  obtain ⟨before, after, hsplit⟩ := List.append_of_mem (List.mem_mergeSort.mpr ha)
  rw [hsplit] at hperm hsorted
  have hdistinct := hperm.nodup_iff.mpr hnodup
  rw [List.nodup_append, List.nodup_cons] at hdistinct
  obtain ⟨_, ⟨hafter, _⟩, hdisjoint⟩ := hdistinct
  have hbefore : a ∉ before := fun hmem => hdisjoint a hmem a List.mem_cons_self rfl
  rw [List.pairwise_append, List.pairwise_cons] at hsorted
  obtain ⟨_, ⟨hlater, _⟩, hearlier⟩ := hsorted
  have hcount : rows.countP (fun b => le b a && decide (b ≠ a)) = before.length := by
    rw [← hperm.countP_eq, List.countP_append, List.countP_cons]
    have hall : before.countP (fun b => le b a && decide (b ≠ a)) = before.length := by
      rw [List.countP_eq_length]
      intro b hb
      have hne : b ≠ a := fun heq => hbefore (heq ▸ hb)
      simp [hearlier b hb a List.mem_cons_self, hne]
    have hnone : after.countP (fun b => le b a && decide (b ≠ a)) = 0 := by
      rw [List.countP_eq_zero]
      intro b hb hcounted
      rw [Bool.and_eq_true, decide_eq_true_eq] at hcounted
      have hmem : b ∈ rows :=
        hperm.subset (List.mem_append_right _ (List.mem_cons_of_mem _ hb))
      exact hcounted.2 (hanti b hmem a ha hcounted.1 (hlater b hb))
    rw [hall, hnone]
    simp
  rw [capped, hsplit, mem_take_iff hbefore, hcount]

end

/-- The rows that match, or no row if none does. -/
def leftJoin (p : α → Bool) (rows : List α) : List (Option α) :=
  match rows.filter p with
  | [] => [none]
  | a :: others => (a :: others).map some

theorem some_mem_leftJoin {p : α → Bool} {a : α} :
    some a ∈ leftJoin p rows ↔ a ∈ rows ∧ p a = true := by
  unfold leftJoin
  rw [← List.mem_filter]
  cases rows.filter p with
  | nil => simp
  | cons b others => simp

/-- A left join keeps the row it joins to. -/
theorem exists_mem_leftJoin (p : α → Bool) (rows : List α) : ∃ a, a ∈ leftJoin p rows := by
  unfold leftJoin
  cases rows.filter p with
  | nil => exact ⟨none, List.mem_singleton_self none⟩
  | cons b others => exact ⟨some b, by simp⟩

/-- The rows of a page of a listing. -/
def paged (le : α → α → Bool) (offset limit : Nat) (rows : List α) : List α :=
  ((rows.mergeSort le).drop offset).take limit

theorem mem_of_mem_paged {offset : Nat} {a : α} (h : a ∈ paged le offset limit rows) : a ∈ rows :=
  List.mem_mergeSort.mp (List.mem_of_mem_drop (List.mem_of_mem_take h))

@[simp] theorem paged_nil {offset : Nat} : paged le offset limit [] = [] := by
  rw [paged, List.mergeSort_nil, List.drop_nil, List.take_nil]

/-- The first page of a listing is empty only where the listing is. -/
theorem paged_zero_eq_nil_iff (hlimit : 0 < limit) : paged le 0 limit rows = [] ↔ rows = [] := by
  rw [paged, List.drop_zero, List.take_eq_nil_iff, ← List.length_eq_zero_iff,
    List.length_mergeSort, List.length_eq_zero_iff, or_iff_right (Nat.ne_of_gt hlimit)]

section

variable {σ κ ω : Type*} [DecidableEq κ] [AddCommMonoid ω]

/-- The sum of the weights of the rows with a key. -/
def groupSum (key : α → κ) (weight : α → ω) (rows : List α) (k : κ) : ω :=
  ((rows.filter fun row => key row = k).map weight).sum

/-- The groups of the rows under a key, with the sum of the weights of each. -/
def grouped (key : α → κ) (weight : α → ω) (rows : List α) : List (κ × ω) :=
  (rows.map key).dedup.map fun k => (k, groupSum key weight rows k)

theorem groupSum_cons_self (key : α → κ) (weight : α → ω) (row : α) (rows : List α) :
    groupSum key weight (row :: rows) (key row) =
      weight row + groupSum key weight rows (key row) := by
  rw [groupSum, List.filter_cons_of_pos (by simp), List.map_cons, List.sum_cons, groupSum]

theorem groupSum_cons_of_ne {key : α → κ} (weight : α → ω) {row : α} (rows : List α) {k : κ}
    (h : key row ≠ k) : groupSum key weight (row :: rows) k = groupSum key weight rows k := by
  rw [groupSum, List.filter_cons_of_neg (by simpa using h), groupSum]

/-- No weights are summed under a key that no row has. -/
theorem groupSum_of_notMem {key : α → κ} (weight : α → ω) {rows : List α} {k : κ}
    (h : k ∉ rows.map key) : groupSum key weight rows k = 0 := by
  have hnone : rows.filter (fun other => key other = k) = [] := by
    rw [List.filter_eq_nil_iff]
    intro other hother heq
    exact h (List.mem_map.mpr ⟨other, hother, of_decide_eq_true heq⟩)
  rw [groupSum, hnone, List.map_nil, List.sum_nil]

/-- An accumulation over the groups is one over the rows. -/
theorem foldl_grouped {f : σ → κ → ω → σ}
    (hcomm : ∀ s k w k' w', f (f s k w) k' w' = f (f s k' w') k w)
    (hadd : ∀ s k w w', f (f s k w) k w' = f s k (w + w')) (key : α → κ) (weight : α → ω)
    (rows : List α) (s : σ) :
    (grouped key weight rows).foldl (fun s group => f s group.1 group.2) s =
      rows.foldl (fun s row => f s (key row) (weight row)) s := by
  have hpast (keys : List κ) (sum : κ → ω) (k : κ) (w : ω) (s : σ) :
      keys.foldl (fun s k' => f s k' (sum k')) (f s k w) =
        f (keys.foldl (fun s k' => f s k' (sum k')) s) k w := by
    induction keys generalizing s with
    | nil => rfl
    | cons k' keys ih => rw [List.foldl_cons, List.foldl_cons, hcomm, ih]
  induction rows generalizing s with
  | nil => rfl
  | cons row rows ih =>
    rw [List.foldl_cons, ← ih]
    unfold grouped
    rw [List.foldl_map, List.foldl_map, List.map_cons]
    dsimp only
    have hsame (keys : List κ) (hkeys : key row ∉ keys) (s : σ) :
        keys.foldl (fun s k => f s k (groupSum key weight (row :: rows) k)) s =
          keys.foldl (fun s k => f s k (groupSum key weight rows k)) s := by
      apply List.foldl_ext
      intro s k hk
      have hne : key row ≠ k := by
        rintro rfl
        exact hkeys hk
      rw [groupSum_cons_of_ne weight rows hne]
    by_cases hmem : key row ∈ rows.map key
    · rw [List.dedup_cons_of_mem hmem]
      obtain ⟨before, after, hsplit⟩ := List.append_of_mem (List.mem_dedup.mpr hmem)
      have hnodup := List.nodup_dedup (rows.map key)
      rw [hsplit, List.nodup_append, List.nodup_cons] at hnodup
      obtain ⟨_, ⟨hafter, _⟩, hdisjoint⟩ := hnodup
      have hbefore : key row ∉ before := fun h => hdisjoint _ h _ List.mem_cons_self rfl
      rw [hsplit, List.foldl_append, List.foldl_append, List.foldl_cons, List.foldl_cons,
        hsame before hbefore, hsame after hafter, hpast before, hadd, groupSum_cons_self]
    · rw [List.dedup_cons_of_notMem hmem, List.foldl_cons, groupSum_cons_self,
        groupSum_of_notMem weight hmem, add_zero]
      exact hsame _ (fun h => hmem (List.mem_dedup.mp h)) _

end

end Rellm.Foundation
