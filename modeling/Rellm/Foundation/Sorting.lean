import Mathlib.Data.List.Sort

/-!
# Sorted lists

A list in a strict order is determined by its elements, and it starts with another exactly if it
has its elements and all others come after them. A stable sort of a list that is in a strict order
is in the lexicographic order of both.
-/

namespace Rellm.Foundation

variable {α : Type*} {R : α → α → Prop} {l l' : List α}

theorem nodup_of_pairwise (hirrefl : ∀ a, ¬ R a a) (h : l.Pairwise R) : l.Nodup :=
  h.imp fun {a b} hab heq => by
    rw [heq] at hab
    exact hirrefl b hab

/-- Lists in a strict order with the same elements are equal. -/
theorem eq_of_pairwise_of_mem_iff (hasymm : ∀ a b, R a b → ¬ R b a) (h : l.Pairwise R)
    (h' : l'.Pairwise R) (hmem : ∀ a, a ∈ l ↔ a ∈ l') : l = l' := by
  have hirrefl (a : α) : ¬ R a a := fun haa => hasymm a a haa haa
  have hperm : l.Perm l' := (List.perm_ext_iff_of_nodup (nodup_of_pairwise hirrefl h)
    (nodup_of_pairwise hirrefl h')).mpr hmem
  exact hperm.eq_of_pairwise (fun a b _ _ hab hba => absurd hba (hasymm a b hab)) h h'

/-- A list in a strict order starts with another exactly if it has its elements and the others come
after them. -/
theorem prefix_iff_of_pairwise (hasymm : ∀ a b, R a b → ¬ R b a) (h : l.Pairwise R)
    (h' : l'.Pairwise R) :
    l <+: l' ↔ (∀ a ∈ l, a ∈ l') ∧ ∀ b ∈ l', b ∉ l → ∀ a ∈ l, R a b := by
  classical
  constructor
  · rintro ⟨rest, rfl⟩
    refine ⟨fun a ha => List.mem_append_left _ ha, fun b hb hnot a ha => ?_⟩
    exact (List.pairwise_append.mp h').2.2 a ha b ((List.mem_append.mp hb).resolve_left hnot)
  · rintro ⟨hsubset, hafter⟩
    have hsplit : l'.filter (fun a => decide (a ∈ l)) = l := by
      refine eq_of_pairwise_of_mem_iff hasymm (h'.filter _) h fun a => ?_
      rw [List.mem_filter, decide_eq_true_eq]
      exact ⟨fun ha => ha.2, fun ha => ⟨hsubset a ha, ha⟩⟩
    have hrest : l ++ l'.filter (fun a => decide (a ∉ l)) = l' := by
      refine eq_of_pairwise_of_mem_iff hasymm ?_ h' fun a => ?_
      · refine List.pairwise_append.mpr ⟨h, h'.filter _, fun a ha b hb => ?_⟩
        obtain ⟨hb, hnot⟩ := List.mem_filter.mp hb
        exact hafter b hb (of_decide_eq_true hnot) a ha
      · rw [List.mem_append, List.mem_filter, decide_eq_true_eq]
        constructor
        · rintro (ha | ⟨ha, _⟩)
          · exact hsubset a ha
          · exact ha
        · intro ha
          by_cases hl : a ∈ l
          · exact Or.inl hl
          · exact Or.inr ⟨ha, hl⟩
    exact ⟨_, hrest⟩

/-- Of two elements of a list one comes before the other. -/
theorem pair_sublist_or {a b : α} (ha : a ∈ l) (hb : b ∈ l) (hne : a ≠ b) :
    [a, b].Sublist l ∨ [b, a].Sublist l := by
  obtain ⟨before, after, rfl⟩ := List.append_of_mem ha
  have hrest {x : α} (hx : x ∈ after) : [a, x].Sublist (before ++ a :: after) :=
    ((List.singleton_sublist.mpr hx).cons_cons a).trans (List.sublist_append_right _ _)
  obtain hb | hb := List.mem_append.mp hb
  · refine Or.inr ?_
    exact (List.singleton_sublist.mpr hb).append ((List.nil_sublist after).cons_cons a)
  · obtain hb | hb := List.mem_cons.mp hb
    · exact absurd hb.symm hne
    · exact Or.inl (hrest hb)

/-- No two elements come before each other in a list without duplicates. -/
theorem not_pair_sublist_swap {a b : α} (hnodup : l.Nodup) (h : [a, b].Sublist l) :
    ¬ [b, a].Sublist l := by
  induction l with
  | nil => exact absurd (List.sublist_nil.mp h) (List.cons_ne_nil _ _)
  | cons c l ih =>
    obtain ⟨hc, hnodup⟩ := List.nodup_cons.mp hnodup
    intro h'
    cases h with
    | cons _ h =>
      cases h' with
      | cons _ h' => exact ih hnodup h h'
      | cons_cons _ h' => exact hc (h.subset (List.mem_cons_of_mem _ (List.mem_singleton_self b)))
    | cons_cons _ h =>
      cases h' with
      | cons _ h' => exact hc (h'.subset (List.mem_cons_of_mem _ (List.mem_singleton_self a)))
      | cons_cons _ h' => exact hc (List.singleton_sublist.mp h)

/-- A stable sort keeps the order of what it does not tell apart. -/
theorem pairwise_mergeSort_of_pairwise {le : α → α → Bool} (htrans : ∀ a b c, le a b → le b c → le a c)
    (htotal : ∀ a b, le a b || le b a) (hasymm : ∀ a b, R a b → ¬ R b a) (h : l.Pairwise R) :
    (l.mergeSort le).Pairwise fun a b => le a b = true ∧ (le b a = true → R a b) := by
  have hirrefl (a : α) : ¬ R a a := fun haa => hasymm a a haa haa
  have hnodup : (l.mergeSort le).Nodup :=
    (List.mergeSort_perm l le).nodup_iff.mpr (nodup_of_pairwise hirrefl h)
  have hsorted := List.pairwise_mergeSort htrans htotal l
  refine List.pairwise_iff_forall_sublist.mpr fun {a b} hab => ?_
  have hle := List.pairwise_iff_forall_sublist.mp hsorted hab
  refine ⟨hle, fun hba => ?_⟩
  have ha : a ∈ l := List.mem_mergeSort.mp (hab.subset List.mem_cons_self)
  have hb : b ∈ l :=
    List.mem_mergeSort.mp (hab.subset (List.mem_cons_of_mem _ (List.mem_singleton_self b)))
  have hne : a ≠ b := by
    rintro rfl
    exact absurd (hab.nodup hnodup) (by simp)
  obtain hord | hord := pair_sublist_or ha hb hne
  · exact List.pairwise_iff_forall_sublist.mp h hord
  · -- the other way round, the sort would have kept it
    exact absurd (List.pair_sublist_mergeSort htrans htotal hba hord)
      (not_pair_sublist_swap hnodup hab)

end Rellm.Foundation
