import Mathlib.Algebra.BigOperators.Group.Finset.Piecewise
import Mathlib.Algebra.Order.BigOperators.Group.Finset
import Mathlib.Data.Finset.Card

/-!
# Working off a backlog

Every item still needs a number of rounds. A round works on as many items that need one as there are, up
to a limit, and each of them needs fewer rounds afterwards. Then after some rounds, whose number is told
by what is needed in all, no item needs any.
-/

namespace Rellm.Foundation

variable {ι : Type*} {items : Finset ι} {limit cap : Nat}

/-- The items that still need a round. -/
def unsettled (items : Finset ι) (need : ι → Nat) : Finset ι := items.filter fun i => 0 < need i

/-- A round brings some items forward, as many as it may, and sets none back. -/
structure Round (limit : Nat) (items : Finset ι) (need need' : ι → Nat) : Prop where
  le : ∀ i ∈ items, need' i ≤ need i
  batch : ∃ batch ⊆ items, min limit (unsettled items need).card ≤ batch.card ∧
    ∀ i ∈ batch, need' i < need i

namespace Round

variable {need need' : ι → Nat}

theorem unsettled_subset (h : Round limit items need need') :
    unsettled items need' ⊆ unsettled items need := by
  intro i hi
  obtain ⟨hmem, hpos⟩ := Finset.mem_filter.mp hi
  exact Finset.mem_filter.mpr ⟨hmem, hpos.trans_le (h.le i hmem)⟩

/-- A round of a large backlog takes as much as it may. -/
theorem sum_add_le (h : Round limit items need need') (hlarge : limit ≤ (unsettled items need).card) :
    ∑ i ∈ items, need' i + limit ≤ ∑ i ∈ items, need i := by
  classical
  obtain ⟨batch, hsubset, hcard, hless⟩ := h.batch
  rw [min_eq_left hlarge] at hcard
  calc ∑ i ∈ items, need' i + limit
      ≤ ∑ i ∈ items, need' i + ∑ i ∈ items, (if i ∈ batch then 1 else 0) := by
        rw [Finset.sum_ite_mem, Finset.inter_eq_right.mpr hsubset, ← Finset.card_eq_sum_ones]
        exact Nat.add_le_add_left hcard _
    _ = ∑ i ∈ items, (need' i + if i ∈ batch then 1 else 0) := Finset.sum_add_distrib.symm
    _ ≤ ∑ i ∈ items, need i := by
        refine Finset.sum_le_sum fun i hi => ?_
        split
        · rename_i hbatch
          exact hless i hbatch
        · exact h.le i hi

/-- A round of a small backlog brings every item forward. -/
theorem lt_of_small (h : Round limit items need need') (hsmall : (unsettled items need).card ≤ limit)
    {i : ι} (hi : i ∈ items) (hpos : 0 < need i) : need' i < need i := by
  obtain ⟨batch, hsubset, hcard, hless⟩ := h.batch
  rw [min_eq_right hsmall] at hcard
  have hbatch : batch ⊆ unsettled items need := fun j hj =>
    Finset.mem_filter.mpr ⟨hsubset hj, Nat.zero_lt_of_lt (hless j hj)⟩
  have hmem : i ∈ unsettled items need := Finset.mem_filter.mpr ⟨hi, hpos⟩
  rw [← Finset.eq_of_subset_of_card_le hbatch hcard] at hmem
  exact hless i hmem

end Round

section

variable {need : Nat → ι → Nat}

theorem le_of_rounds (h : ∀ k, Round limit items (need k) (need (k + 1))) {i : ι} (hi : i ∈ items)
    (k j : Nat) : need (k + j) i ≤ need k i := by
  induction j with
  | zero => exact Nat.le_refl _
  | succ j ih => exact ((h (k + j)).le i hi).trans ih

/-- Once the backlog is small, every round brings every item forward. -/
theorem le_sub_of_small (h : ∀ k, Round limit items (need k) (need (k + 1))) {k : Nat}
    (hsmall : (unsettled items (need k)).card ≤ limit) {i : ι} (hi : i ∈ items) (j : Nat) :
    need (k + j) i ≤ need k i - j := by
  have hstays (j : Nat) : (unsettled items (need (k + j))).card ≤ limit := by
    induction j with
    | zero => exact hsmall
    | succ j ih => exact (Finset.card_le_card (h (k + j)).unsettled_subset).trans ih
  induction j with
  | zero => exact Nat.le_refl _
  | succ j ih =>
    rcases Nat.eq_zero_or_pos (need (k + j) i) with hzero | hpos
    · have hle := (h (k + j)).le i hi
      rw [hzero, Nat.le_zero] at hle
      rw [← Nat.add_assoc, hle]
      exact Nat.zero_le _
    · have hless := (h (k + j)).lt_of_small (hstays j) hi hpos
      rw [← Nat.add_assoc]
      omega

/-- The backlog becomes small. -/
theorem exists_small (h : ∀ k, Round limit items (need k) (need (k + 1))) {n : Nat}
    (hsum : ∑ i ∈ items, need 0 i ≤ limit * n) :
    ∃ k ≤ n, (unsettled items (need k)).card ≤ limit := by
  by_contra hnone
  push Not at hnone
  have hsums (k : Nat) (hk : k ≤ n) : ∑ i ∈ items, need k i + limit * k ≤ ∑ i ∈ items, need 0 i := by
    induction k with
    | zero => exact Nat.le_refl _
    | succ k ih =>
      have hround := (h k).sum_add_le (hnone k (by omega)).le
      have hbefore := ih (by omega)
      rw [Nat.mul_succ]
      omega
  have hlast := hsums n (Nat.le_refl n)
  have hzero : ∑ i ∈ items, need n i = 0 := by omega
  have hempty : unsettled items (need n) = ∅ := by
    rw [unsettled, Finset.filter_eq_empty_iff]
    intro i hi hpos
    rw [(Finset.sum_eq_zero_iff.mp hzero) i hi] at hpos
    exact Nat.lt_irrefl 0 hpos
  have hlarge := hnone n (Nat.le_refl n)
  rw [hempty, Finset.card_empty] at hlarge
  exact Nat.not_lt_zero _ hlarge

/-- After the rounds that are needed in all, by the limit, and as many more as one item may need, no
item needs any. -/
theorem settled_of_rounds (need : Nat → ι → Nat) (h : ∀ k, Round limit items (need k) (need (k + 1))) {n : Nat}
    (hsum : ∑ i ∈ items, need 0 i ≤ limit * n) (hcap : ∀ i ∈ items, need 0 i ≤ cap) {i : ι}
    (hi : i ∈ items) : need (n + cap) i = 0 := by
  obtain ⟨k, hk, hsmall⟩ := exists_small h hsum
  have hle := le_sub_of_small h hsmall hi (n - k + cap)
  have hbefore := le_of_rounds h hi 0 k
  rw [Nat.zero_add] at hbefore
  have hstart := hcap i hi
  rw [show k + (n - k + cap) = n + cap by omega] at hle
  omega

end

end Rellm.Foundation
