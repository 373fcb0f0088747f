import Rellm.Foundation.Pages

/-!
# Cursors

A listing is asked for page after page, each time for what comes after the last key of the page
before, until a page is empty. Rows that have the last key of a page and are not on it are lost, so
each row is returned once exactly where every page breaks off between rows with different keys.
-/

namespace Rellm.Foundation

universe u v

variable {α : Type u} {κ : Type v} [LinearOrder κ] {key : α → κ}

/-- The rows with keys less than a cutoff, if there is one. -/
def belowCutoff (key : α → κ) (cutoff : Option κ) (rows : List α) : List α :=
  rows.filter fun row => cutoff.all fun cutoff => decide (key row < cutoff)

/-- A way to sort rows by a key sorts them by a coarser one. -/
def Sorter.coarsen {ν : Type v} [LinearOrder ν] (sorter : Sorter key) {f : κ → ν} (hf : Monotone f) :
    Sorter fun row => f (key row) where
  sort := sorter.sort
  sorts rows := ⟨(sorter.sorts rows).1, (sorter.sorts rows).2.imp fun hle => hf hle⟩

/-- What is collected from a request on: the next one is for what comes after the last row. -/
inductive Followed (key : α → κ) (request : Nat → Option κ → Option (List α)) :
    Nat → Option κ → List α → Prop
  | last {page : Nat} {cutoff : Option κ} :
      request page cutoff = some [] → Followed key request page cutoff []
  | more {page : Nat} {cutoff : Option κ} {rows rest : List α} {row : α} :
      request page cutoff = some (rows ++ [row]) →
      Followed key request (page + 1) (some (key row)) rest →
      Followed key request page cutoff (rows ++ [row] ++ rest)

section

variable {l rows first : List α} {row : α} {size : Nat}

theorem SplitsAt.perm {count : Nat} (h : SplitsAt key rows count) (hperm : l.Perm rows) :
    SplitsAt key l count := by
  obtain ⟨bound, hcount⟩ := h
  exact ⟨bound, (hperm.countP_eq _).trans hcount⟩

theorem PageBreaks.perm (h : PageBreaks key size rows) (hperm : l.Perm rows) :
    PageBreaks key size l := by
  intro page hpos hwithin
  rw [hperm.length_eq] at hwithin
  exact (h page hpos hwithin).perm hperm

/-- The rows with the greatest keys are the first of a sort. -/
theorem bound_iff_of_count (hsorted : l.Pairwise fun a b => key b ≤ key a) {bound : κ} {count : Nat}
    (hcount : l.countP (fun row => decide (bound ≤ key row)) = count) :
    (∀ a ∈ l.take count, bound ≤ key a) ∧ ∀ a ∈ l.drop count, key a < bound := by
  have hfilter : l.filter (fun row => decide (bound ≤ key row)) = l.take count := by
    rw [← hcount]
    refine filter_eq_take_countP (hsorted.imp fun {a b} hle hb => ?_)
    exact decide_eq_true ((of_decide_eq_true hb).trans hle)
  have htake : ∀ a ∈ l.take count, bound ≤ key a := by
    intro a ha
    rw [← hfilter] at ha
    exact of_decide_eq_true (List.mem_filter.mp ha).2
  refine ⟨htake, fun a ha => lt_of_not_ge fun hle => ?_⟩
  have hall : (l.take count).filter (fun row => decide (bound ≤ key row)) = l.take count :=
    List.filter_eq_self.mpr fun b hb => decide_eq_true (htake b hb)
  rw [← List.take_append_drop count l, List.filter_append, List.take_append_drop, hall,
    List.append_right_eq_self, List.filter_eq_nil_iff] at hfilter
  exact hfilter a ha (decide_eq_true hle)

/-- First rows with keys as great as a bound count for it. -/
theorem countP_of_take (hlength : (l.take size).length = size) {bound : κ}
    (hbound : ∀ a ∈ l.take size, bound ≤ key a) :
    l.countP (fun row => decide (bound ≤ key row)) =
      size + (l.drop size).countP fun row => decide (bound ≤ key row) := by
  have hall : (l.take size).countP (fun row => decide (bound ≤ key row)) = size := by
    rw [List.countP_eq_length.mpr fun a ha => decide_eq_true (hbound a ha), hlength]
  calc l.countP (fun row => decide (bound ≤ key row))
    _ = (l.take size ++ l.drop size).countP fun row => decide (bound ≤ key row) := by
        rw [List.take_append_drop]
    _ = size + (l.drop size).countP fun row => decide (bound ≤ key row) := by
        rw [List.countP_append, hall]

/-- The last row of the first ones of a sort has the least key of them. -/
theorem key_le_of_take (hsorted : l.Pairwise fun a b => key b ≤ key a)
    (hpage : l.take size = first ++ [row]) : ∀ a ∈ l.take size, key row ≤ key a := by
  have htake := hsorted.sublist (List.take_sublist size l)
  rw [hpage, List.pairwise_append] at htake
  intro a ha
  rw [hpage] at ha
  rcases List.mem_append.mp ha with ha | ha
  · exact htake.2.2 a ha row List.mem_cons_self
  · rw [List.mem_singleton.mp ha]

/-- What has lesser keys than the last of the first rows comes after them. -/
theorem filter_lt_perm (hsorts : Sorts key rows l) (hpage : l.take size = first ++ [row]) :
    (rows.filter fun a => decide (key a < key row)).Perm
      ((l.drop size).filter fun a => decide (key a < key row)) := by
  have hnone : (l.take size).filter (fun a => decide (key a < key row)) = [] :=
    List.filter_eq_nil_iff.mpr fun a ha hlt =>
      absurd (of_decide_eq_true hlt) (not_lt_of_ge (key_le_of_take hsorts.2 hpage a ha))
  have hsplit : l.filter (fun a => decide (key a < key row)) =
      (l.drop size).filter fun a => decide (key a < key row) := by
    calc l.filter (fun a => decide (key a < key row))
      _ = (l.take size ++ l.drop size).filter fun a => decide (key a < key row) := by
          rw [List.take_append_drop]
      _ = (l.drop size).filter fun a => decide (key a < key row) := by
          rw [List.filter_append, hnone, List.nil_append]
  rw [← hsplit]
  exact hsorts.1.symm.filter _

/-- The first page breaks off between rows with different keys, and the others do in what comes after
it. -/
theorem pageBreaks_iff (hsorted : l.Pairwise fun a b => key b ≤ key a)
    (hpage : l.take size = first ++ [row]) :
    PageBreaks key size l ↔
      (∀ a ∈ l.drop size, key a < key row) ∧ PageBreaks key size (l.drop size) := by
  have hrow : row ∈ l.take size := hpage ▸ List.mem_append_right _ List.mem_cons_self
  have hleast := key_le_of_take hsorted hpage
  -- A page that something comes after is full.
  have hfull (hsize : size < l.length) : (l.take size).length = size :=
    List.length_take_of_le hsize.le
  have hsucc (page : Nat) : (page + 1) * size = page * size + size := Nat.succ_mul page size
  constructor
  · intro hbreaks
    have hfirst : ∀ a ∈ l.drop size, key a < key row := by
      intro a ha
      have hlength := List.length_pos_of_mem ha
      have hpos := List.length_pos_of_mem hrow
      rw [List.length_drop] at hlength
      rw [List.length_take] at hpos
      obtain ⟨bound, hcount⟩ := hbreaks 1 (by omega) (by omega)
      rw [Nat.one_mul] at hcount
      obtain ⟨htake, hdrop⟩ := bound_iff_of_count hsorted hcount
      exact (hdrop a ha).trans_le (htake row hrow)
    refine ⟨hfirst, fun page hpos hwithin => ?_⟩
    rw [List.length_drop] at hwithin
    have hnext := hsucc page
    obtain ⟨bound, hcount⟩ := hbreaks (page + 1) (by omega) (by omega)
    have htake := (bound_iff_of_count hsorted hcount).1
    rw [countP_of_take (hfull (by omega)) fun a ha => htake a
      ((List.take_prefix_take_left (by omega)).subset ha)] at hcount
    exact ⟨bound, by omega⟩
  · rintro ⟨hfirst, hbreaks⟩ page hpos hwithin
    cases page with
    | zero => omega
    | succ page =>
      have hnext := hsucc page
      have hsize : (l.take size).length = size := hfull (by omega)
      rcases Nat.eq_zero_or_pos (page * size) with hzero | hmore
      · refine ⟨key row, ?_⟩
        have hnone : (l.drop size).countP (fun a => decide (key row ≤ key a)) = 0 :=
          List.countP_eq_zero.mpr fun a ha hle =>
            absurd (of_decide_eq_true hle) (not_le_of_gt (hfirst a ha))
        rw [countP_of_take hsize hleast, hnone]
        omega
      · obtain ⟨bound, hcount⟩ := hbreaks page hmore (by rw [List.length_drop]; omega)
        obtain ⟨a, ha, hbound⟩ := List.countP_pos_iff.mp (hcount ▸ hmore)
        have hrowBound : bound ≤ key row := (of_decide_eq_true hbound).trans (hfirst a ha).le
        refine ⟨bound, ?_⟩
        rw [countP_of_take hsize fun b hb => hrowBound.trans (hleast b hb), hcount]
        omega

end

section

variable {rows : List α} {size : Nat} {sorters : Nat → Sorter key}
variable {request : Nat → Option κ → Option (List α)} {cutoff : Option κ} {row : α}

/-- What is below the key of a row that is below a cutoff. -/
theorem belowCutoff_of_mem (hrow : row ∈ belowCutoff key cutoff rows) :
    belowCutoff key (some (key row)) rows =
      (belowCutoff key cutoff rows).filter fun other => decide (key other < key row) := by
  rw [belowCutoff, belowCutoff, List.filter_filter]
  refine List.filter_congr fun other _ => ?_
  have hcutoff := (List.mem_filter.mp hrow).2
  cases cutoff with
  | none => simp
  | some cutoff =>
    have hlt : key row < cutoff := by simpa using hcutoff
    rw [Option.all_some, Option.all_some, Bool.eq_iff_iff, Bool.and_eq_true, decide_eq_true_iff,
      decide_eq_true_iff]
    exact ⟨fun hother => ⟨hother, hother.trans hlt⟩, And.left⟩

/-- No more is collected than is below the cutoff. -/
theorem Followed.length_le
    (hrequest : ∀ page cutoff, request page cutoff =
      some (((sorters page).sort (belowCutoff key cutoff rows)).take size))
    {page : Nat} {collected : List α} (h : Followed key request page cutoff collected) :
    collected.length ≤ (belowCutoff key cutoff rows).length := by
  induction h with
  | last _ => exact Nat.zero_le _
  | @more page cutoff first rest row hanswer _ ih =>
    rw [hrequest, Option.some.injEq] at hanswer
    have hsorts := (sorters page).sorts (belowCutoff key cutoff rows)
    have hrow : row ∈ belowCutoff key cutoff rows :=
      hsorts.1.mem_iff.mp (List.mem_of_mem_take (hanswer ▸ List.mem_append_right _ List.mem_cons_self))
    rw [belowCutoff_of_mem hrow, (filter_lt_perm hsorts hanswer).length_eq] at ih
    rw [← hsorts.1.length_eq, List.length_append, ← hanswer,
      ← List.take_append_drop size ((sorters page).sort (belowCutoff key cutoff rows)),
      List.length_append, List.take_append_drop]
    exact Nat.add_le_add_left (ih.trans (List.length_filter_le _ _)) _

/-- Where each page is cut out of a sort of its own, each row is returned once exactly if every page
breaks off between rows with different keys. -/
theorem exists_followed_perm_iff (hsize : 0 < size)
    (hrequest : ∀ page cutoff, request page cutoff =
      some (((sorters page).sort (belowCutoff key cutoff rows)).take size))
    (page : Nat) (cutoff : Option κ) :
    (∃ collected, Followed key request page cutoff collected ∧
        collected.Perm (belowCutoff key cutoff rows)) ↔
      PageBreaks key size (belowCutoff key cutoff rows) := by
  induction hlength : (belowCutoff key cutoff rows).length using Nat.strong_induction_on
    generalizing page cutoff with
  | h length ih =>
    obtain ⟨hperm, hsorted⟩ := (sorters page).sorts (belowCutoff key cutoff rows)
    rcases List.eq_nil_or_concat (((sorters page).sort (belowCutoff key cutoff rows)).take size) with
      hnone | ⟨first, row, hpage⟩
    · -- There is nothing left.
      have hempty : belowCutoff key cutoff rows = [] := by
        rcases List.take_eq_nil_iff.mp hnone with hzero | hnil
        · omega
        · exact List.Perm.eq_nil (hnil ▸ hperm).symm
      refine iff_of_true ⟨[], .last (by rw [hrequest, hnone]), ?_⟩ fun page _ hwithin => ?_
      · rw [hempty]
      · rw [hempty] at hwithin
        exact absurd hwithin (Nat.not_lt_zero _)
    · rw [List.concat_eq_append] at hpage
      have hrow : row ∈ belowCutoff key cutoff rows :=
        hperm.mem_iff.mp (List.mem_of_mem_take (hpage ▸ List.mem_append_right _ List.mem_cons_self))
      have hanswer : request page cutoff = some (first ++ [row]) := by
        rw [hrequest, hpage]
      have hbelow := belowCutoff_of_mem hrow
      have hless : (belowCutoff key (some (key row)) rows).length < length := by
        rw [hbelow, ← hlength]
        refine List.length_filter_lt_length_iff_exists.mpr ⟨row, hrow, ?_⟩
        simp
      have hrest := ih _ hless (page + 1) (some (key row)) rfl
      have hafter := filter_lt_perm ⟨hperm, hsorted⟩ hpage
      rw [← hbelow] at hafter
      have hall := List.take_append_drop size ((sorters page).sort (belowCutoff key cutoff rows))
      rw [hpage] at hall
      have hbreaks : PageBreaks key size (belowCutoff key cutoff rows) ↔
          PageBreaks key size ((sorters page).sort (belowCutoff key cutoff rows)) :=
        ⟨fun h => h.perm hperm, fun h => h.perm hperm.symm⟩
      rw [hbreaks, pageBreaks_iff hsorted hpage]
      constructor
      · rintro ⟨collected, hcollected, hsame⟩
        cases hcollected with
        | last hlast =>
          rw [hanswer, Option.some.injEq] at hlast
          exact absurd hlast (by simp)
        | @more _ _ first' rest row' hanswer' hfollowed =>
          rw [hanswer, Option.some.injEq] at hanswer'
          obtain ⟨rfl, hlast⟩ := List.append_inj' hanswer' rfl
          obtain rfl := List.singleton_inj.mp hlast
          have hdrop : rest.Perm
              (((sorters page).sort (belowCutoff key cutoff rows)).drop size) := by
            refine (List.perm_append_left_iff (first ++ [row])).mp ?_
            rw [hall]
            exact hsame.trans hperm.symm
          have hlengths := hfollowed.length_le hrequest
          rw [hdrop.length_eq, hafter.length_eq] at hlengths
          have hkept := List.filter_sublist.eq_of_length_le hlengths
          rw [hkept] at hafter
          refine ⟨fun a ha => ?_, ?_⟩
          · rw [← hkept] at ha
            exact of_decide_eq_true (List.mem_filter.mp ha).2
          · exact (hrest.mp ⟨rest, hfollowed, hdrop.trans hafter.symm⟩).perm hafter.symm
      · rintro ⟨hlast, hlater⟩
        rw [List.filter_eq_self.mpr fun a ha => decide_eq_true (hlast a ha)] at hafter
        obtain ⟨rest, hfollowed, hsame⟩ := hrest.mpr (hlater.perm hafter)
        refine ⟨first ++ [row] ++ rest, .more hanswer hfollowed, ?_⟩
        refine List.Perm.trans ?_ hperm
        rw [← hall]
        exact List.Perm.append_left _ (hsame.trans hafter)

end

end Rellm.Foundation
