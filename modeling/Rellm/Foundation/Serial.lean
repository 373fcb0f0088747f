import Mathlib.Algebra.GroupWithZero.Nat
import Mathlib.Algebra.Order.BigOperators.Group.List
import Mathlib.Algebra.Order.Group.Nat
import Mathlib.Tactic.Abel
import Rellm.Foundation.Table

/-!
# Tables with a sequence

A table whose keys are numbers that a sequence hands out in order. A new row is
built from the number it gets, so an insertion never meets a taken key, and the
rows that satisfy a condition can be counted through insertions and updates.
-/

namespace Rellm.Foundation

universe u

variable {ρ : Type u}

/-- A table whose keys come from a sequence. -/
structure Serial (key : ρ → Nat) extends Table key where
  next : Nat
  below : ∀ row ∈ rows, key row < next

namespace Serial

variable {key : ρ → Nat}

/-- A table is its rows and the next number of its sequence. -/
theorem ext_of_rows {t t' : Serial key} (hrows : t.rows = t'.rows) (hnext : t.next = t'.next) :
    t = t' := by
  obtain ⟨⟨rows, nodup⟩, next, below⟩ := t
  obtain ⟨⟨rows', nodup'⟩, next', below'⟩ := t'
  cases hrows
  cases hnext
  rfl

/-- No rows, and the sequence at its first number. -/
def empty : Serial key where
  toTable := .empty
  next := 1
  below := by
    intro row hmem
    cases hmem

/-- A row is added under the next number of the sequence. -/
def insert (t : Serial key) (make : Nat → ρ) (hmake : ∀ id, key (make id) = id) : Serial key where
  rows := t.rows ++ [make t.next]
  nodup := by
    rw [List.map_append, List.map_singleton]
    refine t.nodup.append (List.nodup_singleton _) ?_
    rw [List.disjoint_singleton, List.mem_map]
    rintro ⟨row, hmem, hkey⟩
    have hbelow := t.below row hmem
    rw [hkey, hmake] at hbelow
    omega
  next := t.next + 1
  below := by
    intro row hmem
    rcases List.mem_append.mp hmem with hold | hnew
    · have hbelow := t.below row hold
      omega
    · rw [List.mem_singleton.mp hnew, hmake]
      omega

/-- The rows that satisfy a condition are rewritten; a rewrite keeps the key. -/
def update (t : Serial key) (p : ρ → Bool) (f : ρ → ρ) (hf : ∀ row, key (f row) = key row) :
    Serial key where
  toTable := t.toTable.update p f hf
  next := t.next
  below := by
    intro row hmem
    obtain ⟨old, hold, rfl⟩ := List.mem_map.mp hmem
    have hbelow := t.below old hold
    split
    · rw [hf]
      exact hbelow
    · exact hbelow

/-- The rows that satisfy a condition are deleted. -/
def delete (t : Serial key) (p : ρ → Bool) : Serial key where
  toTable := t.toTable.delete p
  next := t.next
  below := fun row hmem => t.below row (List.mem_of_mem_filter hmem)

/-- The row with one key is rewritten. -/
def modify (t : Serial key) (k : Nat) (f : ρ → ρ) (hf : ∀ row, key (f row) = key row) :
    Serial key :=
  t.update (fun row => key row = k) f hf

section

variable (t : Serial key) (make : Nat → ρ) (hmake : ∀ id, key (make id) = id)

@[simp] theorem rows_empty : (empty : Serial key).rows = [] := rfl

@[simp] theorem rows_insert : (t.insert make hmake).rows = t.rows ++ [make t.next] := rfl

@[simp] theorem next_insert : (t.insert make hmake).next = t.next + 1 := rfl

/-- The next number is not taken. -/
theorem get_next : t.get t.next = none := by
  rw [Table.get_eq_none_iff]
  intro row hmem
  have hbelow := t.below row hmem
  omega

/-- A lookup below the sequence finds what it found before an insertion. -/
theorem get_insert (k : Nat) :
    (t.insert make hmake).get k = if k = t.next then some (make t.next) else t.get k := by
  rw [Table.get, rows_insert, List.find?_append]
  by_cases hk : k = t.next
  · rw [if_pos hk, hk, ← Table.get, t.get_next]
    simp [hmake]
  · have hother : ¬ t.next = k := fun heq => hk heq.symm
    rw [if_neg hk, ← Table.get]
    simp [hmake, hother]

/-- A row that was there is still found after an insertion. -/
theorem get_insert_of_get {k : Nat} {row : ρ} (h : t.get k = some row) :
    (t.insert make hmake).get k = some row := by
  have hne : k ≠ t.next := by
    rintro rfl
    rw [t.get_next] at h
    cases h
  rw [get_insert, if_neg hne, h]

/-- An insertion adds its row to the count. -/
theorem countP_insert (q : ρ → Bool) :
    (t.insert make hmake).rows.countP q = t.rows.countP q + (q (make t.next)).toNat := by
  rw [rows_insert, List.countP_append, List.countP_singleton]
  cases q (make t.next) <;> rfl

/-- An insertion adds the weight of its row to the sum. -/
theorem sum_insert {M : Type*} [AddCommMonoid M] (w : ρ → M) :
    ((t.insert make hmake).rows.map w).sum = (t.rows.map w).sum + w (make t.next) := by
  rw [rows_insert, List.map_append, List.sum_append, List.map_singleton, List.sum_singleton]

/-- A deletion does not add to a sum. -/
theorem sum_delete_le (p : ρ → Bool) (w : ρ → Nat) :
    ((t.delete p).rows.map w).sum ≤ (t.rows.map w).sum :=
  (List.filter_sublist.map w).sum_le_sum fun _ _ => Nat.zero_le _

end

section

variable (t : Serial key) (f : ρ → ρ) (hf : ∀ row, key (f row) = key row)

@[simp] theorem next_modify (k : Nat) : (t.modify k f hf).next = t.next := rfl

@[simp] theorem get_modify (k k' : Nat) :
    (t.modify k f hf).get k' = if k' = k then (t.get k').map f else t.get k' :=
  t.toTable.get_update_key k f hf k'

/-- A row of the rewritten table is an old one, or the rewritten one. -/
theorem mem_modify {k : Nat} {row : ρ} (h : row ∈ (t.modify k f hf).rows) :
    row ∈ t.rows ∧ key row ≠ k ∨ ∃ old, t.get k = some old ∧ row = f old := by
  rw [Table.mem_rows_iff, get_modify] at h
  split at h
  · rename_i hk
    obtain ⟨old, hold, rfl⟩ := Option.map_eq_some_iff.mp h
    exact .inr ⟨old, hk ▸ hold, rfl⟩
  · rename_i hk
    exact .inl ⟨Table.mem_rows_iff.mpr h, hk⟩

/-- Rewriting a missing row does nothing. -/
theorem rows_modify_of_get_none {k : Nat} (h : t.get k = none) :
    (t.modify k f hf).rows = t.rows := by
  have hnone := Table.get_eq_none_iff.mp h
  have heq : t.toTable.update (fun row => key row = k) f hf = t.toTable :=
    Table.update_eq_self fun row hmem hp => absurd (of_decide_eq_true hp) (hnone row hmem)
  exact congrArg Table.rows heq

/-- A rewritten table is the old one with one row in another's place. -/
theorem rows_modify_split {k : Nat} {row : ρ} (h : t.get k = some row) :
    ∃ before after, t.rows = before ++ row :: after ∧
      (t.modify k f hf).rows = before ++ f row :: after ∧
      ∀ other ∈ before ++ after, key other ≠ k := by
  have hkey := Table.key_of_get h
  obtain ⟨before, after, hrows, hne⟩ := t.toTable.rows_split h
  have hsame (part : List ρ) (hpart : ∀ other ∈ part, key other ≠ k) :
      (part.map fun other => if decide (key other = k) then f other else other) = part := by
    rw [List.map_congr_left (g := id), List.map_id]
    intro other hother
    rw [if_neg (by simpa using hpart other hother), id]
  refine ⟨before, after, hrows, ?_, hne⟩
  calc
    (t.modify k f hf).rows
      = t.rows.map fun other => if decide (key other = k) then f other else other := rfl
    _ = before ++ f row :: after := by
      rw [hrows, List.map_append, List.map_cons, if_pos (decide_eq_true hkey),
        hsame before fun other hother => hne other (List.mem_append_left _ hother),
        hsame after fun other hother => hne other (List.mem_append_right _ hother)]

/-- Rewriting the row with one key changes a count by what it makes of that row. -/
theorem countP_modify (q : ρ → Bool) {k : Nat} {row : ρ} (h : t.get k = some row) :
    (t.modify k f hf).rows.countP q + (q row).toNat =
      t.rows.countP q + (q (f row)).toNat := by
  obtain ⟨before, after, hrows, hmodified, _⟩ := t.rows_modify_split f hf h
  rw [hmodified, hrows, List.countP_append, List.countP_append, List.countP_cons,
    List.countP_cons]
  cases q row <;> cases q (f row) <;> simp <;> omega

/-- Conditions that agree on every other row have counts that differ by those of one row. -/
theorem countP_split (p q : ρ → Bool) {k : Nat} {row : ρ} (h : t.get k = some row)
    (hq : ∀ other, key other ≠ k → q other = p other) :
    t.rows.countP q + (p row).toNat = t.rows.countP p + (q row).toNat := by
  obtain ⟨before, after, hrows, hne⟩ := t.toTable.rows_split h
  have hsame (part : List ρ) (hpart : ∀ other ∈ part, other ∈ before ++ after) :
      part.countP q = part.countP p := by
    apply List.countP_congr
    intro other hother
    rw [hq other (hne other (hpart other hother))]
  rw [hrows, List.countP_append, List.countP_append, List.countP_cons, List.countP_cons,
    hsame before fun other => List.mem_append_left _,
    hsame after fun other => List.mem_append_right _]
  cases p row <;> cases q row <;> simp <;> omega

/-- Weights that agree on every other row have sums that differ by those of one row. -/
theorem sum_split {M : Type*} [AddCommMonoid M] (w w' : ρ → M) {k : Nat} {row : ρ} (h : t.get k = some row)
    (hw : ∀ other, key other ≠ k → w' other = w other) :
    (t.rows.map w').sum + w row = (t.rows.map w).sum + w' row := by
  obtain ⟨before, after, hrows, hne⟩ := t.toTable.rows_split h
  have hsame (part : List ρ) (hpart : ∀ other ∈ part, other ∈ before ++ after) :
      part.map w' = part.map w := by
    apply List.map_congr_left
    intro other hother
    exact hw other (hne other (hpart other hother))
  rw [hrows, List.map_append, List.map_append, List.map_cons, List.map_cons,
    hsame before fun other => List.mem_append_left _,
    hsame after fun other => List.mem_append_right _, List.sum_append, List.sum_append,
    List.sum_cons, List.sum_cons]
  abel

/-- Rewriting the row with one key changes a sum by what it makes of that row. -/
theorem sum_modify {M : Type*} [AddCommMonoid M] (w : ρ → M) {k : Nat} {row : ρ} (h : t.get k = some row) :
    ((t.modify k f hf).rows.map w).sum + w row = (t.rows.map w).sum + w (f row) := by
  obtain ⟨before, after, hrows, hmodified, _⟩ := t.rows_modify_split f hf h
  rw [hmodified, hrows, List.map_append, List.map_append, List.map_cons, List.map_cons,
    List.sum_append, List.sum_append, List.sum_cons, List.sum_cons]
  abel

end

/-- Deleting the row with one key takes its weight from a sum. -/
theorem sum_delete_key {M : Type*} [AddCommMonoid M] (t : Serial key) (w : ρ → M) {k : Nat}
    {row : ρ} (h : t.get k = some row) :
    ((t.delete fun row => key row = k).rows.map w).sum + w row = (t.rows.map w).sum := by
  obtain ⟨before, after, hrows, hne⟩ := t.toTable.rows_split h
  have hkept (part : List ρ) (hpart : ∀ other ∈ part, other ∈ before ++ after) :
      (part.filter fun other => !decide (key other = k)) = part := by
    rw [List.filter_eq_self]
    intro other hother
    simpa using hne other (hpart other hother)
  have hdeleted : (t.delete fun row => key row = k).rows =
      t.rows.filter fun row => !decide (key row = k) := rfl
  rw [hdeleted, hrows, List.filter_append, List.filter_cons,
    if_neg (by simpa using Table.key_of_get h), hkept before fun other => List.mem_append_left _,
    hkept after fun other => List.mem_append_right _, List.map_append, List.map_append,
    List.map_cons, List.sum_append, List.sum_append, List.sum_cons]
  abel

end Serial

end Rellm.Foundation
