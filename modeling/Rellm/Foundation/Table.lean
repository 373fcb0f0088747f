import Mathlib.Data.List.Induction
import Mathlib.Data.List.Nodup

/-!
# Keyed tables

A database table is a list of rows with pairwise different keys. Rows are looked
up by key; the lemmas say what a lookup finds after an insertion, an update of
the rows that satisfy a condition, or their deletion. A hash map is a table of
pairs, in which a row put under a taken key replaces the one that was there.
-/

namespace Rellm.Foundation

universe u v

variable {κ : Type u} {ρ : Type v}

/-- A table: rows with pairwise different keys. -/
structure Table (key : ρ → κ) where
  rows : List ρ
  nodup : (rows.map key).Nodup

namespace Table

variable {key : ρ → κ}

/-- The table without rows. -/
def empty : Table key := ⟨[], List.nodup_nil⟩

/-- A table is its rows. -/
theorem ext_of_rows {t t' : Table key} (h : t.rows = t'.rows) : t = t' := by
  obtain ⟨rows, nodup⟩ := t
  cases h
  rfl

/-- The rows that satisfy a condition are deleted. -/
def delete (t : Table key) (p : ρ → Bool) : Table key where
  rows := t.rows.filter fun row => !p row
  nodup := t.nodup.sublist (List.filter_sublist.map key)

/-- The rows that satisfy a condition are rewritten; a rewrite keeps the key. -/
def update (t : Table key) (p : ρ → Bool) (f : ρ → ρ) (hf : ∀ row, key (f row) = key row) :
    Table key where
  rows := t.rows.map fun row => if p row then f row else row
  nodup := by
    have hkeys : (t.rows.map fun row => if p row then f row else row).map key =
        t.rows.map key := by
      rw [List.map_map]
      apply List.map_congr_left
      intro row _
      rw [Function.comp_apply]
      split
      · exact hf row
      · rfl
    rw [hkeys]
    exact t.nodup

/-- What a rewrite leaves of the rows it is for, an update leaves of all rows. -/
theorem map_rows_update_of_mem {β : Type*} {g : ρ → β} (t : Table key) {p : ρ → Bool} {f : ρ → ρ}
    (hf : ∀ row, key (f row) = key row) (hg : ∀ row ∈ t.rows, p row = true → g (f row) = g row) :
    (t.update p f hf).rows.map g = t.rows.map g := by
  rw [update, List.map_map]
  apply List.map_congr_left
  intro row hmem
  rw [Function.comp_apply]
  split
  · rename_i hp
    exact hg row hmem hp
  · rfl

/-- What a rewrite leaves of every row, an update leaves of the rows. -/
theorem map_rows_update {β : Type*} {g : ρ → β} (t : Table key) {p : ρ → Bool} {f : ρ → ρ}
    (hf : ∀ row, key (f row) = key row) (hg : ∀ row, g (f row) = g row) :
    (t.update p f hf).rows.map g = t.rows.map g :=
  t.map_rows_update_of_mem hf fun row _ _ => hg row

/-- Two rows of a table with the same key are the same row. -/
theorem eq_of_key_eq (t : Table key) {row row' : ρ} (h : row ∈ t.rows) (h' : row' ∈ t.rows)
    (hkey : key row = key row') : row = row' :=
  List.inj_on_of_nodup_map t.nodup h h' hkey

/-- An update that rewrites each of its rows to itself does nothing. -/
theorem update_eq_self {t : Table key} {p : ρ → Bool} {f : ρ → ρ}
    {hf : ∀ row, key (f row) = key row} (h : ∀ row ∈ t.rows, p row = true → f row = row) :
    t.update p f hf = t := by
  have hrows : (t.rows.map fun row => if p row then f row else row) = t.rows := by
    calc
      _ = t.rows.map id := by
        apply List.map_congr_left
        intro row hmem
        by_cases hp : p row = true
        · rw [if_pos hp, h row hmem hp, id]
        · rw [if_neg hp, id]
      _ = t.rows := List.map_id _
  exact ext_of_rows hrows

/-- A deletion whose condition no row satisfies does nothing. -/
theorem delete_eq_self {t : Table key} {p : ρ → Bool} (h : ∀ row ∈ t.rows, p row = false) :
    t.delete p = t := by
  have hrows : t.rows.filter (fun row => !p row) = t.rows := by
    apply List.filter_eq_self.mpr
    intro row hmem
    rw [h row hmem]
    rfl
  exact ext_of_rows hrows

/-- Tables whose selected rows correspond under a renaming of keys have equally many of them. -/
theorem countP_eq_of_rename {t t' : Table key} {p p' : ρ → Bool} {f : κ → κ}
    (hto : ∀ row ∈ t.rows, p row = true → ∃ row' ∈ t'.rows, p' row' = true ∧ key row' = f (key row))
    (honto : ∀ row' ∈ t'.rows, p' row' = true →
      ∃ row ∈ t.rows, p row = true ∧ f (key row) = key row')
    (hinj : ∀ row ∈ t.rows, ∀ other ∈ t.rows, p row = true → p other = true →
      f (key row) = f (key other) → key row = key other) :
    t.rows.countP p = t'.rows.countP p' := by
  have hnodup (u : Table key) (q : ρ → Bool) : ((u.rows.filter q).map key).Nodup :=
    u.nodup.sublist (List.filter_sublist.map key)
  have hrenamed : (((t.rows.filter p).map key).map f).Nodup := by
    refine (hnodup t p).map_on ?_
    intro k hk k' hk' heq
    obtain ⟨row, hrow, rfl⟩ := List.mem_map.mp hk
    obtain ⟨other, hother, rfl⟩ := List.mem_map.mp hk'
    obtain ⟨hmem, hp⟩ := List.mem_filter.mp hrow
    obtain ⟨hmem', hp'⟩ := List.mem_filter.mp hother
    exact hinj row hmem other hmem' hp hp' heq
  have hperm : (((t.rows.filter p).map key).map f).Perm ((t'.rows.filter p').map key) := by
    rw [List.perm_ext_iff_of_nodup hrenamed (hnodup t' p')]
    intro k
    rw [List.mem_map, List.mem_map]
    constructor
    · rintro ⟨_, hk, rfl⟩
      obtain ⟨row, hrow, rfl⟩ := List.mem_map.mp hk
      obtain ⟨hmem, hp⟩ := List.mem_filter.mp hrow
      obtain ⟨row', hmem', hp', hkey⟩ := hto row hmem hp
      exact ⟨row', List.mem_filter.mpr ⟨hmem', hp'⟩, hkey⟩
    · rintro ⟨row', hrow', rfl⟩
      obtain ⟨hmem', hp'⟩ := List.mem_filter.mp hrow'
      obtain ⟨row, hmem, hp, hkey⟩ := honto row' hmem' hp'
      exact ⟨key row, List.mem_map.mpr ⟨row, List.mem_filter.mpr ⟨hmem, hp⟩, rfl⟩, hkey⟩
  have hlength := hperm.length_eq
  rw [List.length_map, List.length_map, List.length_map] at hlength
  rw [List.countP_eq_length_filter, List.countP_eq_length_filter, hlength]

/-- A deletion that spares the rows that are counted does not change the count. -/
theorem countP_delete (t : Table key) {p q : ρ → Bool}
    (h : ∀ row ∈ t.rows, q row = true → p row = false) :
    (t.delete p).rows.countP q = t.rows.countP q := by
  rw [delete, List.countP_filter]
  apply List.countP_congr
  intro row hmem
  rw [Bool.and_eq_true]
  constructor
  · rintro ⟨hq, _⟩
    exact hq
  · intro hq
    rw [h row hmem hq]
    exact ⟨hq, rfl⟩

variable [DecidableEq κ]

/-- The row with a key. -/
def get (t : Table key) (k : κ) : Option ρ := t.rows.find? fun row => key row = k

/-- Tables with the same parts of rows, the keys included, look up the same parts. -/
theorem map_get_of_map_rows {β : Type*} {g : ρ → β} {k : β → κ} (hk : ∀ row, k (g row) = key row)
    {t t' : Table key} (h : t'.rows.map g = t.rows.map g) (id : κ) :
    (t'.get id).map g = (t.get id).map g := by
  have hfind (t : Table key) :
      (t.get id).map g = (t.rows.map g).find? fun b => k b = id := by
    rw [get, List.find?_map]
    congr 2
    funext row
    rw [Function.comp_apply, hk]
  rw [hfind, hfind, h]

/-- A row is added, unless its key is taken. -/
def insert (t : Table key) (row : ρ) : Option (Table key) :=
  if h : key row ∈ t.rows.map key then none
  else some {
    rows := t.rows ++ [row]
    nodup := by
      rw [List.map_append, List.map_singleton]
      exact t.nodup.append (List.nodup_singleton _) (List.disjoint_singleton.mpr h) }

/-- A lookup finds a row exactly if the table has it under that key. -/
theorem get_eq_some_iff {t : Table key} {k : κ} {row : ρ} :
    t.get k = some row ↔ row ∈ t.rows ∧ key row = k := by
  constructor
  · intro h
    exact ⟨List.mem_of_find?_eq_some h, by simpa using List.find?_some h⟩
  · rintro ⟨hmem, hkey⟩
    cases hfind : t.get k with
    | none =>
      have hnone := List.find?_eq_none.mp hfind row hmem
      exact absurd (decide_eq_true hkey) hnone
    | some found =>
      have hfound : key found = k := by simpa using List.find?_some hfind
      rw [t.eq_of_key_eq hmem (List.mem_of_find?_eq_some hfind) (hkey.trans hfound.symm)]

/-- The rows of a table are those its lookups find. -/
theorem mem_rows_iff {t : Table key} {row : ρ} : row ∈ t.rows ↔ t.get (key row) = some row := by
  rw [get_eq_some_iff]
  exact (and_iff_left rfl).symm

/-- A lookup finds nothing exactly if no row has the key. -/
theorem get_eq_none_iff {t : Table key} {k : κ} :
    t.get k = none ↔ ∀ row ∈ t.rows, key row ≠ k := by
  simp [get]

/-- The row a lookup finds has the key it was looked up by. -/
theorem key_of_get {t : Table key} {k : κ} {row : ρ} (h : t.get k = some row) : key row = k :=
  (get_eq_some_iff.mp h).2

/-- The rows around a row that is found have other keys. -/
theorem rows_split (t : Table key) {k : κ} {row : ρ} (h : t.get k = some row) :
    ∃ before after, t.rows = before ++ row :: after ∧
      ∀ other ∈ before ++ after, key other ≠ k := by
  obtain ⟨hmem, hkey⟩ := get_eq_some_iff.mp h
  obtain ⟨before, after, hrows⟩ := List.append_of_mem hmem
  have hnodup := t.nodup
  rw [hrows, List.map_append, List.map_cons, List.nodup_append, List.nodup_cons] at hnodup
  obtain ⟨_, ⟨hafter, _⟩, hbefore⟩ := hnodup
  refine ⟨before, after, hrows, ?_⟩
  intro other hother heq
  rcases List.mem_append.mp hother with hother | hother
  · exact hbefore (key other) (List.mem_map_of_mem hother) (key row) List.mem_cons_self
      (heq.trans hkey.symm)
  · exact hafter (List.mem_map.mpr ⟨other, hother, heq.trans hkey.symm⟩)

@[simp] theorem get_empty (k : κ) : (empty : Table key).get k = none := rfl

@[simp] theorem get_delete (t : Table key) (p : ρ → Bool) (k : κ) :
    (t.delete p).get k = (t.get k).filter fun row => !p row := by
  ext row
  rw [get_eq_some_iff, Option.filter_eq_some_iff, get_eq_some_iff, delete, List.mem_filter]
  constructor
  · rintro ⟨⟨hmem, hp⟩, hkey⟩
    exact ⟨⟨hmem, hkey⟩, hp⟩
  · rintro ⟨⟨hmem, hkey⟩, hp⟩
    exact ⟨⟨hmem, hp⟩, hkey⟩

@[simp] theorem get_update (t : Table key) (p : ρ → Bool) (f : ρ → ρ)
    (hf : ∀ row, key (f row) = key row) (k : κ) :
    (t.update p f hf).get k = (t.get k).map fun row => if p row then f row else row := by
  have hkey (row : ρ) : key (if p row then f row else row) = key row := by
    split
    · exact hf row
    · rfl
  ext row
  rw [get_eq_some_iff, Option.map_eq_some_iff, update, List.mem_map]
  constructor
  · rintro ⟨⟨found, hmem, rfl⟩, hk⟩
    exact ⟨found, get_eq_some_iff.mpr ⟨hmem, (hkey found).symm.trans hk⟩, rfl⟩
  · rintro ⟨found, hget, rfl⟩
    obtain ⟨hmem, hk⟩ := get_eq_some_iff.mp hget
    exact ⟨⟨found, hmem, rfl⟩, (hkey found).trans hk⟩

/-- Rewriting the row with one key. -/
theorem get_update_key (t : Table key) (k : κ) (f : ρ → ρ) (hf : ∀ row, key (f row) = key row)
    (k' : κ) :
    (t.update (fun row => key row = k) f hf).get k' =
      if k' = k then (t.get k').map f else t.get k' := by
  rw [get_update]
  cases hget : t.get k' with
  | none =>
    rw [Option.map_none, Option.map_none]
    split <;> rfl
  | some row =>
    rw [Option.map_some, Option.map_some, key_of_get hget]
    by_cases hk : k' = k
    · rw [if_pos (decide_eq_true hk), if_pos hk]
    · rw [if_neg (by simpa using hk), if_neg hk]

/-- A row with a fresh key can be added. -/
theorem insert_of_get_none {t : Table key} (row : ρ) (h : t.get (key row) = none) :
    ∃ t', t.insert row = some t' ∧
      ∀ k, t'.get k = if k = key row then some row else t.get k := by
  have hfresh : key row ∉ t.rows.map key := by
    rw [List.mem_map]
    rintro ⟨found, hmem, hkey⟩
    exact get_eq_none_iff.mp h found hmem hkey
  refine ⟨_, dif_neg hfresh, ?_⟩
  intro k
  rw [get, List.find?_append]
  by_cases hk : k = key row
  · subst hk
    rw [if_pos rfl, ← get, h]
    simp
  · rw [if_neg hk, ← get]
    have hother : key row ≠ k := fun heq => hk heq.symm
    simp [hother]

/-- A lookup after a row was added. -/
theorem get_of_insert {t t' : Table key} {row : ρ} (h : t.insert row = some t') (k : κ) :
    t'.get k = if k = key row then some row else t.get k := by
  have hnone : t.get (key row) = none := by
    rw [insert] at h
    split at h
    · cases h
    · rename_i hfresh
      rw [get_eq_none_iff]
      intro found hmem hkey
      exact hfresh (List.mem_map.mpr ⟨found, hmem, hkey⟩)
  obtain ⟨inserted, hinserted, hget⟩ := insert_of_get_none row hnone
  rw [hinserted] at h
  cases h
  exact hget k

/-- The rows after a row was added. -/
theorem rows_of_insert {t t' : Table key} {row : ρ} (h : t.insert row = some t') :
    t'.rows = t.rows ++ [row] := by
  rw [insert] at h
  split at h
  · cases h
  · cases h
    rfl

/-- A row that is added unless its key is taken is there afterwards. -/
theorem isSome_get_insert_getD {t : Table key} (row : ρ) (k : κ) :
    (((t.insert row).getD t).get k).isSome ↔ (t.get k).isSome ∨ k = key row := by
  cases h : t.insert row with
  | some t' =>
    rw [Option.getD_some, get_of_insert h]
    by_cases hk : k = key row
    · simp [hk]
    · simp [hk]
  | none =>
    rw [Option.getD_none]
    refine (or_iff_left_of_imp ?_).symm
    rintro rfl
    by_contra hnone
    obtain ⟨t', hinsert, _⟩ := insert_of_get_none row (Option.not_isSome_iff_eq_none.mp hnone)
    rw [h] at hinsert
    cases hinsert

/-- A row that is not counted is added. -/
theorem countP_of_insert {t t' : Table key} {row : ρ} (h : t.insert row = some t') {p : ρ → Bool}
    (hp : p row = false) : t'.rows.countP p = t.rows.countP p := by
  rw [rows_of_insert h, List.countP_append, List.countP_singleton, hp]
  rfl

/-- Tables agree but for the row with one key. -/
def AgreesOff (k : κ) (t t' : Table key) : Prop := ∀ other, other ≠ k → t'.get other = t.get other

theorem agreesOff_insert {t t' : Table key} {row : ρ} (h : t.insert row = some t') :
    AgreesOff (key row) t t' := by
  intro other hne
  rw [get_of_insert h, if_neg hne]

theorem agreesOff_update (t : Table key) (k : κ) (f : ρ → ρ)
    (hf : ∀ row, key (f row) = key row) :
    AgreesOff k t (t.update (fun row => key row = k) f hf) := by
  intro other hne
  rw [get_update_key, if_neg hne]

theorem agreesOff_delete (t : Table key) (k : κ) :
    AgreesOff k t (t.delete fun row => key row = k) := by
  intro other hne
  rw [get_delete]
  cases hget : t.get other with
  | none => rfl
  | some row =>
    have hkey : key row ≠ k := by
      rw [key_of_get hget]
      exact hne
    rw [Option.filter_some, decide_eq_false hkey]
    rfl

theorem AgreesOff.mem_iff {k : κ} {t t' : Table key} (h : AgreesOff k t t') {row : ρ}
    (hne : key row ≠ k) : row ∈ t'.rows ↔ row ∈ t.rows := by
  rw [mem_rows_iff, mem_rows_iff, h _ hne]

omit [DecidableEq κ] in
/-- Tables with the same selected rows have equally many of them. -/
theorem countP_congr_of_mem {t t' : Table key} {p p' : ρ → Bool}
    (h : ∀ row, row ∈ t'.rows ∧ p' row = true ↔ row ∈ t.rows ∧ p row = true) :
    t'.rows.countP p' = t.rows.countP p := by
  refine countP_eq_of_rename (f := id) ?_ ?_ ?_
  · intro row hmem hp
    obtain ⟨hmem', hp'⟩ := (h row).mp ⟨hmem, hp⟩
    exact ⟨row, hmem', hp', rfl⟩
  · intro row hmem hp
    obtain ⟨hmem', hp'⟩ := (h row).mpr ⟨hmem, hp⟩
    exact ⟨row, hmem', hp', rfl⟩
  · intro row _ other _ _ _ hkey
    exact hkey

/-- A condition that the row with the key does not meet counts the same. -/
theorem AgreesOff.countP_eq {k : κ} {t t' : Table key} (h : AgreesOff k t t') {p : ρ → Bool}
    (hp : ∀ row, p row = true → key row ≠ k) : t'.rows.countP p = t.rows.countP p := by
  apply countP_congr_of_mem
  intro row
  constructor
  · rintro ⟨hmem, hrow⟩
    exact ⟨(h.mem_iff (hp row hrow)).mp hmem, hrow⟩
  · rintro ⟨hmem, hrow⟩
    exact ⟨(h.mem_iff (hp row hrow)).mpr hmem, hrow⟩

/-- A row is added, in place of the row that had its key. -/
def put (t : Table key) (row : ρ) : Table key where
  rows := t.rows.filter (fun other => key other ≠ key row) ++ [row]
  nodup := by
    rw [List.map_append, List.map_singleton]
    refine (t.nodup.sublist (List.filter_sublist.map key)).append (List.nodup_singleton _) ?_
    rw [List.disjoint_singleton, List.mem_map]
    rintro ⟨other, hother, hkey⟩
    exact of_decide_eq_true (List.mem_filter.mp hother).2 hkey

theorem mem_put (t : Table key) {row other : ρ} :
    other ∈ (t.put row).rows ↔ other ∈ t.rows ∧ key other ≠ key row ∨ other = row := by
  rw [put, List.mem_append, List.mem_filter, List.mem_singleton, decide_eq_true_eq]

/-- A deletion of the row with one key. -/
theorem mem_delete_key (t : Table key) {k : κ} {row : ρ} :
    row ∈ (t.delete fun row => key row = k).rows ↔ row ∈ t.rows ∧ key row ≠ k := by
  rw [delete, List.mem_filter, Bool.not_eq_true', decide_eq_false_iff_not]

/-- The rows with a key are the one that is got by it. -/
theorem filter_key (t : Table key) (k : κ) :
    (t.rows.filter fun row => key row = k) = (t.get k).toList := by
  cases hget : t.get k with
  | none =>
    rw [Option.toList_none, List.filter_eq_nil_iff]
    intro row hmem
    simpa using get_eq_none_iff.mp hget row hmem
  | some row =>
    obtain ⟨before, after, hrows, hne⟩ := t.rows_split hget
    have hnot (part : List ρ) (hpart : ∀ other ∈ part, other ∈ before ++ after) :
        (part.filter fun other => decide (key other = k)) = [] := by
      rw [List.filter_eq_nil_iff]
      intro other hother
      simpa using hne other (hpart other hother)
    rw [hrows, List.filter_append, List.filter_cons, if_pos (decide_eq_true (key_of_get hget)),
      hnot before fun other => List.mem_append_left _,
      hnot after fun other => List.mem_append_right _]
    rfl

/-- A deletion of the row with one key takes what that row counted. -/
theorem countP_delete_key (t : Table key) (p : ρ → Bool) (k : κ) :
    (t.delete fun row => key row = k).rows.countP p + ((t.get k).any p).toNat =
      t.rows.countP p := by
  have hsplit := List.countP_eq_countP_filter_add t.rows p fun row => decide (key row = k)
  have hdeleted : (t.delete fun row => key row = k).rows =
      t.rows.filter fun row => !decide (key row = k) := rfl
  rw [hsplit, hdeleted, filter_key]
  cases t.get k with
  | none => simp
  | some row =>
    rw [Option.toList_some, List.countP_singleton, Option.any_some, Nat.add_comm]
    cases p row <;> rfl

/-- A row that is put in its key's place counts instead of the row that had the key. -/
theorem countP_put (t : Table key) (p : ρ → Bool) (row : ρ) :
    (t.put row).rows.countP p + ((t.get (key row)).any p).toNat =
      t.rows.countP p + (p row).toNat := by
  have hput : (t.put row).rows = (t.delete fun other => key other = key row).rows ++ [row] := by
    simp only [put, delete, decide_not]
  have hdelete := t.countP_delete_key p (key row)
  rw [hput, List.countP_append, List.countP_singleton]
  cases p row <;> simp only [Bool.toNat_true, Bool.toNat_false, if_true] <;> grind

/-- The table of some rows, of which the last with a key is kept. -/
def collect (rows : List ρ) : Table key := rows.foldl put empty

theorem get_put (t : Table key) (row : ρ) (k : κ) :
    (t.put row).get k = if k = key row then some row else t.get k := by
  ext found
  rw [get_eq_some_iff, put, List.mem_append, List.mem_filter, List.mem_singleton,
    decide_eq_true_eq]
  by_cases hk : k = key row
  · rw [if_pos hk, hk, Option.some.injEq]
    constructor
    · rintro ⟨⟨_, hne⟩ | rfl, hkey⟩
      · exact absurd hkey hne
      · rfl
    · rintro rfl
      exact ⟨.inr rfl, rfl⟩
  · rw [if_neg hk, get_eq_some_iff]
    constructor
    · rintro ⟨⟨hmem, _⟩ | rfl, hkey⟩
      · exact ⟨hmem, hkey⟩
      · exact absurd hkey.symm hk
    · rintro ⟨hmem, rfl⟩
      exact ⟨.inl ⟨hmem, hk⟩, rfl⟩

/-- Of the rows put into a table, the last with a key is there. -/
theorem get_foldl_put (t : Table key) (rows : List ρ) (k : κ) :
    (rows.foldl put t).get k = ((rows.filter fun row => key row = k).getLast?).or (t.get k) := by
  induction rows using List.reverseRecOn with
  | nil => rfl
  | append_singleton rows row ih =>
    rw [List.foldl_append, List.foldl_cons, List.foldl_nil, get_put, ih, List.filter_append]
    by_cases hk : k = key row
    · rw [if_pos hk, List.filter_singleton, decide_eq_true hk.symm, Bool.cond_true,
        List.getLast?_concat, Option.some_or]
    · have hne : ¬ key row = k := fun heq => hk heq.symm
      rw [if_neg hk, List.filter_singleton, decide_eq_false hne, Bool.cond_false, List.append_nil]

/-- Of rows with different keys, each is there after they are put into a table. -/
theorem get_foldl_put_of_mem {t : Table key} {rows : List ρ} (hnodup : (rows.map key).Nodup)
    {row : ρ} (hmem : row ∈ rows) : (rows.foldl put t).get (key row) = some row := by
  have hfound : row ∈ rows.filter fun other => key other = key row :=
    List.mem_filter.mpr ⟨hmem, decide_eq_true rfl⟩
  obtain ⟨last, hlast⟩ := Option.isSome_iff_exists.mp
    (List.getLast?_isSome.mpr (List.ne_nil_of_mem hfound))
  obtain ⟨hlastMem, hkey⟩ := List.mem_filter.mp (List.mem_of_getLast? hlast)
  rw [get_foldl_put, hlast, Option.some_or,
    List.inj_on_of_nodup_map hnodup hlastMem hmem (of_decide_eq_true hkey)]

/-- What is under a key that no row has stays when rows are put into a table. -/
theorem get_foldl_put_of_notMem {t : Table key} {rows : List ρ} {k : κ} (h : k ∉ rows.map key) :
    (rows.foldl put t).get k = t.get k := by
  have hnone : rows.filter (fun row => key row = k) = [] := by
    rw [List.filter_eq_nil_iff]
    intro row hrow hkey
    exact h (List.mem_map.mpr ⟨row, hrow, of_decide_eq_true hkey⟩)
  rw [get_foldl_put, hnone, List.getLast?_nil, Option.none_or]

/-- Rows under keys that are not taken are added to a table. -/
theorem rows_foldl_put {t : Table key} {rows : List ρ} (hfresh : ∀ row ∈ rows, t.get (key row) = none)
    (hnodup : (rows.map key).Nodup) : (rows.foldl put t).rows = t.rows ++ rows := by
  induction rows using List.reverseRecOn with
  | nil => rw [List.foldl_nil, List.append_nil]
  | append_singleton rows row ih =>
    rw [List.map_append, List.map_singleton, List.nodup_append] at hnodup
    obtain ⟨hrows, _, hdisjoint⟩ := hnodup
    have hbefore := ih (fun other hother => hfresh other (List.mem_append_left _ hother)) hrows
    have hput : ((rows.foldl put t).put row).rows =
        (rows.foldl put t).rows.filter (fun other => key other ≠ key row) ++ [row] := rfl
    rw [List.foldl_append, List.foldl_cons, List.foldl_nil, hput, hbefore, ← List.append_assoc]
    congr 1
    rw [List.filter_eq_self]
    intro other hother
    rw [decide_eq_true_eq]
    rcases List.mem_append.mp hother with hold | hnew
    · exact get_eq_none_iff.mp (hfresh row (List.mem_append_right _ (List.mem_singleton_self row)))
        other hold
    · exact hdisjoint _ (List.mem_map_of_mem hnew) _ (List.mem_singleton_self _)

/-- A lookup in a collected table finds the last row with the key. -/
theorem get_collect (rows : List ρ) (k : κ) :
    (collect rows : Table key).get k = (rows.filter fun row => key row = k).getLast? := by
  rw [collect, get_foldl_put, get_empty, Option.or_none]

/-- A collected table holds only rows it was collected from. -/
theorem mem_of_mem_collect {rows : List ρ} {row : ρ}
    (h : row ∈ (collect rows : Table key).rows) : row ∈ rows := by
  rw [mem_rows_iff, get_collect] at h
  exact (List.mem_filter.mp (List.mem_of_getLast? h)).1

/-- A collected table finds something under the key of every row it was collected from. -/
theorem get_collect_isSome {rows : List ρ} {k : κ} :
    ((collect rows : Table key).get k).isSome ↔ ∃ row ∈ rows, key row = k := by
  rw [get_collect, List.getLast?_isSome]
  constructor
  · intro hne
    obtain ⟨row, hrow⟩ := List.exists_mem_of_ne_nil _ hne
    obtain ⟨hmem, hkey⟩ := List.mem_filter.mp hrow
    exact ⟨row, hmem, of_decide_eq_true hkey⟩
  · rintro ⟨row, hmem, hkey⟩
    exact List.ne_nil_of_mem (List.mem_filter.mpr ⟨hmem, decide_eq_true hkey⟩)

end Table

/-- A hash map. -/
abbrev HashMap (κ : Type u) (ν : Type v) := Table (Prod.fst : κ × ν → κ)

namespace HashMap

variable {κ : Type u} {ν : Type v} [DecidableEq κ]

/-- The value under a key. -/
def value (m : HashMap κ ν) (k : κ) : Option ν := (m.get k).map Prod.snd

/-- A map has a value under a key exactly if it has that pair. -/
theorem value_eq_some_iff {m : HashMap κ ν} {k : κ} {v : ν} :
    m.value k = some v ↔ (k, v) ∈ m.rows := by
  rw [value, Option.map_eq_some_iff]
  constructor
  · rintro ⟨⟨k', v'⟩, hget, rfl⟩
    obtain ⟨hmem, rfl⟩ := Table.get_eq_some_iff.mp hget
    exact hmem
  · intro hmem
    exact ⟨(k, v), Table.mem_rows_iff.mp hmem, rfl⟩

/-- Putting a value under a key leaves the values under the others. -/
theorem value_put (m : HashMap κ ν) (k : κ) (v : ν) (k' : κ) :
    value (m.put (k, v)) k' = if k' = k then some v else m.value k' := by
  rw [value, Table.get_put, value]
  split <;> rfl

/-- Removing a key leaves the values under the others. -/
theorem value_delete_key (m : HashMap κ ν) (k k' : κ) :
    value (m.delete fun entry => entry.1 = k) k' = if k' = k then none else m.value k' := by
  rw [value, Table.get_delete]
  cases hget : m.get k' with
  | none =>
    rw [value, hget, Option.filter_none, Option.map_none, ite_self]
  | some entry =>
    have hkey : entry.1 = k' := Table.key_of_get hget
    rw [value, hget, Option.filter_some, hkey]
    by_cases hk : k' = k
    · rw [if_pos hk, decide_eq_true hk]
      rfl
    · rw [if_neg hk, decide_eq_false hk]
      rfl

end HashMap

end Rellm.Foundation
