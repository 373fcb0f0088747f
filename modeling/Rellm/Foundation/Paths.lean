import Mathlib.Data.List.Basic

/-!
# Paths and locations

A path is a text whose names stand between slashes. It is walked from a location of a file system,
name by name: an empty name and a dot stay, two dots go up, every other name goes down. What follows
the last slash names the file; appending to the path appends to that name.
-/

namespace Rellm.Foundation

abbrev Name := List Char

/-- A place in a file system: the names from the root down to it. -/
abbrev Location := List Name

/-- The names of a path. -/
def names (path : List Char) : List Name := path.splitOn '/'

/-- The names of the directories of a path. -/
def directoryNames (path : List Char) : List Name := (names path).dropLast

/-- The name of the file of a path. -/
def fileName (path : List Char) : Name := (names path).getLastD []

/-- A name that goes down. -/
def IsNormal (name : Name) : Prop := name ≠ [] ∧ name ≠ ['.'] ∧ name ≠ ['.', '.']

instance (name : Name) : Decidable (IsNormal name) := by
  unfold IsNormal
  infer_instance

/-- Where a name leads to. -/
def enter (location : Location) (name : Name) : Location :=
  if name = [] ∨ name = ['.'] then location
  else if name = ['.', '.'] then location.dropLast
  else location ++ [name]

/-- Where a path leads to. -/
def resolve (location : Location) (path : List Name) : Location := path.foldl enter location

/-- The locations that a path passes, one for each of its names. -/
def passed : Location → List Name → List Location
  | _, [] => []
  | location, name :: path => enter location name :: passed (enter location name) path

section Names

variable {path suffix : List Char}

theorem names_of_noSlash (h : '/' ∉ path) : names path = [path] := List.splitOn_eq_singleton h

/-- The names of a path with one more directory. -/
theorem names_append_slash {name : Name} (h : '/' ∉ name) (path : List Char) :
    names (name ++ '/' :: path) = name :: names path :=
  List.splitOn_append_cons_self_of_not_mem h path

theorem names_ne_nil (path : List Char) : names path ≠ [] := List.splitOn_ne_nil _ _

theorem names_eq (path : List Char) : names path = directoryNames path ++ [fileName path] := by
  rw [directoryNames, fileName, List.getLastD_eq_getLast?,
    List.getLast?_eq_some_getLast (names_ne_nil path), Option.getD_some,
    List.dropLast_append_getLast]

theorem names_cons (c : Char) (path : List Char) :
    names (c :: path) = if c = '/' then [] :: names path else (names path).modifyHead (c :: ·) := by
  rw [names, List.splitOn_cons_eq_if_modifyHead]
  simp only [beq_iff_eq]
  rfl

/-- What stands before the first slash starts the first name. -/
theorem names_append_left {start : List Char} (h : '/' ∉ start) (path : List Char) :
    names (start ++ path) = (names path).modifyHead (start ++ ·) := by
  induction start with
  | nil =>
    rw [List.nil_append]
    cases names path <;> rfl
  | cons c start ih =>
    rw [List.mem_cons, not_or] at h
    rw [List.cons_append, names_cons, if_neg (Ne.symm h.1), ih h.2]
    cases names path <;> rfl

/-- A suffix without a slash goes to the name of the file. -/
theorem names_append (h : '/' ∉ suffix) (path : List Char) :
    names (path ++ suffix) = directoryNames path ++ [fileName path ++ suffix] := by
  induction path with
  | nil => exact names_of_noSlash h
  | cons c path ih =>
    have hsplit := names_eq (c :: path)
    rw [List.cons_append, names_cons, ih]
    rw [names_cons, names_eq path] at hsplit
    split at hsplit
    · rename_i hc
      obtain ⟨hinit, hlast⟩ := List.append_inj' (hsplit.symm.trans List.cons_append.symm) rfl
      rw [if_pos hc, hinit, (List.cons.inj hlast).1, List.cons_append]
    · rename_i hc
      rw [if_neg hc]
      cases hdirectories : directoryNames path with
      | nil =>
        rw [hdirectories, List.nil_append, List.modifyHead_cons] at hsplit
        obtain ⟨hinit, hlast⟩ := List.append_inj' (hsplit.symm.trans (List.nil_append _).symm) rfl
        rw [hinit, (List.cons.inj hlast).1]
        rfl
      | cons directory directories =>
        rw [hdirectories, List.cons_append, List.modifyHead_cons, ← List.cons_append] at hsplit
        obtain ⟨hinit, hlast⟩ := List.append_inj' hsplit.symm rfl
        rw [hinit, (List.cons.inj hlast).1]
        rfl

/-- The two parts of a path that is put together. -/
theorem split_of_names_eq {directories : List Name} {file : Name}
    (h : names path = directories ++ [file]) :
    directoryNames path = directories ∧ fileName path = file := by
  rw [names_eq] at h
  exact ⟨by simpa using congrArg List.dropLast h, by simpa using congrArg List.getLast? h⟩

theorem fileName_append (h : '/' ∉ suffix) (path : List Char) :
    fileName (path ++ suffix) = fileName path ++ suffix :=
  (split_of_names_eq (names_append h path)).2

theorem directoryNames_of_noSlash (h : '/' ∉ path) : directoryNames path = [] := by
  have hnames : names path = [] ++ [path] := names_of_noSlash h
  exact (split_of_names_eq hnames).1

end Names

section Locations

variable {location below home : Location} {name : Name} {path path' : List Name}

theorem isNormal_of_length (h : 3 ≤ name.length) : IsNormal name := by
  refine ⟨?_, ?_, ?_⟩ <;>
  · rintro rfl
    simp at h

theorem enter_of_isNormal (h : IsNormal name) : enter location name = location ++ [name] := by
  obtain ⟨hempty, hdot, hdots⟩ := h
  rw [enter, if_neg (by tauto), if_neg hdots]

theorem resolve_append (location : Location) (path path' : List Name) :
    resolve location (path ++ path') = resolve (resolve location path) path' :=
  List.foldl_append

theorem resolve_concat_of_isNormal (h : IsNormal name) (location : Location) (path : List Name) :
    resolve location (path ++ [name]) = resolve location path ++ [name] := by
  rw [resolve_append]
  exact enter_of_isNormal h

theorem passed_append (location : Location) (path path' : List Name) :
    passed location (path ++ path') =
      passed location path ++ passed (resolve location path) path' := by
  induction path generalizing location with
  | nil => rfl
  | cons name path ih =>
    rw [List.cons_append, passed, passed, List.cons_append, ih]
    rfl

/-- The end of a path that has a name is one of the locations it passes. -/
theorem resolve_mem_passed (hne : path ≠ []) : resolve location path ∈ passed location path := by
  obtain ⟨path, name, rfl⟩ := List.eq_nil_or_concat path |>.resolve_left hne
  rw [List.concat_eq_append, passed_append, resolve_append]
  exact List.mem_append_right _ (List.mem_singleton.mpr rfl)

theorem enter_append (hne : below ≠ []) :
    enter (location ++ below) name = location ++ enter below name := by
  rw [enter, enter]
  split
  · rfl
  · split
    · exact List.dropLast_append_of_ne_nil hne
    · rw [List.append_assoc]

/-- A path that stays below a directory is the same from everywhere. -/
theorem passed_append_below (hhome : home ≠ []) (hbelow : home <+: below)
    (h : ∀ visited ∈ passed below path, home <+: visited) :
    passed (location ++ below) path = (passed below path).map (location ++ ·) ∧
      resolve (location ++ below) path = location ++ resolve below path := by
  induction path generalizing below with
  | nil => exact ⟨rfl, rfl⟩
  | cons name path ih =>
    have hne : below ≠ [] := by
      rintro rfl
      exact hhome (List.prefix_nil.mp hbelow)
    have hentered := h _ List.mem_cons_self
    obtain ⟨hpassed, hresolved⟩ :=
      ih hentered fun visited hmem => h visited (List.mem_cons_of_mem _ hmem)
    constructor
    · rw [passed, passed, List.map_cons, enter_append hne, hpassed]
    · rw [resolve, List.foldl_cons, enter_append hne]
      exact hresolved

end Locations

end Rellm.Foundation
