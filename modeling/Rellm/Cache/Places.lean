import Rellm.Cache.Keys

/-!
# Where cached files are

A filename that stays in the directory that its id starts takes all files of the upload there: no
other upload has a file or a directory with that id. Of the names in one directory, the ending and
the suffix tell the copies of an upload apart.
-/

namespace Rellm.Cache

open Foundation Media

/-- The directories that a filename adds stay in the one that the id starts, and none of them is in
the place of a cached file. -/
structure Original.Tame (original : Original) : Prop where
  stays : ∀ visited ∈ original.passed, original.home <+: visited
  free : ∀ visited ∈ original.passed, ∀ conversion suffix, CopySuffix conversion suffix →
    visited ≠ original.file (suffix ++ ".mediafile".toList)

/-- A location whose third name an id starts. -/
def Marked (uuid : Uuid) (location : Location) : Prop :=
  ∃ name, location[2]? = some name ∧ uuid.text ++ ['-'] <+: name

namespace Marked

variable {uuid uuid' : Uuid} {location location' : Location}

theorem extend (h : Marked uuid location) (hstarts : location <+: location') :
    Marked uuid location' := by
  obtain ⟨name, hname, hstart⟩ := h
  obtain ⟨rest, rfl⟩ := hstarts
  have hlt := (List.getElem?_eq_some_iff.mp hname).1
  exact ⟨name, by rw [List.getElem?_append_left hlt, hname], hstart⟩

theorem eq (h : Marked uuid location) (h' : Marked uuid' location) : uuid = uuid' := by
  obtain ⟨name, hname, hstart⟩ := h
  obtain ⟨name', hname', hstart'⟩ := h'
  obtain rfl := Option.some.inj (hname.symm.trans hname')
  have hstarts : uuid.text <+: uuid'.text ++ ['-'] :=
    List.prefix_of_prefix_length_le ((List.prefix_append _ _).trans hstart) hstart'
      (by rw [List.length_append, uuid.length_eq, uuid'.length_eq]; omega)
  apply Uuid.ext
  exact (List.prefix_of_prefix_length_le hstarts (List.prefix_append _ _)
    (by rw [uuid.length_eq, uuid'.length_eq])).eq_of_length
    (by rw [uuid.length_eq, uuid'.length_eq])

end Marked

namespace Original

variable {original : Original}

theorem uuid_noSlash (uuid : Uuid) : '/' ∉ uuid.text := by
  intro h
  rcases uuid.allowed _ h with hslash | hslash
  · exact absurd hslash (by decide)
  · exact absurd hslash (by decide)

theorem uuid_noDot (uuid : Uuid) : '.' ∉ uuid.text := by
  intro h
  rcases uuid.allowed _ h with hdot | hdot
  · exact absurd hdot (by decide)
  · exact absurd hdot (by decide)

theorem folder_isNormal (original : Original) : IsNormal original.folder := by
  have hat := original.at_mem
  refine ⟨?_, ?_, ?_⟩ <;>
  · intro heq
    rw [heq] at hat
    exact absurd hat (by decide)

/-- The names of the key of a copy. -/
theorem names_path {suffix : List Char} (h : '/' ∉ suffix) :
    names (original.path.toList ++ suffix) =
      "user".toList :: original.folder ::
        (directoryNames original.name ++ [fileName original.name ++ suffix]) := by
  rw [path, String.toList_ofList, List.append_assoc, List.cons_append,
    names_append_slash (by decide), List.append_assoc, List.cons_append,
    names_append_slash original.folder_noSlash, names_append h]

theorem fileName_path {suffix : List Char} (h : '/' ∉ suffix) :
    fileName (original.path.toList ++ suffix) = fileName original.name ++ suffix := by
  have hnames : names (original.path.toList ++ suffix) =
      ("user".toList :: original.folder :: directoryNames original.name) ++
        [fileName original.name ++ suffix] := names_path h
  exact (split_of_names_eq hnames).2

/-- The id starts the first name that is not of the uploader's directory. -/
theorem start_cases (original : Original) :
    (directoryNames original.name = [] ∧
      original.uuid.text ++ ['-'] <+: fileName original.name) ∨
    ∃ first later, directoryNames original.name = first :: later ∧
      original.uuid.text ++ ['-'] <+: first := by
  have hslash : '/' ∉ original.uuid.text ++ ['-'] := by
    simp [uuid_noSlash]
  have hname : original.name = (original.uuid.text ++ ['-']) ++ original.filename := by
    rw [name, List.append_assoc]
    rfl
  have hnames := names_eq original.name
  rw [hname, names_append_left hslash, ← hname] at hnames
  cases hfilename : names original.filename with
  | nil => exact absurd hfilename (names_ne_nil _)
  | cons x rest =>
    rw [hfilename, List.modifyHead_cons] at hnames
    cases hdirectories : directoryNames original.name with
    | nil =>
      rw [hdirectories] at hnames
      left
      exact ⟨rfl, ⟨x, (List.cons.inj hnames).1⟩⟩
    | cons first later =>
      rw [hdirectories] at hnames
      right
      exact ⟨first, later, rfl, ⟨x, (List.cons.inj hnames).1⟩⟩

/-- A filename without a slash adds no directories. -/
theorem tame_of_noSlash (h : '/' ∉ original.filename) : original.Tame := by
  have hname : '/' ∉ original.name := by
    rw [name, List.mem_append, List.mem_cons]
    rintro (hmem | heq | hmem)
    · exact uuid_noSlash original.uuid hmem
    · exact absurd heq (by decide)
    · exact h hmem
  have hpassed : original.passed = [] := by
    rw [passed, directoryNames_of_noSlash hname]
    rfl
  constructor <;>
  · rw [hpassed]
    exact nofun

namespace Tame

variable (h : original.Tame)

include h

theorem below_folder {visited : Location} (hmem : visited ∈ original.passed) :
    original.folderLocation <+: visited :=
  (List.prefix_append _ _).trans (h.stays visited hmem)

/-- All directories but the uploader's are marked. -/
theorem marked_passed {visited : Location} (hmem : visited ∈ original.passed) :
    Marked original.uuid visited := by
  rcases original.start_cases with ⟨hnone, _⟩ | ⟨first, later, hfirst, hstart⟩
  · rw [passed, hnone] at hmem
    cases hmem
  · have hhome : Marked original.uuid original.home := by
      rw [home, hfirst]
      exact ⟨first, rfl, hstart⟩
    exact hhome.extend (h.stays visited hmem)

/-- What is in the directory of an upload is marked, where its name is if that one is. -/
theorem marked_concat {file : Name}
    (hfile : directoryNames original.name = [] → original.uuid.text ++ ['-'] <+: file) :
    Marked original.uuid (original.directory ++ [file]) := by
  by_cases hnone : directoryNames original.name = []
  · rw [directory, hnone]
    exact ⟨file, rfl, hfile hnone⟩
  · exact (h.marked_passed (resolve_mem_passed hnone)).extend (List.prefix_append _ _)

theorem marked_file (suffix : List Char) : Marked original.uuid (original.file suffix) := by
  refine h.marked_concat fun hnone => ?_
  rcases original.start_cases with ⟨_, hstart⟩ | ⟨first, later, hfirst, _⟩
  · exact hstart.trans (List.prefix_append _ _)
  · rw [hnone] at hfirst
    cases hfirst

omit h in
theorem enter_folder (location : Location) :
    enter (enter location "user".toList) original.folder = location ++ original.folderLocation := by
  rw [enter_of_isNormal original.folder_isNormal, enter_of_isNormal (by decide), List.append_assoc]
  rfl

theorem below (location : Location) :
    Foundation.passed (location ++ original.folderLocation) (directoryNames original.name) =
        original.passed.map (location ++ ·) ∧
      resolve (location ++ original.folderLocation) (directoryNames original.name) =
        location ++ original.directory :=
  passed_append_below (by simp [folderLocation]) (List.prefix_refl _)
    fun _ hmem => h.below_folder hmem

/-- The directories of a key, from another directory on. -/
theorem passed_path (location : Location) :
    Foundation.passed location
        ("user".toList :: original.folder :: directoryNames original.name) =
      (location ++ ["user".toList]) :: (location ++ original.folderLocation) ::
        original.passed.map (location ++ ·) := by
  rw [Foundation.passed, Foundation.passed, enter_folder, (h.below location).1,
    enter_of_isNormal (by decide)]

theorem resolve_path (location : Location) :
    resolve location ("user".toList :: original.folder :: directoryNames original.name) =
      location ++ original.directory := by
  rw [resolve, List.foldl_cons, List.foldl_cons, enter_folder]
  exact (h.below location).2

/-- The cached file of a copy. -/
theorem resolve_file {suffix : List Char} (hslash : '/' ∉ suffix) (hlength : 3 ≤ suffix.length)
    (location : Location) :
    resolve location (names (original.path.toList ++ suffix)) =
      location ++ original.file suffix := by
  have hnormal : IsNormal (fileName original.name ++ suffix) :=
    isNormal_of_length (by rw [List.length_append]; omega)
  rw [names_path hslash, ← List.cons_append, ← List.cons_append,
    resolve_concat_of_isNormal hnormal, h.resolve_path, List.append_assoc]
  rfl

end Tame

end Original

end Rellm.Cache
