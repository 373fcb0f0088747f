import Rellm.Cache.Files
import Rellm.Cache.Places

/-!
# What belongs to an object

The paths that the cache uses for an object are known: the directories of its key, its file, and the
directory of its segments. Objects of one upload differ in the names of these, objects of different
uploads in the directories. An entry of the temp directory belongs to an object if it is at one of
its paths.
-/

namespace Rellm.Cache

open Foundation Media

namespace Extension

theorem text_download (id : Uuid) :
    (download id).text = ".mediafile-download-".toList ++ id.text := rfl

theorem text_segmenting (id : Uuid) : (segmenting id).text = ".hls.tmp-".toList ++ id.text := rfl

theorem noSlash (extension : Extension) : '/' ∉ extension.text := by
  cases extension with
  | file => decide +kernel
  | hls => decide +kernel
  | download id =>
    rw [text_download, List.mem_append, not_or]
    exact ⟨by decide +kernel, Original.uuid_noSlash id⟩
  | segmenting id =>
    rw [text_segmenting, List.mem_append, not_or]
    exact ⟨by decide +kernel, Original.uuid_noSlash id⟩

theorem three_le (extension : Extension) : 3 ≤ extension.text.length := by
  cases extension with
  | file => decide +kernel
  | hls => decide +kernel
  | download id =>
    rw [text_download, List.length_append, id.length_eq]
    omega
  | segmenting id =>
    rw [text_segmenting, List.length_append, id.length_eq]
    omega

/-- What has a dot near its end does not end in an id. -/
theorem ne_of_id {start start' ending : List Char} {id : Uuid} (hdot : '.' ∈ ending)
    (hlength : ending.length ≤ 36) : start ++ ending ≠ start' ++ id.text := by
  intro heq
  have hending : ending <:+ start' ++ id.text := by
    rw [← heq]
    exact List.suffix_append _ _
  have hsuffix : ending <:+ id.text :=
    List.suffix_of_suffix_length_le hending (List.suffix_append _ _)
      (by rw [id.length_eq]; exact hlength)
  exact Original.uuid_noDot id (hsuffix.subset hdot)

theorem dot_mem : '.' ∈ file.text ∧ '.' ∈ hls.text := by decide +kernel

theorem length_le : file.text.length ≤ 36 ∧ hls.text.length ≤ 36 := by decide +kernel

theorem getLast_text : file.text.getLast? = some 'e' ∧ hls.text.getLast? = some 's' := by
  decide +kernel

/-- A file is not named like a directory of segments. -/
theorem file_ne_hls (start start' : List Char) : start ++ file.text ≠ start' ++ hls.text := by
  intro h
  have hlast := congrArg List.getLast? h
  rw [List.getLast?_append, List.getLast?_append, getLast_text.1, getLast_text.2, Option.some_or,
    Option.some_or] at hlast
  exact absurd hlast (by decide)

/-- The endings of cached files and of directories of segments are not those of anything else. -/
theorem eq_of_append {start start' : List Char} {extension extension' : Extension}
    (hfinal : extension = .file ∨ extension = .hls)
    (h : start ++ extension.text = start' ++ extension'.text) : extension' = extension := by
  cases extension' with
  | file =>
    rcases hfinal with rfl | rfl
    · rfl
    · exact absurd h.symm (file_ne_hls _ _)
  | hls =>
    rcases hfinal with rfl | rfl
    · exact absurd h (file_ne_hls _ _)
    · rfl
  | download id =>
    rw [text_download, ← List.append_assoc] at h
    rcases hfinal with rfl | rfl
    · exact absurd h (ne_of_id dot_mem.1 length_le.1)
    · exact absurd h (ne_of_id dot_mem.2 length_le.2)
  | segmenting id =>
    rw [text_segmenting, ← List.append_assoc] at h
    rcases hfinal with rfl | rfl
    · exact absurd h (ne_of_id dot_mem.1 length_le.1)
    · exact absurd h (ne_of_id dot_mem.2 length_le.2)

end Extension

namespace StoredObject

variable (object : StoredObject)

/-- What is appended to the key of the upload. -/
def suffix : List Char := object.path.toList.drop object.original.path.toList.length

/-- What the cache has for an object, from the temp directory on. -/
def place (extension : Extension) : Location :=
  object.original.file (object.suffix ++ extension.text)

variable {object}

theorem suffix_spec (object : StoredObject) : CopySuffix object.conversion object.suffix ∧
    object.path.toList = object.original.path.toList ++ object.suffix := by
  obtain ⟨suffix, hsuffix, hpath⟩ := object.named
  have heq : object.suffix = suffix := by
    rw [StoredObject.suffix, hpath, List.drop_left]
  rw [heq]
  exact ⟨hsuffix, hpath⟩

theorem suffix_noSlash (extension : Extension) : '/' ∉ object.suffix ++ extension.text := by
  rw [List.mem_append, not_or]
  exact ⟨object.suffix_spec.1.noSlash, extension.noSlash⟩

theorem localPath_eq (extension : Extension) :
    localPath object.path extension =
      names (object.original.path.toList ++ (object.suffix ++ extension.text)) := by
  rw [localPath, object.suffix_spec.2, List.append_assoc]

theorem localPath_split (extension : Extension) :
    localPath object.path extension =
      ("user".toList :: object.original.folder :: directoryNames object.original.name) ++
        [fileName object.original.name ++ (object.suffix ++ extension.text)] := by
  rw [localPath_eq, Original.names_path (suffix_noSlash extension)]
  rfl

variable (htame : object.original.Tame)

include htame

theorem resolve_localPath (extension : Extension) (tempdir : Location) :
    resolve tempdir (localPath object.path extension) = tempdir ++ object.place extension := by
  rw [localPath_eq]
  have hlength := extension.three_le
  exact htame.resolve_file (suffix_noSlash extension) (by rw [List.length_append]; omega) tempdir

theorem resolve_dropLast (extension : Extension) (tempdir : Location) :
    resolve tempdir (localPath object.path extension).dropLast =
      tempdir ++ object.original.directory := by
  rw [localPath_split, List.dropLast_concat, htame.resolve_path]

theorem passed_dropLast (extension : Extension) (tempdir : Location) :
    passed tempdir (localPath object.path extension).dropLast =
      (tempdir ++ ["user".toList]) :: (tempdir ++ object.original.folderLocation) ::
        object.original.passed.map (tempdir ++ ·) := by
  rw [localPath_split, List.dropLast_concat, htame.passed_path]

theorem passed_localPath (extension : Extension) (tempdir : Location) :
    passed tempdir (localPath object.path extension) =
      passed tempdir (localPath object.path extension).dropLast ++
        [tempdir ++ object.place extension] := by
  have hlast := resolve_localPath htame extension tempdir
  rw [localPath_split] at hlast ⊢
  rw [List.dropLast_concat, passed_append]
  rw [resolve_append] at hlast
  rw [← hlast]
  rfl

end StoredObject

/-- A start without a character ends before the character. -/
theorem prefix_of_prefix_append_cons {c : Char} {start before after : List Char} (hc : c ∉ start)
    (h : start <+: before ++ c :: after) : start <+: before := by
  by_cases hlength : start.length ≤ before.length
  · exact List.prefix_of_prefix_length_le h (List.prefix_append _ _) hlength
  · have hlonger : before ++ [c] <+: start :=
      List.prefix_of_prefix_length_le (by simp) h (by rw [List.length_append]; exact Nat.lt_of_not_le hlength)
    exact absurd (hlonger.subset (by simp)) hc

/-- A version of an object is named like the object, but for a version at the end. -/
theorem exists_of_isVersionOf {extension name baseName : Name}
    (h : isVersionOf extension name baseName = true) :
    ∃ rest, (rest = [] ∨ ∃ version, IsVersion version ∧ rest = '.' :: version) ∧
      name = baseName ++ rest ++ extension := by
  rw [isVersionOf] at h
  split at h
  · cases h
  · rename_i rest hrest
    obtain ⟨after, hafter, hrest⟩ := Option.bind_eq_some_iff.mp hrest
    rw [List.isPrefixOf?_eq_some_iff_append_eq] at hafter
    rw [List.isSuffixOf?_eq_some_iff_append_eq] at hrest
    refine ⟨rest, ?_, by rw [← hafter, ← hrest, List.append_assoc]⟩
    cases rest with
    | nil => exact .inl rfl
    | cons c version =>
      rw [List.isEmpty_cons, Bool.false_or, Bool.and_eq_true, List.head?_cons, List.tail_cons,
        beq_iff_eq, Option.some.injEq] at h
      exact .inr ⟨version, h.2, by rw [h.1]⟩

/-- Filenames stay in their directories, and an id is that of one upload. -/
structure Separate (objects : Table StoredObject.path) : Prop where
  tame : ∀ object ∈ objects.rows, object.original.Tame
  own : ∀ object ∈ objects.rows, ∀ other ∈ objects.rows,
    object.original.uuid = other.original.uuid → object.original = other.original

namespace Separate

variable {objects : Table StoredObject.path} (h : Separate objects) {object other : StoredObject}
  (hobject : object ∈ objects.rows) (hother : other ∈ objects.rows)
  {extension extension' : Extension}

include h hobject hother

/-- What is below something of an upload is of that upload. -/
theorem original_eq {location location' : Location} (hmarked : Marked object.original.uuid location)
    (hmarked' : Marked other.original.uuid location') (hstarts : location <+: location') :
    object.original = other.original :=
  h.own object hobject other hother ((hmarked.extend hstarts).eq hmarked')

theorem original_eq_of_place (hstarts : object.place extension <+: other.place extension') :
    object.original = other.original :=
  h.original_eq hobject hother ((h.tame object hobject).marked_file _)
    ((h.tame other hother).marked_file _) hstarts

/-- Nothing of an object is in what is not a directory of its key. -/
theorem place_eq_of_starts (hstarts : object.place extension <+: other.place extension') :
    object.place extension = other.place extension' := by
  refine hstarts.eq_of_length ?_
  rw [StoredObject.place, StoredObject.place, h.original_eq_of_place hobject hother hstarts,
    Original.file, Original.file, List.length_append, List.length_append]
  rfl

/-- Cached files and directories of segments are each for one object. -/
theorem eq_of_place (hfinal : extension = .file ∨ extension = .hls)
    (heq : object.place extension = other.place extension') :
    object = other ∧ extension' = extension := by
  have hstarts : object.place extension <+: other.place extension' := by
    rw [heq]
  have horiginal := h.original_eq_of_place hobject hother hstarts
  rw [StoredObject.place, StoredObject.place, horiginal] at heq
  have hnames := List.append_cancel_left (List.singleton_inj.mp (List.append_cancel_left heq))
  obtain rfl := Extension.eq_of_append hfinal hnames
  refine ⟨objects.eq_of_key_eq hobject hother ?_, rfl⟩
  apply String.toList_injective
  rw [object.suffix_spec.2, other.suffix_spec.2, horiginal, List.append_cancel_right hnames]

/-- A cached file is not in the place of a directory. -/
theorem place_ne_passed {visited : Location}
    (hvisited : visited ∈
      ["user".toList] :: other.original.folderLocation :: other.original.passed) :
    object.place .file ≠ visited := by
  have hmarked : Marked object.original.uuid (object.place .file) :=
    (h.tame object hobject).marked_file _
  rintro rfl
  rcases List.mem_cons.mp hvisited with heq | hvisited
  · obtain ⟨name, hname, _⟩ := hmarked
    rw [heq] at hname
    cases hname
  · rcases List.mem_cons.mp hvisited with heq | hvisited
    · obtain ⟨name, hname, _⟩ := hmarked
      rw [heq] at hname
      cases hname
    · have htame := h.tame other hother
      have horiginal := h.original_eq hobject hother hmarked (htame.marked_passed hvisited)
        (List.prefix_refl _)
      refine htame.free _ hvisited object.conversion object.suffix object.suffix_spec.1 ?_
      rw [StoredObject.place, horiginal]
      rfl

/-- What is named as a version of an object is at the place of that object's conversion, if it is at
the place of any object or above it. -/
theorem conversion_eq_of_isVersionOf (hfinal : extension = .file ∨ extension = .hls) {base : String}
    (hbase : objectPathVersionBase object.path = some base) {name : Name}
    (hname : isVersionOf extension.text name (fileName base.toList) = true)
    (hstarts : object.original.directory ++ [name] <+: other.place extension') :
    object.original = other.original ∧ object.conversion = other.conversion := by
  obtain ⟨version, hversion, hpath⟩ := objectPathVersionBase_eq_some.mp hbase
  obtain ⟨rest, hrest, rfl⟩ := exists_of_isVersionOf hname
  have hnoSlash : '/' ∉ '.' :: version := by
    rw [List.mem_cons, not_or]
    exact ⟨by decide, hversion.notMem rfl⟩
  have hfile : fileName object.original.name ++ object.suffix =
      fileName base.toList ++ '.' :: version := by
    rw [← Original.fileName_path object.suffix_spec.1.noSlash, ← object.suffix_spec.2, hpath,
      fileName_append hnoSlash]
  have htame := h.tame object hobject
  have hmarked : Marked object.original.uuid (object.original.directory ++
      [fileName base.toList ++ rest ++ extension.text]) := by
    refine htame.marked_concat fun hnone => ?_
    have hstart : object.original.uuid.text ++ ['-'] <+: fileName object.original.name := by
      rcases object.original.start_cases with ⟨_, hstart⟩ | ⟨first, later, hfirst, _⟩
      · exact hstart
      · rw [hnone] at hfirst
        cases hfirst
    have hbefore : object.original.uuid.text ++ ['-'] <+:
        fileName base.toList ++ '.' :: version := by
      rw [← hfile]
      exact hstart.trans (List.prefix_append _ _)
    have hnoDot : '.' ∉ object.original.uuid.text ++ ['-'] := by
      simp [Original.uuid_noDot]
    rw [List.append_assoc]
    exact (prefix_of_prefix_append_cons hnoDot hbefore).trans (List.prefix_append _ _)
  have horiginal := h.original_eq hobject hother hmarked ((h.tame other hother).marked_file _) hstarts
  refine ⟨horiginal, ?_⟩
  rw [horiginal] at hstarts hfile
  have heq := hstarts.eq_of_length (by
    rw [StoredObject.place, Original.file, List.length_append, List.length_append]
    rfl)
  have hnames := List.singleton_inj.mp (List.append_cancel_left heq)
  rw [← List.append_assoc] at hnames
  obtain rfl := Extension.eq_of_append hfinal hnames
  exact object.suffix_spec.1.conversion_eq_of_base other.suffix_spec.1 hversion hfile hrest
    (List.append_cancel_right hnames).symm

end Separate

/-- An entry is at a place of an object: a directory of its key, or what the cache has for it. Its
cached file has its content. -/
inductive Placed (tempdir : Location) (objects : Table StoredObject.path) :
    Location → Entry → Prop where
  | directory {object : StoredObject} (hobject : object ∈ objects.rows) {visited : Location}
      (hvisited : visited ∈
        ["user".toList] :: object.original.folderLocation :: object.original.passed) :
      Placed tempdir objects (tempdir ++ visited) .directory
  | place {object : StoredObject} (hobject : object ∈ objects.rows) {extension : Extension}
      {entry : Entry} (hentry : extension = .file → entry = .file object.content) :
      Placed tempdir objects (tempdir ++ object.place extension) entry

theorem Placed.below {tempdir : Location} {objects : Table StoredObject.path} {location : Location}
    {entry : Entry} (h : Placed tempdir objects location entry) : tempdir <+: location := by
  cases h with
  | directory _ _ => exact List.prefix_append _ _
  | place _ _ => exact List.prefix_append _ _

/-- Whatever is in the temp directory belongs to an object, and nothing was created elsewhere. -/
structure Sound (cache : MediaCache) : Prop where
  separate : Separate cache.objects
  confined : ∀ location ∈ cache.created, cache.tempdir <+: location
  placed : ∀ location entry, cache.entry location = some entry → cache.tempdir <+: location →
    Placed cache.tempdir cache.objects location entry

namespace MediaCache

variable (cache : MediaCache) (location location' : Location) (entry : Entry)

theorem entry_write : (cache.write location entry).entry location' =
    if location' = location then some entry else cache.entry location' :=
  HashMap.value_put _ _ _ _

theorem entry_create : (cache.create location entry).entry location' =
    if location' = location then some entry else cache.entry location' :=
  HashMap.value_put _ _ _ _

theorem entry_remove (p : Location → Entry → Bool) : (cache.remove p).entry location =
    (cache.entry location).filter fun entry => !p location entry := by
  rw [MediaCache.entry, HashMap.value, remove, Table.get_delete, MediaCache.entry, HashMap.value]
  cases hget : cache.disk.get location with
  | none => rfl
  | some row =>
    have hkey : row.1 = location := Table.key_of_get hget
    rw [Option.filter_some, Option.map_some, Option.filter_some, hkey]
    split <;> rfl

end MediaCache

theorem sound_start (tempdir : Location) (disk : HashMap Location Entry) :
    Sound (.start tempdir disk) where
  separate := ⟨fun _ hobject => absurd hobject List.not_mem_nil,
    fun _ hobject => absurd hobject List.not_mem_nil⟩
  confined := fun _ hlocation => absurd hlocation List.not_mem_nil
  placed := by
    intro location entry hentry hbelow
    have hmem := HashMap.value_eq_some_iff.mp hentry
    rw [MediaCache.start, Table.delete, List.mem_filter] at hmem
    have hbelow : tempdir <+: location := hbelow
    exact absurd hmem.2 (by simpa using hbelow)

namespace Sound

variable {cache : MediaCache} (h : Sound cache)

include h

/-- The cached file of an object has its content. -/
theorem file {object : StoredObject} (hobject : object ∈ cache.objects.rows) {entry : Entry}
    (hentry : cache.entry (cache.tempdir ++ object.place .file) = some entry) :
    entry = .file object.content := by
  have hplaced := h.placed _ _ hentry (List.prefix_append _ _)
  generalize hlocation : cache.tempdir ++ object.place .file = location at hplaced
  cases hplaced with
  | directory hother hvisited =>
    exact absurd (List.append_cancel_left hlocation)
      (h.separate.place_ne_passed hobject hother hvisited)
  | place hother hentry =>
    obtain ⟨rfl, rfl⟩ := h.separate.eq_of_place hobject hother (.inl rfl)
      (List.append_cancel_left hlocation)
    exact hentry rfl

theorem write {location : Location} {entry : Entry}
    (hplaced : Placed cache.tempdir cache.objects location entry) :
    Sound (cache.write location entry) where
  separate := h.separate
  confined := h.confined
  placed := by
    intro location' entry' hentry hbelow
    rw [MediaCache.entry_write] at hentry
    split at hentry
    · rename_i heq
      cases hentry
      subst heq
      exact hplaced
    · exact h.placed location' entry' hentry hbelow

theorem create {location : Location} {entry : Entry}
    (hplaced : Placed cache.tempdir cache.objects location entry) :
    Sound (cache.create location entry) where
  separate := h.separate
  confined := by
    intro location' hmem
    rcases List.mem_cons.mp hmem with rfl | hmem
    · exact hplaced.below
    · exact h.confined location' hmem
  placed := (h.write hplaced).placed

theorem remove (p : Location → Entry → Bool) : Sound (cache.remove p) where
  separate := h.separate
  confined := h.confined
  placed := by
    intro location entry hentry hbelow
    rw [MediaCache.entry_remove] at hentry
    exact h.placed location entry (Option.filter_eq_some_iff.mp hentry).1 hbelow

/-- An object under a new key goes to the others. -/
theorem putObject {object : StoredObject} (htame : object.original.Tame)
    (hown : ∀ other ∈ cache.objects.rows, other.original.uuid = object.original.uuid →
      other.original = object.original)
    (hfresh : ∀ other ∈ cache.objects.rows, other.path ≠ object.path) :
    Sound (cache.putObject object) where
  separate := by
    constructor
    · intro other hother
      rcases (cache.objects.mem_put).mp hother with ⟨hother, _⟩ | rfl
      · exact h.separate.tame other hother
      · exact htame
    · intro other hother other' hother' huuid
      rcases (cache.objects.mem_put).mp hother with ⟨hold, _⟩ | rfl <;>
        rcases (cache.objects.mem_put).mp hother' with ⟨hold', _⟩ | rfl
      · exact h.separate.own other hold other' hold' huuid
      · exact hown other hold huuid
      · exact (hown other' hold' huuid.symm).symm
      · rfl
  confined := h.confined
  placed := by
    intro location entry hentry hbelow
    have hkept : ∀ other ∈ cache.objects.rows, other ∈ (cache.objects.put object).rows :=
      fun other hother => (cache.objects.mem_put).mpr (.inl ⟨hother, hfresh other hother⟩)
    cases h.placed location entry hentry hbelow with
    | directory hother hvisited => exact .directory (hkept _ hother) hvisited
    | place hother hentry => exact .place (hkept _ hother) hentry

/-- A deletion leaves what is cached. -/
theorem deleteObject (objectStoragePath : String) :
    Sound (cache.deleteObject objectStoragePath) := by
  have hfrom : ∀ object ∈ (cache.deleteObject objectStoragePath).objects.rows,
      ∃ other ∈ cache.objects.rows, other.original = object.original := by
    intro object hobject
    obtain ⟨other, hother, rfl⟩ := List.mem_map.mp hobject
    refine ⟨other, hother, ?_⟩
    split <;> rfl
  have hto : ∀ object ∈ cache.objects.rows,
      ∃ other ∈ (cache.deleteObject objectStoragePath).objects.rows,
        other.path = object.path ∧ other.original = object.original ∧
          other.content = object.content := by
    intro object hobject
    refine ⟨_, List.mem_map_of_mem hobject, ?_⟩
    split <;> exact ⟨rfl, rfl, rfl⟩
  constructor
  · constructor
    · intro object hobject
      obtain ⟨other, hother, heq⟩ := hfrom object hobject
      rw [← heq]
      exact h.separate.tame other hother
    · intro object hobject object' hobject' huuid
      obtain ⟨other, hother, heq⟩ := hfrom object hobject
      obtain ⟨other', hother', heq'⟩ := hfrom object' hobject'
      rw [← heq, ← heq'] at huuid ⊢
      exact h.separate.own other hother other' hother' huuid
  · exact h.confined
  · intro location entry hentry hbelow
    cases h.placed location entry hentry hbelow with
    | @directory object hobject visited hvisited =>
      obtain ⟨other, hother, _, horiginal, _⟩ := hto object hobject
      rw [← horiginal] at hvisited
      exact .directory hother hvisited
    | @place object hobject extension _ hentry =>
      obtain ⟨other, hother, hpath, horiginal, hcontent⟩ := hto object hobject
      have hplace : object.place extension = other.place extension := by
        rw [StoredObject.place, StoredObject.place, StoredObject.suffix, StoredObject.suffix, hpath,
          horiginal]
      rw [hplace]
      rw [← hcontent] at hentry
      exact .place hother hentry

end Sound

end Rellm.Cache
