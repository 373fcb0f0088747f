import Rellm.Cache.Placed
import Rellm.Foundation.Run

/-!
# The cache is confined and faithful

Everything that the cache makes for an object is at a place of that object, so all of it is in the
temp directory. Its file is its own, and removing the files of its other versions leaves those of
other uploads and of other copies. This needs filenames that stay in the directory that their id
starts, and keys that are put once.
-/

namespace Rellm.Cache

open Foundation Media

/-- Objects of different uploads, or of different conversions of one. -/
def OtherCopy (object other : StoredObject) : Prop :=
  other.original ≠ object.original ∨ other.conversion ≠ object.conversion

/-- What the cache does for an object leaves what it has of others. -/
structure Leaves (object : StoredObject) (cache cache' : MediaCache) : Prop where
  sound : Sound cache'
  tempdir : cache'.tempdir = cache.tempdir
  objects : cache'.objects = cache.objects
  kept : ∀ other ∈ cache.objects.rows, OtherCopy object other →
    ∀ extension, extension = .file ∨ extension = .hls → ∀ entry,
      cache.entry (cache.tempdir ++ other.place extension) = some entry →
      cache'.entry (cache.tempdir ++ other.place extension) = some entry

/-- A statement that the cache runs for an object in a sound state leaves what it has of others. -/
def Keeps (object : StoredObject) (cache cache' : MediaCache) : Prop :=
  Sound cache → object ∈ cache.objects.rows → Leaves object cache cache'

section Statements

variable {object : StoredObject} {cache cache' cache'' : MediaCache}

theorem OtherCopy.ne {other : StoredObject} (h : OtherCopy object other) : other ≠ object := by
  rintro rfl
  rcases h with h | h <;> exact h rfl

theorem keeps_refl (cache : MediaCache) : Keeps object cache cache := fun hsound _ =>
  ⟨hsound, rfl, rfl, fun _ _ _ _ _ _ hentry => hentry⟩

theorem keeps_trans (cache cache' cache'' : MediaCache) (h : Keeps object cache cache')
    (h' : Keeps object cache' cache'') : Keeps object cache cache'' := by
  intro hsound hobject
  have hfirst := h hsound hobject
  have hsecond := h' hfirst.sound (hfirst.objects ▸ hobject)
  refine ⟨hsecond.sound, hsecond.tempdir.trans hfirst.tempdir,
    hsecond.objects.trans hfirst.objects, ?_⟩
  intro other hother hcopy extension hfinal entry hentry
  have hkept := hfirst.kept other hother hcopy extension hfinal entry hentry
  rw [← hfirst.tempdir] at hkept ⊢
  exact hsecond.kept other (hfirst.objects ▸ hother) hcopy extension hfinal entry hkept

/-- What is written in a place of the object is not in one of another. -/
theorem ne_place (hsound : Sound cache) (hobject : object ∈ cache.objects.rows)
    {other : StoredObject} (hother : other ∈ cache.objects.rows) (hcopy : OtherCopy object other)
    {extension extension' : Extension} (hfinal : extension = .file ∨ extension = .hls) :
    cache.tempdir ++ other.place extension ≠ cache.tempdir ++ object.place extension' := fun heq =>
  hcopy.ne (hsound.separate.eq_of_place hother hobject hfinal (List.append_cancel_left heq)).1

theorem keeps_write {extension : Extension} {entry : Entry}
    (hentry : extension = .file → entry = .file object.content) :
    Keeps object cache (cache.write (cache.tempdir ++ object.place extension) entry) := by
  intro hsound hobject
  refine ⟨hsound.write (.place hobject hentry), rfl, rfl, ?_⟩
  intro other hother hcopy extension' hfinal entry' hentry'
  rw [MediaCache.entry_write, if_neg (ne_place hsound hobject hother hcopy hfinal)]
  exact hentry'

theorem keeps_create {extension : Extension} {entry : Entry}
    (hentry : extension = .file → entry = .file object.content) :
    Keeps object cache (cache.create (cache.tempdir ++ object.place extension) entry) := by
  intro hsound hobject
  refine ⟨hsound.create (.place hobject hentry), rfl, rfl, ?_⟩
  intro other hother hcopy extension' hfinal entry' hentry'
  rw [MediaCache.entry_create, if_neg (ne_place hsound hobject hother hcopy hfinal)]
  exact hentry'

/-- A removal that does not hit what the cache has of others. -/
theorem keeps_remove {p : Location → Entry → Bool}
    (hp : Sound cache → object ∈ cache.objects.rows → ∀ other ∈ cache.objects.rows,
      OtherCopy object other → ∀ extension, extension = .file ∨ extension = .hls → ∀ entry,
      cache.entry (cache.tempdir ++ other.place extension) = some entry →
      p (cache.tempdir ++ other.place extension) entry = false) :
    Keeps object cache (cache.remove p) := by
  intro hsound hobject
  refine ⟨hsound.remove p, rfl, rfl, ?_⟩
  intro other hother hcopy extension hfinal entry hentry
  rw [MediaCache.entry_remove, hentry, Option.filter_some,
    hp hsound hobject other hother hcopy extension hfinal entry hentry]
  rfl

end Statements

/-- The directories of an object's key, and the one in which its segments are made. -/
def OwnDirectory (object : StoredObject) (tempdir location : Location) : Prop :=
  (∃ visited ∈ ["user".toList] :: object.original.folderLocation :: object.original.passed,
    location = tempdir ++ visited) ∨
  ∃ id, location = tempdir ++ object.place (.segmenting id)

theorem OwnDirectory.placed {object : StoredObject} {objects : Table StoredObject.path}
    {tempdir location : Location} (h : OwnDirectory object tempdir location)
    (hobject : object ∈ objects.rows) : Placed tempdir objects location .directory := by
  rcases h with ⟨visited, hvisited, rfl⟩ | ⟨id, rfl⟩
  · exact .directory hobject hvisited
  · exact .place hobject nofun

section Programs

variable {object : StoredObject}

theorem ownDirectory_dropLast (htame : object.original.Tame) (extension : Extension)
    {tempdir location : Location}
    (hmem : location ∈ passed tempdir (localPath object.path extension).dropLast) :
    OwnDirectory object tempdir location := by
  rw [StoredObject.passed_dropLast htame] at hmem
  left
  rcases List.mem_cons.mp hmem with rfl | hmem
  · exact ⟨_, List.mem_cons_self, rfl⟩
  · rcases List.mem_cons.mp hmem with rfl | hmem
    · exact ⟨_, List.mem_cons_of_mem _ List.mem_cons_self, rfl⟩
    · obtain ⟨visited, hvisited, rfl⟩ := List.mem_map.mp hmem
      exact ⟨visited, List.mem_cons_of_mem _ (List.mem_cons_of_mem _ hvisited), rfl⟩

theorem ownDirectory_segmenting (htame : object.original.Tame) {id : Uuid}
    {tempdir location : Location}
    (hmem : location ∈ passed tempdir (localPath object.path (.segmenting id))) :
    OwnDirectory object tempdir location := by
  rw [StoredObject.passed_localPath htame] at hmem
  rcases List.mem_append.mp hmem with hmem | hmem
  · exact ownDirectory_dropLast htame _ hmem
  · exact .inr ⟨id, List.mem_singleton.mp hmem⟩

theorem keeps_createDirectory {cache : MediaCache} {location : Location}
    (hown : OwnDirectory object cache.tempdir location) :
    Keeps object cache (finalState (MediaCache.createDirectory location cache)) := by
  rw [MediaCache.createDirectory]
  split
  · exact keeps_refl cache
  · split
    · exact keeps_refl cache
    · rename_i hnone
      intro hsound hobject
      refine ⟨hsound.create (hown.placed hobject), rfl, rfl, ?_⟩
      intro other hother hcopy extension hfinal entry hentry
      rw [finalState_ok, MediaCache.entry_create, if_neg]
      · exact hentry
      · rintro rfl
        rw [hentry] at hnone
        exact hnone rfl

/-- Directories of an object are made. -/
theorem keeps_createDirAll {directories : List Name} {cache : MediaCache}
    (hown : object.original.Tame → ∀ location ∈ passed cache.tempdir directories,
      OwnDirectory object cache.tempdir location) :
    Keeps object cache (finalState (MediaCache.createDirAll directories cache)) := by
  intro hsound hobject
  have htame := hsound.separate.tame object hobject
  have hrefl (s : MediaCache) : Sound s → object ∈ s.objects.rows → s.tempdir = cache.tempdir →
      Leaves object s s := fun hs ho _ => keeps_refl s hs ho
  have htrans (s s' s'' : MediaCache)
      (h : Sound s → object ∈ s.objects.rows → s.tempdir = cache.tempdir → Leaves object s s')
      (h' : Sound s' → object ∈ s'.objects.rows → s'.tempdir = cache.tempdir →
        Leaves object s' s'') :
      Sound s → object ∈ s.objects.rows → s.tempdir = cache.tempdir → Leaves object s s'' := by
    intro hs ho ht
    have hfirst := h hs ho ht
    exact keeps_trans s s' s'' (fun _ _ => hfirst)
      (fun hs' ho' => h' hs' ho' (hfirst.tempdir.trans ht)) hs ho
  refine Within.forM hrefl htrans ?_ cache hsound hobject rfl
  intro location hmem s hs ho ht
  have hownHere := hown htame location hmem
  rw [← ht] at hownHere
  exact keeps_createDirectory hownHere hs ho

theorem keeps_createFile {cache : MediaCache} {id : Uuid} {content : List UInt8} :
    Keeps object cache (finalState (MediaCache.createFile (localPath object.path (.download id))
      content cache)) := by
  intro hsound hobject
  have htame := hsound.separate.tame object hobject
  rw [MediaCache.createFile, StoredObject.resolve_localPath htame]
  split
  · exact keeps_create nofun hsound hobject
  · exact keeps_refl cache hsound hobject

/-- What was written to one place of an object is moved to another. -/
theorem keeps_moved {cache : MediaCache} {source target : Extension} {entry : Entry}
    (hentry : target = .file → entry = .file object.content) :
    Keeps object cache ((cache.remove fun location _ =>
      location = cache.tempdir ++ object.place source).create
        (cache.tempdir ++ object.place target) entry) := by
  refine keeps_trans _ _ _ (keeps_remove ?_) (keeps_create hentry)
  intro hsound hobject other hother hcopy extension hfinal _ _
  exact decide_eq_false (ne_place hsound hobject hother hcopy hfinal)

/-- A downloaded file is renamed into its place. -/
theorem keeps_rename_file {cache : MediaCache} {id : Uuid}
    (hsource : cache.entry (cache.tempdir ++ object.place (.download id)) =
      some (.file object.content)) :
    Keeps object cache (finalState (MediaCache.rename (localPath object.path (.download id))
      (localPath object.path .file) cache)) := by
  intro hsound hobject
  have htame := hsound.separate.tame object hobject
  rw [MediaCache.rename, StoredObject.resolve_localPath htame, StoredObject.resolve_localPath htame,
    hsource]
  dsimp only
  split
  · exact keeps_refl cache hsound hobject
  · exact keeps_moved (fun _ => rfl) hsound hobject

/-- A directory with new segments is renamed into its place. -/
theorem keeps_rename_segments {cache : MediaCache} {id : Uuid} {rendition : List UInt8}
    (hsource : cache.entry (cache.tempdir ++ object.place (.segmenting id)) =
      some (.segments rendition)) :
    Keeps object cache (finalState (MediaCache.rename (localPath object.path (.segmenting id))
      (localPath object.path .hls) cache)) := by
  intro hsound hobject
  have htame := hsound.separate.tame object hobject
  rw [MediaCache.rename, StoredObject.resolve_localPath htame, StoredObject.resolve_localPath htame,
    hsource]
  dsimp only
  split
  · exact keeps_refl cache hsound hobject
  · exact keeps_moved nofun hsound hobject

theorem eq_append_of_childName {directory location : Location} {name : Name}
    (h : childName directory location = some name) : location = directory ++ [name] := by
  rw [childName] at h
  split at h
  · rename_i hdirectory
    rw [← hdirectory, List.dropLast_append_getLast? name h]
  · cases h

/-- Only files of the object itself are removed as files of its other versions. -/
theorem keeps_evictSupersededCacheFiles {cache : MediaCache} :
    Keeps object cache (MediaCache.evictSupersededCacheFiles object.path cache) := by
  rw [MediaCache.evictSupersededCacheFiles]
  cases hbase : objectPathVersionBase object.path with
  | none => exact keeps_refl cache
  | some base =>
    refine keeps_remove ?_
    intro hsound hobject other hother hcopy extension hfinal entry hentry
    rw [StoredObject.resolve_dropLast (hsound.separate.tame object hobject)]
    by_contra hremoved
    rw [Bool.not_eq_false, Bool.and_eq_true, Option.any_eq_true] at hremoved
    obtain ⟨_, name, hchild, hname⟩ := hremoved
    rw [Bool.and_eq_true] at hname
    have hlocation := eq_append_of_childName hchild
    rw [List.append_assoc, List.append_cancel_left_eq] at hlocation
    obtain ⟨horiginal, hconversion⟩ := hsound.separate.conversion_eq_of_isVersionOf hobject hother
      (.inl rfl) hbase hname.2 (by rw [hlocation])
    exact hcopy.elim (fun hne => hne horiginal.symm) fun hne => hne hconversion.symm

/-- Only directories of the object itself are removed as those of its other versions. -/
theorem keeps_evictSupersededHlsDirs {cache : MediaCache} :
    Keeps object cache (MediaCache.evictSupersededHlsDirs object.path cache) := by
  rw [MediaCache.evictSupersededHlsDirs]
  cases hbase : objectPathVersionBase object.path with
  | none => exact keeps_refl cache
  | some base =>
    refine keeps_remove ?_
    intro hsound hobject other hother hcopy extension hfinal entry hentry
    by_contra hremoved
    rw [Bool.not_eq_false, List.any_eq_true] at hremoved
    obtain ⟨row, hrow, hstarts⟩ := hremoved
    rw [List.mem_filter, Bool.and_eq_true, Option.any_eq_true,
      StoredObject.resolve_dropLast (hsound.separate.tame object hobject)] at hrow
    obtain ⟨_, _, name, hchild, hname⟩ := hrow
    rw [Bool.and_eq_true] at hname
    have hstarts := of_decide_eq_true hstarts
    rw [eq_append_of_childName hchild, List.append_assoc, List.prefix_append_right_inj] at hstarts
    obtain ⟨horiginal, hconversion⟩ := hsound.separate.conversion_eq_of_isVersionOf hobject hother
      (.inr rfl) hbase hname.2 hstarts
    exact hcopy.elim (fun hne => hne horiginal.symm) fun hne => hne hconversion.symm

/-- A directory in which segments were to be made is removed. -/
theorem keeps_removeDirAll {cache : MediaCache} {id : Uuid} :
    Keeps object cache
      (cache.removeDirAll (cache.tempdir ++ object.place (.segmenting id))) := by
  rw [MediaCache.removeDirAll]
  split
  · refine keeps_remove ?_
    intro hsound hobject other hother hcopy extension hfinal _ _
    apply decide_eq_false
    rw [List.prefix_append_right_inj]
    intro hstarts
    have heq := hsound.separate.place_eq_of_starts hobject hother hstarts
    exact ne_place hsound hobject hother hcopy hfinal (by rw [heq])
  · exact keeps_refl cache

/-- What the object storage has is stored as the file of the object. -/
theorem keeps_store {cache : MediaCache} {id : Uuid} :
    Keeps object cache (finalState ((do
      let content ← attempt (MediaCache.getObject object.path)
      modify fun cache => cache.write
        (resolve cache.tempdir (localPath object.path (.download id))) (.file content)
      MediaCache.rename (localPath object.path (.download id)) (localPath object.path .file)
      modify (MediaCache.evictSupersededCacheFiles object.path) : EStateM Status MediaCache Unit)
        cache)) := by
  intro hsound hobject
  refine attempt_bind_invariant (I := Leaves object cache) (keeps_refl cache hsound hobject) ?_
  intro content hcontent
  obtain rfl : content = object.content := by
    rw [MediaCache.getObject, Table.mem_rows_iff.mp hobject] at hcontent
    dsimp only at hcontent
    split at hcontent
    · cases hcontent
    · cases hcontent
      rfl
  rw [modify_bind, StoredObject.resolve_localPath (hsound.separate.tame object hobject)]
  have hwrite : Keeps object cache (cache.write
      (cache.tempdir ++ object.place (.download id)) (.file object.content)) := keeps_write nofun
  refine keeps_trans _ _ _ hwrite ?_ hsound hobject
  refine relates_bind keeps_trans (keeps_rename_file ?_)
    fun _ _ _ => keeps_evictSupersededCacheFiles
  rw [MediaCache.entry_write]
  exact if_pos rfl

theorem keeps_download (id : Uuid) :
    Within (Keeps object) (MediaCache.download object.path id) := by
  intro cache
  refine relates_bind keeps_trans
    (keeps_createDirAll fun htame _ => ownDirectory_dropLast htame .file) fun _ _ _ => ?_
  exact relates_bind keeps_trans keeps_createFile fun _ _ _ => keeps_store

theorem keeps_ensureCached (id : Uuid) :
    Within (Keeps object) (MediaCache.ensureCached object.path id) := by
  intro cache
  rw [MediaCache.ensureCached, get_bind]
  split
  · exact keeps_refl cache
  · exact keeps_download id cache

theorem keeps_attempt {α : Type} (check : MediaCache → Except Status α) :
    Within (Keeps object) (attempt check) := by
  intro cache
  rw [finalState_attempt]
  exact keeps_refl cache

variable (tools : Tools)

theorem keeps_loadMediaFile (contentType : String) (id : Uuid) :
    Within (Keeps object) (MediaCache.loadMediaFile tools object.path contentType id) := by
  refine (keeps_ensureCached id).bind keeps_trans fun _ => ?_
  refine (keeps_attempt _).bind keeps_trans fun _ => ?_
  exact (keeps_attempt _).bind keeps_trans fun _ => .pure keeps_refl _

/-- What is served for an object is its content. -/
theorem loadMediaFile_file {cache cache' : MediaCache} (hsound : Sound cache)
    (hobject : object ∈ cache.objects.rows) {contentType mediaType : String} {id : Uuid}
    {entry : Entry} (h : MediaCache.loadMediaFile tools object.path contentType id cache =
      .ok (mediaType, entry) cache') : entry = .file object.content := by
  rw [MediaCache.loadMediaFile] at h
  obtain ⟨_, cached, hcached, h⟩ := bind_eq_ok.mp h
  obtain ⟨_, typed, htyped, h⟩ := bind_eq_ok.mp h
  obtain ⟨_, rfl⟩ := attempt_eq_ok.mp htyped
  obtain ⟨file, served, hserved, h⟩ := bind_eq_ok.mp h
  obtain ⟨hfile, rfl⟩ := attempt_eq_ok.mp hserved
  cases h
  have hleaves := keeps_ensureCached id cache hsound hobject
  rw [hcached, finalState_ok] at hleaves
  have hobject' : object ∈ cache'.objects.rows := hleaves.objects ▸ hobject
  rw [MediaCache.openNamedFile,
    StoredObject.resolve_localPath (hleaves.sound.separate.tame object hobject')] at hfile
  exact hleaves.sound.file hobject' (okOr_eq_ok.mp hfile)

theorem keeps_rememberProbe {cache : MediaCache} {path : String} {info : StreamInfo} :
    Keeps object cache (MediaCache.rememberProbe path info cache) := fun hsound _ =>
  ⟨⟨hsound.separate, hsound.confined, hsound.placed⟩, rfl, rfl, fun _ _ _ _ _ _ hentry => hentry⟩

theorem keeps_probeCached (id : Uuid) :
    Within (Keeps object) (MediaCache.probeCached tools object.path id) := by
  intro cache
  rw [MediaCache.probeCached, get_bind]
  cases cache.probes.value object.path with
  | some info => exact keeps_refl cache
  | none =>
    refine relates_bind keeps_trans (keeps_loadMediaFile tools "video/mp4" id cache) fun _ _ _ => ?_
    refine relates_bind keeps_trans (keeps_attempt _ _) fun _ _ _ => ?_
    exact keeps_rememberProbe

theorem keeps_segmentInto (file : Entry) (id : Uuid) :
    Within (Keeps object) (MediaCache.segmentInto tools object.path file id) := by
  intro cache
  refine relates_bind keeps_trans
    (keeps_createDirAll fun htame _ => ownDirectory_segmenting htame) fun _ cache' _ => ?_
  intro hsound hobject
  refine attempt_bind_invariant (I := Leaves object cache') (keeps_refl cache' hsound hobject) ?_
  intro rendition _
  rw [modify_bind, StoredObject.resolve_localPath (hsound.separate.tame object hobject)]
  have hwrite : Keeps object cache' (cache'.write
      (cache'.tempdir ++ object.place (.segmenting id)) (.segments rendition)) := keeps_write nofun
  have hentry : (cache'.write (cache'.tempdir ++ object.place (.segmenting id))
      (.segments rendition)).entry (cache'.tempdir ++ object.place (.segmenting id)) =
      some (.segments rendition) := by
    rw [MediaCache.entry_write]
    exact if_pos rfl
  exact keeps_trans _ _ _ hwrite (keeps_rename_segments hentry) hsound hobject

theorem keeps_ensureSegments (ids : SegmentIds) :
    Within (Keeps object) (MediaCache.ensureSegments tools object.path ids) := by
  intro cache
  rw [MediaCache.ensureSegments, get_bind]
  split
  · exact keeps_refl cache
  · refine relates_bind keeps_trans (keeps_probeCached tools ids.probe cache) fun _ _ _ => ?_
    refine relates_bind keeps_trans (keeps_attempt _ _) fun _ _ _ => ?_
    refine relates_bind keeps_trans (keeps_loadMediaFile tools "video/mp4" ids.file _) fun _ _ _ => ?_
    refine relates_bind keeps_trans ?_ fun _ _ _ => keeps_evictSupersededHlsDirs
    refine Within.recover keeps_trans (keeps_segmentInto tools _ ids.segments) (fun _ cache' => ?_) _
    intro hsound hobject
    rw [modify_bind, StoredObject.resolve_localPath (hsound.separate.tame object hobject)]
    exact keeps_removeDirAll hsound hobject

end Programs

/-- The key of the object that a call caches something of. -/
def Action.cached : Action → Option String
  | .loadMediaFile objectStoragePath _ _ => some objectStoragePath
  | .ensureSegments objectStoragePath _ => some objectStoragePath
  | _ => none

/-- Nothing is created outside of the temp directory, what is served for an object is its content,
and what is cached of other uploads and of other copies stays. -/
structure Faithful (tools : Tools) (cache : MediaCache) (action : Action) : Prop where
  confined : ∀ location ∈ (cache.step tools action).created, cache.tempdir <+: location
  served : ∀ path contentType id, action = .loadMediaFile path contentType id →
    ∀ object, cache.objects.get path = some object → ∀ mediaType entry cache',
      MediaCache.loadMediaFile tools path contentType id cache = .ok (mediaType, entry) cache' →
      entry = .file object.content
  kept : ∀ path, action.cached = some path → ∀ object, cache.objects.get path = some object →
    ∀ other ∈ cache.objects.rows, OtherCopy object other →
      ∀ extension, extension = .file ∨ extension = .hls → ∀ entry,
        cache.entry (resolve cache.tempdir (localPath other.path extension)) = some entry →
        (cache.step tools action).entry (resolve cache.tempdir (localPath other.path extension)) =
          some entry

/-- The ids of uploads are new. -/
def NewId (cache : MediaCache) : Action → Prop
  | .createMedia upload _ _ => ∀ object ∈ cache.objects.rows, object.original.uuid ≠ upload.uuid
  | _ => True

/-- Filenames stay in their directory, and the clock has moved on since a key was used. -/
def StaysApart (cache : MediaCache) : Action → Prop
  | .createMedia upload _ _ => ∀ original, upload.original = some original → original.Tame
  | .convert originalPath conversion nowMs _ =>
    cache.objects.get (derivedObjectPath originalPath conversion.key nowMs) = none
  | .retag objectStoragePath nowMs _ =>
    cache.objects.get (versionedObjectPath objectStoragePath nowMs) = none
  | _ => True

theorem Upload.uuid_original {upload : Upload} {original : Original}
    (h : upload.original = some original) : original.uuid = upload.uuid := by
  rw [Upload.original] at h
  split at h
  · cases h
  · cases h
    rfl

section Steps

variable {tools : Tools} {cache : MediaCache} (hsound : Sound cache)

include hsound

/-- An upload under a new id has a new key. -/
theorem sound_createMedia {original : Original} (htame : original.Tame)
    (hnew : ∀ object ∈ cache.objects.rows, object.original.uuid ≠ original.uuid)
    (content : List UInt8) (deleted : Bool) :
    Sound (cache.putObject (.uploaded original content deleted)) := by
  refine hsound.putObject htame (fun other hother huuid => absurd huuid (hnew other hother)) ?_
  intro other hother hpath
  refine hnew other hother ?_
  have hplace : other.place .file = (StoredObject.uploaded original content deleted).place .file := by
    have hother' := StoredObject.resolve_localPath (hsound.separate.tame other hother) .file []
    have huploaded : resolve []
        (localPath (StoredObject.uploaded original content deleted).path .file) =
        [] ++ (StoredObject.uploaded original content deleted).place .file :=
      StoredObject.resolve_localPath htame .file []
    rw [hpath] at hother'
    exact hother'.symm.trans huploaded
  have hmarked := (hsound.separate.tame other hother).marked_file
    (other.suffix ++ Extension.file.text)
  rw [← StoredObject.place, hplace] at hmarked
  exact hmarked.eq (htame.marked_file _)

/-- A new copy of an upload goes to its other copies. -/
theorem sound_putCopy {object copy : StoredObject} (hobject : object ∈ cache.objects.rows)
    (horiginal : copy.original = object.original) (hnew : cache.objects.get copy.path = none) :
    Sound (cache.putObject copy) := by
  refine hsound.putObject ?_ ?_ (Table.get_eq_none_iff.mp hnew)
  · rw [horiginal]
    exact hsound.separate.tame object hobject
  · intro other hother huuid
    rw [horiginal] at huuid ⊢
    exact hsound.separate.own other hother object hobject huuid

/-- Every call leaves a sound state. -/
theorem sound_step {action : Action} (hnew : NewId cache action)
    (hcondition : StaysApart cache action) :
    Sound (cache.step tools action) ∧ (cache.step tools action).tempdir = cache.tempdir := by
  cases action with
  | createMedia upload content withinLimits =>
    rw [MediaCache.step]
    cases horiginal : upload.original with
    | none => exact ⟨hsound, rfl⟩
    | some original =>
      refine ⟨sound_createMedia hsound (hcondition original horiginal) ?_ _ _, rfl⟩
      rw [Upload.uuid_original horiginal]
      exact hnew
  | convert originalPath conversion nowMs content =>
    rw [MediaCache.step]
    cases hget : cache.objects.get originalPath with
    | none => exact ⟨hsound, rfl⟩
    | some object =>
      dsimp only
      split
      · obtain ⟨hobject, rfl⟩ := Table.get_eq_some_iff.mp hget
        exact ⟨sound_putCopy hsound hobject rfl hcondition, rfl⟩
      · exact ⟨hsound, rfl⟩
  | retag objectStoragePath nowMs content =>
    rw [MediaCache.step]
    cases hget : cache.objects.get objectStoragePath with
    | none => exact ⟨hsound, rfl⟩
    | some object =>
      dsimp only
      split
      · obtain ⟨hobject, rfl⟩ := Table.get_eq_some_iff.mp hget
        exact ⟨sound_putCopy hsound hobject rfl hcondition, rfl⟩
      · exact ⟨hsound, rfl⟩
  | deleteObject objectStoragePath => exact ⟨hsound.deleteObject _, rfl⟩
  | loadMediaFile objectStoragePath contentType id =>
    rw [MediaCache.step]
    split
    · rename_i hsome
      obtain ⟨object, hget⟩ := Option.isSome_iff_exists.mp hsome
      obtain ⟨hobject, rfl⟩ := Table.get_eq_some_iff.mp hget
      have hleaves := keeps_loadMediaFile tools contentType id cache hsound hobject
      exact ⟨hleaves.sound, hleaves.tempdir⟩
    · exact ⟨hsound, rfl⟩
  | ensureSegments objectStoragePath ids =>
    rw [MediaCache.step]
    split
    · rename_i hsome
      obtain ⟨object, hget⟩ := Option.isSome_iff_exists.mp hsome
      obtain ⟨hobject, rfl⟩ := Table.get_eq_some_iff.mp hget
      have hleaves := keeps_ensureSegments tools ids cache hsound hobject
      exact ⟨hleaves.sound, hleaves.tempdir⟩
    · exact ⟨hsound, rfl⟩

/-- A call for an object leaves what is cached of others. -/
theorem leaves_step {object : StoredObject} (hobject : object ∈ cache.objects.rows) {action : Action}
    (hcached : action.cached = some object.path) :
    Leaves object cache (cache.step tools action) := by
  have hsome : (cache.objects.get object.path).isSome := by
    rw [Table.mem_rows_iff.mp hobject]
    rfl
  cases action with
  | createMedia _ _ _ => cases hcached
  | convert _ _ _ _ => cases hcached
  | retag _ _ _ => cases hcached
  | deleteObject _ => cases hcached
  | loadMediaFile objectStoragePath contentType id =>
    obtain rfl : objectStoragePath = object.path := Option.some.inj hcached
    rw [MediaCache.step, if_pos hsome]
    exact keeps_loadMediaFile tools contentType id cache hsound hobject
  | ensureSegments objectStoragePath ids =>
    obtain rfl : objectStoragePath = object.path := Option.some.inj hcached
    rw [MediaCache.step, if_pos hsome]
    exact keeps_ensureSegments tools ids cache hsound hobject

theorem faithful_step {action : Action} (hnew : NewId cache action)
    (hcondition : StaysApart cache action) : Faithful tools cache action where
  confined := by
    obtain ⟨hsound', htempdir⟩ : Sound (cache.step tools action) ∧
        (cache.step tools action).tempdir = cache.tempdir := sound_step hsound hnew hcondition
    rw [← htempdir]
    exact hsound'.confined
  served := by
    rintro path contentType id rfl object hget mediaType entry cache' hload
    obtain ⟨hobject, rfl⟩ := Table.get_eq_some_iff.mp hget
    exact loadMediaFile_file tools hsound hobject hload
  kept := by
    intro path hcached object hget other hother hcopy extension hfinal entry hentry
    obtain ⟨hobject, rfl⟩ := Table.get_eq_some_iff.mp hget
    rw [StoredObject.resolve_localPath (hsound.separate.tame other hother)] at hentry ⊢
    exact (leaves_step hsound hobject hcached).kept other hother hcopy extension hfinal entry hentry

end Steps

/-- A cache whose uploads keep to their directories, and whose keys are put once, is confined and
faithful in every run. -/
theorem cache_confined_faithful (tools : Tools) (tempdir : Location) (disk : HashMap Location Entry)
    (actions : List Action)
    (hnew : Along (MediaCache.step tools) NewId (.start tempdir disk) actions)
    (hcondition : Along (MediaCache.step tools) StaysApart (.start tempdir disk) actions) :
    Along (MediaCache.step tools) (Faithful tools) (.start tempdir disk) actions := by
  refine Along.of_invariant (I := Sound) ?_ (sound_start tempdir disk)
    (along_and.mpr ⟨hnew, hcondition⟩)
  rintro cache action hsound ⟨hnew, hcondition⟩
  exact ⟨faithful_step hsound hnew hcondition, (sound_step hsound hnew hcondition).1⟩

def firstId : Uuid where
  text := "00000000-0000-4000-8000-000000000001".toList
  length_eq := by decide +kernel
  allowed := by
    intro c hc
    have hall : ("00000000-0000-4000-8000-000000000001".toList.all
        fun c => c.isAlphanum || c == '-') = true := by decide +kernel
    simpa using List.all_eq_true.mp hall c hc

def plainTools : Tools where
  mediaType := some
  probe := fun _ => some ⟨"h264", 320, 180⟩
  segmentVideo
    | .file content => some content
    | _ => none

def annasVideo : Upload where
  userId := 1
  host := "example.com".toList
  username := "anna".toList
  uuid := firstId
  filename := "cat.mp4".toList
  host_noSlash := by decide +kernel
  username_noSlash := by decide +kernel

def annasKey : String := "user/CruFm@example.com-anna/00000000-0000-4000-8000-000000000001-cat.mp4"

theorem cache_confined_faithful_annasVideo :
    Along (MediaCache.step plainTools) (Faithful plainTools) (.start [['t', 'm', 'p']] .empty)
      [.createMedia annasVideo [1] true, .convert annasKey .small 1234567890123 [2],
        .loadMediaFile annasKey "video/mp4" firstId,
        .ensureSegments (annasKey ++ ".small.1234567890123") ⟨firstId, firstId, firstId⟩] := by
  have htame (original : Original) (h : annasVideo.original = some original) : original.Tame := by
    apply Original.tame_of_noSlash
    have hfilename : original.filename = annasVideo.filename := by
      rw [Upload.original] at h
      split at h
      · cases h
      · cases h
        rfl
    rw [hfilename]
    decide +kernel
  refine cache_confined_faithful plainTools _ .empty _ ⟨nofun, trivial, trivial, trivial, trivial⟩
    ⟨htame, ?_, trivial, trivial, trivial⟩
  have hnone : (((MediaCache.start [['t', 'm', 'p']] .empty).step plainTools
      (.createMedia annasVideo [1] true)).objects.get
        (derivedObjectPath annasKey MediaConversion.small.key 1234567890123)).isNone = true := by
    decide +kernel
  exact Option.isNone_iff_eq_none.mp hnone

def climbingVideo : Upload where
  userId := 1
  host := "example.com".toList
  username := "anna".toList
  uuid := firstId
  filename := "/../../../../cat.mp4".toList
  host_noSlash := by decide +kernel
  username_noSlash := by decide +kernel

def climbingKey : String :=
  "user/CruFm@example.com-anna/00000000-0000-4000-8000-000000000001-/../../../../cat.mp4"

/-- A filename may lead out of the temp directory. -/
theorem cache_leaves_tempdir : ¬ ∀ (tools : Tools) (tempdir : Location)
    (disk : HashMap Location Entry) (actions : List Action),
    Along (MediaCache.step tools) NewId (.start tempdir disk) actions →
    Along (MediaCache.step tools) (Faithful tools) (.start tempdir disk) actions := by
  intro h
  have hfaithful := h plainTools [['t', 'm', 'p'], ['r']] .empty
    [.createMedia climbingVideo [1] true, .loadMediaFile climbingKey "video/mp4" firstId]
    ⟨nofun, trivial, trivial⟩
  have hcreated : ¬ ∀ location ∈ (((MediaCache.start [['t', 'm', 'p'], ['r']] .empty).step plainTools
      (.createMedia climbingVideo [1] true)).step plainTools
        (.loadMediaFile climbingKey "video/mp4" firstId)).created,
      [['t', 'm', 'p'], ['r']] <+: location := by
    decide +kernel
  exact hcreated hfaithful.2.1.confined

end Rellm.Cache
