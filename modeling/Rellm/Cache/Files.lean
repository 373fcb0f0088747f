import Rellm.Cache.Keys
import Rellm.Foundation.Checks
import Rellm.Foundation.Statements
import Rellm.Foundation.Table

/-!
# The cache of media files

The web server keeps the objects that it serves in its temp directory, under their keys. An object is
downloaded next to its place and renamed into it; after that, the files of other versions of the
object are removed. Renditions are segmented from the cached file, in the same way, into a directory
of their own. The calls come one after the other, between uploads, conversions and deletions.
-/

namespace Rellm.Cache

open Foundation Media

/-- An object of the object storage, with what was put under its key last. -/
structure StoredObject where
  path : String
  original : Original
  conversion : MediaConversion
  content : List UInt8
  deleted : Bool
  named : ∃ suffix, CopySuffix conversion suffix ∧
    path.toList = original.path.toList ++ suffix

namespace StoredObject

def uploaded (original : Original) (content : List UInt8) (deleted : Bool) : StoredObject where
  path := original.path
  original := original
  conversion := .original
  content := content
  deleted := deleted
  named := ⟨[], copySuffix_original, (List.append_nil _).symm⟩

/-- A copy that is made of an upload. -/
def converted (object : StoredObject) (horiginal : object.conversion = .original)
    {conversion : MediaConversion} (hne : conversion ≠ .original) (nowMs : Nat)
    (content : List UInt8) : StoredObject where
  path := derivedObjectPath object.path conversion.key nowMs
  original := object.original
  conversion := conversion
  content := content
  deleted := false
  named := by
    obtain ⟨suffix, hsuffix, hpath⟩ := object.named
    rw [horiginal, CopySuffix, if_pos rfl] at hsuffix
    rw [hsuffix, List.append_nil] at hpath
    exact CopySuffix.derivedObjectPath hne hpath nowMs

/-- A copy under its new tags. -/
def retagged (object : StoredObject) (hne : object.conversion ≠ .original) (nowMs : Nat)
    (content : List UInt8) : StoredObject where
  path := versionedObjectPath object.path nowMs
  original := object.original
  conversion := object.conversion
  content := content
  deleted := false
  named := by
    obtain ⟨suffix, hsuffix, hpath⟩ := object.named
    exact hsuffix.versionedObjectPath hne hpath nowMs

end StoredObject

/-- What is at a location: a directory, a file, or the directory with the playlist and the segments
of a rendition. -/
inductive Entry where
  | directory
  | file (content : List UInt8)
  | segments (rendition : List UInt8)
  deriving DecidableEq, Repr

def Entry.isDirectory : Entry → Bool
  | .directory | .segments _ => true
  | .file _ => false

inductive Status where
  | notFound
  | imATeapot
  | expectationFailed
  | internalServerError
  deriving DecidableEq, Repr

/-- What the probe of a file finds of its video stream. -/
structure StreamInfo where
  codec : String
  width : UInt32
  height : UInt32
  deriving DecidableEq, Repr

def StreamInfo.isStreamable (info : StreamInfo) : Bool :=
  info.codec == "h264" && 0 < info.width && 0 < info.height

/-- What is used of other programs: the types of media, and the tools for video. -/
structure Tools where
  mediaType : String → Option String
  probe : Entry → Option StreamInfo
  segmentVideo : Entry → Option (List UInt8)

/-- The object storage, the disk of the server with its temp directory, what was created on it, and
the probed renditions. -/
structure MediaCache where
  tempdir : Location
  objects : Table StoredObject.path
  disk : HashMap Location Entry
  created : List Location
  probes : HashMap String StreamInfo

/-- The server starts with an empty temp directory. -/
def MediaCache.start (tempdir : Location) (disk : HashMap Location Entry) : MediaCache where
  tempdir := tempdir
  objects := .empty
  disk := disk.delete fun row => decide (tempdir <+: row.1)
  created := []
  probes := .empty

namespace MediaCache

variable (cache : MediaCache)

/-- What is at a location. -/
def entry (location : Location) : Option Entry := cache.disk.value location

/-- Whether there is a directory; the temp directory and those that it is in are. -/
def isDirectory (location : Location) : Bool :=
  decide (location <+: cache.tempdir) || (cache.entry location).any Entry.isDirectory

/-- Whether there is anything in a directory. -/
def hasEntries (location : Location) : Bool :=
  decide (location <+: cache.tempdir) || cache.disk.rows.any fun row =>
    decide (location <+: row.1 ∧ row.1 ≠ location) || row.1 == location && !(row.2 == .directory)

/-- A path can be walked if it passes directories only. -/
def walks (directories : List Name) : Bool :=
  (passed cache.tempdir directories).all cache.isDirectory

/-- Whether there is anything where a path leads to. -/
def exists_ (path : List Name) : Bool :=
  let location := resolve cache.tempdir path
  cache.walks path.dropLast && (cache.isDirectory location || (cache.entry location).isSome)

def write (location : Location) (entry : Entry) : MediaCache :=
  { cache with disk := cache.disk.put (location, entry) }

def create (location : Location) (entry : Entry) : MediaCache :=
  { cache.write location entry with created := location :: cache.created }

/-- What satisfies a condition is removed. -/
def remove (p : Location → Entry → Bool) : MediaCache :=
  { cache with disk := cache.disk.delete fun row => p row.1 row.2 }

/-- A directory is removed with all that is in it. -/
def removeDirAll (location : Location) : MediaCache :=
  if (cache.entry location).any Entry.isDirectory then
    cache.remove fun other _ => decide (location <+: other)
  else cache

end MediaCache

/-- The name of what is in a directory. -/
def childName (directory location : Location) : Option Name :=
  if location.dropLast = directory then location.getLast? else none

/-- Whether a name is that of a version of an object, with an extension after it. -/
def isVersionOf (extension name baseName : Name) : Bool :=
  match (baseName.isPrefixOf? name).bind fun rest => extension.isSuffixOf? rest with
  | none => false
  | some rest => rest.isEmpty ||
      rest.head? == some '.' && isVersionSuffix (String.ofList rest.tail)

def isSupersededVersionOf (fileName baseName : Name) : Bool :=
  isVersionOf ".mediafile".toList fileName baseName

def isSupersededHlsDir (dirName baseName : Name) : Bool :=
  isVersionOf ".hls".toList dirName baseName

/-- The paths that the cache uses for an object, from the temp directory on. -/
inductive Extension where
  | file
  | download (id : Uuid)
  | hls
  | segmenting (id : Uuid)

def Extension.text : Extension → List Char
  | .file => ".mediafile".toList
  | .download id => ".mediafile-download-".toList ++ id.text
  | .hls => ".hls".toList
  | .segmenting id => ".hls.tmp-".toList ++ id.text

/-- The names of the path with an extension. -/
def localPath (objectStoragePath : String) (extension : Extension) : List Name :=
  names (objectStoragePath.toList ++ extension.text)

/-- The ids that a call draws for the files of a probe and of the rendition, and for the segments. -/
structure SegmentIds where
  probe : Uuid
  file : Uuid
  segments : Uuid

namespace MediaCache

/-- A directory is made, if there is not one already. -/
def createDirectory (location : Location) : EStateM Status MediaCache Unit := fun cache =>
  if cache.isDirectory location then .ok () cache
  else if (cache.entry location).isSome then .error .internalServerError cache
  else .ok () (cache.create location .directory)

/-- The directories of a path are made, from the first on. -/
def createDirAll (directories : List Name) : EStateM Status MediaCache Unit := fun cache =>
  ((passed cache.tempdir directories).forM createDirectory) cache

/-- A file is made in a directory that is there. -/
def createFile (path : List Name) (content : List UInt8) : EStateM Status MediaCache Unit := fun cache =>
  let location := resolve cache.tempdir path
  if cache.walks path.dropLast ∧ cache.isDirectory location = false then
    .ok () (cache.create location (.file content))
  else .error .internalServerError cache

/-- A file or a directory of segments is renamed: a file in the place of a file, a directory in that
of an empty directory. -/
def rename (source target : List Name) : EStateM Status MediaCache Unit := fun cache =>
  let source := resolve cache.tempdir source
  let target := resolve cache.tempdir target
  let moved (entry : Entry) :=
    (cache.remove fun location _ => location = source).create target entry
  match cache.entry source with
  | some (.file content) =>
    if cache.isDirectory target then .error .internalServerError cache
    else .ok () (moved (.file content))
  | some (.segments rendition) =>
    if cache.isDirectory target = false ∧ (cache.entry target).isSome ∨ cache.hasEntries target then
      .error .internalServerError cache
    else .ok () (moved (.segments rendition))
  | _ => .error .internalServerError cache

/-- What the object storage has under a key. -/
def getObject (objectStoragePath : String) (cache : MediaCache) : Except Status (List UInt8) :=
  match cache.objects.get objectStoragePath with
  | some object => if object.deleted then .error .internalServerError else .ok object.content
  | none => .error .internalServerError

/-- The cached files of other versions of an object are removed. -/
def evictSupersededCacheFiles (objectStoragePath : String) (cache : MediaCache) : MediaCache :=
  match objectPathVersionBase objectStoragePath with
  | none => cache
  | some base =>
    let path := localPath objectStoragePath .file
    let ownName := path.getLast?
    cache.remove fun location entry =>
      !entry.isDirectory && (childName (resolve cache.tempdir path.dropLast) location).any fun name =>
        some name ≠ ownName && isSupersededVersionOf name (fileName base.toList)

/-- The directories of the segments of other versions of a rendition are removed. -/
def evictSupersededHlsDirs (objectStoragePath : String) (cache : MediaCache) : MediaCache :=
  match objectPathVersionBase objectStoragePath with
  | none => cache
  | some base =>
    let path := localPath objectStoragePath .hls
    let ownName := path.getLast?
    let superseded := cache.disk.rows.filter fun row =>
      row.2.isDirectory && (childName (resolve cache.tempdir path.dropLast) row.1).any fun name =>
        some name ≠ ownName && isSupersededHlsDir name (fileName base.toList)
    cache.remove fun location _ => superseded.any fun row => decide (row.1 <+: location)

/-- An object is downloaded, and its file renamed into its place. -/
def download (objectStoragePath : String) (id : Uuid) : EStateM Status MediaCache Unit := do
  let path := localPath objectStoragePath .file
  let temporary := localPath objectStoragePath (.download id)
  createDirAll path.dropLast
  createFile temporary []
  let content ← attempt (getObject objectStoragePath)
  modify fun cache => cache.write (resolve cache.tempdir temporary) (.file content)
  rename temporary path
  modify (evictSupersededCacheFiles objectStoragePath)

/-- An object is downloaded unless it is cached. -/
def ensureCached (objectStoragePath : String) (id : Uuid) : EStateM Status MediaCache Unit := do
  let cache ← get
  if cache.exists_ (localPath objectStoragePath .file) then return ()
  else download objectStoragePath id

def openNamedFile (path : List Name) (cache : MediaCache) : Except Status Entry :=
  okOr (cache.entry (resolve cache.tempdir path)) .imATeapot

variable (tools : Tools)

/-- The cached file of an object, with its type. -/
def loadMediaFile (objectStoragePath contentType : String) (id : Uuid) :
    EStateM Status MediaCache (String × Entry) := do
  ensureCached objectStoragePath id
  let mediaType ← attempt fun _ => okOr (tools.mediaType contentType) .expectationFailed
  let file ← attempt (openNamedFile (localPath objectStoragePath .file))
  return (mediaType, file)

/-- What a probe found is kept; a full map of probes is cleared first. -/
def rememberProbe (objectStoragePath : String) (info : StreamInfo) (cache : MediaCache) : MediaCache :=
  let probes := if 1024 ≤ cache.probes.rows.length then .empty else cache.probes
  { cache with probes := probes.put (objectStoragePath, info) }

def probeCached (objectStoragePath : String) (id : Uuid) : EStateM Status MediaCache StreamInfo := do
  let cache ← get
  match cache.probes.value objectStoragePath with
  | some info => return info
  | none =>
    let (_, file) ← loadMediaFile tools objectStoragePath "video/mp4" id
    let info ← attempt fun _ => okOr (tools.probe file) .internalServerError
    modify (rememberProbe objectStoragePath info)
    return info

/-- Whether a rendition is segmented already. -/
def isSegmented (objectStoragePath : String) (cache : MediaCache) : Bool :=
  let path := localPath objectStoragePath .hls
  cache.walks path.dropLast &&
      (match cache.entry (resolve cache.tempdir path) with
        | some (.segments _) => true
        | _ => false) ||
    cache.exists_ (path ++ ["playlist.m3u8".toList])

/-- The segments of a rendition are made in a new directory, which is renamed into its place. -/
def segmentInto (objectStoragePath : String) (file : Entry) (id : Uuid) :
    EStateM Status MediaCache Unit := do
  let temporary := localPath objectStoragePath (.segmenting id)
  createDirAll temporary
  let rendition ← attempt fun _ => okOr (tools.segmentVideo file) .internalServerError
  modify fun cache => cache.write (resolve cache.tempdir temporary) (.segments rendition)
  rename temporary (localPath objectStoragePath .hls)

def ensureSegments (objectStoragePath : String) (ids : SegmentIds) :
    EStateM Status MediaCache Unit := do
  let cache ← get
  if isSegmented objectStoragePath cache then return ()
  else
    let info ← probeCached tools objectStoragePath ids.probe
    attempt fun _ => require info.isStreamable .notFound
    let (_, file) ← loadMediaFile tools objectStoragePath "video/mp4" ids.file
    recover (segmentInto tools objectStoragePath file ids.segments) fun _ => do
      let temporary := localPath objectStoragePath (.segmenting ids.segments)
      modify fun cache => cache.removeDirAll (resolve cache.tempdir temporary)
      throw .internalServerError
    modify (evictSupersededHlsDirs objectStoragePath)

/-- An object is put into the storage, in place of what had its key. -/
def putObject (cache : MediaCache) (object : StoredObject) : MediaCache :=
  { cache with objects := cache.objects.put object }

def deleteObject (cache : MediaCache) (objectStoragePath : String) : MediaCache :=
  { cache with
    objects := cache.objects.update (fun object => object.path = objectStoragePath)
      (fun object => { object with deleted := true }) fun _ => rfl }

end MediaCache

/-- Uploads, which are deleted at once where they exceed a limit, copies that are made or get new
tags, deletions, and requests for cached files and for segments. -/
inductive Action where
  | createMedia (upload : Upload) (content : List UInt8) (withinLimits : Bool)
  | convert (originalPath : String) (conversion : MediaConversion) (nowMs : Nat)
      (content : List UInt8)
  | retag (objectStoragePath : String) (nowMs : Nat) (content : List UInt8)
  | deleteObject (objectStoragePath : String)
  | loadMediaFile (objectStoragePath contentType : String) (id : Uuid)
  | ensureSegments (objectStoragePath : String) (ids : SegmentIds)

namespace MediaCache

variable (tools : Tools)

/-- What a call leaves. Keys come from the rows of the media, so only those are used that an object
was put under. -/
def step (cache : MediaCache) : Action → MediaCache
  | .createMedia upload content withinLimits =>
    match upload.original with
    | none => cache
    | some original => cache.putObject (.uploaded original content !withinLimits)
  | .convert originalPath conversion nowMs content =>
    match cache.objects.get originalPath with
    | none => cache
    | some object =>
      if h : object.conversion = .original ∧ conversion ≠ .original ∧ object.deleted = false then
        cache.putObject (object.converted h.1 h.2.1 nowMs content)
      else cache
  | .retag objectStoragePath nowMs content =>
    match cache.objects.get objectStoragePath with
    | none => cache
    | some object =>
      if h : object.conversion ≠ .original ∧ object.deleted = false then
        cache.putObject (object.retagged h.1 nowMs content)
      else cache
  | .deleteObject objectStoragePath => cache.deleteObject objectStoragePath
  | .loadMediaFile objectStoragePath contentType id =>
    if (cache.objects.get objectStoragePath).isSome then
      finalState (loadMediaFile tools objectStoragePath contentType id cache)
    else cache
  | .ensureSegments objectStoragePath ids =>
    if (cache.objects.get objectStoragePath).isSome then
      finalState (ensureSegments tools objectStoragePath ids cache)
    else cache

end MediaCache

end Rellm.Cache
