import Rellm.Configuration.StorageUsage
import Rellm.Foundation.Serial
import Rellm.Media.Edits

/-!
# The storage that media take up

The rows of the media beside the counters of what they take up: one for each user, which is summed
anew, and one for the server, which is adjusted. The operations that add, replace or delete copies
come one after the other.
-/

namespace Rellm.Media

open Foundation Content

/-- The columns of a user that say how much storage they have. -/
structure StorageUser where
  id : Nat
  mediaStorageLimitBytes : Option Int64
  mediaStorageBytesUsed : Int
  deriving DecidableEq, Repr

/-- How much the copies of an item take up. -/
def MediaItem.bytes (item : MediaItem) : Int := (item.sizes.map (·.sizeBytes)).sum

/-- How much of an item counts for a user. -/
def MediaItem.bytesOf (userId : Nat) (item : MediaItem) : Int :=
  if item.userId = some userId then item.bytes else 0

/-- How much some copies take up. -/
def totalBytes (sizes : List MediaSize) : Int := (sizes.map (·.sizeBytes)).sum

/-- An item as it is stored over a row, whose id stays. -/
def MediaItem.over (after row : MediaItem) : MediaItem := { after with id := row.id }

theorem MediaItem.over_id (after row : MediaItem) : (after.over row).id = row.id := rfl

theorem MediaItem.over_eq {after row : MediaItem} (h : after.id = row.id) :
    after.over row = after := by
  unfold MediaItem.over
  rw [← h]

theorem nodup_firstId : [1].Nodup := List.nodup_singleton 1

/-- The media, the storage of users, and the active configuration. -/
structure MediaStore where
  media : Serial MediaItem.id
  users : Table StorageUser.id
  config : ServerConfigurationRow

namespace MediaStore

variable (s : MediaStore)

def mediaStorageBytesUsed (userId : Nat) : Int := (s.media.rows.map (MediaItem.bytesOf userId)).sum

def totalMediaBytes : Int := (s.media.rows.map MediaItem.bytes).sum

/-- The media settings as the configuration reports them. -/
def mediaSettings : MediaSettings := normalizedMediaSettings s.config.mediaSettings

/-- The sum for a user is stored. -/
def updateMediaStorageUsed (userId : Nat) : MediaStore :=
  { s with
    users := s.users.update (fun user => user.id = userId)
      (fun user => { user with mediaStorageBytesUsed := s.mediaStorageBytesUsed userId })
      fun _ => rfl }

/-- The counters after the copies of an owner's item changed by some bytes. -/
def account (owner : Option Nat) (deltaBytes : Int) (now : Timestamp) : MediaStore :=
  let summed := (owner.map s.updateMediaStorageUsed).getD s
  { summed with config := adjustServerMediaUsageBytes (Int64.ofInt deltaBytes) now summed.config }

/-- An item is stored in the place of the one with its id. -/
def setItem (item : MediaItem) : MediaStore :=
  { s with media := s.media.modify item.id item.over item.over_id }

def getMedia (id : Nat) : Option MediaItem := s.media.get id

end MediaStore

/-- An upload is cut off at 250 MiB. -/
def maxUploadBytes : Nat := 262144000

/-- What comes with an upload: its name and type, where it is put, and how long the file is. -/
structure UploadRequest where
  filename : String
  contentType : String
  objectStoragePath : String
  length : Nat
  deriving DecidableEq, Repr

/-- How many bytes of an upload are stored. -/
def UploadRequest.uploadedBytes (request : UploadRequest) : Nat :=
  min request.length maxUploadBytes

/-- The row of an upload by a user. -/
def UploadRequest.item (request : UploadRequest) (userId id : Nat) : MediaItem :=
  createMedia {
    id := id
    userId := userId
    filename := request.filename
    contentType := request.contentType
    objectStoragePath := request.objectStoragePath
    uploadedBytes := request.uploadedBytes }

theorem UploadRequest.item_id (request : UploadRequest) (userId id : Nat) :
    (request.item userId id).id = id := rfl

/-- An upload would exceed the limit of its user. -/
def StorageUser.exceeded (user : StorageUser) (uploadedBytes : Nat) : Bool :=
  user.mediaStorageLimitBytes.any fun limit =>
    decide (limit < Int64.ofInt user.mediaStorageBytesUsed + Int64.ofNat uploadedBytes)

/-- An upload would exceed what the server has for media. -/
def allocationExceeded (settings : MediaSettings) (uploadedBytes : Nat) : Bool :=
  decide (settings.serverMediaAllocationBytes.toInt64 <
    settings.serverMediaUsageBytes.toInt64 + Int64.ofNat uploadedBytes)

namespace MediaStore

/-- The row of an upload is stored. -/
def insertMedia (s : MediaStore) (userId : Nat) (request : UploadRequest) : MediaStore :=
  { s with media := s.media.insert (request.item userId) (request.item_id userId) }

end MediaStore

/-- A copy that was not uploaded. -/
def derivedSize (size : MediaSize) : Bool := decide (size.conversion ≠ .original)

/-- A copy of a type that browsers do not play. -/
def quicktimeSize (size : MediaSize) : Bool :=
  derivedSize size && decide (size.contentType = "video/quicktime")

/-- How many bytes a run on an item adds: what the new copies take up, less the ones replaced. -/
def convertedBytes (run : ConversionRun) (item converted : MediaItem) : Int :=
  match item.metadata.retagOnly && decide (1 < item.sizes.length), retagMedia run item with
  | true, .ok _ => converted.bytes - item.bytes
  | _, _ => totalBytes (converted.sizes.drop 1) -
      totalBytes (item.sizes.filter derivedSize)

/-- An operation on the media. The original of an item that is stripped may be gone from the
storage. -/
inductive StoreOp where
  | upload (userId : Nat) (request : UploadRequest)
  | convert (id : Nat) (run : ConversionRun)
  | update (currentUser : Content.User) (request : MediaRequest)
  | deleteSizes (currentUser : Content.User) (request : MediaRequest)
  | delete (currentUser : Content.User) (id : Option Nat)
  | stripDerivedAudio (id : Nat) (originalStored : Bool)
  | stripQuicktime (id : Nat) (originalStored : Bool)

namespace MediaStore

variable (s : MediaStore) (now : Timestamp)

def upload (userId : Nat) (request : UploadRequest) : MediaStore :=
  match s.users.get userId with
  | some user =>
    if user.exceeded request.uploadedBytes ∨
        allocationExceeded s.mediaSettings request.uploadedBytes then s
    else (s.insertMedia userId request).account (some userId) request.uploadedBytes now
  | none => s

/-- The job goes by an item. -/
def convert (item : MediaItem) (run : ConversionRun) : MediaStore :=
  if pendingConversion item then
    match convertMedia run item with
    | .ok converted =>
      (s.setItem converted).account item.userId (convertedBytes run item converted) now
    | .error _ => s
  else s

def update (currentUser : Content.User) (request : MediaRequest) : MediaStore :=
  match updateMedia s.getMedia currentUser request with
  | .ok edit =>
    if edit.removed = [] then s.setItem edit.item
    else (s.setItem edit.item).account edit.item.userId (-totalBytes edit.removed) now
  | .error _ => s

def deleteSizes (currentUser : Content.User) (request : MediaRequest) : MediaStore :=
  match deleteMediaSizes s.getMedia currentUser request with
  | .ok edit => (s.setItem edit.item).account edit.item.userId (-totalBytes edit.removed) now
  | .error _ => s

/-- `DeleteMedia`. -/
def deleteMedia (currentUser : Content.User) (id : Option Nat) : MediaStore :=
  match affectedMedia s.getMedia currentUser id with
  | .ok affected =>
    { s with media := s.media.delete fun item => item.id = affected.id }.account affected.userId
      (-affected.bytes) now
  | .error _ => s

/-- Some copies of an item are stripped, for the job to make anew. -/
def strip (item : MediaItem) (stripped : MediaSize → Bool) : MediaStore :=
  (s.setItem { item with
    sizes := item.sizes.filter fun size => !stripped size
    processed := false }).account item.userId (-totalBytes (item.sizes.filter stripped)) now

def stripDerivedAudioSizes (item : MediaItem) (originalStored : Bool) : MediaStore :=
  if item.original.isSome ∧ originalStored then s.strip now item derivedSize else s

def stripQuicktimeResizedSizes (item : MediaItem) (originalStored : Bool) : MediaStore :=
  if item.original.isSome ∧ originalStored ∧ item.sizes.filter quicktimeSize ≠ [] then
    s.strip now item quicktimeSize
  else s

/-- What an operation leaves. -/
def step (s : MediaStore) : StoreOp × Timestamp → MediaStore
  | (.upload userId request, now) => s.upload now userId request
  | (.convert id run, now) => ((s.getMedia id).map fun item => s.convert now item run).getD s
  | (.update currentUser request, now) => s.update now currentUser request
  | (.deleteSizes currentUser request, now) => s.deleteSizes now currentUser request
  | (.delete currentUser id, now) => s.deleteMedia now currentUser id
  | (.stripDerivedAudio id originalStored, now) =>
    ((s.getMedia id).map fun item => s.stripDerivedAudioSizes now item originalStored).getD s
  | (.stripQuicktime id originalStored, now) =>
    ((s.getMedia id).map fun item => s.stripQuicktimeResizedSizes now item originalStored).getD s

end MediaStore

end Rellm.Media
