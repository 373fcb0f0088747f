import Rellm.Media.Conversion

/-!
# Editing media

The owner or an admin renames an item, changes its visibility and its credits, and deletes some of
its copies. An edit that outdates copies removes them, and the job makes them anew.
-/

namespace Rellm.Media

open Foundation Content

/-- The metadata of a request, whose times are unsigned; the cover art is named by an id, of which
a blank one is none. -/
structure MetadataRequest extends credits : Credits, music : Music where
  videoPreviewTimeMs : Option UInt64 := none
  unlicensedPreviewStartMs : Option UInt64 := none
  unlicensedPreviewEndMs : Option UInt64 := none
  coverArtMediaId : Option (Option Nat) := none
  deriving DecidableEq, Repr

/-- The fields of a request that an edit reads. -/
structure MediaRequest where
  id : Option Nat
  name : Option String := none
  description : Option String := none
  visibility : Visibility := .unknown
  metadata : Option MetadataRequest := none
  sizes : List Int32 := []
  deriving DecidableEq, Repr

/-- What an edit leaves of an item, and the copies it removed. -/
structure MediaEdit where
  item : MediaItem
  removed : List MediaSize
  deriving DecidableEq, Repr

def maxBpm : Rat := 999

def isValidBpm (bpm : Bpm) : Bool := bpm.any fun bpm => decide (0 < bpm ∧ bpm ≤ maxBpm)

def sharpFlatChars : List Char := ['#', 'b', '♯', '♭', '＃', '﹟']

/-- A text without its first character, where that is one of some. -/
def skipIf (p : Char → Bool) : List Char → List Char
  | c :: rest => if p c then rest else c :: rest
  | [] => []

/-- A letter, then an accidental with a selector for its presentation, then the mode. -/
def isValidMusicalKey (key : String) : Bool :=
  match key.toList with
  | letter :: rest =>
    let accidental := rest.head?.any fun c => decide (c ∈ sharpFlatChars)
    let rest := if accidental then skipIf (fun c => c.toNat = 0xFE0F) rest.tail else rest
    decide ('A' ≤ letter ∧ letter ≤ 'G') &&
      (skipIf (fun c => decide (c ∈ ['m', 'M', '-'])) rest).isEmpty
  | [] => false

def blankCredits (credits : Credits) : Credits where
  artist := blankToNone credits.artist
  album := blankToNone credits.album
  composer := blankToNone credits.composer
  director := blankToNone credits.director
  producer := blankToNone credits.producer
  starring := blankToNone credits.starring
  cast := blankToNone credits.cast
  crew := blankToNone credits.crew
  narrator := blankToNone credits.narrator
  publisher := blankToNone credits.publisher

def invalidArgument (message : String) : Status := ⟨.invalidArgument, message⟩

section

variable (media : Nat → Option MediaItem) (currentUser : Content.User)

/-- Only the owner edits, or an admin. -/
def validateOwner (owner : Option Nat) : Except Status Unit :=
  checkIf (owner ≠ some currentUser.id) (validateAnyPermission (some currentUser.toUser) .admin [])

/-- The item of a request, which its caller may edit. -/
def affectedMedia (id : Option Nat) : Except Status MediaItem := do
  let mediaId ← okOr id (invalidId "id")
  let affected ← okOr (media mediaId) ⟨.notFound, "media_not_found"⟩
  validateOwner currentUser affected.userId
  return affected

/-- A cover art that was there already is kept; another has to be an image that its caller may
edit. -/
def newCoverArt (current : Option Nat) : Option (Option Nat) → Except Status (Option Nat)
  | none => .ok none
  | some id => do
    let artId ← okOr id (invalidId "cover_art_media_id")
    checkIf (some artId ≠ current) do
      let art ← okOr (media artId) (invalidArgument "cover_art_not_found")
      require (art.original.any fun original => isImage original.contentType)
        (invalidArgument "cover_art_must_be_image")
      validateOwner currentUser art.userId
    return some artId

def validateBpm (field : String) (bpm : Option Bpm) : Except Status Unit :=
  require (bpm.all isValidBpm) (invalidArgument ("invalid_" ++ field))

/-- The bounds of the tempo, which are in order. -/
def validateBpmRange (music : Music) : Except Status Unit :=
  match music.minBpm, music.maxBpm with
  | some (some min), some (some max) =>
    require (min ≤ max) (invalidArgument "min_bpm_exceeds_max_bpm")
  | _, _ => .ok ()

def validateKey (field : String) (key : Option String) : Except Status Unit :=
  require (key.all isValidMusicalKey) (invalidArgument ("invalid_" ++ field))

/-- The part that the preview shows, which only audio and video has. -/
def validatePreview (audioOrVideo : Bool) (start stop : Option Int64) : Except Status Unit := do
  checkIf (start.isSome ∨ stop.isSome)
    (require audioOrVideo (invalidArgument "unlicensed_preview_requires_audio_or_video"))
  match start, stop with
  | some start, some stop =>
    require (start < stop) (invalidArgument "unlicensed_preview_end_must_be_after_start")
  | _, _ => .ok ()

/-- The metadata after an edit. -/
def newMetadata (affected : MediaItem) : Option MetadataRequest → Except Status MediaMetadata
  | none => .ok affected.metadata
  | some request => do
    let coverArt ← newCoverArt media currentUser affected.metadata.coverArtMediaId
      request.coverArtMediaId
    let music := { request.music with
      startKey := blankToNone request.startKey
      endKey := blankToNone request.endKey }
    validateBpm "start_bpm" music.startBpm
    validateBpm "end_bpm" music.endBpm
    validateBpm "min_bpm" music.minBpm
    validateBpm "max_bpm" music.maxBpm
    validateBpmRange music
    validateKey "start_key" music.startKey
    validateKey "end_key" music.endKey
    let start := request.unlicensedPreviewStartMs.map UInt64.toInt64
    let stop := request.unlicensedPreviewEndMs.map UInt64.toInt64
    validatePreview (affected.original.any fun original => isAudioOrVideo original.contentType)
      start stop
    return { blankCredits request.credits, music with
      videoPreviewTimeMs := request.videoPreviewTimeMs.map UInt64.toInt64
      unlicensedPreviewStartMs := start
      unlicensedPreviewEndMs := stop
      coverArtMediaId := coverArt
      retagOnly := false }

/-- The visibility after an edit. -/
def newVisibility (affected : MediaItem) (visibility : Visibility) : Except Status Visibility :=
  match visibility with
  | .unknown => .ok affected.visibility
  | .direct => .error (invalidArgument "invalid_visibility")
  | visibility => .ok visibility

/-- Whether the poster frames show another moment now. -/
def invalidateVideoThumbnails (affected : MediaItem) (metadata : MediaMetadata) : Bool :=
  (affected.original.any fun original => isVideoContentType original.contentType) &&
    decide (metadata.videoPreviewTimeMs ≠ affected.metadata.videoPreviewTimeMs)

/-- Whether the preview shows another part now. -/
def invalidateUnlicensedPreview (affected : MediaItem) (metadata : MediaMetadata) : Bool :=
  decide (metadata.unlicensedPreviewStartMs ≠ affected.metadata.unlicensedPreviewStartMs) ||
    decide (metadata.unlicensedPreviewEndMs ≠ affected.metadata.unlicensedPreviewEndMs)

/-- Whether an edit outdates a copy. -/
def outdated (affected : MediaItem) (metadata : MediaMetadata) (size : MediaSize) : Bool :=
  (invalidateVideoThumbnails affected metadata && decide (size.conversion ∈ videoPreviewConversions))
    || (invalidateUnlicensedPreview affected metadata &&
      decide (size.conversion = .unlicensedPreviewMedium))

/-- Whether the copies need new tags, and no more. -/
def retagNeeded (affected : MediaItem) (request : MediaRequest) (metadata : MediaMetadata) : Bool :=
  let tagsChanged := decide (request.name ≠ affected.name ∨
    request.description ≠ affected.description ∨ metadata.credits ≠ affected.metadata.credits)
  !(invalidateVideoThumbnails affected metadata || invalidateUnlicensedPreview affected metadata) &&
    (affected.original.any fun original => isAudioOrVideo original.contentType) &&
    decide (1 < affected.sizes.length) &&
    ((tagsChanged && affected.processed) ||
      (affected.metadata.retagOnly && !affected.processed))

/-- `UpdateMedia`. -/
def updateMedia (request : MediaRequest) : Except Status MediaEdit := do
  let affected ← affectedMedia media currentUser request.id
  let visibility ← newVisibility affected request.visibility
  let metadata ← newMetadata media currentUser affected request.metadata
  let retag := retagNeeded affected request metadata
  return {
    item := { affected with
      name := request.name
      description := request.description
      visibility := visibility
      metadata := { metadata with retagOnly := retag }
      sizes := affected.sizes.filter fun size => !outdated affected metadata size
      processed := affected.processed && !(invalidateVideoThumbnails affected metadata ||
        invalidateUnlicensedPreview affected metadata) && !retag }
    removed := affected.sizes.filter (outdated affected metadata) }

/-- `DeleteMediaSizes`: not all of them are deleted. -/
def deleteMediaSizes (request : MediaRequest) : Except Status MediaEdit := do
  let affected ← affectedMedia media currentUser request.id
  let remaining := affected.sizes.filter fun size => size.conversion.toI32 ∉ request.sizes
  require (remaining ≠ []) ⟨.failedPrecondition, "would_leave_media_with_no_sizes"⟩
  return {
    item := { affected with sizes := remaining }
    removed := affected.sizes.filter fun size => size.conversion.toI32 ∈ request.sizes }

end

end Rellm.Media
