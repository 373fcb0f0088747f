import Rellm.Content.Access

/-!
# Media items

An uploaded file with the copies that were made of it. Which copies there are is in the row of
the item; each copy is an object in the storage.
-/

namespace Rellm.Media

open Foundation Content

inductive MediaConversion where
  | original
  | small
  | medium
  | large
  | videoPreviewThumbnailSmall
  | videoPreviewThumbnailMedium
  | videoPreviewThumbnailLarge
  | audioPreviewThumbnailSmall
  | audioPreviewThumbnailMedium
  | audioPreviewThumbnailLarge
  | unlicensedPreviewMedium
  | audioCoverArtSmall
  | audioCoverArtMedium
  | audioCoverArtLarge
  deriving DecidableEq, Repr

namespace MediaConversion

/-- The raw enumeration value of a conversion. -/
def toI32 : MediaConversion → Int32
  | .original => 0
  | .small => 1
  | .medium => 2
  | .large => 3
  | .videoPreviewThumbnailSmall => 5
  | .videoPreviewThumbnailMedium => 6
  | .videoPreviewThumbnailLarge => 7
  | .audioPreviewThumbnailSmall => 10
  | .audioPreviewThumbnailMedium => 11
  | .audioPreviewThumbnailLarge => 12
  | .unlicensedPreviewMedium => 13
  | .audioCoverArtSmall => 15
  | .audioCoverArtMedium => 16
  | .audioCoverArtLarge => 17

def maxDimension : MediaConversion → Nat
  | .original => 0
  | .small | .videoPreviewThumbnailSmall | .audioPreviewThumbnailSmall | .audioCoverArtSmall => 320
  | .medium | .videoPreviewThumbnailMedium | .audioPreviewThumbnailMedium | .audioCoverArtMedium
  | .unlicensedPreviewMedium => 800
  | .large | .videoPreviewThumbnailLarge | .audioPreviewThumbnailLarge | .audioCoverArtLarge => 1600

def key : MediaConversion → String
  | .original => "original"
  | .small => "small"
  | .medium => "medium"
  | .large => "large"
  | .videoPreviewThumbnailSmall => "video_preview_thumbnail_small"
  | .videoPreviewThumbnailMedium => "video_preview_thumbnail_medium"
  | .videoPreviewThumbnailLarge => "video_preview_thumbnail_large"
  | .audioPreviewThumbnailSmall => "audio_preview_thumbnail_small"
  | .audioPreviewThumbnailMedium => "audio_preview_thumbnail_medium"
  | .audioPreviewThumbnailLarge => "audio_preview_thumbnail_large"
  | .audioCoverArtSmall => "audio_cover_art_small"
  | .audioCoverArtMedium => "audio_cover_art_medium"
  | .audioCoverArtLarge => "audio_cover_art_large"
  | .unlicensedPreviewMedium => "unlicensed_preview_medium"

end MediaConversion

def resizedConversions : List MediaConversion := [.small, .medium, .large]

def videoPreviewConversions : List MediaConversion :=
  [.videoPreviewThumbnailSmall, .videoPreviewThumbnailMedium, .videoPreviewThumbnailLarge]

def audioPreviewConversions : List MediaConversion :=
  [.audioPreviewThumbnailSmall, .audioPreviewThumbnailMedium, .audioPreviewThumbnailLarge]

def audioCoverArtConversions : List MediaConversion :=
  [.audioCoverArtSmall, .audioCoverArtMedium, .audioCoverArtLarge]

/-- A stored copy. -/
structure MediaSize where
  conversion : MediaConversion
  objectStoragePath : String
  contentType : String
  sizeBytes : Int
  deriving DecidableEq, Repr

/-- The credits that end up in the tags of converted files. -/
structure Credits where
  artist : Option String := none
  album : Option String := none
  composer : Option String := none
  director : Option String := none
  producer : Option String := none
  starring : Option String := none
  cast : Option String := none
  crew : Option String := none
  narrator : Option String := none
  publisher : Option String := none
  deriving DecidableEq, Repr

/-- A tempo; one that is not a finite number has no value. -/
abbrev Bpm := Option Rat

/-- The tempo and the key of a piece. -/
structure Music where
  startBpm : Option Bpm := none
  endBpm : Option Bpm := none
  minBpm : Option Bpm := none
  maxBpm : Option Bpm := none
  startKey : Option String := none
  endKey : Option String := none
  deriving DecidableEq, Repr

structure MediaMetadata extends credits : Credits, music : Music where
  videoPreviewTimeMs : Option Int64 := none
  unlicensedPreviewStartMs : Option Int64 := none
  unlicensedPreviewEndMs : Option Int64 := none
  coverArtMediaId : Option Nat := none
  retagOnly : Bool := false
  deriving DecidableEq, Repr

/-- A row of the media. -/
structure MediaItem where
  id : Nat
  userId : Option Nat
  name : Option String
  description : Option String := none
  generated : Bool := false
  processed : Bool := false
  visibility : Visibility
  metadata : MediaMetadata := {}
  sizes : List MediaSize
  deriving DecidableEq, Repr

/-- The copy of a conversion, if there is one. -/
def MediaItem.size (item : MediaItem) (conversion : MediaConversion) : Option MediaSize :=
  item.sizes.find? fun size => size.conversion = conversion

def MediaItem.original (item : MediaItem) : Option MediaSize := item.size .original

/-- Whether a text starts with another. -/
def hasPrefix (start value : String) : Bool := start.toList.isPrefixOf value.toList

def convertibleContentTypes : List String := ["image/png", "image/jpeg", "image/jpg"]

def videoConvertibleContentTypes : List String := ["video/mp4", "video/quicktime", "video/webm"]

def audioConvertibleContentTypes : List String :=
  ["audio/mpeg", "audio/ogg", "audio/wav", "audio/x-wav", "audio/wave", "audio/vnd.wave",
    "audio/flac", "audio/x-flac"]

def isAudioContentType (contentType : String) : Bool :=
  decide (contentType ∈ audioConvertibleContentTypes)

def isVideoContentType (contentType : String) : Bool :=
  decide (contentType ∈ videoConvertibleContentTypes)

/-- Whether a file of a type is audio or video that is converted. -/
def isAudioOrVideo (contentType : String) : Bool :=
  isAudioContentType contentType || isVideoContentType contentType

/-- Whether a type is one of audio or video at all. -/
def playable (contentType : String) : Bool :=
  hasPrefix "audio/" contentType || hasPrefix "video/" contentType

def isImage (contentType : String) : Bool := hasPrefix "image/" contentType

/-- Audio and video that is converted is audio or video. -/
theorem playable_of_isAudioOrVideo {contentType : String} (h : isAudioOrVideo contentType = true) :
    playable contentType = true := by
  have hall : ∀ contentType ∈ audioConvertibleContentTypes ++ videoConvertibleContentTypes,
      playable contentType = true := by decide
  rw [isAudioOrVideo, Bool.or_eq_true, isAudioContentType, isVideoContentType, decide_eq_true_eq,
    decide_eq_true_eq, ← List.mem_append] at h
  exact hall contentType h

/-- What an upload stores in the row. -/
structure Upload where
  id : Nat
  userId : Nat
  filename : String
  contentType : String
  objectStoragePath : String
  uploadedBytes : Int
  deriving DecidableEq, Repr

/-- The row of an upload: it is public, with the original alone. -/
def createMedia (upload : Upload) : MediaItem where
  id := upload.id
  userId := some upload.userId
  name := some upload.filename
  visibility := .globalPublic
  metadata :=
    if hasPrefix "video/" upload.contentType then { videoPreviewTimeMs := some 1000 } else {}
  sizes := [⟨.original, upload.objectStoragePath, upload.contentType, upload.uploadedBytes⟩]

end Rellm.Media
