import Rellm.Media.Items

/-!
# Converting media

The job that makes the copies of an item: resized ones, still images of audio and video, and the
cropped preview. Where the name or the credits alone were edited, the copies that are there get new
tags. A run that fails on the way leaves the row as it is.
-/

namespace Rellm.Media

open Foundation Content

/-- A text split at the last occurrence of a character. -/
def rsplitOnce (separator : Char) (text : String) : Option (String × String) :=
  let characters := text.toList
  let tail := (characters.reverse.takeWhile fun c => c ≠ separator).reverse
  if tail.length < characters.length then
    some (String.ofList (characters.take (characters.length - tail.length - 1)),
      String.ofList tail)
  else none

def minVersionSuffixDigits : Nat := 12

def isVersionSuffix (text : String) : Bool :=
  decide (minVersionSuffixDigits ≤ text.utf8ByteSize) && text.toList.all Char.isDigit

/-- A path without its version. -/
def objectPathVersionBase (path : String) : Option String :=
  ((rsplitOnce '.' path).filter fun split => isVersionSuffix split.2).map (·.1)

/-- A path with the time as its version, in place of any that it has. -/
def versionedObjectPath (path : String) (nowMs : Nat) : String :=
  ((objectPathVersionBase path).getD path) ++ "." ++ toString nowMs

def derivedObjectPath (originalPath conversionKey : String) (nowMs : Nat) : String :=
  versionedObjectPath (originalPath ++ "." ++ conversionKey) nowMs

def extensionForContentType (contentType : String) : Option String :=
  if contentType = "image/png" then some "png"
  else if contentType ∈ ["image/jpeg", "image/jpg"] then some "jpg"
  else if contentType = "video/mp4" then some "mp4"
  else if contentType = "video/quicktime" then some "mov"
  else if contentType = "video/webm" then some "webm"
  else if contentType = "audio/mpeg" then some "mp3"
  else if contentType = "audio/ogg" then some "ogg"
  else if contentType ∈ ["audio/wav", "audio/x-wav", "audio/wave", "audio/vnd.wave"] then some "wav"
  else if contentType ∈ ["audio/flac", "audio/x-flac"] then some "flac"
  else if contentType = "audio/mp4" then some "m4a"
  else none

/-- The type of a resized copy. -/
def resizedContentType (originalContentType : String) : String :=
  if originalContentType = "video/quicktime" then "video/mp4" else originalContentType

def compressedAudioContentType : String := "audio/mp4"

def audioBitrateKbps : MediaConversion → Nat
  | .small => 64
  | .medium => 128
  | _ => 256

/-- Why a copy is not made: the tool could not make it, or it could not be stored. -/
inductive CopyFailure where
  | tool
  | storage
  deriving DecidableEq, Repr

/-- What a run of the job meets: the tools that are installed, whether the original can be read, what
the tools find in it, how large each copy gets, and the time of each. -/
structure ConversionRun where
  imagemagick : Bool := true
  ffmpeg : Bool := true
  downloaded : Bool := true
  fileTags : Option (Option String × MediaMetadata) := none
  analysis : Option MediaMetadata := none
  dimensions : Option (Nat × Nat) := none
  durationMs : Option UInt64 := none
  bitRate : Option Nat := none
  hasCoverArt : Bool := false
  output : MediaConversion → Except CopyFailure Int
  retagged : MediaConversion → Except CopyFailure Int
  nowMs : MediaConversion → Nat

namespace MediaMetadata

/-- What is not set yet is taken from the tags of a file. -/
def fillMissingCredits (metadata tags : MediaMetadata) : MediaMetadata :=
  { metadata with
    artist := metadata.artist <|> tags.artist
    album := metadata.album <|> tags.album
    composer := metadata.composer <|> tags.composer
    director := metadata.director <|> tags.director
    producer := metadata.producer <|> tags.producer
    starring := metadata.starring <|> tags.starring
    cast := metadata.cast <|> tags.cast
    crew := metadata.crew <|> tags.crew
    narrator := metadata.narrator <|> tags.narrator
    publisher := metadata.publisher <|> tags.publisher
    startBpm := metadata.startBpm <|> tags.startBpm
    endBpm := metadata.endBpm <|> tags.endBpm
    minBpm := metadata.minBpm <|> tags.minBpm
    maxBpm := metadata.maxBpm <|> tags.maxBpm
    startKey := metadata.startKey <|> tags.startKey
    endKey := metadata.endKey <|> tags.endKey }

/-- Whether the tempo or the key would have to be estimated. -/
def needsAnalysis (metadata : MediaMetadata) : Bool :=
  metadata.startBpm.isNone || metadata.endBpm.isNone || metadata.minBpm.isNone ||
    metadata.maxBpm.isNone || metadata.startKey.isNone || metadata.endKey.isNone

def defaultUnlicensedPreviewLengthMs : UInt64 := 30000

/-- The part of a file that its preview shows. -/
def effectiveUnlicensedPreviewRangeMs (metadata : MediaMetadata) (durationMs : UInt64) :
    Option (UInt64 × UInt64) :=
  let start := (metadata.unlicensedPreviewStartMs.map Int64.toUInt64).getD 0
  let stop := min ((metadata.unlicensedPreviewEndMs.map Int64.toUInt64).getD
    (start + defaultUnlicensedPreviewLengthMs)) durationMs
  if start < stop then some (start, stop) else none

end MediaMetadata

/-- A trimmed text; a blank one is none. -/
def blankToNone (value : Option String) : Option String :=
  (value.map trim).filter fun text => text ≠ ""

/-- Whether the name of an item is still that of the file that was uploaded, or blank. -/
def stillFilename (item : MediaItem) (originalPath : String) : Bool :=
  (item.name.map trim).all fun name =>
    name = "" || hasPrefix (String.ofList ("-" ++ name).toList.reverse)
      (String.ofList originalPath.toList.reverse)

/-- The title of the file, where the item still has the name it was uploaded under. -/
def titleNameOverride (item : MediaItem) (originalPath : String) (title : Option String) :
    Option String := do
  let title ← blankToNone title
  if stillFilename item originalPath = true ∧ item.name ≠ some title then some title else none

section

variable (run : ConversionRun)

/-- A copy that was made and stored. -/
def generated (original : MediaSize) (contentType : String) (conversion : MediaConversion) :
    Except CopyFailure MediaSize :=
  (run.output conversion).map fun bytes =>
    { conversion := conversion
      objectStoragePath := derivedObjectPath original.objectStoragePath conversion.key
        (run.nowMs conversion)
      contentType := contentType
      sizeBytes := bytes }

/-- The resized copies; what fits already is left out. -/
def resizedCopies (original : MediaSize) (width height : Nat) :
    Except CopyFailure (List MediaSize) :=
  (resizedConversions.filter fun conversion => conversion.maxDimension < max width height).mapM
    (generated run original (resizedContentType original.contentType))

/-- The compressed copies of audio; what is as small already is left out. -/
def compressedCopies (original : MediaSize) : Except CopyFailure (List MediaSize) :=
  (resizedConversions.filter fun conversion =>
    run.bitRate.all fun rate => audioBitrateKbps conversion * 1000 < rate).mapM
    (generated run original compressedAudioContentType)

/-- The cover art, up to the first size that cannot be made. -/
def coverArtCopies (original : MediaSize) :
    List MediaConversion → Except CopyFailure (List MediaSize)
  | [] => .ok []
  | conversion :: conversions =>
    match generated run original "image/jpeg" conversion with
    | .error .tool => .ok []
    | .error .storage => .error .storage
    | .ok copy => (coverArtCopies original conversions).map (copy :: ·)

/-- The type of the preview of a file. -/
def previewContentType (originalContentType : String) : String :=
  if isVideoContentType originalContentType then resizedContentType originalContentType
  else if originalContentType = "audio/ogg" then "audio/ogg"
  else "audio/mpeg"

/-- The cropped preview, unless nothing of the file is in its range. -/
def previewCopies (metadata : MediaMetadata) (original : MediaSize) (durationMs : UInt64) :
    Except CopyFailure (List MediaSize) :=
  match metadata.effectiveUnlicensedPreviewRangeMs durationMs with
  | none => .ok []
  | some _ =>
    [.unlicensedPreviewMedium].mapM (generated run original (previewContentType original.contentType))

/-- What a tool found, which fails if it found nothing. -/
def found {α : Type} (value : Option α) : Except CopyFailure α := okOr value .tool

/-- The copies of a video. -/
def videoCopies (metadata : MediaMetadata) (original : MediaSize) :
    Except CopyFailure (List MediaSize) := do
  let (width, height) ← found run.dimensions
  let resized ← resizedCopies run original width height
  let durationMs ← found run.durationMs
  let posters ← videoPreviewConversions.mapM (generated run original "image/jpeg")
  let preview ← previewCopies run metadata original durationMs
  return resized ++ posters ++ preview

/-- The copies of an audio file. -/
def audioCopies (metadata : MediaMetadata) (original : MediaSize) :
    Except CopyFailure (List MediaSize) := do
  let compressed ← compressedCopies run original
  let coverArt ←
    (if run.hasCoverArt then coverArtCopies run original audioCoverArtConversions else .ok [])
  let waveforms ← audioPreviewConversions.mapM (generated run original "image/png")
  let durationMs ← found run.durationMs
  let preview ← previewCopies run metadata original durationMs
  return compressed ++ coverArt ++ waveforms ++ preview

/-- The copies of an image. -/
def imageCopies (original : MediaSize) : Except CopyFailure (List MediaSize) := do
  let (width, height) ← found run.dimensions
  resizedCopies run original width height

/-- The copies of an original, by the tool for its type. -/
def copies (metadata : MediaMetadata) (original : MediaSize) :
    Except CopyFailure (List MediaSize) := do
  let tool := if isAudioOrVideo original.contentType then run.ffmpeg else run.imagemagick
  require tool .tool
  let _ ← found (extensionForContentType original.contentType)
  require run.downloaded .storage
  if isAudioContentType original.contentType then audioCopies run metadata original
  else if isVideoContentType original.contentType then videoCopies run metadata original
  else imageCopies run original

/-- What the first conversion learns from the file: its title, its credits and its tempo. -/
def seeded (item : MediaItem) (original : MediaSize) : Option String × MediaMetadata :=
  let metadata := { item.metadata with retagOnly := false }
  if isAudioOrVideo original.contentType ∧ item.sizes.length ≤ 1 then
    let (title, credited) := match run.fileTags with
      | some (title, tags) =>
        (titleNameOverride item original.objectStoragePath title, metadata.fillMissingCredits tags)
      | none => (none, metadata)
    if isAudioContentType original.contentType ∧ credited.needsAnalysis then
      (title, (run.analysis.map credited.fillMissingCredits).getD credited)
    else (title, credited)
  else (none, metadata)

/-- All copies are made anew. -/
def regenerate (item : MediaItem) : Except CopyFailure MediaItem := do
  let original ← found item.original
  let (title, metadata) := seeded run item original
  let made ← copies run item.metadata original
  return { item with
    sizes := original :: made
    processed := true
    metadata :=
      if metadata ≠ { item.metadata with retagOnly := false } ∨ item.metadata.retagOnly then metadata
      else item.metadata
    name := title <|> item.name }

/-- A copy under its new tags; images and the original have none. -/
def retag (size : MediaSize) : Except CopyFailure MediaSize :=
  if size.conversion = .original ∨ ¬ playable size.contentType ∨
      (extensionForContentType size.contentType).isNone then .ok size
  else (run.retagged size.conversion).map fun bytes =>
    { size with
      objectStoragePath := versionedObjectPath size.objectStoragePath (run.nowMs size.conversion)
      sizeBytes := bytes }

/-- All copies get new tags. -/
def retagMedia (item : MediaItem) : Except CopyFailure MediaItem := do
  require run.ffmpeg .tool
  let retagged ← item.sizes.mapM (retag run)
  return { item with
    sizes := retagged
    processed := true
    metadata := { item.metadata with retagOnly := false } }

/-- The row after a run on an item: new tags where these suffice, else new copies. -/
def convertMedia (item : MediaItem) : Except CopyFailure MediaItem :=
  if item.metadata.retagOnly ∧ 1 < item.sizes.length then
    match retagMedia run item with
    | .ok retagged => .ok retagged
    | .error _ => regenerate run item
  else regenerate run item

end

/-- Whether the job takes an item up. -/
def pendingConversion (item : MediaItem) : Bool :=
  !item.processed && item.original.any fun original => decide (original.contentType ∈
    convertibleContentTypes ++ videoConvertibleContentTypes ++ audioConvertibleContentTypes)

/-- The row of an item after the job went by. -/
def convertPending (run : ConversionRun) (item : MediaItem) : MediaItem :=
  if pendingConversion item then (convertMedia run item).toOption.getD item else item

end Rellm.Media
