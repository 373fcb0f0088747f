import Rellm.Media.Edits

/-!
# Serving media

Which copy of an item a viewer gets, as a file and as a stream. Of a licensed item everybody who
sees it gets the preview; the rest needs full access.
-/

namespace Rellm.Media

open Foundation Content

/-- Who asks for an item, and what the tables say about that. -/
structure Viewing where
  viewer : Option Content.User
  followsOwner : Bool := false
  licensedGlobally : Bool := false
  holdsLicense : Bool := false
  deriving DecidableEq, Repr

/-- What a viewer may see of an item. -/
structure MediaAccess where
  media : MediaItem
  licensed : Bool
  hasFullAccess : Bool
  deriving DecidableEq, Repr

section

variable (viewing : Viewing) (item : MediaItem)

/-- Whether the viewer owns the item, or is an admin. -/
def Viewing.ownsOrAdmin : Bool :=
  viewing.viewer.any fun viewer => decide (item.userId = some viewer.id) ||
    decide (.admin ∈ viewer.permissions.toProtoPermissions)

/-- Whether a viewer sees an item at all. -/
def mediaVisibleToViewer : Bool :=
  viewing.ownsOrAdmin item ||
    match item.visibility with
    | .globalPublic => true
    | .serverPublic => viewing.viewer.isSome
    | .licensed => viewing.viewer.isSome || viewing.licensedGlobally
    | .limited => viewing.viewer.isSome && viewing.followsOwner
    | _ => false

/-- Whether a viewer gets all of a licensed item. -/
def viewerHasFullAccess : Bool :=
  viewing.ownsOrAdmin item || (viewing.viewer.isSome && viewing.holdsLicense)

/-- What a viewer may see of an item; one that is not visible is not found. -/
def authorizeMediaView : Except HttpStatus MediaAccess := do
  require (mediaVisibleToViewer
    { viewing with followsOwner := item.visibility = .limited && viewing.followsOwner } item)
    .notFound
  let licensed := decide (item.visibility = .licensed)
  return ⟨item, licensed, !licensed || viewerHasFullAccess viewing item⟩

end

def requestedConversion : Option String → MediaConversion
  | some "original" => .original
  | some "small" => .small
  | some "large" => .large
  | some "video_preview_small" => .videoPreviewThumbnailSmall
  | some "video_preview_medium" => .videoPreviewThumbnailMedium
  | some "video_preview_large" => .videoPreviewThumbnailLarge
  | some "audio_preview_small" => .audioPreviewThumbnailSmall
  | some "audio_preview_medium" => .audioPreviewThumbnailMedium
  | some "audio_preview_large" => .audioPreviewThumbnailLarge
  | some "audio_cover_art_small" => .audioCoverArtSmall
  | some "audio_cover_art_medium" => .audioCoverArtMedium
  | some "audio_cover_art_large" => .audioCoverArtLarge
  | some "unlicensed_preview" => .unlicensedPreviewMedium
  | _ => .medium

/-- The copy of an item for a requested size, or else the original. -/
def resolveMediaSize (item : MediaItem) (size : Option String) : Option MediaSize :=
  (item.size (requestedConversion size)).or item.original

def unlicensedViewableConversions : List MediaConversion :=
  [.unlicensedPreviewMedium, .small] ++ videoPreviewConversions ++ audioPreviewConversions ++
    audioCoverArtConversions

/-- Whether the small copy is shown to everybody: not where the original is audio or video. -/
def smallAllowed (item : MediaItem) : Bool :=
  !item.original.any fun original => isAudioOrVideo original.contentType

def allowed (item : MediaItem) (conversion : MediaConversion) : Bool :=
  decide (conversion ∈ unlicensedViewableConversions) &&
    (smallAllowed item || decide (conversion ≠ .small))

/-- The copy of an item that a viewer gets. -/
def resolveMediaSizeForViewer (item : MediaItem) (size : Option String) (hasFullAccess : Bool) :
    Except HttpStatus (Option MediaSize) :=
  if hasFullAccess then .ok (resolveMediaSize item size)
  else
    let requested := requestedConversion size
    (okOr ((if allowed item requested then item.size requested else none).or
      ((item.size .unlicensedPreviewMedium).or
        (if smallAllowed item then item.size .small else none))) .forbidden).map some

/-- What `/media/<id>` serves. -/
def mediaFile (viewing : Viewing) (item : MediaItem) (size : Option String) :
    Except HttpStatus (Option MediaSize) := do
  let access ← authorizeMediaView viewing item
  resolveMediaSizeForViewer access.media size access.hasFullAccess

def hlsVariants : List (String × MediaConversion) :=
  [("small", .small), ("medium", .medium), ("large", .large), ("preview", .unlicensedPreviewMedium)]

/-- The copies of a video that a viewer may stream, with their names. -/
def streamableVariants (access : MediaAccess) : List (String × MediaSize) :=
  if access.media.original.any fun original => isVideoContentType original.contentType then
    (hlsVariants.filter fun variant =>
      decide (variant.1 = "preview") != access.hasFullAccess).filterMap fun variant =>
        (access.media.sizes.find? fun size =>
          size.conversion = variant.2 && size.contentType = "video/mp4").map (variant.1, ·)
  else []

/-- The version in the path of a copy. -/
def versionOf (path : String) : String :=
  (((rsplitOnce '.' path).filter fun split => isVersionSuffix split.2).map (·.2)).getD "0"

/-- Whether streaming is on, and how the segments of a copy are made. -/
structure HlsServer where
  enabled : Bool
  ensureSegments : String → Except HttpStatus Unit

/-- The copy whose playlist and segments a viewer is served. -/
def authorizedSegments (server : HlsServer) (viewing : Viewing) (item : MediaItem)
    (variant : String) (version : Option String) : Except HttpStatus MediaSize := do
  let access ← authorizeMediaView viewing item
  require server.enabled .notFound
  let (_, size) ← okOr
    ((streamableVariants access).find? fun candidate => candidate.1 = variant) .notFound
  require (version.all fun version => version = versionOf size.objectStoragePath) .notFound
  server.ensureSegments size.objectStoragePath
  return size

section

variable {viewing : Viewing} {item : MediaItem}

/-- What was authorized is about the item asked for. -/
theorem authorizeMediaView_eq_ok {access : MediaAccess} :
    authorizeMediaView viewing item = .ok access ↔
      mediaVisibleToViewer { viewing with
        followsOwner := item.visibility = .limited && viewing.followsOwner } item = true ∧
      access = ⟨item, decide (item.visibility = .licensed),
        !decide (item.visibility = .licensed) || viewerHasFullAccess viewing item⟩ := by
  simp only [authorizeMediaView, checks_eq_ok, require_eq_ok, pure_eq_ok, exists_const,
    eq_comm (a := access)]

/-- What a viewer without full access gets as a file. -/
theorem resolve_eq_ok {size : Option String} {served : Option MediaSize} :
    resolveMediaSizeForViewer item size false = .ok served ↔
      ∃ copy, served = some copy ∧
        (if allowed item (requestedConversion size) then item.size (requestedConversion size)
          else none).or ((item.size .unlicensedPreviewMedium).or
            (if smallAllowed item then item.size .small else none)) = some copy := by
  unfold resolveMediaSizeForViewer
  simp only [Bool.false_eq_true, if_false]
  generalize (Option.or _ _ : Option MediaSize) = found
  cases found <;> simp [okOr, Except.map, eq_comm]

/-- A viewer without full access streams the preview alone. -/
theorem streamableVariants_preview {licensed : Bool} {variant : String × MediaSize}
    (h : variant ∈ streamableVariants ⟨item, licensed, false⟩) :
    variant.2.conversion = .unlicensedPreviewMedium := by
  unfold streamableVariants at h
  split at h
  · obtain ⟨named, hnamed, hfound⟩ := List.mem_filterMap.mp h
    obtain ⟨size, hsize, rfl⟩ := Option.map_eq_some_iff.mp hfound
    obtain ⟨hvariant, hname⟩ := List.mem_filter.mp hnamed
    have hpreview : ∀ named ∈ hlsVariants, named.1 = "preview" →
        named.2 = .unlicensedPreviewMedium := by decide
    have hmatch := List.find?_some hsize
    rw [Bool.and_eq_true, decide_eq_true_eq] at hmatch
    exact hmatch.1.trans (hpreview named hvariant (by simpa using hname))
  · exact absurd h List.not_mem_nil

/-- What is streamed is one of the variants. -/
theorem authorizedSegments_mem {server : HlsServer} {variant : String} {version : Option String}
    {size : MediaSize} (h : authorizedSegments server viewing item variant version = .ok size) :
    ∃ access name, authorizeMediaView viewing item = .ok access ∧
      (name, size) ∈ streamableVariants access := by
  simp only [authorizedSegments, checks_eq_ok, require_eq_ok, pure_eq_ok, okOr_eq_ok] at h
  obtain ⟨access, haccess, _, _, ⟨name, copy⟩, hfound, _, _, _, _, rfl⟩ := h
  exact ⟨access, name, haccess, List.mem_of_find?_eq_some hfound⟩

end

end Rellm.Media
