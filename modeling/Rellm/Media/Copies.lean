import Rellm.Media.Edits

/-!
# The copies of audio and video

What the job makes of an audio or video upload: resized copies of it, still images and the preview.
No edit adds a copy.
-/

namespace Rellm.Media

open Foundation Content

def stillConversions : List MediaConversion :=
  videoPreviewConversions ++ audioPreviewConversions ++ audioCoverArtConversions

/-- A copy of audio or video: it is played in full, it is the preview, or it is a still image. -/
def Copied (size : MediaSize) : Prop :=
  (size.conversion ∈ resizedConversions ∧ playable size.contentType = true) ∨
    size.conversion = .unlicensedPreviewMedium ∨
    (size.conversion ∈ stillConversions ∧ isImage size.contentType = true)

/-- What is stored of an audio or video upload: the original, of which there are copies only if it
is of a type that is converted, and these copies. -/
structure Kept (item : MediaItem) : Prop where
  played : ∀ size ∈ item.sizes, size.conversion = .original → playable size.contentType = true
  copied : ∀ size ∈ item.sizes, size.conversion ≠ .original → Copied size
  converted : ∀ size ∈ item.sizes, size.conversion ≠ .original → ∀ original ∈ item.sizes,
    original.conversion = .original → isAudioOrVideo original.contentType = true

theorem Copied.ne_original {size : MediaSize} (h : Copied size) : size.conversion ≠ .original := by
  have hresized : .original ∉ resizedConversions := by decide
  have hstill : .original ∉ stillConversions := by decide
  intro horiginal
  rw [Copied, horiginal] at h
  rcases h with ⟨h, _⟩ | h | ⟨h, _⟩
  · exact hresized h
  · cases h
  · exact hstill h

/-- A text starts with one of two prefixes of one length. -/
theorem hasPrefix_unique {first second value : String}
    (hlength : first.toList.length = second.toList.length) (hfirst : hasPrefix first value = true)
    (hsecond : hasPrefix second value = true) : first = second := by
  rw [hasPrefix, List.isPrefixOf_iff_prefix] at hfirst hsecond
  have hstarts := List.prefix_of_prefix_length_le hfirst hsecond hlength.le
  exact String.toList_inj.mp (hstarts.eq_of_length hlength)

/-- What is played is no image. -/
theorem not_isImage_of_playable {contentType : String} (h : playable contentType = true) :
    isImage contentType = false := by
  rw [playable, Bool.or_eq_true] at h
  rw [Bool.eq_false_iff]
  intro himage
  rcases h with h | h
  · exact absurd (hasPrefix_unique (by decide) h himage) (by decide)
  · exact absurd (hasPrefix_unique (by decide) h himage) (by decide)

/-- The copy of a conversion is one of the copies. -/
theorem size_eq_some {item : MediaItem} {conversion : MediaConversion} {size : MediaSize}
    (h : item.size conversion = some size) : size ∈ item.sizes ∧ size.conversion = conversion :=
  ⟨List.mem_of_find?_eq_some h, by simpa using List.find?_some h⟩

theorem size_eq_none {item : MediaItem} {conversion : MediaConversion} :
    item.size conversion = none ↔ ∀ size ∈ item.sizes, size.conversion ≠ conversion := by
  simp [MediaItem.size]

section

variable {run : ConversionRun} {original : MediaSize} {contentType : String}

theorem generated_eq_ok {conversion : MediaConversion} {size : MediaSize}
    (h : generated run original contentType conversion = .ok size) :
    size.conversion = conversion ∧ size.contentType = contentType := by
  unfold generated at h
  cases houtput : run.output conversion with
  | error failure =>
    rw [houtput] at h
    cases h
  | ok bytes =>
    rw [houtput] at h
    obtain rfl := Except.ok.inj h
    exact ⟨rfl, rfl⟩

/-- Copies that are made for a list of conversions. -/
theorem mapM_generated {conversions : List MediaConversion} {made : List MediaSize}
    (h : conversions.mapM (generated run original contentType) = .ok made) {size : MediaSize}
    (hsize : size ∈ made) : size.conversion ∈ conversions ∧ size.contentType = contentType := by
  obtain ⟨conversion, hconversion, hmade⟩ := mem_of_mapM h hsize
  obtain ⟨rfl, hcontent⟩ := generated_eq_ok hmade
  exact ⟨hconversion, hcontent⟩

theorem playable_resizedContentType (h : isVideoContentType contentType = true) :
    playable (resizedContentType contentType) = true := by
  have hall : ∀ contentType ∈ videoConvertibleContentTypes,
      playable (resizedContentType contentType) = true := by decide
  exact hall contentType (of_decide_eq_true h)

/-- Resized copies of a file of a type that is played. -/
theorem copied_of_resized {conversions made : List _} (hall : conversions ⊆ resizedConversions)
    (hplayable : playable contentType = true)
    (h : conversions.mapM (generated run original contentType) = .ok made) :
    ∀ size ∈ made, Copied size := by
  intro size hsize
  obtain ⟨hconversion, rfl⟩ := mapM_generated h hsize
  exact Or.inl ⟨hall hconversion, hplayable⟩

/-- Still images. -/
theorem copied_of_stills {conversions made : List _} (hall : conversions ⊆ stillConversions)
    (himage : isImage contentType = true)
    (h : conversions.mapM (generated run original contentType) = .ok made) :
    ∀ size ∈ made, Copied size := by
  intro size hsize
  obtain ⟨hconversion, rfl⟩ := mapM_generated h hsize
  exact Or.inr (Or.inr ⟨hall hconversion, himage⟩)

theorem copied_of_preview {metadata : MediaMetadata} {durationMs : UInt64} {made : List MediaSize}
    (h : previewCopies run metadata original durationMs = .ok made) :
    ∀ size ∈ made, Copied size := by
  intro size hsize
  unfold previewCopies at h
  split at h
  · obtain rfl := Except.ok.inj h
    exact absurd hsize List.not_mem_nil
  · obtain ⟨hconversion, _⟩ := mapM_generated h hsize
    exact Or.inr (Or.inl (List.mem_singleton.mp hconversion))

theorem copied_of_coverArt {conversions : List MediaConversion}
    (hall : conversions ⊆ stillConversions) {made : List MediaSize}
    (h : coverArtCopies run original conversions = .ok made) : ∀ size ∈ made, Copied size := by
  induction conversions generalizing made with
  | nil =>
    obtain rfl := Except.ok.inj h
    simp
  | cons conversion conversions ih =>
    unfold coverArtCopies at h
    split at h
    · obtain rfl := Except.ok.inj h
      simp
    · cases h
    · rename_i copy hcopy
      cases hrest : coverArtCopies run original conversions with
      | error failure =>
        rw [hrest] at h
        cases h
      | ok rest =>
        rw [hrest] at h
        obtain rfl := Except.ok.inj h
        obtain ⟨hconversion, hcontent⟩ := generated_eq_ok hcopy
        intro size hsize
        rcases List.mem_cons.mp hsize with rfl | hsize
        · exact Or.inr (Or.inr ⟨hconversion ▸ hall List.mem_cons_self, hcontent ▸ by decide⟩)
        · exact ih (fun c hc => hall (List.mem_cons_of_mem _ hc)) hrest size hsize

/-- What is made of an audio file. -/
theorem copied_of_audio {metadata : MediaMetadata} {made : List MediaSize}
    (h : audioCopies run metadata original = .ok made) : ∀ size ∈ made, Copied size := by
  simp only [audioCopies, checks_eq_ok, pure_eq_ok] at h
  obtain ⟨compressed, hcompressed, coverArt, hcoverArt, waveforms, hwaveforms, durationMs, _,
    preview, hpreview, rfl⟩ := h
  have hart : ∀ size ∈ coverArt, Copied size := by
    split at hcoverArt
    · exact copied_of_coverArt (by decide) hcoverArt
    · obtain rfl := Except.ok.inj hcoverArt
      simp
  intro size hsize
  rw [List.mem_append, List.mem_append, List.mem_append] at hsize
  rcases hsize with ((hsize | hsize) | hsize) | hsize
  · exact copied_of_resized List.filter_sublist.subset (by decide) hcompressed size hsize
  · exact hart size hsize
  · exact copied_of_stills (by decide) (by decide) hwaveforms size hsize
  · exact copied_of_preview hpreview size hsize

/-- What is made of a video. -/
theorem copied_of_video (hvideo : isVideoContentType original.contentType = true)
    {metadata : MediaMetadata} {made : List MediaSize}
    (h : videoCopies run metadata original = .ok made) : ∀ size ∈ made, Copied size := by
  simp only [videoCopies, checks_eq_ok, pure_eq_ok] at h
  obtain ⟨⟨width, height⟩, _, resized, hresized, durationMs, _, posters, hposters, preview,
    hpreview, rfl⟩ := h
  intro size hsize
  rw [List.mem_append, List.mem_append] at hsize
  rcases hsize with (hsize | hsize) | hsize
  · exact copied_of_resized List.filter_sublist.subset (playable_resizedContentType hvideo) hresized
      size hsize
  · exact copied_of_stills (by decide) (by decide) hposters size hsize
  · exact copied_of_preview hpreview size hsize

/-- What is made of audio or video. -/
theorem copied_of_copies (htype : isAudioOrVideo original.contentType = true)
    {metadata : MediaMetadata} {made : List MediaSize}
    (h : copies run metadata original = .ok made) : ∀ size ∈ made, Copied size := by
  simp only [copies, checks_eq_ok] at h
  obtain ⟨_, _, _, _, _, _, h⟩ := h
  split at h
  · exact copied_of_audio h
  · rename_i haudio
    have hvideo : isVideoContentType original.contentType = true := by
      rw [isAudioOrVideo, Bool.or_eq_true] at htype
      exact htype.resolve_left haudio
    rw [if_pos hvideo] at h
    exact copied_of_video hvideo h

end

section

variable {run : ConversionRun} {item converted : MediaItem}

/-- The original of an audio or video item that the job takes up is of a type that is converted. -/
theorem isAudioOrVideo_of_pending (hkept : Kept item) (hpending : pendingConversion item = true) :
    ∃ original, item.original = some original ∧
      isAudioOrVideo original.contentType = true := by
  rw [pendingConversion, Bool.and_eq_true, Option.any_eq_true] at hpending
  obtain ⟨_, original, horiginal, htype⟩ := hpending
  refine ⟨original, horiginal, ?_⟩
  obtain ⟨hmem, hconversion⟩ := size_eq_some horiginal
  have hplayed := hkept.played original hmem hconversion
  have hall : ∀ contentType ∈ convertibleContentTypes ++ videoConvertibleContentTypes ++
      audioConvertibleContentTypes, playable contentType = true →
        isAudioOrVideo contentType = true := by decide
  exact hall _ (of_decide_eq_true htype) hplayed

/-- New copies take the place of all that were there. -/
theorem regenerate_eq_ok {original : MediaSize} (horiginal : item.original = some original)
    (h : regenerate run item = .ok converted) :
    converted.visibility = item.visibility ∧
      ∃ made, copies run item.metadata original = .ok made ∧ converted.sizes = original :: made := by
  simp only [regenerate, horiginal, found, checks_eq_ok, okOr_eq_ok, pure_eq_ok,
    Option.some.injEq] at h
  obtain ⟨_, rfl, made, hmade, rfl⟩ := h
  exact ⟨rfl, made, hmade, rfl⟩

/-- A copy under new tags is of the same conversion and type. -/
theorem retag_eq_ok {size retagged : MediaSize} (h : retag run size = .ok retagged) :
    retagged.conversion = size.conversion ∧ retagged.contentType = size.contentType := by
  unfold retag at h
  split at h
  · obtain rfl := Except.ok.inj h
    exact ⟨rfl, rfl⟩
  · cases hbytes : run.retagged size.conversion with
    | error failure =>
      rw [hbytes] at h
      cases h
    | ok bytes =>
      rw [hbytes] at h
      obtain rfl := Except.ok.inj h
      exact ⟨rfl, rfl⟩

theorem retagMedia_eq_ok (h : retagMedia run item = .ok converted) :
    converted.visibility = item.visibility ∧ item.sizes.mapM (retag run) = .ok converted.sizes := by
  simp only [retagMedia, checks_eq_ok, require_eq_ok, pure_eq_ok] at h
  obtain ⟨_, _, retagged, hretagged, rfl⟩ := h
  exact ⟨rfl, hretagged⟩

/-- A run on an item retags its copies or makes new ones. -/
theorem convertMedia_eq_ok (h : convertMedia run item = .ok converted) :
    retagMedia run item = .ok converted ∨ regenerate run item = .ok converted := by
  unfold convertMedia at h
  split at h
  · split at h
    · rename_i retagged hretagged
      obtain rfl := Except.ok.inj h
      exact Or.inl hretagged
    · exact Or.inr h
  · exact Or.inr h

/-- New tags keep what is stored of an item. -/
theorem Kept.retagMedia (hkept : Kept item) (h : retagMedia run item = .ok converted) :
    Kept converted := by
  obtain ⟨_, hsizes⟩ := retagMedia_eq_ok h
  have hfrom : ∀ size ∈ converted.sizes, ∃ old ∈ item.sizes,
      size.conversion = old.conversion ∧ size.contentType = old.contentType := by
    intro size hsize
    obtain ⟨old, hold, hretag⟩ := mem_of_mapM hsizes hsize
    exact ⟨old, hold, retag_eq_ok hretag⟩
  constructor
  · intro size hsize horiginal
    obtain ⟨old, hold, hconversion, hcontent⟩ := hfrom size hsize
    rw [hcontent]
    exact hkept.played old hold (hconversion ▸ horiginal)
  · intro size hsize hcopy
    obtain ⟨old, hold, hconversion, hcontent⟩ := hfrom size hsize
    unfold Copied
    rw [hconversion, hcontent]
    exact hkept.copied old hold (hconversion ▸ hcopy)
  · intro size hsize hcopy original hmem horiginal
    obtain ⟨old, hold, hconversion, _⟩ := hfrom size hsize
    obtain ⟨oldOriginal, holdOriginal, hfound, hcontent⟩ := hfrom original hmem
    rw [hcontent]
    exact hkept.converted old hold (hconversion ▸ hcopy) oldOriginal holdOriginal
      (hfound ▸ horiginal)

/-- New copies are copies of the original. -/
theorem kept_regenerate {original : MediaSize} (horiginal : item.original = some original)
    (htype : isAudioOrVideo original.contentType = true)
    (h : regenerate run item = .ok converted) : Kept converted := by
  obtain ⟨_, made, hmade, hsizes⟩ := regenerate_eq_ok horiginal h
  have hcopied := copied_of_copies htype hmade
  have honly : ∀ size ∈ converted.sizes, size.conversion = .original → size = original := by
    intro size hsize hconversion
    rw [hsizes] at hsize
    rcases List.mem_cons.mp hsize with rfl | hsize
    · rfl
    · exact absurd hconversion (hcopied size hsize).ne_original
  constructor
  · intro size hsize hconversion
    rw [honly size hsize hconversion]
    exact playable_of_isAudioOrVideo htype
  · intro size hsize hcopy
    rw [hsizes] at hsize
    rcases List.mem_cons.mp hsize with rfl | hsize
    · exact absurd (size_eq_some horiginal).2 hcopy
    · exact hcopied size hsize
  · intro _ _ _ size hsize hconversion
    rw [honly size hsize hconversion]
    exact htype

/-- The job keeps what is stored of an item to an original and its copies. -/
theorem Kept.convertPending (hkept : Kept item) : Kept (convertPending run item) := by
  unfold Media.convertPending
  split
  · rename_i hpending
    obtain ⟨original, horiginal, htype⟩ := isAudioOrVideo_of_pending hkept hpending
    cases hconverted : convertMedia run item with
    | error failure => exact hkept
    | ok converted =>
      rcases convertMedia_eq_ok hconverted with h | h
      · exact hkept.retagMedia h
      · exact kept_regenerate horiginal htype h
  · exact hkept

/-- What the job takes up has its original still. -/
theorem original_of_convertPending :
    (convertPending run item).visibility = item.visibility ∧
      (convertPending run item = item ∨ (convertPending run item).original ≠ none) := by
  unfold convertPending
  split
  · rename_i hpending
    rw [pendingConversion, Bool.and_eq_true, Option.any_eq_true] at hpending
    obtain ⟨_, original, horiginal, _⟩ := hpending
    cases hconverted : convertMedia run item with
    | error failure => exact ⟨rfl, Or.inl rfl⟩
    | ok converted =>
      obtain ⟨hmem, hconversion⟩ := size_eq_some horiginal
      rcases convertMedia_eq_ok hconverted with h | h
      · obtain ⟨hvisibility, hsizes⟩ := retagMedia_eq_ok h
        obtain ⟨retagged, hretagged, hretag⟩ := mapM_mem hsizes hmem
        refine ⟨hvisibility, Or.inr fun hnone => ?_⟩
        exact size_eq_none.mp hnone retagged hretagged ((retag_eq_ok hretag).1.trans hconversion)
      · obtain ⟨hvisibility, made, _, hsizes⟩ := regenerate_eq_ok horiginal h
        refine ⟨hvisibility, Or.inr fun hnone => ?_⟩
        exact size_eq_none.mp hnone original (hsizes ▸ List.mem_cons_self) hconversion
  · exact ⟨rfl, Or.inl rfl⟩

end

/-- An edit that only removes copies keeps what is stored to an original and its copies. -/
theorem Kept.of_subset {item edited : MediaItem} (hkept : Kept item)
    (hsizes : edited.sizes ⊆ item.sizes) : Kept edited where
  played size hsize := hkept.played size (hsizes hsize)
  copied size hsize := hkept.copied size (hsizes hsize)
  converted size hsize hcopy original hmem :=
    hkept.converted size (hsizes hsize) hcopy original (hsizes hmem)

/-- An upload is stored as it is. -/
theorem kept_createMedia {upload : Upload} (h : playable upload.contentType = true) :
    Kept (createMedia upload) := by
  constructor
  · intro size hsize _
    rw [List.mem_singleton.mp hsize]
    exact h
  · intro size hsize hcopy
    rw [List.mem_singleton.mp hsize] at hcopy
    exact absurd rfl hcopy
  · intro size hsize hcopy
    rw [List.mem_singleton.mp hsize] at hcopy
    exact absurd rfl hcopy

end Rellm.Media
