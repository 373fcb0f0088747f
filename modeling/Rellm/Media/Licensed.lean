import Rellm.Foundation.Run
import Rellm.Media.Copies
import Rellm.Media.Serving

/-!
# Licensed media

What a viewer without full access gets of a licensed audio or video item, over any run of the job
and of edits. Whether the small copy is harmless is read off the original, which an edit may delete.
-/

namespace Rellm.Media

open Foundation Content

/-- What everybody may be shown of a licensed item. -/
def Harmless (size : MediaSize) : Prop :=
  size.conversion = .unlicensedPreviewMedium ∨
    (size.conversion ≠ .original ∧ isImage size.contentType = true)

/-- Nobody without full access is served the work of a licensed item, neither as a file nor as a
stream. -/
def NeverFullWork (item : MediaItem) : Prop :=
  item.visibility = .licensed → ∀ viewing, viewerHasFullAccess viewing item = false →
    (∀ size served, mediaFile viewing item size = .ok served →
      ∃ copy, served = some copy ∧ Harmless copy) ∧
    (∀ access, authorizeMediaView viewing item = .ok access →
      ∀ variant ∈ streamableVariants access, Harmless variant.2) ∧
    (∀ server variant version copy,
      authorizedSegments server viewing item variant version = .ok copy → Harmless copy)

/-- The small copy of a licensed item is left without its original. -/
def Exposed (item : MediaItem) : Prop :=
  item.visibility = .licensed ∧ item.original = none ∧ item.size .small ≠ none

instance (item : MediaItem) : Decidable (Exposed item) :=
  inferInstanceAs (Decidable (_ ∧ _))

section

variable {item : MediaItem}

/-- A still image or the preview is harmless. -/
theorem Copied.harmless {size : MediaSize} (h : Copied size)
    (hresized : size.conversion ∉ resizedConversions) : Harmless size := by
  rcases h with ⟨hmem, _⟩ | hpreview | ⟨hstill, himage⟩
  · exact absurd hmem hresized
  · exact Or.inl hpreview
  · refine Or.inr ⟨fun horiginal => ?_, himage⟩
    rw [horiginal] at hstill
    exact absurd hstill (by decide)

/-- Where the small copy is allowed and there is one, its original is gone. -/
theorem Kept.original_none (hkept : Kept item) {size : MediaSize} (hsmall : item.size .small = some size)
    (hallowed : smallAllowed item = true) : item.original = none := by
  obtain ⟨hmem, hconversion⟩ := size_eq_some hsmall
  cases horiginal : item.original with
  | none => rfl
  | some original =>
    obtain ⟨hstored, hfound⟩ := size_eq_some horiginal
    have hcopy : size.conversion ≠ .original := by
      rw [hconversion]
      decide
    have htype := hkept.converted size hmem hcopy original hstored hfound
    simp [smallAllowed, horiginal, htype] at hallowed

/-- What a viewer without full access gets as a file of an item that is not exposed. -/
theorem Kept.resolve_harmless (hkept : Kept item)
    (hhidden : item.original = none → item.size .small = none) {size : Option String}
    {served : Option MediaSize} (h : resolveMediaSizeForViewer item size false = .ok served) :
    ∃ copy, served = some copy ∧ Harmless copy := by
  obtain ⟨copy, rfl, hcopy⟩ := resolve_eq_ok.mp h
  refine ⟨copy, rfl, ?_⟩
  have hsmall : ∀ small, item.size .small = some small → smallAllowed item = false := by
    intro small hsmall
    rw [Bool.eq_false_iff]
    intro hallowed
    rw [hhidden (hkept.original_none hsmall hallowed)] at hsmall
    cases hsmall
  have hviewable : ∀ conversion ∈ unlicensedViewableConversions, conversion ≠ .small →
      conversion ≠ .original ∧ conversion ∉ resizedConversions := by decide
  have hstored : ∀ conversion, conversion ∈ unlicensedViewableConversions → conversion ≠ .small →
      item.size conversion = some copy → Harmless copy := by
    intro conversion hmem hne hfound
    obtain ⟨hcopy, hconversion⟩ := size_eq_some hfound
    obtain ⟨horiginal, hresized⟩ := hviewable conversion hmem hne
    exact (hkept.copied copy hcopy (hconversion ▸ horiginal)).harmless (hconversion ▸ hresized)
  rw [Option.or_eq_some_iff, Option.or_eq_some_iff] at hcopy
  rcases hcopy with hrequested | ⟨_, hpreview | ⟨_, hrest⟩⟩
  · split at hrequested
    · rename_i hallowed
      rw [allowed, Bool.and_eq_true, Bool.or_eq_true, decide_eq_true_eq, decide_eq_true_eq]
        at hallowed
      refine hstored _ hallowed.1 (fun hconversion => ?_) hrequested
      rw [hconversion] at hrequested
      have hdenied := hsmall copy hrequested
      exact hallowed.2.elim (fun hallowed => by simp [hdenied] at hallowed)
        fun hne => hne hconversion
    · cases hrequested
  · exact hstored _ (by decide) (by decide) hpreview
  · split at hrest
    · rename_i hallowed
      simp [hsmall copy hrest] at hallowed
    · cases hrest

/-- The work of an item is kept from viewers without full access exactly if the item is not
exposed. -/
theorem Kept.neverFullWork_iff (hkept : Kept item) : NeverFullWork item ↔ ¬ Exposed item := by
  constructor
  · rintro hnever ⟨hlicensed, horiginal, hsmall⟩
    obtain ⟨small, hsmall⟩ := Option.ne_none_iff_exists'.mp hsmall
    -- an anonymous viewer where licensed items are visible to everybody
    let viewing : Viewing := { viewer := none, licensedGlobally := true }
    have haccess : viewerHasFullAccess viewing item = false := rfl
    have hserved : mediaFile viewing item (some "small") = .ok (some small) := by
      have hview : authorizeMediaView viewing item = .ok ⟨item, true, false⟩ := by
        rw [authorizeMediaView_eq_ok]
        simp [mediaVisibleToViewer, hlicensed, haccess, viewing]
      have hallowed : allowed item .small = true := by
        simp [allowed, smallAllowed, horiginal, unlicensedViewableConversions]
      rw [mediaFile, checks_of_ok hview]
      refine resolve_eq_ok.mpr ⟨small, rfl, ?_⟩
      simp [requestedConversion, hallowed, hsmall]
    obtain ⟨copy, hcopy, hharmless⟩ := (hnever hlicensed viewing haccess).1 _ _ hserved
    obtain rfl := Option.some.inj hcopy
    obtain ⟨hmem, hconversion⟩ := size_eq_some hsmall
    have hcopied := hkept.copied small hmem (by rw [hconversion]; decide)
    rcases hcopied with ⟨_, hplayable⟩ | hpreview | ⟨hstill, _⟩
    · rcases hharmless with hpreview | ⟨_, himage⟩
      · exact absurd (hconversion.symm.trans hpreview) (by decide)
      · rw [not_isImage_of_playable hplayable] at himage
        cases himage
    · exact absurd (hconversion.symm.trans hpreview) (by decide)
    · exact absurd (hconversion ▸ hstill) (by decide)
  · intro hhidden hlicensed viewing haccess
    have hsmall : item.original = none → item.size .small = none := by
      intro horiginal
      by_contra hsmall
      exact hhidden ⟨hlicensed, horiginal, hsmall⟩
    have hview : ∀ access, authorizeMediaView viewing item = .ok access →
        access = ⟨item, true, false⟩ := by
      intro access hok
      rw [(authorizeMediaView_eq_ok.mp hok).2, haccess, decide_eq_true hlicensed]
      rfl
    have hstreamed : ∀ access, authorizeMediaView viewing item = .ok access →
        ∀ variant ∈ streamableVariants access, Harmless variant.2 := by
      intro access hok variant hvariant
      rw [hview access hok] at hvariant
      exact Or.inl (streamableVariants_preview hvariant)
    refine ⟨fun size served hserved => ?_, hstreamed, fun server variant version copy hcopy => ?_⟩
    · obtain ⟨access, hok, hresolved⟩ := checks_eq_ok.mp hserved
      rw [hview access hok] at hresolved
      exact hkept.resolve_harmless hsmall hresolved
    · obtain ⟨access, name, hok, hmem⟩ := authorizedSegments_mem hcopy
      exact hstreamed access hok (name, copy) hmem

end

/-- What happens to an item: a run of the job, or a call that edits some item. The calls look up
the other items of the table. -/
inductive MediaOp where
  | convert (run : ConversionRun)
  | update (others : Nat → Option MediaItem) (currentUser : Content.User) (request : MediaRequest)
  | deleteSizes (others : Nat → Option MediaItem) (currentUser : Content.User)
      (request : MediaRequest)

section

variable (item : MediaItem)

/-- The items of the table. -/
def mediaTable (others : Nat → Option MediaItem) (id : Nat) : Option MediaItem :=
  if id = item.id then some item else others id

/-- The row of an item after a call, which may be about another item, or fail. -/
def edited (request : MediaRequest) : Except Status MediaEdit → MediaItem
  | .ok edit => if request.id = some item.id then edit.item else item
  | .error _ => item

/-- The row of an item after an operation. -/
def MediaOp.apply : MediaOp → MediaItem
  | .convert run => convertPending run item
  | .update others currentUser request =>
    edited item request (updateMedia (mediaTable item others) currentUser request)
  | .deleteSizes others currentUser request =>
    edited item request (deleteMediaSizes (mediaTable item others) currentUser request)

/-- An edit of a licensed item that has a small copy leaves the original with it: the call that
makes it licensed finds the original there, and no call on it deletes the original alone. -/
def MediaOp.KeepsOriginal : MediaOp → Prop
  | .convert _ => True
  | .update others currentUser request =>
    request.id = some item.id → newVisibility item request.visibility = .ok .licensed →
      (updateMedia (mediaTable item others) currentUser request).toBool = true →
      item.size .small ≠ none → item.original ≠ none
  | .deleteSizes _ currentUser request =>
    request.id = some item.id → item.visibility = .licensed →
      validateOwner currentUser item.userId = .ok () →
      item.size .small ≠ none → MediaConversion.small.toI32 ∉ request.sizes →
        MediaConversion.original.toI32 ∉ request.sizes

end

section

variable {item : MediaItem} {others : Nat → Option MediaItem} {currentUser : Content.User}
  {request : MediaRequest} {edit : MediaEdit}

/-- The item that a call about it reads. -/
theorem affectedMedia_mediaTable {affected : MediaItem} (hid : request.id = some item.id) :
    affectedMedia (mediaTable item others) currentUser request.id = .ok affected ↔
      validateOwner currentUser item.userId = .ok () ∧ affected = item := by
  simp only [affectedMedia, hid, mediaTable, checks_eq_ok, okOr_eq_ok, pure_eq_ok]
  constructor
  · rintro ⟨id, hitem, found, hfound, _, hvalid, rfl⟩
    obtain rfl := Option.some.inj hitem
    rw [if_pos rfl, Option.some.injEq] at hfound
    subst hfound
    exact ⟨hvalid, rfl⟩
  · rintro ⟨hvalid, rfl⟩
    exact ⟨_, rfl, _, if_pos rfl, (), hvalid, rfl⟩

/-- An edit keeps the copies that it does not outdate. -/
theorem updateMedia_item (hid : request.id = some item.id)
    (h : updateMedia (mediaTable item others) currentUser request = .ok edit) :
    newVisibility item request.visibility = .ok edit.item.visibility ∧
      ∃ metadata, edit.item.sizes = item.sizes.filter fun size => !outdated item metadata size := by
  simp only [updateMedia, checks_eq_ok, pure_eq_ok] at h
  obtain ⟨affected, haffected, visibility, hvisibility, metadata, _, rfl⟩ := h
  obtain ⟨_, rfl⟩ := (affectedMedia_mediaTable hid).mp haffected
  exact ⟨hvisibility, metadata, rfl⟩

/-- A deletion keeps the copies that it does not name. -/
theorem deleteMediaSizes_item (hid : request.id = some item.id)
    (h : deleteMediaSizes (mediaTable item others) currentUser request = .ok edit) :
    validateOwner currentUser item.userId = .ok () ∧ edit.item.visibility = item.visibility ∧
      edit.item.sizes = item.sizes.filter fun size => size.conversion.toI32 ∉ request.sizes := by
  simp only [deleteMediaSizes, checks_eq_ok, require_eq_ok, pure_eq_ok] at h
  obtain ⟨affected, haffected, _, _, rfl⟩ := h
  obtain ⟨hvalid, rfl⟩ := (affectedMedia_mediaTable hid).mp haffected
  exact ⟨hvalid, rfl, rfl⟩

/-- A deletion by the owner that leaves some copy goes through. -/
theorem deleteMediaSizes_ok (others : Nat → Option MediaItem) (hid : request.id = some item.id)
    (hvalid : validateOwner currentUser item.userId = .ok ()) {size : MediaSize}
    (hsize : size ∈ item.sizes) (hkept : size.conversion.toI32 ∉ request.sizes) :
    ∃ edit, deleteMediaSizes (mediaTable item others) currentUser request = .ok edit := by
  simp only [deleteMediaSizes, checks_eq_ok, require_eq_ok, pure_eq_ok]
  refine ⟨_, item, (affectedMedia_mediaTable hid).mpr ⟨hvalid, rfl⟩, (), ?_, rfl⟩
  exact List.ne_nil_of_mem (List.mem_filter.mpr ⟨hsize, by simpa using hkept⟩)

/-- The copy of a conversion that is kept whole. -/
theorem size_of_filter {after : MediaItem} {p : MediaSize → Bool} {conversion : MediaConversion}
    (hsizes : after.sizes = item.sizes.filter p)
    (hkept : ∀ size, size.conversion = conversion → p size = true) :
    after.size conversion = item.size conversion := by
  unfold MediaItem.size
  rw [hsizes, List.find?_filter]
  congr 1
  funext size
  by_cases h : size.conversion = conversion
  · simp [h, hkept size h]
  · simp [h]

/-- The copy of a conversion that is removed whole. -/
theorem size_of_filter_none {after : MediaItem} {p : MediaSize → Bool}
    {conversion : MediaConversion} (hsizes : after.sizes = item.sizes.filter p)
    (hremoved : ∀ size, size.conversion = conversion → p size = false) :
    after.size conversion = none := by
  rw [size_eq_none, hsizes]
  intro size hsize hconversion
  rw [List.mem_filter, hremoved size hconversion] at hsize
  cases hsize.2

/-- An edit outdates posters and the preview alone. -/
theorem not_outdated {metadata : MediaMetadata} {size : MediaSize}
    (h : size.conversion = .original ∨ size.conversion = .small) :
    outdated item metadata size = false := by
  have hresized : ∀ conversion, conversion = .original ∨ conversion = .small →
      conversion ∉ videoPreviewConversions ∧ conversion ≠ .unlicensedPreviewMedium := by
    rintro _ (rfl | rfl) <;> decide
  obtain ⟨hposter, hpreview⟩ := hresized size.conversion h
  simp [outdated, hposter, hpreview]

/-- A call keeps what is stored of an item if it keeps it where it is about the item. -/
theorem Kept.edited (hkept : Kept item) {answer : Except Status MediaEdit}
    (h : ∀ edit, answer = .ok edit → request.id = some item.id → Kept edit.item) :
    Kept (edited item request answer) := by
  unfold Media.edited
  split
  · split
    · rename_i edit hid
      exact h edit rfl hid
    · exact hkept
  · exact hkept

/-- No operation adds to an item anything but copies of its original. -/
theorem MediaOp.kept_apply (op : MediaOp) (hkept : Kept item) : Kept (op.apply item) := by
  cases op with
  | convert run => exact hkept.convertPending
  | update others currentUser request =>
    refine hkept.edited fun edit hok hid => ?_
    obtain ⟨_, metadata, hsizes⟩ := updateMedia_item hid hok
    exact hkept.of_subset (hsizes ▸ List.filter_sublist.subset)
  | deleteSizes others currentUser request =>
    refine hkept.edited fun edit hok hid => ?_
    obtain ⟨_, _, hsizes⟩ := deleteMediaSizes_item hid hok
    exact hkept.of_subset (hsizes ▸ List.filter_sublist.subset)

/-- An item is exposed by a call exactly if the call makes it licensed or deletes its original,
with the small copy alone left. -/
theorem MediaOp.hidden_apply_iff (op : MediaOp) (hhidden : ¬ Exposed item) :
    ¬ Exposed (op.apply item) ↔ op.KeepsOriginal item := by
  cases op with
  | convert run =>
    refine iff_of_true (fun hexposed => ?_) trivial
    obtain ⟨_, hsame | horiginal⟩ : (convertPending run item).visibility = _ ∧
        (convertPending run item = item ∨ _) := original_of_convertPending
    · exact hhidden (hsame ▸ hexposed)
    · exact horiginal hexposed.2.1
  | update others currentUser request =>
    cases hok : updateMedia (mediaTable item others) currentUser request with
    | error status => simp [MediaOp.apply, MediaOp.KeepsOriginal, edited, hok, hhidden, Except.toBool]
    | ok edit =>
      by_cases hid : request.id = some item.id
      · obtain ⟨hvisibility, metadata, hsizes⟩ := updateMedia_item hid hok
        have horiginal : edit.item.original = item.original :=
          size_of_filter hsizes fun size h => by simp [not_outdated (Or.inl h)]
        have hsmall : edit.item.size .small = item.size .small :=
          size_of_filter hsizes fun size h => by simp [not_outdated (Or.inr h)]
        simp only [MediaOp.apply, MediaOp.KeepsOriginal, edited, hok, hid, if_true, Exposed,
          horiginal, hsmall, hvisibility, Except.toBool, Except.ok.injEq]
        tauto
      · simp [MediaOp.apply, MediaOp.KeepsOriginal, edited, hok, hid, hhidden]
  | deleteSizes others currentUser request =>
    cases hok : deleteMediaSizes (mediaTable item others) currentUser request with
    | error status =>
      simp only [MediaOp.apply, MediaOp.KeepsOriginal, edited, hok, hhidden, not_false_eq_true,
        true_iff]
      intro hid _ hvalid hsmall hkept
      obtain ⟨small, hsmall⟩ := Option.ne_none_iff_exists'.mp hsmall
      obtain ⟨hmem, hconversion⟩ := size_eq_some hsmall
      obtain ⟨edit, hsome⟩ := deleteMediaSizes_ok others hid hvalid hmem
        (hconversion ▸ hkept)
      rw [hok] at hsome
      cases hsome
    | ok edit =>
      by_cases hid : request.id = some item.id
      · obtain ⟨hvalid, hvisibility, hsizes⟩ := deleteMediaSizes_item hid hok
        simp only [MediaOp.apply, MediaOp.KeepsOriginal, edited, hok, hid, if_true, Exposed,
          hvisibility, hvalid, true_implies]
        by_cases hsmallKept : MediaConversion.small.toI32 ∈ request.sizes
        · have hsmall : edit.item.size .small = none :=
            size_of_filter_none hsizes fun size h => by simp [h, hsmallKept]
          simp [hsmall, hsmallKept]
        · have hsmall : edit.item.size .small = item.size .small :=
            size_of_filter hsizes fun size h => by simp [h, hsmallKept]
          by_cases horiginalKept : MediaConversion.original.toI32 ∈ request.sizes
          · have horiginal : edit.item.original = none :=
              size_of_filter_none hsizes fun size h => by simp [h, horiginalKept]
            simp [hsmall, horiginal, hsmallKept, horiginalKept]
          · have horiginal : edit.item.original = item.original :=
              size_of_filter hsizes fun size h => by simp [h, horiginalKept]
            simp only [hsmall, horiginal, horiginalKept, not_false_eq_true, implies_true, iff_true]
            exact hhidden
      · simp [MediaOp.apply, MediaOp.KeepsOriginal, edited, hok, hid, hhidden]

end

/-- The work of an audio or video upload is kept from viewers without full access throughout a run
exactly if no edit leaves the small copy of the licensed item without the original. -/
theorem neverFullWork_iff_keepsOriginal (upload : Upload)
    (hplayable : playable upload.contentType = true) (ops : List MediaOp) :
    Throughout (fun item op => op.apply item) NeverFullWork (createMedia upload) ops ↔
      Along (fun item op => op.apply item) (fun item op => op.KeepsOriginal item)
        (createMedia upload) ops := by
  have hkept := kept_createMedia hplayable
  refine throughout_iff_along (fun item op hkept => op.kept_apply hkept)
    (fun item op hkept hnever => ?_) hkept (fun hlicensed => by cases hlicensed) ops
  rw [(op.kept_apply hkept).neverFullWork_iff]
  exact op.hidden_apply_iff (hkept.neverFullWork_iff.mp hnever)

/-- A song in a converted format. -/
def song : Upload where
  id := 7
  userId := 1
  filename := "song.mp3"
  contentType := "audio/mpeg"
  objectStoragePath := "user/ada/song.mp3"
  uploadedBytes := 4000000

/-- The owner of the song. -/
def artist : Content.User where
  permissions := .array []
  id := 1
  defaultFollowModeration := .unmoderated

/-- A run of the job that makes every copy. -/
def smoothRun : ConversionRun where
  durationMs := some 180000
  output := fun _ => .ok 100000
  retagged := fun _ => .ok 100000
  nowMs := fun _ => 1700000000000

/-- The song is converted, and then its owner makes it licensed. -/
def licensing : List MediaOp :=
  [.convert smoothRun,
    .update (fun _ => none) artist { id := some 7, name := some "song.mp3", visibility := .licensed }]

theorem song_kept : Throughout (fun item op => op.apply item) NeverFullWork (createMedia song)
    licensing := by
  refine (neverFullWork_iff_keepsOriginal song (by decide) licensing).mpr ⟨trivial, ?_, trivial⟩
  intro _ _ _ _
  decide +kernel

/-- Where the owner deletes the original after that, anybody who is logged in gets all of the song
by asking for the small copy. -/
theorem song_served_whole :
    ¬ ∀ (upload : Upload) (ops : List MediaOp), playable upload.contentType = true →
      Throughout (fun item op => op.apply item) NeverFullWork (createMedia upload) ops := by
  intro h
  let ops := licensing ++ [.deleteSizes (fun _ => none) artist { id := some 7, sizes := [0] }]
  let item := run (fun item op => MediaOp.apply item op) (createMedia song) ops
  let viewing : Viewing := { viewer := some { artist with id := 2 } }
  have hnever : NeverFullWork item :=
    throughout_iff.mp (h song ops (by decide)) ops (List.prefix_refl ops)
  have hserved : mediaFile viewing item (some "small") = .ok (some
      ⟨.small, "user/ada/song.mp3.small.1700000000000", "audio/mp4", 100000⟩) := by decide +kernel
  obtain ⟨copy, hcopy, hharmless⟩ :=
    (hnever (by decide +kernel) viewing (by decide +kernel)).1 _ _ hserved
  obtain rfl := Option.some.inj hcopy
  rcases hharmless with hpreview | ⟨_, himage⟩
  · cases hpreview
  · exact absurd himage (by decide)

end Rellm.Media
