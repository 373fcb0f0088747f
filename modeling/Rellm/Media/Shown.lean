import Rellm.Media.Listing

/-!
# One rule for who sees an item

An item is asked for by its id, as a file over HTTP and as a row with `GetMedia`. An admin is served
the file of every item, and is listed the items that anybody else in their place would be.
-/

namespace Rellm.Media

open Foundation Content

/-- What the tables say about a viewer of an item. -/
def MediaLibrary.viewing (library : MediaLibrary) (viewer : Option Content.User)
    (entry : MediaEntry) : Viewing where
  viewer := viewer
  followsOwner := viewer.any fun viewer => entry.userId.any fun owner =>
    (library.follows.get (viewer.id, owner)).isSome
  licensedGlobally := library.licensedGlobally

/-- Whether an item is served as a file. -/
def MediaLibrary.Serves (library : MediaLibrary) (viewer : Option Content.User)
    (entry : MediaEntry) : Prop :=
  ∃ access, authorizeMediaView (library.viewing viewer entry) entry.toMediaItem = .ok access

/-- Whether `GetMedia` with the id of an item returns the item. -/
def MediaLibrary.Lists {search : MediaSearch} (library : MediaLibrary)
    (engine : MediaEngine search) (viewer : Option Content.User) (entry : MediaEntry) : Prop :=
  ∃ response, getMedia search engine library viewer { mediaId := some (toProtoId entry.id) } =
      .ok response ∧ entry ∈ response.media

/-- Whether somebody else's item is shown to a user by its visibility. -/
def MediaLibrary.ShownToOthers (library : MediaLibrary) (user : Content.User)
    (entry : MediaEntry) : Prop :=
  entry.visibility ∈ [.globalPublic, .serverPublic, .licensed] ∨
    entry.visibility = .limited ∧
      ∃ owner, entry.userId = some owner ∧ (library.follows.get (user.id, owner)).isSome = true

/-- An admin sees somebody else's item that its visibility does not show to the admin. -/
def MediaLibrary.SeenAsAdmin (library : MediaLibrary) (viewer : Option Content.User)
    (entry : MediaEntry) : Prop :=
  ∃ user, viewer = some user ∧ .admin ∈ user.permissions.toProtoPermissions ∧
    entry.userId ≠ some user.id ∧ ¬ library.ShownToOthers user entry

section

variable {search : MediaSearch} {engine : MediaEngine search} {library : MediaLibrary}
variable {viewer : Option Content.User} {entry : MediaEntry}

/-- `GetMedia` with the id of an item returns it to the viewers who may see it. -/
theorem lists_iff (hentry : entry ∈ library.media.rows) :
    library.Lists engine viewer entry ↔ library.shows viewer entry = true := by
  let rows := (library.queryVisibleMedia viewer).filter
    (library.asks ⟨some entry.id, none, none, none⟩)
  have hrow : ∀ other ∈ rows, other = entry := by
    intro other hother
    obtain ⟨hvisible, hasked⟩ := List.mem_filter.mp hother
    have hid : other.id = entry.id := by simpa [MediaLibrary.asks] using hasked
    exact library.media.eq_of_key_eq (List.mem_of_mem_filter hvisible) hentry hid
  have hnodup : rows.Nodup := ((List.Nodup.of_map _ library.media.nodup).filter _).filter _
  have hlength : rows.length ≤ 1 :=
    (List.subperm_of_subset hnodup fun other hother =>
      List.mem_singleton.mpr (hrow other hother)).length_le
  have hsort := (engine.newest.sorts rows).1
  have hanswer : getMedia search engine library viewer { mediaId := some (toProtoId entry.id) } =
      .ok ⟨(pageOf mediaPageSize (engine.newest.sort rows) 0).1,
        (pageOf mediaPageSize (engine.newest.sort rows) 0).2⟩ := by
    have hparse : GetMediaRequest.parse search.isAlphanumeric
        { mediaId := some (toProtoId entry.id) } = .ok ⟨some entry.id, none, none, none⟩ := rfl
    have hload := loadPage_eq (engine.newest.sort rows) 0
    rw [UInt32.toNat_zero] at hload
    rw [← hload, getMedia, checks_of_ok (answered_eq_ok.mpr hparse)]
  have hpage : (pageOf mediaPageSize (engine.newest.sort rows) 0).1 = engine.newest.sort rows := by
    rw [pageOf_fst, Nat.zero_mul, List.drop_zero, List.take_of_length_le]
    rw [hsort.length_eq]
    exact hlength.trans (by decide)
  constructor
  · rintro ⟨response, hresponse, hmem⟩
    obtain rfl := Except.ok.inj (hanswer.symm.trans hresponse)
    rw [hpage] at hmem
    exact (List.mem_filter.mp (List.mem_filter.mp (hsort.mem_iff.mp hmem)).1).2
  · intro hshown
    refine ⟨_, hanswer, ?_⟩
    rw [hpage]
    refine hsort.mem_iff.mpr (List.mem_filter.mpr ⟨List.mem_filter.mpr ⟨hentry, hshown⟩, ?_⟩)
    simp [MediaLibrary.asks]

/-- An item is served as a file to whom it is visible over HTTP. -/
theorem serves_iff : library.Serves viewer entry ↔
    mediaVisibleToViewer (library.viewing viewer entry) entry.toMediaItem = true := by
  have hfollow : mediaVisibleToViewer { library.viewing viewer entry with
      followsOwner := entry.visibility = .limited && (library.viewing viewer entry).followsOwner }
        entry.toMediaItem =
      mediaVisibleToViewer (library.viewing viewer entry) entry.toMediaItem := by
    unfold mediaVisibleToViewer
    cases hvisibility : entry.visibility <;> rfl
  constructor
  · rintro ⟨access, haccess⟩
    exact hfollow ▸ (authorizeMediaView_eq_ok.mp haccess).1
  · intro hvisible
    exact ⟨_, authorizeMediaView_eq_ok.mpr ⟨hfollow ▸ hvisible, rfl⟩⟩

/-- Nobody has the id that stands for an anonymous viewer. -/
theorem get_follow_zero (owner : Nat) : library.follows.get (0, owner) = none := by
  by_contra h
  obtain ⟨follow, hget⟩ := Option.ne_none_iff_exists'.mp h
  obtain ⟨hmem, hkey⟩ := Table.get_eq_some_iff.mp hget
  exact library.followed follow hmem (congrArg Prod.fst hkey)

/-- Whether an item is one of those shown to others than its owner. -/
theorem mem_public_iff {licensedGlobally : Bool} {visibility : Visibility} :
    visibility ∈ publicMediaVisibilities viewer licensedGlobally ↔
      visibility = .globalPublic ∨ visibility = .serverPublic ∧ viewer.isSome = true ∨
        visibility = .licensed ∧ (viewer.isSome = true ∨ licensedGlobally = true) := by
  unfold publicMediaVisibilities
  cases viewer <;> cases licensedGlobally <;> simp

/-- An anonymous viewer is served what it is listed. -/
theorem served_none_iff (hentry : entry ∈ library.media.rows) :
    mediaVisibleToViewer (library.viewing none entry) entry.toMediaItem = true ↔
      library.shows none entry = true := by
  have howner : entry.userId ≠ some 0 := library.owned entry hentry
  have hfollow : (entry.userId.any fun owner =>
      (library.follows.get (viewerId none, owner)).isSome) = false := by
    rw [Option.any_eq_false]
    intro owner _
    rw [viewerId, Option.map_none, Option.getD_none, get_follow_zero]
    rfl
  rw [MediaLibrary.shows, hfollow, mediaVisibleToViewer]
  simp only [Bool.or_eq_true, decide_eq_true_eq, mem_public_iff, Bool.and_false]
  cases hvisibility : entry.visibility <;>
    simp [Viewing.ownsOrAdmin, MediaLibrary.viewing, viewerId, howner]

/-- A viewer who is logged in is served its own items, all of them as an admin, and what is shown to
others. -/
theorem served_some_iff {user : Content.User} :
    mediaVisibleToViewer (library.viewing (some user) entry) entry.toMediaItem = true ↔
      entry.userId = some user.id ∨ .admin ∈ user.permissions.toProtoPermissions ∨
        library.ShownToOthers user entry := by
  rw [mediaVisibleToViewer, Bool.or_eq_true, ← or_assoc]
  refine or_congr ?_ ?_
  · simp [Viewing.ownsOrAdmin, MediaLibrary.viewing]
  · rw [MediaLibrary.ShownToOthers]
    cases hvisibility : entry.visibility <;>
      simp [MediaLibrary.viewing, Option.any_eq_true]

/-- A viewer who is logged in is listed its own items and what is shown to others. -/
theorem shows_some_iff {user : Content.User} : library.shows (some user) entry = true ↔
    entry.userId = some user.id ∨ library.ShownToOthers user entry := by
  have hid : viewerId (some user) = user.id := rfl
  rw [MediaLibrary.shows, MediaLibrary.ShownToOthers, Bool.or_eq_true, decide_eq_true_iff, or_comm,
    hid]
  simp only [Bool.or_eq_true, Bool.and_eq_true, decide_eq_true_eq, mem_public_iff,
    Option.any_eq_true, Option.isSome_some, and_true, true_or, List.mem_cons, List.not_mem_nil,
    or_false]

/-- An item is served over HTTP exactly if it is listed, unless the viewer sees it as an admin
only. -/
theorem serves_iff_lists_iff (search : MediaSearch) (engine : MediaEngine search)
    (library : MediaLibrary) (viewer : Option Content.User) {entry : MediaEntry}
    (hentry : entry ∈ library.media.rows) :
    (library.Serves viewer entry ↔ library.Lists engine viewer entry) ↔
      ¬ library.SeenAsAdmin viewer entry := by
  rw [lists_iff hentry, serves_iff]
  cases viewer with
  | none =>
    refine iff_of_true (served_none_iff hentry) ?_
    rintro ⟨_, h, _⟩
    cases h
  | some user =>
    have hseen : library.SeenAsAdmin (some user) entry ↔
        .admin ∈ user.permissions.toProtoPermissions ∧ entry.userId ≠ some user.id ∧
          ¬ library.ShownToOthers user entry := by
      constructor
      · rintro ⟨_, ⟨⟩, h⟩
        exact h
      · intro h
        exact ⟨user, rfl, h⟩
    rw [served_some_iff, shows_some_iff, hseen]
    by_cases howner : entry.userId = some user.id
    · simp [howner]
    · by_cases hshown : library.ShownToOthers user entry
      · simp [hshown]
      · simp [howner, hshown]

end

/-- No search. -/
def blindSearch : MediaSearch where
  isAlphanumeric := Char.isAlphanum
  matchesMedia _ _ := false
  mediaRank _ _ := 0

/-- Sorts that keep equal items in order. -/
def stableEngine (search : MediaSearch) : MediaEngine search := ⟨.stable _, fun _ => .stable _⟩

/-- A private photo of the first user. -/
def privatePhoto : MediaEntry where
  id := 1
  userId := some 1
  name := none
  visibility := .private
  sizes := []
  createdAt := 0

/-- The library with that photo only. -/
def photoLibrary : MediaLibrary where
  media := ⟨[privatePhoto], List.nodup_singleton _⟩
  follows := .empty
  avatars := []
  licensedGlobally := false
  owned := by
    intro entry hentry
    rw [List.mem_singleton.mp hentry]
    decide
  followed := by
    intro follow hfollow
    cases hfollow

/-- An admin of the server. -/
def mediaAdmin : Content.User where
  permissions := .array [some "ADMIN"]
  id := 2
  defaultFollowModeration := .unmoderated

/-- An anonymous viewer is neither served nor listed the photo. -/
theorem privatePhoto_served_as_listed :
    photoLibrary.Serves none privatePhoto ↔
      photoLibrary.Lists (stableEngine blindSearch) none privatePhoto := by
  refine (serves_iff_lists_iff blindSearch (stableEngine blindSearch) photoLibrary none
    (List.mem_singleton_self privatePhoto)).mpr ?_
  rintro ⟨_, h, _⟩
  cases h

/-- An admin is served the photo, and is not listed it. -/
theorem admin_served_not_listed :
    ¬ ∀ (search : MediaSearch) (engine : MediaEngine search) (library : MediaLibrary)
      (viewer : Option Content.User) (entry : MediaEntry), entry ∈ library.media.rows →
      (library.Serves viewer entry ↔ library.Lists engine viewer entry) := by
  intro h
  have hmem : privatePhoto ∈ photoLibrary.media.rows := List.mem_singleton_self privatePhoto
  have hserved : photoLibrary.Serves (some mediaAdmin) privatePhoto :=
    serves_iff.mpr (by decide +kernel)
  have hlisted := (h blindSearch (stableEngine blindSearch) photoLibrary (some mediaAdmin)
    privatePhoto hmem).mp hserved
  exact absurd ((lists_iff hmem).mp hlisted) (by decide +kernel)

end Rellm.Media
