import Rellm.Users.Profiles

/-!
# Who sees a user

A user is shown to itself, and to others as its visibility says: to everyone, to whoever is logged
in, to the users that it follows, or to nobody. A listing selects the users that are public for the
viewer, and the viewer. A lookup by name selects besides whoever stands in a follow with the viewer,
be it accepted, asked for or rejected.
-/

namespace Rellm.Users

open Foundation Content

/-- Whether a user may be shown to a viewer. -/
def MaySee (db : DirectoryDb) (viewer : Option Account) (account : Account) : Prop :=
  viewer.map (·.id) = some account.id ∨
    match account.visibility with
    | .globalPublic => True
    | .serverPublic => viewer.isSome = true
    | .limited => ∃ user, viewer = some user ∧ db.followsPassing account.id user.id = true
    | _ => False

/-- Whether a user is among those of a response. -/
def GetUsersResponse.Returns (response : GetUsersResponse) (account : Account) : Prop :=
  ∃ user ∈ response.users, user.id = toProtoId account.id

instance (response : GetUsersResponse) (account : Account) : Decidable (response.Returns account) :=
  inferInstanceAs (Decidable (∃ user ∈ response.users, user.id = toProtoId account.id))

/-- The listings of the viewer's own follow requests. -/
def UserListingType.ofFollowRequests (listingType : UserListingType) : Bool :=
  listingType = .followRequests || listingType = .followRequestsTextSearch

/-- The listings under which a name and an id are looked up. -/
def lookupListings : List (Option UserListingType) := [none, some .everyone, some .admins]

/-- A viewer is shown whom it may see, however it asks, in whatever state the follows are; and
finds a user by its name as by its id. -/
structure OneVisibilityRule (search : UserSearch) (db : DirectoryDb) (viewer : Option Account) :
    Prop where
  returned : ∀ request response account,
    (∀ listing, request.listingType = some listing → listing.ofFollowRequests = false) →
    getUsers search db viewer request = .ok response → account ∈ db.users.rows →
    response.Returns account → MaySee db viewer account
  lookups : ∀ account ∈ db.users.rows, ∀ listing ∈ lookupListings, ∀ page,
    getUsers search db viewer
        { username := some account.username, page := page, listingType := listing } =
      getUsers search db viewer
        { userId := some (toProtoId account.id), page := page, listingType := listing }

/-- Names are unique among the stored users. -/
def UniqueNames (db : DirectoryDb) : Prop :=
  ∀ account ∈ db.users.rows, ∀ other ∈ db.users.rows,
    account.username = other.username → account = other

instance (db : DirectoryDb) : Decidable (UniqueNames db) :=
  inferInstanceAs (Decidable (∀ account ∈ db.users.rows, ∀ other ∈ db.users.rows,
    account.username = other.username → account = other))

/-- Another user, whose profile is not public, in a follow with a viewer, whatever came of it. -/
structure RelatedUnseen (db : DirectoryDb) (viewer account : Account) : Prop where
  stored : account ∈ db.users.rows
  other : account.id ≠ viewer.id
  hidden : account.visibility ∉ publicVisibilities (some viewer.contentUser)
  related : (db.follows.get (viewer.id, account.id)).isSome = true ∨
    (db.follows.get (account.id, viewer.id)).isSome = true

/-- Whether a user stands in a follow with the viewer. -/
def ListedUser.isRelated (row : ListedUser) : Bool :=
  row.follow.isSome || row.targetFollow.isSome

/-- All that a listing selects has a property. -/
def Selects (P : ListedUser → Prop) (listing : Except Failure Listing) : Prop :=
  ∀ rows, listing = .ok rows → ∀ row ∈ rows.rows, P row

theorem Selects.bind {P : ListedUser → Prop} {α : Type} {check : Except Failure α}
    {listing : α → Except Failure Listing} (h : ∀ a, Selects P (listing a)) :
    Selects P (check >>= listing) := by
  intro rows hrows
  obtain ⟨a, -, hlisting⟩ := checks_eq_ok.mp hrows
  exact h a rows hlisting

section

variable {search : UserSearch} {db : DirectoryDb} {viewer : Option Account}
variable {request : GetUsersRequest}

@[simp] theorem account_listedUser (account : Account) :
    (db.listedUser viewer account).account = account := rfl

theorem mem_page {keep : ListedUser → Bool} {offset : Nat} {row : ListedUser}
    (h : row ∈ db.page viewer keep offset) :
    (∃ account ∈ db.users.rows, row = db.listedUser viewer account) ∧ keep row = true := by
  obtain ⟨hrow, hkeep⟩ := List.mem_filter.mp (mem_of_mem_paged h)
  obtain ⟨account, haccount, rfl⟩ := List.mem_map.mp hrow
  exact ⟨⟨account, haccount, rfl⟩, hkeep⟩

/-- What a listing selects for a viewer: users that are public for it, itself, and those that it
stands in a follow with. -/
def Selected (db : DirectoryDb) (viewer : Option Account) (row : ListedUser) : Prop :=
  (∃ account ∈ db.users.rows, row = db.listedUser viewer account) ∧
    (DirectoryDb.visibleProfile viewer row = true ∨ row.isRelated = true)

theorem selects_page (make : List ListedUser → Listing) (hmake : ∀ rows, (make rows).rows = rows)
    {keep : ListedUser → Bool} (offset : Nat)
    (hkeep : ∀ row, keep row = true →
      DirectoryDb.visibleProfile viewer row = true ∨ row.isRelated = true) :
    Selects (Selected db viewer) (.ok (make (db.page viewer keep offset))) := by
  rintro rows ⟨⟩ row hrow
  rw [hmake] at hrow
  obtain ⟨haccount, hkept⟩ := mem_page hrow
  exact ⟨haccount, hkeep row hkept⟩

/-- All other listings than the viewer's own follow requests select alike. -/
theorem selects_listedUsers
    (hlisting : ∀ listing, request.listingType = some listing →
      listing.ofFollowRequests = false) :
    Selects (Selected db viewer) (listedUsers search db viewer request) := by
  have hall (query : Option String) :
      Selects (Selected db viewer) (getAllUsers search db viewer request query) :=
    .bind fun offset => selects_page .plain (fun _ => rfl) offset fun row hkeep =>
      .inl (Bool.and_eq_true_iff.mp hkeep).1
  have hname (username : String) :
      Selects (Selected db viewer) (getByUsername db viewer request username) := by
    refine .bind fun offset => selects_page .lookedUp (fun _ => rfl) offset ?_
    intro row hkeep
    rw [Bool.and_eq_true, Bool.or_assoc, Bool.or_eq_true] at hkeep
    exact hkeep.1
  have hid (userId : IdText) :
      Selects (Selected db viewer) (getByUserId db viewer request userId) :=
    .bind fun _ => .bind fun offset => selects_page .lookedUp (fun _ => rfl) offset
      fun row hkeep => .inl (Bool.and_eq_true_iff.mp hkeep).1
  have hconnected (connected : Nat → Nat → Bool) (userId : IdText) (query : Option String) :
      Selects (Selected db viewer)
        (getConnected search db viewer request connected userId query) := by
    refine .bind fun _ => .bind fun offset => selects_page .federated (fun _ => rfl)
      offset ?_
    intro row hkeep
    rw [Bool.and_eq_true, Bool.and_eq_true] at hkeep
    exact .inl hkeep.1.2
  unfold listedUsers
  split
  case h_1 h => cases hlisting _ h
  case h_2 h => cases hlisting _ h
  case h_3 h => cases hlisting _ h
  case h_4 h => cases hlisting _ h
  all_goals first
    | exact hall none
    | exact hname _
    | exact hid _
    | exact hconnected _ _ none
    | exact .bind hall
    | exact .bind (hconnected _ _)

theorem id_marshalled (listing : Listing) (row : ListedUser) :
    (db.attachAdvancedAdminData viewer (listing.toProto db viewer row)).id =
      toProtoId row.account.id := by
  have hlisting : (listing.toProto db viewer row).id = toProtoId row.account.id := by
    cases listing with
    | plain rows => rfl
    | federated rows => rfl
    | lookedUp rows =>
      rw [Listing.toProto, DirectoryDb.toLookedUp, DirectoryDb.attachOwnSyncDestinations]
      split <;> rfl
  rw [DirectoryDb.attachAdvancedAdminData]
  split <;> exact hlisting

/-- A user that is returned was selected. -/
theorem selected_of_returns {response : GetUsersResponse} {account : Account}
    (hlisting : ∀ listing, request.listingType = some listing →
      listing.ofFollowRequests = false)
    (h : getUsers search db viewer request = .ok response) (haccount : account ∈ db.users.rows)
    (hreturns : response.Returns account) : Selected db viewer (db.listedUser viewer account) := by
  simp only [getUsers, checks_eq_ok, pure_eq_ok] at h
  obtain ⟨listing, hlisted, rfl⟩ := h
  obtain ⟨user, huser, hid⟩ := hreturns
  obtain ⟨row, hrow, rfl⟩ := List.mem_map.mp huser
  obtain ⟨⟨other, hother, rfl⟩, hselected⟩ := selects_listedUsers hlisting listing hlisted row hrow
  rw [id_marshalled] at hid
  have hsame : other = account :=
    db.users.eq_of_key_eq hother haccount (Option.some.inj (congrArg IdText.decoded hid))
  rw [hsame] at hselected
  exact ⟨⟨account, haccount, rfl⟩, hselected⟩

/-- A profile that is public for a viewer, or its own, may be shown to it. -/
theorem maySee_of_visibleProfile {account : Account}
    (h : DirectoryDb.visibleProfile viewer (db.listedUser viewer account) = true) :
    MaySee db viewer account := by
  rw [DirectoryDb.visibleProfile, Bool.or_eq_true, decide_eq_true_eq, decide_eq_true_eq] at h
  rcases h with hpublic | hown
  · right
    rw [account_listedUser] at hpublic
    cases viewer with
    | none =>
      rw [List.mem_singleton.mp hpublic]
      trivial
    | some user =>
      rcases List.mem_pair.mp hpublic with hglobal | hserver
      · rw [hglobal]
        trivial
      · rw [hserver]
        rfl
  · exact .inl hown.symm

/-- Who stands in a follow with a viewer is public for it, or the viewer, where no one else does. -/
theorem visibleProfile_of_isRelated {account : Account} (haccount : account ∈ db.users.rows)
    (h : ∀ user, viewer = some user → ¬RelatedUnseen db user account)
    (hrelated : (db.listedUser viewer account).isRelated = true) :
    DirectoryDb.visibleProfile viewer (db.listedUser viewer account) = true := by
  cases viewer with
  | none => cases hrelated
  | some user =>
    rw [DirectoryDb.visibleProfile, Bool.or_eq_true, decide_eq_true_eq, decide_eq_true_eq]
    by_contra hunseen
    obtain ⟨hhidden, hother⟩ := not_or.mp hunseen
    rw [ListedUser.isRelated, Bool.or_eq_true] at hrelated
    exact h user rfl ⟨haccount, fun hid => hother (congrArg some hid), hhidden, hrelated⟩

end

/-! ### Looking up -/

section

variable {search : UserSearch} {db : DirectoryDb} {viewer : Option Account}
variable {listing : Option UserListingType} {page : Option Int32} {account : Account}

theorem listedUsers_username (hlisting : listing ∈ lookupListings) (username : String) :
    listedUsers search db viewer
        { username := some username, page := page, listingType := listing } =
      getByUsername db viewer
        { username := some username, page := page, listingType := listing } username := by
  simp only [lookupListings, List.mem_cons, List.not_mem_nil, or_false] at hlisting
  rcases hlisting with rfl | rfl | rfl <;> cases viewer <;> rfl

theorem listedUsers_userId (hlisting : listing ∈ lookupListings) (userId : IdText) :
    listedUsers search db viewer
        { userId := some userId, page := page, listingType := listing } =
      getByUserId db viewer
        { userId := some userId, page := page, listingType := listing } userId := by
  simp only [lookupListings, List.mem_cons, List.not_mem_nil, or_false] at hlisting
  rcases hlisting with rfl | rfl | rfl <;> cases viewer <;> rfl

/-- The row of a name is the row of the id, where no follow shows more. -/
theorem lookups_agree (hnames : UniqueNames db) (haccount : account ∈ db.users.rows)
    (hlisting : listing ∈ lookupListings)
    (h : ∀ user, viewer = some user → ¬RelatedUnseen db user account) :
    getUsers search db viewer
        { username := some account.username, page := page, listingType := listing } =
      getUsers search db viewer
        { userId := some (toProtoId account.id), page := page, listingType := listing } := by
  have hkeep (row : ListedUser) (hrow : row ∈ db.users.rows.map (db.listedUser viewer)) :
      ((DirectoryDb.visibleProfile viewer row || row.follow.isSome || row.targetFollow.isSome) &&
          decide (row.account.username = account.username)) =
        (DirectoryDb.visibleProfile viewer row && decide (row.account.id = account.id)) := by
    obtain ⟨other, hother, rfl⟩ := List.mem_map.mp hrow
    by_cases hsame : other = account
    · subst hsame
      have hseen := visibleProfile_of_isRelated haccount h
      rw [Bool.or_assoc]
      change ((_ || (db.listedUser viewer other).isRelated) && _) = _
      cases hrelated : (db.listedUser viewer other).isRelated with
      | false => simp
      | true => simp [hseen hrelated]
    · have hname : other.username ≠ account.username :=
        fun heq => hsame (hnames other hother account haccount heq)
      have hid : other.id ≠ account.id :=
        fun heq => hsame (db.users.eq_of_key_eq hother haccount heq)
      simp [hname, hid]
  rw [getUsers, getUsers, listedUsers_username hlisting, listedUsers_userId hlisting]
  have hpage (offset : Nat) := congrArg (paged DirectoryDb.newestAccountFirst offset userPageSize)
    (List.filter_congr hkeep)
  have hsame : getByUsername db viewer
        { username := some account.username, page := page, listingType := listing }
        account.username =
      getByUserId db viewer
        { userId := some (toProtoId account.id), page := page, listingType := listing }
        (toProtoId account.id) :=
    bind_congr fun offset => congrArg (fun rows => Except.ok (Listing.lookedUp rows)) (hpage offset)
  rw [hsame]

/-- An id finds nobody whose profile is not public for the viewer. -/
theorem getByUserId_eq_nil (haccount : account ∈ db.users.rows)
    (h : DirectoryDb.visibleProfile viewer (db.listedUser viewer account) = false) :
    getUsers search db viewer { userId := some (toProtoId account.id) } = .ok {} := by
  have hnone : (db.users.rows.map (db.listedUser viewer)).filter (fun row =>
      DirectoryDb.visibleProfile viewer row && decide (row.account.id = account.id)) = [] := by
    rw [List.filter_eq_nil_iff]
    intro row hrow hkept
    obtain ⟨other, hother, rfl⟩ := List.mem_map.mp hrow
    rw [Bool.and_eq_true, decide_eq_true_eq] at hkept
    have hsame : other = account := db.users.eq_of_key_eq hother haccount hkept.2
    rw [hsame, h] at hkept
    cases hkept.1
  have hfound : getByUserId db viewer { userId := some (toProtoId account.id) }
      (toProtoId account.id) = .ok (.lookedUp []) := by
    change Except.ok (Listing.lookedUp (DirectoryDb.page db viewer _ _)) = _
    rw [DirectoryDb.page, hnone, paged_nil]
  rw [getUsers, listedUsers_userId (by decide), hfound]
  rfl

variable (search) in
/-- A name finds whoever stands in a follow with the viewer. -/
theorem getByUsername_ne_nil (haccount : account ∈ db.users.rows)
    (h : (db.listedUser viewer account).isRelated = true) :
    ∃ response, getUsers search db viewer { username := some account.username } = .ok response ∧
      response.users ≠ [] := by
  have hmem : db.listedUser viewer account ∈
      (db.users.rows.map (db.listedUser viewer)).filter (fun row =>
        (DirectoryDb.visibleProfile viewer row || row.follow.isSome || row.targetFollow.isSome) &&
          decide (row.account.username = account.username)) := by
    rw [List.mem_filter]
    refine ⟨List.mem_map.mpr ⟨account, haccount, rfl⟩, ?_⟩
    rw [Bool.or_assoc, Bool.and_eq_true, Bool.or_eq_true, decide_eq_true_eq]
    exact ⟨.inr h, rfl⟩
  rw [getUsers, listedUsers_username (by decide)]
  refine ⟨_, rfl, ?_⟩
  rw [Ne, List.map_eq_nil_iff]
  exact fun hnil => List.ne_nil_of_mem hmem ((paged_zero_eq_nil_iff (by decide)).mp hnil)

end

/-- The rule holds exactly if the viewer stands in no follow, accepted or not, with another user
whose profile is not public. -/
theorem oneVisibilityRule_iff {search : UserSearch} {db : DirectoryDb} {viewer : Option Account}
    (hnames : UniqueNames db) :
    OneVisibilityRule search db viewer ↔
      ∀ user, viewer = some user → ∀ account, ¬RelatedUnseen db user account := by
  constructor
  · rintro hrule user rfl account ⟨haccount, hother, hhidden, hrelated⟩
    have hunseen :
        DirectoryDb.visibleProfile (some user) (db.listedUser (some user) account) = false := by
      rw [DirectoryDb.visibleProfile, Bool.or_eq_false_iff, decide_eq_false_iff_not,
        decide_eq_false_iff_not]
      exact ⟨hhidden, fun hid => hother (Option.some.inj hid)⟩
    have hrow : (db.listedUser (some user) account).isRelated = true := by
      rw [ListedUser.isRelated, Bool.or_eq_true]
      exact hrelated
    obtain ⟨response, hresponse, hne⟩ := getByUsername_ne_nil search haccount hrow
    have hagree := hrule.lookups account haccount (some .everyone) (by decide) none
    rw [hresponse, getByUserId_eq_nil haccount hunseen] at hagree
    obtain rfl := Except.ok.inj hagree
    exact hne rfl
  · intro h
    refine ⟨?_, fun account haccount listing hlisting page =>
      lookups_agree hnames haccount hlisting fun user huser => h user huser account⟩
    intro request response account hlisting hresponse haccount hreturns
    obtain ⟨-, hvisible | hrelated⟩ := selected_of_returns hlisting hresponse haccount hreturns
    · exact maySee_of_visibleProfile hvisible
    · exact maySee_of_visibleProfile
        (visibleProfile_of_isRelated haccount (fun user huser => h user huser account) hrelated)

/-- A user who asks to see others. -/
def asking : Account where
  permissions := .array []
  id := 1
  defaultFollowModeration := .unmoderated
  username := "ann"
  passwordSaltedHash := ""

/-- A user who is to be seen by nobody, and accepts each follower. -/
def unseen : Account where
  permissions := .array []
  id := 2
  defaultFollowModeration := .pending
  username := "bob"
  passwordSaltedHash := ""
  visibility := .private

/-- The two users, with the follows between them. -/
def unseenDirectory (follows : Table FollowRow.key) : DirectoryDb where
  users := ⟨⟨[asking, unseen], by decide⟩, 3, by decide⟩
  media := .empty
  follows := follows
  related := fun _ _ => {}
  defaults := .error dataError

/-- Who has to be accepted has been asked. -/
def askedToFollow : Table FollowRow.key :=
  ⟨[{ userId := 1, targetUserId := 2, targetUserModeration := .pending,
      createdAt := 0, updatedAt := 0 }], by decide⟩

/-- A search that finds users by their names. -/
def plainSearch : UserSearch :=
  ⟨Char.isAlphanum, fun username _ _ query => username = query⟩

theorem stranger_unseen :
    OneVisibilityRule plainSearch (unseenDirectory .empty) (some asking) := by
  refine (oneVisibilityRule_iff (by decide +kernel)).mpr ?_
  rintro user ⟨⟩ account hrelated
  rcases hrelated.related with hfollow | hfollow <;> cases hfollow

/-- Having asked to follow shows a profile that nobody may see. -/
theorem asking_shows_unseen :
    ¬OneVisibilityRule plainSearch (unseenDirectory askedToFollow) (some asking) := by
  intro hrule
  have hreturned : ∃ response,
      getUsers plainSearch (unseenDirectory askedToFollow) (some asking)
        { username := some "bob" } = .ok response ∧ response.Returns unseen :=
    ⟨_, rfl, by decide +kernel⟩
  obtain ⟨response, hresponse, hreturns⟩ := hreturned
  rcases hrule.returned _ response unseen (by rintro _ ⟨⟩; rfl) hresponse (by decide) hreturns with
    hown | hpublic
  · exact absurd hown (by decide)
  · exact hpublic

end Rellm.Users
