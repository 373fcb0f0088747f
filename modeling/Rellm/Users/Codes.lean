import Rellm.Users.Profiles

/-!
# Codes and replies

Two states of the directory that differ in the codes of verifications in progress only. What a
call replies is the same in both, apart from the codes of users whose number is shown.
-/

namespace Rellm.Users

open Foundation Content

/-- A number with another code, where one is in progress. -/
def ContactMethod.withCode (code : String) (method : ContactMethod) : ContactMethod :=
  { method with
    verificationInProgress := method.verificationInProgress.map
      fun verification => { verification with verificationCode := code } }

/-- The code of a number. -/
def ContactMethod.code (method : ContactMethod) : Option String :=
  method.verificationInProgress.map (·.verificationCode)

/-- The other code is the one of the number, if it had any. -/
theorem ContactMethod.code_withCode (code : String) (method : ContactMethod) :
    (method.withCode code).code = method.code.map fun _ => code := by
  rw [ContactMethod.code, ContactMethod.code, withCode, Option.map_map, Option.map_map]
  rfl

/-- A number keeps its code exactly if the other one is the same. -/
theorem ContactMethod.withCode_eq_self_iff {code : String} {method : ContactMethod} :
    method.withCode code = method ↔ ∀ own ∈ method.code, own = code := by
  obtain ⟨value, visibility, supported, verifiedAt, progress, consent, history⟩ := method
  cases progress with
  | none => exact iff_of_true rfl nofun
  | some verification =>
    constructor
    · intro h own hown
      obtain rfl := Option.some.inj hown
      have hprogress := Option.some.inj (congrArg ContactMethod.verificationInProgress h)
      exact (congrArg ContactMethodVerification.verificationCode hprogress).symm
    · intro h
      obtain rfl := h _ rfl
      rfl

/-- A user with another code. -/
def Account.withCode (code : String) (account : Account) : Account :=
  { account with phone := account.phone.map (·.withCode code) }

/-- The code of a user. -/
def Account.code (account : Account) : Option String := account.phone.bind ContactMethod.code

theorem Account.code_withCode (code : String) (account : Account) :
    (account.withCode code).code = account.code.map fun _ => code := by
  unfold Account.code withCode
  cases account.phone with
  | none => rfl
  | some method => exact method.code_withCode code

/-- Of two codes for a user the last one remains. -/
theorem Account.withCode_withCode (code other : String) (account : Account) :
    (account.withCode code).withCode other = account.withCode other := by
  have hmethod (method : ContactMethod) :
      (method.withCode code).withCode other = method.withCode other := by
    rw [ContactMethod.withCode, ContactMethod.withCode, ContactMethod.withCode, Option.map_map]
    rfl
  unfold withCode
  dsimp only
  rw [Option.map_map]
  exact congrArg (fun phone => ({ account with phone := phone } : Account))
    (Option.map_congr fun method _ => hmethod method)

/-- A user keeps the code that is there already. -/
theorem Account.withCode_eq_self {code : String} {account : Account}
    (h : ∀ own ∈ account.code, own = code) : account.withCode code = account := by
  have hphone : account.phone.map (·.withCode code) = account.phone := by
    cases hmethod : account.phone with
    | none => rfl
    | some method =>
      refine congrArg some (ContactMethod.withCode_eq_self_iff.mpr fun own hown => h own ?_)
      rw [Account.code, hmethod]
      exact hown
  rw [withCode, hphone]

/-- A user with the code of its id. -/
def Account.recode (codes : Nat → String) (account : Account) : Account :=
  account.withCode (codes account.id)

/-- The accounts with other codes. -/
def AccountsDb.recode (codes : Nat → String) (db : AccountsDb) : AccountsDb :=
  { db with users := db.users.update (fun _ => true) (Account.recode codes) fun _ => rfl }

/-- The directory with other codes. -/
def DirectoryDb.recode (codes : Nat → String) (db : DirectoryDb) : DirectoryDb :=
  { db with accounts := db.accounts.recode codes }

/-- Two states differ in codes only. -/
def SameButCodes (db db' : DirectoryDb) : Prop :=
  db.recode (fun _ => "") = db'.recode fun _ => ""

/-- The code of a user. -/
def DirectoryDb.codeOf (db : DirectoryDb) (userId : Nat) : Option String :=
  (db.users.get userId).bind Account.code

namespace AccountsDb

variable (codes : Nat → String) (db : AccountsDb)

theorem rows_recode : (db.recode codes).users.rows = db.users.rows.map (Account.recode codes) := by
  unfold recode
  exact List.map_congr_left fun account _ => if_pos rfl

theorem get_recode (userId : Nat) :
    (db.recode codes).users.get userId = (db.users.get userId).map (Account.recode codes) :=
  calc
    (db.recode codes).users.get userId =
        (db.users.get userId).map fun account => if true then account.recode codes else account :=
      Table.get_update db.users.toTable (fun _ => true) (Account.recode codes) (fun _ => rfl) userId
    _ = (db.users.get userId).map (Account.recode codes) := by simp only [if_true]

/-- Of two rewrites of the codes the last one remains. -/
theorem recode_recode (others : Nat → String) :
    (db.recode codes).recode others = db.recode others := by
  have hrows : ((db.recode codes).recode others).users.rows = (db.recode others).users.rows := by
    rw [rows_recode, rows_recode, rows_recode, List.map_map]
    exact List.map_congr_left fun account _ => Account.withCode_withCode _ _ account
  exact congrArg (fun users => ({ db with users := users } : AccountsDb))
    (Serial.ext_of_rows hrows rfl)

/-- The codes that are there already change nothing. -/
theorem recode_own {codes : Nat → String}
    (h : ∀ account ∈ db.users.rows, ∀ own ∈ account.code, own = codes account.id) :
    db.recode codes = db := by
  have hrows : (db.recode codes).users.rows = db.users.rows := by
    rw [rows_recode]
    refine (List.map_congr_left fun account haccount => ?_).trans (List.map_id _)
    exact Account.withCode_eq_self (h account haccount)
  exact congrArg (fun users => ({ db with users := users } : AccountsDb))
    (Serial.ext_of_rows hrows rfl)

end AccountsDb

/-- Of two states that differ in codes only, one is the other with other codes. -/
theorem SameButCodes.exists_recode {db db' : DirectoryDb} (h : SameButCodes db db') :
    ∃ codes, db' = db.recode codes := by
  let codes (userId : Nat) : String := (db'.codeOf userId).getD ""
  have hown : db'.accounts.recode codes = db'.accounts := by
    refine db'.accounts.recode_own fun account haccount own hcode => ?_
    have hget : db'.users.get account.id = some account :=
      Table.get_eq_some_iff.mpr ⟨haccount, rfl⟩
    have hcodeOf : db'.codeOf account.id = some own := by
      rw [DirectoryDb.codeOf, hget]
      exact hcode
    exact (congrArg (fun code => Option.getD code "") hcodeOf).symm
  refine ⟨codes, ?_⟩
  calc
    db' = db'.recode codes :=
      (congrArg (fun accounts => ({ db' with accounts := accounts } : DirectoryDb)) hown).symm
    _ = (db'.recode fun _ => "").recode codes := by
      rw [DirectoryDb.recode, DirectoryDb.recode, DirectoryDb.recode, AccountsDb.recode_recode]
    _ = (db.recode fun _ => "").recode codes := by rw [h]
    _ = db.recode codes := by
      rw [DirectoryDb.recode, DirectoryDb.recode, DirectoryDb.recode, AccountsDb.recode_recode]

/-- Whether a viewer is shown a number of a user with a code in progress. -/
def exposesCode (viewer : Option Account) (account : Account) : Bool :=
  account.phone.any fun phone =>
    phone.verificationInProgress.isSome && visibleContactMethod phone account.id viewer

/-- Another code of a number does not change what else of it is shown. -/
theorem shownContactMethod_withCode (phone : Option ContactMethod) (ownerId : Nat)
    (viewer : Option Account) (code : String) :
    shownContactMethod (phone.map (·.withCode code)) ownerId viewer =
      (shownContactMethod phone ownerId viewer).map (·.withCode code) := by
  have hscrub (method : ContactMethod) :
      scrubConsentForViewer (method.withCode code) ownerId viewer =
        (scrubConsentForViewer method ownerId viewer).withCode code := by
    unfold scrubConsentForViewer
    split_ifs <;> rfl
  cases phone with
  | none => rfl
  | some method =>
    have hvisible : visibleContactMethod (method.withCode code) ownerId viewer =
        visibleContactMethod method ownerId viewer := rfl
    rw [shownContactMethod, shownContactMethod, Option.map_some, Option.filter_some,
      Option.filter_some, hvisible]
    split
    · rw [Option.map_some, Option.map_some, Option.map_some, hscrub]
    · rfl

/-- The code that a viewer is shown. -/
theorem code_shownContactMethod (viewer : Option Account) (account : Account) :
    (shownContactMethod account.phone account.id viewer).bind ContactMethod.code =
      if exposesCode viewer account then account.code else none := by
  unfold shownContactMethod exposesCode Account.code
  cases account.phone with
  | none => rfl
  | some method =>
    have hscrub : (scrubConsentForViewer method account.id viewer).code = method.code := by
      unfold scrubConsentForViewer
      split_ifs <;> rfl
    rw [Option.filter_some, Option.any_some, Option.bind_some]
    cases hvisible : visibleContactMethod method account.id viewer with
    | false => simp
    | true =>
      rw [if_pos rfl, Option.map_some, Option.bind_some, hscrub, Bool.and_true]
      cases hprogress : method.verificationInProgress with
      | none => simp [ContactMethod.code, hprogress]
      | some verification => rfl

/-- A code that is exposed is there. -/
theorem exists_code_of_exposes {viewer : Option Account} {account : Account}
    (h : exposesCode viewer account = true) : ∃ own, account.code = some own := by
  obtain ⟨method, hphone, hmethod⟩ := (Option.any_eq_true _ _).mp h
  obtain ⟨verification, hprogress⟩ := Option.isSome_iff_exists.mp (Bool.and_eq_true_iff.mp hmethod).1
  refine ⟨verification.verificationCode, ?_⟩
  rw [Account.code, hphone, Option.bind_some, ContactMethod.code, hprogress, Option.map_some]

/-- A number is shown alike with another code exactly if no code is shown with it, or that one. -/
theorem shownContactMethod_withCode_iff (viewer : Option Account) (account : Account)
    (code : String) :
    shownContactMethod (account.withCode code).phone account.id viewer =
        shownContactMethod account.phone account.id viewer ↔
      (exposesCode viewer account = true → account.code = some code) := by
  have hshown := code_shownContactMethod viewer account
  have hsame : (shownContactMethod (account.withCode code).phone account.id viewer =
      shownContactMethod account.phone account.id viewer) ↔
      ∀ own ∈ (shownContactMethod account.phone account.id viewer).bind ContactMethod.code,
        own = code := by
    rw [Account.withCode, shownContactMethod_withCode]
    cases shownContactMethod account.phone account.id viewer with
    | none => exact iff_of_true rfl nofun
    | some method =>
      rw [Option.map_some, Option.some_inj, ContactMethod.withCode_eq_self_iff, Option.bind_some]
  rw [hsame, hshown]
  constructor
  · intro h hexposes
    obtain ⟨own, hown⟩ := exists_code_of_exposes hexposes
    rw [if_pos hexposes] at h
    rw [hown, h own hown]
  · intro h own hown
    by_cases hexposes : exposesCode viewer account = true
    · rw [if_pos hexposes, h hexposes] at hown
      exact (Option.some.inj hown).symm
    · rw [if_neg hexposes] at hown
      cases hown

/-- A user as it is shown, with another number. -/
def ProtoUser.withPhone (phone : Option ContactMethod) (user : ProtoUser) : ProtoUser :=
  { user with phone := phone }

theorem ProtoUser.withPhone_eq_self_iff {phone : Option ContactMethod} {user : ProtoUser} :
    user.withPhone phone = user ↔ phone = user.phone := by
  constructor
  · intro h
    exact congrArg ProtoUser.phone h
  · rintro rfl
    rfl

/-- A row of a listing with other codes. -/
def ListedUser.recode (codes : Nat → String) (row : ListedUser) : ListedUser :=
  { row with account := row.account.recode codes }

/-- A listing with other codes. -/
def Listing.recode (codes : Nat → String) : Listing → Listing
  | .plain rows => .plain (rows.map (ListedUser.recode codes))
  | .federated rows => .federated (rows.map (ListedUser.recode codes))
  | .lookedUp rows => .lookedUp (rows.map (ListedUser.recode codes))

namespace DirectoryDb

variable (codes : Nat → String) (db : DirectoryDb) (viewer : Option Account)

theorem get_recode (userId : Nat) :
    (db.recode codes).users.get userId = (db.users.get userId).map (Account.recode codes) :=
  AccountsDb.get_recode codes db.accounts userId

/-- What is attached to a user does not depend on the codes. -/
theorem relatedOf_recode (userId : Nat) : (db.recode codes).relatedOf userId = db.relatedOf userId := by
  have hauthor : (db.recode codes).author = db.author := by
    funext userId
    rw [author, get_recode, Option.map_map, author]
    rfl
  rw [relatedOf, hauthor]
  rfl

theorem toProto_recode (row : ListedUser) (federatedProfiles : List EncodedMessage) :
    (row.recode codes).toProto (viewer.map (Account.recode codes)) federatedProfiles =
      (row.toProto viewer federatedProfiles).withPhone
        (shownContactMethod (row.account.recode codes).phone row.account.id viewer) := by
  have hviewer (method : Option ContactMethod) (ownerId : Nat) :
      shownContactMethod method ownerId (viewer.map (Account.recode codes)) =
        shownContactMethod method ownerId viewer := by
    cases viewer <;> rfl
  rw [ListedUser.toProto, ListedUser.toProto, hviewer, hviewer]
  rfl

theorem attachOwnSyncDestinations_recode (account : Account) (user : ProtoUser)
    (phone : Option ContactMethod) :
    (db.recode codes).attachOwnSyncDestinations (viewer.map (Account.recode codes))
        (account.recode codes) (user.withPhone phone) =
      (db.attachOwnSyncDestinations viewer account user).withPhone phone := by
  have hviews : canViewDestinations (viewer.map (Account.recode codes)) (account.recode codes).id =
      canViewDestinations viewer account.id := by
    cases viewer <;> rfl
  rw [attachOwnSyncDestinations, attachOwnSyncDestinations, hviews, relatedOf_recode]
  split <;> rfl

theorem attachAdvancedAdminData_recode (user : ProtoUser) (phone : Option ContactMethod) :
    (db.recode codes).attachAdvancedAdminData (viewer.map (Account.recode codes))
        (user.withPhone phone) =
      (db.attachAdvancedAdminData viewer user).withPhone phone := by
  have hviews : viewsAdvancedData (viewer.map (Account.recode codes)) = viewsAdvancedData viewer := by
    cases viewer <;> rfl
  have hid : (user.withPhone phone).id = user.id := rfl
  rw [attachAdvancedAdminData, attachAdvancedAdminData, hviews, hid]
  split
  · rw [relatedOf_recode]
    rfl
  · rfl

theorem toFederated_recode (row : ListedUser) :
    (db.recode codes).toFederated (viewer.map (Account.recode codes)) (row.recode codes) =
      (db.toFederated viewer row).withPhone
        (shownContactMethod (row.account.recode codes).phone row.account.id viewer) := by
  rw [toFederated, toFederated, toProto_recode, relatedOf_recode]
  rfl

theorem toLookedUp_recode (row : ListedUser) :
    (db.recode codes).toLookedUp (viewer.map (Account.recode codes)) (row.recode codes) =
      (db.toLookedUp viewer row).withPhone
        (shownContactMethod (row.account.recode codes).phone row.account.id viewer) := by
  rw [toLookedUp, toLookedUp, toFederated_recode]
  exact attachOwnSyncDestinations_recode codes db viewer row.account _ _

/-- A row of a listing as it is shown where the codes are others. -/
theorem marshalled_recode (listing : Listing) (row : ListedUser) :
    (db.recode codes).attachAdvancedAdminData (viewer.map (Account.recode codes))
        ((listing.recode codes).toProto (db.recode codes) (viewer.map (Account.recode codes))
          (row.recode codes)) =
      (db.attachAdvancedAdminData viewer (listing.toProto db viewer row)).withPhone
        (shownContactMethod (row.account.recode codes).phone row.account.id viewer) := by
  rw [← attachAdvancedAdminData_recode codes]
  cases listing with
  | plain rows => exact congrArg _ (toProto_recode codes viewer row [])
  | federated rows => exact congrArg _ (toFederated_recode codes db viewer row)
  | lookedUp rows => exact congrArg _ (toLookedUp_recode codes db viewer row)

/-- Users as they see themselves where the codes are others. -/
theorem toOwn_recode (account : Account) (avatar : Option MediaRow) :
    (db.recode codes).toOwn (account.recode codes) avatar =
      (db.toOwn account avatar).withPhone
        (shownContactMethod (account.recode codes).phone account.id (some account)) := by
  rw [toOwn, toOwn, ← attachAdvancedAdminData_recode codes]
  exact congrArg _
    (toLookedUp_recode codes db (some account) { account := account, avatar := avatar })

/-- The number in a row that is shown. -/
theorem phone_marshalled (listing : Listing) (row : ListedUser) :
    (db.attachAdvancedAdminData viewer (listing.toProto db viewer row)).phone =
      shownContactMethod row.account.phone row.account.id viewer := by
  have hlisting : (listing.toProto db viewer row).phone =
      shownContactMethod row.account.phone row.account.id viewer := by
    cases listing with
    | plain rows => rfl
    | federated rows => rfl
    | lookedUp rows =>
      rw [Listing.toProto, toLookedUp, attachOwnSyncDestinations]
      split <;> rfl
  rw [attachAdvancedAdminData]
  split <;> exact hlisting

/-- A page of a listing whose filter does not look at codes. -/
theorem page_recode {keep keep' : ListedUser → Bool}
    (hkeep : ∀ row : ListedUser, keep' (row.recode codes) = keep row) (offset : Nat) :
    (db.recode codes).page (viewer.map (Account.recode codes)) keep' offset =
      (db.page viewer keep offset).map (ListedUser.recode codes) := by
  have hlisted (account : Account) :
      (db.recode codes).listedUser (viewer.map (Account.recode codes)) (account.recode codes) =
        (db.listedUser viewer account).recode codes := by
    cases viewer <;> rfl
  have hrows : (db.recode codes).users.rows = db.users.rows.map (Account.recode codes) :=
    AccountsDb.rows_recode codes db.accounts
  have hfilter : ((db.recode codes).users.rows.map
        ((db.recode codes).listedUser (viewer.map (Account.recode codes)))).filter keep' =
      ((db.users.rows.map (db.listedUser viewer)).filter keep).map (ListedUser.recode codes) := by
    have hsame : keep' ∘ ListedUser.recode codes = keep := funext hkeep
    have hcomp : (db.recode codes).listedUser (viewer.map (Account.recode codes)) ∘
        Account.recode codes = ListedUser.recode codes ∘ db.listedUser viewer := funext hlisted
    rw [hrows, List.map_map, hcomp, ← List.map_map, List.filter_map, hsame]
  have hsorted (rows : List ListedUser) :
      (rows.map (ListedUser.recode codes)).mergeSort newestAccountFirst =
        (rows.mergeSort newestAccountFirst).map (ListedUser.recode codes) :=
    (List.map_mergeSort (f := ListedUser.recode codes) fun row _ row' _ => rfl).symm
  rw [page, page, paged, paged, hfilter, hsorted, ← List.map_drop, ← List.map_take]

end DirectoryDb

section

variable (codes : Nat → String) (search : UserSearch) (db : DirectoryDb) (viewer : Option Account)
variable (request : GetUsersRequest) (query : Option String)

theorem getAllUsers_recode :
    getAllUsers search (db.recode codes) (viewer.map (Account.recode codes)) request query =
      (getAllUsers search db viewer request query).map (Listing.recode codes) := by
  unfold getAllUsers
  rw [map_checks]
  refine bind_congr fun offset => congrArg (fun rows => Except.ok (Listing.plain rows))
    (db.page_recode codes viewer ?_ offset)
  intro row
  cases viewer <;> rfl

theorem getFollowRequests_recode (user : Account) :
    getFollowRequests search (db.recode codes) request (user.recode codes) query =
      (getFollowRequests search db request user query).map (Listing.recode codes) := by
  unfold getFollowRequests
  rw [map_checks]
  exact bind_congr fun offset => congrArg (fun rows => Except.ok (Listing.plain rows))
    (db.page_recode codes (some user) (fun row => rfl) offset)

theorem getByUsername_recode (username : String) :
    getByUsername (db.recode codes) (viewer.map (Account.recode codes)) request username =
      (getByUsername db viewer request username).map (Listing.recode codes) := by
  unfold getByUsername
  rw [map_checks]
  refine bind_congr fun offset => congrArg (fun rows => Except.ok (Listing.lookedUp rows))
    (db.page_recode codes viewer ?_ offset)
  intro row
  cases viewer <;> rfl

theorem getByUserId_recode (userId : IdText) :
    getByUserId (db.recode codes) (viewer.map (Account.recode codes)) request userId =
      (getByUserId db viewer request userId).map (Listing.recode codes) := by
  unfold getByUserId
  rw [map_checks]
  refine bind_congr fun id => ?_
  rw [map_checks]
  refine bind_congr fun offset => congrArg (fun rows => Except.ok (Listing.lookedUp rows))
    (db.page_recode codes viewer ?_ offset)
  intro row
  cases viewer <;> rfl

theorem getConnected_recode (connected : Nat → Nat → Bool) (userId : IdText) :
    getConnected search (db.recode codes) (viewer.map (Account.recode codes)) request connected
        userId query =
      (getConnected search db viewer request connected userId query).map
        (Listing.recode codes) := by
  unfold getConnected
  rw [map_checks]
  refine bind_congr fun id => ?_
  rw [map_checks]
  refine bind_congr fun offset => congrArg (fun rows => Except.ok (Listing.federated rows))
    (db.page_recode codes viewer ?_ offset)
  intro row
  cases viewer <;> rfl

/-- A search looks for the same text where the codes are others. -/
theorem searched_recode {listing listing' : Option String → Except Failure Listing}
    (h : ∀ query, listing' query = (listing query).map (Listing.recode codes)) :
    (requiredSearchText search request >>= listing') =
      (requiredSearchText search request >>= listing).map (Listing.recode codes) := by
  rw [map_checks]
  exact bind_congr h

/-- A listing selects the same rows where the codes are others. -/
theorem listedUsers_recode :
    listedUsers search (db.recode codes) (viewer.map (Account.recode codes)) request =
      (listedUsers search db viewer request).map (Listing.recode codes) := by
  have hall (query : Option String) := getAllUsers_recode codes search db viewer request query
  have hname (username : String) := getByUsername_recode codes db viewer request username
  have hid (userId : IdText) := getByUserId_recode codes db viewer request userId
  have hconnected (connected : Nat → Nat → Bool) (userId : IdText) (query : Option String) :=
    getConnected_recode codes search db viewer request query connected userId
  have hrequests (user : Account) (query : Option String) :=
    getFollowRequests_recode codes search db request query user
  unfold listedUsers
  cases viewer <;> cases request.userId <;> cases request.username <;>
    rcases request.listingType with _ | listingType <;> try cases listingType
  all_goals first
    | rfl
    | exact hall none
    | exact hname _
    | exact hid _
    | exact hconnected _ _ none
    | exact hrequests _ none
    | exact searched_recode codes search request hall
    | exact searched_recode codes search request (hconnected _ _)
    | exact searched_recode codes search request (hrequests _)

/-- The rows of a listing are of users that are stored. -/
def Listed (listing : Except Failure Listing) : Prop :=
  ∀ rows, listing = .ok rows → ∀ row ∈ rows.rows, row.account ∈ db.users.rows

theorem Listed.bind {α : Type} {check : Except Failure α} {listing : α → Except Failure Listing}
    (h : ∀ a, Listed db (listing a)) : Listed db (check >>= listing) := by
  intro rows hrows
  obtain ⟨a, -, ha⟩ := checks_eq_ok.mp hrows
  exact h a rows ha

theorem mem_of_mem_page {keep : ListedUser → Bool} {offset : Nat} {row : ListedUser}
    (h : row ∈ db.page viewer keep offset) : row.account ∈ db.users.rows := by
  obtain ⟨account, haccount, rfl⟩ := List.mem_map.mp (List.mem_of_mem_filter (mem_of_mem_paged h))
  exact haccount

/-- Every row that a listing selects is of a user that is stored. -/
theorem listed_listedUsers : Listed db (listedUsers search db viewer request) := by
  have hpage (viewer : Option Account) (make : List ListedUser → Listing)
      (hmake : ∀ rows, (make rows).rows = rows) (keep : ListedUser → Bool) (offset : Nat) :
      Listed db (.ok (make (db.page viewer keep offset))) := by
    rintro rows ⟨⟩ row hrow
    rw [hmake] at hrow
    exact mem_of_mem_page db viewer hrow
  have hall (query : Option String) : Listed db (getAllUsers search db viewer request query) :=
    .bind db fun offset => hpage viewer .plain (fun _ => rfl) _ offset
  have hrequests (user : Account) (query : Option String) :
      Listed db (getFollowRequests search db request user query) :=
    .bind db fun offset => hpage (some user) .plain (fun _ => rfl) _ offset
  have hname (username : String) : Listed db (getByUsername db viewer request username) :=
    .bind db fun offset => hpage viewer .lookedUp (fun _ => rfl) _ offset
  have hid (userId : IdText) : Listed db (getByUserId db viewer request userId) :=
    .bind db fun _ => .bind db fun offset => hpage viewer .lookedUp (fun _ => rfl) _ offset
  have hconnected (connected : Nat → Nat → Bool) (userId : IdText) (query : Option String) :
      Listed db (getConnected search db viewer request connected userId query) :=
    .bind db fun _ => .bind db fun offset => hpage viewer .federated (fun _ => rfl) _ offset
  unfold listedUsers
  split
  all_goals first
    | exact hall none
    | exact hname _
    | exact hid _
    | exact hconnected _ _ none
    | exact hrequests _ none
    | exact .bind db hall
    | exact .bind db (hconnected _ _)
    | exact .bind db (hrequests _)
    | rintro rows ⟨⟩ row hrow; cases hrow

theorem rows_recode_listing (listing : Listing) :
    (listing.recode codes).rows = listing.rows.map (ListedUser.recode codes) := by
  cases listing <;> rfl

/-- A row is shown alike with another code exactly if no code is shown in it, or that one. -/
theorem marshalled_recode_iff (listing : Listing) (row : ListedUser) :
    (db.recode codes).attachAdvancedAdminData (viewer.map (Account.recode codes))
        ((listing.recode codes).toProto (db.recode codes) (viewer.map (Account.recode codes))
          (row.recode codes)) =
      db.attachAdvancedAdminData viewer (listing.toProto db viewer row) ↔
      (exposesCode viewer row.account = true →
        row.account.code = some (codes row.account.id)) := by
  rw [db.marshalled_recode codes, ProtoUser.withPhone_eq_self_iff, db.phone_marshalled]
  exact shownContactMethod_withCode_iff viewer row.account (codes row.account.id)

/-- A listing shows the same where the codes are others exactly if no other code is shown. -/
theorem getUsers_recode_iff :
    getUsers search (db.recode codes) (viewer.map (Account.recode codes)) request =
        getUsers search db viewer request ↔
      ∀ listing, listedUsers search db viewer request = .ok listing → ∀ row ∈ listing.rows,
        exposesCode viewer row.account = true →
          row.account.code = some (codes row.account.id) := by
  unfold getUsers
  rw [listedUsers_recode]
  cases listedUsers search db viewer request with
  | error failure => exact iff_of_true rfl nofun
  | ok listing =>
    have hresponse (users users' : List ProtoUser) :
        (Except.ok { users := users } : Except Failure GetUsersResponse) =
          .ok { users := users' } ↔ users = users' := by
      constructor
      · intro h
        exact congrArg GetUsersResponse.users (Except.ok.inj h)
      · rintro rfl
        rfl
    refine (hresponse _ _).trans ?_
    rw [rows_recode_listing, List.map_map, List.map_inj_left]
    constructor
    · rintro h rows ⟨⟩ row hrow
      exact (marshalled_recode_iff codes db viewer listing row).mp (h row hrow)
    · intro h row hrow
      exact (marshalled_recode_iff codes db viewer listing row).mpr (h listing rfl row hrow)

/-- The first user of a listing is shown alike where the codes are others exactly if no other code
is shown with it. -/
theorem head_getUsers_recode_iff :
    (getUsers search (db.recode codes) (viewer.map (Account.recode codes)) request >>=
        fun response => okOr response.users.head? .panic) =
      (getUsers search db viewer request >>= fun response => okOr response.users.head? .panic) ↔
      ∀ listing, listedUsers search db viewer request = .ok listing →
        ∀ account ∈ (listing.rows.map (·.account)).take 1, exposesCode viewer account = true →
          account.code = some (codes account.id) := by
  unfold getUsers
  rw [listedUsers_recode]
  cases listedUsers search db viewer request with
  | error failure => exact iff_of_true rfl nofun
  | ok listing =>
    dsimp only [bind, Except.bind, Except.map, pure, Except.pure]
    rw [rows_recode_listing]
    cases hrows : listing.rows with
    | nil =>
      refine iff_of_true rfl ?_
      rintro rows ⟨⟩ account haccount
      rw [hrows] at haccount
      cases haccount
    | cons row rows =>
      have hrow := marshalled_recode_iff codes db viewer listing row
      constructor
      · rintro h listed ⟨⟩ account haccount
        rw [hrows, List.map_cons, List.take_succ_cons, List.take_zero,
          List.mem_singleton] at haccount
        rw [haccount]
        exact hrow.mp (Except.ok.inj h)
      · intro h
        refine congrArg Except.ok (hrow.mpr (h listing rfl row.account ?_))
        rw [hrows, List.map_cons]
        exact List.mem_cons_self

/-- Users see themselves alike with another code exactly if they see no code, or that one. -/
theorem toOwn_recode_iff (account : Account) (avatar : Option MediaRow) :
    (db.recode codes).toOwn (account.recode codes) avatar = db.toOwn account avatar ↔
      (exposesCode (some account) account = true → account.code = some (codes account.id)) := by
  have hphone : (db.toOwn account avatar).phone =
      shownContactMethod account.phone account.id (some account) :=
    db.phone_marshalled (some account) (.lookedUp []) { account := account, avatar := avatar }
  rw [db.toOwn_recode codes, ProtoUser.withPhone_eq_self_iff, hphone]
  exact shownContactMethod_withCode_iff (some account) account (codes account.id)

end

end Rellm.Users
