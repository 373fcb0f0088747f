import Rellm.Posts.Visible
import Rellm.Users.PhoneHistory

/-!
# Profiles

What a user is shown as. A listing selects rows of users, with the follows between each and the
viewer; every row is marshalled for the viewer. Logging in, signing up, editing a profile and
sending a code answer with a user or a contact method too.
-/

namespace Rellm.Users

open Foundation Content

structure FollowRow extends follow : Content.Follow where
  createdAt : SystemTime
  updatedAt : SystemTime
  deriving DecidableEq, Repr

def FollowRow.key (row : FollowRow) : Nat × Nat := row.follow.key

structure Author where
  id : Nat
  username : String
  avatarMediaId : Option Nat
  realName : String
  permissions : NamesJson
  deriving DecidableEq, Repr

def Account.toAuthor (account : Account) : Author where
  id := account.id
  username := account.username
  avatarMediaId := account.avatarMediaId
  realName := account.realName
  permissions := account.permissions

/-- What other parts of the program attach to a user. -/
structure Related where
  federatedProfiles : List EncodedMessage := []
  syncDestinations : List EncodedMessage := []
  syncSources : List EncodedMessage := []
  aiModels : List EncodedMessage := []
  marketSubscriptions : List EncodedMessage := []
  deriving DecidableEq, Repr

/-- What a new account gets from the server's configuration. -/
structure AccountDefaults where
  permissions : NamesJson
  moderation : Moderation
  visibility : Visibility
  mediaStorageLimitBytes : Int64

/-- The accounts with their follows and what is attached to users, which names the authors of
things; and the configuration, if it can be read. -/
structure DirectoryDb extends accounts : AccountsDb where
  follows : Table FollowRow.key
  related : (Nat → Option Author) → Nat → Related
  defaults : Except Status AccountDefaults

/-- A call on the directory. -/
abbrev DirectoryRpc := EStateM Failure DirectoryDb

/-- A call on the accounts is one on the directory. -/
def onAccounts {α : Type} (rpc : AccountsRpc α) : DirectoryRpc α := fun db =>
  match rpc db.accounts with
  | .ok a accounts => .ok a { db with accounts := accounts }
  | .error failure accounts => .error failure { db with accounts := accounts }

/-- A `Follow`. -/
structure ProtoFollow where
  userId : IdText
  targetUserId : IdText
  targetUserModeration : Moderation
  createdAt : Timestamp
  updatedAt : Timestamp
  deriving DecidableEq, Repr

def FollowRow.toProto (row : FollowRow) : ProtoFollow where
  userId := toProtoId row.userId
  targetUserId := toProtoId row.targetUserId
  targetUserModeration := row.targetUserModeration
  createdAt := toProtoTime row.createdAt
  updatedAt := toProtoTime row.updatedAt

/-- A `User`. -/
structure ProtoUser extends related : Related where
  id : IdText
  username : String
  realName : String
  email : Option ContactMethod
  phone : Option ContactMethod
  permissions : List Int32
  avatar : Option EncodedMessage
  bio : String
  mediaStorageLimitBytes : Option UInt64
  mediaStorageBytesUsed : UInt64
  visibility : Visibility
  moderation : Moderation
  followerCount : Nat
  followingCount : Nat
  friendCount : Nat
  groupCount : Nat
  postCount : Nat
  responseCount : Nat
  eventCount : Nat
  occasionCount : Nat
  defaultFollowModeration : Moderation
  currentUserFollow : Option ProtoFollow
  targetCurrentUserFollow : Option ProtoFollow
  createdAt : Timestamp
  updatedAt : Timestamp
  deriving DecidableEq, Repr

/-- The user of a viewer as the permission checks take it. -/
def checkedUser (viewer : Option Account) : Option Rellm.User := viewer.map (·.toUser)

/-- Whether a viewer sees a contact method of a user. -/
def visibleContactMethod (method : ContactMethod) (ownerId : Nat) (viewer : Option Account) :
    Bool :=
  match method.visibility with
  | .globalPublic => true
  | .serverPublic => viewer.isSome
  | _ =>
    decide (viewer.map (·.id) = some ownerId) ||
      (validateExactPermission (checkedUser viewer) .viewPrivateContactMethods).toBool

/-- The consent is for the owner and the admins only. -/
def scrubConsentForViewer (method : ContactMethod) (ownerId : Nat) (viewer : Option Account) :
    ContactMethod :=
  if viewer.map (·.id) = some ownerId ∨ (validatePermission (checkedUser viewer) .admin).toBool then
    method
  else { method with consentState := ContactConsentState.revoked.toI32, consentHistory := [] }

/-- A contact method as a viewer is shown it. -/
def shownContactMethod (method : Option ContactMethod) (ownerId : Nat) (viewer : Option Account) :
    Option ContactMethod :=
  (method.filter fun method => visibleContactMethod method ownerId viewer).map fun method =>
    scrubConsentForViewer method ownerId viewer

/-- A row of a listing: a user with the viewer's follow of the user, the user's follow of the
viewer, and the avatar. -/
structure ListedUser where
  account : Account
  follow : Option FollowRow := none
  targetFollow : Option FollowRow := none
  avatar : Option MediaRow := none

/-- A row as a viewer is shown it, with the federated profiles that were loaded. -/
def ListedUser.toProto (row : ListedUser) (viewer : Option Account)
    (federatedProfiles : List EncodedMessage) : ProtoUser where
  id := toProtoId row.account.id
  username := row.account.username
  realName := row.account.realName
  email := shownContactMethod row.account.email row.account.id viewer
  phone := shownContactMethod row.account.phone row.account.id viewer
  permissions := row.account.permissions.toI32Permissions
  bio := row.account.bio
  mediaStorageLimitBytes := row.account.mediaStorageLimitBytes.map Int64.toUInt64
  mediaStorageBytesUsed := row.account.mediaStorageBytesUsed.toUInt64
  avatar := row.avatar.map (·.reference)
  visibility := row.account.visibility
  moderation := row.account.moderation
  followerCount := row.account.followerCount
  followingCount := row.account.followingCount
  friendCount := row.account.friendCount
  groupCount := row.account.groupCount
  postCount := row.account.postCount
  eventCount := row.account.eventCount
  occasionCount := row.account.occasionCount
  responseCount := row.account.responseCount
  defaultFollowModeration := row.account.defaultFollowModeration
  federatedProfiles := federatedProfiles
  currentUserFollow := row.follow.map FollowRow.toProto
  targetCurrentUserFollow := row.targetFollow.map FollowRow.toProto
  createdAt := toProtoTime row.account.createdAt
  updatedAt := toProtoTime row.account.updatedAt

inductive UserListingType where
  | everyone
  | following
  | friends
  | followers
  | followRequests
  | usersTextSearch
  | followersTextSearch
  | followingTextSearch
  | friendsTextSearch
  | followRequestsTextSearch
  | admins
  deriving DecidableEq, Repr

/-- A listing that is asked for; a raw value outside the enumeration is no listing. -/
structure GetUsersRequest where
  username : Option String := none
  userId : Option IdText := none
  searchText : Option String := none
  page : Option Int32 := none
  listingType : Option UserListingType := some .everyone
  deriving DecidableEq, Repr

structure GetUsersResponse where
  users : List ProtoUser := []
  hasNextPage : Bool := false
  deriving DecidableEq, Repr

/-- What the database and the standard library know of texts: which characters are alphanumeric,
and which username, real name and bio a query matches. -/
structure UserSearch where
  isAlphanumeric : Char → Bool
  matchesUser : String → String → String → String → Bool

/-- The permissions that let users see their own destinations. -/
def syncDestinationPermissions : List Permission :=
  [.syncPostsToFacebook, .syncEventsToInstagram, .syncPostsToInstagram, .syncEventsToMastodon,
    .syncPostsToMastodon, .syncEventsToBluesky, .syncPostsToBluesky, .syncEventsToXTwitter,
    .syncPostsToXTwitter, .admin]

/-- The destinations are for the owner, where any may be used, and for admins. -/
def canViewDestinations (viewer : Option Account) (ownerId : Nat) : Bool :=
  match viewer with
  | some viewer =>
    if viewer.id = ownerId then
      (validateAnyPermission (some viewer.toUser) .syncEventsToFacebook
        syncDestinationPermissions).toBool
    else (validatePermission (some viewer.toUser) .admin).toBool
  | none => false

/-- Whether a viewer is an admin, or the user itself. -/
def viewsAdvancedData (viewer : Option Account) (userId : Nat) : Bool :=
  (validatePermission (checkedUser viewer) .admin).toBool ||
    decide (viewer.map (·.id) = some userId)

/-- The most users on a page. -/
def userPageSize : Nat := 1000

/-- How many users the pages before skip; a negative number aborts the call. -/
def pageOffset (page : Option Int32) : Except Failure Nat :=
  let offset := page.getD 0 * 100
  if offset < 0 then .error .panic else .ok offset.toInt.toNat

namespace DirectoryDb

variable (db : DirectoryDb)

/-- The author with an id. -/
def author (userId : Nat) : Option Author := (db.users.get userId).map Account.toAuthor

/-- What is attached to a user. -/
def relatedOf (userId : Nat) : Related := db.related db.author userId

/-- The avatar of a user. -/
def avatarOf (account : Account) : Option MediaRow := account.avatarMediaId.bind db.media.get

section

variable (viewer : Option Account)

/-- A user joined with the follows between it and the viewer, and with its avatar. -/
def listedUser (account : Account) : ListedUser where
  account := account
  follow := viewer.bind fun viewer => db.follows.get (viewer.id, account.id)
  targetFollow := viewer.bind fun viewer => db.follows.get (account.id, viewer.id)
  avatar := db.avatarOf account

def attachOwnSyncDestinations (account : Account) (user : ProtoUser) : ProtoUser :=
  if canViewDestinations viewer account.id then
    { user with syncDestinations := (db.relatedOf account.id).syncDestinations }
  else user

/-- What the owner and the admins see of a user besides. -/
def attachAdvancedAdminData (user : ProtoUser) : ProtoUser :=
  match user.id.decoded.filter (viewsAdvancedData viewer) with
  | some id =>
    { user with
      syncSources := (db.relatedOf id).syncSources
      aiModels := (db.relatedOf id).aiModels
      marketSubscriptions := (db.relatedOf id).marketSubscriptions }
  | none => user

/-- A row marshalled with the federated profiles. -/
def toFederated (row : ListedUser) : ProtoUser :=
  row.toProto viewer (db.relatedOf row.account.id).federatedProfiles

/-- A row looked up by its id or name. -/
def toLookedUp (row : ListedUser) : ProtoUser :=
  db.attachOwnSyncDestinations viewer row.account (db.toFederated viewer row)

/-- Users as they see themselves. -/
def toOwn (account : Account) (avatar : Option MediaRow) : ProtoUser :=
  db.attachAdvancedAdminData (some account)
    (db.toLookedUp (some account) { account := account, avatar := avatar })

/-- Newest accounts first. -/
def newestAccountFirst (row row' : ListedUser) : Bool :=
  row'.account.createdAt ≤ row.account.createdAt

/-- A page of the users that a listing keeps. -/
def page (keep : ListedUser → Bool) (offset : Nat) : List ListedUser :=
  paged newestAccountFirst offset userPageSize
    ((db.users.rows.map (db.listedUser viewer)).filter keep)

/-- Whether a profile is public for the viewer, or the viewer's own. -/
def visibleProfile (row : ListedUser) : Bool :=
  decide (row.account.visibility ∈ publicVisibilities (viewer.map (·.contentUser))) ||
    decide (some row.account.id = viewer.map (·.id))

/-- Whether one user follows another, and may. -/
def followsPassing (userId targetUserId : Nat) : Bool :=
  (db.follows.get (userId, targetUserId)).any fun row => passes row.targetUserModeration

end

end DirectoryDb

/-- The rows that a listing selects, by the way they are marshalled. -/
inductive Listing where
  | plain (rows : List ListedUser)
  | federated (rows : List ListedUser)
  | lookedUp (rows : List ListedUser)

def Listing.rows : Listing → List ListedUser
  | .plain rows => rows
  | .federated rows => rows
  | .lookedUp rows => rows

/-- How the rows of a listing are marshalled. -/
def Listing.toProto (db : DirectoryDb) (viewer : Option Account) : Listing → ListedUser → ProtoUser
  | .plain _ => fun row => row.toProto viewer []
  | .federated _ => db.toFederated viewer
  | .lookedUp _ => db.toLookedUp viewer

section

variable (search : UserSearch) (db : DirectoryDb) (viewer : Option Account)
variable (request : GetUsersRequest)

/-- Whether a user matches the query of a search, if there is one. -/
def matchesQuery (query : Option String) (row : ListedUser) : Bool :=
  query.all fun query =>
    search.matchesUser row.account.username row.account.realName row.account.bio query

def getAllUsers (query : Option String) : Except Failure Listing := do
  let offset ← pageOffset request.page
  return .plain (db.page viewer (fun row =>
    DirectoryDb.visibleProfile viewer row && matchesQuery search query row) offset)

/-- The users who ask to follow the caller; none of them needs to be visible. -/
def getFollowRequests (user : Account) (query : Option String) : Except Failure Listing := do
  let offset ← pageOffset request.page
  return .plain (db.page (some user) (fun row =>
    (row.targetFollow.any fun follow => follow.targetUserModeration = .pending) &&
      matchesQuery search query row) offset)

def getByUsername (username : String) : Except Failure Listing := do
  let offset ← pageOffset request.page
  return .lookedUp (db.page viewer (fun row =>
    (DirectoryDb.visibleProfile viewer row || row.follow.isSome || row.targetFollow.isSome) &&
      decide (row.account.username = username)) offset)

def getByUserId (userId : IdText) : Except Failure Listing := do
  let userId ← answered (userId.toDbIdOrErr "user_id")
  let offset ← pageOffset request.page
  return .lookedUp (db.page viewer (fun row =>
    DirectoryDb.visibleProfile viewer row && decide (row.account.id = userId)) offset)

/-- The visible users who stand in a relation to the user of a request. -/
def getConnected (connected : Nat → Nat → Bool) (userId : IdText) (query : Option String) :
    Except Failure Listing := do
  let targetUserId ← answered (userId.toDbIdOrErr "user_id")
  let offset ← pageOffset request.page
  return .federated (db.page viewer (fun row =>
    connected targetUserId row.account.id && DirectoryDb.visibleProfile viewer row &&
      matchesQuery search query row) offset)

/-- Lists the users that a user follows. -/
def getFollowing (userId : IdText) (query : Option String) : Except Failure Listing :=
  getConnected search db viewer request (fun target id => db.followsPassing target id) userId query

/-- Lists the users that follow a user. -/
def getFollowers (userId : IdText) (query : Option String) : Except Failure Listing :=
  getConnected search db viewer request (fun target id => db.followsPassing id target) userId query

/-- Lists the users who follow a user and are followed back. -/
def getFriends (userId : IdText) (query : Option String) : Except Failure Listing :=
  getConnected search db viewer request
    (fun target id => db.followsPassing target id && db.followsPassing id target) userId query

/-- The query of a request that has to have one. -/
def requiredSearchText : Except Failure (Option String) :=
  answered ((Posts.searchQuery search.isAlphanumeric request.searchText).map some)

/-- The rows that the listing of a request selects. -/
def listedUsers : Except Failure Listing :=
  match viewer, request.listingType, request.username, request.userId with
  | some user, some .followRequests, _, _ => getFollowRequests search db request user none
  | some user, some .followRequestsTextSearch, _, _ => do
    getFollowRequests search db request user (← requiredSearchText search request)
  | none, some .followRequests, _, _ => .ok (.plain [])
  | none, some .followRequestsTextSearch, _, _ => .ok (.plain [])
  | _, some .following, _, some userId => getFollowing search db viewer request userId none
  | _, some .followingTextSearch, _, some userId => do
    getFollowing search db viewer request userId (← requiredSearchText search request)
  | _, some .followers, _, some userId => getFollowers search db viewer request userId none
  | _, some .followersTextSearch, _, some userId => do
    getFollowers search db viewer request userId (← requiredSearchText search request)
  | _, some .friends, _, some userId => getFriends search db viewer request userId none
  | _, some .friendsTextSearch, _, some userId => do
    getFriends search db viewer request userId (← requiredSearchText search request)
  | _, some .usersTextSearch, _, _ => do
    getAllUsers search db viewer request (← requiredSearchText search request)
  | _, _, some username, _ => getByUsername db viewer request username
  | _, _, _, some userId => getByUserId db viewer request userId
  | _, _, _, _ => getAllUsers search db viewer request none

/-- `GetUsers`. -/
def getUsers : Except Failure GetUsersResponse := do
  let listing ← listedUsers search db viewer request
  return { users := listing.rows.map fun row =>
    db.attachAdvancedAdminData viewer (listing.toProto db viewer row) }

end

/-- `GetCurrentUser`. -/
def getCurrentUser (user : Account) : DirectoryRpc ProtoUser := do
  let db ← get
  return db.toOwn user (db.avatarOf user)

structure LoginRequest where
  username : String
  password : String
  userId : Option IdText := none
  deriving DecidableEq, Repr

def validatePassword (value : String) : Except Status Unit := validateLength value "password" 8 128

section

variable (crates : ValidationCrates)

/-- The account of a login; `verify` compares a password with a salted hash. -/
def loginAccount (verify : String → String → Bool) (request : LoginRequest) (db : DirectoryDb) :
    Except Status Account := do
  validateUsername crates request.username
  validatePassword request.password
  let denied (message : String) : Status := ⟨.permissionDenied, message⟩
  match request.userId with
  | some userId =>
    let id ← userId.toDbIdOrErr "user_id"
    let user ← okOr (db.users.get id) (denied "invalid_password")
    require (verify request.password user.passwordSaltedHash) (denied "invalid_password")
    return user
  | none =>
    let user ← okOr (db.users.rows.find? fun user => user.username = request.username)
      (denied "invalid_username_or_password")
    require (verify request.password user.passwordSaltedHash)
      (denied "invalid_username_or_password")
    return user

/-- `Login`, without the tokens it answers with; a `userId` of a request is not the empty text. -/
def login (verify : String → String → Bool) (request : LoginRequest) : DirectoryRpc ProtoUser := do
  let user ← attempt fun db => answered (loginAccount crates verify request db)
  let db ← get
  return db.toOwn user (db.avatarOf user)

structure CreateAccountRequest where
  username : String
  password : String
  email : Option ContactMethod := none
  phone : Option ContactMethod := none
  deriving DecidableEq, Repr

/-- What the server adds to a new account: the salted hash of the password, and the clock. -/
structure SignUpContext where
  hashedPassword : String
  now : SystemTime

/-- The row of a new account. -/
def newAccount (request : CreateAccountRequest) (context : SignUpContext)
    (defaults : AccountDefaults) (id : Nat) : Account where
  id := id
  username := request.username
  passwordSaltedHash := context.hashedPassword
  email := request.email
  phone := request.phone
  permissions := defaults.permissions
  moderation := defaults.moderation
  visibility := defaults.visibility
  mediaStorageLimitBytes := some defaults.mediaStorageLimitBytes
  defaultFollowModeration := .unmoderated
  createdAt := context.now
  updatedAt := context.now

/-- The directory with the row of a new account. -/
def insertAccount (request : CreateAccountRequest) (context : SignUpContext)
    (defaults : AccountDefaults) (db : DirectoryDb) : DirectoryDb :=
  { db with users := db.users.insert (newAccount request context defaults) fun _ => rfl }

/-- What a new account starts from; the email has to be a telephone number too. -/
def checkCreateAccount (request : CreateAccountRequest) (db : DirectoryDb) :
    Except Status AccountDefaults := do
  validateUsername crates request.username
  validatePassword request.password
  validateEmail (request.email.bind (·.value))
  validatePhone (request.email.bind (·.value))
  let defaults ← db.defaults
  require (∀ other ∈ db.users.rows, other.username ≠ request.username)
    ⟨.alreadyExists, "username_already_exists"⟩
  return defaults

/-- `CreateAccount`, without the tokens it answers with. -/
def createAccount (request : CreateAccountRequest) (context : SignUpContext) :
    DirectoryRpc ProtoUser := do
  let defaults ← attempt fun db => answered (checkCreateAccount crates request db)
  let db ← get
  let user := newAccount request context defaults db.users.next
  modify (insertAccount request context defaults)
  let db ← get
  return db.toOwn user none

/-- `UpdateUser` answers with the edited user as the caller from before the edit sees it; it aborts
where that does not show the user. -/
def updateUserReply (search : UserSearch) (currentUser : Account) (request : UserRequest)
    (context : EditContext) : DirectoryRpc ProtoUser := do
  let _ ← onAccounts (updateUser crates currentUser request context)
  attempt fun db => do
    let response ← getUsers search db (some currentUser) { userId := some request.id }
    okOr response.users.head? .panic

end

/-- The caller of a call that needs one. -/
def callingAccount (callerId : Nat) : DirectoryRpc Account :=
  attempt fun db => answered (okOr (db.users.get callerId)
    ⟨.unauthenticated, "authentication_required"⟩)

end Rellm.Users
