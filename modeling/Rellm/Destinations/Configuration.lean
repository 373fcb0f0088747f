import Rellm.Content.Access
import Rellm.Foundation.Json

/-!
# Connected accounts

A sync destination is an account on another platform that posts and occasions are pushed to. Its
configuration is stored as a JSON object with one key, which names the platform; what a client
sends and receives of it is one of six messages.
-/

namespace Rellm.Destinations

open Foundation Content

structure FacebookPage where
  pageId : String := ""
  pageName : String := ""
  shortLivedUserAccessToken : Option String := none
  deriving DecidableEq, Repr

structure InstagramAccount where
  instagramBusinessAccountId : String := ""
  username : String := ""
  pageId : String := ""
  shortLivedUserAccessToken : Option String := none
  deriving DecidableEq, Repr

structure MastodonAccount where
  instanceHost : String := ""
  username : String := ""
  accessToken : Option String := none
  deriving DecidableEq, Repr

structure BlueskyAccount where
  handle : String := ""
  did : String := ""
  appPassword : Option String := none
  deriving DecidableEq, Repr

structure XTwitterAccount where
  username : String := ""
  xUserId : String := ""
  authorizationCode : Option String := none
  codeVerifier : Option String := none
  deriving DecidableEq, Repr

structure ThreadsAccount where
  threadsUserId : String := ""
  username : String := ""
  authorizationCode : Option String := none
  deriving DecidableEq, Repr

/-- The configuration in a request, or in a reply. -/
inductive Configuration where
  | facebookPage (page : FacebookPage)
  | instagramAccount (account : InstagramAccount)
  | mastodonAccount (account : MastodonAccount)
  | blueskyAccount (account : BlueskyAccount)
  | xTwitterAccount (account : XTwitterAccount)
  | threadsAccount (account : ThreadsAccount)
  deriving DecidableEq, Repr

/-- A text that is there and not blank. -/
def given (text : Option String) : Option String := text.filter fun text => trim text ≠ ""

/-- A text in the configuration of a platform. -/
def storedText (configuration : Json) (platform field : String) : Option String := do
  let account ← configuration.get platform
  (← account.get field).asString

/-- A text that need not be there. -/
def textOr (account : Json) (field : String) : String :=
  ((account.get field).bind Json.asString).getD ""

/-- What a client sees of a stored configuration: without its secrets. -/
def destinationConfigurationToProto (configuration : Json) : Option Configuration :=
  match configuration.get "facebook_page" with
  | some page => do
    let pageId ← (← page.get "page_id").asString
    return .facebookPage { pageId := pageId, pageName := textOr page "page_name" }
  | none =>
  match configuration.get "instagram_account" with
  | some account => do
    let businessAccountId ← (← account.get "instagram_business_account_id").asString
    return .instagramAccount {
      instagramBusinessAccountId := businessAccountId
      username := textOr account "username"
      pageId := textOr account "page_id" }
  | none =>
  match configuration.get "mastodon_account" with
  | some account => do
    let instanceHost ← (← account.get "instance_host").asString
    return .mastodonAccount { instanceHost := instanceHost, username := textOr account "username" }
  | none =>
  match configuration.get "bluesky_account" with
  | some account => do
    let handle ← (← account.get "handle").asString
    return .blueskyAccount { handle := handle, did := textOr account "did" }
  | none =>
  match configuration.get "x_twitter_account" with
  | some account => do
    let xUserId ← (← account.get "x_user_id").asString
    return .xTwitterAccount { username := textOr account "username", xUserId := xUserId }
  | none =>
  match configuration.get "threads_account" with
  | some account => do
    let threadsUserId ← (← account.get "threads_user_id").asString
    return .threadsAccount {
      threadsUserId := threadsUserId, username := textOr account "username" }
  | none => none

/-- The platform of an account and what tells it from the other accounts there. -/
inductive Account where
  | facebookPage (pageId : String)
  | instagramAccount (pageId : String)
  | mastodonAccount (instanceHost username : String)
  | blueskyAccount (did : String)
  | xTwitterAccount (xUserId : String)
  | threadsAccount (threadsUserId : String)
  deriving DecidableEq, Repr

def Configuration.account : Configuration → Account
  | .facebookPage page => .facebookPage page.pageId
  | .instagramAccount account => .instagramAccount account.pageId
  | .mastodonAccount account => .mastodonAccount account.instanceHost account.username
  | .blueskyAccount account => .blueskyAccount account.did
  | .xTwitterAccount account => .xTwitterAccount account.xUserId
  | .threadsAccount account => .threadsAccount account.threadsUserId

/-- The account that a stored configuration connects. -/
def accountOf (configuration : Json) : Option Account :=
  (destinationConfigurationToProto configuration).map Configuration.account

/-- What X replies to a code or to a refresh token that it accepts, and whose account that is. -/
structure XGrant where
  accessToken : String
  refreshToken : String
  expiresIn : Int64
  xUserId : String
  username : String
  deriving DecidableEq, Repr

def facebookPageJson (pageId pageName accessToken : String) : Json :=
  .obj [("facebook_page", .obj [("page_id", .str pageId), ("page_name", .str pageName),
    ("access_token", .str accessToken)])]

def instagramAccountJson (businessAccountId username pageId accessToken : String) : Json :=
  .obj [("instagram_account", .obj [("instagram_business_account_id", .str businessAccountId),
    ("username", .str username), ("page_id", .str pageId), ("access_token", .str accessToken)])]

def mastodonAccountJson (instanceHost username accessToken : String) : Json :=
  .obj [("mastodon_account", .obj [("instance_host", .str instanceHost),
    ("username", .str username), ("access_token", .str accessToken)])]

def blueskyAccountJson (handle did appPassword : String) : Json :=
  .obj [("bluesky_account", .obj [("handle", .str handle), ("did", .str did),
    ("app_password", .str appPassword)])]

def xTwitterAccountJson (xUserId username accessToken refreshToken : String) (expiresAt : Int64) :
    Json :=
  .obj [("x_twitter_account", .obj [("x_user_id", .str xUserId), ("username", .str username),
    ("access_token", .str accessToken), ("refresh_token", .str refreshToken),
    ("expires_at", .num expiresAt.toInt)])]

def threadsAccountJson (threadsUserId username accessToken : String) : Json :=
  .obj [("threads_account", .obj [("threads_user_id", .str threadsUserId),
    ("username", .str username), ("access_token", .str accessToken)])]

@[simp] theorem accountOf_facebookPageJson (pageId pageName accessToken : String) :
    accountOf (facebookPageJson pageId pageName accessToken) = some (.facebookPage pageId) := rfl

@[simp] theorem accountOf_instagramAccountJson (businessAccountId username pageId accessToken) :
    accountOf (instagramAccountJson businessAccountId username pageId accessToken) =
      some (.instagramAccount pageId) := rfl

@[simp] theorem accountOf_mastodonAccountJson (instanceHost username accessToken : String) :
    accountOf (mastodonAccountJson instanceHost username accessToken) =
      some (.mastodonAccount instanceHost username) := rfl

@[simp] theorem accountOf_blueskyAccountJson (handle did appPassword : String) :
    accountOf (blueskyAccountJson handle did appPassword) = some (.blueskyAccount did) := rfl

@[simp] theorem accountOf_xTwitterAccountJson (xUserId username accessToken refreshToken)
    (expiresAt : Int64) :
    accountOf (xTwitterAccountJson xUserId username accessToken refreshToken expiresAt) =
      some (.xTwitterAccount xUserId) := rfl

@[simp] theorem accountOf_threadsAccountJson (threadsUserId username accessToken : String) :
    accountOf (threadsAccountJson threadsUserId username accessToken) =
      some (.threadsAccount threadsUserId) := rfl

/-- The user on X that an account is of. -/
def Account.xUserId? : Account → Option String
  | .xTwitterAccount xUserId => some xUserId
  | _ => none

/-- The refresh token of a connected X account. -/
def refreshToken (configuration : Json) : Option String := do
  let _ ← (← accountOf configuration).xUserId?
  storedText configuration "x_twitter_account" "refresh_token"

@[simp] theorem refreshToken_xTwitterAccountJson (xUserId username accessToken refresh)
    (expiresAt : Int64) :
    refreshToken (xTwitterAccountJson xUserId username accessToken refresh expiresAt) =
      some refresh := rfl

/-- The permissions, one of which allows to connect an account of a platform, and which of them to
push posts or occasions to it. -/
structure SyncPermissions where
  events : Permission
  posts : Permission

/-- The permissions for the platform of a configuration; without one, those for Facebook. -/
def syncPermissions : Option Configuration → SyncPermissions
  | some (.facebookPage _) | none => ⟨.syncEventsToFacebook, .syncPostsToFacebook⟩
  | some (.instagramAccount _) => ⟨.syncEventsToInstagram, .syncPostsToInstagram⟩
  | some (.mastodonAccount _) => ⟨.syncEventsToMastodon, .syncPostsToMastodon⟩
  | some (.blueskyAccount _) => ⟨.syncEventsToBluesky, .syncPostsToBluesky⟩
  | some (.xTwitterAccount _) => ⟨.syncEventsToXTwitter, .syncPostsToXTwitter⟩
  | some (.threadsAccount _) => ⟨.syncEventsToThreads, .syncPostsToThreads⟩

/-- A stored destination. -/
structure SyncDestination where
  id : Nat
  userId : Nat
  configuration : Json
  createdAt : Timestamp
  updatedAt : Option Timestamp

/-- A destination is its owner's, or an administrator may use it. -/
def checkOwner (user : Content.User) (destination : SyncDestination) : Except Status Unit :=
  checkIf (destination.userId ≠ user.id) (validatePermission (some user.toUser) .admin)

/-- What `sync_post` and `sync_occasion` check of a destination and of the caller, by the permission
for posts or for events. -/
def checkDestination (permission : SyncPermissions → Permission) (user : Content.User)
    (destination : SyncDestination) : Except Status Configuration := do
  let _ ← checkOwner user destination
  match destinationConfigurationToProto destination.configuration with
  | some configuration =>
    let _ ← validatePermission (some user.toUser) (permission (syncPermissions (some configuration)))
    return configuration
  | none => .error ⟨.failedPrecondition, "sync_destination_not_configured"⟩

end Rellm.Destinations
