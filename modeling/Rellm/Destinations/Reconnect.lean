import Rellm.Destinations.Configuration
import Rellm.Foundation.Checks

/-!
# Reconnecting an account

An update of a destination with new credentials has its platform check them and stores what the
platform answers. A post to X first has the stored tokens refreshed if the access token runs out.
-/

namespace Rellm.Destinations

open Foundation Content

/-- What the server's configuration says of the apps that it connects accounts through. -/
structure PlatformApps where
  facebookAuthConfig : Option (String × String) := none
  xTwitterAuthConfig : Option (String × String) := none
  frontendHost : Option String := none

namespace PlatformApps

def serverFacebookAppCredentials (apps : PlatformApps) : Except Status (String × String) :=
  okOr (apps.facebookAuthConfig.filter fun app => app.1 ≠ "" && app.2 ≠ "")
    ⟨.failedPrecondition, "facebook_app_not_configured"⟩

def serverXTwitterAppCredentials (apps : PlatformApps) : Except Status (String × String) :=
  okOr (apps.xTwitterAuthConfig.filter fun app => app.1 ≠ "" && app.2 ≠ "")
    ⟨.failedPrecondition, "x_twitter_app_not_configured"⟩

/-- The page that a popup returns to, if the server knows where its frontend is. -/
def redirectUri (apps : PlatformApps) (message : String) : Except Status String := do
  let frontendHost ← okOr (apps.frontendHost.filter fun host => trim host ≠ "")
    ⟨.failedPrecondition, message⟩
  return "https://" ++ frontendHost ++ "/oauth-callback.html"

def threadsRedirectUri (apps : PlatformApps) : Except Status String :=
  apps.redirectUri "threads_redirect_uri_not_configured"

def xTwitterRedirectUri (apps : PlatformApps) : Except Status String :=
  apps.redirectUri "x_twitter_redirect_uri_not_configured"

end PlatformApps

/-- A page that a Facebook user administers, as the Graph API lists it. -/
structure GraphPage where
  id : Option String
  name : Option String
  accessToken : Option String
  deriving DecidableEq, Repr

/-- What the other platforms answer to the requests that check credentials. -/
structure Platforms where
  graphPages : (appId appSecret shortLivedToken : String) → Except Status (List GraphPage)
  linkedInstagramAccount : (accessToken pageId : String) → Except Status (String × String)
  verifyCredentials : (instanceHost accessToken : String) → Except Status String
  createSession : (handle appPassword : String) → Except Status (String × String)
  xGrant : (client : String × String) → (code codeVerifier redirectUri : String) →
    Except Status XGrant
  xMe : (accessToken : String) → Except Status Unit
  threadsToken : (app : String × String) → (code redirectUri : String) →
    Except Status (String × String)
  threadsLongLivedToken : (appSecret shortLivedToken : String) → Except Status String
  threadsUsername : (accessToken threadsUserId : String) → Except Status String

structure FacebookPageConnection where
  pageId : String
  pageName : String
  accessToken : String
  deriving DecidableEq, Repr

/-- The page with an id among those that a user administers. -/
def findPageAccessToken (pages : List GraphPage) (pageId : String) :
    Except Status FacebookPageConnection := do
  let page ← okOr (pages.find? fun page => page.id = some pageId)
    ⟨.permissionDenied, "facebook_page_not_managed_by_user"⟩
  let accessToken ← okOr page.accessToken ⟨.failedPrecondition, "facebook_page_token_missing"⟩
  return { pageId := pageId, pageName := page.name.getD "", accessToken := accessToken }

def connectFacebookPage (apps : PlatformApps) (platforms : Platforms) (shortLivedToken : String)
    (pageId : String) : Except Status FacebookPageConnection := do
  let app ← apps.serverFacebookAppCredentials
  let pages ← platforms.graphPages app.1 app.2 shortLivedToken
  findPageAccessToken pages pageId

/-- The credentials that an update carries, if it carries any. -/
inductive Credentials where
  | facebookPage (shortLivedToken : String)
  | instagramAccount (shortLivedToken : String)
  | mastodonAccount (instanceHost accessToken : String)
  | blueskyAccount (handle appPassword : String)
  | xTwitterAccount (authorizationCode codeVerifier : String)
  | threadsAccount (authorizationCode : String)
  deriving DecidableEq, Repr

/-- The arms of the update that reconnect; every other request is an update without new
credentials. -/
def Configuration.credentials : Configuration → Option Credentials
  | .facebookPage page => page.shortLivedUserAccessToken.map .facebookPage
  | .instagramAccount account => account.shortLivedUserAccessToken.map .instagramAccount
  | .mastodonAccount account => do
    let instanceHost ← given (some account.instanceHost)
    return .mastodonAccount instanceHost (← given account.accessToken)
  | .blueskyAccount account => do
    let handle ← given (some account.handle)
    return .blueskyAccount handle (← given account.appPassword)
  | .xTwitterAccount account => do
    let authorizationCode ← given account.authorizationCode
    return .xTwitterAccount authorizationCode (← given account.codeVerifier)
  | .threadsAccount account => do
    return .threadsAccount (← given account.authorizationCode)

def notConfigured : Status := ⟨.failedPrecondition, "sync_destination_not_configured"⟩

/-- X answers a code and then says whose account it was for. -/
def xTwitterGrant (apps : PlatformApps) (platforms : Platforms) (authorizationCode : String)
    (codeVerifier : String) : Except Status XGrant := do
  let client ← apps.serverXTwitterAppCredentials
  let redirectUri ← apps.xTwitterRedirectUri
  platforms.xGrant client authorizationCode codeVerifier redirectUri

/-- What X gives out to the credentials of an update. -/
def Credentials.granted (apps : PlatformApps) (platforms : Platforms) :
    Credentials → Option XGrant
  | .xTwitterAccount authorizationCode codeVerifier =>
    (xTwitterGrant apps platforms authorizationCode codeVerifier).toOption
  | _ => none

/-- What Threads answers a code, and whose account that is. -/
structure ThreadsGrant where
  threadsUserId : String
  username : String
  accessToken : String
  deriving DecidableEq, Repr

def threadsGrant (apps : PlatformApps) (platforms : Platforms) (authorizationCode : String) :
    Except Status ThreadsGrant := do
  let app ← apps.serverFacebookAppCredentials
  let redirectUri ← apps.threadsRedirectUri
  let (shortLivedToken, threadsUserId) ← platforms.threadsToken app authorizationCode redirectUri
  let accessToken ← platforms.threadsLongLivedToken app.2 shortLivedToken
  let username ← platforms.threadsUsername accessToken threadsUserId
  return { threadsUserId, username, accessToken }

/-- The configuration of an account that was reconnected with new credentials. -/
def reconnect (existing : Json) (apps : PlatformApps) (platforms : Platforms) (now : Int64) :
    Credentials → Except Status Json
  | .facebookPage shortLivedToken => do
    let pageId ← okOr (storedText existing "facebook_page" "page_id") notConfigured
    let page ← connectFacebookPage apps platforms shortLivedToken pageId
    return facebookPageJson page.pageId page.pageName page.accessToken
  | .instagramAccount shortLivedToken => do
    let pageId ← okOr (storedText existing "instagram_account" "page_id") notConfigured
    let page ← connectFacebookPage apps platforms shortLivedToken pageId
    let (businessAccountId, username) ←
      platforms.linkedInstagramAccount page.accessToken page.pageId
    return instagramAccountJson businessAccountId username page.pageId page.accessToken
  | .mastodonAccount instanceHost accessToken => do
    let username ← platforms.verifyCredentials instanceHost accessToken
    return mastodonAccountJson instanceHost username accessToken
  | .blueskyAccount handle appPassword => do
    let (did, _) ← platforms.createSession handle appPassword
    return blueskyAccountJson handle did appPassword
  | .xTwitterAccount authorizationCode codeVerifier => do
    let grant ← xTwitterGrant apps platforms authorizationCode codeVerifier
    let _ ← platforms.xMe grant.accessToken
    return xTwitterAccountJson grant.xUserId grant.username grant.accessToken grant.refreshToken
      (now + grant.expiresIn)
  | .threadsAccount authorizationCode => do
    let grant ← threadsGrant apps platforms authorizationCode
    return threadsAccountJson grant.threadsUserId grant.username grant.accessToken

/-- What an update checks before it loads the destination. -/
def checkUpdateSyncDestination (user : Content.User) (request : Option Configuration) :
    Except Status Unit :=
  let permissions := syncPermissions request
  validateAnyPermission (some user.toUser) permissions.events [permissions.posts, .admin]

/-- How long before it runs out an access token is refreshed. -/
def refreshSkewSeconds : Int64 := 60

/-- What a post to X reads of the configuration. -/
structure StoredXAccount where
  xUserId : String
  username : String
  accessToken : String
  refreshToken : String
  expiresAt : Int64
  deriving DecidableEq, Repr

def storedXAccount (configuration : Json) : Except Status StoredXAccount := do
  let account ← okOr (configuration.get "x_twitter_account") notConfigured
  let text (field : String) : Except Status String :=
    okOr ((account.get field).bind Json.asString) notConfigured
  let xUserId ← text "x_user_id"
  let username ← text "username"
  let accessToken ← text "access_token"
  let refreshToken ← text "refresh_token"
  let expiresAt ← okOr ((account.get "expires_at").bind Json.asI64) notConfigured
  return { xUserId, username, accessToken, refreshToken, expiresAt }

/-- The tokens that X answers a refresh with. -/
structure XTokens where
  accessToken : String
  refreshToken : String
  expiresIn : Int64
  deriving DecidableEq, Repr

/-- The configuration with the tokens that X answered a refresh with. -/
def StoredXAccount.refreshed (account : StoredXAccount) (tokens : XTokens) (now : Int64) : Json :=
  xTwitterAccountJson account.xUserId account.username tokens.accessToken tokens.refreshToken
    (now + tokens.expiresIn)

end Rellm.Destinations
