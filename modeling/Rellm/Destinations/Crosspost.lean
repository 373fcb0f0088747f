import Rellm.Destinations.Messages
import Rellm.Destinations.Reconnect
import Rellm.Events.Visible

/-!
# Pushing posts and occasions

A call loads what is to be pushed and the destination, checks what the caller may do with the
destination, hands the message to the platform, and then reads the content back for the caller.
-/

namespace Rellm.Destinations

open Foundation Content Calendar Posts Events

structure SyncPostRequest where
  postId : Option Nat
  syncDestinationId : Option Nat
  deriving DecidableEq, Repr

structure SyncOccasionRequest where
  occasionId : Option Nat
  syncDestinationId : Option Nat
  deriving DecidableEq, Repr

/-- The content, the destinations, and what else a push reads. -/
structure PushState where
  content : ContentDb
  destinations : Serial SyncDestination.id
  externalCdnConfig : Option ExternalCdnConfig
  apps : PlatformApps
  contentTypes : Nat → Option String

/-- How a platform answers: whether it refuses the credentials, and else what it makes of the
message. -/
structure PlatformAnswer where
  refusal : Option Status
  posted : SyncMessage → Except Status (String × String)

/-- Why a push fails: a check of the call, or the platform. -/
inductive PushError where
  | check (reply : Status)
  | platform (reply : Status)
  deriving DecidableEq, Repr

/-- What a push hands to the platform, and what it answers the caller. -/
structure Push (ρ : Type) where
  handed : Option SyncMessage
  result : Except PushError ρ

/-- What a push needs of the stored configuration. -/
def checkStored (apps : PlatformApps) (stored : Json) : Configuration → Except Status Unit
  | .facebookPage _ => texts "facebook_page" ["page_id", "access_token"]
  | .instagramAccount _ =>
    texts "instagram_account" ["instagram_business_account_id", "access_token"]
  | .mastodonAccount _ => texts "mastodon_account" ["instance_host", "access_token"]
  | .blueskyAccount _ => texts "bluesky_account" ["handle", "app_password"]
  | .xTwitterAccount _ => do
    let _ ← apps.serverXTwitterAppCredentials
    let _ ← storedXAccount stored
  | .threadsAccount _ => texts "threads_account" ["threads_user_id", "access_token"]
where
  texts (platform : String) (fields : List String) : Except Status Unit :=
    require (∀ field ∈ fields, (storedText stored platform field).isSome) notConfigured

/-- Whether a platform takes posts without media. -/
def Configuration.takesText : Configuration → Bool
  | .instagramAccount _ => false
  | _ => true

/-- What the connector of a platform checks before it asks the platform. -/
def checkConnector (apps : PlatformApps) (destination : SyncDestination)
    (configuration : Configuration) (message : SyncMessage) : Except Status Unit := do
  require (configuration.takesText = true ∨ message.media ≠ [])
    ⟨.failedPrecondition, "instagram_requires_media"⟩
  checkStored apps destination.configuration configuration

/-- The message is handed to the platform, unless a check or the platform refuses before. -/
def handOver (apps : PlatformApps) (answer : PlatformAnswer) (destination : SyncDestination)
    (configuration : Configuration) (message : SyncMessage) : Push (String × String) :=
  match checkConnector apps destination configuration message, answer.refusal with
  | .error reply, _ => ⟨none, .error (.check reply)⟩
  | .ok _, some reply => ⟨none, .error (.platform reply)⟩
  | .ok _, none => ⟨some message, (answer.posted message).mapError .platform⟩

/-- What is to be pushed, by the id of its post, and where to. -/
structure Prepared where
  postId : Nat
  destination : SyncDestination
  configuration : Configuration
  message : SyncMessage

/-- What was prepared is handed over, and then the content is read back. -/
def pushed {ρ : Type} (apps : PlatformApps) (answer : PlatformAnswer)
    (prepared : Except Status Prepared) (reload : Nat → Except Status ρ) : Push ρ :=
  match prepared with
  | .error reply => ⟨none, .error (.check reply)⟩
  | .ok prepared =>
    let push :=
      handOver apps answer prepared.destination prepared.configuration prepared.message
    { handed := push.handed
      result := do
        let _ ← push.result
        (reload prepared.postId).mapError .check }

/-- A push without what it answers with. -/
def Push.discard {ρ : Type} (push : Push ρ) : Push Unit :=
  ⟨push.handed, push.result.map fun _ => ()⟩

section

variable {Zone : Type} (rendering : Rendering Zone) (search : TextSearch) (now : Instant)
  (s : PushState) (user : Content.User)

/-- The destination of a push, if the caller may use it for that. -/
def loadDestination (permission : SyncPermissions → Permission) (id : Option Nat) :
    Except Status (SyncDestination × Configuration) := do
  let id ← okOr id (invalidId "sync_destination_id")
  let destination ← okOr (s.destinations.get id) ⟨.notFound, "sync_destination_not_found"⟩
  let configuration ← checkDestination permission user destination
  return (destination, configuration)

def loadPost (request : SyncPostRequest) : Except Status Post := do
  let postId ← okOr request.postId (invalidId "post_id")
  let _ ← okOr request.syncDestinationId (invalidId "sync_destination_id")
  okOr (s.content.posts.get postId) ⟨.notFound, "post_not_found"⟩

/-- What a push of an occasion loads, whoever calls. -/
structure LoadedOccasion where
  occasion : Occasion
  occasionPost : Post
  eventPost : Post
  deriving DecidableEq, Repr

def loadOccasion (request : SyncOccasionRequest) : Except Status LoadedOccasion := do
  let occasionId ← okOr request.occasionId (invalidId "occasion_id")
  let _ ← okOr request.syncDestinationId (invalidId "sync_destination_id")
  let occasion ← okOr (s.content.occasions.get occasionId) ⟨.notFound, "occasion_not_found"⟩
  let occasionPost ← okOr (s.content.posts.get occasion.postId)
    ⟨.notFound, "occasion_post_not_found"⟩
  let event ← okOr (s.content.events.get occasion.eventId) ⟨.notFound, "event_not_found"⟩
  let eventPost ← okOr (s.content.posts.get event.postId) ⟨.notFound, "event_post_not_found"⟩
  return { occasion, occasionPost, eventPost }

/-- The post as `GetPosts` returns it to the caller. -/
def reloadPost (postId : Nat) : Except Status PostReply := do
  let posts ← getPosts s.content (some user) search now (singlePost postId)
  okOr (posts.find? fun reply => reply.post.id = postId)
    ⟨.internal, "failed_to_reload_synced_post"⟩

/-- The occasion as `GetEvents` returns it to the caller. -/
def reloadOccasion (occasionId : Nat) : Except Status OccasionReply := do
  let events ← getEvents s.content (some user) search { postId := some (some occasionId) }
  okOr (events.findSome? fun event => event.occasions.find? fun occasion =>
    occasion.post.id = occasionId) ⟨.internal, "failed_to_reload_synced_occasion"⟩

def preparePost (request : SyncPostRequest) : Except Status Prepared := do
  let post ← loadPost s request
  let (destination, configuration) ← loadDestination s user (·.posts) request.syncDestinationId
  return {
    postId := post.id
    destination := destination
    configuration := configuration
    message := postMessage rendering s.externalCdnConfig s.contentTypes post }

def prepareOccasion (request : SyncOccasionRequest) : Except Status Prepared := do
  let loaded ← loadOccasion s request
  let (destination, configuration) ← loadDestination s user (·.events) request.syncDestinationId
  return {
    postId := loaded.occasion.postId
    destination := destination
    configuration := configuration
    message := occasionMessage rendering s.externalCdnConfig s.contentTypes loaded.occasion
      loaded.occasionPost loaded.eventPost }

/-- `SyncPost`. What is recorded of the push is no content, and is left out. -/
def syncPost (answer : PlatformAnswer) (request : SyncPostRequest) : Push PostReply :=
  pushed s.apps answer (preparePost rendering s user request) (reloadPost search now s user)

/-- `SyncOccasion`. -/
def syncOccasion (answer : PlatformAnswer) (request : SyncOccasionRequest) : Push OccasionReply :=
  pushed s.apps answer (prepareOccasion rendering s user request) (reloadOccasion search s user)

end

end Rellm.Destinations
