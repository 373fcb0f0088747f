import Rellm.Destinations.Reconnect
import Rellm.Foundation.Run
import Rellm.Foundation.Table

/-!
# Updates and posts in any order

Updates of one destination and posts to X by way of it run at the same time. Each loads the
destination, then asks the platform, then writes, and the steps of others come in between. X takes a
refresh token once, and answers with a new pair.
-/

namespace Rellm.Destinations

open Foundation Content

/-- The refresh tokens X has given out, and whose account those are for that it still accepts. -/
structure XApi where
  issued : List String := []
  owners : List (String × String) := []
  deriving DecidableEq, Repr

namespace XApi

def owner (x : XApi) (token : String) : Option String := x.owners.lookup token

def issue (x : XApi) (token xUserId : String) : XApi where
  issued := token :: x.issued
  owners := (token, xUserId) :: x.owners

def consume (x : XApi) (token : String) : XApi :=
  { x with owners := x.owners.filter fun owned => owned.1 ≠ token }

/-- A refresh token that is accepted is used up, and a new one given out. -/
def refresh (x : XApi) (token : String) (tokens : XTokens) : Option XApi :=
  (x.owner token).map fun xUserId => (x.consume token).issue tokens.refreshToken xUserId

@[simp] theorem issued_issue (x : XApi) (token xUserId : String) :
    (x.issue token xUserId).issued = token :: x.issued := rfl

@[simp] theorem issued_consume (x : XApi) (token : String) : (x.consume token).issued = x.issued :=
  rfl

theorem owner_issue (x : XApi) (token xUserId other : String) :
    (x.issue token xUserId).owner other =
      if other = token then some xUserId else x.owner other := by
  unfold owner issue
  rw [List.lookup_cons]
  by_cases h : other = token
  · rw [if_pos h, beq_iff_eq.mpr h]
  · rw [if_neg h, beq_eq_false_iff_ne.mpr h]

theorem owner_consume (x : XApi) (token other : String) :
    (x.consume token).owner other = if other = token then none else x.owner other := by
  unfold owner consume
  induction x.owners with
  | nil => simp
  | cons owned owners ih =>
    rw [List.filter_cons, List.lookup_cons]
    grind

theorem consume_issue (x : XApi) {token new : String} (hne : new ≠ token) (xUserId : String) :
    (x.issue new xUserId).consume token = (x.consume token).issue new xUserId := by
  simp [consume, issue, hne]

/-- What a code that an update brings makes X give out. -/
def exchange (x : XApi) (apps : PlatformApps) (platforms : Platforms) (credentials : Credentials) :
    XApi :=
  match credentials.granted apps platforms with
  | some grant => x.issue grant.refreshToken grant.xUserId
  | none => x

end XApi

/-- How far an update or a post is, with what it loaded. -/
inductive Phase where
  | loaded (request : Option Configuration) (existing : SyncDestination)
  | exchanged (existing : SyncDestination) (reconnected : Bool)
  | tweeting (destination : SyncDestination)
  | refreshed (destination : SyncDestination) (configuration : Json)

/-- An update of the destination, or a post by way of it, in progress. -/
structure Call where
  id : Nat
  phase : Phase

/-- The destination, X, and the calls in progress. Beside them stands, as proof data, the user on X
whose account the last update with new credentials connected. -/
structure Service where
  destination : SyncDestination
  x : XApi
  calls : Table Call.id
  reconnectedAs : Option String

/-- A step of an update or of a post. -/
inductive CallStep where
  | readUpdate (id : Nat) (user : Content.User) (request : Option Configuration)
  | exchange (id : Nat) (apps : PlatformApps) (platforms : Platforms) (now : Int64)
  | writeUpdate (id : Nat) (now : Timestamp)
  | readTweet (id : Nat) (permission : SyncPermissions → Permission) (user : Content.User)
  | refresh (id : Nat) (apps : PlatformApps) (now : Int64) (answer : Option XTokens)
  | writeTweet (id : Nat)

/-- The user on X that a configuration is for. -/
def xUser (configuration : Json) : Option String :=
  (accountOf configuration).bind Account.xUserId?

namespace Service

def begin (s : Service) (id : Nat) (phase : Phase) : Service :=
  { s with calls := s.calls.put ⟨id, phase⟩ }

def finish (s : Service) (id : Nat) : Service :=
  { s with calls := s.calls.delete fun call => call.id = id }

/-- A platform checks the credentials of an update, if it carries any. -/
def exchange (s : Service) (id : Nat) (request : Option Configuration)
    (existing : SyncDestination) (apps : PlatformApps) (platforms : Platforms) (now : Int64) :
    Service :=
  match request.bind Configuration.credentials with
  | none => s.begin id (.exchanged existing false)
  | some credentials =>
    let s := { s with x := s.x.exchange apps platforms credentials }
    match reconnect existing.configuration apps platforms now credentials with
    | .ok configuration =>
      s.begin id (.exchanged { existing with configuration := configuration } true)
    | .error _ => s.finish id

/-- The whole row is written, as it was loaded but for what the update changed. -/
def writeUpdate (s : Service) (id : Nat) (existing : SyncDestination) (reconnected : Bool)
    (now : Timestamp) : Service :=
  { s.finish id with
    destination := { existing with updatedAt := some now }
    reconnectedAs := if reconnected then xUser existing.configuration else s.reconnectedAs }

/-- A post has its tokens refreshed if the access token runs out. -/
def refresh (s : Service) (id : Nat) (destination : SyncDestination) (apps : PlatformApps)
    (now : Int64) (answer : Option XTokens) : Service :=
  match apps.serverXTwitterAppCredentials, storedXAccount destination.configuration, answer with
  | .ok _, .ok account, some tokens =>
    if account.expiresAt ≤ now + refreshSkewSeconds then
      match s.x.refresh account.refreshToken tokens with
      | some x =>
        { s with x := x }.begin id (.refreshed destination (account.refreshed tokens now))
      | none => s.finish id
    else s.finish id
  | _, _, _ => s.finish id

def writeTweet (s : Service) (id : Nat) (configuration : Json) : Service :=
  { s.finish id with destination := { s.destination with configuration := configuration } }

/-- A call takes no step out of its own order. -/
def step (s : Service) : CallStep → Service
  | .readUpdate id user request =>
    match s.calls.get id, checkUpdateSyncDestination user request, checkOwner user s.destination with
    | none, .ok _, .ok _ => s.begin id (.loaded request s.destination)
    | _, _, _ => s
  | .exchange id apps platforms now =>
    match s.calls.get id with
    | some ⟨_, .loaded request existing⟩ => s.exchange id request existing apps platforms now
    | _ => s
  | .writeUpdate id now =>
    match s.calls.get id with
    | some ⟨_, .exchanged existing reconnected⟩ => s.writeUpdate id existing reconnected now
    | _ => s
  | .readTweet id permission user =>
    match s.calls.get id, checkDestination permission user s.destination with
    | none, .ok (.xTwitterAccount _) => s.begin id (.tweeting s.destination)
    | _, _ => s
  | .refresh id apps now answer =>
    match s.calls.get id with
    | some ⟨_, .tweeting destination⟩ => s.refresh id destination apps now answer
    | _ => s
  | .writeTweet id =>
    match s.calls.get id with
    | some ⟨_, .refreshed _ configuration⟩ => s.writeTweet id configuration
    | _ => s

end Service

end Rellm.Destinations
