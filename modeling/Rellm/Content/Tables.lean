import Rellm.Calendar.Vevents
import Rellm.Foundation.Checks
import Rellm.Foundation.Serial
import Rellm.Foundation.Statements
import Rellm.Protos.Permissions

/-!
# The tables of the content

Users and whom they follow, groups and who belongs to them, posts and the groups they
are shared in, and events with their occasions. An id that travels as a base58 text is
modelled by what the text decodes to; a unique index is the key of its table.
-/

namespace Rellm.Content

open Foundation Calendar

/-- What a post is. -/
inductive PostContext where
  | post
  | reply
  | event
  | occasion
  | federatedPost
  | federatedReply
  deriving DecidableEq, Repr

inductive PostMediaLayout where
  | standard
  | dynamicVerticalScroll
  deriving DecidableEq, Repr

structure User extends Rellm.User where
  id : Nat
  defaultFollowModeration : Moderation
  followerCount : Nat := 0
  followingCount : Nat := 0
  friendCount : Nat := 0
  groupCount : Nat := 0
  postCount : Nat := 0
  responseCount : Nat := 0
  eventCount : Nat := 0
  occasionCount : Nat := 0
  deriving DecidableEq, Repr

structure Follow where
  userId : Nat
  targetUserId : Nat
  targetUserModeration : Moderation
  deriving DecidableEq, Repr

/-- A user follows another at most once. -/
def Follow.key (follow : Follow) : Nat × Nat := (follow.userId, follow.targetUserId)

structure Group where
  id : Nat
  name : String
  shortname : String
  description : String
  visibility : Visibility
  nonMemberPermissions : NamesJson
  defaultMembershipPermissions : NamesJson
  defaultMembershipModeration : Moderation
  defaultPostModeration : Moderation
  defaultEventModeration : Moderation
  memberCount : Nat
  postCount : Nat := 0
  deriving DecidableEq, Repr

structure Membership where
  userId : Nat
  groupId : Nat
  permissions : NamesJson
  groupModeration : Moderation
  userModeration : Moderation
  deriving DecidableEq, Repr

/-- A user belongs to a group at most once. -/
def Membership.key (membership : Membership) : Nat × Nat := (membership.userId, membership.groupId)

structure Post where
  id : Nat
  userId : Option Nat
  parentPostId : Option Nat := none
  title : Option String := none
  link : Option String := none
  content : Option String := none
  responseCount : Int := 0
  replyCount : Int := 0
  groupCount : Nat := 0
  media : List Nat := []
  shareable : Bool := false
  context : PostContext
  visibility : Visibility
  moderation : Moderation
  createdAt : Instant
  updatedAt : Option Instant := none
  publishedAt : Option Instant := none
  lastActivityAt : Instant
  unauthenticatedStarCount : Int := 0
  postMediaLayout : PostMediaLayout := .standard
  deriving DecidableEq, Repr

structure GroupPost where
  groupId : Nat
  postId : Nat
  userId : Nat
  groupModeration : Moderation
  deriving DecidableEq, Repr

/-- A post is shared in a group at most once. -/
def GroupPost.key (groupPost : GroupPost) : Nat × Nat := (groupPost.groupId, groupPost.postId)

structure EventInfo where
  allowsRsvps : Option Bool := none
  allowsAnonymousRsvps : Option Bool := none
  maxAttendees : Option UInt32 := none
  hideLocationUntilRsvpApproved : Option Bool := none
  defaultRsvpModeration : Option Int32 := none
  deriving DecidableEq, Repr

/-- An event; its `info` column is an object, or `null` where the request had none. -/
structure Event where
  postId : Nat
  info : Option EventInfo := none
  deriving DecidableEq, Repr

/-- The settings of an event that an occasion overrides. -/
structure OccasionRsvpInfo where
  allowsRsvps : Option Bool := none
  allowsAnonymousRsvps : Option Bool := none
  maxAttendees : Option UInt32 := none
  deriving DecidableEq, Repr

structure OccasionInfo where
  rsvpInfo : Option OccasionRsvpInfo := none
  deriving DecidableEq, Repr

structure Location where
  id : String := ""
  creatorId : String := ""
  uniformlyFormattedAddress : String
  deriving DecidableEq, Repr

structure Occasion where
  eventId : Nat
  postId : Nat
  userId : Option Nat
  info : OccasionInfo := {}
  startsAt : Instant
  endsAt : Instant
  location : Option Location := none
  updatedAt : Option Instant := none
  timezone : Option String := none
  deriving DecidableEq, Repr

/-- The content tables. -/
structure ContentDb where
  users : Serial User.id
  follows : Table Follow.key
  groups : Serial Group.id
  memberships : Table Membership.key
  posts : Serial Post.id
  groupPosts : Table GroupPost.key
  events : Table Event.postId
  occasions : Table Occasion.postId

/-- No content. -/
def ContentDb.empty : ContentDb :=
  ⟨.empty, .empty, .empty, .empty, .empty, .empty, .empty, .empty⟩

/-- An occasion with its event and the post of the event. -/
structure OccasionContext where
  event : Event
  eventPost : Post
  occasion : Occasion
  deriving DecidableEq, Repr

/-- The join of an occasion with its event and the post of the event. -/
def ContentDb.occasionContext (db : ContentDb) (occasionId : Nat) : Option OccasionContext := do
  let occasion ← db.occasions.get occasionId
  let event ← db.events.get occasion.eventId
  let eventPost ← db.posts.get event.postId
  return { event := event, eventPost := eventPost, occasion := occasion }

/-- Moderation states that let a row count. -/
def passingModerations : List Moderation := [.unmoderated, .approved]

/-- Whether a moderation state passes. -/
def passes (moderation : Moderation) : Bool := decide (moderation ∈ passingModerations)

/-- The reply to an id that does not decode. -/
def invalidId (field : String) : Status := ⟨.invalidArgument, "invalid_id:" ++ field⟩

end Rellm.Content
