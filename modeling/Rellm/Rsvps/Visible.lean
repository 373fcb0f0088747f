import Rellm.Foundation.Queries
import Mathlib.Algebra.Group.Prod
import Mathlib.Algebra.Order.Group.Nat
import Rellm.Rsvps.Upsert

/-!
# Reading the RSVPs of an occasion

`GetRsvps` reads all RSVPs of an occasion that a viewer may see. `GetEvents` attaches at
most a hundred of them to each occasion it returns, with the totals of all: it groups
them, ranks them, and reads those that rank first. A viewer who is not logged in has an
id in the queries that no user has.
-/

namespace Rellm.Rsvps

open Foundation Content

/-- What a status and moderation are counted as. -/
inductive Bucket where
  | going
  | interested
  | requested
  | notGoing
  | pending
  deriving DecidableEq, Repr

structure RsvpTotals where
  rsvps : UInt32 := 0
  attendees : UInt32 := 0
  deriving DecidableEq, Repr

/-- The totals of some RSVPs and their guests; sums wrap. -/
structure RsvpCounts where
  going : RsvpTotals := {}
  interested : RsvpTotals := {}
  requested : RsvpTotals := {}
  notGoing : RsvpTotals := {}
  pending : RsvpTotals := {}
  deriving DecidableEq, Repr

/-- The bucket of a status and moderation; a rejected RSVP is not counted. -/
def bucket (status : RsvpStatus) (moderation : Moderation) : Option Bucket :=
  if moderation = .pending then some .pending
  else if passes moderation then
    match status with
    | .going => some .going
    | .interested => some .interested
    | .requested => some .requested
    | .notGoing => some .notGoing
  else none

def RsvpTotals.add (totals : RsvpTotals) (rsvpCount attendees : UInt32) : RsvpTotals :=
  ⟨totals.rsvps + rsvpCount, totals.attendees + attendees⟩

namespace RsvpCounts

def bump (counts : RsvpCounts) (rsvpCount attendees : UInt32) : Bucket → RsvpCounts
  | .going => { counts with going := counts.going.add rsvpCount attendees }
  | .interested => { counts with interested := counts.interested.add rsvpCount attendees }
  | .requested => { counts with requested := counts.requested.add rsvpCount attendees }
  | .notGoing => { counts with notGoing := counts.notGoing.add rsvpCount attendees }
  | .pending => { counts with pending := counts.pending.add rsvpCount attendees }

/-- Adds some RSVPs of a status and moderation, with their guests. -/
def add (counts : RsvpCounts) (status : RsvpStatus) (moderation : Moderation)
    (rsvpCount attendees : UInt32) : RsvpCounts :=
  match bucket status moderation with
  | some bucket => counts.bump rsvpCount attendees bucket
  | none => counts

end RsvpCounts

/-- Whether an RSVP is the viewer's own: by user, or by one of the tokens the request presents. -/
def Rsvp.isViewersOwn (user : Option Content.User) (tokens : List String) (row : Rsvp) : Bool :=
  match row.attendee with
  | .user userId => user.map (·.id) = some userId
  | .anonymous _ _ authToken => decide (authToken ∈ tokens)

/-- Whether the location of an event's occasions is only for approved attendees. -/
def hidesLocation (event : Event) : Bool :=
  (event.info.bind (·.hideLocationUntilRsvpApproved)).getD false

/-- An RSVP as the viewer sees it: the token and the private note if it is the viewer's own, or the
viewer owns the event. -/
def Rsvp.forViewer (isOwner : Bool) (user : Option Content.User) (tokens : List String)
    (row : Rsvp) : RsvpReply :=
  row.toProto (isOwner || row.isViewersOwn user tokens) (isOwner || row.isViewersOwn user tokens)

structure RsvpsReply where
  rsvps : List RsvpReply
  hiddenLocation : Option Content.Location
  counts : RsvpCounts
  deriving DecidableEq, Repr

/-- The RSVPs of an occasion that a viewer may see. -/
def visibleRsvps (isOwner : Bool) (user : Option Content.User) (tokens : List String)
    (rsvps : RsvpTable) (occasionId : Nat) : List Rsvp :=
  rsvps.rows.filter fun row =>
    row.occasionId = occasionId &&
      (isOwner || passes row.moderation || row.isViewersOwn user tokens)

/-- Whether the viewer is an approved attendee by one of some RSVPs. -/
def anyApproved (user : Option Content.User) (tokens : List String) (rows : List Rsvp) : Bool :=
  rows.any fun row => row.moderation = .approved && row.isViewersOwn user tokens

/-- The viewer may see the event: it is public, or the viewer's own. -/
def checkEventVisible (user : Option Content.User) (eventPost : Post) : Except Status Unit :=
  let isAuthor := user.any fun user => eventPost.userId = some user.id
  match eventPost.visibility with
  | .globalPublic => .ok ()
  | .serverPublic => validatePermission (user.map (·.toUser)) .viewEvents
  | .limited | .«private» =>
    require isAuthor ⟨.permissionDenied, "not_logged_in_cannot_view_private_events"⟩
  | _ => .error ⟨.permissionDenied, "not_logged_in_cannot_view_private_events"⟩

/-- The totals of some RSVPs. -/
def RsvpCounts.ofRows (rows : List Rsvp) : RsvpCounts :=
  rows.foldl (fun counts row => counts.add row.status row.moderation 1
    (UInt32.ofNat row.numberOfGuests.value)) {}

/-- The RSVPs of an occasion as the viewer sees them. -/
def rsvpsOf (occasionId : Nat) (tokens : List String) (user : Option Content.User)
    (rsvps : RsvpTable) (target : OccasionContext) : RsvpsReply :=
  let isOwner := isEventOwner user target
  let visible := visibleRsvps isOwner user tokens rsvps occasionId
  let isApproved := isOwner || anyApproved user tokens visible
  { rsvps := visible.map (Rsvp.forViewer isOwner user tokens)
    hiddenLocation :=
      if isApproved || !hidesLocation target.event then target.occasion.location else none
    counts := RsvpCounts.ofRows visible }

section

variable (content : ContentDb)

/-- `GetRsvps`: the RSVPs of an occasion that the viewer may see, and their totals. -/
def getRsvps (occasionId : Option Nat) (tokens : List String) (user : Option Content.User)
    (rsvps : RsvpTable) : Except Status RsvpsReply := do
  let occasionId ← okOr occasionId (invalidId "id")
  let target ← okOr (content.occasionContext occasionId) ⟨.internal, "invalid_occasion_id"⟩
  checkEventVisible user target.eventPost
  return rsvpsOf occasionId tokens user rsvps target

/-- The most RSVPs that are attached to an occasion. -/
def maxRsvpsPerOccasion : Nat := 100

/-- The place of a status in the order of RSVPs. -/
def statusRank : RsvpStatus → Nat
  | .going => 0
  | .requested => 1
  | .interested => 2
  | .notGoing => 3

/-- The place of an RSVP in the order, but for its id: the viewer's own first, then pending ones,
then by status. -/
def rank (user : Option Content.User) (tokens : List String) (row : Rsvp) : Nat :=
  (if row.isViewersOwn user tokens then 0 else 8) + (if row.moderation = .pending then 0 else 4) +
    statusRank row.status

/-- The order in which RSVPs are attached. -/
def ranksBefore (user : Option Content.User) (tokens : List String) (row row' : Rsvp) : Bool :=
  rank user tokens row < rank user tokens row' ||
    (rank user tokens row = rank user tokens row' && row.id ≤ row'.id)

/-- The RSVPs of some occasions that a viewer may see, who owns the events of some of them. -/
def visibleWhere (occasionIds owned : List Nat) (user : Option Content.User)
    (tokens : List String) (rsvps : RsvpTable) : List Rsvp :=
  rsvps.rows.filter fun row =>
    decide (row.occasionId ∈ occasionIds) && (decide (row.occasionId ∈ owned) ||
      passes row.moderation || row.isViewersOwn user tokens)

/-- The totals for each occasion, from the RSVPs grouped by occasion, status and moderation. -/
def countsByOccasion (visible : List Rsvp) (occasionId : Nat) : RsvpCounts :=
  (grouped (fun row : Rsvp => (row.occasionId, row.status, row.moderation))
    (fun row => ((1 : Nat), row.numberOfGuests.value)) visible).foldl
    (fun counts group =>
      if group.1.1 = occasionId then
        counts.add group.1.2.1 group.1.2.2 (UInt32.ofNat group.2.1) (UInt32.ofNat group.2.2)
      else counts) {}

/-- The ids of the RSVPs to attach: of each occasion, those that rank first. -/
def rankedIds (user : Option Content.User) (tokens : List String) (visible : List Rsvp) :
    List Nat :=
  ((visible.map (·.occasionId)).dedup).flatMap fun occasionId =>
    (capped (ranksBefore user tokens) maxRsvpsPerOccasion
      (visible.filter fun row => row.occasionId = occasionId)).map (·.id)

/-- What is attached to an occasion. -/
structure OccasionReply where
  occasionId : Nat
  location : Option Content.Location
  currentUserRsvp : Option RsvpReply
  rsvps : RsvpsReply
  deriving DecidableEq, Repr

/-- The RSVPs with some ids, in the order of their ids. -/
def rsvpsById (rsvps : RsvpTable) (ids : List Nat) : List Rsvp :=
  (rsvps.rows.filter fun row => decide (row.id ∈ ids)).mergeSort fun row row' =>
    decide (row.id ≤ row'.id)

/-- An occasion with its RSVPs that were loaded, and the totals. -/
def attachTo (tokens : List String) (user : Option Content.User) (rows : List Rsvp)
    (counts : RsvpCounts) (target : OccasionContext) : OccasionReply :=
  let isOwner := isEventOwner user target
  let isApproved := isOwner || anyApproved user tokens rows
  let location :=
    if isApproved || !hidesLocation target.event then target.occasion.location else none
  { occasionId := target.occasion.postId
    location := location
    currentUserRsvp :=
      (rows.find? (Rsvp.isViewersOwn user tokens)).map fun row => row.toProto true true
    rsvps := {
      rsvps := rows.map (Rsvp.forViewer isOwner user tokens)
      hiddenLocation := location
      counts := counts } }

/-- Of some occasions, those that belong to an event of the viewer. -/
def ownedOccasionIds (user : Option Content.User) (targets : List OccasionContext) : List Nat :=
  (targets.filter (isEventOwner user)).map (·.occasion.postId)

/-- `GetEvents`: the RSVPs of the occasions it returns. -/
def attachOccasionRsvps (occasionIds : List Nat) (tokens : List String)
    (user : Option Content.User) (rsvps : RsvpTable) : List OccasionReply :=
  let targets := occasionIds.filterMap content.occasionContext
  let visible := visibleWhere (targets.map (·.occasion.postId)) (ownedOccasionIds user targets)
    user tokens rsvps
  let loaded := rsvpsById rsvps (rankedIds user tokens visible)
  targets.map fun target =>
    attachTo tokens user (loaded.filter fun row => row.occasionId = target.occasion.postId)
      (countsByOccasion visible target.occasion.postId) target

end

end Rellm.Rsvps
