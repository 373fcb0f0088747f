import Rellm.Configuration.Validation
import Rellm.Content.Tables

/-!
# Who may do what, and the counters of users

What is public for a viewer, and what a member of a group may do in it. A viewer who is
not logged in has the id 0 in queries. What each counter of a user counts, and the statements that
refresh some counters of one user after a change.
-/

namespace Rellm.Content

/-! ## Access -/

section

open Foundation Calendar

/-- The timestamp of a request in seconds; one before the epoch aborts the call, and the
nanoseconds are dropped. -/
abbrev EpochSeconds := Nat

/-- The instant of a timestamp. -/
def toDb (seconds : EpochSeconds) : Instant := seconds * 1000000

theorem toDb_nonneg (seconds : EpochSeconds) : 0 ≤ toDb seconds :=
  Int.mul_nonneg (Int.natCast_nonneg seconds) (by decide)

/-- A check of a request as part of a call, which may abort besides. -/
def answered {α : Type} (check : Except Status α) : Except Failure α := check.mapError .status

@[simp] theorem answered_eq_ok {α : Type} {check : Except Status α} {a : α} :
    answered check = .ok a ↔ check = .ok a := by
  cases check <;> simp [answered, Except.mapError]

theorem answered_eq_error {α : Type} {check : Except Status α} {e : Failure} :
    answered check = .error e ↔ ∃ status, check = .error status ∧ e = .status status := by
  cases check <;> simp [answered, Except.mapError, eq_comm]

/-- A check of a request does not abort a call. -/
theorem answered_ne_panic {α : Type} {check : Except Status α} : answered check ≠ .error .panic := by
  rw [Ne, answered_eq_error]
  rintro ⟨_, _, h⟩
  cases h

/-- A call: its statements run one after the other, and what is not in a transaction stays. -/
abbrev Rpc := EStateM Failure ContentDb

/-- A limit on a text that may be missing. -/
def validateMaxLength (value : Option String) (entityName : String) (maxLength : Nat) :
    Except Status Unit :=
  match value with
  | none => .ok ()
  | some value => validateLength value entityName 0 maxLength

/-- The ids of a request, of which all have to decode. -/
def decodedIds (field : String) (ids : List (Option Nat)) : Except Status (List Nat) :=
  ids.mapM fun id => okOr id (invalidId field)

/-- The texts of a request that decode to some ids. -/
theorem decodedIds_eq_ok {field : String} {texts : List (Option Nat)} {ids : List Nat} :
    decodedIds field texts = .ok ids ↔ texts = ids.map some := by
  unfold decodedIds
  induction texts generalizing ids with
  | nil =>
    rw [List.mapM_nil, pure_eq_ok, eq_comm, eq_comm (a := []), List.map_eq_nil_iff]
  | cons text texts ih =>
    rw [List.mapM_cons, checks_eq_ok]
    constructor
    · rintro ⟨id, hid, h⟩
      obtain ⟨rest, hrest, hids⟩ := checks_eq_ok.mp h
      obtain rfl := pure_eq_ok.mp hids
      rw [List.map_cons, okOr_eq_ok.mp hid, ih.mp hrest]
    · intro h
      obtain ⟨id, rest, rfl, hid, hrest⟩ := List.map_eq_cons_iff.mp h.symm
      exact ⟨id, okOr_eq_ok.mpr hid.symm, checks_eq_ok.mpr ⟨rest, ih.mpr hrest.symm, rfl⟩⟩

/-- The text of an id where texts are compared: what it decodes to, and whether it is the text the
server writes for that id. -/
structure IdText where
  decoded : Option Nat
  canonical : Bool := true
  deriving DecidableEq, Repr

/-- The text the server writes for an id. -/
def toProtoId (id : Nat) : IdText := ⟨some id, true⟩

/-- The id that a text of a request decodes to. -/
def IdText.toDbIdOrErr (text : IdText) (field : String) : Except Status Nat :=
  okOr text.decoded (invalidId field)

/-- What the database replies to a statement it cannot carry out. -/
def dataError : Status := ⟨.internal, "data_error"⟩

/-- What a request is checked for. -/
inductive OperationType where
  | create
  | update
  | delete
  deriving DecidableEq, Repr

/-- The visibilities that are public for a viewer. -/
def publicVisibilities (user : Option User) : List Visibility :=
  match user with
  | some _ => [.globalPublic, .serverPublic]
  | none => [.globalPublic]

/-- The id of a viewer in queries. -/
def viewerId (user : Option User) : Nat := (user.map (·.id)).getD 0

/-- Whether a membership counts: the group and the user agree to it. -/
def Membership.passes (membership : Membership) : Bool :=
  Content.passes membership.groupModeration && Content.passes membership.userModeration

def ContentDb.getMembership (db : ContentDb) (groupId userId : Nat) : Option Membership :=
  db.memberships.get (userId, groupId)

/-- What a caller may do in a group: what anybody may, and what the membership adds. -/
def groupPermissions (group : Group) (membership : Option Membership) : List Permission :=
  match membership with
  | some membership =>
    if membership.passes then
      membership.permissions.toProtoPermissions ++ group.nonMemberPermissions.toProtoPermissions
    else group.nonMemberPermissions.toProtoPermissions
  | none => group.nonMemberPermissions.toProtoPermissions

/-- Some of the permissions in the group suffices, or to moderate all groups. -/
def validateAnyGroupPermission (group : Group) (membership : Option Membership)
    (user : Option User) (first : Permission) (others : List Permission) : Except Status Unit :=
  if (first :: others).any fun p => p ∈ groupPermissions group membership then .ok ()
  else match validateAnyPermission (user.map (·.toUser)) .admin [.moderateGroups] with
  | .ok _ => .ok ()
  | .error _ =>
    .error ⟨.invalidArgument, "group_permission_" ++ first.asStrName ++ "_required"⟩

/-- The permission or `ADMIN` in the group suffices. -/
def validateGroupPermission (group : Group) (membership : Option Membership) (user : Option User)
    (permission : Permission) : Except Status Unit :=
  validateAnyGroupPermission group membership user permission [.admin]

def validateGroupAdmin (user : Option User) (group : Group) (membership : Option Membership) :
    Except Status Unit :=
  match validatePermission (user.map (·.toUser)) .admin with
  | .ok _ => .ok ()
  | .error _ => validateGroupPermission group membership user .admin

def validateGroupUserModerator (user : Option User) (group : Group)
    (membership : Option Membership) : Except Status Unit :=
  match validateGroupAdmin user group membership with
  | .ok _ => .ok ()
  | .error _ => validateGroupPermission group membership user .moderateUsers

end

/-! ## Counters -/

section

open Foundation

section

variable (db : ContentDb) (userId : Nat)

def followerCount : Nat :=
  db.follows.rows.countP fun follow =>
    follow.targetUserId = userId && passes follow.targetUserModeration

def followingCount : Nat :=
  db.follows.rows.countP fun follow =>
    follow.userId = userId && passes follow.targetUserModeration

/-- Those who are followed by the user and follow back. -/
def friendCount : Nat :=
  db.follows.rows.countP fun following =>
    following.userId = userId && passes following.targetUserModeration &&
      (db.follows.get (following.targetUserId, following.userId)).any fun follower =>
        passes follower.targetUserModeration

def groupCount : Nat :=
  db.memberships.rows.countP fun membership =>
    membership.userId = userId && passes membership.groupModeration &&
      passes membership.userModeration

def postCount : Nat :=
  db.posts.rows.countP fun post => post.userId = some userId && post.context = .post

def responseCount : Nat :=
  db.posts.rows.countP fun post =>
    post.userId = some userId && (post.context = .reply || post.context = .federatedReply)

/-- The events whose post is the user's. -/
def eventCount : Nat :=
  db.events.rows.countP fun event =>
    (db.posts.get event.postId).any fun post => post.userId = some userId

def occasionCount : Nat :=
  db.occasions.rows.countP fun occasion => occasion.userId = some userId

/-- The members of a group. -/
def memberCount (groupId : Nat) : Nat :=
  db.memberships.rows.countP fun membership =>
    membership.groupId = groupId && passes membership.groupModeration &&
      passes membership.userModeration

/-- A user is rewritten, but for the id. -/
def ContentDb.modifyUser (f : User → User) (hf : ∀ user, (f user).id = user.id) : ContentDb :=
  { db with users := db.users.modify userId f hf }

def updateFollowCounts (targetUserId : Nat) : ContentDb :=
  let db := db.modifyUser userId (fun user =>
    { user with
      followingCount := followingCount db userId
      friendCount := friendCount db userId }) fun _ => rfl
  db.modifyUser targetUserId (fun user =>
    { user with
      followerCount := followerCount db targetUserId
      friendCount := friendCount db targetUserId }) fun _ => rfl

def updateGroupCount : ContentDb :=
  db.modifyUser userId (fun user => { user with groupCount := groupCount db userId }) fun _ => rfl

def updatePostCounts : ContentDb :=
  db.modifyUser userId (fun user =>
    { user with
      postCount := postCount db userId
      responseCount := responseCount db userId }) fun _ => rfl

def updateEventCounts : ContentDb :=
  db.modifyUser userId (fun user =>
    { user with
      eventCount := eventCount db userId
      occasionCount := occasionCount db userId }) fun _ => rfl

end

end

end Rellm.Content
