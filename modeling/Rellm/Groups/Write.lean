import Rellm.Content.Access

/-!
# Groups and who belongs to them

The creator of a group is its first member. Others join, or are invited by members; a
membership counts once both the group and the user agree to it. Posts are shared in a group.
-/

namespace Rellm.Groups

open Foundation Content

structure GroupRequest where
  name : String
  description : String := ""
  avatar : Option (Option Nat) := none
  visibility : Visibility := .serverPublic
  nonMemberPermissions : List Permission := []
  defaultMembershipPermissions : List Permission := []
  defaultMembershipModeration : Moderation := .unmoderated
  defaultPostModeration : Moderation := .unmoderated
  defaultEventModeration : Moderation := .unmoderated
  deriving DecidableEq, Repr

structure MembershipRequest where
  userId : IdText
  groupId : Option Nat
  permissions : List Permission := []
  groupModeration : Moderation := .unknown
  userModeration : Moderation := .unknown
  deriving DecidableEq, Repr

structure GroupPostRequest where
  groupId : Option Nat
  postId : Option Nat
  deriving DecidableEq, Repr

/-- The permissions that members of a group may get by default. -/
def membershipPermissions : List Permission :=
  [.viewUsers, .moderateUsers, .viewPosts, .createPosts, .moderatePosts, .viewEvents,
    .createEvents, .moderateEvents, .admin]

/-- The name without what is no letter or digit. -/
def deriveShortname (name : String) : String := String.ofList (name.toList.filter Char.isAlphanum)

/-- A default moderation lets in, or asks. -/
def validateDefaultModeration (moderation : Moderation) (field : String) : Except Status Unit :=
  require (moderation ∈ [.unmoderated, .pending]) ⟨.internal, "invalid_default_" ++ field⟩

def validateGroup (request : GroupRequest) : Except Status Unit := do
  validateLength request.name "name" 1 128
  validateMaxLength (some request.description) "description" 10000
  match request.avatar with
  | none => pure ()
  | some avatar =>
    let _ ← okOr avatar (invalidId "avatar.id")
  require (request.visibility ≠ .unknown) ⟨.invalidArgument, "invalid_visibility"⟩
  match (unique request.defaultMembershipPermissions).find? (· ∉ membershipPermissions) with
  | none => pure ()
  | some permission => throw ⟨.notFound, "invalid_permission_" ++ permission.asStrName⟩
  validateDefaultModeration request.defaultMembershipModeration "membership_moderation"
  validateDefaultModeration request.defaultPostModeration "post_moderation"
  validateDefaultModeration request.defaultEventModeration "event_moderation"
  require (deriveShortname request.name ≠ "") ⟨.invalidArgument, "blank_shortname"⟩

def validateMembership (request : MembershipRequest) : Except Status Unit := do
  let _ ← request.userId.toDbIdOrErr "user_id"
  let _ ← okOr request.groupId (invalidId "group_id")

/-- The stored form of a list of permissions. -/
def toJson (permissions : List Permission) : NamesJson :=
  .encode Permission.asStrName (unique permissions)

/-- A default moderation as it is stored. -/
def storedModeration (moderation : Moderation) : Moderation :=
  if moderation = .pending then .pending else .unmoderated

/-- The row of a new group. -/
def newGroup (request : GroupRequest) (id : Nat) : Group where
  id := id
  name := request.name
  shortname := deriveShortname request.name
  description := request.description
  visibility := if request.visibility = .unknown then .serverPublic else request.visibility
  nonMemberPermissions := toJson request.nonMemberPermissions
  defaultMembershipPermissions :=
    if request.defaultMembershipPermissions = [] then toJson [.viewPosts, .viewEvents]
    else toJson request.defaultMembershipPermissions
  defaultMembershipModeration := storedModeration request.defaultMembershipModeration
  defaultPostModeration := storedModeration request.defaultPostModeration
  defaultEventModeration := storedModeration request.defaultEventModeration
  memberCount := 1

/-- The membership of the creator of a group. -/
def creatorMembership (request : GroupRequest) (userId groupId : Nat) : Membership where
  userId := userId
  groupId := groupId
  permissions := toJson [.admin]
  groupModeration :=
    if request.defaultMembershipModeration = .unmoderated then .unmoderated else .approved
  userModeration := .approved

/-- Names of groups are different, also without regard to case. -/
def isDuplicate (request : GroupRequest) (group : Group) : Bool :=
  group.name = request.name ||
    group.shortname.toLower = (deriveShortname request.name).toLower

/-- The number of members of the group and that of the groups of the user are refreshed. -/
def updateRelatedCounts (membership : Membership) (db : ContentDb) : ContentDb :=
  updateGroupCount
    { db with
      groups := db.groups.modify membership.groupId (fun group =>
        { group with memberCount := memberCount db membership.groupId }) fun _ => rfl }
    membership.userId

/-- The number of posts of the group and that of the groups of the post are refreshed. -/
def updateGroupPostCounts (groupPost : GroupPost) (db : ContentDb) : ContentDb :=
  { db with
    groups := db.groups.modify groupPost.groupId (fun group =>
      { group with
        postCount := db.groupPosts.rows.countP fun other =>
          other.groupId = groupPost.groupId && passes other.groupModeration }) fun _ => rfl
    posts := db.posts.modify groupPost.postId (fun post =>
      { post with
        groupCount := db.groupPosts.rows.countP fun other =>
          other.postId = groupPost.postId && passes other.groupModeration }) fun _ => rfl }

def getGroup (db : ContentDb) (groupId : Nat) : Except Status Group :=
  okOr (db.groups.get groupId) ⟨.notFound, "group_not_found"⟩

/-- The group with the membership of a caller. -/
def getGroupAndMembership (db : ContentDb) (groupId userId : Nat) :
    Except Status (Group × Option Membership) := do
  let group ← okOr (db.groups.get groupId) ⟨.notFound, "group_membership_data_not_found"⟩
  return (group, db.getMembership groupId userId)

/-- A membership that was written, and the table after it. -/
structure MembershipChange where
  membership : Membership
  memberships : Table Membership.key

def MembershipChange.write (change : MembershipChange) (db : ContentDb) : ContentDb :=
  updateRelatedCounts change.membership { db with memberships := change.memberships }

section

variable (user : Content.User)

/-- The membership of the creator of a group, and the table with it. -/
def checkCreateGroup (request : GroupRequest) (db : ContentDb) :
    Except Status MembershipChange := do
  validatePermission (some user.toUser) .createGroups
  validateGroup request
  require (¬ db.groups.rows.any (isDuplicate request)) ⟨.notFound, "duplicate_group_name"⟩
  let membership := creatorMembership request user.id db.groups.next
  require (db.users.get user.id).isSome ⟨.internal, "internal_error"⟩
  let memberships ← okOr (db.memberships.insert membership) ⟨.internal, "internal_error"⟩
  return ⟨membership, memberships⟩

/-- `CreateGroup`. -/
def createGroup (request : GroupRequest) : Rpc Membership :=
  checked (fun db => answered (checkCreateGroup user request db))
    (fun change db =>
      { db with
        groups := db.groups.insert (newGroup request) fun _ => rfl
        memberships := change.memberships })
    fun change _ => .ok change.membership

/-- The membership of a caller who joins a group. -/
def ownMembership (group : Group) : Membership where
  userId := user.id
  groupId := group.id
  permissions :=
    if group.defaultMembershipModeration = .unmoderated then group.defaultMembershipPermissions
    else toJson []
  groupModeration := group.defaultMembershipModeration
  userModeration := .approved

/-- The membership of a user whom a member invites. -/
def invitedMembership (group : Group) (inviter : Membership) (userId : Nat) : Membership :=
  let accepted := group.defaultMembershipModeration = .unmoderated ||
    (validateAnyGroupPermission group (some inviter) (some user) .admin [.moderateUsers]).toBool
  { userId := userId
    groupId := group.id
    permissions := if accepted then group.defaultMembershipPermissions else toJson []
    groupModeration := if accepted then .approved else group.defaultMembershipModeration
    userModeration := .pending }

/-- The membership that a call creates, by the caller's own in the group. -/
def newMembership (group : Group) (userId : Nat) (own : Option Membership) :
    Except Status Membership :=
  if userId = user.id then
    match own with
    | some _ => .error ⟨.invalidArgument, "membership_already_exists"⟩
    | none => .ok (ownMembership user group)
  else
    match own with
    | none => .error ⟨.invalidArgument, "membership_required_to_invite"⟩
    | some inviter => .ok (invitedMembership user group inviter userId)

def checkCreateMembership (request : MembershipRequest) (db : ContentDb) :
    Except Status MembershipChange := do
  validateMembership request
  let groupId ← okOr request.groupId (invalidId "group_id")
  let group ← getGroup db groupId
  let userId ← request.userId.toDbIdOrErr "user_id"
  let membership ← newMembership user group userId (db.getMembership groupId user.id)
  require (db.users.get userId).isSome dataError
  let memberships ← okOr (db.memberships.insert membership) dataError
  return ⟨membership, memberships⟩

/-- `CreateMembership`. -/
def createMembership (request : MembershipRequest) : Rpc Membership :=
  checked (fun db => answered (checkCreateMembership user request db)) MembershipChange.write
    fun change _ => .ok change.membership

/-- What a call makes of a membership: the user decides for themselves, and who moderates users
for the group. -/
def updatedMembership (request : MembershipRequest) (existing : Membership) : Membership :=
  let admin := (validatePermission (some user.toUser) .admin).toBool
  let moderator := (validatePermission (some user.toUser) .moderateUsers).toBool
  { existing with
    userModeration :=
      if request.userId = toProtoId user.id then request.userModeration
      else existing.userModeration
    groupModeration :=
      if admin || moderator then request.groupModeration else existing.groupModeration
    permissions := if admin then toJson request.permissions else existing.permissions }

def checkUpdateMembership (request : MembershipRequest) (db : ContentDb) :
    Except Status MembershipChange := do
  validateMembership request
  let groupId ← okOr request.groupId (invalidId "group_id")
  let userId ← request.userId.toDbIdOrErr "user_id"
  let group ← getGroup db groupId
  let own := db.getMembership groupId user.id
  validateGroupUserModerator (some user) group own
  checkIf (request.userId ≠ toProtoId user.id)
    (validateGroupPermission group own (some user) .moderateUsers)
  let existing ← okOr (db.getMembership groupId userId) ⟨.notFound, "membership_not_found"⟩
  return {
    membership := updatedMembership user request existing
    memberships := db.memberships.update (fun membership => membership.key = (userId, groupId))
      (updatedMembership user request) fun _ => rfl }

/-- `UpdateMembership`. -/
def updateMembership (request : MembershipRequest) : Rpc Membership :=
  checked (fun db => answered (checkUpdateMembership user request db)) MembershipChange.write
    fun change _ => .ok change.membership

/-- The membership a call is about to delete, with that of the caller in the group. -/
structure DeleteMembership where
  userId : Nat
  groupId : Nat
  own : Option Membership
  deriving DecidableEq, Repr

/-- A member may leave a group, unless rejected by it. -/
def validateLeaving (own : Option Membership) : Except Status Unit :=
  match own with
  | none => .error dataError
  | some own => require (own.groupModeration ≠ .rejected)
    ⟨.failedPrecondition, "cannot_delete_rejected_membership"⟩

def checkDeleteMembership (request : MembershipRequest) (db : ContentDb) :
    Except Status DeleteMembership := do
  validateMembership request
  let groupId ← okOr request.groupId (invalidId "group_id")
  let userId ← request.userId.toDbIdOrErr "user_id"
  let (group, own) ← getGroupAndMembership db groupId user.id
  checkIf (request.userId ≠ toProtoId user.id) (validateGroupAdmin (some user) group own)
  checkIf (request.userId = toProtoId user.id) (validateLeaving own)
  return ⟨userId, groupId, own⟩

/-- The membership is deleted; the counters refreshed are those of the caller. -/
def DeleteMembership.write (delete : DeleteMembership) (db : ContentDb) : ContentDb :=
  let deleted := { db with
    memberships := db.memberships.delete fun membership =>
      membership.key = (delete.userId, delete.groupId) }
  match delete.own with
  | some own => updateRelatedCounts own deleted
  | none => deleted

/-- `DeleteMembership`. -/
def deleteMembership (request : MembershipRequest) : Rpc Unit :=
  checked (fun db => answered (checkDeleteMembership user request db)) DeleteMembership.write
    fun _ _ => .ok ()

/-- A post that was shared, and the table after it. -/
structure GroupPostChange where
  groupPost : GroupPost
  groupPosts : Table GroupPost.key

def GroupPostChange.write (change : GroupPostChange) (db : ContentDb) : ContentDb :=
  updateGroupPostCounts change.groupPost { db with groupPosts := change.groupPosts }

def checkCreateGroupPost (request : GroupPostRequest) (db : ContentDb) :
    Except Status GroupPostChange := do
  let groupId ← okOr request.groupId (invalidId "group_id")
  let (group, own) ← getGroupAndMembership db groupId user.id
  validateGroupPermission group own (some user) .createPosts
  let postId ← okOr request.postId (invalidId "post_id")
  let post ← okOr (db.posts.get postId) ⟨.notFound, "post_not_found"⟩
  require (post.visibility ≠ .direct)
    ⟨.invalidArgument, "Direct posts may not be added to groups"⟩
  let groupPost : GroupPost := ⟨groupId, postId, user.id, group.defaultPostModeration⟩
  require (db.users.get user.id).isSome dataError
  let groupPosts ← okOr (db.groupPosts.insert groupPost) dataError
  return ⟨groupPost, groupPosts⟩

/-- `CreateGroupPost`. -/
def createGroupPost (request : GroupPostRequest) : Rpc GroupPost :=
  checked (fun db => answered (checkCreateGroupPost user request db)) GroupPostChange.write
    fun change _ => .ok change.groupPost

end

end Rellm.Groups
