import Rellm.Content.Access
import Rellm.Events.Counted
import Rellm.Foundation.Run
import Rellm.Groups.Counted

/-!
# Following users, and the counters of users

A user follows another, who accepts or rejects it unless every follower is accepted. The
counters of both are refreshed after each change.

Calls that write follows, groups, memberships, posts and events refresh counters of users
and of groups. A run keeps all of them right whose calls refresh every counter that they
change.
-/

namespace Rellm.Users

/-! ## Follows -/

section

open Foundation Content

structure FollowRequest where
  userId : IdText
  targetUserId : IdText
  targetUserModeration : Moderation := .unknown
  deriving DecidableEq, Repr

def validateFollow (request : FollowRequest) (operation : OperationType) :
    Except Status Unit := do
  let _ ← request.userId.toDbIdOrErr "user_id"
  let _ ← request.targetUserId.toDbIdOrErr "target_user_id"
  require (request.userId ≠ request.targetUserId)
    ⟨.invalidArgument, "user_cannot_follow_themselves"⟩
  require (operation = .update → request.targetUserModeration ∈ [.approved, .rejected])
    ⟨.internal, "invalid_target_user_moderation"⟩

/-- A follow that was written, and the table after it. -/
structure FollowChange where
  follow : Follow
  follows : Table Follow.key

/-- The change is written, and the counters of both users refreshed. -/
def FollowChange.write (change : FollowChange) (db : ContentDb) : ContentDb :=
  updateFollowCounts { db with follows := change.follows } change.follow.userId
    change.follow.targetUserId

section

variable (user : Content.User) (request : FollowRequest)

def checkCreateFollow (db : ContentDb) : Except Status FollowChange := do
  validateFollow request .create
  checkIf (request.userId ≠ toProtoId user.id) (validatePermission (some user.toUser) .admin)
  let targetUserId ← request.targetUserId.toDbIdOrErr "target_user_id"
  let target ← okOr (db.users.get targetUserId) ⟨.notFound, "target_user_not_found"⟩
  let follow : Follow := ⟨user.id, target.id, target.defaultFollowModeration⟩
  require (db.users.get user.id).isSome dataError
  let follows ← okOr (db.follows.insert follow) dataError
  return ⟨follow, follows⟩

/-- `CreateFollow`. -/
def createFollow : Rpc Follow :=
  checked (fun db => answered (checkCreateFollow user request db)) FollowChange.write
    fun change _ => .ok change.follow

def checkUpdateFollow (db : ContentDb) : Except Status FollowChange := do
  validateFollow request .update
  require (request.targetUserId = toProtoId user.id)
    ⟨.invalidArgument, "only_target_user_can_update_follow"⟩
  let userId ← request.userId.toDbIdOrErr "user_id"
  let targetUserId ← request.targetUserId.toDbIdOrErr "target_user_id"
  let existing ← okOr (db.follows.get (userId, targetUserId)) ⟨.notFound, "follow_not_found"⟩
  let accept (follow : Follow) : Follow :=
    { follow with targetUserModeration := request.targetUserModeration }
  return {
    follow := accept existing
    follows := db.follows.update (fun follow => follow.key = (userId, targetUserId)) accept
      fun _ => rfl }

/-- `UpdateFollow`. -/
def updateFollow : Rpc Follow :=
  checked (fun db => answered (checkUpdateFollow user request db)) FollowChange.write
    fun change _ => .ok change.follow

def checkDeleteFollow (db : ContentDb) : Except Status FollowChange := do
  checkIf (request.userId ≠ toProtoId user.id ∧ request.targetUserId ≠ toProtoId user.id)
    (validatePermission (some user.toUser) .admin)
  let userId ← request.userId.toDbIdOrErr "user_id"
  let targetUserId ← request.targetUserId.toDbIdOrErr "target_user_id"
  let existing ← okOr (db.follows.get (userId, targetUserId)) ⟨.notFound, "follow_not_found"⟩
  return {
    follow := existing
    follows := db.follows.delete fun follow => follow.key = (userId, targetUserId) }

/-- `DeleteFollow`. -/
def deleteFollow : Rpc Unit :=
  checked (fun db => answered (checkDeleteFollow user request db)) FollowChange.write
    fun _ _ => .ok ()

end

end

/-! ## Counters -/

section

open Foundation Content Calendar Groups Posts Events

section

variable {db : ContentDb}

/-- A change of one follow is counted by its two users. -/
theorem counted_follows {follows : Table Follow.key} {follow : Follow}
    (hoff : Table.AgreesOff follow.key db.follows follows) (counter : Counter) (id : Nat)
    (huser : ¬ (counter ∈ [Counter.following, .friend] ∧ id = follow.userId))
    (htarget : ¬ (counter ∈ [Counter.follower, .friend] ∧ id = follow.targetUserId)) :
    counter.counted { db with follows := follows } id = counter.counted db id := by
  cases counter with
  | follower =>
    apply hoff.countP_eq
    intro other hcounted hkey
    rw [Bool.and_eq_true, decide_eq_true_eq] at hcounted
    exact htarget ⟨by simp, hcounted.1.symm.trans (congrArg Prod.snd hkey)⟩
  | following =>
    apply hoff.countP_eq
    intro other hcounted hkey
    rw [Bool.and_eq_true, decide_eq_true_eq] at hcounted
    exact huser ⟨by simp, hcounted.1.symm.trans (congrArg Prod.fst hkey)⟩
  | friend =>
    -- neither a follow of the user nor one back is the changed one
    have hfirst {other : Follow} (hother : other.userId = id) : other.key ≠ follow.key :=
      fun hkey => huser ⟨by simp, hother.symm.trans (congrArg Prod.fst hkey)⟩
    have hback (targetUserId : Nat) :
        follows.get (targetUserId, id) = db.follows.get (targetUserId, id) :=
      hoff _ fun hkey => htarget ⟨by simp, congrArg Prod.snd hkey⟩
    apply Table.countP_congr_of_mem
    intro other
    simp only [Bool.and_eq_true, decide_eq_true_eq]
    constructor
    · rintro ⟨hmem, ⟨hother, hpasses⟩, hfriend⟩
      rw [hother, hback] at hfriend
      exact ⟨(hoff.mem_iff (hfirst hother)).mp hmem, ⟨hother, hpasses⟩, hother.symm ▸ hfriend⟩
    · rintro ⟨hmem, ⟨hother, hpasses⟩, hfriend⟩
      rw [hother, ← hback] at hfriend
      exact ⟨(hoff.mem_iff (hfirst hother)).mpr hmem, ⟨hother, hpasses⟩, hother.symm ▸ hfriend⟩
  | _ => rfl

/-- A follow that is written with the counters of its users leaves none stale. -/
theorem FollowChange.counted_write (h : Counted noCounter db) {change : FollowChange}
    (hoff : Table.AgreesOff change.follow.key db.follows change.follows) :
    Counted noCounter (change.write db) := by
  have hchanged : RightBut (fun counter id =>
      counter ∈ [Counter.following, .friend] ∧ id = change.follow.userId ∨
        counter ∈ [Counter.follower, .friend] ∧ id = change.follow.targetUserId)
      { db with follows := change.follows } := by
    apply h.users.of_noCounter.changed
    · rfl
    · intro counter id hstale
      rw [not_or] at hstale
      exact counted_follows hoff counter id hstale.1 hstale.2
  constructor
  · exact ⟨h.referenced.events, h.referenced.occasions, h.referenced.memberships⟩
  · refine (hchanged.updateFollowCounts _ _).mono ?_
    rintro counter id ⟨⟨hstale | hstale, huser⟩, htarget⟩
    · exact huser hstale
    · exact htarget hstale
  · exact h.members

variable {user : Content.User} {request : FollowRequest}

theorem counted_createFollow (h : Counted noCounter db) :
    Counted noCounter (finalState (createFollow user request db)) := by
  refine checked_invariant h ?_
  intro change hok
  rw [answered_eq_ok] at hok
  unfold checkCreateFollow at hok
  simp only [checks_eq_ok, okOr_eq_ok, pure_eq_ok] at hok
  obtain ⟨_, _, _, _, targetUserId, _, target, _, _, _, follows, hinsert, rfl⟩ := hok
  exact FollowChange.counted_write h (Table.agreesOff_insert hinsert)

theorem counted_updateFollow (h : Counted noCounter db) :
    Counted noCounter (finalState (updateFollow user request db)) := by
  refine checked_invariant h ?_
  intro change hok
  rw [answered_eq_ok] at hok
  unfold checkUpdateFollow at hok
  simp only [checks_eq_ok, okOr_eq_ok] at hok
  obtain ⟨_, _, _, _, userId, _, targetUserId, _, existing, hexisting, hchange⟩ := hok
  rw [pure_eq_ok] at hchange
  subst hchange
  have hkey : existing.key = (userId, targetUserId) := Table.key_of_get hexisting
  apply FollowChange.counted_write h
  have hsame : ({ existing with
      targetUserModeration := request.targetUserModeration } : Follow).key =
        (userId, targetUserId) := hkey
  dsimp only
  rw [hsame]
  exact Table.agreesOff_update db.follows _
    (fun follow => { follow with targetUserModeration := request.targetUserModeration })
    fun _ => rfl

theorem counted_deleteFollow (h : Counted noCounter db) :
    Counted noCounter (finalState (deleteFollow user request db)) := by
  refine checked_invariant h ?_
  intro change hok
  rw [answered_eq_ok] at hok
  unfold checkDeleteFollow at hok
  simp only [checks_eq_ok, okOr_eq_ok, pure_eq_ok] at hok
  obtain ⟨_, _, userId, _, targetUserId, _, existing, hexisting, rfl⟩ := hok
  have hkey : existing.key = (userId, targetUserId) := Table.key_of_get hexisting
  apply FollowChange.counted_write h
  dsimp only
  rw [hkey]
  exact Table.agreesOff_delete db.follows _

end

/-- A call that changes what is counted. -/
inductive CountedCall where
  | createFollow (user : Content.User) (request : FollowRequest)
  | updateFollow (user : Content.User) (request : FollowRequest)
  | deleteFollow (user : Content.User) (request : FollowRequest)
  | createGroup (user : Content.User) (request : GroupRequest)
  | createMembership (user : Content.User) (request : MembershipRequest)
  | updateMembership (user : Content.User) (request : MembershipRequest)
  | deleteMembership (user : Content.User) (request : MembershipRequest)
  | createPost (config : ServerConfiguration) (user : Content.User) (request : PostRequest)
      (now : Instant)
  | deletePost (user : Content.User) (request : PostRequest) (now : Instant)
  | createEvent (config : ServerConfiguration) (user : Content.User) (request : EventRequest)
      (now : Instant)
  | updateEvent (user : Content.User) (request : EventRequest) (now : Instant)
  | createNewOccasions (user : Content.User) (request : EventRequest) (now : Instant)
  | deleteRemovedOccasions (user : Content.User) (request : EventRequest)
  | deleteEvent (user : Content.User) (request : EventRequest)

/-- One call after another, each to its end. -/
def countedStep (db : ContentDb) : CountedCall → ContentDb
  | .createFollow user request => finalState (createFollow user request db)
  | .updateFollow user request => finalState (updateFollow user request db)
  | .deleteFollow user request => finalState (deleteFollow user request db)
  | .createGroup user request => finalState (createGroup user request db)
  | .createMembership user request => finalState (createMembership user request db)
  | .updateMembership user request => finalState (updateMembership user request db)
  | .deleteMembership user request => finalState (deleteMembership user request db)
  | .createPost config user request now => finalState (createPost config user request now db)
  | .deletePost user request now => finalState (deletePost user request now db)
  | .createEvent config user request now => finalState (createEvent config user request now db)
  | .updateEvent user request now => finalState (updateEvent user request now db)
  | .createNewOccasions user request now => finalState (createNewOccasions user request now db)
  | .deleteRemovedOccasions user request => finalState (deleteRemovedOccasions user request db)
  | .deleteEvent user request => finalState (deleteEvent user request db)

/-- The call refreshes every counter that it changes: it creates no group, deletes no membership
that counts for another, no post of an event or of an occasion and no event with occasions of
another, and creates all its new occasions or none. -/
def RefreshesAll (db : ContentDb) : CountedCall → Prop
  | .createGroup user request => ∀ change, checkCreateGroup user request db ≠ .ok change
  | .deleteMembership user request => DeletesOwn user request db
  | .deletePost user request _ => DeletesPlainPost user request db
  | .updateEvent user request now => ∀ eventId event, eventPostId request = .ok eventId →
      editableEvent user eventId db = .ok event →
      succeeded (updateEventDetailsImpl user eventId request now db) = true →
      CreatesAllOrNone event.postId request.occasions db
  | .createNewOccasions user request _ => ∀ eventId event, eventPostId request = .ok eventId →
      editableEvent user eventId db = .ok event →
      CreatesAllOrNone event.postId request.occasions db
  | .deleteEvent user request => DeletesOwnOccasions user request db
  | _ => True

/-- A call that refreshes every counter it changes leaves none stale. -/
theorem counted_countedStep {db : ContentDb} (h : Counted noCounter db) (call : CountedCall)
    (hcall : RefreshesAll db call) : Counted noCounter (countedStep db call) := by
  cases call with
  | createFollow user request => exact counted_createFollow h
  | updateFollow user request => exact counted_updateFollow h
  | deleteFollow user request => exact counted_deleteFollow h
  | createGroup user request =>
    refine checked_invariant h ?_
    intro change hok
    rw [answered_eq_ok] at hok
    exact absurd hok (hcall change)
  | createMembership user request => exact counted_createMembership h
  | updateMembership user request => exact counted_updateMembership h
  | deleteMembership user request => exact counted_deleteMembership h hcall
  | createPost config user request now => exact counted_createPost h
  | deletePost user request now => exact counted_deletePost h hcall
  | createEvent config user request now => exact counted_createEvent h
  | updateEvent user request now => exact counted_updateEvent h hcall
  | createNewOccasions user request now => exact counted_createNewOccasions h hcall
  | deleteRemovedOccasions user request => exact counted_deleteRemovedOccasions h
  | deleteEvent user request => exact counted_deleteEvent h hcall

/-- A user who may do everything. -/
def founder : Content.User where
  id := 1
  permissions := .encode Permission.asStrName [.admin]
  defaultFollowModeration := .unmoderated

/-- A user who accepts every follower. -/
def neighbor : Content.User where
  id := 2
  permissions := .encode Permission.asStrName []
  defaultFollowModeration := .unmoderated

/-- Two users, and nothing else. -/
def village : ContentDb :=
  { ContentDb.empty with users := ⟨⟨[founder, neighbor], by decide⟩, 3, by decide⟩ }

theorem village_referenced : Referenced village where
  events := by
    intro event hmem
    cases hmem
  occasions := by
    intro occasion hmem
    cases hmem
  memberships := by
    intro membership hmem
    cases hmem

theorem village_countersRight : CountersRight village where
  users := by
    intro user hmem counter _
    rcases List.mem_pair.mp hmem with rfl | rfl
    · cases counter <;> rfl
    · cases counter <;> rfl
  members := by
    intro group hmem
    cases hmem

/-- Throughout a run whose calls refresh every counter that they change, the counters of all users
and groups are right. -/
theorem countersRight_of_refreshesAll {db : ContentDb} (hreferenced : Referenced db)
    (hright : CountersRight db) {calls : List CountedCall}
    (hcalls : Along countedStep RefreshesAll db calls) :
    Throughout countedStep CountersRight db calls :=
  Throughout.of_along (I := Counted noCounter) (fun _ call hcounted hcall =>
    counted_countedStep hcounted call hcall) (fun _ hcounted => hcounted.countersRight)
    ⟨hreferenced, hright.users, hright.members⟩ hcalls

/-- A follow and a post that is deleted leave the counters right. -/
theorem countersRight_followedAndPosted : Throughout countedStep CountersRight village [
    .createFollow founder { userId := toProtoId 1, targetUserId := toProtoId 2 },
    .createPost {} founder {} 0,
    .deletePost founder { id := some 1 } 1] := by
  refine countersRight_of_refreshesAll village_referenced village_countersRight
    ⟨trivial, trivial, ?_, trivial⟩
  intro delete _
  exact .inr ⟨rfl, rfl⟩

/-- A user who creates a group is not counted to be in one. -/
theorem uncounted_creator : ¬ Throughout countedStep CountersRight village [
    .createGroup founder { name := "Neighbors" }] := by
  intro h
  have hright := h.2.head.users founder (by decide +kernel) .group not_false
  revert hright
  decide +kernel

end

end Rellm.Users
