import Rellm.Foundation.Run
import Rellm.Groups.Write

/-!
# Who approves members

A membership counts once the group and the user agree to it. Both sides only come to agree by calls
of those who may speak for them; but an update by a moderator of the group is stored only if its
caller moderates users on the server, and the check before it keeps an invited user from accepting.
-/

namespace Rellm.Groups

open Foundation Content

/-- A user moderates the members of a group, or has the rights of an admin there. -/
def ModeratesMembers (user : Content.User) (group : Group) (own : Option Membership) : Prop :=
  (.moderateUsers ∈ groupPermissions group own ∨ .admin ∈ groupPermissions group own) ∨
    (.admin ∈ user.permissions.toProtoPermissions ∨
      .moderateGroups ∈ user.permissions.toProtoPermissions)

instance (user : Content.User) (group : Group) (own : Option Membership) :
    Decidable (ModeratesMembers user group own) :=
  inferInstanceAs (Decidable (_ ∨ _))

/-- A user moderates users on the server. -/
def ModeratesUsers (user : Content.User) : Prop :=
  .admin ∈ user.permissions.toProtoPermissions ∨
    .moderateUsers ∈ user.permissions.toProtoPermissions

instance (user : Content.User) : Decidable (ModeratesUsers user) :=
  inferInstanceAs (Decidable (_ ∨ _))

/-- A call about a membership, by a user. -/
inductive MembershipOp where
  | create (user : Content.User) (request : MembershipRequest)
  | update (user : Content.User) (request : MembershipRequest)
  | delete (user : Content.User) (request : MembershipRequest)
  deriving DecidableEq, Repr

/-- Who makes a call. -/
def MembershipOp.caller : MembershipOp → Content.User
  | .create user _ | .update user _ | .delete user _ => user

/-- The tables after a call. -/
def MembershipOp.apply (db : ContentDb) : MembershipOp → ContentDb
  | .create user request => finalState (createMembership user request db)
  | .update user request => finalState (updateMembership user request db)
  | .delete user request => finalState (deleteMembership user request db)

section

variable (db : ContentDb) (groupId userId : Nat)

/-- Whether a group lets a user in. -/
def GroupAgrees : Prop :=
  ∃ membership, db.getMembership groupId userId = some membership ∧
    passes membership.groupModeration = true

/-- Whether a user wants to belong to a group. -/
def UserAgrees : Prop :=
  ∃ membership, db.getMembership groupId userId = some membership ∧
    passes membership.userModeration = true

/-- A user moderates the members of the group at the moment. -/
def ModeratesGroup (user : Content.User) : Prop :=
  ∃ group, db.groups.get groupId = some group ∧
    ModeratesMembers user group (db.getMembership groupId user.id)

/-- An update of a membership is stored. -/
def StoresUpdate (user : Content.User) (request : MembershipRequest)
    (stored : Membership → Prop) : Prop :=
  ∃ reply after, updateMembership user request db = .ok reply after ∧
    ∃ membership, after.getMembership groupId userId = some membership ∧ stored membership

end

/-- A call on a group changes what the two sides agree to only as far as its caller speaks for
them, and what a moderator or an invited user decides is stored. -/
structure RightlyModerated (groupId : Nat) (db : ContentDb) (op : MembershipOp) : Prop where
  groupSide : ∀ userId, GroupAgrees (op.apply db) groupId userId → ¬ GroupAgrees db groupId userId →
    ModeratesGroup db groupId op.caller
  userSide : ∀ userId, UserAgrees (op.apply db) groupId userId → ¬ UserAgrees db groupId userId →
    op.caller.id = userId
  decided : ∀ user request userId existing, op = .update user request →
    request.groupId = some groupId → request.userId.decoded = some userId → userId ≠ user.id →
    db.getMembership groupId userId = some existing → ModeratesGroup db groupId user →
    request.groupModeration ∈ [.approved, .rejected] →
      StoresUpdate db groupId userId user request fun membership =>
        membership.groupModeration = request.groupModeration
  accepted : ∀ user request existing, op = .update user request →
    request.groupId = some groupId → request.userId.decoded = some user.id →
    db.getMembership groupId user.id = some existing → existing.userModeration = .pending →
    passes request.userModeration = true →
      StoresUpdate db groupId user.id user request fun membership =>
        membership.userModeration = request.userModeration

/-- Who decides about another member moderates users on the server, unless nothing changes by it;
who accepts an invitation moderates the members already, and names themselves as the server does. -/
def Heard (groupId : Nat) (db : ContentDb) : MembershipOp → Prop
  | .create _ _ | .delete _ _ => True
  | .update user request =>
    request.groupId = some groupId → ∀ userId existing, request.userId.decoded = some userId →
      db.getMembership groupId userId = some existing →
      (userId ≠ user.id → ModeratesGroup db groupId user →
        request.groupModeration ∈ [.approved, .rejected] →
          ModeratesUsers user ∨ existing.groupModeration = request.groupModeration) ∧
      (userId = user.id → existing.userModeration = .pending →
        passes request.userModeration = true →
          ModeratesGroup db groupId user ∧ request.userId = toProtoId user.id)

section

variable {user : Content.User} {group : Group} {own : Option Membership}

theorem validateAnyPermission_iff {first : Permission} {others : List Permission} :
    validateAnyPermission (some user.toUser) first others = .ok () ↔
      ∃ p ∈ first :: others, p ∈ user.permissions.toProtoPermissions := by
  have hany : ((first :: others).any fun p => p ∈ callerPermissions (some user.toUser)) = true ↔
      ∃ p ∈ first :: others, p ∈ user.permissions.toProtoPermissions := by
    simp only [List.any_eq_true, decide_eq_true_eq]
    exact Iff.rfl
  rw [← hany]
  unfold validateAnyPermission
  split <;> simp [*]

theorem validateAnyGroupPermission_iff {first : Permission} {others : List Permission} :
    validateAnyGroupPermission group own (some user) first others = .ok () ↔
      (∃ p ∈ first :: others, p ∈ groupPermissions group own) ∨
        (.admin ∈ user.permissions.toProtoPermissions ∨
          .moderateGroups ∈ user.permissions.toProtoPermissions) := by
  have hserver : validateAnyPermission (some user.toUser) .admin [.moderateGroups] = .ok () ↔
      .admin ∈ user.permissions.toProtoPermissions ∨
        .moderateGroups ∈ user.permissions.toProtoPermissions := by
    rw [validateAnyPermission_iff]
    simp
  have hany : ((first :: others).any fun p => p ∈ groupPermissions group own) = true ↔
      ∃ p ∈ first :: others, p ∈ groupPermissions group own := by
    simp only [List.any_eq_true, decide_eq_true_eq]
  rw [← hserver, ← hany]
  unfold validateAnyGroupPermission
  split
  · rename_i hgroup
    exact iff_of_true rfl (Or.inl hgroup)
  · rename_i hgroup
    rw [or_iff_right hgroup]
    dsimp only [Option.map_some]
    cases validateAnyPermission (some user.toUser) .admin [.moderateGroups] <;> simp

theorem validateGroupPermission_iff {u : Unit} :
    validateGroupPermission group own (some user) .moderateUsers = .ok u ↔
      ModeratesMembers user group own := by
  rw [validateGroupPermission, validateAnyGroupPermission_iff]
  simp [ModeratesMembers]

/-- The check before an update lets through who moderates the members. -/
theorem validateGroupUserModerator_iff {u : Unit} :
    validateGroupUserModerator (some user) group own = .ok u ↔ ModeratesMembers user group own := by
  have hadmin : validatePermission (some user.toUser) .admin = .ok () ↔
      .admin ∈ user.permissions.toProtoPermissions := by
    rw [validatePermission, validateAnyPermission_iff]
    simp
  have hgroup : validateGroupPermission group own (some user) .admin = .ok () ↔
      .admin ∈ groupPermissions group own ∨ (.admin ∈ user.permissions.toProtoPermissions ∨
        .moderateGroups ∈ user.permissions.toProtoPermissions) := by
    rw [validateGroupPermission, validateAnyGroupPermission_iff]
    simp
  have hall : validateGroupAdmin (some user) group own = .ok () ↔
      .admin ∈ groupPermissions group own ∨ (.admin ∈ user.permissions.toProtoPermissions ∨
        .moderateGroups ∈ user.permissions.toProtoPermissions) := by
    rw [← hgroup, validateGroupAdmin, Option.map_some]
    cases hserver : validatePermission (some user.toUser) .admin with
    | ok _ => exact iff_of_true rfl (hgroup.mpr (Or.inr (Or.inl (hadmin.mp hserver))))
    | error _ => exact Iff.rfl
  unfold validateGroupUserModerator
  cases hok : validateGroupAdmin (some user) group own with
  | ok _ =>
    refine iff_of_true rfl ?_
    rcases hall.mp hok with h | h
    · exact Or.inl (Or.inr h)
    · exact Or.inr h
  | error _ => exact validateGroupPermission_iff

end

section

variable {db : ContentDb} {user : Content.User} {request : MembershipRequest}

/-- A membership that a call creates is the caller's own, or an invitation. -/
theorem checkCreateMembership_made {change : MembershipChange}
    (h : checkCreateMembership user request db = .ok change) :
    ∃ groupId group userId, db.groups.get groupId = some group ∧
      newMembership user group userId (db.getMembership groupId user.id) = .ok change.membership ∧
      db.memberships.insert change.membership = some change.memberships := by
  simp only [checkCreateMembership, checks_eq_ok, require_eq_ok, okOr_eq_ok, pure_eq_ok,
    getGroup] at h
  obtain ⟨_, _, groupId, _, group, hgroup, userId, _, membership, hnew, _, _, memberships,
    hinsert, rfl⟩ := h
  exact ⟨groupId, group, userId, hgroup, hnew, hinsert⟩

theorem not_passes_pending : ¬ passes .pending = true := by decide

/-- A new membership counts for the group only if the group lets everybody in or a moderator
invites, and for the user only if it is the caller's own. -/
theorem newMembership_agrees {group : Group} {userId : Nat} {own : Option Membership}
    {membership : Membership} (h : newMembership user group userId own = .ok membership) :
    membership.groupId = group.id ∧
      (passes membership.groupModeration = true → group.defaultMembershipModeration = .pending →
        ModeratesMembers user group own) ∧
      (passes membership.userModeration = true → user.id = membership.userId) := by
  unfold newMembership at h
  split at h
  · split at h
    · cases h
    · obtain rfl := Except.ok.inj h
      refine ⟨rfl, fun hpasses hpending => ?_, fun _ => rfl⟩
      rw [ownMembership, hpending] at hpasses
      exact absurd hpasses not_passes_pending
  · split at h
    · cases h
    · rename_i inviter
      obtain rfl := Except.ok.inj h
      refine ⟨rfl, fun hpasses hpending => ?_, fun hpasses =>
        absurd hpasses not_passes_pending⟩
      dsimp only [invitedMembership] at hpasses
      cases hvalid : validateAnyGroupPermission group (some inviter) (some user) .admin
          [.moderateUsers] with
      | error status =>
        rw [hvalid, hpending] at hpasses
        exact absurd hpasses not_passes_pending
      | ok _ =>
        have hmoderates := validateAnyGroupPermission_iff.mp hvalid
        simp only [List.mem_cons, List.not_mem_nil, or_false, exists_eq_or_imp,
          exists_eq_left] at hmoderates
        rw [or_comm (a := _ ∈ _)] at hmoderates
        exact hmoderates

/-- An update is checked for whether its caller moderates the members of the group. -/
theorem checkUpdateMembership_iff {change : MembershipChange} :
    checkUpdateMembership user request db = .ok change ↔
      ∃ groupId userId existing, request.groupId = some groupId ∧
        request.userId.decoded = some userId ∧ ModeratesGroup db groupId user ∧
        db.getMembership groupId userId = some existing ∧
        change = ⟨updatedMembership user request existing,
          db.memberships.update (fun membership => membership.key = (userId, groupId))
            (updatedMembership user request) fun _ => rfl⟩ := by
  simp only [checkUpdateMembership, validateMembership, IdText.toDbIdOrErr, checks_eq_ok,
    okOr_eq_ok, pure_eq_ok, getGroup, checkIf_eq_ok, validateGroupUserModerator_iff,
    validateGroupPermission_iff, ModeratesGroup]
  constructor
  · rintro ⟨_, _, groupId, hgroupId, userId, huserId, group, hgroup, _, hmoderates, _, _,
      existing, hexisting, rfl⟩
    exact ⟨groupId, userId, existing, hgroupId, huserId, ⟨group, hgroup, hmoderates⟩, hexisting,
      rfl⟩
  · rintro ⟨groupId, userId, existing, hgroupId, huserId, ⟨group, hgroup, hmoderates⟩, hexisting,
      rfl⟩
    exact ⟨(), ⟨userId, huserId, groupId, hgroupId, trivial⟩, groupId, hgroupId, userId, huserId,
      group, hgroup, (), hmoderates, (), fun _ => hmoderates, existing, hexisting, rfl⟩

/-- What an update writes is the membership it is about. -/
theorem get_updated (key other : Nat × Nat) :
    (db.memberships.update (fun membership => membership.key = key)
      (updatedMembership user request) fun _ => rfl).get other =
        if other = key then (db.memberships.get other).map (updatedMembership user request)
        else db.memberships.get other :=
  Table.get_update_key ..

/-- An update that passes its check writes one membership. -/
theorem updateMembership_ok {change : MembershipChange}
    (h : checkUpdateMembership user request db = .ok change) :
    updateMembership user request db = .ok change.membership (change.write db) := by
  refine checked_of_ok ?_ rfl
  rw [h]
  rfl

end

section

variable {db : ContentDb} {groupId : Nat}

/-- Who wants to belong to the group has to be let in. -/
def AsksToJoin (db : ContentDb) (groupId : Nat) : Prop :=
  ∃ group, db.groups.get groupId = some group ∧ group.defaultMembershipModeration = .pending

/-- A refreshed counter does not change who is let in. -/
theorem AsksToJoin.updateRelatedCounts {membership : Membership} {memberships : Table Membership.key}
    (h : AsksToJoin db groupId) :
    AsksToJoin (updateRelatedCounts membership { db with memberships := memberships }) groupId := by
  obtain ⟨group, hgroup, hpending⟩ := h
  unfold AsksToJoin Groups.updateRelatedCounts updateGroupCount ContentDb.modifyUser
  dsimp only
  rw [Serial.get_modify]
  split
  · rw [hgroup, Option.map_some]
    exact ⟨_, rfl, hpending⟩
  · exact ⟨group, hgroup, hpending⟩

/-- No call about a membership changes who is let in. -/
theorem AsksToJoin.apply (op : MembershipOp) (h : AsksToJoin db groupId) :
    AsksToJoin (op.apply db) groupId := by
  cases op with
  | create user request =>
    exact checked_invariant (I := fun db => AsksToJoin db groupId) h
      fun _ _ => h.updateRelatedCounts
  | update user request =>
    exact checked_invariant (I := fun db => AsksToJoin db groupId) h
      fun _ _ => h.updateRelatedCounts
  | delete user request =>
    refine checked_invariant (I := fun db => AsksToJoin db groupId) h fun delete _ => ?_
    unfold DeleteMembership.write
    cases delete.own with
    | none => exact h
    | some own => exact h.updateRelatedCounts

/-- A membership after a call was there before, or its caller made it, or an update by a moderator
changed it. -/
theorem MembershipOp.getMembership_apply (op : MembershipOp) {userId : Nat}
    {membership : Membership}
    (h : (op.apply db).getMembership groupId userId = some membership) :
    db.getMembership groupId userId = some membership ∨
      (∃ group invited, db.groups.get groupId = some group ∧ membership.userId = userId ∧
        newMembership op.caller group invited (db.getMembership groupId op.caller.id) =
          .ok membership) ∨
      (∃ request existing, ModeratesGroup db groupId op.caller ∧
        request.userId.decoded = some userId ∧ db.getMembership groupId userId = some existing ∧
        membership = updatedMembership op.caller request existing) := by
  cases op with
  | create user request =>
    rcases finalState_checked (x := fun db => answered (checkCreateMembership user request db))
        (f := MembershipChange.write) (y := fun change _ => .ok change.membership) (s := db) with
      ⟨change, hok, hfinal⟩ | ⟨_, _, hfinal⟩
    · obtain ⟨id, group, invited, hgroup, hnew, hinsert⟩ :=
        checkCreateMembership_made (answered_eq_ok.mp hok)
      have hstored : (change.write db).getMembership groupId userId = some membership := by
        rw [← hfinal]
        exact h
      have hget : change.memberships.get (userId, groupId) = some membership := hstored
      rw [Table.get_of_insert hinsert] at hget
      split at hget
      · rename_i hkey
        obtain rfl := Option.some.inj hget
        obtain ⟨rfl, hid⟩ := Prod.mk.inj hkey
        have hgroupId : id = groupId :=
          ((Table.key_of_get hgroup).symm.trans (newMembership_agrees hnew).1.symm).trans hid.symm
        subst hgroupId
        exact Or.inr (Or.inl ⟨group, invited, hgroup, rfl, hnew⟩)
      · exact Or.inl hget
    · left
      rw [← hfinal]
      exact h
  | update user request =>
    rcases finalState_checked (x := fun db => answered (checkUpdateMembership user request db))
        (f := MembershipChange.write) (y := fun change _ => .ok change.membership) (s := db) with
      ⟨change, hok, hfinal⟩ | ⟨_, _, hfinal⟩
    · obtain ⟨id, changed, existing, _, huserId, hmoderates, hexisting, hchange⟩ :=
        checkUpdateMembership_iff.mp (answered_eq_ok.mp hok)
      have hstored : (change.write db).getMembership groupId userId = some membership := by
        rw [← hfinal]
        exact h
      have hget : change.memberships.get (userId, groupId) = some membership := hstored
      rw [hchange, get_updated] at hget
      split at hget
      · rename_i hkey
        obtain ⟨rfl, rfl⟩ := Prod.mk.inj hkey
        have hfound : db.memberships.get (userId, groupId) = some existing := hexisting
        rw [hfound] at hget
        obtain rfl := Option.some.inj hget
        exact Or.inr (Or.inr ⟨request, existing, hmoderates, huserId, hexisting, rfl⟩)
      · exact Or.inl hget
    · left
      rw [← hfinal]
      exact h
  | delete user request =>
    rcases finalState_checked (x := fun db => answered (checkDeleteMembership user request db))
        (f := DeleteMembership.write) (y := fun _ _ => .ok ()) (s := db) with
      ⟨delete, _, hfinal⟩ | ⟨_, _, hfinal⟩
    · have hmemberships : (delete.write db).memberships = db.memberships.delete fun membership =>
          membership.key = (delete.userId, delete.groupId) := by
        unfold DeleteMembership.write
        cases delete.own <;> rfl
      have hget : (db.memberships.delete fun membership =>
          membership.key = (delete.userId, delete.groupId)).get (userId, groupId) =
          some membership := by
        rw [← hmemberships, ← hfinal]
        exact h
      rw [Table.get_delete, Option.filter_eq_some_iff] at hget
      exact Or.inl hget.1
    · left
      rw [← hfinal]
      exact h

/-- A group comes to let a user in by calls of its moderators alone. -/
theorem AsksToJoin.groupSide (h : AsksToJoin db groupId) (op : MembershipOp) {userId : Nat}
    (hafter : GroupAgrees (op.apply db) groupId userId)
    (hbefore : ¬ GroupAgrees db groupId userId) : ModeratesGroup db groupId op.caller := by
  obtain ⟨group, hgroup, hpending⟩ := h
  obtain ⟨membership, hget, hpasses⟩ := hafter
  rcases op.getMembership_apply hget with hsame | ⟨found, invited, hfound, _, hnew⟩ |
    ⟨request, existing, hmoderates, _⟩
  · exact absurd ⟨membership, hsame, hpasses⟩ hbefore
  · obtain rfl := Option.some.inj (hgroup.symm.trans hfound)
    exact ⟨group, hgroup, (newMembership_agrees hnew).2.1 hpasses hpending⟩
  · exact hmoderates

/-- A user comes to belong to a group by calls of their own alone. -/
theorem userSide_apply (op : MembershipOp) {userId : Nat}
    (hafter : UserAgrees (op.apply db) groupId userId)
    (hbefore : ¬ UserAgrees db groupId userId) : op.caller.id = userId := by
  obtain ⟨membership, hget, hpasses⟩ := hafter
  rcases op.getMembership_apply hget with hsame | ⟨group, invited, _, hid, hnew⟩ |
    ⟨request, existing, _, hdecoded, hexisting, rfl⟩
  · exact absurd ⟨membership, hsame, hpasses⟩ hbefore
  · exact ((newMembership_agrees hnew).2.2 hpasses).trans hid
  · by_cases hself : request.userId = toProtoId op.caller.id
    · rw [hself] at hdecoded
      exact Option.some.inj hdecoded
    · have hkept : (updatedMembership op.caller request existing).userModeration =
          existing.userModeration := if_neg hself
      rw [hkept] at hpasses
      exact absurd ⟨existing, hexisting, hpasses⟩ hbefore

section

variable {user : Content.User} {request : MembershipRequest} {userId : Nat} {existing : Membership}

/-- An update is stored exactly if its caller moderates the members of the group. -/
theorem storesUpdate_iff (hgroupId : request.groupId = some groupId)
    (huserId : request.userId.decoded = some userId)
    (hexisting : db.getMembership groupId userId = some existing) {stored : Membership → Prop} :
    StoresUpdate db groupId userId user request stored ↔
      ModeratesGroup db groupId user ∧ stored (updatedMembership user request existing) := by
  have hget : (db.memberships.update (fun membership => membership.key = (userId, groupId))
      (updatedMembership user request) fun _ => rfl).get (userId, groupId) =
        some (updatedMembership user request existing) := by
    have hfound : db.memberships.get (userId, groupId) = some existing := hexisting
    rw [get_updated, if_pos rfl, hfound, Option.map_some]
  constructor
  · rintro ⟨reply, after, hok, membership, hstored, hlaw⟩
    cases hcheck : checkUpdateMembership user request db with
    | error status =>
      have herror : updateMembership user request db = .error (.status status) db := by
        unfold updateMembership checked
        refine bind_of_error (attempt_of_error ?_)
        rw [hcheck]
        rfl
      rw [herror] at hok
      cases hok
    | ok change =>
      rw [updateMembership_ok hcheck] at hok
      obtain ⟨_, rfl⟩ := EStateM.Result.ok.inj hok
      obtain ⟨id, changed, found, hid, hchanged, hmoderates, _, rfl⟩ :=
        checkUpdateMembership_iff.mp hcheck
      obtain rfl := Option.some.inj (hgroupId.symm.trans hid)
      obtain rfl := Option.some.inj (huserId.symm.trans hchanged)
      obtain rfl := Option.some.inj (hget.symm.trans hstored)
      exact ⟨hmoderates, hlaw⟩
  · rintro ⟨hmoderates, hlaw⟩
    exact ⟨_, _, updateMembership_ok (checkUpdateMembership_iff.mpr ⟨groupId, userId, existing,
      hgroupId, huserId, hmoderates, hexisting, rfl⟩), _, hget, hlaw⟩

/-- What the group decides is stored where the caller moderates users on the server. -/
theorem groupModeration_iff :
    (updatedMembership user request existing).groupModeration = request.groupModeration ↔
      ModeratesUsers user ∨ existing.groupModeration = request.groupModeration := by
  have hany : ((validatePermission (some user.toUser) .admin).toBool ||
      (validatePermission (some user.toUser) .moderateUsers).toBool) = true ↔
      ModeratesUsers user := by
    have htoBool (check : Except Status Unit) : check.toBool = true ↔ check = .ok () := by
      cases check <;> simp [Except.toBool]
    rw [Bool.or_eq_true, htoBool, htoBool, validatePermission, validatePermission,
      validateAnyPermission_iff, validateAnyPermission_iff]
    simp only [List.mem_cons, List.not_mem_nil, or_false, exists_eq_or_imp, exists_eq_left, or_self,
      ModeratesUsers]
    tauto
  dsimp only [updatedMembership]
  rw [← hany]
  split <;> simp [*]

/-- What the user decides is stored where the caller is named as the server names them. -/
theorem userModeration_iff (hne : existing.userModeration ≠ request.userModeration) :
    (updatedMembership user request existing).userModeration = request.userModeration ↔
      request.userId = toProtoId user.id := by
  dsimp only [updatedMembership]
  split <;> simp [*]

end

/-- A call is rightly moderated exactly if its caller is heard. -/
theorem AsksToJoin.rightlyModerated_iff (h : AsksToJoin db groupId) (op : MembershipOp) :
    RightlyModerated groupId db op ↔ Heard groupId db op := by
  constructor
  · intro hright
    cases op with
    | create | delete => trivial
    | update user request =>
      intro hgroupId userId existing huserId hexisting
      refine ⟨fun hother hmoderates hdecision => ?_, fun hself hinvited hpasses => ?_⟩
      · have hstored := hright.decided user request userId existing rfl hgroupId huserId hother
          hexisting hmoderates hdecision
        exact groupModeration_iff.mp ((storesUpdate_iff hgroupId huserId hexisting).mp hstored).2
      · subst hself
        have hstored := hright.accepted user request existing rfl hgroupId huserId hexisting
          hinvited hpasses
        obtain ⟨hmoderates, hkept⟩ := (storesUpdate_iff hgroupId huserId hexisting).mp hstored
        have hne : existing.userModeration ≠ request.userModeration := by
          rw [hinvited]
          exact fun heq => not_passes_pending (heq ▸ hpasses)
        exact ⟨hmoderates, (userModeration_iff hne).mp hkept⟩
  · intro hheard
    refine ⟨fun userId => h.groupSide op, fun userId => userSide_apply op, ?_, ?_⟩
    · rintro user request userId existing rfl hgroupId huserId hother hexisting hmoderates hdecision
      have hserver := (hheard hgroupId userId existing huserId hexisting).1 hother hmoderates
        hdecision
      exact (storesUpdate_iff hgroupId huserId hexisting).mpr
        ⟨hmoderates, groupModeration_iff.mpr hserver⟩
    · rintro user request existing rfl hgroupId huserId hexisting hinvited hpasses
      obtain ⟨hmoderates, hnamed⟩ :=
        (hheard hgroupId user.id existing huserId hexisting).2 rfl hinvited hpasses
      have hne : existing.userModeration ≠ request.userModeration := by
        rw [hinvited]
        exact fun heq => not_passes_pending (heq ▸ hpasses)
      exact (storesUpdate_iff hgroupId huserId hexisting).mpr
        ⟨hmoderates, (userModeration_iff hne).mpr hnamed⟩

end

/-- In every run of calls about memberships, a group that is asked to join is rightly moderated
exactly if the callers are heard. -/
theorem rightlyModerated_along_iff (db : ContentDb) (groupId : Nat) (h : AsksToJoin db groupId)
    (ops : List MembershipOp) :
    Along MembershipOp.apply (RightlyModerated groupId) db ops ↔
      Along MembershipOp.apply (Heard groupId) db ops :=
  along_iff_of_invariant (I := fun db => AsksToJoin db groupId) (fun _ op h _ => h.apply op)
    (fun _ op h => h.rightlyModerated_iff op) h ops

/-- A user with some permissions on the server. -/
def member (id : Nat) (permissions : List Permission) : Content.User where
  permissions := toJson permissions
  id := id
  defaultFollowModeration := .unmoderated

/-- A group that is asked to join, which the first user moderates and the second wants to join. -/
def club : ContentDb :=
  { ContentDb.empty with
    users := ⟨⟨[member 1 [], member 2 [], member 3 [.moderateUsers]], by decide⟩, 4, by decide⟩
    groups := ⟨⟨[{
      id := 1
      name := "Club"
      shortname := "Club"
      description := ""
      visibility := .serverPublic
      nonMemberPermissions := .array []
      defaultMembershipPermissions := .array []
      defaultMembershipModeration := .pending
      defaultPostModeration := .unmoderated
      defaultEventModeration := .unmoderated
      memberCount := 1 }], by decide⟩, 2, by decide⟩
    memberships := ⟨[⟨1, 1, toJson [.moderateUsers], .approved, .approved⟩,
      ⟨2, 1, toJson [], .pending, .approved⟩], by decide⟩ }

/-- A moderator of the group who moderates users on the server too lets the second user in. -/
def approval (moderator : Content.User) : MembershipOp :=
  .update moderator { userId := toProtoId 2, groupId := some 1, groupModeration := .approved }

theorem club_moderated : Along MembershipOp.apply (RightlyModerated 1) club
    [.create (member 3 [.moderateUsers]) { userId := toProtoId 3, groupId := some 1 },
      approval (member 1 [.moderateUsers])] := by
  refine (rightlyModerated_along_iff club 1 ⟨_, rfl, rfl⟩ _).mpr ⟨trivial, ?_, trivial⟩
  intro _ userId existing huserId _
  obtain rfl := Option.some.inj huserId
  exact ⟨fun _ _ _ => Or.inl (by decide), fun hself => by cases hself⟩

/-- What a moderator of the group decides is not stored. -/
theorem approval_not_stored :
    ¬ ∀ (db : ContentDb) (groupId : Nat), AsksToJoin db groupId → ∀ ops,
      Along MembershipOp.apply (RightlyModerated groupId) db ops := by
  intro h
  have hright := (h club 1 ⟨_, rfl, rfl⟩ [approval (member 1 [])]).1
  have hmoderates : ModeratesGroup club 1 (member 1 []) := ⟨_, rfl, by decide⟩
  have hstored := hright.decided _ _ 2 ⟨2, 1, toJson [], .pending, .approved⟩ rfl rfl rfl
    (by decide) rfl hmoderates (by decide)
  have hkept := ((storesUpdate_iff rfl rfl rfl).mp hstored).2
  rw [groupModeration_iff] at hkept
  revert hkept
  decide

end Rellm.Groups
