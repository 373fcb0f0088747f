import Rellm.Content.Counted
import Rellm.Groups.Write

/-!
# Memberships and the counters

A change of a membership refreshes the members of its group and the groups of its user. The
counters refreshed after a deletion are those of the caller, and the creator of a group has
none refreshed.
-/

namespace Rellm.Groups

open Foundation Content

section

variable {db : ContentDb} {stale : Counter → Nat → Prop}

/-- A change of one membership is counted by its user and its group. -/
theorem counted_memberships {memberships : Table Membership.key} {userId groupId : Nat}
    (hoff : Table.AgreesOff (userId, groupId) db.memberships memberships) :
    (∀ counter : Counter, ∀ id, ¬ (counter = .group ∧ id = userId) →
      counter.counted { db with memberships := memberships } id = counter.counted db id) ∧
      ∀ id, id ≠ groupId → memberCount { db with memberships := memberships } id =
        memberCount db id := by
  constructor
  · intro counter id hother
    cases counter with
    | group =>
      apply hoff.countP_eq
      intro membership hcounted hkey
      rw [Bool.and_eq_true, Bool.and_eq_true, decide_eq_true_eq] at hcounted
      exact hother ⟨rfl, hcounted.1.1.symm.trans (congrArg Prod.fst hkey)⟩
    | _ => rfl
  · intro id hother
    apply hoff.countP_eq
    intro membership hcounted hkey
    rw [Bool.and_eq_true, Bool.and_eq_true, decide_eq_true_eq] at hcounted
    exact hother (hcounted.1.1.symm.trans (congrArg Prod.snd hkey))

/-- Memberships of groups that are there stay so. -/
theorem referenced_memberships (h : Referenced db) {memberships : Table Membership.key}
    {userId groupId : Nat}
    (hoff : Table.AgreesOff (userId, groupId) db.memberships memberships)
    (hgroup : (db.groups.get groupId).isSome) :
    Referenced { db with memberships := memberships } where
  events := h.events
  occasions := h.occasions
  memberships := by
    intro membership hmem
    by_cases hkey : membership.key = (userId, groupId)
    · have hid : membership.groupId = groupId := congrArg Prod.snd hkey
      rw [hid]
      exact hgroup
    · exact h.memberships membership ((hoff.mem_iff hkey).mp hmem)

/-- A change of one membership whose group and user are refreshed leaves no counter stale. -/
theorem counted_updateRelatedCounts (h : Counted noCounter db)
    {memberships : Table Membership.key} {membership : Membership}
    (hoff : Table.AgreesOff membership.key db.memberships memberships)
    (hgroup : (db.groups.get membership.groupId).isSome) :
    Counted noCounter
      (updateRelatedCounts membership { db with memberships := memberships }) := by
  obtain ⟨hcounts, hmembers⟩ := counted_memberships hoff
  have hreferenced := referenced_memberships h.referenced hoff hgroup
  constructor
  · refine ⟨hreferenced.events, hreferenced.occasions, ?_⟩
    intro other hmem
    have hsome := hreferenced.memberships other hmem
    dsimp only [updateRelatedCounts, updateGroupCount, ContentDb.modifyUser]
    rw [Serial.get_modify]
    split
    · rw [Option.isSome_map]
      exact hsome
    · exact hsome
  · have hchanged : RightBut (fun counter id => counter = .group ∧ id = membership.userId)
        { db with
          memberships := memberships
          groups := db.groups.modify membership.groupId (fun group =>
            { group with
              memberCount := memberCount { db with memberships := memberships }
                membership.groupId }) fun _ => rfl } := by
      apply h.users.of_noCounter.changed
      · rfl
      · intro counter id hother
        rw [← hcounts counter id hother]
        cases counter <;> rfl
    refine (hchanged.updateGroupCount membership.userId).mono ?_
    rintro counter id ⟨hstale, hfresh⟩
    exact hfresh hstale
  · intro group hmem
    rcases Serial.mem_modify _ _ _ hmem with ⟨hmem, hother⟩ | ⟨before, hbefore, rfl⟩
    · exact (h.members group hmem).trans (hmembers group.id hother).symm
    · have hid : before.id = membership.groupId := Table.key_of_get hbefore
      dsimp only
      rw [hid]
      rfl

end

section

variable {user : Content.User} {request : MembershipRequest} {db : ContentDb}

theorem checkCreateMembership_ok {change : MembershipChange}
    (h : checkCreateMembership user request db = .ok change) :
    (db.groups.get change.membership.groupId).isSome ∧
      db.memberships.insert change.membership = some change.memberships := by
  unfold checkCreateMembership at h
  simp only [checks_eq_ok, okOr_eq_ok, pure_eq_ok] at h
  obtain ⟨_, _, groupId, _, group, hgroup, userId, _, membership, hnew, _, _, memberships,
    hinsert, rfl⟩ := h
  refine ⟨?_, hinsert⟩
  unfold getGroup at hgroup
  rw [okOr_eq_ok] at hgroup
  have hid : membership.groupId = group.id := by
    unfold newMembership at hnew
    split at hnew
    · split at hnew
      · cases hnew
      · cases hnew
        rfl
    · split at hnew
      · cases hnew
      · cases hnew
        rfl
  dsimp only
  rw [hid, Table.key_of_get hgroup, hgroup]
  rfl

theorem counted_createMembership (h : Counted noCounter db) :
    Counted noCounter (finalState (createMembership user request db)) := by
  refine checked_invariant h ?_
  intro change hok
  obtain ⟨hgroup, hinsert⟩ := checkCreateMembership_ok (answered_eq_ok.mp hok)
  exact counted_updateRelatedCounts h (Table.agreesOff_insert hinsert) hgroup

theorem counted_updateMembership (h : Counted noCounter db) :
    Counted noCounter (finalState (updateMembership user request db)) := by
  refine checked_invariant h ?_
  intro change hok
  rw [answered_eq_ok] at hok
  unfold checkUpdateMembership at hok
  simp only [checks_eq_ok, okOr_eq_ok] at hok
  obtain ⟨_, _, groupId, _, userId, _, _, _, _, _, _, _, existing, hexisting, hchange⟩ := hok
  rw [pure_eq_ok] at hchange
  subst hchange
  have hkey : existing.key = (userId, groupId) := Table.key_of_get hexisting
  apply counted_updateRelatedCounts h
  · have hsame : (updatedMembership user request existing).key = (userId, groupId) := hkey
    rw [hsame]
    exact Table.agreesOff_update db.memberships _ (updatedMembership user request) fun _ => rfl
  · exact h.referenced.memberships existing (Table.get_eq_some_iff.mp hexisting).1

/-- A membership that is not counted may be deleted. -/
theorem counted_delete_uncounted (h : Counted noCounter db) {userId groupId : Nat}
    (hpasses : ∀ membership, db.memberships.get (userId, groupId) = some membership →
      ¬ membership.passes = true) :
    Counted noCounter { db with
      memberships := db.memberships.delete fun membership =>
        membership.key = (userId, groupId) } := by
  have hspared (p : Membership → Bool) (hp : ∀ membership, p membership = true →
      membership.passes = true) :
      (db.memberships.delete fun membership => membership.key = (userId, groupId)).rows.countP p =
        db.memberships.rows.countP p := by
    apply Table.countP_delete
    intro membership hmem hcounted
    rw [decide_eq_false_iff_not]
    intro hkey
    exact hpasses membership (Table.get_eq_some_iff.mpr ⟨hmem, hkey⟩) (hp membership hcounted)
  constructor
  · refine ⟨h.referenced.events, h.referenced.occasions, ?_⟩
    intro membership hmem
    exact h.referenced.memberships membership (List.mem_of_mem_filter hmem)
  · refine h.users.kept rfl ?_
    intro counter id
    cases counter with
    | group =>
      apply hspared
      intro membership hcounted
      simp only [Bool.and_eq_true] at hcounted
      rw [Membership.passes, Bool.and_eq_true]
      exact ⟨hcounted.1.2, hcounted.2⟩
    | _ => rfl
  · intro group hmem
    rw [h.members group hmem]
    symm
    apply hspared
    intro membership hcounted
    simp only [Bool.and_eq_true] at hcounted
    rw [Membership.passes, Bool.and_eq_true]
    exact ⟨hcounted.1.2, hcounted.2⟩

/-- The membership to delete, if it counts, is the caller's own. -/
def DeletesOwn (user : Content.User) (request : MembershipRequest) (db : ContentDb) : Prop :=
  ∀ delete, checkDeleteMembership user request db = .ok delete →
    ∀ membership, db.getMembership delete.groupId delete.userId = some membership →
      membership.passes = true → delete.userId = user.id

theorem checkDeleteMembership_own {delete : DeleteMembership}
    (h : checkDeleteMembership user request db = .ok delete) :
    delete.own = db.getMembership delete.groupId user.id := by
  unfold checkDeleteMembership getGroupAndMembership at h
  simp only [checks_eq_ok, pure_eq_ok] at h
  obtain ⟨_, _, groupId, _, userId, _, _, ⟨group, _, rfl⟩, _, _, _, _, rfl⟩ := h
  rfl

theorem counted_deleteMembership (h : Counted noCounter db)
    (hown : DeletesOwn user request db) :
    Counted noCounter (finalState (deleteMembership user request db)) := by
  refine checked_invariant h ?_
  intro delete hok
  rw [answered_eq_ok] at hok
  have hcaller := checkDeleteMembership_own hok
  have hoff := Table.agreesOff_delete db.memberships (delete.userId, delete.groupId)
  unfold DeleteMembership.write
  by_cases hself : delete.userId = user.id
  · cases howner : delete.own with
    | none =>
      apply counted_delete_uncounted h
      intro membership hmembership
      rw [hself] at hmembership
      rw [hcaller] at howner
      rw [ContentDb.getMembership, hmembership] at howner
      cases howner
    | some own =>
      rw [howner] at hcaller
      have hkey : own.key = (delete.userId, delete.groupId) := by
        rw [hself]
        exact Table.key_of_get hcaller.symm
      rw [← hkey] at hoff ⊢
      exact counted_updateRelatedCounts h hoff
        (h.referenced.memberships own (Table.get_eq_some_iff.mp hcaller.symm).1)
  · have hdeleted := counted_delete_uncounted h fun membership hmembership hpasses =>
      hself (hown delete hok membership hmembership hpasses)
    cases howner : delete.own with
    | none => exact hdeleted
    | some own =>
      rw [howner] at hcaller
      exact counted_updateRelatedCounts hdeleted (fun _ _ => rfl)
        (h.referenced.memberships own (Table.get_eq_some_iff.mp hcaller.symm).1)

end

end Rellm.Groups
