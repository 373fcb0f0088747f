import Rellm.Content.Counted
import Rellm.Posts.Write

/-!
# Posts and the counters

A post is counted for its author, by what it is; the post of an event or of an occasion is
counted through the event or the occasion. A call to delete a post refreshes the posts of
its author, not the events and occasions.
-/

namespace Rellm.Posts

open Foundation Content Calendar

section

variable {db : ContentDb} {stale : Counter → Nat → Prop}

/-- A new post is counted for its author, if it is a post or a reply. -/
theorem counted_insert (h : Referenced db) {make : Nat → Post} {hmake : ∀ id, (make id).id = id}
    {counter : Counter} {id : Nat}
    (hother : counter ∈ [Counter.post, .response] → (make db.posts.next).userId = some id →
      isEventContext (make db.posts.next).context = true) :
    counter.counted { db with posts := db.posts.insert make hmake } id = counter.counted db id := by
  have hcount (p : Post → Bool) (hp : p (make db.posts.next) = false) :
      (db.posts.insert make hmake).rows.countP p = db.posts.rows.countP p := by
    rw [Serial.countP_insert, hp]
    rfl
  cases counter with
  | post =>
    apply hcount
    rw [Bool.and_eq_false_iff, decide_eq_false_iff_not, decide_eq_false_iff_not]
    by_cases hauthor : (make db.posts.next).userId = some id
    · right
      intro hcontext
      have hevent := hother (by simp) hauthor
      simp [isEventContext, hcontext] at hevent
    · exact .inl hauthor
  | response =>
    apply hcount
    rw [Bool.and_eq_false_iff, decide_eq_false_iff_not]
    by_cases hauthor : (make db.posts.next).userId = some id
    · right
      have hevent := hother (by simp) hauthor
      cases hcontext : (make db.posts.next).context <;>
        simp [isEventContext, hcontext] at hevent ⊢
    · exact .inl hauthor
  | event =>
    apply List.countP_congr
    intro event hmem
    obtain ⟨post, hget⟩ := Option.isSome_iff_exists.mp (h.events event hmem)
    dsimp only
    rw [Serial.get_insert_of_get _ _ _ hget, hget]
  | _ => rfl

/-- A new post leaves references as they are. -/
theorem referenced_insert (h : Referenced db) {make : Nat → Post}
    {hmake : ∀ id, (make id).id = id} :
    Referenced { db with posts := db.posts.insert make hmake } where
  events := by
    intro event hmem
    obtain ⟨post, hget⟩ := Option.isSome_iff_exists.mp (h.events event hmem)
    dsimp only
    rw [Serial.get_insert_of_get _ _ _ hget]
    rfl
  occasions := by
    intro occasion hmem
    obtain ⟨hevent, post, hget, hauthor⟩ := h.occasions occasion hmem
    exact ⟨hevent, post, Serial.get_insert_of_get _ _ hmake hget, hauthor⟩
  memberships := h.memberships

/-- A rewrite of posts that keeps what is counted of them. -/
theorem sameCounted_posts {posts : Serial Post.id}
    (h : posts.rows.map Post.authored = db.posts.rows.map Post.authored) :
    SameCounted db { db with posts := posts } :=
  ⟨rfl, rfl, rfl, rfl, h, rfl, rfl⟩

theorem authored_countReply {posts : Serial Post.id} {parentPostId : Nat} {ancestors : List Nat}
    {now : Instant} :
    (countReply parentPostId ancestors now posts).rows.map Post.authored =
      posts.rows.map Post.authored := by
  unfold countReply
  rw [Serial.update, Table.map_rows_update, Serial.modify, Serial.update, Table.map_rows_update]
  · intro post
    rfl
  · intro post
    rfl

theorem authored_uncountReply {posts : Serial Post.id} {parentPostId : Nat}
    {ancestors : List Nat} :
    (uncountReply parentPostId ancestors posts).rows.map Post.authored =
      posts.rows.map Post.authored := by
  unfold uncountReply
  rw [Serial.update, Table.map_rows_update, Serial.modify, Serial.update, Table.map_rows_update]
  · intro post
    rfl
  · intro post
    rfl

/-- A post that is written with the author and the context it had is counted as it was. -/
theorem sameCounted_savePost (h : Referenced db) {before after : Post}
    (hget : db.posts.get after.id = some before) (huser : after.userId = before.userId)
    (hcontext : after.context = before.context) : SameCounted db (savePost after db) := by
  have hbefore (post : Post) (hmem : post ∈ db.posts.rows) (hid : post.id = after.id) :
      post = before := by
    have hpost := Table.get_eq_some_iff.mpr ⟨hmem, hid⟩
    rw [hget] at hpost
    exact (Option.some.inj hpost).symm
  refine ⟨rfl, rfl, rfl, rfl, ?_, rfl, ?_⟩
  · refine db.posts.map_rows_update_of_mem (overPost_id after) ?_
    intro post hmem hid
    rw [hbefore post hmem (of_decide_eq_true hid)]
    unfold Post.authored overPost
    rw [huser, hcontext]
  · unfold savePost
    dsimp only
    split
    · apply db.occasions.map_rows_update_of_mem
      intro occasion hmem hselected
      rw [Bool.and_eq_true, decide_eq_true_eq] at hselected
      obtain ⟨_, post, hpost, hauthor⟩ := h.occasions occasion hmem
      rw [hselected.1, hget, Option.some.injEq] at hpost
      unfold Occasion.authored
      rw [huser, hpost, hauthor]
    · rfl

/-- A post of no event and no occasion that loses its author is no longer counted for that. -/
theorem counted_unauthored (h : Counted noCounter db) {before after : Post} {author : Nat}
    (hget : db.posts.get after.id = some before) (hauthor : before.userId = some author)
    (huser : after.userId = none) (hevent : db.events.get after.id = none)
    (hoccasion : db.occasions.get after.id = none) :
    Counted (fun counter id => counter ∈ [Counter.post, .response] ∧ id = author)
      (savePost after db) := by
  have hsame : savePost after db =
      { db with posts := db.posts.modify after.id (overPost after) (overPost_id after) } := by
    unfold savePost
    rw [Table.update_eq_self, ite_self]
    intro occasion hmem hselected
    rw [Bool.and_eq_true, decide_eq_true_eq] at hselected
    exact absurd hselected.1 (Table.get_eq_none_iff.mp hoccasion occasion hmem)
  have hother {id : Nat} (hid : id ≠ after.id) :
      (db.posts.modify after.id (overPost after) (overPost_id after)).get id =
        db.posts.get id := by
    rw [Serial.get_modify, if_neg hid]
  have hevents (event : Event) (hmem : event ∈ db.events.rows) : event.postId ≠ after.id :=
    Table.get_eq_none_iff.mp hevent event hmem
  rw [hsame]
  constructor
  · constructor
    · intro event hmem
      dsimp only
      rw [hother (hevents event hmem)]
      exact h.referenced.events event hmem
    · intro occasion hmem
      obtain ⟨hknown, post, hpost, huserId⟩ := h.referenced.occasions occasion hmem
      refine ⟨hknown, post, ?_, huserId⟩
      dsimp only
      rw [hother (Table.get_eq_none_iff.mp hoccasion occasion hmem), hpost]
    · exact h.referenced.memberships
  · apply h.users.of_noCounter.changed
    · rfl
    · intro counter id hstale
      have hcount (p : Post → Bool) (hp : ∀ post, p post = true → post.userId = some id)
          (hid : id ≠ author) :
          (db.posts.modify after.id (overPost after) (overPost_id after)).rows.countP p =
            db.posts.rows.countP p := by
        have hmodify := db.posts.countP_modify (overPost after) (overPost_id after) p hget
        have hbefore : p before = false := by
          rw [Bool.eq_false_iff]
          intro hcounted
          exact hid (Option.some.inj ((hp before hcounted).symm.trans hauthor))
        have hafter : p (overPost after before) = false := by
          rw [Bool.eq_false_iff]
          intro hcounted
          have hnone := hp _ hcounted
          unfold overPost at hnone
          rw [huser] at hnone
          cases hnone
        rw [hbefore, hafter] at hmodify
        exact hmodify
      cases counter with
      | post =>
        apply hcount
        · intro post hcounted
          rw [Bool.and_eq_true, decide_eq_true_eq] at hcounted
          exact hcounted.1
        · exact fun hid => hstale ⟨by simp, hid⟩
      | response =>
        apply hcount
        · intro post hcounted
          rw [Bool.and_eq_true, decide_eq_true_eq] at hcounted
          exact hcounted.1
        · exact fun hid => hstale ⟨by simp, hid⟩
      | event =>
        apply List.countP_congr
        intro event hmem
        dsimp only
        rw [hother (hevents event hmem)]
      | _ => rfl
  · exact h.members

end

section

variable {config : ServerConfiguration} {user : Content.User} {request : PostRequest}
variable {now : Instant} {db : ContentDb}

theorem checkCreatePost_userId {create : CreatePost}
    (h : checkCreatePost config user request db = .ok create) :
    create.new.userId = some user.id := by
  unfold checkCreatePost at h
  simp only [checks_eq_ok, pure_eq_ok] at h
  obtain ⟨_, _, _, _, _, _, _, _, _, _, _, _, _, _, rfl⟩ := h
  rfl

theorem counted_createPost (h : Counted noCounter db) :
    Counted noCounter (finalState (createPost config user request now db)) := by
  rcases finalState_createPost config user request now db with ⟨create, hok, hfinal⟩ | ⟨_, _, hfinal⟩
  · rw [hfinal]
    have huser := checkCreatePost_userId hok
    let publishedAt := if isPublic create.new.visibility then some now else none
    let inserted : ContentDb := { db with
      posts := db.posts.insert (create.new.row publishedAt now)
        (create.new.row_id publishedAt now) }
    have hinserted : Counted
        (fun counter id => counter ∈ [Counter.post, .response] ∧ id = user.id) inserted := by
      refine ⟨referenced_insert h.referenced, h.users.of_noCounter.changed rfl ?_, h.members⟩
      intro counter id hother
      apply counted_insert h.referenced
      intro hcounter hauthor
      have hid : some user.id = some id := huser.symm.trans hauthor
      exact absurd ⟨hcounter, (Option.some.inj hid).symm⟩ hother
    have hsame : SameCounted inserted { db with posts := create.posts now db.posts } := by
      unfold CreatePost.posts
      cases create.new.parentPostId with
      | none => exact SameCounted.refl _
      | some parentPostId => exact sameCounted_posts authored_countReply
    refine ((hsame.counted hinserted).updatePostCounts user.id).mono ?_
    rintro counter id ⟨hstale, hfresh⟩
    exact hfresh hstale
  · rw [hfinal]
    exact h

/-- The post to delete has no author any more, or is that of no event and of no occasion. -/
def DeletesPlainPost (user : Content.User) (request : PostRequest) (db : ContentDb) : Prop :=
  ∀ delete, checkDeletePost user request db = .ok delete →
    delete.existing.userId = none ∨
      db.events.get delete.existing.id = none ∧ db.occasions.get delete.existing.id = none

theorem counted_deletePost (h : Counted noCounter db) (hplain : DeletesPlainPost user request db) :
    Counted noCounter (finalState (deletePost user request now db)) := by
  refine checked_invariant h ?_
  intro delete hok
  have hplain := hplain delete hok
  obtain ⟨_, hget, _, hmay⟩ := checkDeletePost_eq_ok.mp hok
  have hsame : SameCounted db (delete.uncounted db) := by
    apply sameCounted_posts
    cases delete.existing.parentPostId with
    | none => rfl
    | some parentPostId => exact authored_uncountReply
  have huncounted := hsame.counted h
  have hauthored := hsame.get_posts delete.existing.id
  rw [hget, Option.map_some] at hauthored
  obtain ⟨before, hbefore, heq⟩ := Option.map_eq_some_iff.mp hauthored
  unfold Post.authored at heq
  rw [Prod.mk.injEq, Prod.mk.injEq] at heq
  obtain ⟨_, huser, hcontext⟩ := heq
  have hid : (deletedPost user now delete.existing).id = delete.existing.id := by
    unfold deletedPost
    split <;> rfl
  have hnone := userId_deletedPost now hmay
  cases hauthor : delete.existing.userId with
  | none =>
    rw [hauthor] at huser
    rw [commitDeletePost_of_none user hauthor, DeletePost.write_eq]
    refine (sameCounted_savePost huncounted.referenced (hid.symm ▸ hbefore)
      (hnone.trans huser.symm) ?_).counted huncounted
    rw [hcontext]
    unfold deletedPost
    split <;> rfl
  | some author =>
    obtain ⟨hevent, hoccasion⟩ := hplain.resolve_left (by rw [hauthor]; exact nofun)
    have hstale := counted_unauthored huncounted (hid.symm ▸ hbefore) (huser.trans hauthor) hnone
      (hid.symm ▸ hevent) (hid.symm ▸ hoccasion)
    rw [commitDeletePost_of_some user hauthor, DeletePost.write_eq]
    refine (hstale.updatePostCounts author).mono ?_
    rintro counter id ⟨hmem, hfresh⟩
    exact hfresh hmem

theorem sameCounted_updatePost (h : Referenced db) :
    SameCounted db (finalState (updatePost user request now db)) := by
  refine checked_invariant (SameCounted.refl db) ?_
  intro after hok
  obtain ⟨before, hget, hplace⟩ := preparedUpdate_samePlace hok
  exact sameCounted_savePost h hget hplace.userId hplace.context

end

end Rellm.Posts
