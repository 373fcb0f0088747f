import Rellm.Content.Access

/-!
# Counters that are right

A counter of a user is right if it is what its query counts. A change of the tables leaves
some counters stale, of some users; a refresh makes counters of one user right again. What
a change does not count leaves all of them as they were.
-/

namespace Rellm.Content

open Foundation

/-- A counter of a user. -/
inductive Counter where
  | follower
  | following
  | friend
  | group
  | post
  | response
  | event
  | occasion
  deriving DecidableEq, Repr

/-- The value that is stored. -/
def Counter.stored : Counter → User → Nat
  | .follower => User.followerCount
  | .following => User.followingCount
  | .friend => User.friendCount
  | .group => User.groupCount
  | .post => User.postCount
  | .response => User.responseCount
  | .event => User.eventCount
  | .occasion => User.occasionCount

/-- The value that the query counts. -/
def Counter.counted : Counter → ContentDb → Nat → Nat
  | .follower => followerCount
  | .following => followingCount
  | .friend => friendCount
  | .group => groupCount
  | .post => postCount
  | .response => responseCount
  | .event => eventCount
  | .occasion => occasionCount

/-- The counters of all users are right, but for some. -/
def RightBut (stale : Counter → Nat → Prop) (db : ContentDb) : Prop :=
  ∀ user ∈ db.users.rows, ∀ counter : Counter, ¬ stale counter user.id →
    counter.stored user = counter.counted db user.id

/-- Every group has the number of its members. -/
def MembersRight (db : ContentDb) : Prop :=
  ∀ group ∈ db.groups.rows, group.memberCount = memberCount db group.id

/-- No counter. -/
def noCounter : Counter → Nat → Prop := fun _ _ => False

/-- Every counter of every user is what its query counts, and every group has the number of its
members. -/
structure CountersRight (db : ContentDb) : Prop where
  users : RightBut noCounter db
  members : MembersRight db

/-- What the database checks: events and occasions have their posts, an occasion has the user of its
post, and memberships have their group. -/
structure Referenced (db : ContentDb) : Prop where
  events : ∀ event ∈ db.events.rows, (db.posts.get event.postId).isSome
  occasions : ∀ occasion ∈ db.occasions.rows, (db.events.get occasion.eventId).isSome ∧
    ∃ post, db.posts.get occasion.postId = some post ∧ post.userId = occasion.userId
  memberships : ∀ membership ∈ db.memberships.rows, (db.groups.get membership.groupId).isSome

/-- A state between the statements of a call, with some counters not refreshed yet. -/
structure Counted (stale : Counter → Nat → Prop) (db : ContentDb) : Prop where
  referenced : Referenced db
  users : RightBut stale db
  members : MembersRight db

section

variable {db db' : ContentDb} {stale stale' : Counter → Nat → Prop}

theorem Counted.countersRight (h : Counted noCounter db) : CountersRight db := ⟨h.users, h.members⟩

theorem RightBut.mono (h : RightBut stale db) (hstale : ∀ counter id, stale counter id →
    stale' counter id) : RightBut stale' db :=
  fun user hmem counter hright => h user hmem counter fun hs => hright (hstale counter _ hs)

/-- Where no counter is stale, any may become. -/
theorem RightBut.of_noCounter (h : RightBut noCounter db) : RightBut stale db :=
  h.mono fun _ _ hnone => hnone.elim

theorem Counted.mono (h : Counted stale db) (hstale : ∀ counter id, stale counter id →
    stale' counter id) : Counted stale' db :=
  ⟨h.referenced, h.users.mono hstale, h.members⟩

/-- A change leaves those counters stale that it counts, and those that were. -/
theorem RightBut.changed (h : RightBut stale db) (husers : db'.users = db.users)
    (hcounts : ∀ counter : Counter, ∀ id, ¬ stale counter id →
      counter.counted db' id = counter.counted db id) : RightBut stale db' := by
  intro user hmem counter hright
  rw [husers] at hmem
  rw [h user hmem counter hright, hcounts counter user.id hright]

/-- A change that is not counted leaves stale what was. -/
theorem RightBut.kept (h : RightBut stale db) (husers : db'.users = db.users)
    (hcounts : ∀ counter : Counter, ∀ id, counter.counted db' id = counter.counted db id) :
    RightBut stale db' :=
  h.changed husers fun counter id _ => hcounts counter id

/-- The queries do not read the counters. -/
theorem counted_modifyUser (counter : Counter) (userId : Nat) (f : User → User)
    (hf : ∀ user, (f user).id = user.id) :
    counter.counted (db.modifyUser userId f hf) = counter.counted db := by
  cases counter <;> rfl

/-- Counters of a user that are written with what is counted are no longer stale. -/
theorem RightBut.modifyUser {fresh : Counter → Prop} {userId : Nat} {f : User → User}
    {hf : ∀ user, (f user).id = user.id} (h : RightBut stale db)
    (hfresh : ∀ counter : Counter, fresh counter → ∀ user,
      counter.stored (f user) = counter.counted db userId)
    (hkept : ∀ counter : Counter, ¬ fresh counter → ∀ user,
      counter.stored (f user) = counter.stored user) :
    RightBut (fun counter id => stale counter id ∧ ¬ (fresh counter ∧ id = userId))
      (db.modifyUser userId f hf) := by
  intro user hmem counter hright
  rw [counted_modifyUser]
  rcases Serial.mem_modify _ _ _ hmem with ⟨hmem, hother⟩ | ⟨before, hbefore, rfl⟩
  · exact h user hmem counter fun hstale => hright ⟨hstale, fun ⟨_, hid⟩ => hother hid⟩
  · obtain ⟨hmem, hid⟩ := Table.get_eq_some_iff.mp hbefore
    rw [hf]
    by_cases hcounter : fresh counter
    · rw [hfresh counter hcounter, ← hid]
    · rw [hkept counter hcounter]
      refine h before hmem counter ?_
      intro hstale
      apply hright
      rw [hf]
      exact ⟨hstale, fun hboth => hcounter hboth.1⟩

theorem RightBut.updateGroupCount (h : RightBut stale db) (userId : Nat) :
    RightBut (fun counter id => stale counter id ∧ ¬ (counter = .group ∧ id = userId))
      (updateGroupCount db userId) := by
  apply h.modifyUser
  · rintro counter rfl user
    rfl
  · intro counter hcounter user
    cases counter <;> first | rfl | exact absurd rfl hcounter

theorem RightBut.updatePostCounts (h : RightBut stale db) (userId : Nat) :
    RightBut (fun counter id =>
        stale counter id ∧ ¬ (counter ∈ [Counter.post, .response] ∧ id = userId))
      (updatePostCounts db userId) := by
  apply h.modifyUser
  · intro counter hcounter user
    cases counter <;> simp at hcounter <;> rfl
  · intro counter hcounter user
    cases counter <;> simp at hcounter <;> rfl

theorem RightBut.updateEventCounts (h : RightBut stale db) (userId : Nat) :
    RightBut (fun counter id =>
        stale counter id ∧ ¬ (counter ∈ [Counter.event, .occasion] ∧ id = userId))
      (updateEventCounts db userId) := by
  apply h.modifyUser
  · intro counter hcounter user
    cases counter <;> simp at hcounter <;> rfl
  · intro counter hcounter user
    cases counter <;> simp at hcounter <;> rfl

theorem RightBut.updateFollowCounts (h : RightBut stale db) (userId targetUserId : Nat) :
    RightBut (fun counter id => (stale counter id ∧
        ¬ (counter ∈ [Counter.following, .friend] ∧ id = userId)) ∧
          ¬ (counter ∈ [Counter.follower, .friend] ∧ id = targetUserId))
      (updateFollowCounts db userId targetUserId) := by
  unfold Content.updateFollowCounts
  apply RightBut.modifyUser
  · apply h.modifyUser
    · intro counter hcounter user
      cases counter <;> simp at hcounter <;> rfl
    · intro counter hcounter user
      cases counter <;> simp at hcounter <;> rfl
  · intro counter hcounter user
    cases counter <;> simp at hcounter <;> rfl
  · intro counter hcounter user
    cases counter <;> simp at hcounter <;> rfl

end

/-- The rows that are not those of users stay referenced when a user is rewritten. -/
theorem Referenced.modifyUser {db : ContentDb} (h : Referenced db) (userId : Nat)
    (f : User → User) (hf : ∀ user, (f user).id = user.id) :
    Referenced (db.modifyUser userId f hf) :=
  ⟨h.events, h.occasions, h.memberships⟩

section

variable {db : ContentDb} {stale : Counter → Nat → Prop} (h : Counted stale db) (userId : Nat)

include h

theorem Counted.updateEventCounts :
    Counted (fun counter id =>
        stale counter id ∧ ¬ (counter ∈ [Counter.event, .occasion] ∧ id = userId))
      (updateEventCounts db userId) :=
  ⟨h.referenced.modifyUser _ _ _, h.users.updateEventCounts userId, h.members⟩

theorem Counted.updatePostCounts :
    Counted (fun counter id =>
        stale counter id ∧ ¬ (counter ∈ [Counter.post, .response] ∧ id = userId))
      (updatePostCounts db userId) :=
  ⟨h.referenced.modifyUser _ _ _, h.users.updatePostCounts userId, h.members⟩

/-- Refreshing users one after the other leaves stale what is of none of them. -/
theorem Counted.foldl_updateEventCounts (userIds : List Nat) :
    Counted (fun counter id =>
        stale counter id ∧ ¬ (counter ∈ [Counter.event, .occasion] ∧ id ∈ userIds))
      (userIds.foldl Content.updateEventCounts db) := by
  induction userIds generalizing db stale with
  | nil => exact h.mono fun _ _ hstale => ⟨hstale, fun hmem => List.not_mem_nil hmem.2⟩
  | cons userId userIds ih =>
    refine (ih (h.updateEventCounts userId)).mono ?_
    rintro counter id ⟨⟨hstale, hfirst⟩, hrest⟩
    refine ⟨hstale, ?_⟩
    rintro ⟨hcounter, hid⟩
    rcases List.mem_cons.mp hid with rfl | hid
    · exact hfirst ⟨hcounter, rfl⟩
    · exact hrest ⟨hcounter, hid⟩

end

/-- What the queries read of a post. -/
def Post.authored (post : Post) : Nat × Option Nat × PostContext :=
  (post.id, post.userId, post.context)

/-- What the queries read of an occasion. -/
def Occasion.authored (occasion : Occasion) : Nat × Nat × Option Nat :=
  (occasion.postId, occasion.eventId, occasion.userId)

/-- What the queries read of a group. -/
def Group.counted (group : Group) : Nat × Nat := (group.id, group.memberCount)

/-- A change of what no query counts. -/
structure SameCounted (db db' : ContentDb) : Prop where
  users : db'.users = db.users
  follows : db'.follows = db.follows
  memberships : db'.memberships = db.memberships
  groups : db'.groups.rows.map Group.counted = db.groups.rows.map Group.counted
  posts : db'.posts.rows.map Post.authored = db.posts.rows.map Post.authored
  events : db'.events.rows.map Event.postId = db.events.rows.map Event.postId
  occasions : db'.occasions.rows.map Occasion.authored = db.occasions.rows.map Occasion.authored

namespace SameCounted

theorem refl (db : ContentDb) : SameCounted db db := ⟨rfl, rfl, rfl, rfl, rfl, rfl, rfl⟩

variable {db db' db'' : ContentDb} (h : SameCounted db db')

include h

theorem trans (h' : SameCounted db' db'') : SameCounted db db'' where
  users := h'.users.trans h.users
  follows := h'.follows.trans h.follows
  memberships := h'.memberships.trans h.memberships
  groups := h'.groups.trans h.groups
  posts := h'.posts.trans h.posts
  events := h'.events.trans h.events
  occasions := h'.occasions.trans h.occasions

theorem get_posts (id : Nat) :
    (db'.posts.get id).map Post.authored = (db.posts.get id).map Post.authored :=
  Table.map_get_of_map_rows (k := Prod.fst) (fun _ => rfl) h.posts id

theorem get_events (id : Nat) :
    (db'.events.get id).map Event.postId = (db.events.get id).map Event.postId :=
  Table.map_get_of_map_rows (k := fun id => id) (fun _ => rfl) h.events id

theorem get_groups (id : Nat) :
    (db'.groups.get id).map Group.counted = (db.groups.get id).map Group.counted :=
  Table.map_get_of_map_rows (k := Prod.fst) (fun _ => rfl) h.groups id

theorem counted_eq (counter : Counter) (userId : Nat) :
    counter.counted db' userId = counter.counted db userId := by
  have hposts (p : Nat × Option Nat × PostContext → Bool) :
      db'.posts.rows.countP (fun post => p post.authored) =
        db.posts.rows.countP fun post => p post.authored := by
    have hmap (rows : List Post) :
        rows.countP (fun post => p post.authored) = (rows.map Post.authored).countP p := by
      rw [List.countP_map]
      rfl
    rw [hmap, hmap, h.posts]
  cases counter with
  | follower =>
    dsimp only [Counter.counted, followerCount]
    rw [h.follows]
  | following =>
    dsimp only [Counter.counted, followingCount]
    rw [h.follows]
  | friend =>
    dsimp only [Counter.counted, friendCount]
    rw [h.follows]
  | group =>
    dsimp only [Counter.counted, groupCount]
    rw [h.memberships]
  | post => exact hposts fun post => post.2.1 = some userId && post.2.2 = .post
  | response =>
    exact hposts fun post =>
      post.2.1 = some userId && (post.2.2 = .reply || post.2.2 = .federatedReply)
  | event =>
    have hauthor (id : Nat) : ((db'.posts.get id).any fun post => post.userId = some userId) =
        (db.posts.get id).any fun post => post.userId = some userId := by
      have hget := congrArg (Option.any fun post : Nat × Option Nat × PostContext =>
        decide (post.2.1 = some userId)) (h.get_posts id)
      rw [Option.any_map, Option.any_map] at hget
      exact hget
    have hmap (rows : List Event) : rows.countP (fun event =>
        (db.posts.get event.postId).any fun post => post.userId = some userId) =
        (rows.map Event.postId).countP fun id =>
          (db.posts.get id).any fun post => post.userId = some userId := by
      rw [List.countP_map]
      rfl
    dsimp only [Counter.counted, eventCount]
    simp only [hauthor]
    rw [hmap, hmap, h.events]
  | occasion =>
    have hmap (rows : List Occasion) :
        rows.countP (fun occasion => occasion.userId = some userId) =
          (rows.map Occasion.authored).countP fun occasion => occasion.2.2 = some userId := by
      rw [List.countP_map]
      rfl
    dsimp only [Counter.counted, occasionCount]
    rw [hmap, hmap, h.occasions]

theorem membersRight (hmembers : MembersRight db) : MembersRight db' := by
  intro group hmem
  have hgroup := List.mem_map_of_mem (f := Group.counted) hmem
  rw [h.groups] at hgroup
  obtain ⟨before, hbefore, heq⟩ := List.mem_map.mp hgroup
  unfold Group.counted at heq
  rw [Prod.mk.injEq] at heq
  unfold memberCount
  rw [h.memberships, ← heq.1, ← heq.2]
  exact hmembers before hbefore

theorem referenced (hreferenced : Referenced db) : Referenced db' := by
  have hpost {id : Nat} (hsome : (db.posts.get id).isSome) : (db'.posts.get id).isSome := by
    rw [← Option.isSome_map, h.get_posts, Option.isSome_map]
    exact hsome
  constructor
  · intro event hmem
    have hevent := List.mem_map_of_mem (f := Event.postId) hmem
    rw [h.events] at hevent
    obtain ⟨before, hbefore, heq⟩ := List.mem_map.mp hevent
    rw [← heq]
    exact hpost (hreferenced.events before hbefore)
  · intro occasion hmem
    have hoccasion := List.mem_map_of_mem (f := Occasion.authored) hmem
    rw [h.occasions] at hoccasion
    obtain ⟨before, hbefore, heq⟩ := List.mem_map.mp hoccasion
    unfold Occasion.authored at heq
    rw [Prod.mk.injEq, Prod.mk.injEq] at heq
    obtain ⟨hpostId, heventId, huserId⟩ := heq
    obtain ⟨hevent, post, hget, hauthor⟩ := hreferenced.occasions before hbefore
    rw [← hpostId, ← heventId, ← huserId]
    constructor
    · rw [← Option.isSome_map, h.get_events, Option.isSome_map]
      exact hevent
    · have hauthored := h.get_posts before.postId
      rw [hget, Option.map_some] at hauthored
      obtain ⟨post', hget', heq⟩ := Option.map_eq_some_iff.mp hauthored
      unfold Post.authored at heq
      rw [Prod.mk.injEq, Prod.mk.injEq] at heq
      exact ⟨post', hget', heq.2.1.trans hauthor⟩
  · intro membership hmem
    rw [h.memberships] at hmem
    rw [← Option.isSome_map, h.get_groups, Option.isSome_map]
    exact hreferenced.memberships membership hmem

theorem counted {stale : Counter → Nat → Prop} (hcounted : Counted stale db) :
    Counted stale db' :=
  ⟨h.referenced hcounted.referenced, hcounted.users.kept h.users h.counted_eq,
    h.membersRight hcounted.members⟩

end SameCounted

end Rellm.Content
