import Rellm.Foundation.Threads
import Rellm.Posts.Visible

/-!
# Reply threads

The replies to posts are loaded with the replies to them, down to some depth, by one query for each
level. All threads of a level share the page of this query.
-/

namespace Rellm.Posts

open Foundation Content Calendar

/-- How the database orders the posts of a query for replies; posts of one time come in any order. -/
abbrev LevelOrders := Nat → List Nat → Sorter sortPublishedAt

/-- A post that is shown as a reply has an author still, or responses. -/
def hasAuthorOrResponses (post : Post) : Bool :=
  post.userId.isSome || decide (0 < post.responseCount)

section

variable (db : ContentDb) (user : Option Content.User)

/-- The replies to some posts at each depth, as the database orders them. -/
def loadReplies (orders : LevelOrders) : Nat → List Nat → Nat → List PostReply
  | 0, _, _ => []
  | depth + 1, postIds, parent =>
    let level := ((orders depth postIds).sort (visiblePosts db user fun row =>
      row.post.parentPostId.any (fun parent => decide (parent ∈ postIds)) &&
        hasAuthorOrResponses row.post)).take pageSize
    (level.filter fun post => post.parentPostId.getD 0 = parent).map fun post =>
      ⟨post, none, loadReplies orders depth (level.map (·.id)) post.id⟩

/-- The replies that a viewer may see. -/
def visibleReplies : List Post :=
  visiblePosts db user fun row => row.post.parentPostId.isSome && hasAuthorOrResponses row.post

/-- The post that a reply is to. -/
def answeredPost (post : Post) : Nat := post.parentPostId.getD 0

/-- A reply as it is returned. -/
def replyNode (post : Post) (replies : List PostReply) : PostReply := ⟨post, none, replies⟩

/-- The newest visible replies to a post, each with its own replies, down to some depth. -/
def IsReplyThread (depth postId : Nat) (thread : List PostReply) : Prop :=
  IsThread answeredPost Content.Post.id sortPublishedAt pageSize (visibleReplies db user)
    replyNode depth postId thread

/-- At each level down to some depth, there are at most so many replies as one page has, or all of
them are to one post. -/
def FitsReplyLevels (depth : Nat) (postIds : List Nat) : Prop :=
  FitsLevels answeredPost Content.Post.id sortPublishedAt pageSize (visibleReplies db user)
    depth postIds

/-- What is loaded for many posts together is the thread of each, as it is where each is loaded
alone; among replies of one time, any order is that of a thread. -/
structure LoadsAsAlone (depth : Nat) (postIds : List Nat) : Prop where
  plain : ∀ orders, ∀ postId ∈ postIds,
    IsReplyThread db user depth postId (loadReplies db user orders depth postIds postId)
  alone : (∀ post ∈ visibleReplies db user, ∀ other ∈ visibleReplies db user,
      post.parentPostId = other.parentPostId → sortPublishedAt post = sortPublishedAt other →
        post = other) →
    ∀ orders orders', ∀ postId ∈ postIds, loadReplies db user orders depth postIds postId =
      loadReplies db user orders' depth [postId] postId

end

section

variable {db : ContentDb} {user : Option Content.User} {depth : Nat} {postIds : List Nat}

/-- Of the first occurrences of rows, those are kept that are the first occurrences of kept rows. -/
theorem dedup_filter {α : Type} [DecidableEq α] (p : α → Bool) (rows : List α) :
    (rows.filter p).dedup = rows.dedup.filter p := by
  induction rows with
  | nil => rfl
  | cons a rows ih =>
    by_cases hmem : a ∈ rows
    · rw [List.dedup_cons_of_mem hmem, ← ih]
      by_cases ha : p a = true
      · rw [List.filter_cons_of_pos ha, List.dedup_cons_of_mem (List.mem_filter.mpr ⟨hmem, ha⟩)]
      · rw [List.filter_cons_of_neg ha]
    · rw [List.dedup_cons_of_notMem hmem]
      by_cases ha : p a = true
      · rw [List.filter_cons_of_pos ha, List.filter_cons_of_pos ha, ← ih,
          List.dedup_cons_of_notMem fun h => hmem (List.mem_filter.mp h).1]
      · rw [List.filter_cons_of_neg ha, List.filter_cons_of_neg ha, ih]

/-- A query for the replies to some posts returns those of all visible replies that are to them. -/
theorem visiblePosts_repliesTo :
    (visiblePosts db user fun row =>
      row.post.parentPostId.any (fun parent => decide (parent ∈ postIds)) &&
        hasAuthorOrResponses row.post) =
      repliesTo answeredPost (visibleReplies db user) postIds := by
  unfold visibleReplies visiblePosts visibleRows repliesTo
  rw [← dedup_filter, List.filter_map, List.filter_filter]
  congr 2
  apply List.filter_congr
  intro row _
  rcases Option.eq_none_or_eq_some row.post.parentPostId with hparent | ⟨parent, hparent⟩
  · simp [hparent]
  · simp [hparent, answeredPost, Bool.and_left_comm]

theorem loadReplies_eq (orders : LevelOrders) :
    loadReplies db user orders = batched answeredPost Content.Post.id sortPublishedAt pageSize
      (visibleReplies db user) replyNode orders := by
  funext depth
  induction depth with
  | zero => rfl
  | succ depth ih =>
    funext postIds parent
    rw [loadReplies, ih, visiblePosts_repliesTo]
    rfl

theorem parentPostId_of_visibleReplies {post : Post} (h : post ∈ visibleReplies db user) :
    post.parentPostId = some (answeredPost post) := by
  obtain ⟨_, row, hrow, _, hkeep⟩ := mem_visiblePosts.mp h
  rw [post_of_mem_joined hrow, Bool.and_eq_true] at hkeep
  obtain ⟨parent, hparent⟩ := Option.isSome_iff_exists.mp hkeep.1
  rw [answeredPost, hparent, Option.getD_some]

theorem replyNode_injective : Function.Injective2 replyNode := by
  rintro _ _ _ _ ⟨⟩
  exact ⟨rfl, rfl⟩

/-- What is loaded together is the thread of each post exactly if each level fits on one page, or is
a single thread's. -/
theorem forall_isReplyThread_iff : (∀ orders, ∀ postId ∈ postIds, IsReplyThread db user depth postId
      (loadReplies db user orders depth postIds postId)) ↔
    FitsReplyLevels db user depth postIds := by
  have hnodup : (visibleReplies db user).Nodup := nodup_visiblePosts _
  simp only [loadReplies_eq]
  exact forall_isThread_iff replyNode_injective (by decide) hnodup

/-- Threads that are loaded together are those that are loaded alone exactly if each level fits on
one page, or is a single thread's. -/
theorem loadsAsAlone_iff : LoadsAsAlone db user depth postIds ↔
    FitsReplyLevels db user depth postIds := by
  refine ⟨fun h => forall_isReplyThread_iff.mp h.plain, fun hfits => ?_⟩
  have hplain := forall_isReplyThread_iff.mpr hfits
  refine ⟨hplain, fun hdistinct orders orders' postId hpostId => ?_⟩
  have halone := forall_isReplyThread_iff.mpr
    (hfits.mono (List.cons_subset.mpr ⟨hpostId, List.nil_subset _⟩)) orders' postId
    (List.mem_singleton_self postId)
  refine (hplain orders postId hpostId).unique halone fun post hpost other hother hparent => ?_
  refine hdistinct post hpost other hother ?_
  rw [parentPostId_of_visibleReplies hpost, parentPostId_of_visibleReplies hother, hparent]

end

/-- Two posts, an old reply to the second, and many newer ones to the first. -/
def threadPost (id : Nat) : Post where
  id := id
  userId := some 1
  parentPostId := if id ≤ 2 then none else some (if id = 3 then 2 else 1)
  context := if id ≤ 2 then .post else .reply
  visibility := .globalPublic
  moderation := .unmoderated
  createdAt := id
  lastActivityAt := id

/-- The content with these posts, of which 200 are replies to the first. -/
def busyThread : ContentDb :=
  { ContentDb.empty with
    posts := {
      rows := (List.range 203).map fun n => threadPost (n + 1)
      nodup := by
        rw [List.map_map]
        exact List.nodup_range.map fun m n heq => Nat.succ.inj heq
      next := 204
      below := by
        intro post hpost
        obtain ⟨n, hn, rfl⟩ := List.mem_map.mp hpost
        exact Nat.succ_lt_succ (List.mem_range.mp hn) } }

theorem threadPost_mem {id : Nat} (hreply : 2 < id) (hlast : id ≤ 203) :
    threadPost id ∈ repliesTo answeredPost (visibleReplies busyThread none) [1, 2] := by
  obtain ⟨n, rfl⟩ := Nat.exists_eq_add_of_lt (Nat.lt_of_lt_of_le Nat.zero_lt_two hreply.le)
  have hparent : (threadPost (0 + n + 1)).parentPostId = some (if 0 + n + 1 = 3 then 2 else 1) :=
    if_neg (Nat.not_le.mpr hreply)
  have hrow : threadPost (0 + n + 1) ∈ busyThread.posts.rows :=
    List.mem_map.mpr ⟨n, List.mem_range.mpr (by omega), by rw [Nat.zero_add]⟩
  obtain ⟨groupPost, hgroupPost⟩ := exists_mem_leftJoin
    (fun groupPost : GroupPost => groupPost.postId = 0 + n + 1) busyThread.groupPosts.rows
  refine mem_repliesTo.mpr ⟨mem_visiblePosts.mpr ⟨hrow, _, List.mem_map_of_mem hgroupPost, ?_, ?_⟩, ?_⟩
  · rfl
  · rw [hparent]
    rfl
  · rw [answeredPost, hparent, Option.getD_some]
    split <;> simp

/-- A thread with 200 newer replies takes the only reply from another that is loaded with it. -/
theorem busyThread_not_loadsAsAlone : ¬ LoadsAsAlone busyThread none 1 [1, 2] := by
  intro h
  obtain ⟨hle | ⟨only, hall⟩, _⟩ := forall_isReplyThread_iff.mp h.plain
  · have hsub : (List.range 201).map (fun n => threadPost (n + 3)) ⊆
        repliesTo answeredPost (visibleReplies busyThread none) [1, 2] := by
      intro post hpost
      obtain ⟨n, hn, rfl⟩ := List.mem_map.mp hpost
      have hlt := List.mem_range.mp hn
      exact threadPost_mem (by omega) (by omega)
    have hnodup : ((List.range 201).map fun n => threadPost (n + 3)).Nodup :=
      List.nodup_range.map fun m n heq => Nat.add_right_cancel (congrArg Content.Post.id heq)
    have hlength := (List.subperm_of_subset hnodup hsub).length_le
    rw [List.length_map, List.length_range] at hlength
    exact absurd (hlength.trans hle) (by decide)
  · have hsecond : answeredPost (threadPost 3) = only := hall _ (threadPost_mem (by decide) (by decide))
    have hfirst : answeredPost (threadPost 4) = only := hall _ (threadPost_mem (by decide) (by decide))
    exact absurd (hsecond.trans hfirst.symm) (by decide)

end Rellm.Posts
