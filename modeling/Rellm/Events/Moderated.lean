import Rellm.Events.Visible
import Rellm.Posts.Write

/-!
# Moderated content

A post that is pending or rejected is for its author and for moderators. A limited post
is for its author, for followers the author has accepted, and for members of groups that
have accepted it. The listings do not ask for all of this: they show a viewer what is hidden
by moderation exactly if it reaches the viewer.
-/

namespace Rellm.Events

open Foundation Content Calendar Posts

/-- Whether a viewer is the author of a post. -/
def isAuthor (user : Option Content.User) (post : Post) : Bool :=
  user.any fun user => post.userId = some user.id

/-- Whether a viewer moderates posts of a context. -/
def mayModerate (user : Option Content.User) (context : PostContext) : Bool :=
  (validatePermission (user.map (·.toUser)) .moderatePosts).toBool ||
    (isEventContext context && (validatePermission (user.map (·.toUser)) .moderateEvents).toBool)

/-- Whether the moderation of a post hides it. -/
def hiddenByModeration (post : Post) : Bool :=
  post.moderation = .pending || post.moderation = .rejected

/-- A viewer is let in on a limited post: as an accepted follower of its author, or as a member of
a group that has accepted it. -/
def LetIn (db : ContentDb) (user : Option Content.User) (post : Post) : Prop :=
  ∃ viewer, user = some viewer ∧
    ((∃ author follow, post.userId = some author ∧
        db.follows.get (viewer.id, author) = some follow ∧
        passes follow.targetUserModeration = true) ∨
      ∃ groupPost ∈ db.groupPosts.rows, groupPost.postId = post.id ∧
        passes groupPost.groupModeration = true ∧
        ∃ membership, db.memberships.get (viewer.id, groupPost.groupId) = some membership ∧
          membership.passes = true)

/-- A viewer may be shown a post, limited to those who are let in on another: its own post, or that
of the event of an occasion. -/
structure MayBeShown (db : ContentDb) (user : Option Content.User) (post through : Post) :
    Prop where
  moderated : hiddenByModeration post = true →
    isAuthor user post = true ∨ mayModerate user post.context = true
  limited : post.visibility = .limited → isAuthor user post = true ∨ LetIn db user through

/-- No listing shows a viewer what is hidden by moderation. -/
structure KeepsModeratedHidden (db : ContentDb) (user : Option Content.User) : Prop where
  posts : ∀ search now request replies, getPosts db user search now request = .ok replies →
    ∀ reply ∈ replies, ∀ post, reply.Shows post → MayBeShown db user post post
  events : ∀ search request replies, getEvents db user search request = .ok replies →
    ∀ reply ∈ replies, MayBeShown db user reply.post reply.post ∧
      ∀ occasion ∈ reply.occasions, MayBeShown db user occasion.post reply.post

/-- The post of the event of an occasion is in its table. -/
theorem eventPost_mem {db : ContentDb} {occasion : Occasion} {data : EventLoadData}
    (h : occasionData db occasion = some data) : data.eventPost ∈ db.posts.rows := by
  simp only [occasionData, Option.bind_eq_bind, Option.bind_eq_some_iff] at h
  obtain ⟨event, _, eventPost, heventPost, occasionPost, _, h⟩ := h
  cases h
  exact (Table.get_eq_some_iff.mp heventPost).1

/-- Nothing that reaches a viewer, through follows and groups accepted or not, is hidden by
moderation. -/
structure NothingHiddenReaches (db : ContentDb) (user : Option Content.User) : Prop where
  posts : ∀ post ∈ db.posts.rows, Reaches db user post post → MayBeShown db user post post
  occasions : ∀ occasion ∈ db.occasions.rows, 0 < occasion.endsAt →
    ∀ event eventPost occasionPost,
    occasionData db occasion = some ⟨occasion, event, eventPost, occasionPost⟩ →
    Reaches db user eventPost eventPost → eventPost.userId.isSome →
    (passes eventPost.moderation = true ∨ eventPost.userId = some (viewerId user)) →
    Reaches db user eventPost occasionPost → MayBeShown db user occasionPost eventPost

/-- The listings show a viewer nothing that is hidden by moderation exactly if nothing hidden
reaches the viewer. -/
theorem keepsModeratedHidden_iff (db : ContentDb) (user : Option Content.User) :
    KeepsModeratedHidden db user ↔ NothingHiddenReaches db user := by
  constructor
  · intro h
    constructor
    · intro post hpost hreaches
      have hreturned := getPosts_singlePost ⟨fun _ => true, fun _ _ => true, fun _ _ => 0,
        fun _ _ => true, fun _ _ => 0, fun _ _ => 0⟩ 0 (visible_iff_reaches.mpr ⟨hpost, hreaches⟩)
      exact h.posts _ _ _ _ hreturned _ (List.mem_singleton_self _) post (.self none [])
    · intro occasion hoccasion hends event eventPost occasionPost hdata hevent hauthor hmoderation
        hown
      have hvisible : VisibleOccasion db user ⟨occasion, event, eventPost, occasionPost⟩ :=
        visibleOccasion_iff_reaches.mpr
          ⟨⟨hoccasion, hends⟩, hdata, hevent, hown, hmoderation, hauthor⟩
      have hreturned := getEvents_searchAll hvisible
      exact (h.events _ _ _ hreturned _ (List.mem_singleton_self _)).2 _
        (List.mem_singleton_self _)
  · intro h
    have hposts (post : Post) (hvisible : Visible db user post) : MayBeShown db user post post := by
      obtain ⟨hpost, hreaches⟩ := visible_iff_reaches.mp hvisible
      exact h.posts post hpost hreaches
    constructor
    · intro search now request replies hreplies reply hreply post hshows
      exact hposts post (visible_of_getPosts hreplies hreply hshows)
    · intro search request replies hreplies reply hreply
      have hbacked := backed_of_getEvents hreplies hreply
      constructor
      · obtain ⟨occasion, hoccasion⟩ := List.exists_mem_of_ne_nil _ hbacked.some
        obtain ⟨_, hdata, hevent, _⟩ :=
          visibleOccasion_iff_reaches.mp (hbacked.visible occasion hoccasion)
        exact h.posts _ (eventPost_mem hdata) hevent
      · intro occasion hoccasion
        obtain ⟨⟨hmem, hends⟩, hdata, hevent, hown, hmoderation, hauthor⟩ :=
          visibleOccasion_iff_reaches.mp (hbacked.visible occasion hoccasion)
        exact h.occasions _ hmem hends _ _ _ hdata hevent hauthor hmoderation hown

/-- A public post that waits for moderation. -/
def pendingPost : Post where
  id := 1
  userId := some 1
  context := .post
  visibility := .globalPublic
  moderation := .pending
  createdAt := 0
  lastActivityAt := 0

/-- Content that waits for moderation. -/
def pendingContent : ContentDb :=
  { ContentDb.empty with posts := ⟨⟨[pendingPost], by decide⟩, 2, by decide⟩ }

/-- A post that waits for moderation is returned to a viewer who is not logged in. -/
theorem pending_post_returned : ¬ KeepsModeratedHidden pendingContent none := by
  intro h
  have hvisible : Visible pendingContent none pendingPost := by
    refine ⟨List.mem_singleton_self _, ⟨pendingPost, none, none, none⟩, ?_, rfl⟩
    exact List.mem_singleton_self _
  have hreturned := getPosts_singlePost ⟨fun _ => true, fun _ _ => true, fun _ _ => 0,
    fun _ _ => true, fun _ _ => 0, fun _ _ => 0⟩ 0 hvisible
  have hshown := h.posts _ _ _ _ hreturned _ (List.mem_singleton_self _) _ (.self none [])
  have hmoderated := hshown.moderated rfl
  revert hmoderated
  decide

end Rellm.Events
