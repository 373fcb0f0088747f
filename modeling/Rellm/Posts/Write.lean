import Rellm.Content.Access
import Rellm.Foundation.Forest
import Rellm.Posts.Visible

/-!
# Writing posts

A call to create, change or delete a post checks the request, writes in one transaction,
and reads the post back. Deleting a post keeps its row, without author and content. A
reply is counted by the post it replies to and by all posts above it.
-/

namespace Rellm.Posts

open Foundation Content Calendar

structure PostRequest where
  id : Option Nat := none
  replyToPostId : Option (Option Nat) := none
  title : Option String := none
  link : Option String := none
  content : Option String := none
  media : List (Option Nat) := []
  shareable : Bool := false
  visibility : Visibility := .unknown
  moderation : Moderation := .unknown
  postMediaLayout : PostMediaLayout := .standard
  deriving DecidableEq, Repr

/-- The row of a new post. -/
structure NewPost where
  userId : Option Nat
  parentPostId : Option Nat
  title : Option String
  link : Option String
  content : Option String
  context : PostContext
  visibility : Visibility
  moderation : Moderation
  media : List Nat
  deriving DecidableEq, Repr

def NewPost.row (new : NewPost) (publishedAt : Option Instant) (now : Instant) (id : Nat) :
    Post where
  id := id
  userId := new.userId
  parentPostId := new.parentPostId
  title := new.title
  link := new.link
  content := new.content
  media := new.media
  context := new.context
  visibility := new.visibility
  moderation := new.moderation
  createdAt := now
  publishedAt := publishedAt
  lastActivityAt := now

theorem NewPost.row_id (new : NewPost) (publishedAt : Option Instant) (now : Instant) (id : Nat) :
    (new.row publishedAt now id).id = id := rfl

/-- A link without a scheme is one to a web page; an empty one is none. -/
def toLink (link : Option String) : Option String :=
  match link with
  | none => none
  | some link =>
    if link = "" then none
    else if link.startsWith "http" then some link
    else some ("http://" ++ link)

/-- A post written over the one with an id. -/
def overPost (after before : Post) : Post := { after with id := before.id }

theorem overPost_id (after before : Post) : (overPost after before).id = before.id := rfl

/-- A post is public to some. -/
def isPublic (visibility : Visibility) : Bool :=
  visibility = .serverPublic || visibility = .globalPublic

/-- An unknown visibility stands for public. -/
def resolveVisibility (visibility : Visibility) : Visibility :=
  if visibility = .unknown then .globalPublic else visibility

/-- What is public needs the permission to publish it. -/
def validatePublish (user : Content.User) (globally locally : Permission)
    (visibility : Visibility) : Except Status Unit :=
  match visibility with
  | .globalPublic => validatePermission (some user.toUser) globally
  | .serverPublic => validatePermission (some user.toUser) locally
  | _ => .ok ()

/-- The moderation new content starts with, by the setting of the server. -/
def defaultModeration (setting : Int32) : Moderation :=
  if setting = Moderation.pending.toI32 then .pending else .unmoderated

/-- What is above a post: its parent, or nothing. -/
def parentOf (posts : Serial Post.id) (id : Nat) : Option (Option Nat) :=
  (posts.get id).map (·.parentPostId)

/-- The posts above one, from its parent on. -/
def ancestorPostIds (posts : Serial Post.id) (parentPostId : Option Nat) : Option (List Nat) :=
  climb (parentOf posts) posts.rows.length parentPostId

/-- A reply is added to the posts above it. -/
def countReply (parentPostId : Nat) (ancestors : List Nat) (now : Instant)
    (posts : Serial Post.id) : Serial Post.id :=
  (posts.modify parentPostId (fun post => { post with replyCount := post.replyCount + 1 })
      fun _ => rfl).update (fun post => decide (post.id ∈ ancestors))
    (fun post => { post with responseCount := post.responseCount + 1, lastActivityAt := now })
    fun _ => rfl

/-- A reply is taken off the posts above it. -/
def uncountReply (parentPostId : Nat) (ancestors : List Nat) (posts : Serial Post.id) :
    Serial Post.id :=
  (posts.modify parentPostId (fun post => { post with replyCount := post.replyCount - 1 })
      fun _ => rfl).update (fun post => decide (post.id ∈ ancestors))
    (fun post => { post with responseCount := post.responseCount - 1 }) fun _ => rfl

/-- A whole post is written; the occasion whose post it is takes over a change of the author. -/
def savePost (post : Post) (db : ContentDb) : ContentDb :=
  { db with
    posts := db.posts.modify post.id (overPost post) (overPost_id post)
    occasions :=
      if (db.posts.get post.id).any fun before =>
          before.title ≠ post.title || before.content ≠ post.content ||
            before.userId ≠ post.userId then
        db.occasions.update (fun occasion => occasion.postId = post.id &&
            (db.events.get occasion.eventId).any fun event => (db.posts.get event.postId).isSome)
          (fun occasion => { occasion with userId := post.userId }) fun _ => rfl
      else db.occasions }

/-- The post as the caller reads it back. -/
def readBack (user : Content.User) (id : Option Nat) (db : ContentDb) :
    Except Failure PostReply := do
  let replies ← answered (getByPostId db (some user) id)
  okOr replies.head? .panic

section

variable (config : ServerConfiguration) (user : Content.User)

/-- A title is for posts that reply to none. -/
def checkTitle (request : PostRequest) : Except Status Unit :=
  match request.title with
  | none => .ok ()
  | some title =>
    if title = "" then .ok ()
    else match request.replyToPostId with
    | some _ => .error ⟨.invalidArgument, "title_not_allowed_with_reply"⟩
    | none => validateLength title "title" 1 255

/-- The post a request replies to, and all above it. -/
def repliedTo (request : PostRequest) (posts : Serial Post.id) :
    Except Failure (Option Nat × List Nat) := do
  match request.replyToPostId with
  | none => return (none, [])
  | some parentPostId =>
    let parentPostId ← okOr parentPostId
      (.status ⟨.invalidArgument, "replying_to_nonexistent_post"⟩)
    let ancestors ← okOr (ancestorPostIds posts (some parentPostId)) .panic
    return (some parentPostId, ancestors)

/-- What a call to create a post is about to write. -/
structure CreatePost where
  new : NewPost
  ancestors : List Nat
  deriving DecidableEq, Repr

def checkCreatePost (request : PostRequest) (db : ContentDb) : Except Failure CreatePost := do
  answered (validatePermission (some user.toUser) .createPosts)
  answered (checkTitle request)
  answered (validateMaxLength request.link "link" 10000)
  answered (validateMaxLength request.content "content" 10000)
  let media ← answered (decodedIds "media" request.media)
  let (parentPostId, ancestors) ← repliedTo request db.posts
  let visibility := resolveVisibility request.visibility
  answered (validatePublish user .publishPostsGlobally .publishPostsLocally visibility)
  return {
    new := {
      userId := some user.id
      parentPostId := parentPostId
      title := if request.replyToPostId.isSome then none else request.title
      link := toLink request.link
      content := request.content
      context := if parentPostId.isNone then .post else .reply
      visibility := visibility
      moderation := defaultModeration (config.postSettings.getD {}).defaultModeration
      media := media }
    ancestors := ancestors }

/-- The posts after one is created. -/
def CreatePost.posts (create : CreatePost) (now : Instant) (posts : Serial Post.id) :
    Serial Post.id :=
  let publishedAt := if isPublic create.new.visibility then some now else none
  let posts := posts.insert (create.new.row publishedAt now) (create.new.row_id publishedAt now)
  match create.new.parentPostId with
  | some parentPostId => countReply parentPostId create.ancestors now posts
  | none => posts

/-- The posts with the new one, before it is counted. -/
def CreatePost.inserted (create : CreatePost) (now : Instant) (posts : Serial Post.id) :
    Serial Post.id :=
  let publishedAt := if isPublic create.new.visibility then some now else none
  posts.insert (create.new.row publishedAt now) (create.new.row_id publishedAt now)

/-- The transaction of a call to create a post. -/
def commitCreatePost (create : CreatePost) (now : Instant) (db : ContentDb) : ContentDb :=
  updatePostCounts { db with posts := create.posts now db.posts } user.id

/-- `CreatePost`. -/
def createPost (request : PostRequest) (now : Instant) : Rpc Nat := do
  let create ← attempt (checkCreatePost config user request)
  let id := (← get).posts.next
  modify (commitCreatePost user create now)
  attempt fun db => require (db.users.get user.id).isSome (.status ⟨.notFound, "user_not_found"⟩)
  return id

theorem finalState_createPost (config : ServerConfiguration) (user : Content.User)
    (request : PostRequest) (now : Instant) (db : ContentDb) :
    (∃ create, checkCreatePost config user request db = .ok create ∧
        finalState (createPost config user request now db) =
          commitCreatePost user create now db) ∨
      (∃ e, checkCreatePost config user request db = .error e ∧
        finalState (createPost config user request now db) = db) := by
  unfold createPost
  cases h : checkCreatePost config user request db with
  | ok create =>
    left
    refine ⟨create, rfl, ?_⟩
    rw [bind_of_ok (attempt_of_ok h), get_bind, modify_bind]
    rcases finalState_attempt_bind with ⟨_, _, hfinal⟩ | ⟨_, _, hfinal⟩
    · rw [hfinal]
      rfl
    · exact hfinal
  | error e =>
    right
    refine ⟨e, rfl, ?_⟩
    rw [bind_of_error (attempt_of_error h), finalState_error]

/-- Whether a caller may do anything with posts. -/
def isAdmin : Bool := (validatePermission (some user.toUser) .admin).toBool

theorem isAdmin_iff {user : Content.User} :
    isAdmin user = true ↔ validateAnyPermission (some user.toUser) .admin [] = .ok () := by
  unfold isAdmin validatePermission validateAnyPermission
  by_cases hadmin : Permission.admin ∈ callerPermissions (some user.toUser)
  · simp [hadmin, Except.toBool]
  · simp [hadmin, Except.toBool]

/-- What a call to delete a post is about to write. -/
structure DeletePost where
  existing : Post
  ancestors : List Nat
  deriving DecidableEq, Repr

def checkDeletePost (request : PostRequest) (db : ContentDb) : Except Failure DeletePost := do
  let id ← answered (okOr request.id (invalidId "id"))
  let existing ← answered (okOr (db.posts.get id) ⟨.notFound, "post_not_found"⟩)
  let ancestors ← okOr (ancestorPostIds db.posts existing.parentPostId) .panic
  if existing.userId ≠ some user.id then
    answered (validateAnyPermission (some user.toUser) .admin [])
  return ⟨existing, ancestors⟩

/-- A post without its author and content. -/
def scrubbed (now : Instant) (post : Post) : Post :=
  { post with
    userId := none
    title := none
    content := none
    link := none
    media := []
    updatedAt := some now }

/-- What deleting makes of a post. -/
def deletedPost (now : Instant) (existing : Post) : Post :=
  if isAdmin user || existing.userId = some user.id then scrubbed now existing
  else { existing with updatedAt := some now }

/-- The content after a post is deleted, but for the counters of its author. -/
def DeletePost.write (delete : DeletePost) (now : Instant) (db : ContentDb) : ContentDb :=
  savePost (deletedPost user now delete.existing)
    { db with
      posts := match delete.existing.parentPostId with
        | some parentPostId => uncountReply parentPostId delete.ancestors db.posts
        | none => db.posts }

/-- The content after a post that is about to be deleted is taken off the posts above it. -/
def DeletePost.uncounted (delete : DeletePost) (db : ContentDb) : ContentDb :=
  { db with
    posts := match delete.existing.parentPostId with
      | some parentPostId => uncountReply parentPostId delete.ancestors db.posts
      | none => db.posts }

theorem DeletePost.write_eq (delete : DeletePost) (now : Instant) (db : ContentDb) :
    delete.write user now db = savePost (deletedPost user now delete.existing)
      (delete.uncounted db) := rfl

/-- The transaction of a call to delete a post. -/
def commitDeletePost (delete : DeletePost) (now : Instant) (db : ContentDb) : ContentDb :=
  let db := delete.write user now db
  match delete.existing.userId with
  | some author => updatePostCounts db author
  | none => db

theorem commitDeletePost_of_none {delete : DeletePost} {now : Instant} {db : ContentDb}
    (h : delete.existing.userId = none) :
    commitDeletePost user delete now db = delete.write user now db := by
  rw [commitDeletePost, h]

theorem commitDeletePost_of_some {delete : DeletePost} {now : Instant} {db : ContentDb}
    {author : Nat} (h : delete.existing.userId = some author) :
    commitDeletePost user delete now db = updatePostCounts (delete.write user now db) author := by
  rw [commitDeletePost, h]

/-- `DeletePost`. -/
def deletePost (request : PostRequest) (now : Instant) : Rpc PostReply := do
  let delete ← attempt (checkDeletePost user request)
  modify (commitDeletePost user delete now)
  attempt (readBack user request.id)

/-- Whether a call to delete a post goes ahead. -/
def mayDelete (user : Content.User) (existing : Post) : Bool :=
  existing.userId = some user.id || isAdmin user

/-- A call to delete a post goes ahead on a post that the caller wrote or administers. -/
theorem checkDeletePost_eq_ok {user : Content.User} {request : PostRequest} {db : ContentDb}
    {delete : DeletePost} :
    checkDeletePost user request db = .ok delete ↔
      request.id = some delete.existing.id ∧
        db.posts.get delete.existing.id = some delete.existing ∧
        ancestorPostIds db.posts delete.existing.parentPostId = some delete.ancestors ∧
        mayDelete user delete.existing = true := by
  unfold checkDeletePost mayDelete
  simp only [checks_eq_ok, answered_eq_ok, okOr_eq_ok, Bool.or_eq_true, decide_eq_true_eq,
    isAdmin_iff]
  constructor
  · rintro ⟨id, hid, existing, hget, ancestors, hancestors, hok⟩
    have hkey := Table.key_of_get hget
    split at hok
    · simp only [checks_eq_ok, answered_eq_ok, pure_eq_ok] at hok
      obtain ⟨_, hadmin, rfl⟩ := hok
      exact ⟨hkey ▸ hid, hkey ▸ hget, hancestors, .inr hadmin⟩
    · rename_i hself
      rw [pure_eq_ok] at hok
      subst hok
      exact ⟨hkey ▸ hid, hkey ▸ hget, hancestors, .inl (not_not.mp hself)⟩
  · rintro ⟨hid, hget, hancestors, hmay⟩
    refine ⟨delete.existing.id, hid, delete.existing, hget, delete.ancestors, hancestors, ?_⟩
    split
    · rename_i hself
      have hadmin := hmay.resolve_left hself
      simp only [checks_eq_ok, answered_eq_ok, pure_eq_ok]
      exact ⟨(), hadmin, trivial⟩
    · rw [pure_eq_ok]

/-- A post that is deleted loses its author. -/
theorem userId_deletedPost {user : Content.User} (now : Instant) {existing : Post}
    (h : mayDelete user existing = true) : (deletedPost user now existing).userId = none := by
  unfold deletedPost
  rw [if_pos (by rwa [Bool.or_comm])]
  rfl

theorem finalState_deletePost (user : Content.User) (request : PostRequest) (now : Instant)
    (db : ContentDb) :
    (∃ delete, checkDeletePost user request db = .ok delete ∧
        finalState (deletePost user request now db) = commitDeletePost user delete now db) ∨
      (∃ e, checkDeletePost user request db = .error e ∧
        finalState (deletePost user request now db) = db) :=
  finalState_checked

/-- A post of an event or of an occasion. -/
def isEventContext (context : PostContext) : Bool :=
  context = .event || context = .occasion

/-- Whether a caller moderates posts of a context. -/
def isModerator (context : PostContext) : Bool :=
  (validatePermission (some user.toUser) .moderatePosts).toBool ||
    (isEventContext context &&
      (validatePermission (some user.toUser) .moderateEvents).toBool)

/-- The moderations a moderator may give a post. -/
def moderatorAccessibleModerations : List Moderation := [.approved, .rejected, .pending]

/-- Those who may change a post of another: moderators, and for what belongs to an event also those
who moderate events. -/
def editors (context : PostContext) : List Permission :=
  if isEventContext context then [.moderatePosts, .moderateEvents] else [.moderatePosts]

/-- The permission to publish a post of a context to everybody. -/
def publishGlobally (context : PostContext) : Permission :=
  if isEventContext context then .publishEventsGlobally else .publishPostsGlobally

/-- The permission to publish a post of a context to those who are logged in. -/
def publishLocally (context : PostContext) : Permission :=
  if isEventContext context then .publishEventsLocally else .publishPostsLocally

/-- The author may change a post, and its editors. -/
def checkEditor (existing : Post) : Except Status Unit :=
  if existing.userId = some user.id then .ok ()
  else validateAnyPermission (some user.toUser) .admin (editors existing.context)

/-- The author or an administrator may change the visibility, to what they may publish. -/
def checkVisibility (visibility : Visibility) (existing : Post) : Except Status Unit :=
  if isAdmin user || existing.userId = some user.id then
    validatePublish user (publishGlobally existing.context) (publishLocally existing.context)
      visibility
  else .ok ()

/-- The check of a call to change a post. -/
def checkUpdatePost (request : PostRequest) (db : ContentDb) : Except Failure Post := do
  let id ← answered (okOr request.id (invalidId "id"))
  let existing ← answered (okOr (db.posts.get id) ⟨.notFound, "post_not_found"⟩)
  answered (checkEditor user existing)
  answered (checkVisibility user request.visibility existing)
  return existing

/-- What the author or an administrator makes of a post. -/
def editedPost (request : PostRequest) (media : List Nat) (now : Instant) (post : Post) : Post :=
  let titled :=
    if isEventContext post.context || (post.context = .post && post.publishedAt.isNone) then
      { post with title := request.title, link := request.link }
    else post
  { titled with
    content := request.content
    media := media
    shareable := request.shareable
    visibility := request.visibility
    postMediaLayout := request.postMediaLayout
    publishedAt :=
      if post.publishedAt.isNone && isPublic request.visibility then some now
      else post.publishedAt
    moderation :=
      if isModerator user post.context ∧
          request.moderation ∈ moderatorAccessibleModerations then request.moderation
      else post.moderation }

/-- The post with what its author or an administrator changes, if the caller is one. -/
def edited (request : PostRequest) (now : Instant) (existing : Post) : Except Failure Post :=
  if isAdmin user || existing.userId = some user.id then do
    let media ← okOr (request.media.mapM id)
      (.status ⟨.invalidArgument, "cannot_publish_globally"⟩)
    return editedPost user request media now existing
  else return existing

/-- The post with the moderation of the request, if the caller moderates it. -/
def moderated (request : PostRequest) (post : Post) : Post :=
  if isAdmin user || isModerator user post.context then
    { post with moderation := request.moderation }
  else post

/-- What a call makes of a post. -/
def updatedPost (request : PostRequest) (now : Instant) (existing : Post) :
    Except Failure Post := do
  let edited ← edited user request now existing
  return { moderated user request edited with updatedAt := some now }

/-- The post that a call to change one is about to write. -/
def preparedUpdate (request : PostRequest) (now : Instant) (db : ContentDb) :
    Except Failure Post := do
  let existing ← checkUpdatePost user request db
  updatedPost user request now existing

/-- `UpdatePost`. -/
def updatePost (request : PostRequest) (now : Instant) : Rpc PostReply := do
  let after ← attempt (preparedUpdate user request now)
  modify (savePost after)
  attempt (readBack user request.id)

end

/-- A call to change a post goes ahead on a post that the caller may change, and whose visibility
they may change so. -/
theorem checkUpdatePost_eq_ok {user : Content.User} {request : PostRequest} {db : ContentDb}
    {existing : Post} :
    checkUpdatePost user request db = .ok existing ↔
      request.id = some existing.id ∧ db.posts.get existing.id = some existing ∧
        checkEditor user existing = .ok () ∧
        checkVisibility user request.visibility existing = .ok () := by
  unfold checkUpdatePost
  simp only [checks_eq_ok, answered_eq_ok, okOr_eq_ok, pure_eq_ok]
  constructor
  · rintro ⟨id, hid, found, hget, _, heditor, _, hvisibility, rfl⟩
    have hkey := Table.key_of_get hget
    exact ⟨hkey ▸ hid, hkey ▸ hget, heditor, hvisibility⟩
  · rintro ⟨hid, hget, heditor, hvisibility⟩
    exact ⟨existing.id, hid, existing, hget, (), heditor, (), hvisibility, rfl⟩

/-- What changing a post leaves: whose it is, what it is, what it replies to, and its counters. -/
structure SamePlace (before after : Post) : Prop where
  id : after.id = before.id
  userId : after.userId = before.userId
  context : after.context = before.context
  parentPostId : after.parentPostId = before.parentPostId
  replyCount : after.replyCount = before.replyCount
  responseCount : after.responseCount = before.responseCount

theorem SamePlace.refl (post : Post) : SamePlace post post := ⟨rfl, rfl, rfl, rfl, rfl, rfl⟩

theorem edited_samePlace {user : Content.User} {request : PostRequest} {now : Instant}
    {existing after : Post} (h : edited user request now existing = .ok after) :
    SamePlace existing after := by
  unfold edited at h
  split at h
  · simp only [checks_eq_ok, okOr_eq_ok, pure_eq_ok] at h
    obtain ⟨media, _, rfl⟩ := h
    unfold editedPost
    split
    · exact ⟨rfl, rfl, rfl, rfl, rfl, rfl⟩
    · exact ⟨rfl, rfl, rfl, rfl, rfl, rfl⟩
  · rw [pure_eq_ok] at h
    subst h
    exact .refl existing

theorem updatedPost_samePlace {user : Content.User} {request : PostRequest} {now : Instant}
    {existing after : Post} (h : updatedPost user request now existing = .ok after) :
    SamePlace existing after := by
  unfold updatedPost at h
  simp only [checks_eq_ok, pure_eq_ok] at h
  obtain ⟨post, hedited, rfl⟩ := h
  obtain ⟨hid, huserId, hcontext, hparent, hreply, hresponse⟩ := edited_samePlace hedited
  unfold moderated
  split
  · exact ⟨hid, huserId, hcontext, hparent, hreply, hresponse⟩
  · exact ⟨hid, huserId, hcontext, hparent, hreply, hresponse⟩

/-- A call to change a post is about to write over a post in its place. -/
theorem preparedUpdate_samePlace {user : Content.User} {request : PostRequest} {now : Instant}
    {db : ContentDb} {after : Post} (h : preparedUpdate user request now db = .ok after) :
    ∃ before, db.posts.get after.id = some before ∧ SamePlace before after := by
  unfold preparedUpdate at h
  rw [checks_eq_ok] at h
  obtain ⟨existing, hexisting, hafter⟩ := h
  obtain ⟨_, hget, _⟩ := checkUpdatePost_eq_ok.mp hexisting
  have hplace := updatedPost_samePlace hafter
  exact ⟨existing, hplace.id.symm ▸ hget, hplace⟩

theorem finalState_updatePost (user : Content.User) (request : PostRequest) (now : Instant)
    (db : ContentDb) :
    (∃ after, preparedUpdate user request now db = .ok after ∧
        finalState (updatePost user request now db) = savePost after db) ∨
      (∃ e, preparedUpdate user request now db = .error e ∧
        finalState (updatePost user request now db) = db) :=
  finalState_checked

end Rellm.Posts
