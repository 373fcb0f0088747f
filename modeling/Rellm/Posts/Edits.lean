import Rellm.Foundation.Run
import Rellm.Groups.Write
import Rellm.Posts.Write

/-!
# Edits in flight

Changing or deleting a post reads its row, and later writes the whole row. In between others star
the post, reply to it, share it or delete it. What the edit would do if it left the counters alone
is a second way to save the row.
-/

namespace Rellm.Posts

open Foundation Content Calendar

def starFailed (message : String) : Status := ⟨.aborted, message⟩

/-- The stars of a post after a statement. -/
def modifyStars (id : Nat) (f : Int → Int) (db : ContentDb) : ContentDb :=
  { db with
    posts := db.posts.modify id (fun post =>
      { post with unauthenticatedStarCount := f post.unauthenticatedStarCount }) fun _ => rfl }

/-- A post gets or loses a star; the reply is the number of its stars. -/
def countStar (f : Int → Int) (message : String) (id : Option Nat) : Rpc Int := do
  let id ← attempt fun _ => answered (okOr id (invalidId "invalid_post_id"))
  modify (modifyStars id f)
  attempt fun db => answered
    (okOr ((db.posts.get id).map (·.unauthenticatedStarCount)) (starFailed message))

/-- `StarPost`. -/
def starPost : Option Nat → Rpc Int := countStar (· + 1) "star_failed"

/-- `UnstarPost`: no post has less than no stars. -/
def unstarPost : Option Nat → Rpc Int := countStar (fun stars => max 0 (stars - 1)) "unstar_failed"

/-- The counters of a post that other calls write. -/
structure PostCounters where
  unauthenticatedStarCount : Int
  replyCount : Int
  responseCount : Int
  groupCount : Nat
  deriving DecidableEq, Repr

def sharedCounters (post : Post) : PostCounters :=
  ⟨post.unauthenticatedStarCount, post.replyCount, post.responseCount, post.groupCount⟩

def withCounters (post : Post) (counters : PostCounters) : Post :=
  { post with
    unauthenticatedStarCount := counters.unauthenticatedStarCount
    replyCount := counters.replyCount
    responseCount := counters.responseCount
    groupCount := counters.groupCount }

@[simp] theorem withCounters_id (post : Post) (other : PostCounters) :
    (withCounters post other).id = post.id := rfl

theorem withCounters_self {post : Post} {other : PostCounters} (h : sharedCounters post = other) :
    withCounters post other = post := by
  subst h
  rfl

/-- A row is saved but for its counters, which stay as they are. -/
def saveButCounters (post : Post) (db : ContentDb) : ContentDb :=
  match db.posts.get post.id with
  | some current => savePost (withCounters post (sharedCounters current)) db
  | none => savePost post db

/-- A call that has read the row it is going to write. -/
inductive PostEdit where
  | update (user : Content.User) (request : PostRequest) (existing : Post)
  | delete (user : Content.User) (delete : DeletePost)
  deriving DecidableEq, Repr

namespace PostEdit

/-- The row that was read. -/
def existing : PostEdit → Post
  | .update _ _ existing => existing
  | .delete _ deletion => deletion.existing

/-- The row that is written. -/
def row (now : Instant) : PostEdit → Except Failure Post
  | .update user request existing => updatedPost user request now existing
  | .delete user deletion => .ok (deletedPost user now deletion.existing)

/-- What the transaction writes before the row: a deleted reply is taken off the posts above it. -/
def uncounted (db : ContentDb) : PostEdit → ContentDb
  | .update _ _ _ => db
  | .delete _ deletion => deletion.uncounted db

/-- What the transaction writes after the row: the counters of the author of a deleted post. -/
def recounted (db : ContentDb) : PostEdit → ContentDb
  | .update _ _ _ => db
  | .delete _ deletion =>
    match deletion.existing.userId with
    | some author => updatePostCounts db author
    | none => db

/-- The transaction of an edit, by the way it saves the row. -/
def write (save : Post → ContentDb → ContentDb) (now : Instant) (edit : PostEdit)
    (db : ContentDb) : ContentDb :=
  match edit.row now with
  | .ok row => edit.recounted (save row (edit.uncounted db))
  | .error _ => db

def isDelete : PostEdit → Bool
  | .update _ _ _ => false
  | .delete _ _ => true

end PostEdit

/-- An edit in flight, and whether its post was deleted since it read the row. -/
structure InFlight where
  edit : PostEdit
  deletedSince : Bool := false
  deriving DecidableEq, Repr

/-- The content with the edits in flight, by the calls they belong to. -/
structure Editing where
  db : ContentDb
  edits : Nat → Option InFlight

/-- No edit is in flight. -/
def Editing.idle (db : ContentDb) : Editing := ⟨db, fun _ => none⟩

/-- A step: an edit reads its row or writes it, or another call counts. -/
inductive EditStep where
  | loadUpdate (call : Nat) (user : Content.User) (request : PostRequest)
  | loadDelete (call : Nat) (user : Content.User) (request : PostRequest)
  | write (call : Nat) (now : Instant)
  | star (id : Option Nat)
  | unstar (id : Option Nat)
  | createPost (config : ServerConfiguration) (user : Content.User) (request : PostRequest)
      (now : Instant)
  | groupPost (change : Groups.GroupPostChange)

section

variable (save : Post → ContentDb → ContentDb)

/-- A call has read its row. -/
def Editing.load (editing : Editing) (call : Nat) (edit : Except Failure PostEdit) : Editing :=
  match edit with
  | .ok edit => { editing with
      edits := fun other => if other = call then some ⟨edit, false⟩ else editing.edits other }
  | .error _ => editing

/-- The edits in flight after one was written. -/
def Editing.without (editing : Editing) (call : Nat) (written : PostEdit) (other : Nat) :
    Option InFlight :=
  if other = call then none
  else (editing.edits other).map fun inFlight =>
    if written.isDelete ∧ inFlight.edit.existing.id = written.existing.id then
      { inFlight with deletedSince := true }
    else inFlight

/-- The state after a step, by the way an edit saves its row. -/
def EditStep.apply (editing : Editing) : EditStep → Editing
  | .loadUpdate call user request =>
    editing.load call ((checkUpdatePost user request editing.db).map (.update user request))
  | .loadDelete call user request =>
    editing.load call ((checkDeletePost user request editing.db).map (.delete user))
  | .write call now =>
    match editing.edits call with
    | some inFlight =>
      ⟨inFlight.edit.write save now editing.db, editing.without call inFlight.edit⟩
    | none => editing
  | .star id => { editing with db := finalState (starPost id editing.db) }
  | .unstar id => { editing with db := finalState (unstarPost id editing.db) }
  | .createPost config user request now =>
    { editing with db := finalState (Posts.createPost config user request now editing.db) }
  | .groupPost change => { editing with db := change.write editing.db }

end

/-- The counters of the posts. -/
def Editing.counters (editing : Editing) (id : Nat) : Option PostCounters :=
  (editing.db.posts.get id).map Posts.sharedCounters

/-- A post without author, title and content, as deleting leaves it. -/
def Scrubbed (post : Post) : Prop := post.userId = none ∧ post.title = none ∧ post.content = none

instance (post : Post) : Decidable (Scrubbed post) :=
  inferInstanceAs (Decidable (_ ∧ _))

/-- What is written over a post that was deleted since the row was read leaves it deleted. -/
def LeavesDeleted (editing : Editing) : EditStep → Prop
  | .write call now => ∀ inFlight, editing.edits call = some inFlight →
    inFlight.deletedSince = true → ∀ before after,
      editing.db.posts.get inFlight.edit.existing.id = some before → Scrubbed before →
      (EditStep.apply savePost editing (.write call now)).db.posts.get inFlight.edit.existing.id =
        some after → Scrubbed after
  | _ => True

/-- An edit finds the counters as it has read them, and if the post was deleted since, it writes a
row without author, title and content. -/
def FindsAsRead (editing : Editing) : EditStep → Prop
  | .write call now => ∀ inFlight, editing.edits call = some inFlight →
    ∀ row, inFlight.edit.row now = .ok row →
      (∀ current, (inFlight.edit.uncounted editing.db).posts.get inFlight.edit.existing.id =
        some current → sharedCounters current = sharedCounters inFlight.edit.existing) ∧
      (∀ before, editing.db.posts.get inFlight.edit.existing.id = some before →
        inFlight.deletedSince = true → Scrubbed before → Scrubbed row)
  | _ => True

section

variable {db : ContentDb} {now : Instant}

/-- The post with an id after one is saved. -/
theorem get_savePost (post : Post) (id : Nat) :
    (savePost post db).posts.get id =
      if id = post.id then (db.posts.get id).map (overPost post) else db.posts.get id :=
  Serial.get_modify ..

theorem counters_editedPost {user : Content.User} {request : PostRequest} {media : List Nat}
    (post : Post) : sharedCounters (editedPost user request media now post) = sharedCounters post := by
  unfold editedPost
  split <;> rfl

/-- The row that is written has the id and the counters of the one that was read. -/
theorem PostEdit.row_eq_ok {edit : PostEdit} {row : Post} (h : edit.row now = .ok row) :
    row.id = edit.existing.id ∧ sharedCounters row = sharedCounters edit.existing := by
  cases edit with
  | update user request existing =>
    refine ⟨(updatedPost_samePlace h).id, ?_⟩
    simp only [PostEdit.row, updatedPost, edited, checks_eq_ok, pure_eq_ok] at h
    obtain ⟨post, hpost, rfl⟩ := h
    have hcounters : sharedCounters post = sharedCounters existing := by
      split at hpost
      · simp only [checks_eq_ok, okOr_eq_ok, pure_eq_ok] at hpost
        obtain ⟨media, _, rfl⟩ := hpost
        exact counters_editedPost existing
      · rw [pure_eq_ok] at hpost
        rw [hpost]
    rw [PostEdit.existing, ← hcounters]
    unfold moderated
    split <;> rfl
  | delete user delete =>
    obtain rfl := Except.ok.inj h
    unfold deletedPost
    split <;> exact ⟨rfl, rfl⟩

/-- The counters of an author are none of the posts. -/
@[simp] theorem PostEdit.posts_recounted (edit : PostEdit) :
    (edit.recounted db).posts = db.posts := by
  cases edit with
  | update => rfl
  | delete user deletion =>
    unfold PostEdit.recounted
    dsimp only
    split <;> rfl

/-- The counters that an edit writes are those it has read. -/
theorem PostEdit.counters_write {edit : PostEdit} {row current : Post} (hrow : edit.row now = .ok row)
    (hget : (edit.uncounted db).posts.get edit.existing.id = some current) :
    ((edit.write savePost now db).posts.get edit.existing.id).map sharedCounters =
        some (sharedCounters edit.existing) ∧
      ((edit.write saveButCounters now db).posts.get edit.existing.id).map sharedCounters =
        some (sharedCounters current) := by
  obtain ⟨hid, hcounters⟩ := row_eq_ok hrow
  unfold PostEdit.write saveButCounters
  rw [← hid] at hget ⊢
  rw [← hcounters, hrow]
  simp only [posts_recounted, get_savePost, hget, withCounters_id, if_true, Option.map_some]
  exact ⟨rfl, rfl⟩

/-- An edit that finds the counters as it has read them loses nothing by writing them. -/
theorem PostEdit.write_eq {edit : PostEdit} (h : ∀ row, edit.row now = .ok row → ∀ current,
    (edit.uncounted db).posts.get edit.existing.id = some current →
      sharedCounters current = sharedCounters edit.existing) :
    edit.write savePost now db = edit.write saveButCounters now db := by
  unfold PostEdit.write
  cases hrow : edit.row now with
  | error failure => rfl
  | ok row =>
    obtain ⟨hid, hcounters⟩ := row_eq_ok hrow
    dsimp only
    unfold saveButCounters
    rw [hid]
    cases hget : (edit.uncounted db).posts.get edit.existing.id with
    | none => rfl
    | some current =>
      dsimp only
      rw [withCounters_self (hcounters.trans (h row hrow current hget).symm)]

/-- The author and the texts of a post. -/
def told (post : Post) : Nat × Option Nat × Option String × Option String :=
  (post.id, post.userId, post.title, post.content)

theorem scrubbed_congr {post other : Post} (h : told post = told other) :
    Scrubbed post ↔ Scrubbed other := by
  simp only [told, Prod.mk.injEq] at h
  obtain ⟨_, huserId, htitle, hcontent⟩ := h
  unfold Scrubbed
  rw [huserId, htitle, hcontent]

/-- The posts above a deleted one keep their authors and texts. -/
theorem PostEdit.told_uncounted (edit : PostEdit) (id : Nat) :
    ((edit.uncounted db).posts.get id).map told = (db.posts.get id).map told := by
  cases edit with
  | update => rfl
  | delete user deletion =>
    unfold PostEdit.uncounted
    dsimp only [DeletePost.uncounted]
    split
    · refine Table.map_get_of_map_rows (k := Prod.fst) (fun _ => rfl) ?_ id
      unfold uncountReply
      rw [Serial.update, Table.map_rows_update, Serial.modify, Serial.update, Table.map_rows_update]
      · intro post
        rfl
      · intro post
        rfl
    · rfl

/-- What an edit leaves of its post is what it writes. -/
theorem PostEdit.get_write {edit : PostEdit} {row before : Post} (hrow : edit.row now = .ok row)
    (hget : db.posts.get edit.existing.id = some before) :
    ∃ after, (edit.write savePost now db).posts.get edit.existing.id = some after ∧
      told after = told row := by
  obtain ⟨hid, _⟩ := row_eq_ok hrow
  have htold : ((edit.uncounted db).posts.get edit.existing.id).map told = _ :=
    edit.told_uncounted edit.existing.id
  rw [hget, Option.map_some, Option.map_eq_some_iff] at htold
  obtain ⟨current, hcurrent, hsame⟩ := htold
  unfold PostEdit.write
  rw [hrow]
  simp only [posts_recounted, get_savePost, hid, if_true, hcurrent, Option.map_some]
  refine ⟨_, rfl, ?_⟩
  have hkey : current.id = row.id := (Table.key_of_get hcurrent).trans hid.symm
  simp only [told, overPost, hkey]

/-- An edit that fails writes nothing. -/
theorem PostEdit.write_error {edit : PostEdit} {failure : Failure}
    (hrow : edit.row now = .error failure) (save : Post → ContentDb → ContentDb) :
    edit.write save now db = db := by
  unfold PostEdit.write
  rw [hrow]

end

section

variable {editing : Editing} {call : Nat} {now : Instant} {save : Post → ContentDb → ContentDb}

theorem EditStep.apply_write {inFlight : InFlight} (h : editing.edits call = some inFlight) :
    EditStep.apply save editing (.write call now) =
      ⟨inFlight.edit.write save now editing.db, editing.without call inFlight.edit⟩ := by
  simp only [EditStep.apply, h]

theorem EditStep.apply_write_none (h : editing.edits call = none) :
    EditStep.apply save editing (.write call now) = editing := by
  simp only [EditStep.apply, h]

end

/-- A step looks the same as one that leaves the counters alone only if it is that step. -/
theorem EditStep.apply_eq_of_counters (editing : Editing) (step : EditStep)
    (h : (step.apply savePost editing).counters = (step.apply saveButCounters editing).counters) :
    step.apply savePost editing = step.apply saveButCounters editing := by
  cases step with
  | write call now =>
    cases hcall : editing.edits call with
    | none => rw [apply_write_none hcall, apply_write_none hcall]
    | some inFlight =>
      rw [apply_write hcall, apply_write hcall] at h ⊢
      rw [PostEdit.write_eq]
      intro row hrow current hget
      obtain ⟨hsaved, hkept⟩ := PostEdit.counters_write hrow hget
      have hsame := congrFun h inFlight.edit.existing.id
      unfold Editing.counters at hsame
      rw [hsaved, hkept] at hsame
      exact (Option.some.inj hsame).symm
  | _ => rfl

/-- A step loses no counter and leaves what is deleted exactly if an edit that it writes finds
things as it has read them. -/
theorem EditStep.loses_nothing_iff (editing : Editing) (step : EditStep) :
    (step.apply savePost editing = step.apply saveButCounters editing ∧
      LeavesDeleted editing step) ↔ FindsAsRead editing step := by
  cases step with
  | write call now =>
    cases hcall : editing.edits call with
    | none =>
      rw [apply_write_none hcall, apply_write_none hcall]
      simp [LeavesDeleted, FindsAsRead, hcall]
    | some inFlight =>
      rw [apply_write hcall, apply_write hcall]
      simp only [LeavesDeleted, FindsAsRead, hcall, Option.some.injEq, forall_eq', apply_write hcall]
      constructor
      · rintro ⟨hsame, hleaves⟩ row hrow
        refine ⟨fun current hget => ?_, fun before hget hdeleted hscrubbed => ?_⟩
        · obtain ⟨hsaved, hkept⟩ := PostEdit.counters_write hrow hget
          rw [(Editing.mk.inj hsame).1, hkept] at hsaved
          exact Option.some.inj hsaved
        · obtain ⟨after, hafter, htold⟩ := PostEdit.get_write hrow hget
          exact (scrubbed_congr htold).mp (hleaves hdeleted before after hget hscrubbed hafter)
      · intro hfinds
        refine ⟨?_, fun hdeleted before after hget hscrubbed hafter => ?_⟩
        · rw [PostEdit.write_eq fun row hrow => (hfinds row hrow).1]
        · cases hrow : inFlight.edit.row now with
          | error failure =>
            rw [PostEdit.write_error hrow, hget] at hafter
            obtain rfl := Option.some.inj hafter
            exact hscrubbed
          | ok row =>
            obtain ⟨written, hwritten, htold⟩ := PostEdit.get_write hrow hget
            obtain rfl := Option.some.inj (hwritten.symm.trans hafter)
            exact (scrubbed_congr htold).mpr ((hfinds row hrow).2 before hget hdeleted hscrubbed)
  | _ => exact iff_of_true ⟨rfl, trivial⟩ trivial

/-- In every interleaving of edits with the calls that count, the edits leave the counters as if
they did not write them, and what is deleted stays so, exactly if each edit finds the counters as
it has read them and does not write over a deleted post what was there before. -/
theorem edits_lose_nothing_iff (db : ContentDb) (steps : List EditStep) :
    ((∀ before, before <+: steps →
        (run (EditStep.apply savePost) (.idle db) before).counters =
          (run (EditStep.apply saveButCounters) (.idle db) before).counters) ∧
      Along (EditStep.apply savePost) LeavesDeleted (.idle db) steps) ↔
      Along (EditStep.apply savePost) FindsAsRead (.idle db) steps := by
  rw [runs_agree_iff EditStep.apply_eq_of_counters, ← along_and]
  exact along_congr (fun editing step _ => step.loses_nothing_iff editing) (along_true _ _)

/-- The author of a post. -/
def writer : Content.User where
  permissions := .array []
  id := 1
  defaultFollowModeration := .unmoderated

/-- A post of the first user. -/
def draft : ContentDb :=
  { ContentDb.empty with
    users := ⟨⟨[writer], by decide⟩, 2, by decide⟩
    posts := ⟨⟨[{
      id := 1
      userId := some 1
      title := some "Draft"
      context := .post
      visibility := .«private»
      moderation := .unmoderated
      createdAt := 0
      lastActivityAt := 0 }], by decide⟩, 2, by decide⟩ }

/-- A star that a post gets while its author edits it is lost. -/
theorem star_lost :
    ¬ ∀ (db : ContentDb) (steps : List EditStep),
      (∀ before, before <+: steps →
        (run (EditStep.apply savePost) (.idle db) before).counters =
          (run (EditStep.apply saveButCounters) (.idle db) before).counters) ∧
      Along (EditStep.apply savePost) LeavesDeleted (.idle db) steps := by
  intro h
  let steps : List EditStep := [
    .loadUpdate 0 writer { id := some 1, title := some "Draft", visibility := .«private» },
    .star (some 1), .write 0 1]
  have hsame := congrFun ((h draft steps).1 steps (List.prefix_refl steps)) 1
  have hlost : (run (EditStep.apply savePost) (.idle draft) steps).counters 1 =
      some ⟨0, 0, 0, 0⟩ := by decide +kernel
  have hcounted : (run (EditStep.apply saveButCounters) (.idle draft) steps).counters 1 =
      some ⟨1, 0, 0, 0⟩ := by decide +kernel
  rw [hlost, hcounted] at hsame
  revert hsame
  decide

end Rellm.Posts
