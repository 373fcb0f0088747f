import Rellm.Previews.Sessions

/-!
# Posts that get a preview

A post is given at most one preview until all previews are deleted, and is given up after five failures,
however the job, the owners of posts and administrators take turns. What an owner put into the media of a
post stays first, as long as it does not change while the post waits in a batch: the job writes back the
media that the post had when the batch was loaded, and one more.
-/

namespace Rellm.Previews

open Foundation

section

variable {world : World} {post : Post} {preferMetadata : Bool} {db db' : Db} {session session' : Session}

/-- A preview is attached, or nothing is changed. -/
theorem generate_cases {outcome : Except PreviewError Unit}
    (h : generatePreviewsForPost world post preferMetadata db session = (outcome, db', session')) :
    (outcome = .ok () ∧ ∃ media : Media, media.id = db.nextMediaId ∧ media.generated = true ∧
      db' = attach post media db) ∨ (∃ e, outcome = .error e) ∧ db' = db := by
  rw [generatePreviewsForPost] at h
  split at h
  · cases h
    exact .inr ⟨⟨_, rfl⟩, rfl⟩
  · split at h
    · cases h
      exact .inr ⟨⟨_, rfl⟩, rfl⟩
    · split at h
      · cases h
        exact .inr ⟨⟨_, rfl⟩, rfl⟩
      · split at h
        · cases h
          exact .inr ⟨⟨_, rfl⟩, rfl⟩
        · split at h
          · cases h
            exact .inr ⟨⟨_, rfl⟩, rfl⟩
          · cases h
            exact .inl ⟨rfl, _, rfl, rfl, rfl⟩

/-! ## Failures -/

theorem attemptsOf_put (db : Db) (id count id' : Nat) :
    attemptsOf { db with attempts := db.attempts.put (id, count) } id' =
      if id' = id then count else attemptsOf db id' := by
  rw [attemptsOf, attemptsOf, HashMap.value_put]
  split <;> rfl

theorem attemptsOf_clear (db : Db) (id id' : Nat) :
    attemptsOf (clearFailedAttempts id db) id' = if id' = id then 0 else attemptsOf db id' := by
  rw [attemptsOf, attemptsOf, clearFailedAttempts, HashMap.value_delete_key]
  split <;> rfl

theorem attemptsOf_attach (post : Post) (media : Media) (db : Db) (id : Nat) :
    attemptsOf (attach post media db) id = if id = post.id then 0 else attemptsOf db id := by
  rw [attach, attemptsOf_clear]
  rfl

theorem attemptsOf_record_le (db : Db) (id id' : Nat) :
    attemptsOf (recordFailedAttempt id db) id' ≤
      if id' = id then attemptsOf db id + 1 else attemptsOf db id' := by
  rw [recordFailedAttempt]
  split
  · rw [attemptsOf_put]
  · split
    · rename_i hid
      subst hid
      exact Nat.le_succ _
    · exact Nat.le_refl _

theorem posts_record (db : Db) (id : Nat) : (recordFailedAttempt id db).posts = db.posts := by
  rw [recordFailedAttempt]
  split <;> rfl

theorem nextPostId_record (db : Db) (id : Nat) :
    (recordFailedAttempt id db).nextPostId = db.nextPostId := by
  rw [recordFailedAttempt]
  split <;> rfl

theorem get_posts_attach (post : Post) (media : Media) (db : Db) (id : Nat) :
    (attach post media db).posts.get id = if id = post.id then
      (db.posts.get id).map fun row =>
        { row with media := post.media ++ [some media.id], mediaGenerated := true }
    else db.posts.get id :=
  Table.get_update_key db.posts post.id _ (id_attach _) id

/-- What a batch consists of. -/
theorem mem_postsNeedingPreviews {limit : Nat} {post : Post}
    (h : post ∈ postsNeedingPreviews limit db) :
    post ∈ db.posts.rows ∧ needsPreview db post = true := by
  have hmem := List.mem_of_mem_take h
  split at hmem <;> exact List.mem_filter.mp (List.mem_mergeSort.mp hmem)

theorem nodup_postsNeedingPreviews (limit : Nat) (db : Db) :
    ((postsNeedingPreviews limit db).map Post.id).Nodup := by
  have hrows : ((db.posts.rows.filter (needsPreview db)).map Post.id).Nodup :=
    db.posts.nodup.sublist (List.filter_sublist.map _)
  refine List.Nodup.sublist ((List.take_sublist _ _).map _) ?_
  split <;> exact (((List.mergeSort_perm _ _).map Post.id).nodup_iff).mpr hrows

end

/-- A post of the batch was not given a preview, and was not given up. -/
structure Waiting (s : System) (post : Post) : Prop where
  notGiven : post.id ∉ s.given
  old : post.id < s.db.nextPostId
  attempts : attemptsOf s.db post.id < maxPreviewAttempts

/-- Nothing was given a preview twice since all were deleted, and nothing failed too often. -/
structure System.Sound (s : System) : Prop where
  attempts : ∀ id, attemptsOf s.db id ≤ maxPreviewAttempts
  nodup : s.given.Nodup
  marked : ∀ id ∈ s.given, ∀ post, s.db.posts.get id = some post → post.mediaGenerated = true
  givenOld : ∀ id ∈ s.given, id < s.db.nextPostId
  postsOld : ∀ id, (s.db.posts.get id).isSome = true → id < s.db.nextPostId
  batchNodup : ∀ run, s.job = some run → (run.batch.map Post.id).Nodup
  waiting : ∀ run, s.job = some run → ∀ post ∈ run.batch, Waiting s post

section

variable {s : System}

theorem sound_begin (h : s.Sound) (clusterResources generationEnabled preferMetadata : Bool) :
    (s.begin clusterResources generationEnabled preferMetadata).Sound := by
  rw [System.begin]
  split
  · exact h
  · refine ⟨h.attempts, h.nodup, h.marked, h.givenOld, h.postsOld, ?_, ?_⟩
    · rintro _ ⟨⟩
      exact nodup_postsNeedingPreviews batchLimit s.db
    · rintro _ ⟨⟩ post hpost
      obtain ⟨hmem, hneeds⟩ := mem_postsNeedingPreviews hpost
      simp only [needsPreview, Bool.and_eq_true, Bool.not_eq_true', decide_eq_true_eq] at hneeds
      have hget := Table.mem_rows_iff.mp hmem
      refine ⟨?_, h.postsOld post.id (by rw [hget]; rfl), hneeds.2⟩
      intro hgiven
      have hmarked := h.marked post.id hgiven post hget
      rw [hneeds.1.2] at hmarked
      cases hmarked

theorem sound_next (h : s.Sound) (world : World) : (s.next world).Sound := by
  rw [System.next]
  split
  · exact h
  · rename_i run hjob
    split
    · exact h
    · rename_i post batch hbatch
      have hnodup := h.batchNodup run hjob
      have hwaiting := h.waiting run hjob
      rw [hbatch, List.map_cons, List.nodup_cons] at hnodup
      rw [hbatch, List.forall_mem_cons] at hwaiting
      obtain ⟨hpost, hrest⟩ := hwaiting
      have hother : ∀ other ∈ batch, other.id ≠ post.id := fun other hmem heq =>
        hnodup.1 (List.mem_map.mpr ⟨other, hmem, heq⟩)
      split
      · -- A preview was attached.
        rename_i db session heq
        obtain ⟨-, media, -, -, rfl⟩ | ⟨⟨e, he⟩, -⟩ := generate_cases heq
        swap
        · cases he
        refine ⟨?_, ?_, ?_, ?_, ?_, ?_, ?_⟩
        · intro id
          rw [attemptsOf_attach]
          split
          · exact Nat.zero_le _
          · exact h.attempts id
        · rw [List.nodup_append]
          refine ⟨h.nodup, List.nodup_singleton _, ?_⟩
          intro id hid id' hid' heq'
          rw [List.mem_singleton] at hid'
          exact hpost.notGiven (hid' ▸ heq' ▸ hid)
        · intro id hid other hother
          rw [get_posts_attach] at hother
          split at hother
          · obtain ⟨row, -, rfl⟩ := Option.map_eq_some_iff.mp hother
            rfl
          · rename_i hne
            rcases List.mem_append.mp hid with hid | hid
            · exact h.marked id hid other hother
            · exact absurd (List.mem_singleton.mp hid) hne
        · intro id hid
          rcases List.mem_append.mp hid with hid | hid
          · exact h.givenOld id hid
          · rw [List.mem_singleton.mp hid]
            exact hpost.old
        · intro id hid
          rw [get_posts_attach] at hid
          split at hid
          · rename_i heq'
            rw [heq']
            exact hpost.old
          · exact h.postsOld id hid
        · rintro _ ⟨⟩
          exact hnodup.2
        · rintro _ ⟨⟩ other hmem
          have hwait := hrest other hmem
          refine ⟨?_, hwait.old, ?_⟩
          · rw [List.mem_append, List.mem_singleton, not_or]
            exact ⟨hwait.notGiven, hother other hmem⟩
          · rw [attemptsOf_attach, if_neg (hother other hmem)]
            exact hwait.attempts
      · -- The browser was not to be had.
        rename_i db session heq
        obtain ⟨hok, -⟩ | ⟨-, rfl⟩ := generate_cases heq
        · cases hok
        refine ⟨h.attempts, h.nodup, h.marked, h.givenOld, h.postsOld, ?_, ?_⟩
        · rintro _ ⟨⟩
          exact List.nodup_nil
        · rintro _ ⟨⟩ other hmem
          cases hmem
      · -- The post failed.
        rename_i e db session _ heq
        obtain ⟨hok, -⟩ | ⟨-, rfl⟩ := generate_cases heq
        · cases hok
        refine ⟨?_, h.nodup, ?_, ?_, ?_, ?_, ?_⟩
        · intro id
          refine (attemptsOf_record_le s.db post.id id).trans ?_
          split
          · exact hpost.attempts
          · exact h.attempts id
        · rw [posts_record]
          exact h.marked
        · rw [nextPostId_record]
          exact h.givenOld
        · rw [posts_record, nextPostId_record]
          exact h.postsOld
        · rintro _ ⟨⟩
          exact hnodup.2
        · rintro _ ⟨⟩ other hmem
          have hwait := hrest other hmem
          refine ⟨hwait.notGiven, ?_, ?_⟩
          · rw [nextPostId_record]
            exact hwait.old
          · refine (attemptsOf_record_le s.db post.id other.id).trans_lt ?_
            rw [if_neg (hother other hmem)]
            exact hwait.attempts

/-- What neither adds to the batch, to what was given or to failures keeps everything sound. -/
theorem System.Sound.frame {s' : System} (h : s.Sound)
    (hjob : ∀ run, s'.job = some run → s.job = some run) (hgiven : s'.given.Sublist s.given)
    (hnext : s.db.nextPostId ≤ s'.db.nextPostId)
    (hattempts : ∀ id, attemptsOf s'.db id ≤ attemptsOf s.db id)
    (hmarked : ∀ id ∈ s'.given, ∀ post, s'.db.posts.get id = some post → post.mediaGenerated = true)
    (hold : ∀ id, (s'.db.posts.get id).isSome = true → id < s'.db.nextPostId) : s'.Sound where
  attempts id := (hattempts id).trans (h.attempts id)
  nodup := h.nodup.sublist hgiven
  marked := hmarked
  givenOld id hid := (h.givenOld id (hgiven.subset hid)).trans_le hnext
  postsOld := hold
  batchNodup run hrun := h.batchNodup run (hjob run hrun)
  waiting run hrun post hmem := by
    have hwait := h.waiting run (hjob run hrun) post hmem
    exact ⟨fun hid => hwait.notGiven (hgiven.subset hid), hwait.old.trans_le hnext,
      (hattempts post.id).trans_lt hwait.attempts⟩

theorem sound_create (h : s.Sound) (userId : Option Nat) (link : Option String)
    (media : List (Option Nat)) : (s.step (.create userId link media)).Sound := by
  have hget (id : Nat) : (s.step (.create userId link media)).db.posts.get id =
      if id = s.db.nextPostId then some ⟨s.db.nextPostId, userId, link, media, false⟩
      else s.db.posts.get id := Table.get_put s.db.posts ⟨s.db.nextPostId, userId, link, media, false⟩ id
  refine h.frame (fun _ hrun => hrun) (List.Sublist.refl _) (Nat.le_succ _) (fun _ => Nat.le_refl _) ?_ ?_
  · intro id hid post hpost
    rw [hget, if_neg (h.givenOld id hid).ne] at hpost
    exact h.marked id hid post hpost
  · intro id hid
    rw [hget] at hid
    split at hid
    · rename_i heq
      rw [heq]
      exact Nat.lt_succ_self _
    · exact (h.postsOld id hid).trans (Nat.lt_succ_self _)

theorem sound_edit (h : s.Sound) (id : Nat) (link : Option String) (media : List (Option Nat)) :
    (s.step (.edit id link media)).Sound := by
  have hget (id' : Nat) : (s.step (.edit id link media)).db.posts.get id' =
      if id' = id then (s.db.posts.get id').map fun post => { post with link, media }
      else s.db.posts.get id' :=
    Table.get_update_key s.db.posts id _ (id_edit link media) id'
  refine h.frame (fun _ hrun => hrun) (List.Sublist.refl _) (Nat.le_refl _) (fun _ => Nat.le_refl _) ?_ ?_
  · intro id' hid post hpost
    rw [hget] at hpost
    split at hpost
    · obtain ⟨before, hbefore, rfl⟩ := Option.map_eq_some_iff.mp hpost
      exact h.marked id' hid before hbefore
    · exact h.marked id' hid post hpost
  · intro id' hid
    rw [hget] at hid
    split at hid
    · exact h.postsOld id' (by rwa [Option.isSome_map] at hid)
    · exact h.postsOld id' hid

theorem sound_deletePost (h : s.Sound) (id : Nat) : (s.step (.deletePost id)).Sound := by
  have hget (id' : Nat) : (s.step (.deletePost id)).db.posts.get id' =
      (s.db.posts.get id').filter fun post => !decide (post.id = id) :=
    Table.get_delete s.db.posts _ id'
  refine h.frame (fun _ hrun => hrun) (List.Sublist.refl _) (Nat.le_refl _) ?_ ?_ ?_
  · intro id'
    rw [System.step, attemptsOf_clear]
    split
    · exact Nat.zero_le _
    · exact Nat.le_refl _
  · intro id' hid post hpost
    rw [hget, Option.filter_eq_some_iff] at hpost
    exact h.marked id' hid post hpost.1
  · intro id' hid
    rw [hget] at hid
    exact h.postsOld id' (Option.isSome_of_isSome_filter _ _ hid)

theorem sound_deleteLinkPreviewImages (h : s.Sound) : (s.step .deleteLinkPreviewImages).Sound := by
  have hget (id : Nat) : (s.step .deleteLinkPreviewImages).db.posts.get id =
      (s.db.posts.get id).map fun post => { post with mediaGenerated := false } :=
    Table.get_update s.db.posts (fun _ => true) _ id_generated id
  refine h.frame (fun _ hrun => hrun) (List.nil_sublist _) (Nat.le_refl _) (fun _ => Nat.zero_le _) nofun ?_
  intro id hid
  rw [hget, Option.isSome_map] at hid
  exact h.postsOld id hid

theorem sound_deleteUnownedMedia (h : s.Sound) : (s.step .deleteUnownedMedia).Sound := by
  have hget (id : Nat) : (s.step .deleteUnownedMedia).db.posts.get id =
      (s.db.posts.get id).map fun post => { post with media := withoutUnowned s.db post.media } :=
    Table.get_update s.db.posts (fun _ => true) _ (id_withoutUnowned s.db) id
  refine h.frame (fun _ hrun => hrun) (List.Sublist.refl _) (Nat.le_refl _) (fun _ => Nat.le_refl _) ?_ ?_
  · intro id hid post hpost
    rw [hget] at hpost
    obtain ⟨before, hbefore, rfl⟩ := Option.map_eq_some_iff.mp hpost
    exact h.marked id hid before hbefore
  · intro id hid
    rw [hget, Option.isSome_map] at hid
    exact h.postsOld id hid

theorem sound_noJob (h : s.Sound) (finished : List Session) :
    ({ s with job := none, finished } : System).Sound :=
  h.frame nofun (List.Sublist.refl _) (Nat.le_refl _) (fun _ => Nat.le_refl _) h.marked h.postsOld

theorem sound_step (h : s.Sound) (action : Action) : (s.step action).Sound := by
  cases action with
  | begin clusterResources generationEnabled preferMetadata =>
    exact sound_begin h clusterResources generationEnabled preferMetadata
  | next world => exact sound_next h world
  | finish =>
    rw [System.step, System.finish]
    split
    · exact sound_noJob h _
    · exact h
  | crash => exact sound_noJob h s.finished
  | create userId link media => exact sound_create h userId link media
  | edit id link media => exact sound_edit h id link media
  | deletePost id => exact sound_deletePost h id
  | deleteLinkPreviewImages => exact sound_deleteLinkPreviewImages h
  | deleteUnownedMedia => exact sound_deleteUnownedMedia h

/-- Posts have ids that were given out, and nothing failed too often so far. -/
structure Db.Sound (db : Db) : Prop where
  attempts : ∀ id, attemptsOf db id ≤ maxPreviewAttempts
  postsOld : ∀ id, (db.posts.get id).isSome = true → id < db.nextPostId

theorem sound_init {db : Db} (h : db.Sound) : (System.init db).Sound where
  attempts := h.attempts
  nodup := List.nodup_nil
  marked := nofun
  givenOld := nofun
  postsOld := h.postsOld
  batchNodup := nofun
  waiting := nofun

/-- In whatever order the job, the owners of posts and administrators act, a post is given no second
preview before all previews are deleted, and no preview fails more than five times. -/
theorem sound_run {db : Db} (h : db.Sound) (actions : List Action) :
    (run System.step (System.init db) actions).given.Nodup ∧
      ∀ id, attemptsOf (run System.step (System.init db) actions).db id ≤ maxPreviewAttempts := by
  have hsound : (run System.step (System.init db) actions).Sound :=
    run_invariant_of_all (I := System.Sound) (fun _ action h => sound_step h action) (sound_init h) actions
  exact ⟨hsound.nodup, hsound.attempts⟩

end

/-- A post with a link, and a cluster in which it was never tried. -/
def hikeDb : Db where
  posts := Table.empty.put ⟨1, some 7, some "https://trails.example/", [some 3], false⟩
  nextPostId := 2
  media := Table.empty.put ⟨3, some 7, "map.png", false, "user/7-rae/map.png", "image/png", 20⟩
  nextMediaId := 4
  users := Table.empty.put (7, "rae")
  attempts := .empty

/-- Surroundings in which a page opens and only a screenshot can be had. -/
def hikeWorld : World where
  web := ⟨fun _ => none, fun _ _ => none, fun _ _ => [], fun _ _ => none, fun _ _ => none⟩
  lockGranted := true
  browserStarts := true
  tab := fun _ _ => ⟨true, none, some [1, 2, 3]⟩
  stored := some "3f2a"
  protoId := fun id => toString id

theorem hikeDb_sound : hikeDb.Sound where
  attempts := fun _ => Nat.zero_le _
  postsOld := by
    intro id hid
    rw [hikeDb, Table.get_put] at hid
    split at hid
    · rename_i heq
      rw [heq]
      decide
    · cases hid

theorem sound_run_hike :
    (run System.step (System.init hikeDb)
        [.begin true true false, .next hikeWorld, .finish, .edit 1 none [], .begin true true false]
      ).given.Nodup ∧
      ∀ id, attemptsOf (run System.step (System.init hikeDb)
        [.begin true true false, .next hikeWorld, .finish, .edit 1 none [], .begin true true false]
      ).db id ≤ maxPreviewAttempts :=
  sound_run hikeDb_sound _

end Rellm.Previews
