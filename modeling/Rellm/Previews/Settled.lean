import Rellm.Foundation.Backlog
import Rellm.Previews.Attempts

/-!
# Working off the backlog of previews

While nobody writes posts and the browser can be had, each run of the job brings as many posts forward
as fit in a batch. After some runs every post with a link has a preview or was given up.
-/

namespace Rellm.Previews

open Foundation

/-! ## What owners chose -/

/-- The action leaves the media of the posts that wait in the batch alone. -/
def Calm (s : System) (action : Action) : Prop :=
  ∀ run, s.job = some run → ∀ post ∈ run.batch,
    match action with
    | .edit id _ _ => id ≠ post.id
    | .deleteUnownedMedia => withoutUnowned s.db post.media = post.media
    | _ => True

/-- What an owner put into the media of a post comes first in it. -/
def System.ChosenFirst (s : System) : Prop :=
  ∀ id post, s.db.posts.get id = some post → s.chosen id <+: post.media

/-- The same holds where the job writes the media back. -/
structure System.Kept (s : System) : Prop where
  sound : s.Sound
  posts : s.ChosenFirst
  batch : ∀ run, s.job = some run → ∀ post ∈ run.batch, s.chosen post.id <+: post.media

section

variable {s : System}

theorem kept_next (h : s.Kept) (world : World) : (s.next world).Kept := by
  refine ⟨sound_next h.sound world, ?_, ?_⟩
  all_goals
    rw [System.next]
    split
  · exact h.posts
  · rename_i run hjob
    split
    · exact h.posts
    · rename_i post batch hbatch
      have hpost := h.batch run hjob post (by rw [hbatch]; exact List.mem_cons_self)
      split
      · rename_i db session heq
        obtain ⟨-, media, -, -, rfl⟩ | ⟨⟨e, he⟩, -⟩ := generate_cases heq
        · intro id row hrow
          rw [get_posts_attach] at hrow
          split at hrow
          · rename_i hid
            obtain ⟨before, -, rfl⟩ := Option.map_eq_some_iff.mp hrow
            rw [hid]
            exact hpost.trans (List.prefix_append _ _)
          · exact h.posts id row hrow
        · cases he
      · rename_i db session heq
        obtain ⟨hok, -⟩ | ⟨-, rfl⟩ := generate_cases heq
        · cases hok
        · exact h.posts
      · rename_i e db session _ heq
        obtain ⟨hok, -⟩ | ⟨-, rfl⟩ := generate_cases heq
        · cases hok
        · intro id row hrow
          rw [posts_record] at hrow
          exact h.posts id row hrow
  · exact h.batch
  · rename_i run hjob
    split
    · exact h.batch
    · rename_i post batch hbatch
      have hrest : ∀ other ∈ batch, s.chosen other.id <+: other.media := fun other hmem =>
        h.batch run hjob other (by rw [hbatch]; exact List.mem_cons_of_mem _ hmem)
      split
      · rintro _ ⟨⟩
        exact hrest
      · rintro _ ⟨⟩ other hmem
        cases hmem
      · rintro _ ⟨⟩
        exact hrest

theorem kept_step (h : s.Kept) (action : Action) (hcalm : Calm s action) : (s.step action).Kept := by
  have hsound := sound_step h.sound action
  cases action with
  | begin clusterResources generationEnabled preferMetadata =>
    refine ⟨hsound, ?_, ?_⟩
    · rw [System.step, System.begin]
      split <;> exact h.posts
    · rw [System.step, System.begin]
      split
      · exact h.batch
      · rintro _ ⟨⟩ post hpost
        exact h.posts post.id post (Table.mem_rows_iff.mp (mem_postsNeedingPreviews hpost).1)
  | next world => exact kept_next h world
  | finish =>
    rw [System.step, System.finish] at hsound ⊢
    split at hsound
    · exact ⟨hsound, h.posts, by rintro _ ⟨⟩⟩
    · exact h
  | crash => exact ⟨hsound, h.posts, by rintro _ ⟨⟩⟩
  | create userId link media =>
    refine ⟨hsound, ?_, ?_⟩
    · intro id post hpost
      have hget := hpost
      rw [System.step, Table.get_put] at hget
      dsimp only [System.step]
      split at hget
      · rename_i hid
        cases hget
        rw [if_pos hid]
      · rename_i hid
        rw [if_neg hid]
        exact h.posts id post hget
    · intro run hjob post hpost
      have hne := ((h.sound.waiting run hjob) post hpost).old.ne
      dsimp only [System.step]
      rw [if_neg hne]
      exact h.batch run hjob post hpost
  | edit id link media =>
    refine ⟨hsound, ?_, ?_⟩
    · intro id' post hpost
      have hget := hpost
      rw [System.step, Table.get_update_key] at hget
      dsimp only [System.step]
      split at hget
      · rename_i hid
        obtain ⟨before, -, rfl⟩ := Option.map_eq_some_iff.mp hget
        rw [if_pos hid]
      · rename_i hid
        rw [if_neg hid]
        exact h.posts id' post hget
    · intro run hjob post hpost
      have hne : id ≠ post.id := hcalm run hjob post hpost
      dsimp only [System.step]
      rw [if_neg hne.symm]
      exact h.batch run hjob post hpost
  | deletePost id =>
    refine ⟨hsound, ?_, h.batch⟩
    intro id' post hpost
    have hget : (s.db.posts.get id').filter (fun row => !decide (row.id = id)) = some post :=
      (Table.get_delete s.db.posts _ id').symm.trans hpost
    exact h.posts id' post (Option.filter_eq_some_iff.mp hget).1
  | deleteLinkPreviewImages =>
    refine ⟨hsound, ?_, h.batch⟩
    intro id post hpost
    have hget : (s.db.posts.get id).map (fun row => { row with mediaGenerated := false }) = some post :=
      (Table.get_update s.db.posts (fun _ => true) _ id_generated id).symm.trans hpost
    obtain ⟨before, hbefore, rfl⟩ := Option.map_eq_some_iff.mp hget
    exact h.posts id before hbefore
  | deleteUnownedMedia =>
    refine ⟨hsound, ?_, ?_⟩
    · intro id post hpost
      have hget : (s.db.posts.get id).map (fun row =>
          { row with media := withoutUnowned s.db row.media }) = some post :=
        (Table.get_update s.db.posts (fun _ => true) _ (id_withoutUnowned s.db) id).symm.trans hpost
      obtain ⟨before, hbefore, rfl⟩ := Option.map_eq_some_iff.mp hget
      exact (h.posts id before hbefore).filter _
    · intro run hjob post hpost
      have hsame : withoutUnowned s.db post.media = post.media := hcalm run hjob post hpost
      rw [← hsame]
      exact (h.batch run hjob post hpost).filter _

/-- In every run in which the media of the posts that wait in a batch are left alone, what the owner of a
post put into its media comes first in it. -/
theorem kept_run {db : Db} (hdb : db.Sound) {actions : List Action}
    (hcalm : Along System.step Calm (System.init db) actions) :
    (run System.step (System.init db) actions).ChosenFirst := by
  have hinit : (System.init db).Kept := by
    refine ⟨sound_init hdb, ?_, by rintro _ ⟨⟩⟩
    intro id post hpost
    have hget : db.posts.get id = some post := hpost
    change ((db.posts.get id).map Post.media).getD [] <+: post.media
    rw [hget]
    exact List.prefix_rfl
  have hkept := run_invariant (I := System.Kept) (P := Calm)
    (fun _ action h hcalm => kept_step h action hcalm) hinit hcalm
  exact hkept.posts

end

theorem kept_run_hike :
    (run System.step (System.init hikeDb)
      [.edit 1 (some "https://trails.example/map") [some 3, none], .begin false true true,
        .next hikeWorld, .create none none [], .finish]).ChosenFirst :=
  kept_run hikeDb_sound
    ⟨(fun _ hjob => by cases hjob), fun _ _ _ _ => trivial, fun _ _ _ _ => trivial, fun _ _ _ _ => trivial,
      fun _ _ _ _ => trivial, trivial⟩

/-! ## The backlog -/

/-- How many more runs a post may need. -/
def needOf (db : Db) (id : Nat) : Nat :=
  match db.posts.get id with
  | some post => if needsPreview db post then maxPreviewAttempts - attemptsOf db id else 0
  | none => 0

def postIds (db : Db) : Finset Nat := (db.posts.rows.map Post.id).toFinset

/-- A browser can be had whenever one is needed. -/
def World.Available (world : World) : Prop := world.lockGranted = true ∧ world.browserStarts = true

section

variable {world : World} {db : Db} {id : Nat} {post : Post} {session : Session}

theorem mem_postIds : id ∈ postIds db ↔ (db.posts.get id).isSome = true := by
  rw [postIds, List.mem_toFinset, Option.isSome_iff_exists]
  constructor
  · intro hmem
    obtain ⟨row, hrow, rfl⟩ := List.mem_map.mp hmem
    exact ⟨row, Table.mem_rows_iff.mp hrow⟩
  · rintro ⟨row, hget⟩
    obtain ⟨hrow, rfl⟩ := Table.get_eq_some_iff.mp hget
    exact List.mem_map_of_mem hrow

theorem needOf_pos_iff :
    0 < needOf db id ↔ ∃ post, db.posts.get id = some post ∧ needsPreview db post = true := by
  rw [needOf]
  cases hget : db.posts.get id with
  | none => simp
  | some post =>
    have hid : post.id = id := Table.key_of_get hget
    dsimp only
    split
    · rename_i hneeds
      have hless := hneeds
      simp only [needsPreview, Bool.and_eq_true, decide_eq_true_eq, hid] at hless
      refine iff_of_true (by omega) ⟨post, rfl, hneeds⟩
    · rename_i hneeds
      refine iff_of_false (Nat.lt_irrefl 0) ?_
      rintro ⟨_, ⟨⟩, hneeds'⟩
      exact hneeds hneeds'

theorem needOf_le (db : Db) (id : Nat) : needOf db id ≤ maxPreviewAttempts := by
  rw [needOf]
  split
  · split
    · exact Nat.sub_le _ _
    · exact Nat.zero_le _
  · exact Nat.zero_le _

/-- What a post needs depends on its row and its failures. -/
theorem needOf_congr {db db' : Db} (hget : db'.posts.get id = db.posts.get id)
    (hattempts : attemptsOf db' id = attemptsOf db id) : needOf db' id = needOf db id := by
  rw [needOf, needOf, hget]
  cases hrow : db.posts.get id with
  | none => rfl
  | some post =>
    have hid : post.id = id := Table.key_of_get hrow
    simp only [needsPreview, hid, hattempts]

theorem get_eq_ok (h : world.Available) (session : Session) :
    (LazyBrowser.get world session).1 = .ok () := by
  have hlock : (LazyBrowser.lock world session).1 = true := by
    rw [LazyBrowser.lock, h.1]
    split <;> rfl
  rw [LazyBrowser.get]
  split
  · rfl
  · split
    · rename_i heq
      rw [heq] at hlock
      cases hlock
    · rw [if_pos h.2]

theorem screenshotPreview_ne (world : World) (url : String) (page : PageCapture) (session : Session) :
    (screenshotPreview world url page session).1 ≠ .error .browserUnavailable := by
  rw [screenshotPreview]
  split
  · rintro ⟨⟩
  · rw [capture]
    split
    · rename_i heq
      split at heq <;> cases heq
      rintro ⟨⟩
    · split <;> rintro ⟨⟩

theorem browserPreview_ne (h : world.Available) (url : String) (session : Session) :
    (browserPreview world url session).1 ≠ .error .browserUnavailable := by
  have hget := get_eq_ok h session
  rw [browserPreview]
  split
  · rename_i heq
    rw [heq] at hget
    cases hget
  · split
    · rename_i heq
      rw [capture] at heq
      split at heq <;> cases heq
      rintro ⟨⟩
    · split
      · exact screenshotPreview_ne _ _ _ _
      · split
        · rintro ⟨⟩
        · exact screenshotPreview_ne _ _ _ _

/-- With a browser to be had, a post fails by its own fault. -/
theorem generate_ne_unavailable (h : world.Available) (post : Post) (preferMetadata : Bool) (db : Db)
    (session : Session) :
    (generatePreviewsForPost world post preferMetadata db session).1 ≠ .error .browserUnavailable := by
  have hchoose (url : String) :
      (choosePreview world preferMetadata url session).1 ≠ .error .browserUnavailable := by
    rw [choosePreview]
    split
    · rintro ⟨⟩
    · exact browserPreview_ne h url _
  rw [generatePreviewsForPost]
  split
  · rintro ⟨⟩
  · split
    · rintro ⟨⟩
    · rename_i url _
      have hurl := hchoose url
      split
      · rintro ⟨⟩
      · split
        · rename_i heq
          rw [heq] at hurl
          simpa using hurl
        · split <;> rintro ⟨⟩

/-- A post that is worked on needs fewer runs afterwards, and the others as many as before. -/
theorem needOf_next {s : System} {jobRun : JobRun} {post : Post} {batch : List Post}
    (hworld : world.Available) (hjob : s.job = some jobRun) (hbatch : jobRun.batch = post :: batch)
    (hneed : 0 < needOf s.db post.id) :
    (∃ jobRun', (s.next world).job = some jobRun' ∧ jobRun'.batch = batch) ∧
      postIds (s.next world).db = postIds s.db ∧
      needOf (s.next world).db post.id < needOf s.db post.id ∧
      ∀ id, id ≠ post.id → needOf (s.next world).db id = needOf s.db id := by
  have hunavailable := generate_ne_unavailable hworld post jobRun.preferMetadata s.db jobRun.session
  obtain ⟨row, hrow, hneeds⟩ := needOf_pos_iff.mp hneed
  rw [System.next, hjob]
  dsimp only
  rw [hbatch]
  dsimp only
  split
  · rename_i db session heq
    obtain ⟨-, media, -, -, rfl⟩ | ⟨⟨e, he⟩, -⟩ := generate_cases heq
    swap
    · cases he
    refine ⟨⟨_, rfl, rfl⟩, ?_, ?_, ?_⟩
    · ext id
      rw [mem_postIds, mem_postIds, get_posts_attach]
      split
      · rw [Option.isSome_map]
      · rfl
    · -- What is marked needs nothing.
      have hzero : needOf (attach post media s.db) post.id = 0 := by
        rw [needOf, get_posts_attach, if_pos rfl, hrow, Option.map_some]
        dsimp only
        rw [needsPreview]
        dsimp only
        rw [Bool.not_true, Bool.and_false, Bool.false_and]
        rfl
      rwa [hzero]
    · intro id hid
      refine needOf_congr ?_ ?_
      · rw [get_posts_attach, if_neg hid]
      · rw [attemptsOf_attach, if_neg hid]
  · rename_i heq
    rw [heq] at hunavailable
    exact absurd rfl hunavailable
  · rename_i e db session _ heq
    obtain ⟨hok, -⟩ | ⟨-, rfl⟩ := generate_cases heq
    · cases hok
    have hid : row.id = post.id := Table.key_of_get hrow
    have hrecord : recordFailedAttempt post.id s.db =
        { s.db with attempts := s.db.attempts.put (post.id, attemptsOf s.db post.id + 1) } := by
      rw [recordFailedAttempt, if_pos (by rw [hrow]; rfl)]
    rw [hrecord]
    refine ⟨⟨_, rfl, rfl⟩, rfl, ?_, ?_⟩
    · simp only [needsPreview, Bool.and_eq_true, decide_eq_true_eq, hid] at hneeds
      rw [needOf, needOf, hrow]
      dsimp only
      simp only [needsPreview, attemptsOf_put, hid, if_true, hneeds.1, decide_eq_true hneeds.2,
        Bool.and_true]
      split <;> omega
    · intro id hne
      refine needOf_congr rfl ?_
      rw [attemptsOf_put, if_neg hne]

/-- The whole batch is worked on. -/
theorem needOf_nexts {worlds : List World} (hworlds : ∀ world ∈ worlds, world.Available)
    {s : System} {jobRun : JobRun} (hjob : s.job = some jobRun)
    (hnodup : (jobRun.batch.map Post.id).Nodup) (hneed : ∀ post ∈ jobRun.batch, 0 < needOf s.db post.id)
    (hlength : jobRun.batch.length ≤ worlds.length) :
    (∃ jobRun', (run System.step s (worlds.map .next)).job = some jobRun' ∧ jobRun'.batch = []) ∧
      postIds (run System.step s (worlds.map .next)).db = postIds s.db ∧
      (∀ id, needOf (run System.step s (worlds.map .next)).db id ≤ needOf s.db id) ∧
      ∀ post ∈ jobRun.batch,
        needOf (run System.step s (worlds.map .next)).db post.id < needOf s.db post.id := by
  induction worlds generalizing s jobRun with
  | nil =>
    have hnil : jobRun.batch = [] := List.eq_nil_of_length_eq_zero (Nat.le_zero.mp hlength)
    refine ⟨⟨jobRun, hjob, hnil⟩, rfl, fun _ => Nat.le_refl _, ?_⟩
    rw [hnil]
    intro other hmem
    cases hmem
  | cons world worlds ih =>
    rw [List.forall_mem_cons] at hworlds
    rw [List.map_cons, run_cons]
    cases hbatch : jobRun.batch with
    | nil =>
      have hidle : s.step (.next world) = s := by
        rw [System.step, System.next, hjob]
        dsimp only
        rw [hbatch]
      rw [hidle]
      have hrest := ih hworlds.2 hjob hnodup hneed (by rw [hbatch]; exact Nat.zero_le _)
      rwa [hbatch] at hrest
    | cons post batch =>
      rw [hbatch, List.map_cons, List.nodup_cons] at hnodup
      rw [hbatch, List.forall_mem_cons] at hneed
      obtain ⟨⟨jobRun', hjob', hbatch'⟩, hids, hless, hsame⟩ :=
        needOf_next hworlds.1 hjob hbatch hneed.1
      have hother : ∀ other ∈ batch, other.id ≠ post.id := fun other hmem heq =>
        hnodup.1 (List.mem_map.mpr ⟨other, hmem, heq⟩)
      have hstep (id : Nat) : needOf (s.next world).db id ≤ needOf s.db id := by
        by_cases hid : id = post.id
        · rw [hid]
          exact hless.le
        · rw [hsame id hid]
      obtain ⟨hended, hids', hle, hless'⟩ := ih hworlds.2 hjob' (by rw [hbatch']; exact hnodup.2)
        (by
          rw [hbatch']
          intro other hmem
          rw [hsame other.id (hother other hmem)]
          exact hneed.2 other hmem)
        (by
          rw [hbatch, List.length_cons, List.length_cons] at hlength
          rw [hbatch']
          omega)
      refine ⟨hended, hids'.trans hids, fun id => (hle id).trans (hstep id), ?_⟩
      rw [List.forall_mem_cons]
      refine ⟨(hle post.id).trans_lt hless, ?_⟩
      intro other hmem
      exact (hless' other (hbatch' ▸ hmem)).trans_le (hstep other.id)

/-! ## Runs of the job -/

/-- A whole run of the job, with what surrounds each post of its batch. -/
structure Plan where
  clusterResources : Bool
  preferMetadata : Bool
  worlds : List World

def Plan.actions (plan : Plan) : List Action :=
  .begin plan.clusterResources true plan.preferMetadata :: plan.worlds.map .next ++ [.finish]

/-- A run that goes through its whole batch and can have a browser. -/
structure Plan.Complete (plan : Plan) : Prop where
  length : batchLimit ≤ plan.worlds.length
  available : ∀ world ∈ plan.worlds, world.Available

theorem length_postsNeedingPreviews (limit : Nat) (db : Db) :
    (postsNeedingPreviews limit db).length =
      min limit (db.posts.rows.filter (needsPreview db)).length := by
  rw [postsNeedingPreviews, List.length_take]
  split <;> rw [List.length_mergeSort]

/-- The posts that need a run are those that need a preview. -/
theorem card_unsettled (db : Db) :
    (unsettled (postIds db) (needOf db)).card = (db.posts.rows.filter (needsPreview db)).length := by
  have hnodup : ((db.posts.rows.filter (needsPreview db)).map Post.id).Nodup :=
    db.posts.nodup.sublist (List.filter_sublist.map _)
  rw [← List.length_map Post.id, ← List.toFinset_card_of_nodup hnodup]
  congr 1
  ext id
  rw [unsettled, Finset.mem_filter, needOf_pos_iff, List.mem_toFinset, List.mem_map]
  constructor
  · rintro ⟨-, post, hget, hneeds⟩
    obtain ⟨hmem, hid⟩ := Table.get_eq_some_iff.mp hget
    exact ⟨post, List.mem_filter.mpr ⟨hmem, hneeds⟩, hid⟩
  · rintro ⟨post, hmem, rfl⟩
    obtain ⟨hmem, hneeds⟩ := List.mem_filter.mp hmem
    have hget := Table.mem_rows_iff.mp hmem
    exact ⟨mem_postIds.mpr (by rw [hget]; rfl), post, hget, hneeds⟩

/-- A run of the job is a round of the backlog. -/
theorem round_of_plan {plan : Plan} (hplan : plan.Complete) {s : System} (hjob : s.job = none) :
    (run System.step s plan.actions).job = none ∧
      postIds (run System.step s plan.actions).db = postIds s.db ∧
      Round batchLimit (postIds s.db) (needOf s.db) (needOf (run System.step s plan.actions).db) := by
  have hnodup := nodup_postsNeedingPreviews batchLimit s.db
  have hneed : ∀ post ∈ postsNeedingPreviews batchLimit s.db, 0 < needOf s.db post.id := by
    intro post hpost
    obtain ⟨hmem, hneeds⟩ := mem_postsNeedingPreviews hpost
    exact needOf_pos_iff.mpr ⟨post, Table.mem_rows_iff.mp hmem, hneeds⟩
  have hlength : (postsNeedingPreviews batchLimit s.db).length ≤ plan.worlds.length :=
    (List.length_take_le ..).trans hplan.length
  set begun : System := { s with
    job := some ⟨postsNeedingPreviews batchLimit s.db, plan.preferMetadata, .new plan.clusterResources⟩ }
    with hbegun
  have hbegin : s.step (.begin plan.clusterResources true plan.preferMetadata) = begun := by
    rw [System.step, System.begin, hjob]
    rfl
  obtain ⟨⟨jobRun, hended, hnil⟩, hids, hle, hless⟩ :=
    needOf_nexts hplan.available (s := begun) rfl hnodup hneed hlength
  obtain ⟨batch, preferMetadata, session⟩ := jobRun
  dsimp only at hnil
  subst hnil
  have hfinish : run System.step s plan.actions =
      { run System.step begun (plan.worlds.map .next) with
        job := none
        finished := (run System.step begun (plan.worlds.map .next)).finished ++
          [LazyBrowser.release session] } := by
    rw [Plan.actions, List.cons_append, run_cons, hbegin, run_append, run_cons, run_nil, System.step,
      System.finish, hended]
  rw [hfinish]
  refine ⟨rfl, hids, fun id _ => hle id, ((postsNeedingPreviews batchLimit s.db).map Post.id).toFinset,
    ?_, ?_, ?_⟩
  · intro id hid
    obtain ⟨post, hpost, rfl⟩ := List.mem_map.mp (List.mem_toFinset.mp hid)
    rw [mem_postIds, Table.mem_rows_iff.mp (mem_postsNeedingPreviews hpost).1]
    rfl
  · rw [List.toFinset_card_of_nodup hnodup, List.length_map, length_postsNeedingPreviews,
      card_unsettled]
  · intro id hid
    obtain ⟨post, hpost, rfl⟩ := List.mem_map.mp (List.mem_toFinset.mp hid)
    exact hless post hpost

/-- Every post with a link has a preview or was given up. -/
def Db.Settled (db : Db) : Prop :=
  ∀ post ∈ db.posts.rows, post.link.isSome = true →
    post.mediaGenerated = true ∨ maxPreviewAttempts ≤ attemptsOf db post.id

/-- The system after some runs of the job. -/
def afterPlans (plan : Nat → Plan) (s : System) : Nat → System
  | 0 => s
  | k + 1 => run System.step (afterPlans plan s k) (plan k).actions

/-- While nobody else writes, twenty posts that need a preview take a run of the job on average, and five
more runs settle all of them: every post with a link has a preview then or failed five times. -/
theorem settled_plans (db : Db) {plan : Nat → Plan} (hplan : ∀ k, (plan k).Complete) {n : Nat}
    (hn : (db.posts.rows.filter (needsPreview db)).length ≤ 20 * n) :
    (afterPlans plan (System.init db) (n + 5)).db.Settled := by
  have hstate (k : Nat) : (afterPlans plan (System.init db) k).job = none ∧
      postIds (afterPlans plan (System.init db) k).db = postIds db := by
    induction k with
    | zero => exact ⟨rfl, rfl⟩
    | succ k ih =>
      obtain ⟨hjob, hids, -⟩ := round_of_plan (hplan k) ih.1
      exact ⟨hjob, hids.trans ih.2⟩
  have hround (k : Nat) : Round batchLimit (postIds db)
      (needOf (afterPlans plan (System.init db) k).db)
      (needOf (afterPlans plan (System.init db) (k + 1)).db) := by
    have hround := (round_of_plan (hplan k) (hstate k).1).2.2
    rwa [(hstate k).2] at hround
  have hsum : ∑ id ∈ postIds db, needOf db id ≤ batchLimit * n := by
    calc ∑ id ∈ postIds db, needOf db id
        = ∑ id ∈ unsettled (postIds db) (needOf db), needOf db id := by
          rw [unsettled, Finset.sum_filter]
          refine Finset.sum_congr rfl fun id _ => ?_
          split
          · rfl
          · omega
      _ ≤ (unsettled (postIds db) (needOf db)).card * maxPreviewAttempts :=
          Finset.sum_le_card_nsmul _ _ _ fun id _ => needOf_le db id
      _ ≤ batchLimit * n := by
          rw [card_unsettled, maxPreviewAttempts, batchLimit]
          omega
  intro post hpost hlink
  have hget := Table.mem_rows_iff.mp hpost
  have hid : post.id ∈ postIds db := by
    rw [← (hstate (n + 5)).2, mem_postIds, hget]
    rfl
  have hzero := settled_of_rounds (fun k => needOf (afterPlans plan (System.init db) k).db)
    hround hsum (fun id _ => needOf_le db id) hid
  have hnot : ¬ needsPreview (afterPlans plan (System.init db) (n + 5)).db post = true := by
    intro hneeds
    have hpos := needOf_pos_iff.mpr ⟨post, hget, hneeds⟩
    rw [show needOf (afterPlans plan (System.init db) (n + 5)).db post.id = 0 from hzero] at hpos
    exact Nat.lt_irrefl 0 hpos
  rw [needsPreview, hlink] at hnot
  simp only [Bool.true_and, Bool.and_eq_true, Bool.not_eq_true', decide_eq_true_eq, not_and,
    Nat.not_lt] at hnot
  cases hgenerated : post.mediaGenerated with
  | true => exact .inl rfl
  | false => exact .inr (hnot hgenerated)

theorem settled_plans_hike :
    (afterPlans (fun _ => ⟨true, false, List.replicate 100 hikeWorld⟩) (System.init hikeDb) (1 + 5)
      ).db.Settled :=
  settled_plans hikeDb
    (fun _ => ⟨by rw [List.length_replicate, batchLimit], fun world hworld => by
      rw [List.eq_of_mem_replicate hworld]
      exact ⟨rfl, rfl⟩⟩)
    (by decide)

end

end Rellm.Previews
