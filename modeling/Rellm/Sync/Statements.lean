import Rellm.Sync.Invariant

/-!
# What the statements of a sync do

For each statement that syncing executes: when it succeeds, and what every
lookup finds afterwards. Reconciling is reasoned about through these alone.
-/

namespace Rellm.Sync

open Foundation Calendar

/-- Inserting a post takes the next id and always succeeds. -/
theorem insertPost_ok {db : Database} (h : db.posts.get db.nextPostId = none) (new : NewPost) :
    ∃ posts, db.insertPost new =
        .ok (db.nextPostId, { db with posts := posts, nextPostId := db.nextPostId + 1 }) ∧
      ∀ p, posts.get p =
        if p = db.nextPostId then some { new with id := db.nextPostId } else db.posts.get p := by
  have hrow := Table.insert_of_get_none ({ new with id := db.nextPostId } : Post) h
  obtain ⟨posts, hinsert, hget⟩ := hrow
  refine ⟨posts, ?_, hget⟩
  rw [Database.insertPost, hinsert]

/-- Inserting an occasion succeeds for an existing post and event and a fresh key. -/
theorem insertOccasion_ok (db : Database) (occasion : Occasion)
    (hpost : (db.posts.get occasion.postId).isSome)
    (hevent : (db.events.get occasion.eventId).isSome)
    (hfresh : db.occasions.get occasion.postId = none) :
    ∃ occasions, db.insertOccasion occasion = .ok { db with occasions := occasions } ∧
      ∀ p, occasions.get p =
        if p = occasion.postId then some occasion else db.occasions.get p := by
  obtain ⟨occasions, hinsert, hget⟩ := Table.insert_of_get_none occasion hfresh
  have hforeign : ¬ ((db.posts.get occasion.postId).isNone ||
      (db.events.get occasion.eventId).isNone) = true := by
    rw [Option.isNone_eq_false_iff.mpr hpost, Option.isNone_eq_false_iff.mpr hevent]
    exact Bool.false_ne_true
  refine ⟨occasions, ?_, hget⟩
  rw [Database.insertOccasion, if_neg hforeign, hinsert]

/-- Inserting an event succeeds for an existing post and a fresh key. -/
theorem insertEvent_ok (db : Database) (event : Event)
    (hpost : (db.posts.get event.postId).isSome) (hfresh : db.events.get event.postId = none) :
    ∃ events, db.insertEvent event = .ok { db with events := events } ∧
      ∀ p, events.get p = if p = event.postId then some event else db.events.get p := by
  obtain ⟨events, hinsert, hget⟩ := Table.insert_of_get_none event hfresh
  have hforeign : ¬ (db.posts.get event.postId).isNone = true := by
    rw [Option.isNone_eq_false_iff.mpr hpost]
    exact Bool.false_ne_true
  refine ⟨events, ?_, hget⟩
  rw [Database.insertEvent, if_neg hforeign, hinsert]

/-- A key is taken exactly if another post has it. -/
theorem syncKeyTaken_eq_false_iff {db : Database} {postId sourceId : Nat} {uid : String}
    {anchor : Option Instant} :
    db.syncKeyTaken postId sourceId uid anchor = false ↔
      ∀ p, p ≠ postId → db.keyOf p ≠ some ⟨sourceId, uid, anchor⟩ := by
  rw [Database.syncKeyTaken, List.any_eq_false]
  constructor
  · intro h p hp hkey
    obtain ⟨post, hpost, hsync⟩ := Option.bind_eq_some_iff.mp hkey
    obtain ⟨hsource, huid, hanchor⟩ := Post.syncKey_eq_some_iff.mp hsync
    obtain ⟨hmem, hid⟩ := Table.get_eq_some_iff.mp hpost
    have hne := h post hmem
    rw [decide_eq_true_eq] at hne
    exact hne ⟨hid ▸ hp, hsource, huid, hanchor⟩
  · intro h post hmem
    rw [decide_eq_true_eq]
    rintro ⟨hid, hsource, huid, hanchor⟩
    apply h post.id hid
    rw [Database.keyOf, Table.mem_rows_iff.mp hmem, Option.bind_some]
    exact Post.syncKey_eq_some_iff.mpr ⟨hsource, huid, hanchor⟩

/-- A key that no other post has can be set. -/
theorem setSyncKey_ok {db : Database} {postId sourceId : Nat} {uid : String}
    {anchor : Option Instant}
    (hfree : ∀ p, p ≠ postId → db.keyOf p ≠ some ⟨sourceId, uid, anchor⟩) :
    ∃ posts, db.setSyncKey postId sourceId uid anchor = .ok { db with posts := posts } ∧
      ∀ p, posts.get p = if p = postId then
        (db.posts.get p).map fun post => { post with
          syncSourceId := some sourceId
          syncSourceUid := some uid
          syncSourceRecurrenceAnchor := anchor }
        else db.posts.get p := by
  have htaken : ¬ db.syncKeyTaken postId sourceId uid anchor = true := by
    rw [syncKeyTaken_eq_false_iff.mpr hfree]
    exact Bool.false_ne_true
  refine ⟨db.posts.update (fun post => post.id = postId) (fun post => { post with
    syncSourceId := some sourceId
    syncSourceUid := some uid
    syncSourceRecurrenceAnchor := anchor }) (fun _ => rfl), ?_, ?_⟩
  · rw [Database.setSyncKey, if_neg htaken]
  · exact Table.get_update_key db.posts postId _ _

/-- The post of a new occasion, with its sync key. -/
def createdOccasionPost (params : SyncParams) (uid : String) (occ : Occurrence) (id : Nat) : Post :=
  { newOccasionPost params occ with
    id := id
    syncSourceId := some params.sourceId
    syncSourceUid := some uid
    syncSourceRecurrenceAnchor := some occ.recurrenceAnchor }

/-- An occasion can be created under an event unless its key is taken. -/
theorem createOccasion_ok {params : SyncParams} {eventId : Nat} {uid : String} {occ : Occurrence}
    {db : Database} (h : Valid db) (hevent : (db.events.get eventId).isSome)
    (hfree : ∀ p, db.keyOf p ≠ some ⟨params.sourceId, uid, some occ.recurrenceAnchor⟩) :
    ∃ db', createOccasion params eventId uid db occ = .ok db' ∧
      Adds (createdOccasionPost params uid occ db.nextPostId) none
        (some (newOccasion eventId db.nextPostId occ)) db db' := by
  obtain ⟨hpost, hnoEvent, hoccasion⟩ := h.get_nextPostId
  obtain ⟨posts, hinsert, hposts⟩ := insertPost_ok hpost (newOccasionPost params occ)
  have hsome : (posts.get db.nextPostId).isSome := by
    rw [hposts, if_pos rfl]
    rfl
  obtain ⟨occasions, hrow, hget⟩ := insertOccasion_ok
    { db with posts := posts, nextPostId := db.nextPostId + 1 }
    (newOccasion eventId db.nextPostId occ) hsome hevent hoccasion
  have hothers : ∀ p, p ≠ db.nextPostId →
      { db with posts := posts, occasions := occasions, nextPostId := db.nextPostId + 1 }.keyOf p ≠
        some ⟨params.sourceId, uid, some occ.recurrenceAnchor⟩ := by
    intro p hp
    rw [Database.keyOf, hposts, if_neg hp]
    exact hfree p
  obtain ⟨keyed, hset, hkeyed⟩ := setSyncKey_ok hothers
  refine ⟨{ db with posts := keyed, occasions := occasions, nextPostId := db.nextPostId + 1 },
    ?_, ?_⟩
  · rw [createOccasion, hinsert]
    simp only [bind, Except.bind]
    rw [hrow]
    exact hset
  · refine ⟨?_, ?_, hget, rfl, rfl⟩
    · intro p
      rw [hkeyed, hposts]
      by_cases hp : p = db.nextPostId
      · rw [if_pos hp, if_pos hp, if_pos hp]
        rfl
      · rw [if_neg hp, if_neg hp, if_neg hp]
    · intro p
      by_cases hp : p = db.nextPostId
      · rw [if_pos hp, hp]
        exact hnoEvent
      · rw [if_neg hp]

/-- The post of a new event, with its sync key. -/
def createdEventPost (params : SyncParams) (group : EventGroup) (id : Nat) : Post :=
  { newEventPost params group with
    id := id
    syncSourceId := some params.sourceId
    syncSourceUid := some group.uid }

/-- An event can be created unless its key is taken. -/
theorem createEventForGroup_ok {params : SyncParams} {group : EventGroup} {db : Database}
    (h : Valid db) (hfree : ∀ p, db.keyOf p ≠ some ⟨params.sourceId, group.uid, none⟩) :
    ∃ db', createEventForGroup params db group = .ok (db.nextPostId, db') ∧
      Adds (createdEventPost params group db.nextPostId) (some { postId := db.nextPostId })
        none db db' := by
  obtain ⟨hpost, hevent, hnoOccasion⟩ := h.get_nextPostId
  obtain ⟨posts, hinsert, hposts⟩ := insertPost_ok hpost (newEventPost params group)
  have hothers : ∀ p, p ≠ db.nextPostId →
      { db with posts := posts, nextPostId := db.nextPostId + 1 }.keyOf p ≠
        some ⟨params.sourceId, group.uid, none⟩ := by
    intro p hp
    rw [Database.keyOf, hposts, if_neg hp]
    exact hfree p
  obtain ⟨keyed, hset, hkeyed⟩ := setSyncKey_ok hothers
  have hsome : (keyed.get db.nextPostId).isSome := by
    rw [hkeyed, if_pos rfl, hposts, if_pos rfl]
    rfl
  obtain ⟨events, hrow, hget⟩ := insertEvent_ok
    { db with posts := keyed, nextPostId := db.nextPostId + 1 }
    { postId := db.nextPostId } hsome hevent
  refine ⟨{ db with posts := keyed, events := events, nextPostId := db.nextPostId + 1 }, ?_, ?_⟩
  · rw [createEventForGroup, hinsert]
    simp only [bind, Except.bind]
    rw [hset]
    simp only []
    rw [hrow]
    rfl
  · refine ⟨?_, hget, ?_, rfl, rfl⟩
    · intro p
      rw [hkeyed, hposts]
      by_cases hp : p = db.nextPostId
      · rw [if_pos hp, if_pos hp, if_pos hp]
        rfl
      · rw [if_neg hp, if_neg hp, if_neg hp]
    · intro p
      by_cases hp : p = db.nextPostId
      · rw [if_pos hp, hp]
        exact hnoOccasion
      · rw [if_neg hp]

/-- A taken key makes the creation of an event fail. -/
theorem createEventForGroup_error {params : SyncParams} {group : EventGroup} {db : Database}
    (h : Valid db) {p : Nat} (htaken : db.keyOf p = some ⟨params.sourceId, group.uid, none⟩) :
    createEventForGroup params db group = .error .uniqueViolation := by
  obtain ⟨hpost, _, _⟩ := h.get_nextPostId
  obtain ⟨posts, hinsert, hposts⟩ := insertPost_ok hpost (newEventPost params group)
  have hp : p ≠ db.nextPostId := by
    rintro rfl
    rw [Database.keyOf, hpost] at htaken
    cases htaken
  have hkey : { db with posts := posts, nextPostId := db.nextPostId + 1 }.keyOf p =
      some ⟨params.sourceId, group.uid, none⟩ := by
    rw [Database.keyOf, hposts, if_neg hp]
    exact htaken
  have hblocked : Database.syncKeyTaken
      { db with posts := posts, nextPostId := db.nextPostId + 1 } db.nextPostId
      params.sourceId group.uid none = true := by
    by_contra hfree
    exact syncKeyTaken_eq_false_iff.mp ((Bool.not_eq_true _).mp hfree) p hp hkey
  rw [createEventForGroup, hinsert]
  simp only [bind, Except.bind, Database.setSyncKey, hblocked, if_true]

/-- A post with another text. -/
def retext (title content link : Option String) (post : Post) : Post :=
  { post with title := title, content := content, link := link }

/-- Bringing a text up to date succeeds for an existing post and sets the text. -/
theorem syncPostText_ok (db : Database) {postId : Nat} (h : (db.posts.get postId).isSome)
    (title content link : Option String) :
    ∃ posts, syncPostText db postId title content link = .ok { db with posts := posts } ∧
      ∀ p, posts.get p = if p = postId then (db.posts.get p).map (retext title content link)
        else db.posts.get p := by
  obtain ⟨post, hpost⟩ := Option.isSome_iff_exists.mp h
  rw [syncPostText, hpost]
  by_cases hsame : post.title ≠ title ∨ post.content ≠ content ∨ post.link ≠ link
  · refine ⟨db.posts.update (fun post => post.id = postId) (retext title content link)
      (fun _ => rfl), if_pos hsame, ?_⟩
    exact Table.get_update_key db.posts postId _ _
  · refine ⟨db.posts, if_neg hsame, ?_⟩
    intro p
    by_cases hp : p = postId
    · simp only [not_or, not_not] at hsame
      obtain ⟨rfl, rfl, rfl⟩ := hsame
      rw [if_pos hp, hp, hpost]
      rfl
    · rw [if_neg hp]

/-- A text that is up to date is left alone. -/
theorem syncPostText_eq_self {db : Database} {postId : Nat} {post : Post}
    (h : db.posts.get postId = some post) {title content link : Option String}
    (hsame : retext title content link post = post) :
    syncPostText db postId title content link = .ok db := by
  rw [syncPostText, h]
  refine if_neg ?_
  rw [← hsame]
  simp only [retext, ne_eq, not_true_eq_false, or_self, not_false_eq_true]

/-- What the database is after an existing occasion was updated. -/
structure UpdatesOccasion (existing : Occasion) (occ : Occurrence) (db db' : Database) :
    Prop where
  posts : ∀ p, db'.posts.get p = if p = existing.postId ∧ occ.isOverride = true then
    (db.posts.get p).map (retext occ.title occ.content none) else db.posts.get p
  occasions : ∀ p, db'.occasions.get p =
    if p = existing.postId then some (refreshed occ existing) else db.occasions.get p
  events : db'.events = db.events
  syncSources : db'.syncSources = db.syncSources
  next : db'.nextPostId = db.nextPostId

/-- An occasion of the table can be updated. -/
theorem updateOccasion_ok {db : Database} {existing : Occasion} (occ : Occurrence)
    (hrow : db.occasions.get existing.postId = some existing)
    (hpost : (db.posts.get existing.postId).isSome) :
    ∃ db', updateOccasion db existing occ = .ok db' ∧ UpdatesOccasion existing occ db db' := by
  have hwritten : ∃ occasions : Table Occasion.postId,
      (if existing.startsAt ≠ occ.startsAt ∨ existing.endsAt ≠ occ.endsAt ∨
          existing.location ≠ locationJson occ.location ∨ existing.timezone ≠ occ.timezone ∨
          existing.syncMissingSince.isSome then
        { db with
          occasions := db.occasions.update (fun row => row.postId = existing.postId)
            (refreshed occ) (fun _ => rfl) }
        else db) = { db with occasions := occasions } ∧
      ∀ p, occasions.get p =
        if p = existing.postId then some (refreshed occ existing) else db.occasions.get p := by
    split
    · refine ⟨_, rfl, ?_⟩
      intro p
      refine (Table.get_update_key db.occasions existing.postId (refreshed occ)
        (fun _ => rfl) p).trans ?_
      by_cases hp : p = existing.postId
      · rw [if_pos hp, if_pos hp, hp, hrow, Option.map_some]
      · rw [if_neg hp, if_neg hp]
    · rename_i hsame
      refine ⟨db.occasions, rfl, ?_⟩
      intro p
      by_cases hp : p = existing.postId
      · rw [if_pos hp, hp, hrow]
        simp only [not_or, not_not, Bool.not_eq_true, Option.isSome_eq_false_iff,
          Option.isNone_iff_eq_none] at hsame
        obtain ⟨hstarts, hends, hlocation, htimezone, hmissing⟩ := hsame
        rw [refreshed, ← hstarts, ← hends, ← hlocation, ← htimezone, ← hmissing]
      · rw [if_neg hp]
  obtain ⟨occasions, heq, hget⟩ := hwritten
  rw [updateOccasion]
  simp only [heq]
  by_cases hoverride : occ.isOverride = true
  · rw [if_pos hoverride]
    obtain ⟨posts, htext, hposts⟩ := syncPostText_ok
      { db with occasions := occasions } hpost occ.title occ.content none
    refine ⟨_, htext, ?_, hget, rfl, rfl, rfl⟩
    intro p
    rw [hposts]
    simp only [hoverride, and_true]
  · rw [if_neg hoverride]
    refine ⟨_, rfl, ?_, hget, rfl, rfl, rfl⟩
    intro p
    rw [if_neg fun h => hoverride h.2]

/-- Dropping the rows with some keys, seen from one lookup. -/
theorem filter_key_eq_ite {ρ : Type} {key : ρ → Nat} {p : Nat} {found : Option ρ}
    (hkey : ∀ row, found = some row → key row = p) (keys : List Nat) :
    (found.filter fun row => !keys.contains (key row)) = if p ∈ keys then none else found := by
  cases found with
  | none =>
    rw [Option.filter_none]
    split <;> rfl
  | some row =>
    rw [Option.filter_some, hkey row rfl]
    by_cases hp : p ∈ keys
    · simp [hp]
    · simp [hp]

/-- What the database is after posts were deleted with the rows that rest on them. -/
structure DeletesPosts (postIds : List Nat) (db db' : Database) : Prop where
  posts : ∀ p, db'.posts.get p = if p ∈ postIds then none else db.posts.get p
  events : ∀ p, db'.events.get p = if p ∈ postIds then none else db.events.get p
  occasions : ∀ p, db'.occasions.get p =
    (db.occasions.get p).filter fun o => decide (p ∉ postIds ∧ o.eventId ∉ postIds)
  syncSources : db'.syncSources = db.syncSources
  next : db'.nextPostId = db.nextPostId

/-- Posts of which no event has occasions left can be deleted. -/
theorem deleteSyncedPosts_ok {db : Database} {postIds : List Nat}
    (hevents : ∀ p o, db.occasions.get p = some o → o.eventId ∉ postIds) :
    ∃ db', deleteSyncedPosts db postIds = .ok db' ∧ DeletesPosts postIds db db' := by
  by_cases hempty : postIds.isEmpty = true
  · refine ⟨db, ?_, ?_⟩
    · rw [deleteSyncedPosts, if_pos hempty]
    · obtain rfl := List.isEmpty_iff.mp hempty
      refine ⟨fun p => ?_, fun p => ?_, fun p => ?_, rfl, rfl⟩
      · rw [if_neg List.not_mem_nil]
      · rw [if_neg List.not_mem_nil]
      · cases db.occasions.get p with
        | none => rfl
        | some o =>
          rw [Option.filter_some, if_pos]
          simp only [List.not_mem_nil, not_false_eq_true, and_self, decide_true]
  · have hrestrict : ¬ ((db.postSyncDestinations.filter fun id => !postIds.contains id).any
          postIds.contains ||
        db.occasions.rows.any (fun occasion =>
          (postIds.contains occasion.postId || postIds.contains occasion.eventId) &&
            (db.occasionSyncDestinations.filter fun id => !postIds.contains id).contains
              occasion.postId)) = true := by
      intro h
      rcases Bool.or_eq_true_iff.mp h with hpost | hoccasion
      · obtain ⟨id, hid, hin⟩ := List.any_eq_true.mp hpost
        have hout := (List.mem_filter.mp hid).2
        rw [hin] at hout
        cases hout
      · obtain ⟨o, ho, hand⟩ := List.any_eq_true.mp hoccasion
        obtain ⟨hdeleted, hshared⟩ := Bool.and_eq_true_iff.mp hand
        have hout := (List.mem_filter.mp (List.contains_iff_mem.mp hshared)).2
        rcases Bool.or_eq_true_iff.mp hdeleted with hid | hevent
        · rw [hid] at hout
          cases hout
        · exact hevents _ o (Table.mem_rows_iff.mp ho) (List.contains_iff_mem.mp hevent)
    refine ⟨{ db with
      posts := db.posts.delete fun post => postIds.contains post.id
      events := db.events.delete fun event => postIds.contains event.postId
      occasions := db.occasions.delete fun occasion =>
        postIds.contains occasion.postId || postIds.contains occasion.eventId
      postSyncDestinations := db.postSyncDestinations.filter fun id => !postIds.contains id
      occasionSyncDestinations :=
        db.occasionSyncDestinations.filter fun id => !postIds.contains id }, ?_, ?_⟩
    · rw [deleteSyncedPosts, if_neg hempty]
      simp only [Database.deletePosts]
      exact if_neg hrestrict
    · refine ⟨fun p => ?_, fun p => ?_, fun p => ?_, rfl, rfl⟩
      · rw [Table.get_delete]
        exact filter_key_eq_ite (fun post h => Table.key_of_get h) postIds
      · rw [Table.get_delete]
        exact filter_key_eq_ite (fun event h => Table.key_of_get h) postIds
      · rw [Table.get_delete]
        cases hget : db.occasions.get p with
        | none => rfl
        | some o =>
          rw [Option.filter_some, Option.filter_some, Table.key_of_get hget]
          simp only [Bool.not_or, Bool.and_eq_true, Bool.not_eq_true', List.contains_eq_mem,
            decide_eq_false_iff_not, decide_eq_true_eq]

namespace DeletesPosts

variable {postIds : List Nat} {db db' : Database}

/-- An occasion is kept unless its own post is deleted. -/
theorem occasion_eq (h : DeletesPosts postIds db db')
    (hevents : ∀ p o, db.occasions.get p = some o → o.eventId ∉ postIds) (p : Nat) :
    db'.occasions.get p = if p ∈ postIds then none else db.occasions.get p := by
  rw [h.occasions]
  cases hget : db.occasions.get p with
  | none =>
    rw [Option.filter_none]
    split <;> rfl
  | some o =>
    have hevent := hevents p o hget
    rw [Option.filter_some]
    by_cases hp : p ∈ postIds
    · simp only [hp, not_true_eq_false, false_and, decide_false, if_true, reduceIte,
        Bool.false_eq_true]
    · simp only [hp, hevent, not_false_eq_true, and_self, decide_true, if_true, if_false]

/-- Deleting posts whose events have no occasions left keeps every foreign key. -/
theorem shrinks (h : DeletesPosts postIds db db') (hdb : Valid db)
    (hevents : ∀ p o, db.occasions.get p = some o → o.eventId ∉ postIds) : Shrinks db db' where
  posts p post' hpost' := by
    rw [h.posts] at hpost'
    split at hpost'
    · cases hpost'
    · exact ⟨post', hpost', .rfl⟩
  events p hp := by
    rw [h.events] at hp
    split at hp
    · cases hp
    · exact hp
  occasions p o' ho' := by
    rw [h.occasion_eq hevents] at ho'
    split at ho'
    · cases ho'
    · exact ⟨o', ho', rfl⟩
  next := Nat.le_of_eq h.next.symm
  eventPost p hp := by
    rw [h.events] at hp
    rw [h.posts]
    split at hp
    · cases hp
    · rw [if_neg ‹_›]
      exact hdb.eventPost p hp
  occasionPost p hp := by
    rw [h.occasion_eq hevents] at hp
    rw [h.posts]
    split at hp
    · cases hp
    · rw [if_neg ‹_›]
      exact hdb.occasionPost p hp
  occasionEvent p o ho := by
    rw [h.occasion_eq hevents] at ho
    split at ho
    · cases ho
    · rw [h.events, if_neg (hevents p o ho)]
      exact hdb.occasionEvent p o ho

/-- Deleting posts with their rows leaves no orphan behind. -/
theorem noOrphans (h : DeletesPosts postIds db db') (hdb : Valid db)
    (hevents : ∀ p o, db.occasions.get p = some o → o.eventId ∉ postIds) {sourceId : Nat}
    (hnone : NoOrphans db sourceId) : NoOrphans db' sourceId := by
  have hkept : ∀ p, (db'.posts.get p).isSome → p ∉ postIds := by
    intro p hp hmem
    rw [h.posts, if_pos hmem] at hp
    cases hp
  refine hnone.shrink (h.shrinks hdb hevents) ?_ ?_
  · intro p hp hevent
    rw [h.events, if_neg (hkept p hp)]
    exact hevent
  · intro p hp hoccasion
    rw [h.occasion_eq hevents, if_neg (hkept p hp)]
    exact hoccasion

end DeletesPosts

end Rellm.Sync
