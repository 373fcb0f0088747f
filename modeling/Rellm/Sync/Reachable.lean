import Rellm.Sync.Actions
import Rellm.Sync.Calls

/-!
# Reachable databases

Every action keeps a database valid, so every reachable database is.
-/

namespace Rellm.Sync

open Foundation Calendar

section

variable {crates : CalendarCrates} {db db' : Database}

/-- Nothing is wrong with a database without rows. -/
theorem fresh_valid : Valid .fresh where
  fresh _ h := by cases h
  eventPost _ h := by cases h
  occasionPost _ h := by cases h
  occasionEvent _ _ h := by cases h
  apart _ h := by cases h
  unique _ _ _ h := by cases h
  named _ _ h := by cases h
  anchored _ _ h := by cases h
  eventKey _ _ h := by cases h
  occasionKey _ _ _ h := by cases h

/-- Rewriting columns that posts are not looked up by. -/
theorem Valid.updatePosts (h : Valid db) (condition : Post → Bool) {rewrite : Post → Post}
    (hsame : ∀ post, SameSync post (rewrite post)) (hid : ∀ post, (rewrite post).id = post.id) :
    Valid { db with posts := db.posts.update condition rewrite hid } := by
  have hsome : ∀ p, ((db.posts.update condition rewrite hid).get p).isSome =
      (db.posts.get p).isSome := by
    intro p
    rw [Table.get_update, Option.isSome_map]
  refine Shrinks.valid ?_ h
  exact {
    posts := fun p post' hpost' => by
      rw [Table.get_update] at hpost'
      obtain ⟨post, hpost, rfl⟩ := Option.map_eq_some_iff.mp hpost'
      refine ⟨post, hpost, ?_⟩
      split
      · exact hsame post
      · exact .rfl
    events := fun p hp => hp
    occasions := fun p o ho => ⟨o, ho, rfl⟩
    next := Nat.le_refl _
    eventPost := fun p hp => by
      rw [hsome]
      exact h.eventPost p hp
    occasionPost := fun p hp => by
      rw [hsome]
      exact h.occasionPost p hp
    occasionEvent := h.occasionEvent }

/-- Adding a post that no source knows, perhaps with an event or an occasion. -/
theorem Valid.addUnsynced {new : NewPost} {event : Option Event} {occasion : Option Occasion}
    (h : Valid db)
    (hadds : Adds { new with id := db.nextPostId } event occasion db db')
    (hevent : event.isSome → occasion = none)
    (hoccasion : ∀ o, occasion = some o → (db.events.get o.eventId).isSome) : Valid db' := by
  have hkey : ({ new with id := db.nextPostId } : Post).syncKey = none := rfl
  refine hadds.valid ⟨?_, ?_, ?_, ?_, ?_⟩ h
  · intro hsource
    cases hsource
  · intro hanchor
    cases hanchor
  · intro p key hsync
    rw [hkey] at hsync
    cases hsync
  · intro hsome
    exact ⟨hevent hsome, fun hsource => by cases hsource⟩
  · intro o ho
    refine ⟨hoccasion o ho, fun key hsync => ?_⟩
    rw [hkey] at hsync
    cases hsync

/-- Inserting a post keeps the database valid. -/
theorem Valid.insertPost (h : Valid db) (new : NewPost) :
    ∃ posts, db.insertPost new =
        .ok (db.nextPostId, { db with posts := posts, nextPostId := db.nextPostId + 1 }) ∧
      (∀ p, posts.get p =
        if p = db.nextPostId then some { new with id := db.nextPostId } else db.posts.get p) ∧
      Valid { db with posts := posts, nextPostId := db.nextPostId + 1 } := by
  obtain ⟨hpost, hevent, hoccasion⟩ := h.get_nextPostId
  obtain ⟨posts, hok, hget⟩ := insertPost_ok hpost new
  have hadds : Adds { new with id := db.nextPostId } none none db
      { db with posts := posts, nextPostId := db.nextPostId + 1 } := by
    refine ⟨hget, fun p => ?_, fun p => ?_, rfl, rfl⟩
    · by_cases hp : p = db.nextPostId
      · rw [if_pos hp, hp]
        exact hevent
      · rw [if_neg hp]
    · by_cases hp : p = db.nextPostId
      · rw [if_pos hp, hp]
        exact hoccasion
      · rw [if_neg hp]
  exact ⟨posts, hok, hget, h.addUnsynced hadds (fun _ => rfl) fun o ho => by cases ho⟩

/-- Creating an event by hand keeps the database valid. -/
theorem Valid.createEvent (h : Valid db) (columns : NewPost)
    (hok : db.createEvent columns = .ok db') : Valid db' := by
  obtain ⟨hpost, hevent, hoccasion⟩ := h.get_nextPostId
  obtain ⟨posts, hinsert, hget⟩ := insertPost_ok hpost { columns with context := .event }
  have hsome : (posts.get db.nextPostId).isSome := by
    rw [hget, if_pos rfl]
    rfl
  obtain ⟨events, hrow, hevents⟩ := insertEvent_ok
    { db with posts := posts, nextPostId := db.nextPostId + 1 } { postId := db.nextPostId }
    hsome hevent
  simp only [Database.createEvent, hinsert, bind, Except.bind, hrow, Except.ok.injEq] at hok
  subst hok
  have hadds : Adds { { columns with context := .event } with id := db.nextPostId }
      (some { postId := db.nextPostId }) none db
      { db with posts := posts, events := events, nextPostId := db.nextPostId + 1 } := by
    refine ⟨hget, hevents, fun p => ?_, rfl, rfl⟩
    by_cases hp : p = db.nextPostId
    · rw [if_pos hp, hp]
      exact hoccasion
    · rw [if_neg hp]
  exact h.addUnsynced hadds (fun _ => rfl) fun o ho => by cases ho

/-- Creating an occasion by hand keeps the database valid. -/
theorem Valid.createOccasion (h : Valid db) (columns : NewPost) (eventId : Nat)
    (startsAt endsAt : Instant) (location : Option Location) (timezone : Option String)
    (hok : db.createOccasion columns eventId startsAt endsAt location timezone = .ok db') :
    Valid db' := by
  obtain ⟨hpost, hnoEvent, hoccasion⟩ := h.get_nextPostId
  obtain ⟨posts, hinsert, hget⟩ := insertPost_ok hpost { columns with context := .occasion }
  have hsome : (posts.get db.nextPostId).isSome := by
    rw [hget, if_pos rfl]
    rfl
  simp only [Database.createOccasion, hinsert, bind, Except.bind] at hok
  cases hevent : (db.events.get eventId).isSome with
  | false =>
    have hforeign : (db.events.get eventId).isNone = true := Option.isSome_eq_false_iff.mp hevent
    simp only [Database.insertOccasion, hforeign, Bool.or_true, if_true] at hok
    cases hok
  | true =>
    have hinserted := insertOccasion_ok
      { db with posts := posts, nextPostId := db.nextPostId + 1 } {
        postId := db.nextPostId
        eventId := eventId
        startsAt := startsAt
        endsAt := endsAt
        location := location
        timezone := timezone } hsome hevent hoccasion
    obtain ⟨occasions, hrow, hrows⟩ := hinserted
    rw [hrow, Except.ok.injEq] at hok
    subst hok
    have hadds : Adds { { columns with context := .occasion } with id := db.nextPostId } none
        (some {
          postId := db.nextPostId
          eventId := eventId
          startsAt := startsAt
          endsAt := endsAt
          location := location
          timezone := timezone }) db
        { db with posts := posts, occasions := occasions, nextPostId := db.nextPostId + 1 } := by
      refine ⟨hget, fun p => ?_, hrows, rfl, rfl⟩
      by_cases hp : p = db.nextPostId
      · rw [if_pos hp, hp]
        exact hnoEvent
      · rw [if_neg hp]
    refine h.addUnsynced hadds (fun hnone => by cases hnone) ?_
    intro o ho
    obtain rfl := Option.some.inj ho
    exact hevent

/-- Moving an occasion by hand keeps the database valid. -/
theorem Valid.editOccasion (h : Valid db) (eventId postId : Nat) (startsAt endsAt : Instant)
    (location : Option Location) (timezone : Option String)
    (hok : db.editOccasion eventId postId startsAt endsAt location timezone = .ok db') :
    Valid db' := by
  rw [Database.editOccasion] at hok
  split at hok
  · cases hok
  · obtain rfl := Except.ok.inj hok
    have hrow : ∀ p o', ((db.occasions.update
        (fun row => decide (row.postId = postId) && decide (row.eventId = eventId))
        (fun row => { row with
          startsAt := startsAt
          endsAt := endsAt
          location := location
          timezone := timezone })
        (fun _ => rfl)).get p) = some o' →
        ∃ o, db.occasions.get p = some o ∧ o'.eventId = o.eventId := by
      intro p o' ho'
      rw [Table.get_update] at ho'
      obtain ⟨o, ho, rfl⟩ := Option.map_eq_some_iff.mp ho'
      refine ⟨o, ho, ?_⟩
      split <;> rfl
    refine Shrinks.valid ?_ h
    exact {
      posts := fun p post' hpost' => ⟨post', hpost', .rfl⟩
      events := fun p hp => hp
      occasions := hrow
      next := Nat.le_refl _
      eventPost := h.eventPost
      occasionPost := fun p hp => by
        rw [Table.get_update, Option.isSome_map] at hp
        exact h.occasionPost p hp
      occasionEvent := fun p o' ho' => by
        obtain ⟨o, ho, heventId⟩ := hrow p o' ho'
        rw [heventId]
        exact h.occasionEvent p o ho }

/-- Deleting rows of occasions leaves the other rows. -/
theorem deleteOccasionRows_eq {deleted : Occasion → Bool}
    (hok : db.deleteOccasionRows deleted = .ok db') :
    db' = { db with occasions := db.occasions.delete deleted } := by
  rw [Database.deleteOccasionRows] at hok
  split at hok
  · cases hok
  · exact (Except.ok.inj hok).symm

/-- An occasion that is left after a deletion was there and is not a deleted one. -/
theorem get_delete_some {deleted : Occasion → Bool} {p : Nat} {o : Occasion}
    (h : (db.occasions.delete deleted).get p = some o) :
    db.occasions.get p = some o ∧ deleted o = false := by
  rw [Table.get_delete, Option.filter_eq_some_iff] at h
  exact ⟨h.1, by simpa using h.2⟩

/-- Deleting rows of occasions, and of events that then have none left, keeps the database
valid. -/
theorem Valid.deleteRows (h : Valid db) (deletedOccasion : Occasion → Bool)
    (deletedEvent : Event → Bool)
    (hcascade : ∀ o event, deletedEvent event = true → o.eventId = event.postId →
      deletedOccasion o = true) :
    Valid { db with
      events := db.events.delete deletedEvent
      occasions := db.occasions.delete deletedOccasion } := by
  have hevent : ∀ p, ((db.events.delete deletedEvent).get p).isSome →
      (db.events.get p).isSome := by
    intro p hp
    obtain ⟨event, hget⟩ := Option.isSome_iff_exists.mp hp
    rw [Table.get_delete, Option.filter_eq_some_iff] at hget
    rw [hget.1]
    rfl
  have hoccasion : ∀ p, ((db.occasions.delete deletedOccasion).get p).isSome →
      (db.occasions.get p).isSome := by
    intro p hp
    obtain ⟨o, hget⟩ := Option.isSome_iff_exists.mp hp
    rw [(get_delete_some hget).1]
    rfl
  refine Shrinks.valid ?_ h
  exact {
    posts := fun p post' hpost' => ⟨post', hpost', .rfl⟩
    events := hevent
    occasions := fun p o ho => ⟨o, (get_delete_some ho).1, rfl⟩
    next := Nat.le_refl _
    eventPost := fun p hp => h.eventPost p (hevent p hp)
    occasionPost := fun p hp => h.occasionPost p (hoccasion p hp)
    occasionEvent := fun p o ho => by
      obtain ⟨hget, hkept⟩ := get_delete_some ho
      obtain ⟨event, hevent⟩ := Option.isSome_iff_exists.mp (h.occasionEvent p o hget)
      have hid : event.postId = o.eventId := Table.key_of_get hevent
      have hnot : deletedEvent event = false := by
        by_contra hdeleted
        have hgone := hcascade o event ((Bool.not_eq_false _).mp hdeleted) hid.symm
        rw [hkept] at hgone
        cases hgone
      rw [Table.get_delete, hevent, Option.filter_some, hnot]
      rfl }

/-- Deleting an event by hand keeps the database valid. -/
theorem Valid.deleteEvent (h : Valid db) (eventId : Nat)
    (hok : db.deleteEvent eventId = .ok db') : Valid db' := by
  rw [Database.deleteEvent] at hok
  cases hrows : db.deleteOccasionRows fun occasion => occasion.eventId = eventId with
  | error e =>
    rw [hrows] at hok
    cases hok
  | ok db1 =>
    rw [hrows] at hok
    obtain rfl := Except.ok.inj hok
    rw [deleteOccasionRows_eq hrows]
    refine h.deleteRows _ (fun event => event.postId = eventId) ?_
    intro o event hdeleted heq
    exact decide_eq_true (heq.trans (of_decide_eq_true hdeleted))

/-- Removing occasions from an event keeps the database valid. -/
theorem Valid.deleteRemovedOccasions (h : Valid db) (eventId : Nat) (keptIds : List Nat)
    (hok : db.deleteRemovedOccasions eventId keptIds = .ok db') : Valid db' := by
  rw [deleteOccasionRows_eq hok]
  have hevents : db.events.delete (fun _ => false) = db.events :=
    Table.delete_eq_self fun _ _ => rfl
  have hvalid := h.deleteRows
    (fun occasion => decide (occasion.eventId = eventId) && !keptIds.contains occasion.postId)
    (fun _ => false) fun _ _ hfalse => by cases hfalse
  rw [hevents] at hvalid
  exact hvalid

/-- Deleting posts with all rows that rest on them keeps the database valid. -/
theorem Valid.deletePosts (h : Valid db) (postIds : List Nat)
    (hok : db.deletePosts postIds = .ok db') : Valid db' := by
  simp only [Database.deletePosts] at hok
  split at hok
  · cases hok
  · obtain rfl := Except.ok.inj hok
    have hpost : ∀ p, p ∉ postIds → (db.posts.delete fun post =>
        postIds.contains post.id).get p = db.posts.get p := by
      intro p hp
      rw [Table.get_delete]
      exact (filter_key_eq_ite (fun post hget => Table.key_of_get hget) postIds).trans (if_neg hp)
    have hevent : ∀ p event, (db.events.delete fun event =>
        postIds.contains event.postId).get p = some event →
        db.events.get p = some event ∧ p ∉ postIds := by
      intro p event hget
      rw [Table.get_delete, Option.filter_eq_some_iff] at hget
      have hid : event.postId = p := Table.key_of_get hget.1
      refine ⟨hget.1, ?_⟩
      simpa [hid] using hget.2
    have hoccasion : ∀ p o, (db.occasions.delete fun occasion =>
        postIds.contains occasion.postId || postIds.contains occasion.eventId).get p = some o →
        db.occasions.get p = some o ∧ p ∉ postIds ∧ o.eventId ∉ postIds := by
      intro p o hget
      obtain ⟨hrow, hkept⟩ := get_delete_some hget
      have hid : o.postId = p := Table.key_of_get hrow
      refine ⟨hrow, ?_⟩
      simpa [hid] using hkept
    refine Shrinks.valid ?_ h
    exact {
      posts := fun p post' hpost' => by
        rw [Table.get_delete, Option.filter_eq_some_iff] at hpost'
        exact ⟨post', hpost'.1, .rfl⟩
      events := fun p hp => by
        obtain ⟨event, hget⟩ := Option.isSome_iff_exists.mp hp
        rw [(hevent p event hget).1]
        rfl
      occasions := fun p o ho => ⟨o, (hoccasion p o ho).1, rfl⟩
      next := Nat.le_refl _
      eventPost := fun p hp => by
        obtain ⟨event, hget⟩ := Option.isSome_iff_exists.mp hp
        obtain ⟨hrow, hout⟩ := hevent p event hget
        rw [hpost p hout]
        exact h.eventPost p (by rw [hrow]; rfl)
      occasionPost := fun p hp => by
        obtain ⟨o, hget⟩ := Option.isSome_iff_exists.mp hp
        obtain ⟨hrow, hout, _⟩ := hoccasion p o hget
        rw [hpost p hout]
        exact h.occasionPost p (by rw [hrow]; rfl)
      occasionEvent := fun p o ho => by
        obtain ⟨hrow, _, hout⟩ := hoccasion p o ho
        obtain ⟨event, hget⟩ := Option.isSome_iff_exists.mp (h.occasionEvent p o hrow)
        have hid : event.postId = o.eventId := Table.key_of_get hget
        rw [Table.get_delete, hget, Option.filter_some, if_pos]
        · rfl
        · simpa [hid] using hout }

/-- Detaching the posts of a source keeps the database valid. -/
theorem Valid.detach (h : Valid db) (sourceId : Nat) :
    Valid { db with
      posts := db.posts.update (fun post => post.syncSourceId = some sourceId)
        (fun post => { post with
          syncSourceId := none
          syncSourceUid := none
          syncSourceRecurrenceAnchor := none })
        (fun _ => rfl) } := by
  generalize hposts : db.posts.update (fun post => post.syncSourceId = some sourceId)
    (fun post => { post with
      syncSourceId := none
      syncSourceUid := none
      syncSourceRecurrenceAnchor := none }) (fun _ => rfl) = posts
  -- a post of the source is detached, and any other stays as it is
  have hget : ∀ p post', posts.get p = some post' → ∃ post, db.posts.get p = some post ∧
      (post' = post ∧ post.syncSourceId ≠ some sourceId ∨
        post'.syncSourceId = none ∧ post'.syncSourceRecurrenceAnchor = none) := by
    intro p post' hpost'
    rw [← hposts, Table.get_update] at hpost'
    obtain ⟨post, hpost, rfl⟩ := Option.map_eq_some_iff.mp hpost'
    refine ⟨post, hpost, ?_⟩
    split
    · exact .inr ⟨rfl, rfl⟩
    · rename_i hother
      exact .inl ⟨rfl, by simpa using hother⟩
  have hsome : ∀ p, (posts.get p).isSome = (db.posts.get p).isSome := by
    intro p
    rw [← hposts, Table.get_update, Option.isSome_map]
  have hkey : ∀ p key, { db with posts := posts }.keyOf p = some key →
      db.keyOf p = some key ∧ key.sourceId ≠ sourceId := by
    intro p key hp
    obtain ⟨post', hpost', hsync⟩ := Option.bind_eq_some_iff.mp hp
    obtain ⟨post, hpost, ⟨rfl, hother⟩ | ⟨hnone, _⟩⟩ := hget p post' hpost'
    · refine ⟨by rw [Database.keyOf, hpost]; exact hsync, ?_⟩
      rintro rfl
      exact hother (Post.syncKey_eq_some_iff.mp hsync).1
    · rw [(Post.syncKey_eq_some_iff.mp hsync).1] at hnone
      cases hnone
  have hkept : ∀ p key, db.keyOf p = some key → key.sourceId ≠ sourceId →
      { db with posts := posts }.keyOf p = some key := by
    intro p key hp hother
    obtain ⟨post, hpost, hsync⟩ := Option.bind_eq_some_iff.mp hp
    have hsource := (Post.syncKey_eq_some_iff.mp hsync).1
    have hnot : ¬ decide (post.syncSourceId = some sourceId) = true := by
      rw [hsource, decide_eq_true_eq, Option.some.injEq]
      exact hother
    rw [Database.keyOf]
    simp only [← hposts]
    rw [Table.get_update, hpost, Option.map_some, if_neg hnot, Option.bind_some, hsync]
  exact {
    fresh := fun p hp => h.fresh p (by rw [← hsome]; exact hp)
    eventPost := fun p hp => by
      rw [hsome]
      exact h.eventPost p hp
    occasionPost := fun p hp => by
      rw [hsome]
      exact h.occasionPost p hp
    occasionEvent := h.occasionEvent
    apart := h.apart
    unique := fun p q key hp hq => h.unique p q key (hkey p key hp).1 (hkey q key hq).1
    named := fun p post' hpost' hsource => by
      obtain ⟨post, hpost, ⟨rfl, _⟩ | ⟨hnone, _⟩⟩ := hget p post' hpost'
      · exact h.named p post' hpost hsource
      · rw [hnone] at hsource
        cases hsource
    anchored := fun p post' hpost' hanchor => by
      obtain ⟨post, hpost, ⟨rfl, _⟩ | ⟨_, hnone⟩⟩ := hget p post' hpost'
      · exact h.anchored p post' hpost hanchor
      · rw [hnone] at hanchor
        cases hanchor
    eventKey := fun p post' hp hpost' hsource => by
      obtain ⟨post, hpost, ⟨rfl, _⟩ | ⟨hnone, _⟩⟩ := hget p post' hpost'
      · exact h.eventKey p post' hp hpost hsource
      · rw [hnone] at hsource
        cases hsource
    occasionKey := fun p o key ho hp => by
      obtain ⟨hold, hother⟩ := hkey p key hp
      obtain ⟨hanchor, hevent⟩ := h.occasionKey p o key ho hold
      exact ⟨hanchor, hkept _ _ hevent hother⟩ }

/-- Deleting a sync source keeps the database valid. -/
theorem Valid.deleteSyncSource (h : Valid db) (sourceId : Nat) (deleteSyncedEvents : Bool)
    (hok : db.deleteSyncSource sourceId deleteSyncedEvents = .ok db') : Valid db' := by
  rw [Database.deleteSyncSource] at hok
  split at hok
  · cases hdelete : db.deletePosts ((db.posts.rows.filter fun post =>
        post.syncSourceId = some sourceId).map (·.id)) with
    | error e =>
      rw [hdelete] at hok
      cases hok
    | ok db1 =>
      rw [hdelete] at hok
      obtain rfl := Except.ok.inj hok
      exact (h.deletePosts _ hdelete).of_rows rfl rfl rfl rfl
  · obtain rfl := Except.ok.inj hok
    exact (h.detach sourceId).of_rows rfl rfl rfl rfl

/-- Bringing a text up to date keeps the database valid. -/
theorem Valid.syncPostText (h : Valid db) (postId : Nat) (title content link : Option String)
    (hok : syncPostText db postId title content link = .ok db') : Valid db' := by
  rw [Sync.syncPostText] at hok
  split at hok
  · cases hok
  · split at hok
    · obtain rfl := Except.ok.inj hok
      have hsame : ∀ post, SameSync post (retext title content link post) :=
        fun _ => ⟨rfl, rfl, rfl, rfl⟩
      exact h.updatePosts _ hsame (fun _ => rfl)
    · obtain rfl := Except.ok.inj hok
      exact h

/-- Creating the post of a feed entry keeps the database valid. -/
theorem Valid.createPostForEntry (h : Valid db) (source : SyncSource) (moderation : Moderation)
    (entry : FeedEntry) (hok : createPostForEntry source moderation db entry = .ok db') :
    Valid db' := by
  obtain ⟨hpost, hevent, hoccasion⟩ := h.get_nextPostId
  obtain ⟨posts, hinsert, hget⟩ := insertPost_ok hpost (newEntryPost source.userId moderation entry)
  simp only [Sync.createPostForEntry, hinsert, bind, Except.bind] at hok
  split at hok
  · cases hok
  by_cases hfree : ∀ p, p ≠ db.nextPostId →
      { db with posts := posts, nextPostId := db.nextPostId + 1 }.keyOf p ≠
        some ⟨source.id, entry.id, none⟩
  · obtain ⟨keyed, hset, hkeyed⟩ := setSyncKey_ok hfree
    rw [hset] at hok
    obtain rfl := Except.ok.inj hok
    have hadds : Adds { newEntryPost source.userId moderation entry with
          id := db.nextPostId
          syncSourceId := some source.id
          syncSourceUid := some entry.id } none none db
        { db with posts := keyed, nextPostId := db.nextPostId + 1 } := by
      refine ⟨fun p => ?_, fun p => ?_, fun p => ?_, rfl, rfl⟩
      · rw [hkeyed, hget]
        by_cases hp : p = db.nextPostId
        · rw [if_pos hp, if_pos hp, if_pos hp]
          rfl
        · rw [if_neg hp, if_neg hp, if_neg hp]
      · by_cases hp : p = db.nextPostId
        · rw [if_pos hp, hp]
          exact hevent
        · rw [if_neg hp]
      · by_cases hp : p = db.nextPostId
        · rw [if_pos hp, hp]
          exact hoccasion
        · rw [if_neg hp]
    refine hadds.valid ⟨fun _ => rfl, ?_, ?_, ?_, ?_⟩ h
    · intro hanchor
      cases hanchor
    · intro p key hsync hkey
      have hnew : some (⟨source.id, entry.id, none⟩ : SyncKey) = some key := hsync
      obtain rfl := Option.some.inj hnew
      have hp : p ≠ db.nextPostId := Nat.ne_of_lt (h.lt_of_key hkey)
      refine hfree p hp ?_
      rw [Database.keyOf, hget, if_neg hp]
      exact hkey
    · intro hnone
      cases hnone
    · intro o ho
      cases ho
  · have htaken : ¬ Database.syncKeyTaken
        { db with posts := posts, nextPostId := db.nextPostId + 1 } db.nextPostId source.id
        entry.id none = false := mt syncKeyTaken_eq_false_iff.mp hfree
    rw [Database.setSyncKey, if_pos ((Bool.not_eq_false _).mp htaken)] at hok
    cases hok

/-- A sync of a feed keeps the database valid. -/
theorem Valid.syncFeed (h : Valid db) (source : SyncSource)
    (config : Option ServerConfiguration) (entries : List FeedEntry)
    (hok : syncFeed source config entries db = .ok db') : Valid db' := by
  rw [Sync.syncFeed] at hok
  cases hfold : entries.foldlM (syncEntry source (defaultPostModeration config)
      (existingPostIdsByUid db source.id)) db with
  | error e =>
    rw [hfold] at hok
    cases hok
  | ok db1 =>
    rw [hfold] at hok
    obtain rfl := Except.ok.inj hok
    have h1 : Valid db1 := by
      refine foldlM_invariant ?_ h hfold
      intro before entry after hbefore hentry
      rw [syncEntry] at hentry
      split at hentry
      · obtain rfl := Except.ok.inj hentry
        exact hbefore
      · split at hentry
        · exact hbefore.syncPostText _ _ _ _ hentry
        · exact hbefore.createPostForEntry _ _ _ hentry
    exact h1.of_rows rfl rfl rfl rfl

/-- What succeeds with a value is that value. -/
theorem ok_of_toOption {ε α : Type} {result : Except ε α} {value : α}
    (h : result.toOption = some value) : result = .ok value := by
  cases result with
  | error e => cases h
  | ok found =>
    obtain rfl := Option.some.inj h
    rfl

/-- Every action keeps a database valid. -/
theorem step_valid (h : Valid db) (action : Action) : Valid (step crates db action) := by
  have hok : ∀ db', perform crates db action = some db' → Valid db' := by
    intro db' hperform
    cases action with
    | syncCalendar order call =>
      exact (writes_of_ok h (ok_of_toOption hperform)).2.2.valid
    | syncFeed source config entries =>
      exact h.syncFeed source config entries (ok_of_toOption hperform)
    | putSyncSource source =>
      obtain rfl := Option.some.inj hperform
      exact h.of_rows rfl rfl rfl rfl
    | deleteSyncSource sourceId deleteSyncedEvents =>
      exact h.deleteSyncSource sourceId deleteSyncedEvents
        (ok_of_toOption hperform)
    | createPost columns =>
      obtain ⟨posts, hinsert, _, hvalid⟩ := h.insertPost columns
      rw [perform, hinsert] at hperform
      obtain rfl := Option.some.inj hperform
      exact hvalid
    | createEvent columns =>
      exact h.createEvent columns (ok_of_toOption hperform)
    | createOccasion columns eventId startsAt endsAt location timezone =>
      exact h.createOccasion columns eventId startsAt endsAt location timezone
        (ok_of_toOption hperform)
    | editPost postId columns =>
      obtain rfl := Option.some.inj hperform
      have hsame : ∀ post : Post, SameSync post
          { post with toNewPost := { columns with context := post.context } } :=
        fun _ => ⟨rfl, rfl, rfl, rfl⟩
      exact h.updatePosts _ hsame (fun _ => rfl)
    | editOccasion eventId postId startsAt endsAt location timezone =>
      exact h.editOccasion eventId postId startsAt endsAt location timezone
        (ok_of_toOption hperform)
    | deleteEvent eventId =>
      exact h.deleteEvent eventId (ok_of_toOption hperform)
    | deleteRemovedOccasions eventId keptIds =>
      exact h.deleteRemovedOccasions eventId keptIds (ok_of_toOption hperform)
    | sharePost postId =>
      obtain rfl := Option.some.inj hperform
      exact h.of_rows rfl rfl rfl rfl
    | shareOccasion postId =>
      obtain rfl := Option.some.inj hperform
      exact h.of_rows rfl rfl rfl rfl
  rw [step]
  cases hperform : perform crates db action with
  | none => exact h
  | some db' => exact hok db' hperform

/-- Every reachable database is valid. -/
theorem Reachable.valid (h : Reachable crates db) : Valid db := by
  obtain ⟨actions, rfl⟩ := h
  exact run_invariant_of_all (I := Valid) (fun _ action hdb => step_valid hdb action) fresh_valid
    actions

end

end Rellm.Sync
