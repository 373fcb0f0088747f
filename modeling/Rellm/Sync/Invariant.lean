import Rellm.Sync.EventSync

/-!
# What holds of every database

Keys and foreign keys, and what syncing itself maintains: a synced post has a
UID, an event's post has no anchor, and an occasion's post has the UID of its
event. Deleting rows and rewriting other columns keeps all of it.
-/

namespace Rellm.Sync

open Foundation Calendar

/-- What a source knows one of its posts by. -/
structure SyncKey where
  sourceId : Nat
  uid : String
  anchor : Option Instant
  deriving DecidableEq, Repr

/-- The sync key of a post, if it is synced. -/
def Post.syncKey (post : Post) : Option SyncKey :=
  post.syncSourceId.bind fun sourceId => post.syncSourceUid.map fun uid =>
    ⟨sourceId, uid, post.syncSourceRecurrenceAnchor⟩

/-- The sync key of the post with an id. -/
def Database.keyOf (db : Database) (postId : Nat) : Option SyncKey :=
  (db.posts.get postId).bind Post.syncKey

/-- The post has the source, the UID and the anchor of its key. -/
theorem Post.syncKey_eq_some_iff {post : Post} {key : SyncKey} :
    post.syncKey = some key ↔ post.syncSourceId = some key.sourceId ∧
      post.syncSourceUid = some key.uid ∧ post.syncSourceRecurrenceAnchor = key.anchor := by
  obtain ⟨sourceId, uid, anchor⟩ := key
  rw [syncKey]
  cases post.syncSourceId <;> cases post.syncSourceUid <;> simp

/-- Keys and foreign keys hold, and synced rows fit together. -/
structure Valid (db : Database) : Prop where
  fresh : ∀ p, (db.posts.get p).isSome → p < db.nextPostId
  eventPost : ∀ p, (db.events.get p).isSome → (db.posts.get p).isSome
  occasionPost : ∀ p, (db.occasions.get p).isSome → (db.posts.get p).isSome
  occasionEvent : ∀ p o, db.occasions.get p = some o → (db.events.get o.eventId).isSome
  apart : ∀ p, (db.events.get p).isSome → db.occasions.get p = none
  unique : ∀ p q key, db.keyOf p = some key → db.keyOf q = some key → p = q
  named : ∀ p post, db.posts.get p = some post → post.syncSourceId.isSome →
    post.syncSourceUid.isSome
  anchored : ∀ p post, db.posts.get p = some post →
    post.syncSourceRecurrenceAnchor.isSome → post.syncSourceId.isSome ∧ post.context = .occasion
  eventKey : ∀ p post, (db.events.get p).isSome → db.posts.get p = some post →
    post.syncSourceId.isSome → post.context = .event ∧ post.syncSourceRecurrenceAnchor = none
  occasionKey : ∀ p o key, db.occasions.get p = some o → db.keyOf p = some key →
    key.anchor.isSome ∧ db.keyOf o.eventId = some ⟨key.sourceId, key.uid, none⟩

/-- Only the rows of posts, events and occasions matter. -/
theorem Valid.of_rows {db db' : Database} (h : Valid db) (hposts : db'.posts = db.posts)
    (hevents : db'.events = db.events) (hoccasions : db'.occasions = db.occasions)
    (hnext : db'.nextPostId = db.nextPostId) : Valid db' := by
  obtain ⟨_, posts, events, occasions, _, _, next⟩ := db'
  subst hposts hevents hoccasions hnext
  exact ⟨h.fresh, h.eventPost, h.occasionPost, h.occasionEvent, h.apart, h.unique, h.named,
    h.anchored, h.eventKey, h.occasionKey⟩

/-- Every event or occasion post of a source has its row. -/
def NoOrphans (db : Database) (sourceId : Nat) : Prop :=
  ∀ p post, db.posts.get p = some post → post.syncSourceId = some sourceId →
    (post.context = .event → (db.events.get p).isSome) ∧
    (post.context = .occasion → (db.occasions.get p).isSome)

/-- Two posts that agree on everything syncing looks them up by. -/
structure SameSync (post post' : Post) : Prop where
  sourceId : post'.syncSourceId = post.syncSourceId
  uid : post'.syncSourceUid = post.syncSourceUid
  anchor : post'.syncSourceRecurrenceAnchor = post.syncSourceRecurrenceAnchor
  context : post'.context = post.context

namespace SameSync

theorem rfl {post : Post} : SameSync post post := ⟨Eq.refl _, Eq.refl _, Eq.refl _, Eq.refl _⟩

theorem syncKey {post post' : Post} (h : SameSync post post') : post'.syncKey = post.syncKey := by
  rw [Post.syncKey, Post.syncKey, h.sourceId, h.uid, h.anchor]

end SameSync

/-- Rows of one database are rows of another, perhaps with other columns rewritten,
and the foreign keys still hold. -/
structure Shrinks (db db' : Database) : Prop where
  posts : ∀ p post', db'.posts.get p = some post' →
    ∃ post, db.posts.get p = some post ∧ SameSync post post'
  events : ∀ p, (db'.events.get p).isSome → (db.events.get p).isSome
  occasions : ∀ p o', db'.occasions.get p = some o' →
    ∃ o, db.occasions.get p = some o ∧ o'.eventId = o.eventId
  next : db.nextPostId ≤ db'.nextPostId
  eventPost : ∀ p, (db'.events.get p).isSome → (db'.posts.get p).isSome
  occasionPost : ∀ p, (db'.occasions.get p).isSome → (db'.posts.get p).isSome
  occasionEvent : ∀ p o, db'.occasions.get p = some o → (db'.events.get o.eventId).isSome

namespace Shrinks

variable {db db' : Database}

/-- A post that survives keeps its key. -/
theorem keyOf (h : Shrinks db db') {p : Nat} (hp : (db'.posts.get p).isSome) :
    db'.keyOf p = db.keyOf p := by
  obtain ⟨post', hpost'⟩ := Option.isSome_iff_exists.mp hp
  obtain ⟨post, hpost, hsame⟩ := h.posts p post' hpost'
  rw [Database.keyOf, Database.keyOf, hpost', hpost, Option.bind_some, Option.bind_some,
    hsame.syncKey]

/-- A key that is present was present before. -/
theorem keyOf_of_some (h : Shrinks db db') {p : Nat} {key : SyncKey}
    (hkey : db'.keyOf p = some key) : db.keyOf p = some key := by
  have hp : (db'.posts.get p).isSome := by
    obtain ⟨post', hpost', _⟩ := Option.bind_eq_some_iff.mp hkey
    exact Option.isSome_iff_exists.mpr ⟨post', hpost'⟩
  rw [← h.keyOf hp, hkey]

/-- Fewer rows of a valid database are a valid database. -/
theorem valid (h : Shrinks db db') (hdb : Valid db) : Valid db' where
  fresh p hp := by
    obtain ⟨post', hpost'⟩ := Option.isSome_iff_exists.mp hp
    obtain ⟨post, hpost, _⟩ := h.posts p post' hpost'
    exact Nat.lt_of_lt_of_le (hdb.fresh p (Option.isSome_iff_exists.mpr ⟨post, hpost⟩)) h.next
  eventPost := h.eventPost
  occasionPost := h.occasionPost
  occasionEvent := h.occasionEvent
  apart p hp := by
    cases ho : db'.occasions.get p with
    | none => rfl
    | some o' =>
      obtain ⟨o, hget, _⟩ := h.occasions p o' ho
      rw [hdb.apart p (h.events p hp)] at hget
      cases hget
  unique p q key hp hq := hdb.unique p q key (h.keyOf_of_some hp) (h.keyOf_of_some hq)
  named p post' hpost' hsource := by
    obtain ⟨post, hpost, hsame⟩ := h.posts p post' hpost'
    rw [hsame.uid]
    rw [hsame.sourceId] at hsource
    exact hdb.named p post hpost hsource
  anchored p post' hpost' hanchor := by
    obtain ⟨post, hpost, hsame⟩ := h.posts p post' hpost'
    rw [hsame.sourceId, hsame.context]
    rw [hsame.anchor] at hanchor
    exact hdb.anchored p post hpost hanchor
  eventKey p post' hp hpost' hsource := by
    obtain ⟨post, hpost, hsame⟩ := h.posts p post' hpost'
    rw [hsame.context, hsame.anchor]
    rw [hsame.sourceId] at hsource
    exact hdb.eventKey p post (h.events p hp) hpost hsource
  occasionKey p o' key ho' hkey := by
    obtain ⟨o, ho, heventId⟩ := h.occasions p o' ho'
    obtain ⟨hanchor, hevent⟩ := hdb.occasionKey p o key ho (h.keyOf_of_some hkey)
    refine ⟨hanchor, ?_⟩
    rw [h.keyOf (h.eventPost _ (h.occasionEvent p o' ho')), heventId]
    exact hevent

end Shrinks

/-- Nothing becomes an orphan when the posts that are left keep their rows. -/
theorem NoOrphans.shrink {db db' : Database} {sourceId : Nat} (h : NoOrphans db sourceId)
    (hshrinks : Shrinks db db')
    (hevents : ∀ p, (db'.posts.get p).isSome → (db.events.get p).isSome →
      (db'.events.get p).isSome)
    (hoccasions : ∀ p, (db'.posts.get p).isSome → (db.occasions.get p).isSome →
      (db'.occasions.get p).isSome) : NoOrphans db' sourceId := by
  intro p post' hpost' hsource
  obtain ⟨post, hpost, hsame⟩ := hshrinks.posts p post' hpost'
  rw [hsame.sourceId] at hsource
  have hsome : (db'.posts.get p).isSome := Option.isSome_iff_exists.mpr ⟨post', hpost'⟩
  rw [hsame.context]
  obtain ⟨hevent, hoccasion⟩ := h p post hpost hsource
  exact ⟨fun hcontext => hevents p hsome (hevent hcontext),
    fun hcontext => hoccasions p hsome (hoccasion hcontext)⟩

/-- One post was added under the next id, perhaps with the event or the occasion that
rests on it. -/
structure Adds (post : Post) (event : Option Event) (occasion : Option Occasion)
    (db db' : Database) : Prop where
  posts : ∀ p, db'.posts.get p = if p = db.nextPostId then some post else db.posts.get p
  events : ∀ p, db'.events.get p = if p = db.nextPostId then event else db.events.get p
  occasions : ∀ p, db'.occasions.get p =
    if p = db.nextPostId then occasion else db.occasions.get p
  next : db'.nextPostId = db.nextPostId + 1
  syncSources : db'.syncSources = db.syncSources

/-- What a new post, event and occasion must satisfy to fit into a database. -/
structure Fits (db : Database) (post : Post) (event : Option Event)
    (occasion : Option Occasion) : Prop where
  named : post.syncSourceId.isSome → post.syncSourceUid.isSome
  anchored : post.syncSourceRecurrenceAnchor.isSome →
    post.syncSourceId.isSome ∧ post.context = .occasion
  free : ∀ p key, post.syncKey = some key → db.keyOf p ≠ some key
  event : event.isSome → occasion = none ∧ (post.syncSourceId.isSome →
    post.context = .event ∧ post.syncSourceRecurrenceAnchor = none)
  occasion : ∀ o, occasion = some o → (db.events.get o.eventId).isSome ∧
    ∀ key, post.syncKey = some key →
      key.anchor.isSome ∧ db.keyOf o.eventId = some ⟨key.sourceId, key.uid, none⟩

/-- A fresh id has no post, no event and no occasion. -/
theorem Valid.get_nextPostId {db : Database} (h : Valid db) :
    db.posts.get db.nextPostId = none ∧ db.events.get db.nextPostId = none ∧
      db.occasions.get db.nextPostId = none := by
  have hpost : ¬ (db.posts.get db.nextPostId).isSome := fun hsome =>
    Nat.lt_irrefl _ (h.fresh _ hsome)
  refine ⟨by simpa using hpost, ?_, ?_⟩
  · have hevent := mt (h.eventPost db.nextPostId) hpost
    simpa using hevent
  · have hoccasion := mt (h.occasionPost db.nextPostId) hpost
    simpa using hoccasion

namespace Adds

variable {post : Post} {event : Option Event} {occasion : Option Occasion} {db db' : Database}

/-- The new post has its own key and every other post keeps its. -/
theorem keyOf (h : Adds post event occasion db db') (p : Nat) :
    db'.keyOf p = if p = db.nextPostId then post.syncKey else db.keyOf p := by
  rw [Database.keyOf, h.posts]
  split <;> rfl

/-- An event that exists is not the new one. -/
theorem keyOf_event (h : Adds post event occasion db db') (hdb : Valid db) {e : Nat}
    (he : (db.events.get e).isSome) : db'.keyOf e = db.keyOf e := by
  rw [h.keyOf, if_neg]
  rintro rfl
  rw [hdb.get_nextPostId.2.1] at he
  cases he

/-- A valid database stays valid when what is added fits. -/
theorem valid (h : Adds post event occasion db db') (hfits : Fits db post event occasion)
    (hdb : Valid db) : Valid db' where
  fresh p hp := by
    rw [h.posts] at hp
    rw [h.next]
    split at hp
    · omega
    · exact Nat.lt_succ_of_lt (hdb.fresh p hp)
  eventPost p hp := by
    rw [h.events] at hp
    rw [h.posts]
    split
    · rfl
    · rw [if_neg ‹_›] at hp
      exact hdb.eventPost p hp
  occasionPost p hp := by
    rw [h.occasions] at hp
    rw [h.posts]
    split
    · rfl
    · rw [if_neg ‹_›] at hp
      exact hdb.occasionPost p hp
  occasionEvent p o ho := by
    have hold : (db.events.get o.eventId).isSome := by
      rw [h.occasions] at ho
      split at ho
      · exact (hfits.occasion o ho).1
      · exact hdb.occasionEvent p o ho
    rw [h.events, if_neg]
    · exact hold
    · intro hnew
      rw [hnew, hdb.get_nextPostId.2.1] at hold
      cases hold
  apart p hp := by
    rw [h.events] at hp
    rw [h.occasions]
    split at hp
    · rw [if_pos ‹_›]
      exact (hfits.event hp).1
    · rw [if_neg ‹_›]
      exact hdb.apart p hp
  unique p q key hp hq := by
    rw [h.keyOf] at hp hq
    split at hp <;> split at hq
    · omega
    · exact absurd hq (hfits.free q key hp)
    · exact absurd hp (hfits.free p key hq)
    · exact hdb.unique p q key hp hq
  named p post' hpost hsource := by
    rw [h.posts] at hpost
    split at hpost
    · obtain rfl := Option.some.inj hpost
      exact hfits.named hsource
    · exact hdb.named p post' hpost hsource
  anchored p post' hpost hanchor := by
    rw [h.posts] at hpost
    split at hpost
    · obtain rfl := Option.some.inj hpost
      exact hfits.anchored hanchor
    · exact hdb.anchored p post' hpost hanchor
  eventKey p post' hp hpost hsource := by
    rw [h.events] at hp
    rw [h.posts] at hpost
    split at hpost
    · rw [if_pos ‹_›] at hp
      obtain rfl := Option.some.inj hpost
      exact (hfits.event hp).2 hsource
    · rw [if_neg ‹_›] at hp
      exact hdb.eventKey p post' hp hpost hsource
  occasionKey p o key ho hkey := by
    rw [h.occasions] at ho
    rw [h.keyOf] at hkey
    split at ho
    · rw [if_pos ‹_›] at hkey
      obtain ⟨hevent, hown⟩ := hfits.occasion o ho
      rw [h.keyOf_event hdb hevent]
      exact hown key hkey
    · rw [if_neg ‹_›] at hkey
      rw [h.keyOf_event hdb (hdb.occasionEvent p o ho)]
      exact hdb.occasionKey p o key ho hkey

/-- Nothing becomes an orphan when the new post has the row its context asks for. -/
theorem noOrphans (h : Adds post event occasion db db') {sourceId : Nat}
    (hdb : NoOrphans db sourceId) (hevent : post.context = .event → event.isSome)
    (hoccasion : post.context = .occasion → occasion.isSome) : NoOrphans db' sourceId := by
  intro p post' hpost hsource
  rw [h.posts] at hpost
  rw [h.events, h.occasions]
  split at hpost
  · rw [if_pos ‹_›, if_pos ‹_›]
    obtain rfl := Option.some.inj hpost
    exact ⟨hevent, hoccasion⟩
  · rw [if_neg ‹_›, if_neg ‹_›]
    exact hdb p post' hpost hsource

end Adds

end Rellm.Sync
