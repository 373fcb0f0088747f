import Rellm.Foundation.Checks
import Rellm.Sync.Reachable

/-!
# Syncing a feed

The entries of an RSS or Atom feed become posts of the source, one for each id. A sync matches them
with the posts that were there before it, so that an id which is new and listed twice fails it.
-/

namespace Rellm.Sync

open Foundation Calendar

/-- An entry as the parser of feeds gives it. -/
structure ParsedEntry where
  id : String
  title : Option String
  content : Option (Option String)
  summary : Option String
  links : List String
  deriving DecidableEq, Repr

/-- The full content of an entry, or else its summary. -/
def entryContent (entry : ParsedEntry) : Option String := entry.content.join.or entry.summary

/-- What of an entry is stored. -/
def ParsedEntry.stored (entry : ParsedEntry) : FeedEntry :=
  ⟨entry.id, entry.title, entryContent entry, entry.links.head?⟩

/-- Parses a feed and upserts its entries. -/
def syncFeedText (parse : String → Option (List ParsedEntry)) (source : SyncSource)
    (config : Option ServerConfiguration) (feedText : String) (db : Database) :
    Except Status Database :=
  match parse feedText with
  | none => .error ⟨.failedPrecondition, "feed_parse_failed"⟩
  | some entries =>
    match syncFeed source config (entries.map ParsedEntry.stored) db with
    | .ok db => .ok db
    | .error _ => .error ⟨.internal, "failed_to_sync_source"⟩

/-- The counter of a source is brought up to date. -/
def Database.countPosts (db : Database) (sourceId : Nat) : Database :=
  { db with
    syncSources := db.syncSources.update (fun row => row.id = sourceId)
      (fun row => { row with
        postCount := db.posts.rows.countP fun post => post.syncSourceId = some sourceId })
      (fun _ => rfl) }

def FeedEntry.isNamed (entry : FeedEntry) : Bool := !(trim entry.id).isEmpty

/-- The ids of the entries that are synced. -/
def listedIds (entries : List FeedEntry) : List String :=
  (entries.filter (·.isNamed)).map (·.id)

/-- The ids without a post before the sync. -/
def newIds (existing : HashMap String Nat) (entries : List FeedEntry) : List String :=
  (listedIds entries).filter fun uid => (existing.value uid).isNone

/-- The last entry with an id. -/
def lastEntry (entries : List FeedEntry) (uid : String) : Option FeedEntry :=
  entries.reverse.find? fun entry => entry.isNamed && entry.id = uid

/-- A post of the source has the text of the last entry with its id. -/
def Post.syncedWith (sourceId : Nat) (entries : List FeedEntry) (post : Post) : Post :=
  if post.syncSourceId = some sourceId then
    match post.syncSourceUid.bind (lastEntry entries) with
    | some entry => retext entry.title entry.content entry.link post
    | none => post
  else post

/-- The post that is created for an entry. -/
def entryPost (source : SyncSource) (moderation : Moderation) (entry : FeedEntry) (id : Nat) :
    Post :=
  { newEntryPost source.userId moderation entry with
    id := id
    syncSourceId := some source.id
    syncSourceUid := some entry.id }

/-- The source is there, its posts have no anchors, and a map names the posts with their ids. -/
structure FeedKnown (source : SyncSource) (existing : HashMap String Nat) (db : Database) :
    Prop where
  valid : Valid db
  present : (db.syncSources.get source.id).isSome = true
  anchors : ∀ p key, db.keyOf p = some key → key.sourceId = source.id → key.anchor = none
  known : ∀ uid p, existing.value uid = some p → db.keyOf p = some ⟨source.id, uid, none⟩

/-- What the entries of a feed leave of the posts. -/
structure FeedWritten (source : SyncSource) (moderation : Moderation)
    (existing : HashMap String Nat) (entries : List FeedEntry) (db db' : Database) : Prop where
  known : FeedKnown source existing db'
  old : ∀ p, p < db.nextPostId →
    db'.posts.get p = (db.posts.get p).map (Post.syncedWith source.id entries)
  new : ∀ p post, db.nextPostId ≤ p → db'.posts.get p = some post →
    ∃ entry, lastEntry entries entry.id = some entry ∧ existing.value entry.id = none ∧
      post = entryPost source moderation entry p
  created : ∀ uid ∈ newIds existing entries, ∃ p, db'.keyOf p = some ⟨source.id, uid, none⟩

section

variable {source : SyncSource} {moderation : Moderation} {existing : HashMap String Nat}
variable {entry : FeedEntry} {entries : List FeedEntry} {db db' : Database} {uid : String}

theorem mem_listedIds :
    uid ∈ listedIds entries ↔ ∃ entry ∈ entries, entry.isNamed = true ∧ entry.id = uid := by
  simp only [listedIds, List.mem_map, List.mem_filter, and_assoc]

theorem mem_newIds :
    uid ∈ newIds existing entries ↔ uid ∈ listedIds entries ∧ existing.value uid = none := by
  rw [newIds, List.mem_filter, Option.isNone_iff_eq_none]

theorem lastEntry_eq_some (h : lastEntry entries uid = some entry) :
    entry ∈ entries ∧ entry.isNamed = true ∧ entry.id = uid := by
  have hfound := List.find?_some h
  rw [Bool.and_eq_true, decide_eq_true_iff] at hfound
  exact ⟨List.mem_reverse.mp (List.mem_of_find?_eq_some h), hfound⟩

theorem lastEntry_eq_none : lastEntry entries uid = none ↔ uid ∉ listedIds entries := by
  rw [lastEntry, List.find?_eq_none, mem_listedIds]
  simp only [List.mem_reverse, Bool.and_eq_true, decide_eq_true_iff]
  exact ⟨fun h ⟨entry, hmem, hnamed⟩ => h entry hmem hnamed,
    fun h entry hmem hnamed => h ⟨entry, hmem, hnamed⟩⟩

theorem lastEntry_cons :
    lastEntry (entry :: entries) uid = (lastEntry entries uid).or
      (if entry.isNamed && entry.id = uid then some entry else none) := by
  rw [lastEntry, List.reverse_cons, List.find?_append, lastEntry, List.find?_singleton]

theorem syncedWith_nil (post : Post) : post.syncedWith source.id [] = post := by
  unfold Post.syncedWith
  split
  · cases post.syncSourceUid <;> rfl
  · rfl

/-- An entry with another id leaves a post. -/
theorem syncedWith_cons_of_ne {post : Post}
    (h : entry.isNamed = true → post.syncSourceId = some source.id →
      post.syncSourceUid ≠ some entry.id) :
    post.syncedWith source.id (entry :: entries) = post.syncedWith source.id entries := by
  unfold Post.syncedWith
  by_cases hsource : post.syncSourceId = some source.id
  · rw [if_pos hsource, if_pos hsource]
    cases huid : post.syncSourceUid with
    | none => rfl
    | some uid =>
      have hne : (entry.isNamed && decide (entry.id = uid)) = false := by
        rw [Bool.and_eq_false_iff, decide_eq_false_iff_not]
        by_cases hnamed : entry.isNamed = true
        · exact .inr fun heq => h hnamed hsource (heq ▸ huid)
        · exact .inl (Bool.not_eq_true _ ▸ hnamed)
      rw [Option.bind_some, Option.bind_some, lastEntry_cons, hne, if_neg Bool.false_ne_true,
        Option.or_none]
  · rw [if_neg hsource, if_neg hsource]

/-- The last entry with the id of a post decides its text, whatever it was before. -/
theorem syncedWith_retext {post : Post} (hnamed : entry.isNamed = true)
    (hsource : post.syncSourceId = some source.id) (huid : post.syncSourceUid = some entry.id) :
    (retext entry.title entry.content entry.link post).syncedWith source.id entries =
      post.syncedWith source.id (entry :: entries) := by
  have hentry : (entry.isNamed && decide (entry.id = entry.id)) = true := by
    rw [hnamed, decide_eq_true rfl, Bool.and_self]
  have hsource' : (retext entry.title entry.content entry.link post).syncSourceId =
      some source.id := hsource
  have huid' : (retext entry.title entry.content entry.link post).syncSourceUid =
      some entry.id := huid
  rw [Post.syncedWith, if_pos hsource', huid', Post.syncedWith, if_pos hsource, huid,
    Option.bind_some, Option.bind_some, lastEntry_cons, if_pos hentry]
  cases lastEntry entries entry.id with
  | none => rfl
  | some last => rfl

@[simp] theorem syncedWith_syncKey (post : Post) :
    (post.syncedWith source.id entries).syncKey = post.syncKey := by
  unfold Post.syncedWith
  split
  · split <;> rfl
  · rfl

variable (moderation) in
/-- The post of an entry can be created for a source that is there, under an id without a post. -/
theorem createPostForEntry_ok (h : FeedKnown source existing db)
    (hfree : ∀ p, db.keyOf p ≠ some ⟨source.id, entry.id, none⟩) :
    ∃ db', createPostForEntry source moderation db entry = .ok db' ∧
      (∀ p, db'.posts.get p = if p = db.nextPostId then
        some (entryPost source moderation entry db.nextPostId) else db.posts.get p) ∧
      db'.nextPostId = db.nextPostId + 1 ∧ db'.syncSources = db.syncSources := by
  obtain ⟨hpost, _, _⟩ := h.valid.get_nextPostId
  obtain ⟨posts, hinsert, hget⟩ := insertPost_ok hpost (newEntryPost source.userId moderation entry)
  have hothers : ∀ p, p ≠ db.nextPostId →
      { db with posts := posts, nextPostId := db.nextPostId + 1 }.keyOf p ≠
        some ⟨source.id, entry.id, none⟩ := by
    intro p hp
    rw [Database.keyOf, hget, if_neg hp]
    exact hfree p
  obtain ⟨keyed, hset, hkeyed⟩ := setSyncKey_ok hothers
  refine ⟨{ db with posts := keyed, nextPostId := db.nextPostId + 1 }, ?_, fun p => ?_, rfl, rfl⟩
  · have hsource : ¬ (db.syncSources.get source.id).isNone = true := by
      rw [Option.isNone_eq_false_iff.mpr h.present]
      exact Bool.false_ne_true
    rw [createPostForEntry, hinsert]
    exact (if_neg hsource).trans hset
  · rw [hkeyed, hget]
    by_cases hp : p = db.nextPostId
    · rw [if_pos hp, if_pos hp, if_pos hp]
      rfl
    · rw [if_neg hp, if_neg hp, if_neg hp]

/-- No second post of an id can be created. -/
theorem free_of_createPostForEntry (h : Valid db)
    (hok : createPostForEntry source moderation db entry = .ok db') (p : Nat) :
    db.keyOf p ≠ some ⟨source.id, entry.id, none⟩ := by
  intro hkey
  obtain ⟨hpost, _, _⟩ := h.get_nextPostId
  obtain ⟨posts, hinsert, hget⟩ := insertPost_ok hpost (newEntryPost source.userId moderation entry)
  have hp : p ≠ db.nextPostId := Nat.ne_of_lt (h.lt_of_key hkey)
  have htaken : Database.syncKeyTaken { db with posts := posts, nextPostId := db.nextPostId + 1 }
      db.nextPostId source.id entry.id none = true := by
    by_contra hfree
    refine syncKeyTaken_eq_false_iff.mp ((Bool.not_eq_true _).mp hfree) p hp ?_
    rw [Database.keyOf, hget, if_neg hp]
    exact hkey
  simp only [createPostForEntry, hinsert, bind, Except.bind, Database.setSyncKey, htaken,
    if_true] at hok
  split at hok <;> cases hok

/-- What a new post changes of the ids. -/
theorem keyOf_of_created
    (hget : ∀ p, db'.posts.get p = if p = db.nextPostId then
      some (entryPost source moderation entry db.nextPostId) else db.posts.get p) (p : Nat) :
    db'.keyOf p = if p = db.nextPostId then some ⟨source.id, entry.id, none⟩ else db.keyOf p := by
  rw [Database.keyOf, hget]
  split <;> rfl

/-- What is known stays so with another post of the source. -/
theorem FeedKnown.create (h : FeedKnown source existing db)
    (hok : createPostForEntry source moderation db entry = .ok db')
    (hget : ∀ p, db'.posts.get p = if p = db.nextPostId then
      some (entryPost source moderation entry db.nextPostId) else db.posts.get p)
    (hsources : db'.syncSources = db.syncSources) : FeedKnown source existing db' := by
  refine ⟨h.valid.createPostForEntry source moderation entry hok, hsources ▸ h.present, ?_, ?_⟩
  · intro p key hkey hown
    rw [keyOf_of_created hget] at hkey
    split at hkey
    · cases hkey
      rfl
    · exact h.anchors p key hkey hown
  · intro uid p hvalue
    have hkey := h.known uid p hvalue
    rw [keyOf_of_created hget, if_neg (Nat.ne_of_lt (h.valid.lt_of_key hkey))]
    exact hkey

/-- What is known stays so with another text. -/
theorem FeedKnown.retext (h : FeedKnown source existing db) {postId : Nat}
    {title content link : Option String}
    (hok : syncPostText db postId title content link = .ok db')
    (hkeys : ∀ p, db'.keyOf p = db.keyOf p) (hsources : db'.syncSources = db.syncSources) :
    FeedKnown source existing db' := by
  refine ⟨h.valid.syncPostText postId title content link hok, hsources ▸ h.present, ?_, ?_⟩
  · intro p key hkey
    rw [hkeys] at hkey
    exact h.anchors p key hkey
  · intro uid p hvalue
    rw [hkeys]
    exact h.known uid p hvalue

/-- Entries in front of which one was written that leaves all posts but one. -/
theorem map_syncedWith_cons (h : FeedKnown source existing db) {q : Nat}
    (hkey : entry.isNamed = true → ∀ p, db.keyOf p = some ⟨source.id, entry.id, none⟩ → p = q)
    {p : Nat} (hp : p ≠ q) :
    (db.posts.get p).map (Post.syncedWith source.id (entry :: entries)) =
      (db.posts.get p).map (Post.syncedWith source.id entries) := by
  cases hpost : db.posts.get p with
  | none => rfl
  | some post =>
    rw [Option.map_some, Option.map_some, syncedWith_cons_of_ne]
    intro hnamed hsource huid
    have hpostKey : db.keyOf p = some ⟨source.id, entry.id, post.syncSourceRecurrenceAnchor⟩ := by
      rw [Database.keyOf, hpost, Option.bind_some]
      exact Post.syncKey_eq_some_iff.mpr ⟨hsource, huid, rfl⟩
    have hanchor : post.syncSourceRecurrenceAnchor = none := h.anchors p _ hpostKey rfl
    rw [hanchor] at hpostKey
    exact hp (hkey hnamed p hpostKey)

theorem newIds_cons :
    newIds existing (entry :: entries) =
      if entry.isNamed = true ∧ existing.value entry.id = none then
        entry.id :: newIds existing entries
      else newIds existing entries := by
  by_cases hnamed : entry.isNamed = true
  · cases hvalue : existing.value entry.id <;> simp [newIds, listedIds, hnamed, hvalue]
  · simp [newIds, listedIds, hnamed]

/-- A later entry with an id is the last one. -/
theorem lastEntry_cons_of_some {last : FeedEntry} (h : lastEntry entries uid = some last) :
    lastEntry (entry :: entries) uid = some last := by
  rw [lastEntry_cons, h]
  rfl

/-- What the entries of a feed write, with a blank one in front. -/
theorem FeedWritten.blank (h : FeedKnown source existing db) (hblank : ¬ entry.isNamed = true)
    (hwritten : FeedWritten source moderation existing entries db db') :
    FeedWritten source moderation existing (entry :: entries) db db' := by
  refine ⟨hwritten.known, fun p hp => ?_, fun p post hp hpost => ?_, fun uid huid => ?_⟩
  · rw [hwritten.old p hp]
    exact (map_syncedWith_cons h (fun hnamed => absurd hnamed hblank)
      (Nat.ne_of_lt (Nat.lt_succ_self p))).symm
  · obtain ⟨last, hlast, hnone, hpost⟩ := hwritten.new p post hp hpost
    exact ⟨last, lastEntry_cons_of_some hlast, hnone, hpost⟩
  · rw [newIds_cons, if_neg fun h => hblank h.1] at huid
    exact hwritten.created uid huid

/-- What the entries of a feed write, with one in front whose post is there. -/
theorem FeedWritten.retext (h : FeedKnown source existing db) (hnamed : entry.isNamed = true)
    {q : Nat} (hvalue : existing.value entry.id = some q) {between : Database}
    (hget : ∀ p, between.posts.get p = if p = q then
      (db.posts.get p).map (Sync.retext entry.title entry.content entry.link)
      else db.posts.get p) (hnext : between.nextPostId = db.nextPostId)
    (hwritten : FeedWritten source moderation existing entries between db') :
    FeedWritten source moderation existing (entry :: entries) db db' := by
  have hkey := h.known entry.id q hvalue
  refine ⟨hwritten.known, fun p hp => ?_, fun p post hp hpost => ?_, fun uid huid => ?_⟩
  · rw [hwritten.old p (hnext ▸ hp), hget]
    by_cases hpq : p = q
    · rw [if_pos hpq, hpq]
      obtain ⟨post, hpost, hpostKey⟩ := Option.bind_eq_some_iff.mp hkey
      obtain ⟨hsource, huid, _⟩ := Post.syncKey_eq_some_iff.mp hpostKey
      rw [hpost, Option.map_some, Option.map_some, Option.map_some,
        syncedWith_retext hnamed hsource huid]
    · rw [if_neg hpq, map_syncedWith_cons h (fun _ p hp => h.valid.unique p q _ hp hkey) hpq]
  · obtain ⟨last, hlast, hnone, hpost⟩ := hwritten.new p post (hnext ▸ hp) hpost
    exact ⟨last, lastEntry_cons_of_some hlast, hnone, hpost⟩
  · have hknown : ¬ (entry.isNamed = true ∧ existing.value entry.id = none) := by
      rw [hvalue]
      exact fun h => Option.some_ne_none q h.2
    rw [newIds_cons, if_neg hknown] at huid
    exact hwritten.created uid huid

/-- What the entries of a feed write, with one in front whose post is created. -/
theorem FeedWritten.create (h : FeedKnown source existing db) (hnamed : entry.isNamed = true)
    (hvalue : existing.value entry.id = none)
    (hfree : ∀ p, db.keyOf p ≠ some ⟨source.id, entry.id, none⟩)
    (honce : entry.id ∉ newIds existing entries) {between : Database}
    (hget : ∀ p, between.posts.get p = if p = db.nextPostId then
      some (entryPost source moderation entry db.nextPostId) else db.posts.get p)
    (hnext : between.nextPostId = db.nextPostId + 1)
    (hwritten : FeedWritten source moderation existing entries between db') :
    FeedWritten source moderation existing (entry :: entries) db db' := by
  have hnotLater : lastEntry entries entry.id = none :=
    lastEntry_eq_none.mpr fun hlisted => honce (mem_newIds.mpr ⟨hlisted, hvalue⟩)
  have hnew : db'.posts.get db.nextPostId =
      some (entryPost source moderation entry db.nextPostId) := by
    rw [hwritten.old db.nextPostId (by omega), hget, if_pos rfl, Option.map_some]
    have hsource : (entryPost source moderation entry db.nextPostId).syncSourceId =
        some source.id := rfl
    have huid : (entryPost source moderation entry db.nextPostId).syncSourceUid =
        some entry.id := rfl
    rw [Post.syncedWith, if_pos hsource, huid, Option.bind_some, hnotLater]
  refine ⟨hwritten.known, fun p hp => ?_, fun p post hp hpost => ?_, fun uid huid => ?_⟩
  · rw [hwritten.old p (by omega), hget, if_neg (Nat.ne_of_lt hp)]
    exact (map_syncedWith_cons h (fun _ p hp => absurd hp (hfree p)) (Nat.ne_of_lt hp)).symm
  · rcases Nat.eq_or_lt_of_le hp with rfl | hlater
    · rw [hnew] at hpost
      refine ⟨entry, ?_, hvalue, (Option.some.inj hpost).symm⟩
      rw [lastEntry_cons, hnotLater, hnamed, decide_eq_true rfl]
      rfl
    · obtain ⟨last, hlast, hnone, hpost⟩ := hwritten.new p post (by omega) hpost
      exact ⟨last, lastEntry_cons_of_some hlast, hnone, hpost⟩
  · rw [newIds_cons, if_pos ⟨hnamed, hvalue⟩] at huid
    rcases List.mem_cons.mp huid with rfl | hlater
    · refine ⟨db.nextPostId, ?_⟩
      rw [Database.keyOf, hnew]
      rfl
    · exact hwritten.created uid hlater

/-- The ids after another text. -/
theorem keyOf_of_retext {between : Database} {q : Nat} {title content link : Option String}
    (hget : ∀ p, between.posts.get p = if p = q then
      (db.posts.get p).map (Sync.retext title content link) else db.posts.get p) (p : Nat) :
    between.keyOf p = db.keyOf p := by
  rw [Database.keyOf, hget, Database.keyOf]
  split
  · cases db.posts.get p <;> rfl
  · rfl

variable (moderation) in
/-- Entries whose new ids are listed once and have no post are written. -/
theorem feedWritten_of_new (h : FeedKnown source existing db)
    (hnodup : (newIds existing entries).Nodup)
    (hfree : ∀ uid ∈ newIds existing entries, ∀ p, db.keyOf p ≠ some ⟨source.id, uid, none⟩) :
    ∃ db', entries.foldlM (syncEntry source moderation existing) db = .ok db' ∧
      FeedWritten source moderation existing entries db db' := by
  induction entries generalizing db with
  | nil =>
    refine ⟨db, rfl, h, fun p _ => ?_, fun p post hp hpost => ?_, nofun⟩
    · cases db.posts.get p with
      | none => rfl
      | some post => rw [Option.map_some, syncedWith_nil]
    · have hsome : (db.posts.get p).isSome = true := by
        rw [hpost]
        rfl
      exact absurd (h.valid.fresh p hsome) (Nat.not_lt.mpr hp)
  | cons entry entries ih =>
    rw [newIds_cons] at hnodup hfree
    rw [List.foldlM_cons, syncEntry]
    by_cases hnamed : entry.isNamed = true
    · have hblank : ¬ (trim entry.id).isEmpty = true := by
        simpa [FeedEntry.isNamed] using hnamed
      rw [if_neg hblank]
      cases hvalue : existing.value entry.id with
      | some q =>
        rw [if_neg (by rw [hvalue]; simp)] at hnodup hfree
        have hsome : (db.posts.get q).isSome = true := by
          obtain ⟨post, hpost, _⟩ := Option.bind_eq_some_iff.mp (h.known entry.id q hvalue)
          rw [hpost]
          rfl
        obtain ⟨posts, hok, hget⟩ := syncPostText_ok db hsome entry.title entry.content entry.link
        have hkeys (p : Nat) : ({ db with posts := posts } : Database).keyOf p = db.keyOf p :=
          keyOf_of_retext hget p
        obtain ⟨db', hrest, hwritten⟩ := ih (h.retext hok hkeys rfl) hnodup
          fun uid huid p => hkeys p ▸ hfree uid huid p
        have hnext : ({ db with posts := posts } : Database).nextPostId = db.nextPostId := rfl
        refine ⟨db', ?_, hwritten.retext h hnamed hvalue hget hnext⟩
        dsimp only
        rw [hok]
        exact hrest
      | none =>
        rw [if_pos ⟨hnamed, hvalue⟩] at hnodup hfree
        obtain ⟨honce, hnodup⟩ := List.nodup_cons.mp hnodup
        have hfreeEntry := hfree entry.id List.mem_cons_self
        obtain ⟨between, hok, hget, hnext, hsources⟩ :=
          createPostForEntry_ok moderation h hfreeEntry
        obtain ⟨db', hrest, hwritten⟩ := ih (h.create hok hget hsources) hnodup (by
          intro uid huid p hkey
          rw [keyOf_of_created hget] at hkey
          split at hkey
          · cases hkey
            exact honce huid
          · exact hfree uid (List.mem_cons_of_mem _ huid) p hkey)
        refine ⟨db', ?_, hwritten.create h hnamed hvalue hfreeEntry honce hget hnext⟩
        dsimp only
        rw [hok]
        exact hrest
    · have hblank : (trim entry.id).isEmpty = true := by
        simpa [FeedEntry.isNamed] using hnamed
      rw [if_neg fun h => hnamed h.1] at hnodup hfree
      obtain ⟨db', hrest, hwritten⟩ := ih h hnodup hfree
      rw [if_pos hblank]
      exact ⟨db', hrest, hwritten.blank h hnamed⟩

/-- Entries are written only if their new ids are listed once and have no post. -/
theorem new_of_feedWritten (h : FeedKnown source existing db)
    (hok : entries.foldlM (syncEntry source moderation existing) db = .ok db') :
    (newIds existing entries).Nodup ∧
      ∀ uid ∈ newIds existing entries, ∀ p, db.keyOf p ≠ some ⟨source.id, uid, none⟩ := by
  induction entries generalizing db with
  | nil => exact ⟨List.nodup_nil, nofun⟩
  | cons entry entries ih =>
    rw [List.foldlM_cons, syncEntry] at hok
    rw [newIds_cons]
    by_cases hnamed : entry.isNamed = true
    · have hblank : ¬ (trim entry.id).isEmpty = true := by
        simpa [FeedEntry.isNamed] using hnamed
      rw [if_neg hblank] at hok
      cases hvalue : existing.value entry.id with
      | some q =>
        rw [if_neg (by simp)]
        have hsome : (db.posts.get q).isSome = true := by
          obtain ⟨post, hpost, _⟩ := Option.bind_eq_some_iff.mp (h.known entry.id q hvalue)
          rw [hpost]
          rfl
        obtain ⟨posts, hretext, hget⟩ :=
          syncPostText_ok db hsome entry.title entry.content entry.link
        have hkeys (p : Nat) : ({ db with posts := posts } : Database).keyOf p = db.keyOf p :=
          keyOf_of_retext hget p
        rw [hvalue] at hok
        dsimp only at hok
        rw [hretext] at hok
        obtain ⟨hnodup, hfree⟩ := ih (h.retext hretext hkeys rfl) hok
        exact ⟨hnodup, fun uid huid p => hkeys p ▸ hfree uid huid p⟩
      | none =>
        rw [if_pos ⟨hnamed, rfl⟩]
        rw [hvalue] at hok
        dsimp only at hok
        obtain ⟨between, hcreate, hrest⟩ := checks_eq_ok.mp hok
        have hfreeEntry := free_of_createPostForEntry h.valid hcreate
        obtain ⟨created, hcreated, hget, hnext, hsources⟩ :=
          createPostForEntry_ok moderation h hfreeEntry
        obtain rfl := Except.ok.inj (hcreate.symm.trans hcreated)
        obtain ⟨hnodup, hfree⟩ := ih (h.create hcreate hget hsources) hrest
        have hkeys := keyOf_of_created hget
        constructor
        · refine List.nodup_cons.mpr ⟨fun hagain => ?_, hnodup⟩
          refine hfree entry.id hagain db.nextPostId ?_
          rw [hkeys, if_pos rfl]
        · intro uid huid p hkey
          rcases List.mem_cons.mp huid with rfl | hlater
          · exact hfreeEntry p hkey
          · refine hfree uid hlater p ?_
            rw [hkeys, if_neg (Nat.ne_of_lt (h.valid.lt_of_key hkey))]
            exact hkey
    · have hblank : (trim entry.id).isEmpty = true := by
        simpa [FeedEntry.isNamed] using hnamed
      rw [if_pos hblank] at hok
      rw [if_neg fun h => hnamed h.1]
      exact ih h hok

/-- The post under an id is the one of the source with that id. -/
theorem existingPostIdsByUid_value (hdb : Valid db)
    (hanchors : ∀ p key, db.keyOf p = some key → key.sourceId = source.id → key.anchor = none)
    {p : Nat} : (existingPostIdsByUid db source.id).value uid = some p ↔
      db.keyOf p = some ⟨source.id, uid, none⟩ := by
  have hlisted (name : String) (q : Nat) :
      (name, q) ∈ ((db.posts.rows.filter fun post => post.syncSourceId = some source.id).filterMap
        fun post => post.syncSourceUid.map fun uid => (uid, post.id)) ↔
      db.keyOf q = some ⟨source.id, name, none⟩ := by
    rw [List.mem_filterMap]
    constructor
    · rintro ⟨post, hmem, hpair⟩
      obtain ⟨hrow, hsource⟩ := List.mem_filter.mp hmem
      obtain ⟨uid', huid, heq⟩ := Option.map_eq_some_iff.mp hpair
      obtain ⟨rfl, rfl⟩ := Prod.mk.inj heq
      have hkey : db.keyOf post.id =
          some ⟨source.id, uid', post.syncSourceRecurrenceAnchor⟩ := by
        rw [Database.keyOf, Table.mem_rows_iff.mp hrow, Option.bind_some]
        exact Post.syncKey_eq_some_iff.mpr ⟨of_decide_eq_true hsource, huid, rfl⟩
      have hanchor : post.syncSourceRecurrenceAnchor = none := hanchors post.id _ hkey rfl
      rw [hkey, hanchor]
    · intro hkey
      obtain ⟨post, hpost, hpostKey⟩ := Option.bind_eq_some_iff.mp hkey
      obtain ⟨hsource, huid, _⟩ := Post.syncKey_eq_some_iff.mp hpostKey
      obtain ⟨hrow, rfl⟩ := Table.get_eq_some_iff.mp hpost
      refine ⟨post, List.mem_filter.mpr ⟨hrow, decide_eq_true hsource⟩, ?_⟩
      rw [huid]
      rfl
  rw [HashMap.value_eq_some_iff]
  constructor
  · exact fun hmem => (hlisted uid p).mp (Table.mem_of_mem_collect hmem)
  · intro hkey
    have hsome : ((existingPostIdsByUid db source.id).get uid).isSome = true :=
      Table.get_collect_isSome.mpr ⟨(uid, p), (hlisted uid p).mpr hkey, rfl⟩
    obtain ⟨⟨name, q⟩, hget⟩ := Option.isSome_iff_exists.mp hsome
    obtain ⟨hmem, hname⟩ := Table.get_eq_some_iff.mp hget
    dsimp only at hname
    subst hname
    have hother := (hlisted name q).mp (Table.mem_of_mem_collect hmem)
    rw [hdb.unique _ _ _ hkey hother]
    exact hmem

end

/-- The database, and the ids that were synced. -/
structure FeedState where
  db : Database
  ids : List String

/-- One sync of the source. -/
structure FeedSync where
  config : Option ServerConfiguration
  feedText : String

/-- A post is of a source, for an id. -/
def IsPostOf (db : Database) (sourceId : Nat) (uid : String) (p : Nat) : Prop :=
  ∃ post, db.posts.get p = some post ∧ post.syncSourceId = some sourceId ∧
    post.syncSourceUid = some uid

section

variable (parse : String → Option (List ParsedEntry)) (source : SyncSource)

/-- The entries of a feed as they are stored; none if the feed does not parse. -/
def entriesOf (feedText : String) : List FeedEntry :=
  ((parse feedText).getD []).map ParsedEntry.stored

/-- A sync that fails leaves everything as it was. -/
def FeedState.sync (s : FeedState) (sync : FeedSync) : FeedState :=
  match syncFeedText parse source sync.config sync.feedText s.db with
  | .ok db => ⟨db, s.ids ++ listedIds (entriesOf parse sync.feedText)⟩
  | .error _ => s

/-- What a sync leaves: one post for each id that was ever synced, with the text of an entry where
the id is listed and as it was where it is not; and the same again after another sync. -/
structure FeedSynced (s : FeedState) (feedText : String) (db' : Database) : Prop where
  one : ∀ uid, uid ∈ s.ids ∨ uid ∈ listedIds (entriesOf parse feedText) →
    ∃! p, IsPostOf db' source.id uid p
  onlySynced : ∀ uid p, IsPostOf db' source.id uid p →
    uid ∈ s.ids ∨ uid ∈ listedIds (entriesOf parse feedText)
  text : ∀ uid ∈ listedIds (entriesOf parse feedText), ∀ p post,
    IsPostOf db' source.id uid p → db'.posts.get p = some post →
      ∃ entry ∈ entriesOf parse feedText, entry.id = uid ∧ post.title = entry.title ∧
        post.content = entry.content ∧ post.link = entry.link
  unlisted : ∀ p post, s.db.posts.get p = some post →
    (∀ uid ∈ listedIds (entriesOf parse feedText), ¬ IsPostOf s.db source.id uid p) →
      db'.posts.get p = some post
  again : ∀ config', ∃ db'', syncFeedText parse source config' feedText db' = .ok db'' ∧
    ∀ p, db''.posts.get p = db'.posts.get p

/-- The sync of a feed that parses succeeds and leaves what it should. -/
def SyncsFeed (s : FeedState) (sync : FeedSync) : Prop :=
  (parse sync.feedText).isSome = true →
    ∃ db', syncFeedText parse source sync.config sync.feedText s.db = .ok db' ∧
      FeedSynced parse source s sync.feedText db'

/-- The ids that were not synced before are listed once. -/
def NewIdsOnce (s : FeedState) (sync : FeedSync) : Prop :=
  ((listedIds (entriesOf parse sync.feedText)).filter (· ∉ s.ids)).Nodup

/-- The synced ids are those with a post. -/
structure FeedState.Sound (s : FeedState) : Prop where
  valid : Valid s.db
  present : (s.db.syncSources.get source.id).isSome = true
  anchors : ∀ p key, s.db.keyOf p = some key → key.sourceId = source.id → key.anchor = none
  ids : ∀ uid, uid ∈ s.ids ↔ ∃ p, s.db.keyOf p = some ⟨source.id, uid, none⟩

variable {parse : String → Option (List ParsedEntry)} {source : SyncSource}
variable {moderation : Moderation} {existing : HashMap String Nat} {entries : List FeedEntry}
variable {s : FeedState} {db db' : Database} {uid : String}

theorem isPostOf_iff
    (hanchors : ∀ p key, db.keyOf p = some key → key.sourceId = source.id → key.anchor = none)
    {p : Nat} : IsPostOf db source.id uid p ↔ db.keyOf p = some ⟨source.id, uid, none⟩ := by
  constructor
  · rintro ⟨post, hpost, hsource, huid⟩
    have hkey : db.keyOf p = some ⟨source.id, uid, post.syncSourceRecurrenceAnchor⟩ := by
      rw [Database.keyOf, hpost, Option.bind_some]
      exact Post.syncKey_eq_some_iff.mpr ⟨hsource, huid, rfl⟩
    have hanchor : post.syncSourceRecurrenceAnchor = none := hanchors p _ hkey rfl
    rw [hkey, hanchor]
  · intro hkey
    obtain ⟨post, hpost, hpostKey⟩ := Option.bind_eq_some_iff.mp hkey
    obtain ⟨hsource, huid, _⟩ := Post.syncKey_eq_some_iff.mp hpostKey
    exact ⟨post, hpost, hsource, huid⟩

theorem FeedState.Sound.known (h : s.Sound source) :
    FeedKnown source (existingPostIdsByUid s.db source.id) s.db :=
  ⟨h.valid, h.present, h.anchors, fun _ _ => (existingPostIdsByUid_value h.valid h.anchors).mp⟩

/-- The ids without a post are those that were not synced. -/
theorem FeedState.Sound.newIds_eq (h : s.Sound source) (entries : List FeedEntry) :
    newIds (existingPostIdsByUid s.db source.id) entries =
      (listedIds entries).filter (· ∉ s.ids) := by
  refine List.filter_congr fun uid _ => ?_
  rw [Bool.eq_iff_iff, decide_eq_true_iff, h.ids, Option.isNone_iff_eq_none,
    Option.eq_none_iff_forall_ne_some]
  constructor
  · rintro hnone ⟨p, hkey⟩
    exact hnone p ((existingPostIdsByUid_value h.valid h.anchors).mpr hkey)
  · exact fun hnone p hvalue =>
      hnone ⟨p, (existingPostIdsByUid_value h.valid h.anchors).mp hvalue⟩

/-- A sync that succeeds has written the entries; the rest of it writes no post. -/
theorem syncFeedText_eq_ok {config : Option ServerConfiguration} {feedText : String} :
    syncFeedText parse source config feedText db = .ok db' ↔
      (parse feedText).isSome = true ∧ ∃ written,
        (entriesOf parse feedText).foldlM (syncEntry source (defaultPostModeration config)
          (existingPostIdsByUid db source.id)) db = .ok written ∧
        db' = written.countPosts source.id := by
  unfold syncFeedText entriesOf
  cases parse feedText with
  | none => simp
  | some parsed =>
    dsimp only [Option.getD_some]
    unfold syncFeed
    cases (parsed.map ParsedEntry.stored).foldlM (syncEntry source (defaultPostModeration config)
        (existingPostIdsByUid db source.id)) db with
    | error e => simp [bind, Except.bind]
    | ok written =>
      simp only [bind, Except.bind, pure, Except.pure, Except.ok.injEq, Option.isSome_some,
        true_and, exists_eq_left']
      exact eq_comm

/-- What the entries write stays known after the counters of the source were written. -/
theorem FeedKnown.counted (h : FeedKnown source existing db) :
    FeedKnown source existing (db.countPosts source.id) := by
  refine ⟨h.valid.of_rows rfl rfl rfl rfl, ?_, h.anchors, h.known⟩
  rw [Database.countPosts, Table.get_update, Option.isSome_map]
  exact h.present

theorem syncedWith_entryPost {entry : FeedEntry} {id : Nat}
    (h : lastEntry entries entry.id = some entry) :
    (entryPost source moderation entry id).syncedWith source.id entries =
      entryPost source moderation entry id := by
  have hsource : (entryPost source moderation entry id).syncSourceId = some source.id := rfl
  have huid : (entryPost source moderation entry id).syncSourceUid = some entry.id := rfl
  rw [Post.syncedWith, if_pos hsource, huid, Option.bind_some, h]
  rfl

/-- The text of the last entry stays what it is. -/
theorem syncedWith_idem (post : Post) :
    (post.syncedWith source.id entries).syncedWith source.id entries =
      post.syncedWith source.id entries := by
  by_cases hsource : post.syncSourceId = some source.id
  · cases hlast : post.syncSourceUid.bind (lastEntry entries) with
    | none =>
      have hsame : post.syncedWith source.id entries = post := by
        rw [Post.syncedWith, if_pos hsource, hlast]
      rw [hsame, hsame]
    | some entry =>
      have hretext : post.syncedWith source.id entries =
          retext entry.title entry.content entry.link post := by
        rw [Post.syncedWith, if_pos hsource, hlast]
      have hsource' : (retext entry.title entry.content entry.link post).syncSourceId =
          some source.id := hsource
      have hlast' : (retext entry.title entry.content entry.link post).syncSourceUid.bind
          (lastEntry entries) = some entry := hlast
      rw [hretext, Post.syncedWith, if_pos hsource', hlast']
      rfl
  · have hsame : post.syncedWith source.id entries = post := by
      rw [Post.syncedWith, if_neg hsource]
    rw [hsame, hsame]

/-- Every listed id has a post. -/
theorem FeedWritten.exists_post
    (h : FeedWritten source moderation existing entries db db') (huid : uid ∈ listedIds entries) :
    ∃ p, db'.keyOf p = some ⟨source.id, uid, none⟩ := by
  cases hvalue : existing.value uid with
  | some p => exact ⟨p, h.known.known uid p hvalue⟩
  | none => exact h.created uid (mem_newIds.mpr ⟨huid, hvalue⟩)

/-- A post of the source was there before, or its id is listed. -/
theorem FeedWritten.before_or_listed
    (h : FeedWritten source moderation existing entries db db') {p : Nat}
    (hkey : db'.keyOf p = some ⟨source.id, uid, none⟩) :
    db.keyOf p = some ⟨source.id, uid, none⟩ ∨ uid ∈ listedIds entries := by
  obtain ⟨post, hpost, hpostKey⟩ := Option.bind_eq_some_iff.mp hkey
  by_cases hp : p < db.nextPostId
  · rw [h.old p hp] at hpost
    obtain ⟨before, hbefore, rfl⟩ := Option.map_eq_some_iff.mp hpost
    rw [syncedWith_syncKey] at hpostKey
    refine .inl ?_
    rw [Database.keyOf, hbefore, Option.bind_some, hpostKey]
  · obtain ⟨entry, hlast, _, rfl⟩ := h.new p post (Nat.not_lt.mp hp) hpost
    obtain ⟨_, huid, _⟩ := Post.syncKey_eq_some_iff.mp hpostKey
    have hid : entry.id = uid := Option.some.inj huid
    obtain ⟨hmem, hnamed, _⟩ := lastEntry_eq_some hlast
    exact .inr (mem_listedIds.mpr ⟨entry, hmem, hnamed, hid⟩)

/-- The post of a listed id has the text of an entry with it. -/
theorem FeedWritten.text (h : FeedWritten source moderation existing entries db db')
    (huid : uid ∈ listedIds entries) {p : Nat} {post : Post} (hpost : db'.posts.get p = some post)
    (hsource : post.syncSourceId = some source.id) (hpostUid : post.syncSourceUid = some uid) :
    ∃ entry ∈ entries, entry.id = uid ∧ post.title = entry.title ∧
      post.content = entry.content ∧ post.link = entry.link := by
  by_cases hp : p < db.nextPostId
  · rw [h.old p hp] at hpost
    obtain ⟨before, hbefore, rfl⟩ := Option.map_eq_some_iff.mp hpost
    obtain ⟨entry, hlast⟩ := Option.ne_none_iff_exists'.mp fun hnone =>
      lastEntry_eq_none.mp hnone huid
    obtain ⟨hmem, _, hid⟩ := lastEntry_eq_some hlast
    have hlastOf : before.syncSourceId = some source.id ∧ before.syncSourceUid = some uid := by
      unfold Post.syncedWith at hsource hpostUid
      split at hsource
      · rename_i hown
        refine ⟨hown, ?_⟩
        rw [if_pos hown] at hpostUid
        split at hpostUid
        · exact hpostUid
        · exact hpostUid
      · rename_i hother
        exact absurd hsource hother
    rw [Post.syncedWith, if_pos hlastOf.1, hlastOf.2, Option.bind_some, hlast]
    exact ⟨entry, hmem, hid, rfl, rfl, rfl⟩
  · obtain ⟨entry, hlast, _, rfl⟩ := h.new p post (Nat.not_lt.mp hp) hpost
    exact ⟨entry, (lastEntry_eq_some hlast).1, Option.some.inj hpostUid, rfl, rfl, rfl⟩

/-- A post of another id, or of no source, is left as it was. -/
theorem FeedWritten.unlisted (h : FeedWritten source moderation existing entries db db')
    (hdb : Valid db) {p : Nat} {post : Post} (hpost : db.posts.get p = some post)
    (hother : ∀ uid ∈ listedIds entries, ¬ IsPostOf db source.id uid p) :
    db'.posts.get p = some post := by
  have hsome : (db.posts.get p).isSome = true := by
    rw [hpost]
    rfl
  rw [h.old p (hdb.fresh p hsome), hpost, Option.map_some]
  congr 1
  unfold Post.syncedWith
  split
  · rename_i hsource
    cases huid : post.syncSourceUid with
    | none => rfl
    | some uid =>
      have hnone : lastEntry entries uid = none :=
        lastEntry_eq_none.mpr fun hlisted => hother uid hlisted ⟨post, hpost, hsource, huid⟩
      rw [Option.bind_some, hnone]
  · rfl

/-- The posts that the entries leave are not changed by them again. -/
theorem FeedWritten.again (h : FeedWritten source moderation existing entries db db')
    (config : Option ServerConfiguration) :
    ∃ db'', entries.foldlM (syncEntry source (defaultPostModeration config)
        (existingPostIdsByUid db' source.id)) db' = .ok db'' ∧
      ∀ p, db''.posts.get p = db'.posts.get p := by
  have hvalue {uid : String} {p : Nat} :
      (existingPostIdsByUid db' source.id).value uid = some p ↔
        db'.keyOf p = some ⟨source.id, uid, none⟩ :=
    existingPostIdsByUid_value h.known.valid h.known.anchors
  have hnone : newIds (existingPostIdsByUid db' source.id) entries = [] := by
    rw [newIds, List.filter_eq_nil_iff]
    intro uid huid
    obtain ⟨p, hkey⟩ := h.exists_post huid
    rw [hvalue.mpr hkey]
    exact Bool.false_ne_true
  have hknown : FeedKnown source (existingPostIdsByUid db' source.id) db' :=
    ⟨h.known.valid, h.known.present, h.known.anchors, fun _ _ => hvalue.mp⟩
  obtain ⟨db'', hok, hwritten⟩ := feedWritten_of_new
    (defaultPostModeration config) hknown (hnone ▸ List.nodup_nil) (hnone ▸ nofun)
  refine ⟨db'', hok, fun p => ?_⟩
  by_cases hp : p < db'.nextPostId
  · rw [hwritten.old p hp]
    cases hpost : db'.posts.get p with
    | none => rfl
    | some post =>
      rw [Option.map_some]
      congr 1
      by_cases hold : p < db.nextPostId
      · rw [h.old p hold] at hpost
        obtain ⟨before, _, rfl⟩ := Option.map_eq_some_iff.mp hpost
        exact syncedWith_idem before
      · obtain ⟨entry, hlast, _, rfl⟩ := h.new p post (Nat.not_lt.mp hold) hpost
        exact syncedWith_entryPost hlast
  · have hempty : db'.posts.get p = none := by
      rw [← Option.not_isSome_iff_eq_none]
      exact fun hsome => hp (h.known.valid.fresh p hsome)
    rw [hempty, ← Option.not_isSome_iff_eq_none]
    intro hsome
    obtain ⟨post, hpost⟩ := Option.isSome_iff_exists.mp hsome
    obtain ⟨entry, hlast, hunknown, _⟩ := hwritten.new p post (Nat.not_lt.mp hp) hpost
    obtain ⟨hmem, hnamed, _⟩ := lastEntry_eq_some hlast
    have hnew := mem_newIds.mpr ⟨mem_listedIds.mpr ⟨entry, hmem, hnamed, rfl⟩, hunknown⟩
    rw [hnone] at hnew
    cases hnew

/-- A sync leaves what it should where the new ids are listed once, and what holds before it holds
after it. -/
theorem feedSynced_of_new (h : s.Sound source) (sync : FeedSync)
    (hparse : (parse sync.feedText).isSome = true) (hnew : NewIdsOnce parse s sync) :
    ∃ db', syncFeedText parse source sync.config sync.feedText s.db = .ok db' ∧
      FeedSynced parse source s sync.feedText db' ∧
      (⟨db', s.ids ++ listedIds (entriesOf parse sync.feedText)⟩ : FeedState).Sound source := by
  have hnodup : (newIds (existingPostIdsByUid s.db source.id)
      (entriesOf parse sync.feedText)).Nodup := by
    rw [h.newIds_eq]
    exact hnew
  obtain ⟨written, hok, hwritten⟩ :=
    feedWritten_of_new (defaultPostModeration sync.config) h.known hnodup (by
      intro uid huid p hkey
      have hunknown := (mem_newIds.mp huid).2
      rw [(existingPostIdsByUid_value h.valid h.anchors).mpr hkey] at hunknown
      cases hunknown)
  have hcounted : FeedKnown source (existingPostIdsByUid s.db source.id)
      (written.countPosts source.id) := hwritten.known.counted
  have hids (uid : String) : uid ∈ s.ids ++ listedIds (entriesOf parse sync.feedText) ↔
      ∃ p, (written.countPosts source.id).keyOf p = some ⟨source.id, uid, none⟩ := by
    rw [List.mem_append, h.ids]
    constructor
    · rintro (⟨p, hkey⟩ | hlisted)
      · have hvalue := (existingPostIdsByUid_value h.valid h.anchors).mpr hkey
        exact ⟨p, hcounted.known uid p hvalue⟩
      · obtain ⟨p, hkey⟩ := hwritten.exists_post hlisted
        exact ⟨p, hkey⟩
    · rintro ⟨p, hkey⟩
      exact (hwritten.before_or_listed hkey).imp_left fun h => ⟨p, h⟩
  have hisPost {uid : String} {p : Nat} : IsPostOf (written.countPosts source.id) source.id uid p ↔
      (written.countPosts source.id).keyOf p = some ⟨source.id, uid, none⟩ :=
    isPostOf_iff hcounted.anchors
  refine ⟨_, syncFeedText_eq_ok.mpr ⟨hparse, written, hok, rfl⟩, ?_,
    hcounted.valid, hcounted.present, hcounted.anchors, hids⟩
  constructor
  · intro uid huid
    obtain ⟨p, hkey⟩ := (hids uid).mp (List.mem_append.mpr huid)
    refine ⟨p, hisPost.mpr hkey, fun q hq => ?_⟩
    exact hcounted.valid.unique q p _ (hisPost.mp hq) hkey
  · intro uid p hp
    exact List.mem_append.mp ((hids uid).mpr ⟨p, hisPost.mp hp⟩)
  · rintro uid huid p post ⟨post', hpost', hsource, hpostUid⟩ hpost
    obtain rfl := Option.some.inj (hpost.symm.trans hpost')
    exact hwritten.text huid hpost hsource hpostUid
  · intro p post hpost hother
    exact hwritten.unlisted h.valid hpost hother
  · intro config'
    have hagain : FeedWritten source (defaultPostModeration sync.config)
        (existingPostIdsByUid s.db source.id) (entriesOf parse sync.feedText) s.db
        (written.countPosts source.id) :=
      ⟨hcounted, hwritten.old, hwritten.new, hwritten.created⟩
    obtain ⟨rewritten, hok', hsame⟩ := hagain.again config'
    exact ⟨_, syncFeedText_eq_ok.mpr ⟨hparse, rewritten, hok', rfl⟩, hsame⟩

/-- A sync that succeeds lists its new ids once. -/
theorem newIdsOnce_of_ok (h : s.Sound source) {sync : FeedSync}
    (hok : syncFeedText parse source sync.config sync.feedText s.db = .ok db') :
    NewIdsOnce parse s sync := by
  obtain ⟨_, written, hwritten, _⟩ := syncFeedText_eq_ok.mp hok
  rw [NewIdsOnce, ← h.newIds_eq]
  exact (new_of_feedWritten h.known hwritten).1

/-- What holds before a sync holds after it. -/
theorem FeedState.Sound.sync (h : s.Sound source) (sync : FeedSync) :
    (s.sync parse source sync).Sound source := by
  unfold FeedState.sync
  split
  · rename_i db hok
    obtain ⟨db', hok', _, hsound⟩ :=
      feedSynced_of_new h sync (syncFeedText_eq_ok.mp hok).1 (newIdsOnce_of_ok h hok)
    obtain rfl := Except.ok.inj (hok.symm.trans hok')
    exact hsound
  · exact h

end

/-- After any syncs of a source that had no posts, a sync does what it should exactly if no id that was
not synced before is listed twice. -/
theorem syncsFeed_iff (parse : String → Option (List ParsedEntry)) (source : SyncSource)
    (db : Database) (hdb : Valid db) (hsource : (db.syncSources.get source.id).isSome = true)
    (hnone : ∀ p key, db.keyOf p = some key → key.sourceId ≠ source.id) (history : List FeedSync)
    (sync : FeedSync) :
    SyncsFeed parse source (run (FeedState.sync parse source) ⟨db, []⟩ history) sync ↔
      NewIdsOnce parse (run (FeedState.sync parse source) ⟨db, []⟩ history) sync := by
  have hstart : (⟨db, []⟩ : FeedState).Sound source := by
    refine ⟨hdb, hsource, fun p key hkey hown => absurd hown (hnone p key hkey), fun uid => ?_⟩
    exact ⟨nofun, fun ⟨p, hkey⟩ => absurd rfl (hnone p _ hkey)⟩
  have hsound : (run (FeedState.sync parse source) ⟨db, []⟩ history).Sound source :=
    run_invariant_of_all (I := FeedState.Sound source) (fun _ sync h => h.sync sync) hstart history
  constructor
  · intro h
    cases hparse : parse sync.feedText with
    | none =>
      rw [NewIdsOnce, entriesOf, hparse]
      exact List.nodup_nil
    | some parsed =>
      obtain ⟨db', hok, _⟩ := h (by rw [hparse]; rfl)
      exact newIdsOnce_of_ok hsound hok
  · intro hnew hparse
    obtain ⟨db', hok, hsynced, _⟩ := feedSynced_of_new hsound sync hparse hnew
    exact ⟨db', hok, hsynced⟩

def newsSource : SyncSource where
  id := 1
  userId := 1
  configuration := .rssSubscriptionUrl "https://example.com/feed"

/-- A database with the source alone. -/
def newsDatabase : Database := { Database.fresh with syncSources := Table.empty.put newsSource }

theorem newsDatabase_valid : Valid newsDatabase := fresh_valid.of_rows rfl rfl rfl rfl

def newsEntry (title : String) : ParsedEntry := ⟨"news", some title, none, none, []⟩

/-- A feed with one item, or with its id once more. -/
def parseNews (feedText : String) : Option (List ParsedEntry) :=
  if feedText = "twice" then some [newsEntry "First", newsEntry "Second"]
  else some [newsEntry feedText]

/-- After a sync of the item, its id can be listed twice. -/
theorem syncsFeed_newsTwice :
    SyncsFeed parseNews newsSource
      (run (FeedState.sync parseNews newsSource) ⟨newsDatabase, []⟩ [⟨none, "once"⟩])
      ⟨none, "twice"⟩ := by
  refine (syncsFeed_iff parseNews newsSource newsDatabase newsDatabase_valid rfl nofun _ _).mpr ?_
  unfold NewIdsOnce
  decide +kernel

/-- A new id that is listed twice fails the sync. -/
theorem newsTwice_fails :
    ¬ ∀ (parse : String → Option (List ParsedEntry)) (source : SyncSource) (db : Database),
      Valid db → (db.syncSources.get source.id).isSome = true →
      (∀ p key, db.keyOf p = some key → key.sourceId ≠ source.id) →
      ∀ (history : List FeedSync) (sync : FeedSync),
        SyncsFeed parse source (run (FeedState.sync parse source) ⟨db, []⟩ history) sync := by
  intro h
  obtain ⟨db', hok, _⟩ :=
    h parseNews newsSource newsDatabase newsDatabase_valid rfl nofun [] ⟨none, "twice"⟩ rfl
  have hfails : (syncFeedText parseNews newsSource none "twice" newsDatabase).toOption.isNone =
      true := by decide +kernel
  rw [run_nil] at hok
  rw [hok] at hfails
  cases hfails

end Rellm.Sync
