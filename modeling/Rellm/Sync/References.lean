import Rellm.Sync.Reachable

/-!
# Posts and their sources

A synced post names a source that exists. Every action keeps this: a calendar is
only written for a source that is there, the post of a feed entry is refused
without one, and a source that is deleted takes its posts along or lets go of
them.
-/

namespace Rellm.Sync

open Foundation Calendar

/-- Every synced post names a source that exists. -/
def Referenced (db : Database) : Prop :=
  ∀ p post sourceId, db.posts.get p = some post → post.syncSourceId = some sourceId →
    (db.syncSources.get sourceId).isSome

/-- Sources stay, and a post names the source it named or one that exists. -/
structure KeepsSources (db db' : Database) : Prop where
  posts : ∀ p post' sourceId, db'.posts.get p = some post' → post'.syncSourceId = some sourceId →
    (db.syncSources.get sourceId).isSome ∨
      ∃ q post, db.posts.get q = some post ∧ post.syncSourceId = some sourceId
  sources : ∀ sourceId, (db.syncSources.get sourceId).isSome →
    (db'.syncSources.get sourceId).isSome

section

variable {crates : CalendarCrates} {db db' : Database}

/-- What keeps the sources keeps the references. -/
theorem KeepsSources.referenced (h : KeepsSources db db') (hdb : Referenced db) :
    Referenced db' := by
  intro p post' sourceId hpost hsource
  apply h.sources
  rcases h.posts p post' sourceId hpost hsource with hsome | ⟨q, post, hbefore, hnamed⟩
  · exact hsome
  · exact hdb q post sourceId hbefore hnamed

/-- Leaving posts and sources alone keeps the sources. -/
theorem KeepsSources.of_same (hposts : db'.posts = db.posts)
    (hsources : db'.syncSources = db.syncSources) : KeepsSources db db' where
  posts p post' _ hpost hsource := .inr ⟨p, post', hposts ▸ hpost, hsource⟩
  sources _ hsome := hsources ▸ hsome

/-- Rewriting columns of posts other than their source keeps the sources. -/
theorem KeepsSources.updatePosts (db : Database) (condition : Post → Bool)
    {rewrite : Post → Post} (hsame : ∀ post, (rewrite post).syncSourceId = post.syncSourceId)
    (hid : ∀ post, (rewrite post).id = post.id) :
    KeepsSources db { db with posts := db.posts.update condition rewrite hid } where
  posts p post' sourceId hpost hsource := by
    rw [Table.get_update] at hpost
    obtain ⟨post, hbefore, rfl⟩ := Option.map_eq_some_iff.mp hpost
    refine .inr ⟨p, post, hbefore, ?_⟩
    split at hsource
    · rw [← hsame]
      exact hsource
    · exact hsource
  sources _ hsome := hsome

/-- Inserting a post keeps the sources, as a new post is not synced. -/
theorem KeepsSources.insertPost (h : Valid db) (columns : NewPost) {inserted : Nat × Database}
    (hok : db.insertPost columns = .ok inserted) : KeepsSources db inserted.2 := by
  obtain ⟨posts, hinsert, hget, _⟩ := h.insertPost columns
  rw [hinsert] at hok
  obtain rfl := Except.ok.inj hok
  refine ⟨fun p post' sourceId hpost hsource => ?_, fun _ hsome => hsome⟩
  rw [hget] at hpost
  split at hpost
  · obtain rfl := Option.some.inj hpost
    cases hsource
  · exact .inr ⟨p, post', hpost, hsource⟩

/-- Inserting an event leaves posts and sources alone. -/
theorem insertEvent_posts {event : Event} (hok : db.insertEvent event = .ok db') :
    db'.posts = db.posts ∧ db'.syncSources = db.syncSources := by
  rw [Database.insertEvent] at hok
  split at hok
  · cases hok
  · split at hok
    · cases hok
    · obtain rfl := Except.ok.inj hok
      exact ⟨rfl, rfl⟩

/-- Inserting an occasion leaves posts and sources alone. -/
theorem insertOccasion_posts {occasion : Occasion} (hok : db.insertOccasion occasion = .ok db') :
    db'.posts = db.posts ∧ db'.syncSources = db.syncSources := by
  rw [Database.insertOccasion] at hok
  split at hok
  · cases hok
  · split at hok
    · cases hok
    · obtain rfl := Except.ok.inj hok
      exact ⟨rfl, rfl⟩

/-- Keeping the sources twice keeps them. -/
theorem KeepsSources.trans {db'' : Database} (h : KeepsSources db db')
    (h' : KeepsSources db' db'') (hsources : db'.syncSources = db.syncSources) :
    KeepsSources db db'' where
  posts p post' sourceId hpost hsource := by
    rcases h'.posts p post' sourceId hpost hsource with hsome | ⟨q, post, hbefore, hnamed⟩
    · rw [hsources] at hsome
      exact .inl hsome
    · exact h.posts q post sourceId hbefore hnamed
  sources sourceId hsome := h'.sources sourceId (h.sources sourceId hsome)

/-- A sync of a calendar keeps the sources: it creates posts of its own source only. -/
theorem Writes.keepsSources {params : SyncParams} {feed : Feed} (h : Writes params feed db db')
    (hsource : (db.syncSources.get params.sourceId).isSome) : KeepsSources db db' where
  posts p post' sourceId hpost hnamed := by
    obtain ⟨cleaned, synced, _, hcleaned, hsynced, rfl⟩ := h.steps
    by_cases hp : p < cleaned.nextPostId
    · right
      obtain ⟨uid, huid⟩ := Option.isSome_iff_exists.mp
        (hsynced.valid.named p post' hpost (by rw [hnamed]; rfl))
      have hkey : synced.keyOf p = some ⟨sourceId, uid, post'.syncSourceRecurrenceAnchor⟩ := by
        have hget : synced.posts.get p = some post' := hpost
        rw [Database.keyOf, hget]
        exact Post.syncKey_eq_some_iff.mpr ⟨hnamed, huid, rfl⟩
      obtain ⟨post, hget, hold⟩ := Option.bind_eq_some_iff.mp (hsynced.keyOf_of_some hp hkey)
      have hnot : ¬ Orphan db params.sourceId p := by
        intro horphan
        rw [hcleaned.orphan p horphan] at hget
        cases hget
      rw [hcleaned.other p hnot] at hget
      exact ⟨p, post, hget, (Post.syncKey_eq_some_iff.mp hold).1⟩
    · left
      obtain ⟨uid, _, hcreated⟩ := hsynced.new p post' (Nat.le_of_not_lt hp) hpost
      have hown : post'.syncSourceId = some params.sourceId := by
        rcases hcreated with hevent | hoccasion
        · obtain ⟨_, _, rfl⟩ := hevent.text
          rfl
        · obtain ⟨_, _, _, _, _, rfl, _⟩ := hoccasion.occurrence
          rfl
      rw [hown] at hnamed
      obtain rfl := Option.some.inj hnamed
      exact hsource
  sources sourceId hsome := by
    have hconfiguration := h.configuration sourceId
    rw [← Option.isSome_map (f := (·.configuration)), hconfiguration, Option.isSome_map]
    exact hsome

/-- Bringing a text up to date keeps the sources. -/
theorem KeepsSources.syncPostText (postId : Nat) (title content link : Option String)
    (hok : syncPostText db postId title content link = .ok db') :
    KeepsSources db db' ∧ db'.syncSources = db.syncSources := by
  rw [Sync.syncPostText] at hok
  split at hok
  · cases hok
  · split at hok
    · obtain rfl := Except.ok.inj hok
      have hsame : ∀ post, (retext title content link post).syncSourceId = post.syncSourceId :=
        fun _ => rfl
      exact ⟨.updatePosts db _ hsame (fun _ => rfl), rfl⟩
    · obtain rfl := Except.ok.inj hok
      exact ⟨.of_same rfl rfl, rfl⟩

/-- The post of an entry is created only for a source that exists. -/
theorem KeepsSources.createPostForEntry (h : Valid db) (source : SyncSource)
    (moderation : Moderation) (entry : FeedEntry)
    (hok : createPostForEntry source moderation db entry = .ok db') :
    KeepsSources db db' ∧ db'.syncSources = db.syncSources := by
  obtain ⟨posts, hinsert, hget, _⟩ := h.insertPost (newEntryPost source.userId moderation entry)
  simp only [Sync.createPostForEntry, hinsert, bind, Except.bind, Database.setSyncKey] at hok
  split at hok
  · cases hok
  rename_i hexists
  split at hok
  · cases hok
  obtain rfl := Except.ok.inj hok
  refine ⟨⟨fun p post' sourceId hpost hsource => ?_, fun _ hsome => hsome⟩, rfl⟩
  rw [Table.get_update_key, hget] at hpost
  by_cases hp : p = db.nextPostId
  · rw [if_pos hp, if_pos hp] at hpost
    obtain rfl := Option.some.inj hpost
    obtain rfl := Option.some.inj hsource
    rw [Bool.not_eq_true, Option.isNone_eq_false_iff] at hexists
    exact .inl hexists
  · rw [if_neg hp, if_neg hp] at hpost
    exact .inr ⟨p, post', hpost, hsource⟩

/-- Without the sources that are missing, a feed writes no post. -/
theorem KeepsSources.syncFeed (h : Valid db) (source : SyncSource)
    (config : Option ServerConfiguration) (entries : List FeedEntry)
    (hok : syncFeed source config entries db = .ok db') : KeepsSources db db' := by
  rw [Sync.syncFeed] at hok
  cases hfold : entries.foldlM (syncEntry source (defaultPostModeration config)
      (existingPostIdsByUid db source.id)) db with
  | error e =>
    rw [hfold] at hok
    cases hok
  | ok written =>
    rw [hfold] at hok
    obtain rfl := Except.ok.inj hok
    have hwritten : Valid written ∧ KeepsSources db written ∧
        written.syncSources = db.syncSources := by
      refine foldlM_invariant (I := fun between => Valid between ∧ KeepsSources db between ∧
        between.syncSources = db.syncSources) ?_ ⟨h, .of_same rfl rfl, rfl⟩ hfold
      rintro before entry after ⟨hvalid, hkeeps, hsame⟩ hentry
      rw [syncEntry] at hentry
      split at hentry
      · obtain rfl := Except.ok.inj hentry
        exact ⟨hvalid, hkeeps, hsame⟩
      · split at hentry
        · obtain ⟨hnext, hsources⟩ := KeepsSources.syncPostText _ _ _ _ hentry
          exact ⟨hvalid.syncPostText _ _ _ _ hentry, hkeeps.trans hnext hsame,
            hsources.trans hsame⟩
        · obtain ⟨hnext, hsources⟩ :=
            KeepsSources.createPostForEntry hvalid source _ entry hentry
          exact ⟨hvalid.createPostForEntry _ _ _ hentry, hkeeps.trans hnext hsame,
            hsources.trans hsame⟩
    obtain ⟨_, hkeeps, hsame⟩ := hwritten
    refine hkeeps.trans ⟨fun p post' sourceId hpost hsource => .inr ⟨p, post', hpost, hsource⟩,
      fun sourceId hsome => ?_⟩ hsame
    rw [Table.get_update, Option.isSome_map]
    exact hsome

/-- Deleting posts keeps the sources. -/
theorem KeepsSources.deletePosts (postIds : List Nat) (hok : db.deletePosts postIds = .ok db') :
    KeepsSources db db' ∧ db'.syncSources = db.syncSources ∧
      ∀ p post, db'.posts.get p = some post → p ∉ postIds := by
  rw [Database.deletePosts] at hok
  split at hok
  · cases hok
  · obtain rfl := Except.ok.inj hok
    refine ⟨⟨fun p post' sourceId hpost hsource => ?_, fun _ hsome => hsome⟩, rfl,
      fun p post hpost => ?_⟩
    · rw [Table.get_delete] at hpost
      exact .inr ⟨p, post', (Option.filter_eq_some_iff.mp hpost).1, hsource⟩
    · rw [Table.get_delete] at hpost
      obtain ⟨hget, hkept⟩ := Option.filter_eq_some_iff.mp hpost
      rw [Table.key_of_get hget] at hkept
      simpa using hkept

/-- A source that is deleted is no longer named. -/
theorem Referenced.deleteSyncSource (hdb : Referenced db) (sourceId : Nat)
    (deleteSyncedEvents : Bool)
    (hok : db.deleteSyncSource sourceId deleteSyncedEvents = .ok db') : Referenced db' := by
  have hdeleted : ∀ between : Database, Referenced between →
      (∀ p post, between.posts.get p = some post → post.syncSourceId ≠ some sourceId) →
      Referenced { between with
        syncSources := between.syncSources.delete fun source => source.id = sourceId } := by
    intro between hbetween hnone p post other hpost hnamed
    have hsome := hbetween p post other hpost hnamed
    obtain ⟨source, hget⟩ := Option.isSome_iff_exists.mp hsome
    have hother : source.id ≠ sourceId := by
      rintro rfl
      rw [← Table.key_of_get hget] at hnamed
      exact hnone p post hpost hnamed
    rw [Table.get_delete, hget, Option.filter_some, if_pos (by simpa using hother)]
    rfl
  simp only [Database.deleteSyncSource, bind, Except.bind] at hok
  cases deleteSyncedEvents with
  | true =>
    simp only [if_true] at hok
    split at hok
    · cases hok
    rename_i between hdelete
    obtain rfl := Except.ok.inj hok
    obtain ⟨hkeeps, hsame, hgone⟩ := KeepsSources.deletePosts _ hdelete
    refine hdeleted between (hkeeps.referenced hdb) fun p post hpost hnamed => ?_
    rw [Database.deletePosts] at hdelete
    split at hdelete
    · cases hdelete
    obtain rfl := Except.ok.inj hdelete
    rw [Table.get_delete] at hpost
    obtain ⟨hget, _⟩ := Option.filter_eq_some_iff.mp hpost
    obtain ⟨hmem, hid⟩ := Table.get_eq_some_iff.mp hget
    refine hgone p post (by rw [Table.get_delete]; exact hpost) ?_
    exact List.mem_map.mpr ⟨post, List.mem_filter.mpr ⟨hmem, decide_eq_true hnamed⟩, hid⟩
  | false =>
    obtain rfl := Except.ok.inj hok
    refine hdeleted { db with
      posts := db.posts.update (fun post => post.syncSourceId = some sourceId)
        (fun post => { post with
          syncSourceId := none
          syncSourceUid := none
          syncSourceRecurrenceAnchor := none })
        (fun _ => rfl) } ?_ fun p post hpost hnamed => ?_
    · intro p post other hpost hnamed
      rw [Table.get_update] at hpost
      obtain ⟨before, hbefore, rfl⟩ := Option.map_eq_some_iff.mp hpost
      split at hnamed
      · cases hnamed
      · exact hdb p before other hbefore hnamed
    · rw [Table.get_update] at hpost
      obtain ⟨before, hbefore, rfl⟩ := Option.map_eq_some_iff.mp hpost
      split at hnamed
      · cases hnamed
      · rename_i hother
        exact hother (decide_eq_true hnamed)

/-- Every action keeps the references. -/
theorem step_referenced (h : Valid db) (hdb : Referenced db) (action : Action) :
    Referenced (step crates db action) := by
  have hok : ∀ db', perform crates db action = some db' → Referenced db' := by
    intro db' hperform
    cases action with
    | syncCalendar order call =>
      obtain ⟨⟨source, hget, _⟩, _, hwrites⟩ := writes_of_ok h (ok_of_toOption hperform)
      have hsome : (db.syncSources.get call.params.sourceId).isSome :=
        Option.isSome_iff_exists.mpr ⟨source, hget⟩
      exact (hwrites.keepsSources hsome).referenced hdb
    | syncFeed source config entries =>
      exact (KeepsSources.syncFeed h source config entries (ok_of_toOption hperform)).referenced
        hdb
    | putSyncSource source =>
      obtain rfl := Option.some.inj hperform
      intro p post sourceId hpost hnamed
      rw [Table.get_put]
      split
      · rfl
      · exact hdb p post sourceId hpost hnamed
    | deleteSyncSource sourceId deleteSyncedEvents =>
      exact hdb.deleteSyncSource sourceId deleteSyncedEvents (ok_of_toOption hperform)
    | createPost columns =>
      obtain ⟨posts, hinsert, _, _⟩ := h.insertPost columns
      have hkeeps := KeepsSources.insertPost h columns hinsert
      rw [perform, hinsert] at hperform
      obtain rfl := Option.some.inj hperform
      exact hkeeps.referenced hdb
    | createEvent columns =>
      have hcreated := ok_of_toOption hperform
      obtain ⟨posts, hinsert, _, _⟩ := h.insertPost { columns with context := .event }
      have hkeeps := KeepsSources.insertPost h _ hinsert
      simp only [Database.createEvent, hinsert, bind, Except.bind] at hcreated
      obtain ⟨hposts, hsources⟩ := insertEvent_posts hcreated
      exact (hkeeps.trans (.of_same hposts hsources) rfl).referenced hdb
    | createOccasion columns eventId startsAt endsAt location timezone =>
      have hcreated := ok_of_toOption hperform
      obtain ⟨posts, hinsert, _, _⟩ := h.insertPost { columns with context := .occasion }
      have hkeeps := KeepsSources.insertPost h _ hinsert
      simp only [Database.createOccasion, hinsert, bind, Except.bind] at hcreated
      obtain ⟨hposts, hsources⟩ := insertOccasion_posts hcreated
      exact (hkeeps.trans (.of_same hposts hsources) rfl).referenced hdb
    | editPost postId columns =>
      obtain rfl := Option.some.inj hperform
      have hsame : ∀ post : Post, ({ post with toNewPost :=
          { columns with context := post.context } } : Post).syncSourceId = post.syncSourceId :=
        fun _ => rfl
      exact (KeepsSources.updatePosts db _ hsame (fun _ => rfl)).referenced hdb
    | editOccasion eventId postId startsAt endsAt location timezone =>
      have hedited := ok_of_toOption hperform
      rw [Database.editOccasion] at hedited
      split at hedited
      · cases hedited
      · obtain rfl := Except.ok.inj hedited
        exact hdb
    | deleteEvent eventId =>
      have hdeleted := ok_of_toOption hperform
      simp only [Database.deleteEvent, bind, Except.bind, Database.deleteOccasionRows] at hdeleted
      split at hdeleted
      · cases hdeleted
      · rename_i between hbetween
        split at hbetween
        · cases hbetween
        · obtain rfl := Except.ok.inj hbetween
          obtain rfl := Except.ok.inj hdeleted
          exact hdb
    | deleteRemovedOccasions eventId keptIds =>
      have hdeleted := ok_of_toOption hperform
      rw [Database.deleteRemovedOccasions, Database.deleteOccasionRows] at hdeleted
      split at hdeleted
      · cases hdeleted
      · obtain rfl := Except.ok.inj hdeleted
        exact hdb
    | sharePost postId =>
      obtain rfl := Option.some.inj hperform
      exact hdb
    | shareOccasion postId =>
      obtain rfl := Option.some.inj hperform
      exact hdb
  rw [step]
  cases hperform : perform crates db action with
  | none => exact hdb
  | some db' => exact hok db' hperform

end

end Rellm.Sync
