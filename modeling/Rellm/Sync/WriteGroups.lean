import Rellm.Sync.Synced

/-!
# Writing all groups of a feed

UIDs are synced one after the other: what was synced for some UIDs is kept while
others are synced. The groups of a feed cover the UIDs it lists and the stale
events those it does not, so that afterwards every row of the source is settled.
-/

namespace Rellm.Sync

open Foundation Calendar

namespace Synced

variable {params : SyncParams} {feed : Feed} {handled handled' : String → Prop} {uid : String}
  {anchor : Option Instant} {eventId p : Nat} {db db' db'' : Database}

/-- A post that survives is looked up the way it was. -/
theorem post_same (h : Synced params feed handled db db') (hp : p < db.nextPostId) {post' : Post}
    (hpost' : db'.posts.get p = some post') :
    ∃ post, db.posts.get p = some post ∧ SameSync post post' := by
  by_cases haffected : Affected params.sourceId handled db p
  · obtain ⟨uid, anchor, hhandled, hkey, hevent⟩ := haffected
    cases anchor with
    | some anchor =>
      rw [h.occasionPost p uid anchor hhandled hkey] at hpost'
      split at hpost'
      · cases hpost'
      · obtain ⟨post, hpost, rfl⟩ := Option.map_eq_some_iff.mp hpost'
        exact ⟨post, hpost, overrideText_same _ post⟩
    | none =>
      cases htext : feed.text uid with
      | some text =>
        rw [(h.listedEvent p uid text hhandled hkey (hevent rfl) htext).1] at hpost'
        obtain ⟨post, hpost, rfl⟩ := Option.map_eq_some_iff.mp hpost'
        exact ⟨post, hpost, rfl, rfl, rfl, rfl⟩
      | none =>
        by_cases hkeeps : KeepsOccasion params db p
        · rw [(h.keptEvent p uid hhandled hkey (hevent rfl) htext hkeeps).1] at hpost'
          exact ⟨post', hpost', .rfl⟩
        · rw [(h.deletedEvent p uid hhandled hkey (hevent rfl) htext hkeeps).1] at hpost'
          cases hpost'
  · rw [(h.others p hp haffected).posts] at hpost'
    exact ⟨post', hpost', .rfl⟩

/-- A key that is found on a post that was there was its key before. -/
theorem keyOf_of_some (h : Synced params feed handled db db') (hp : p < db.nextPostId)
    {key : SyncKey} (hkey : db'.keyOf p = some key) : db.keyOf p = some key := by
  obtain ⟨post', hpost', hsync⟩ := Option.bind_eq_some_iff.mp hkey
  obtain ⟨post, hpost, hsame⟩ := h.post_same hp hpost'
  rw [Database.keyOf, hpost, Option.bind_some, ← hsame.syncKey, hsync]

/-- A row under a UID that was not synced is the same. -/
theorem same_of_unhandled (h : Synced params feed handled db db') (hdb : Valid db)
    (hkey : db.keyOf p = some ⟨params.sourceId, uid, anchor⟩) (hunhandled : ¬ handled uid) :
    SameRows db db' p := by
  refine h.others p (hdb.lt_of_key hkey) ?_
  rintro ⟨uid', anchor', hhandled, hkey', _⟩
  rw [hkey, Option.some.injEq, SyncKey.mk.injEq] at hkey'
  exact hunhandled (hkey'.2.1 ▸ hhandled)

/-- A new row is under a UID that was synced. -/
theorem new_key (h : Synced params feed handled db db') (hp : db.nextPostId ≤ p) {post : Post}
    (hpost : db'.posts.get p = some post) :
    ∃ uid anchor, handled uid ∧ db'.keyOf p = some ⟨params.sourceId, uid, anchor⟩ := by
  obtain ⟨uid, hhandled, hcreated⟩ := h.new p post hp hpost
  rw [Database.keyOf, hpost, Option.bind_some]
  rcases hcreated with hevent | hoccasion
  · obtain ⟨text, _, rfl⟩ := hevent.text
    exact ⟨uid, none, hhandled, rfl⟩
  · obtain ⟨anchor, occ, _, hocc, _, rfl, _, _⟩ := hoccasion.occurrence
    exact ⟨uid, some occ.recurrenceAnchor, hhandled, rfl⟩

/-- A new post without an anchor is the one an event was created with. -/
theorem created_event (h : Synced params feed handled db db') (hp : db.nextPostId ≤ p)
    (hkey : db'.keyOf p = some ⟨params.sourceId, uid, none⟩) :
    ∃ post, db'.posts.get p = some post ∧ CreatedEvent params feed db db' uid p post := by
  obtain ⟨post, hpost, hsync⟩ := Option.bind_eq_some_iff.mp hkey
  obtain ⟨_, huid, hanchor⟩ := Post.syncKey_eq_some_iff.mp hsync
  obtain ⟨uid', _, hevent | hoccasion⟩ := h.new p post hp hpost
  · obtain ⟨text, _, rfl⟩ := hevent.text
    obtain rfl : uid' = uid := Option.some.inj huid
    exact ⟨_, hpost, hevent⟩
  · obtain ⟨_, occ, _, _, _, rfl, _, _⟩ := hoccasion.occurrence
    cases hanchor

/-- A new post with an anchor is the one an occasion was created with. -/
theorem created_occasion (h : Synced params feed handled db db') (hp : db.nextPostId ≤ p)
    {anchor : Instant} (hkey : db'.keyOf p = some ⟨params.sourceId, uid, some anchor⟩) :
    ∃ occ e, feed.occurrence uid anchor = some occ ∧
      (∀ q, db.keyOf q ≠ some ⟨params.sourceId, uid, some anchor⟩) ∧
      db'.posts.get p = some (createdOccasionPost params uid occ p) ∧
      db'.occasions.get p = some (newOccasion e p occ) ∧
      db'.keyOf e = some ⟨params.sourceId, uid, none⟩ ∧ db'.events.get p = none := by
  obtain ⟨post, hpost, hsync⟩ := Option.bind_eq_some_iff.mp hkey
  obtain ⟨_, huid, hanchor⟩ := Post.syncKey_eq_some_iff.mp hsync
  obtain ⟨uid', _, hevent | hoccasion⟩ := h.new p post hp hpost
  · obtain ⟨text, _, rfl⟩ := hevent.text
    cases hanchor
  · obtain ⟨anchor', occ, e, hocc, hfree, rfl, ho, hevent⟩ := hoccasion.occurrence
    obtain rfl : uid' = uid := Option.some.inj huid
    obtain rfl : anchor' = anchor := by
      rw [← feed.anchored _ _ _ hocc]
      exact Option.some.inj hanchor
    exact ⟨occ, e, hocc, hfree, hpost, ho, hevent, hoccasion.event⟩

/-- A row found under a UID that was not synced was there before. -/
theorem old_of_unhandled (h : Synced params feed handled db db') (hdb : Valid db)
    (hkey : db'.keyOf p = some ⟨params.sourceId, uid, anchor⟩) (hunhandled : ¬ handled uid) :
    db.keyOf p = some ⟨params.sourceId, uid, anchor⟩ ∧ SameRows db db' p := by
  have hp : p < db.nextPostId := by
    by_contra hge
    obtain ⟨post, hpost, _⟩ := Option.bind_eq_some_iff.mp hkey
    obtain ⟨uid', anchor', hhandled, hkey'⟩ := h.new_key (Nat.le_of_not_lt hge) hpost
    rw [hkey, Option.some.injEq, SyncKey.mk.injEq] at hkey'
    exact hunhandled (hkey'.2.1 ▸ hhandled)
  have hold := h.keyOf_of_some hp hkey
  exact ⟨hold, h.same_of_unhandled hdb hold hunhandled⟩

/-- Two descriptions of the same UIDs. -/
theorem congr (h : Synced params feed handled db db') (hiff : ∀ uid, handled uid ↔ handled' uid) :
    Synced params feed handled' db db' := by
  obtain rfl : handled = handled' := funext fun uid => propext (hiff uid)
  exact h

/-- The occasions of an event whose UID was not synced are the same. -/
theorem occasion_same (h : Synced params feed handled db db')
    (hevent : HasEvent db params.sourceId uid eventId) (hunhandled : ¬ handled uid)
    {o : Occasion} (hoccasion : o.eventId = eventId)
    (hrow : db.occasions.get p = some o ∨ db'.occasions.get p = some o) :
    SameRows db db' p := by
  have hsame := h.same_of_unhandled hevent.valid hevent.key hunhandled
  have hevent' : HasEvent db' params.sourceId uid eventId :=
    ⟨h.valid, h.noOrphans, by rw [hsame.events]; exact hevent.event,
      hsame.keyOf.trans hevent.key⟩
  rcases hrow with ho | ho
  · have hp := hevent.valid.fresh p
      (hevent.valid.occasionPost p (Option.isSome_iff_exists.mpr ⟨o, ho⟩))
    refine h.others p hp ?_
    rintro ⟨uid', anchor', hhandled, hkey, _⟩
    obtain ⟨_, hkey'⟩ := hevent.occasion_key ho hoccasion hkey
    rw [SyncKey.mk.injEq] at hkey'
    exact hunhandled (hkey'.2.1 ▸ hhandled)
  · obtain ⟨post, hpost⟩ := Option.isSome_iff_exists.mp
      (h.valid.occasionPost p (Option.isSome_iff_exists.mpr ⟨o, ho⟩))
    have hother : ∀ uid' anchor', handled uid' →
        db'.keyOf p ≠ some ⟨params.sourceId, uid', anchor'⟩ := by
      intro uid' anchor' hhandled hkey
      obtain ⟨_, hkey'⟩ := hevent'.occasion_key ho hoccasion hkey
      rw [SyncKey.mk.injEq] at hkey'
      exact hunhandled (hkey'.2.1 ▸ hhandled)
    have hp : p < db.nextPostId := by
      by_contra hge
      obtain ⟨uid', anchor', hhandled, hkey⟩ := h.new_key (Nat.le_of_not_lt hge) hpost
      exact hother uid' anchor' hhandled hkey
    refine h.others p hp ?_
    rintro ⟨uid', anchor', hhandled, hkey, _⟩
    obtain ⟨before, hbefore, hsync⟩ := h.post_same hp hpost
    refine hother uid' anchor' hhandled ?_
    rw [Database.keyOf, hpost, Option.bind_some, hsync.syncKey, ← hkey, Database.keyOf, hbefore,
      Option.bind_some]

/-- Syncing other UIDs does not change whether an event keeps an occasion. -/
theorem keepsOccasion_iff (h : Synced params feed handled db db')
    (hevent : HasEvent db params.sourceId uid eventId) (hunhandled : ¬ handled uid) :
    KeepsOccasion params db eventId ↔ KeepsOccasion params db' eventId := by
  constructor
  · rintro ⟨q, o, ho, heq, hkept⟩
    have hsame := h.occasion_same hevent hunhandled heq (.inl ho)
    exact ⟨q, o, hsame.occasions.trans ho, heq, hsame.keyOf ▸ hkept⟩
  · rintro ⟨q, o, ho, heq, hkept⟩
    have hsame := h.occasion_same hevent hunhandled heq (.inr ho)
    exact ⟨q, o, hsame.occasions.symm.trans ho, heq, hsame.keyOf ▸ hkept⟩

/-- Some UIDs are synced, and then others. -/
theorem trans (h : Synced params feed handled db db')
    (h' : Synced params feed handled' db' db'') (hdb : Valid db)
    (hnone : NoOrphans db params.sourceId) (hdisjoint : ∀ uid, handled uid → ¬ handled' uid) :
    Synced params feed (fun uid => handled uid ∨ handled' uid) db db'' := by
  have hlater : ∀ p uid anchor, handled uid →
      db.keyOf p = some ⟨params.sourceId, uid, anchor⟩ → SameRows db' db'' p := by
    intro p uid anchor hhandled hkey
    have hp := hdb.lt_of_key hkey
    refine h'.others p (Nat.lt_of_lt_of_le hp h.next) ?_
    rintro ⟨uid', anchor', hhandled', hkey', _⟩
    have hold := h.keyOf_of_some hp hkey'
    rw [hkey, Option.some.injEq, SyncKey.mk.injEq] at hold
    exact hdisjoint uid hhandled (hold.2.1 ▸ hhandled')
  have hearlier : ∀ p uid anchor, handled' uid →
      db.keyOf p = some ⟨params.sourceId, uid, anchor⟩ → SameRows db db' p := by
    intro p uid anchor hhandled' hkey
    exact h.same_of_unhandled hdb hkey fun hhandled => hdisjoint uid hhandled hhandled'
  have hkept : ∀ p uid anchor, handled uid →
      db'.keyOf p = some ⟨params.sourceId, uid, anchor⟩ → SameRows db' db'' p :=
    fun p uid anchor hhandled hkey =>
      h'.same_of_unhandled h.valid hkey (hdisjoint uid hhandled)
  have hfree : ∀ uid anchor, handled' uid →
      (∀ q, db'.keyOf q ≠ some ⟨params.sourceId, uid, anchor⟩) →
      ∀ q, db.keyOf q ≠ some ⟨params.sourceId, uid, anchor⟩ := by
    intro uid anchor hhandled' hnot q hkey
    exact hnot q ((hearlier q uid anchor hhandled' hkey).keyOf.trans hkey)
  exact {
    valid := h'.valid
    noOrphans := h'.noOrphans
    syncSources := h'.syncSources.trans h.syncSources
    next := Nat.le_trans h.next h'.next
    others := by
      intro p hp hnot
      have hsame := h.others p hp fun ⟨uid, anchor, hhandled, hrest⟩ =>
        hnot ⟨uid, anchor, .inl hhandled, hrest⟩
      have hsame' := h'.others p (Nat.lt_of_lt_of_le hp h.next)
        fun ⟨uid, anchor, hhandled, hkey, hevent⟩ =>
          hnot ⟨uid, anchor, .inr hhandled, hsame.keyOf.symm.trans hkey,
            fun ha => by rw [← hsame.events]; exact hevent ha⟩
      exact ⟨hsame'.posts.trans hsame.posts, hsame'.events.trans hsame.events,
        hsame'.occasions.trans hsame.occasions⟩
    occasion := by
      rintro p uid anchor (hhandled | hhandled') hkey
      · rw [(hlater p uid _ hhandled hkey).occasions, h.occasion p uid anchor hhandled hkey]
      · have hsame := hearlier p uid _ hhandled' hkey
        rw [h'.occasion p uid anchor hhandled' (hsame.keyOf.trans hkey), hsame.occasions]
    occasionPost := by
      rintro p uid anchor (hhandled | hhandled') hkey
      · have hsame := hlater p uid _ hhandled hkey
        rw [hsame.posts, hsame.occasions, h.occasionPost p uid anchor hhandled hkey]
      · have hsame := hearlier p uid _ hhandled' hkey
        rw [h'.occasionPost p uid anchor hhandled' (hsame.keyOf.trans hkey), hsame.posts]
    listedEvent := by
      rintro p uid text (hhandled | hhandled') hkey hevent htext
      · have hsame := hlater p uid _ hhandled hkey
        rw [hsame.posts, hsame.events]
        exact h.listedEvent p uid text hhandled hkey hevent htext
      · have hsame := hearlier p uid _ hhandled' hkey
        rw [← hsame.posts, ← hsame.events]
        exact h'.listedEvent p uid text hhandled' (hsame.keyOf.trans hkey)
          (hsame.events ▸ hevent) htext
    keptEvent := by
      rintro p uid (hhandled | hhandled') hkey hevent htext hkeeps
      · have hsame := hlater p uid _ hhandled hkey
        rw [hsame.posts, hsame.events]
        exact h.keptEvent p uid hhandled hkey hevent htext hkeeps
      · have hsame := hearlier p uid _ hhandled' hkey
        have hkeeps' := (h.keepsOccasion_iff ⟨hdb, hnone, hevent, hkey⟩
          fun hhandled => hdisjoint uid hhandled hhandled').mp hkeeps
        rw [← hsame.posts, ← hsame.events]
        exact h'.keptEvent p uid hhandled' (hsame.keyOf.trans hkey)
          (hsame.events ▸ hevent) htext hkeeps'
    deletedEvent := by
      rintro p uid (hhandled | hhandled') hkey hevent htext hkeeps
      · have hsame := hlater p uid _ hhandled hkey
        rw [hsame.posts, hsame.events]
        exact h.deletedEvent p uid hhandled hkey hevent htext hkeeps
      · have hsame := hearlier p uid _ hhandled' hkey
        have hkeeps' := mt (h.keepsOccasion_iff ⟨hdb, hnone, hevent, hkey⟩
          fun hhandled => hdisjoint uid hhandled hhandled').mpr hkeeps
        exact h'.deletedEvent p uid hhandled' (hsame.keyOf.trans hkey)
          (hsame.events ▸ hevent) htext hkeeps'
    new := by
      intro p post hp hpost
      by_cases hp' : p < db'.nextPostId
      · obtain ⟨post', hpost', _⟩ := h'.post_same hp' hpost
        obtain ⟨uid', anchor', hhandled', hkey'⟩ := h.new_key hp hpost'
        have hsame := hkept p uid' anchor' hhandled' hkey'
        rw [hsame.posts] at hpost
        obtain ⟨uid, hhandled, hcreated⟩ := h.new p post hp hpost
        refine ⟨uid, .inl hhandled, hcreated.imp ?_ ?_⟩
        · intro hevent
          exact ⟨hevent.text, hevent.free, hsame.events.trans hevent.event,
            hsame.occasions.trans hevent.occasion⟩
        · intro hoccasion
          obtain ⟨anchor, occ, e, hocc, hnew, heq, ho, hkey⟩ := hoccasion.occurrence
          have hsameEvent := hkept e uid none hhandled hkey
          exact ⟨⟨anchor, occ, e, hocc, hnew, heq, hsame.occasions.trans ho,
            hsameEvent.keyOf.trans hkey⟩, hsame.events.trans hoccasion.event⟩
      · obtain ⟨uid, hhandled', hcreated⟩ := h'.new p post (Nat.le_of_not_lt hp') hpost
        refine ⟨uid, .inr hhandled', hcreated.imp ?_ ?_⟩
        · intro hevent
          exact ⟨hevent.text, hfree uid none hhandled' hevent.free, hevent.event, hevent.occasion⟩
        · intro hoccasion
          obtain ⟨anchor, occ, e, hocc, hnew, hrest⟩ := hoccasion.occurrence
          exact ⟨⟨anchor, occ, e, hocc, hfree uid (some anchor) hhandled' hnew, hrest⟩,
            hoccasion.event⟩
    presentEvent := by
      rintro uid (hhandled | hhandled') hsome
      · obtain ⟨p, hevent, hkey⟩ := h.presentEvent uid hhandled hsome
        have hsame := hkept p uid none hhandled hkey
        exact ⟨p, by rw [hsame.events]; exact hevent, hsame.keyOf.trans hkey⟩
      · exact h'.presentEvent uid hhandled' hsome
    presentOccasion := by
      rintro uid anchor (hhandled | hhandled') hsome
      · obtain ⟨p, hkey⟩ := h.presentOccasion uid anchor hhandled hsome
        exact ⟨p, (hkept p uid (some anchor) hhandled hkey).keyOf.trans hkey⟩
      · exact h'.presentOccasion uid anchor hhandled' hsome }

/-- No UID was synced. -/
theorem nothing (hdb : Valid db) (hnone : NoOrphans db params.sourceId) :
    Synced params feed (fun _ => False) db db where
  valid := hdb
  noOrphans := hnone
  syncSources := rfl
  next := Nat.le_refl _
  others _ _ _ := ⟨rfl, rfl, rfl⟩
  occasion _ _ _ hfalse := hfalse.elim
  occasionPost _ _ _ hfalse := hfalse.elim
  listedEvent _ _ _ hfalse := hfalse.elim
  keptEvent _ _ hfalse := hfalse.elim
  deletedEvent _ _ hfalse := hfalse.elim
  new p post hp hpost := by
    have hlt := hdb.fresh p (Option.isSome_iff_exists.mpr ⟨post, hpost⟩)
    omega
  presentEvent _ hfalse := hfalse.elim
  presentOccasion _ _ hfalse := hfalse.elim

/-- All UIDs are synced once those the feed lists and those of events are. -/
theorem all (h : Synced params feed handled db db') (hdb : Valid db)
    (hnone : NoOrphans db params.sourceId)
    (hlisted : ∀ uid, (feed.text uid).isSome → handled uid)
    (hevents : ∀ uid e, (db.events.get e).isSome →
      db.keyOf e = some ⟨params.sourceId, uid, none⟩ → handled uid) :
    Synced params feed (fun _ => True) db db' := by
  have hoccasions : ∀ p uid anchor, db.keyOf p = some ⟨params.sourceId, uid, some anchor⟩ →
      handled uid := by
    intro p uid anchor hkey
    obtain ⟨o, ho⟩ := Option.isSome_iff_exists.mp (hnone.occasion_isSome hdb hkey)
    exact hevents uid o.eventId (hdb.occasionEvent p o ho) (hdb.occasionKey p o _ ho hkey).2
  exact {
    valid := h.valid
    noOrphans := h.noOrphans
    syncSources := h.syncSources
    next := h.next
    others := fun p hp hnot => h.others p hp fun ⟨uid, anchor, _, hrest⟩ =>
      hnot ⟨uid, anchor, trivial, hrest⟩
    occasion := fun p uid anchor _ hkey =>
      h.occasion p uid anchor (hoccasions p uid anchor hkey) hkey
    occasionPost := fun p uid anchor _ hkey =>
      h.occasionPost p uid anchor (hoccasions p uid anchor hkey) hkey
    listedEvent := fun p uid text _ hkey hevent =>
      h.listedEvent p uid text (hevents uid p hevent hkey) hkey hevent
    keptEvent := fun p uid _ hkey hevent =>
      h.keptEvent p uid (hevents uid p hevent hkey) hkey hevent
    deletedEvent := fun p uid _ hkey hevent =>
      h.deletedEvent p uid (hevents uid p hevent hkey) hkey hevent
    new := by
      intro p post hp hpost
      obtain ⟨uid, _, hcreated⟩ := h.new p post hp hpost
      exact ⟨uid, trivial, hcreated⟩
    presentEvent := fun uid _ hsome => h.presentEvent uid (hlisted uid hsome) hsome
    presentOccasion := fun uid anchor _ hsome =>
      h.presentOccasion uid anchor (hlisted uid (feed.listed uid anchor hsome)) hsome }

end Synced

/-- A post that is not an event holds a UID of a source. -/
def PlainHeld (db : Database) (sourceId : Nat) (uid : String) : Prop :=
  ∃ p, db.keyOf p = some ⟨sourceId, uid, none⟩ ∧ db.events.get p = none

section

variable {params : SyncParams} {feed : Feed} {db db' : Database}

/-- The event under a UID is the one whose post has that key. -/
theorem existingEventIdsByUid_value (hdb : Valid db) {sourceId : Nat} {uid : String}
    {eventId : Nat} :
    (existingEventIdsByUid db sourceId).value uid = some eventId ↔
      (db.events.get eventId).isSome ∧ db.keyOf eventId = some ⟨sourceId, uid, none⟩ := by
  have hlisted : ∀ name e, (name, e) ∈ (db.events.rows.filterMap fun event =>
      (db.posts.get event.postId).bind fun post =>
        if post.syncSourceId = some sourceId ∧ post.syncSourceRecurrenceAnchor = none then
          post.syncSourceUid.map fun uid => (uid, event.postId)
        else none) ↔
      (db.events.get e).isSome ∧ db.keyOf e = some ⟨sourceId, name, none⟩ := by
    intro name e
    rw [List.mem_filterMap]
    constructor
    · rintro ⟨event, hmem, hpair⟩
      obtain ⟨post, hpost, hpair⟩ := Option.bind_eq_some_iff.mp hpair
      split at hpair
      · rename_i hcond
        obtain ⟨uid', huid, heq⟩ := Option.map_eq_some_iff.mp hpair
        obtain ⟨rfl, rfl⟩ := Prod.mk.inj heq
        refine ⟨?_, ?_⟩
        · rw [Table.mem_rows_iff.mp hmem]
          rfl
        · rw [Database.keyOf, hpost, Option.bind_some]
          exact Post.syncKey_eq_some_iff.mpr ⟨hcond.1, huid, hcond.2⟩
      · cases hpair
    · rintro ⟨hsome, hkey⟩
      obtain ⟨event, hevent⟩ := Option.isSome_iff_exists.mp hsome
      have hid : event.postId = e := Table.key_of_get hevent
      obtain ⟨post, hpost, hsync⟩ := Option.bind_eq_some_iff.mp hkey
      obtain ⟨hsource, huid, hanchor⟩ := Post.syncKey_eq_some_iff.mp hsync
      refine ⟨event, (Table.get_eq_some_iff.mp hevent).1, ?_⟩
      rw [hid, hpost, Option.bind_some, if_pos ⟨hsource, hanchor⟩, huid]
      rfl
  rw [HashMap.value_eq_some_iff]
  constructor
  · intro hmem
    exact (hlisted uid eventId).mp (Table.mem_of_mem_collect hmem)
  · intro hrow
    have hsome : ((existingEventIdsByUid db sourceId).get uid).isSome :=
      Table.get_collect_isSome.mpr ⟨(uid, eventId), (hlisted uid eventId).mpr hrow, rfl⟩
    obtain ⟨⟨name, e⟩, hget⟩ := Option.isSome_iff_exists.mp hsome
    obtain ⟨hmem, hname⟩ := Table.get_eq_some_iff.mp hget
    simp only at hname
    subst hname
    have hother := (hlisted name e).mp (Table.mem_of_mem_collect hmem)
    rw [hdb.unique _ _ _ hrow.2 hother.2]
    exact hmem

/-- An event under a UID that was not synced yet is still there. -/
theorem Synced.hasEvent {handled : String → Prop} {uid : String} {eventId : Nat}
    (h : Synced params feed handled db db') (hdb : Valid db)
    (hevent : (db.events.get eventId).isSome)
    (hkey : db.keyOf eventId = some ⟨params.sourceId, uid, none⟩) (hunhandled : ¬ handled uid) :
    HasEvent db' params.sourceId uid eventId := by
  have hsame := h.same_of_unhandled hdb hkey hunhandled
  exact ⟨h.valid, h.noOrphans, by rw [hsame.events]; exact hevent, hsame.keyOf.trans hkey⟩

/-- One more group is synced, unless its UID is held by a post that is not an event. -/
theorem Synced.syncGroup {done : List EventGroup} {group : EventGroup} (hdb : Valid db)
    (hnone : NoOrphans db params.sourceId)
    (h : Synced params feed (· ∈ done.map (·.uid)) db db') (hlists : feed.Lists group)
    (hfresh : group.uid ∉ done.map (·.uid)) (hheld : ¬ PlainHeld db params.sourceId group.uid) :
    ∃ db'', syncGroup params (existingEventIdsByUid db params.sourceId) db' group = .ok db'' ∧
      Synced params feed (· ∈ (done ++ [group]).map (·.uid)) db db'' := by
  have hdisjoint : ∀ uid, uid ∈ done.map (·.uid) → ¬ uid = group.uid := by
    rintro _ hmem rfl
    exact hfresh hmem
  have hunion : ∀ uid, (uid ∈ done.map (·.uid) ∨ uid = group.uid) ↔
      uid ∈ (done ++ [group]).map (·.uid) := by
    intro uid
    rw [List.map_append, List.mem_append, List.map_singleton, List.mem_singleton]
  cases hexisting : (existingEventIdsByUid db params.sourceId).value group.uid with
  | some eventId =>
    obtain ⟨hevent, hkey⟩ := (existingEventIdsByUid_value hdb).mp hexisting
    obtain ⟨db'', hok, hsynced⟩ := syncGroup_existing_ok hlists
      (h.hasEvent hdb hevent hkey hfresh) hexisting
    exact ⟨db'', hok, (h.trans hsynced hdb hnone hdisjoint).congr hunion⟩
  | none =>
    have hfree : ∀ p, db'.keyOf p ≠ some ⟨params.sourceId, group.uid, none⟩ := by
      intro p hkey
      obtain ⟨hold, _⟩ := h.old_of_unhandled hdb hkey hfresh
      cases hevent : db.events.get p with
      | none => exact hheld ⟨p, hold, hevent⟩
      | some event =>
        have hsome := (existingEventIdsByUid_value hdb).mpr ⟨by rw [hevent]; rfl, hold⟩
        rw [hexisting] at hsome
        cases hsome
    obtain ⟨db'', hok, hsynced⟩ := syncGroup_new_ok hlists h.valid h.noOrphans hfree hexisting
    exact ⟨db'', hok, (h.trans hsynced hdb hnone hdisjoint).congr hunion⟩

/-- A group whose UID is held by a post that is not an event cannot be synced. -/
theorem Synced.syncGroup_error {done : List EventGroup} {group : EventGroup} (hdb : Valid db)
    (h : Synced params feed (· ∈ done.map (·.uid)) db db')
    (hfresh : group.uid ∉ done.map (·.uid)) (hheld : PlainHeld db params.sourceId group.uid) :
    Sync.syncGroup params (existingEventIdsByUid db params.sourceId) db' group =
      .error .uniqueViolation := by
  obtain ⟨p, hkey, hevent⟩ := hheld
  have hsame := h.same_of_unhandled hdb hkey hfresh
  refine Sync.syncGroup_error h.valid (hsame.keyOf.trans hkey) ?_
  rw [Option.eq_none_iff_forall_ne_some]
  intro eventId hexisting
  obtain ⟨hsome, hkey'⟩ := (existingEventIdsByUid_value hdb).mp hexisting
  rw [hdb.unique _ _ _ hkey' hkey, hevent] at hsome
  cases hsome

/-- A group that comes next is not among those that are done. -/
theorem uid_fresh {groups done rest : List EventGroup} {group : EventGroup}
    (hnodup : (groups.map (·.uid)).Nodup) (hsplit : groups = done ++ group :: rest) :
    group.uid ∉ done.map (·.uid) := by
  intro hmem
  rw [hsplit, List.map_append, List.map_cons] at hnodup
  exact List.disjoint_of_nodup_append hnodup hmem List.mem_cons_self

/-- The groups of a feed are synced if none of their UIDs is held by another post. -/
theorem syncGroups_ok {groups : List EventGroup} (hdb : Valid db)
    (hnone : NoOrphans db params.sourceId) (hlists : ∀ group ∈ groups, feed.Lists group)
    (hnodup : (groups.map (·.uid)).Nodup)
    (hheld : ∀ group ∈ groups, ¬ PlainHeld db params.sourceId group.uid) :
    ∃ db', groups.foldlM (syncGroup params (existingEventIdsByUid db params.sourceId)) db =
        .ok db' ∧ Synced params feed (· ∈ groups.map (·.uid)) db db' := by
  refine foldlM_prefix_induction
    (I := fun (done : List EventGroup) db' => Synced params feed (· ∈ done.map (·.uid)) db db') ?_ ?_
  · exact (Synced.nothing hdb hnone).congr fun uid => by
      rw [List.map_nil]
      exact iff_of_false id List.not_mem_nil
  · intro done group rest db' hsplit hsynced
    have hmem : group ∈ groups := by
      rw [hsplit]
      exact List.mem_append_right _ List.mem_cons_self
    exact hsynced.syncGroup hdb hnone (hlists group hmem) (uid_fresh hnodup hsplit)
      (hheld group hmem)

/-- Syncing groups fails if a UID of theirs is held by another post. -/
theorem syncGroups_error {groups : List EventGroup} (hdb : Valid db)
    (hnone : NoOrphans db params.sourceId) (hlists : ∀ group ∈ groups, feed.Lists group)
    (hnodup : (groups.map (·.uid)).Nodup)
    (hheld : ∃ group ∈ groups, PlainHeld db params.sourceId group.uid) :
    groups.foldlM (syncGroup params (existingEventIdsByUid db params.sourceId)) db =
      .error .uniqueViolation := by
  suffices hgoal : ∀ rest done db', groups = done ++ rest →
      Synced params feed (· ∈ done.map (·.uid)) db db' →
      (∃ group ∈ rest, PlainHeld db params.sourceId group.uid) →
      rest.foldlM (syncGroup params (existingEventIdsByUid db params.sourceId)) db' =
        .error .uniqueViolation by
    refine hgoal groups [] db rfl ((Synced.nothing hdb hnone).congr fun uid => ?_) hheld
    rw [List.map_nil]
    exact iff_of_false id List.not_mem_nil
  intro rest
  induction rest with
  | nil =>
    rintro done db' _ _ ⟨group, hmem, _⟩
    exact absurd hmem List.not_mem_nil
  | cons group rest ih =>
    intro done db' hsplit hsynced hlater
    have hfresh := uid_fresh hnodup hsplit
    have hmem : group ∈ groups := by
      rw [hsplit]
      exact List.mem_append_right _ List.mem_cons_self
    rw [List.foldlM_cons]
    by_cases hown : PlainHeld db params.sourceId group.uid
    · rw [hsynced.syncGroup_error hdb hfresh hown]
      rfl
    · obtain ⟨db'', hok, hnext⟩ := hsynced.syncGroup hdb hnone (hlists group hmem) hfresh hown
      rw [hok]
      refine ih (done ++ [group]) db'' (by simp [hsplit]) hnext ?_
      obtain ⟨other, hother, hotherHeld⟩ := hlater
      rcases List.mem_cons.mp hother with rfl | htail
      · exact absurd hotherHeld hown
      · exact ⟨other, htail, hotherHeld⟩

/-- The stale events of a source are pruned after its groups were synced. -/
theorem pruneEvents_ok {uids : List String} {db1 : Database} {staleIds : List Nat}
    (hdb : Valid db) (hnone : NoOrphans db params.sourceId)
    (hsynced : Synced params feed (· ∈ uids) db db1)
    (hunlisted : ∀ uid, uid ∉ uids → feed.text uid = none) (hnodup : staleIds.Nodup)
    (hstale : ∀ e ∈ staleIds, (db.events.get e).isSome ∧
      ∃ uid, db.keyOf e = some ⟨params.sourceId, uid, none⟩ ∧ uid ∉ uids) :
    ∃ db', staleIds.foldlM (pruneEvent params) db1 = .ok db' ∧
      Synced params feed (fun uid => uid ∈ uids ∨
        ∃ e ∈ staleIds, db.keyOf e = some ⟨params.sourceId, uid, none⟩) db db' := by
  refine foldlM_prefix_induction (I := fun (done : List Nat) db' => Synced params feed (fun uid =>
    uid ∈ uids ∨ ∃ e ∈ done, db.keyOf e = some ⟨params.sourceId, uid, none⟩) db db') ?_ ?_
  · refine hsynced.congr fun uid => (or_iff_left ?_).symm
    rintro ⟨e, hmem, _⟩
    exact absurd hmem List.not_mem_nil
  · intro done e rest db' hsplit hdone
    have hmem : e ∈ staleIds := by
      rw [hsplit]
      exact List.mem_append_right _ List.mem_cons_self
    obtain ⟨hevent, uid, hkey, hout⟩ := hstale e hmem
    have hfresh : ¬ (uid ∈ uids ∨
        ∃ e' ∈ done, db.keyOf e' = some ⟨params.sourceId, uid, none⟩) := by
      rintro (hin | ⟨e', hdone', hkey'⟩)
      · exact hout hin
      · obtain rfl := hdb.unique _ _ _ hkey' hkey
        rw [hsplit] at hnodup
        exact List.disjoint_of_nodup_append hnodup hdone' List.mem_cons_self
    obtain ⟨db'', hok, hpruned⟩ := pruneEvent_ok (hdone.hasEvent hdb hevent hkey hfresh)
      (hunlisted uid hout)
    refine ⟨db'', hok, (hdone.trans hpruned hdb hnone ?_).congr ?_⟩
    · rintro _ hhandled rfl
      exact hfresh hhandled
    · intro other
      constructor
      · rintro ((hin | ⟨e', hdone', hkey'⟩) | rfl)
        · exact .inl hin
        · exact .inr ⟨e', List.mem_append_left _ hdone', hkey'⟩
        · exact .inr ⟨e, List.mem_append_right _ (List.mem_singleton.mpr rfl), hkey⟩
      · rintro (hin | ⟨e', hmem', hkey'⟩)
        · exact .inl (.inl hin)
        · rcases List.mem_append.mp hmem' with hdone' | hlast
          · exact .inl (.inr ⟨e', hdone', hkey'⟩)
          · obtain rfl := List.mem_singleton.mp hlast
            rw [hkey, Option.some.injEq, SyncKey.mk.injEq] at hkey'
            exact .inr hkey'.2.1.symm

/-- A post of a source that lost its event or its occasion. -/
def Orphan (db : Database) (sourceId : Nat) (p : Nat) : Prop :=
  ∃ post, db.posts.get p = some post ∧ post.syncSourceId = some sourceId ∧
    (post.context = .event ∧ db.events.get p = none ∨
      post.context = .occasion ∧ db.occasions.get p = none)

/-- What the database is after the orphans of a source were deleted. -/
structure Cleaned (sourceId : Nat) (db db' : Database) : Prop where
  valid : Valid db'
  noOrphans : NoOrphans db' sourceId
  orphan : ∀ p, Orphan db sourceId p → db'.posts.get p = none
  other : ∀ p, ¬ Orphan db sourceId p → db'.posts.get p = db.posts.get p
  events : ∀ p, db'.events.get p = db.events.get p
  occasions : ∀ p, db'.occasions.get p = db.occasions.get p
  syncSources : db'.syncSources = db.syncSources
  next : db'.nextPostId = db.nextPostId

/-- The posts of which some row is missing. -/
theorem mem_orphanedPostIds_iff {sourceId : Nat} {context : PostContext} {hasRow : Nat → Bool}
    {p : Nat} :
    p ∈ orphanedPostIds db sourceId context hasRow ↔
      ∃ post, db.posts.get p = some post ∧ post.syncSourceId = some sourceId ∧
        post.context = context ∧ hasRow p = false := by
  rw [orphanedPostIds, List.mem_map]
  simp only [List.mem_filter, Bool.and_eq_true, decide_eq_true_eq, Bool.not_eq_true']
  constructor
  · rintro ⟨post, ⟨hmem, ⟨hsource, hcontext⟩, hrow⟩, rfl⟩
    exact ⟨post, Table.mem_rows_iff.mp hmem, hsource, hcontext, hrow⟩
  · rintro ⟨post, hget, hsource, hcontext, hrow⟩
    obtain ⟨hmem, rfl⟩ := Table.get_eq_some_iff.mp hget
    exact ⟨post, ⟨hmem, ⟨hsource, hcontext⟩, hrow⟩, rfl⟩

/-- An orphan has neither an event nor an occasion. -/
theorem Orphan.no_rows {sourceId p : Nat} (h : Orphan db sourceId p) (hdb : Valid db) :
    db.events.get p = none ∧ db.occasions.get p = none := by
  obtain ⟨post, hpost, hsource, hlost⟩ := h
  have hsourceSome : post.syncSourceId.isSome := by rw [hsource]; rfl
  have hevent : post.context ≠ .event → db.events.get p = none := by
    intro hcontext
    cases hget : db.events.get p with
    | none => rfl
    | some event =>
      exact absurd (hdb.eventKey p post (by rw [hget]; rfl) hpost hsourceSome).1 hcontext
  have hoccasion : post.context ≠ .occasion → db.occasions.get p = none := by
    intro hcontext
    cases hget : db.occasions.get p with
    | none => rfl
    | some o =>
      obtain ⟨uid, huid⟩ := Option.isSome_iff_exists.mp (hdb.named p post hpost hsourceSome)
      have hkey : db.keyOf p = some ⟨sourceId, uid, post.syncSourceRecurrenceAnchor⟩ := by
        rw [Database.keyOf, hpost]
        exact Post.syncKey_eq_some_iff.mpr ⟨hsource, huid, rfl⟩
      have hanchor := (hdb.occasionKey p o _ hget hkey).1
      exact absurd (hdb.anchored p post hpost hanchor).2 hcontext
  rcases hlost with ⟨hcontext, hnone⟩ | ⟨hcontext, hnone⟩
  · exact ⟨hnone, hoccasion (by rw [hcontext]; decide)⟩
  · exact ⟨hevent (by rw [hcontext]; decide), hnone⟩

/-- The orphans of a source can always be deleted. -/
theorem deleteOrphanedSyncedPosts_ok (hdb : Valid db) (sourceId : Nat) :
    ∃ db', deleteOrphanedSyncedPosts db sourceId = .ok db' ∧ Cleaned sourceId db db' := by
  have horphan : ∀ p, (p ∈ orphanedPostIds db sourceId .event (fun id => (db.events.get id).isSome) ∨
      p ∈ orphanedPostIds db sourceId .occasion (fun id => (db.occasions.get id).isSome)) ↔
      Orphan db sourceId p := by
    intro p
    rw [mem_orphanedPostIds_iff, mem_orphanedPostIds_iff]
    simp only [Option.isSome_eq_false_iff, Option.isNone_iff_eq_none]
    constructor
    · rintro (⟨post, hpost, hsource, hcontext, hrow⟩ | ⟨post, hpost, hsource, hcontext, hrow⟩)
      · exact ⟨post, hpost, hsource, .inl ⟨hcontext, hrow⟩⟩
      · exact ⟨post, hpost, hsource, .inr ⟨hcontext, hrow⟩⟩
    · rintro ⟨post, hpost, hsource, ⟨hcontext, hrow⟩ | ⟨hcontext, hrow⟩⟩
      · exact .inl ⟨post, hpost, hsource, hcontext, hrow⟩
      · exact .inr ⟨post, hpost, hsource, hcontext, hrow⟩
  generalize hfirst : orphanedPostIds db sourceId .event (fun id => (db.events.get id).isSome) =
    eventIds at horphan
  generalize hsecond :
    orphanedPostIds db sourceId .occasion (fun id => (db.occasions.get id).isSome) =
    occasionIds at horphan
  have hrows : ∀ p, (p ∈ eventIds ∨ p ∈ occasionIds) →
      db.events.get p = none ∧ db.occasions.get p = none :=
    fun p hp => ((horphan p).mp hp).no_rows hdb
  have hkept : ∀ p o, db.occasions.get p = some o → o.eventId ∉ eventIds ∧
      o.eventId ∉ occasionIds := by
    intro p o ho
    have hsome := hdb.occasionEvent p o ho
    constructor
    · intro hmem
      rw [(hrows _ (.inl hmem)).1] at hsome
      cases hsome
    · intro hmem
      rw [(hrows _ (.inr hmem)).1] at hsome
      cases hsome
  obtain ⟨db1, hok1, hdeletes1⟩ := deleteSyncedPosts_ok fun p o ho => (hkept p o ho).1
  have hshrinks1 := hdeletes1.shrinks hdb fun p o ho => (hkept p o ho).1
  have hoccasions1 : ∀ p, db1.occasions.get p = db.occasions.get p := by
    intro p
    rw [hdeletes1.occasion_eq fun p o ho => (hkept p o ho).1]
    split
    · exact (hrows p (.inl ‹_›)).2.symm
    · rfl
  have hkept1 : ∀ p o, db1.occasions.get p = some o → o.eventId ∉ occasionIds := by
    intro p o ho
    rw [hoccasions1] at ho
    exact (hkept p o ho).2
  obtain ⟨db2, hok2, hdeletes2⟩ := deleteSyncedPosts_ok hkept1
  have hevents2 : ∀ p, db2.events.get p = db.events.get p := by
    intro p
    rw [hdeletes2.events, hdeletes1.events]
    split
    · exact (hrows p (.inr ‹_›)).1.symm
    · split
      · exact (hrows p (.inl ‹_›)).1.symm
      · rfl
  have hoccasions2 : ∀ p, db2.occasions.get p = db.occasions.get p := by
    intro p
    rw [hdeletes2.occasion_eq hkept1, hoccasions1]
    split
    · exact (hrows p (.inr ‹_›)).2.symm
    · rfl
  have hother : ∀ p, ¬ Orphan db sourceId p → db2.posts.get p = db.posts.get p := by
    intro p hp
    rw [← horphan, not_or] at hp
    rw [hdeletes2.posts, if_neg hp.2, hdeletes1.posts, if_neg hp.1]
  have hgone : ∀ p, Orphan db sourceId p → db2.posts.get p = none := by
    intro p hp
    rw [hdeletes2.posts, hdeletes1.posts]
    split
    · rfl
    · rename_i hsecond
      rw [if_pos (((horphan p).mpr hp).resolve_right hsecond)]
  refine ⟨db2, ?_, (hdeletes2.shrinks (hshrinks1.valid hdb) hkept1).valid (hshrinks1.valid hdb),
    ?_, hgone, hother, hevents2, hoccasions2,
    hdeletes2.syncSources.trans hdeletes1.syncSources, hdeletes2.next.trans hdeletes1.next⟩
  · simp only [deleteOrphanedSyncedPosts, hfirst, hsecond, bind, Except.bind, hok1, hok2]
  · intro p post hpost hsource
    have hnot : ¬ Orphan db sourceId p := by
      intro hp
      rw [hgone p hp] at hpost
      cases hpost
    rw [hother p hnot] at hpost
    rw [hevents2, hoccasions2]
    constructor
    · intro hcontext
      by_contra hnone
      exact hnot ⟨post, hpost, hsource, .inl ⟨hcontext, by simpa using hnone⟩⟩
    · intro hcontext
      by_contra hnone
      exact hnot ⟨post, hpost, hsource, .inr ⟨hcontext, by simpa using hnone⟩⟩

/-- What the transaction of a sync does: orphans are deleted, all UIDs are synced and the
counts of the source are stored. -/
structure Writes (params : SyncParams) (feed : Feed) (db db' : Database) : Prop where
  steps : ∃ cleaned synced, deleteOrphanedSyncedPosts db params.sourceId = .ok cleaned ∧
    Cleaned params.sourceId db cleaned ∧
    Synced params feed (fun _ => True) cleaned synced ∧ db' = storeCounts synced params.sourceId

/-- A list of groups is all that a feed has. -/
structure Feed.Has (feed : Feed) (groups : List EventGroup) : Prop where
  lists : ∀ group ∈ groups, feed.Lists group
  nodup : (groups.map (·.uid)).Nodup
  complete : ∀ uid, (feed.text uid).isSome → uid ∈ groups.map (·.uid)

/-- A post that is neither an event's nor an occasion's holds a UID of a source. -/
def Blocked (db : Database) (sourceId : Nat) (uid : String) : Prop :=
  ∃ p post, db.posts.get p = some post ∧ post.syncKey = some ⟨sourceId, uid, none⟩ ∧
    post.context ≠ .event ∧ post.context ≠ .occasion

/-- What holds a UID after the orphans are deleted is what held it before and is not an
event's or an occasion's post. -/
theorem Cleaned.plainHeld_iff {sourceId : Nat} {uid : String} (h : Cleaned sourceId db db')
    (hdb : Valid db) : PlainHeld db' sourceId uid ↔ Blocked db sourceId uid := by
  constructor
  · rintro ⟨p, hkey, hevent⟩
    have hnot : ¬ Orphan db sourceId p := by
      intro horphan
      rw [Database.keyOf, h.orphan p horphan] at hkey
      cases hkey
    obtain ⟨post, hpost, hsync⟩ := Option.bind_eq_some_iff.mp hkey
    obtain ⟨hsource, _, hanchor⟩ := Post.syncKey_eq_some_iff.mp hsync
    rw [h.other p hnot] at hpost
    rw [h.events] at hevent
    refine ⟨p, post, hpost, hsync, ?_, ?_⟩
    · intro hcontext
      exact hnot ⟨post, hpost, hsource, .inl ⟨hcontext, hevent⟩⟩
    · intro hcontext
      cases hoccasion : db.occasions.get p with
      | none => exact hnot ⟨post, hpost, hsource, .inr ⟨hcontext, hoccasion⟩⟩
      | some o =>
        have hkey' : db.keyOf p = some ⟨sourceId, uid, none⟩ := by
          rw [Database.keyOf, hpost]
          exact hsync
        have hsome := (hdb.occasionKey p o _ hoccasion hkey').1
        cases hsome
  · rintro ⟨p, post, hpost, hsync, hevent, hoccasion⟩
    obtain ⟨hsource, _, _⟩ := Post.syncKey_eq_some_iff.mp hsync
    have hnot : ¬ Orphan db sourceId p := by
      rintro ⟨post', hpost', _, hcontext⟩
      obtain rfl := Option.some.inj (hpost.symm.trans hpost')
      rcases hcontext with ⟨hcontext, _⟩ | ⟨hcontext, _⟩
      · exact hevent hcontext
      · exact hoccasion hcontext
    refine ⟨p, ?_, ?_⟩
    · rw [Database.keyOf, h.other p hnot, hpost]
      exact hsync
    · rw [h.events]
      cases hget : db.events.get p with
      | none => rfl
      | some event =>
        have hcontext := (hdb.eventKey p post (by rw [hget]; rfl) hpost
          (by rw [hsource]; rfl)).1
        exact absurd hcontext hevent

/-- The stale events are those with a UID that no group has. -/
theorem mem_staleEvents_iff (hdb : Valid db) (order : HashOrder) (sourceId : Nat)
    (uids : List String) (e : Nat) :
    e ∈ order.staleEvents (unique (((existingEventIdsByUid db sourceId).rows.filter fun entry =>
        !uids.contains entry.1).map Prod.snd)) ↔
      (db.events.get e).isSome ∧
        ∃ uid, db.keyOf e = some ⟨sourceId, uid, none⟩ ∧ uid ∉ uids := by
  rw [(order.staleEvents_perm _).mem_iff, mem_unique, List.mem_map]
  constructor
  · rintro ⟨⟨uid, e'⟩, hmem, rfl⟩
    obtain ⟨hrow, hout⟩ := List.mem_filter.mp hmem
    obtain ⟨hevent, hkey⟩ :=
      (existingEventIdsByUid_value hdb).mp (HashMap.value_eq_some_iff.mpr hrow)
    exact ⟨hevent, uid, hkey, by simpa using hout⟩
  · rintro ⟨hevent, uid, hkey, hout⟩
    have hrow := HashMap.value_eq_some_iff.mp ((existingEventIdsByUid_value hdb).mpr ⟨hevent, hkey⟩)
    exact ⟨(uid, e), List.mem_filter.mpr ⟨hrow, by simpa using hout⟩, rfl⟩

/-- Writing the groups of a feed succeeds if none of their UIDs is blocked. -/
theorem writeGroups_ok {groups : List EventGroup} (hdb : Valid db) (order : HashOrder)
    (hhas : feed.Has groups)
    (hfree : ∀ group ∈ groups, ¬ Blocked db params.sourceId group.uid) :
    ∃ db', writeGroups order params groups db = .ok db' ∧ Writes params feed db db' := by
  obtain ⟨cleaned, hclean, hcleaned⟩ := deleteOrphanedSyncedPosts_ok hdb params.sourceId
  obtain ⟨db1, hgroups, hsynced⟩ := syncGroups_ok hcleaned.valid hcleaned.noOrphans
    hhas.lists hhas.nodup
    fun group hmem hheld => hfree group hmem ((hcleaned.plainHeld_iff hdb).mp hheld)
  have hunlisted : ∀ uid, uid ∉ groups.map (·.uid) → feed.text uid = none := by
    intro uid hout
    by_contra hsome
    exact hout (hhas.complete uid (Option.isSome_iff_ne_none.mpr hsome))
  have hstale := fun e => mem_staleEvents_iff hcleaned.valid order params.sourceId
    (groups.map (·.uid)) e
  generalize hids : order.staleEvents (unique (((existingEventIdsByUid cleaned
    params.sourceId).rows.filter fun entry => !(groups.map (·.uid)).contains entry.1).map
      Prod.snd)) = staleIds at hstale
  have hnodup : staleIds.Nodup := by
    rw [← hids, (order.staleEvents_perm _).nodup_iff]
    exact unique_nodup _
  obtain ⟨db2, hprune, hpruned⟩ := pruneEvents_ok hcleaned.valid hcleaned.noOrphans hsynced
    hunlisted hnodup fun e hmem => (hstale e).mp hmem
  have hall := hpruned.all hcleaned.valid hcleaned.noOrphans
    (fun uid hsome => .inl (hhas.complete uid hsome)) fun uid e hevent hkey => by
      by_cases hmem : uid ∈ groups.map (·.uid)
      · exact .inl hmem
      · exact .inr ⟨e, (hstale e).mpr ⟨hevent, uid, hkey, hmem⟩, hkey⟩
  refine ⟨storeCounts db2 params.sourceId, ?_, cleaned, db2, hclean, hcleaned, hall, rfl⟩
  simp only [writeGroups, hclean, bind, Except.bind, hgroups, hids, hprune]
  rfl

/-- Writing the groups of a feed fails if one of their UIDs is blocked. -/
theorem writeGroups_error {groups : List EventGroup} (hdb : Valid db) (order : HashOrder)
    (hhas : feed.Has groups)
    (hblocked : ∃ group ∈ groups, Blocked db params.sourceId group.uid) :
    writeGroups order params groups db = .error .uniqueViolation := by
  obtain ⟨cleaned, hclean, hcleaned⟩ := deleteOrphanedSyncedPosts_ok hdb params.sourceId
  obtain ⟨group, hmem, hheld⟩ := hblocked
  have hgroups := syncGroups_error hcleaned.valid hcleaned.noOrphans hhas.lists hhas.nodup
    ⟨group, hmem, (hcleaned.plainHeld_iff hdb).mpr hheld⟩
  simp only [writeGroups, hclean, bind, Except.bind, hgroups]

end

end Rellm.Sync
