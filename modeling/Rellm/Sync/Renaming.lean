import Rellm.Sync.WriteGroups

/-!
# The same rows under other ids

New rows get the next ids in the order they are written, so syncing the same
groups in another order leaves the same rows under other ids. A new row and its
counterpart have the same sync key; rows that were there keep their ids.
-/

namespace Rellm.Sync

open Foundation Calendar

/-- The rows of a database are those of another under renamed ids. -/
structure Renamed (rename : Nat → Nat) (db db' : Database) : Prop where
  injective : ∀ p q, (db.posts.get p).isSome → (db.posts.get q).isSome →
    rename p = rename q → p = q
  onto : ∀ q, (db'.posts.get q).isSome → ∃ p, (db.posts.get p).isSome ∧ rename p = q
  posts : ∀ p, (db.posts.get p).isSome →
    db'.posts.get (rename p) = (db.posts.get p).map fun post => { post with id := rename p }
  events : ∀ p, (db.posts.get p).isSome →
    db'.events.get (rename p) = (db.events.get p).map fun _ => { postId := rename p }
  occasions : ∀ p, (db.posts.get p).isSome →
    db'.occasions.get (rename p) = (db.occasions.get p).map fun o =>
      { o with postId := rename p, eventId := rename o.eventId }

/-- Two databases have the same rows, of which those from some id on may have other ids. -/
def SameUpToNewIds (next : Nat) (db db' : Database) : Prop :=
  db'.syncSources = db.syncSources ∧
    ∃ rename, (∀ p < next, rename p = p) ∧ Renamed rename db db'

section

variable {params : SyncParams} {feed : Feed} {uid : String} {anchor : Option Instant}
  {p : Nat} {db db1 db2 : Database}

namespace Synced

/-- An event's post never gets an occasion. -/
theorem no_occasion (h : Synced params feed (fun _ => True) db db1)
    (hkey : db.keyOf p = some ⟨params.sourceId, uid, none⟩) (hp : p < db.nextPostId) :
    db1.occasions.get p = none := by
  rw [Option.eq_none_iff_forall_ne_some]
  intro o' ho'
  obtain ⟨post', hpost'⟩ := Option.isSome_iff_exists.mp
    (h.valid.occasionPost p (Option.isSome_iff_exists.mpr ⟨o', ho'⟩))
  obtain ⟨post, hpost, hsame⟩ := h.post_same hp hpost'
  have hkey' : db1.keyOf p = some ⟨params.sourceId, uid, none⟩ := by
    rw [Database.keyOf, hpost', Option.bind_some, hsame.syncKey, ← hkey, Database.keyOf, hpost,
      Option.bind_some]
  have hanchor := (h.valid.occasionKey p o' _ ho' hkey').1
  cases hanchor

/-- An occasion that was there stays with its event. -/
theorem old_occasion (h : Synced params feed (fun _ => True) db db1) (hp : p < db.nextPostId)
    {o' : Occasion} (ho' : db1.occasions.get p = some o') :
    ∃ o, db.occasions.get p = some o ∧ o'.eventId = o.eventId := by
  by_cases haffected : Affected params.sourceId (fun _ => True) db p
  · obtain ⟨uid, anchor, _, hkey, _⟩ := haffected
    cases anchor with
    | some anchor =>
      rw [h.occasion p uid anchor trivial hkey] at ho'
      obtain ⟨o, ho, hfate⟩ := Option.bind_eq_some_iff.mp ho'
      refine ⟨o, ho, ?_⟩
      cases hwanted : feed.occurrence uid anchor with
      | none =>
        rw [hwanted] at hfate
        exact missingFate_eventId hfate
      | some occ =>
        rw [hwanted] at hfate
        obtain rfl := Option.some.inj hfate
        rfl
    | none =>
      rw [h.no_occasion hkey hp] at ho'
      cases ho'
  · exact ⟨o', (h.others p hp haffected).occasions.symm.trans ho', rfl⟩

/-- An occasion's post never gets an event. -/
theorem events_none (h : Synced params feed (fun _ => True) db db1) (hp : p < db.nextPostId)
    {anchor : Instant} (hkey : db.keyOf p = some ⟨params.sourceId, uid, some anchor⟩) :
    db1.events.get p = none := by
  by_contra hne
  have hsome := Option.isSome_iff_ne_none.mpr hne
  obtain ⟨post', hpost'⟩ := Option.isSome_iff_exists.mp (h.valid.eventPost p hsome)
  obtain ⟨post, hpost, hsame⟩ := h.post_same hp hpost'
  rw [Database.keyOf, hpost, Option.bind_some] at hkey
  obtain ⟨hsource, _, hanchor⟩ := Post.syncKey_eq_some_iff.mp hkey
  have hsynced : post'.syncSourceId.isSome := by
    rw [hsame.sourceId, hsource]
    rfl
  have hnone := (h.valid.eventKey p post' hsome hpost' hsynced).2
  rw [hsame.anchor, hanchor] at hnone
  cases hnone

/-- A row that was there is the same after every sync of the feed. -/
theorem old_same (h : Synced params feed (fun _ => True) db db1)
    (h' : Synced params feed (fun _ => True) db db2) (hp : p < db.nextPostId) :
    SameRows db1 db2 p := by
  by_cases haffected : Affected params.sourceId (fun _ => True) db p
  · obtain ⟨uid, anchor, _, hkey, hevent⟩ := haffected
    cases anchor with
    | some anchor =>
      have hoccasion : db2.occasions.get p = db1.occasions.get p := by
        rw [h.occasion p uid anchor trivial hkey, h'.occasion p uid anchor trivial hkey]
      refine ⟨?_, ?_, hoccasion⟩
      · rw [h.occasionPost p uid anchor trivial hkey, h'.occasionPost p uid anchor trivial hkey,
          hoccasion]
      · rw [h.events_none hp hkey, h'.events_none hp hkey]
    | none =>
      have hsome := hevent rfl
      have hrows : db2.posts.get p = db1.posts.get p ∧ db2.events.get p = db1.events.get p := by
        cases htext : feed.text uid with
        | some text =>
          obtain ⟨hpost, hrow⟩ := h.listedEvent p uid text trivial hkey hsome htext
          obtain ⟨hpost', hrow'⟩ := h'.listedEvent p uid text trivial hkey hsome htext
          exact ⟨hpost'.trans hpost.symm, hrow'.trans hrow.symm⟩
        | none =>
          by_cases hkeeps : KeepsOccasion params db p
          · obtain ⟨hpost, hrow⟩ := h.keptEvent p uid trivial hkey hsome htext hkeeps
            obtain ⟨hpost', hrow'⟩ := h'.keptEvent p uid trivial hkey hsome htext hkeeps
            exact ⟨hpost'.trans hpost.symm, hrow'.trans hrow.symm⟩
          · obtain ⟨hpost, hrow⟩ := h.deletedEvent p uid trivial hkey hsome htext hkeeps
            obtain ⟨hpost', hrow'⟩ := h'.deletedEvent p uid trivial hkey hsome htext hkeeps
            exact ⟨hpost'.trans hpost.symm, hrow'.trans hrow.symm⟩
      refine ⟨hrows.1, hrows.2, ?_⟩
      rw [h.no_occasion hkey hp, h'.no_occasion hkey hp]
  · have hsame := h.others p hp haffected
    have hsame' := h'.others p hp haffected
    exact ⟨hsame'.posts.trans hsame.posts.symm, hsame'.events.trans hsame.events.symm,
      hsame'.occasions.trans hsame.occasions.symm⟩

/-- A new row has a counterpart with its key in every other result. -/
theorem counterpart (h : Synced params feed (fun _ => True) db db1)
    (h' : Synced params feed (fun _ => True) db db2) (hp : db.nextPostId ≤ p)
    (hkey : db1.keyOf p = some ⟨params.sourceId, uid, anchor⟩) :
    ∃ q, db.nextPostId ≤ q ∧ db2.keyOf q = some ⟨params.sourceId, uid, anchor⟩ := by
  have hfound : (∀ q, db.keyOf q ≠ some ⟨params.sourceId, uid, anchor⟩) ∧
      ∃ q, db2.keyOf q = some ⟨params.sourceId, uid, anchor⟩ := by
    cases anchor with
    | none =>
      obtain ⟨_, _, hcreated⟩ := h.created_event hp hkey
      obtain ⟨text, htext, _⟩ := hcreated.text
      obtain ⟨q, _, hq⟩ := h'.presentEvent uid trivial (by rw [htext]; rfl)
      exact ⟨hcreated.free, q, hq⟩
    | some anchor =>
      obtain ⟨occ, _, hocc, hfree, _⟩ := h.created_occasion hp hkey
      obtain ⟨q, hq⟩ := h'.presentOccasion uid anchor trivial (by rw [hocc]; rfl)
      exact ⟨hfree, q, hq⟩
  obtain ⟨hfree, q, hq⟩ := hfound
  refine ⟨q, ?_, hq⟩
  by_contra hlt
  exact hfree q (h'.keyOf_of_some (Nat.lt_of_not_le hlt) hq)

/-- A row that was there or is new has a counterpart under one renaming of ids. -/
theorem exists_rename (h : Synced params feed (fun _ => True) db db1)
    (h' : Synced params feed (fun _ => True) db db2) :
    ∃ rename : Nat → Nat, (∀ p < db.nextPostId, rename p = p) ∧
      ∀ p, db.nextPostId ≤ p → (db1.posts.get p).isSome →
        db.nextPostId ≤ rename p ∧ db2.keyOf (rename p) = db1.keyOf p := by
  have hexists : ∀ p, ∃ q, (p < db.nextPostId → q = p) ∧
      (db.nextPostId ≤ p → (db1.posts.get p).isSome →
        db.nextPostId ≤ q ∧ db2.keyOf q = db1.keyOf p) := by
    intro p
    by_cases hp : p < db.nextPostId
    · exact ⟨p, fun _ => rfl, fun hge => absurd hp (Nat.not_lt.mpr hge)⟩
    · cases hpost : db1.posts.get p with
      | none => exact ⟨p, fun _ => rfl, fun _ hsome => absurd hsome Bool.false_ne_true⟩
      | some post =>
        have hge := Nat.le_of_not_lt hp
        obtain ⟨uid, anchor, _, hkey⟩ := h.new_key hge hpost
        obtain ⟨q, hq, hkey'⟩ := h.counterpart h' hge hkey
        exact ⟨q, fun hlt => absurd hlt hp, fun _ _ => ⟨hq, hkey'.trans hkey.symm⟩⟩
  choose rename hold hnew using hexists
  exact ⟨rename, hold, hnew⟩

/-- A new row of one result and its counterpart in another differ in their ids alone. -/
theorem new_same {rename : Nat → Nat} (h : Synced params feed (fun _ => True) db db1)
    (h' : Synced params feed (fun _ => True) db db2) {q : Nat} (hp : db.nextPostId ≤ p)
    (hq : db.nextPostId ≤ q) (hsome : (db1.posts.get p).isSome)
    (hcounterpart : db2.keyOf q = db1.keyOf p)
    (hevents : ∀ e uid, db1.keyOf e = some ⟨params.sourceId, uid, none⟩ →
      db2.keyOf (rename e) = some ⟨params.sourceId, uid, none⟩) :
    db2.posts.get q = (db1.posts.get p).map (fun post => { post with id := q }) ∧
      db2.events.get q = (db1.events.get p).map (fun _ => { postId := q }) ∧
      db2.occasions.get q = (db1.occasions.get p).map (fun o =>
        { o with postId := q, eventId := rename o.eventId }) := by
  obtain ⟨post, hpost⟩ := Option.isSome_iff_exists.mp hsome
  obtain ⟨uid, anchor, _, hkey⟩ := h.new_key hp hpost
  have hkey' := hcounterpart.trans hkey
  cases anchor with
  | none =>
    obtain ⟨found, hfound, hcreated⟩ := h.created_event hp hkey
    obtain ⟨found', hfound', hcreated'⟩ := h'.created_event hq hkey'
    obtain ⟨text, htext, rfl⟩ := hcreated.text
    obtain ⟨text', htext', rfl⟩ := hcreated'.text
    obtain rfl := Option.some.inj (htext.symm.trans htext')
    have hnone : db1.occasions.get p = none :=
      h.valid.apart p (by rw [hcreated.event]; rfl)
    have hnone' : db2.occasions.get q = none :=
      h'.valid.apart q (by rw [hcreated'.event]; rfl)
    rw [hfound, hfound', hcreated.event, hcreated'.event, hnone, hnone']
    exact ⟨rfl, rfl, rfl⟩
  | some anchor =>
    obtain ⟨occ, e, hocc, _, hfound, ho, he, hevent⟩ := h.created_occasion hp hkey
    obtain ⟨occ', e', hocc', _, hfound', ho', he', hevent'⟩ := h'.created_occasion hq hkey'
    obtain rfl := Option.some.inj (hocc.symm.trans hocc')
    obtain rfl := h'.valid.unique _ _ _ he' (hevents e uid he)
    rw [hfound, hfound', ho, ho', hevent, hevent']
    exact ⟨rfl, rfl, rfl⟩

/-- Syncing the same feed in another order leaves the same rows up to the ids of new ones. -/
theorem sameUpToNewIds (h : Synced params feed (fun _ => True) db db1)
    (h' : Synced params feed (fun _ => True) db db2) (hdb : Valid db) :
    SameUpToNewIds db.nextPostId db1 db2 := by
  obtain ⟨rename, hold, hnew⟩ := h.exists_rename h'
  have hkeys : ∀ p, (db1.posts.get p).isSome → db2.keyOf (rename p) = db1.keyOf p := by
    intro p hsome
    by_cases hp : p < db.nextPostId
    · rw [hold p hp]
      exact (h.old_same h' hp).keyOf
    · exact (hnew p (Nat.le_of_not_lt hp) hsome).2
  have hkeyed : ∀ p, db.nextPostId ≤ p → (db1.posts.get p).isSome →
      ∃ key, db1.keyOf p = some key := by
    intro p hp hsome
    obtain ⟨post, hpost⟩ := Option.isSome_iff_exists.mp hsome
    obtain ⟨uid, anchor, _, hkey⟩ := h.new_key hp hpost
    exact ⟨_, hkey⟩
  have hevents : ∀ e uid, db1.keyOf e = some ⟨params.sourceId, uid, none⟩ →
      db2.keyOf (rename e) = some ⟨params.sourceId, uid, none⟩ := by
    intro e uid hkey
    obtain ⟨post, hpost, _⟩ := Option.bind_eq_some_iff.mp hkey
    rw [hkeys e (Option.isSome_iff_exists.mpr ⟨post, hpost⟩)]
    exact hkey
  have hrows : ∀ p, (db1.posts.get p).isSome →
      db2.posts.get (rename p) =
          (db1.posts.get p).map (fun post => { post with id := rename p }) ∧
        db2.events.get (rename p) = (db1.events.get p).map (fun _ => { postId := rename p }) ∧
        db2.occasions.get (rename p) = (db1.occasions.get p).map (fun o =>
          { o with postId := rename p, eventId := rename o.eventId }) := by
    intro p hsome
    by_cases hp : p < db.nextPostId
    · obtain ⟨hposts, hevent, hoccasion⟩ := h.old_same h' hp
      rw [hold p hp, hposts, hevent, hoccasion]
      refine ⟨?_, ?_, ?_⟩
      · cases hget : db1.posts.get p with
        | none => rfl
        | some post =>
          obtain rfl := Table.key_of_get hget
          rfl
      · cases hget : db1.events.get p with
        | none => rfl
        | some event =>
          obtain rfl := Table.key_of_get hget
          rfl
      · cases hget : db1.occasions.get p with
        | none => rfl
        | some o =>
          obtain ⟨before, hbefore, hsame⟩ := h.old_occasion hp hget
          have hlt := hdb.fresh _ (hdb.eventPost _ (hdb.occasionEvent p before hbefore))
          rw [← hsame] at hlt
          obtain rfl := Table.key_of_get hget
          rw [Option.map_some, hold _ hlt]
    · have hge := Nat.le_of_not_lt hp
      obtain ⟨hq, hkey⟩ := hnew p hge hsome
      exact h.new_same h' hge hq hsome hkey hevents
  refine ⟨h'.syncSources.trans h.syncSources.symm, rename, hold, ?_, ?_,
    fun p hsome => (hrows p hsome).1, fun p hsome => (hrows p hsome).2.1,
    fun p hsome => (hrows p hsome).2.2⟩
  · intro p q hp hq heq
    rcases Nat.lt_or_ge p db.nextPostId with hpold | hpnew <;>
      rcases Nat.lt_or_ge q db.nextPostId with hqold | hqnew
    · rwa [hold p hpold, hold q hqold] at heq
    · have hge := (hnew q hqnew hq).1
      rw [hold p hpold] at heq
      omega
    · have hge := (hnew p hpnew hp).1
      rw [hold q hqold] at heq
      omega
    · obtain ⟨key, hkey⟩ := hkeyed p hpnew hp
      refine h.valid.unique p q key hkey ?_
      rw [← hkeys q hq, ← heq, hkeys p hp, hkey]
  · intro q hq
    rcases Nat.lt_or_ge q db.nextPostId with hqold | hqnew
    · refine ⟨q, ?_, hold q hqold⟩
      rw [← (h.old_same h' hqold).posts]
      exact hq
    · obtain ⟨post, hpost⟩ := Option.isSome_iff_exists.mp hq
      obtain ⟨uid, anchor, _, hkey⟩ := h'.new_key hqnew hpost
      obtain ⟨p, hp, hkey'⟩ := h'.counterpart h hqnew hkey
      obtain ⟨post', hpost', _⟩ := Option.bind_eq_some_iff.mp hkey'
      have hsome := Option.isSome_iff_exists.mpr ⟨post', hpost'⟩
      exact ⟨p, hsome, h'.valid.unique _ _ _ ((hkeys p hsome).trans hkey') hkey⟩

end Synced

end

end Rellm.Sync
