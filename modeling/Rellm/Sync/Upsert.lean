import Rellm.Foundation.Run
import Rellm.Sync.Statements

/-!
# Writing the occurrences of one event

The occasions of a synced event are found by their anchors. Writing occurrences
with different anchors brings each occasion found up to date, adds one for each
anchor that has none, and leaves every other row alone.
-/

namespace Rellm.Sync

open Foundation Calendar

/-- The anchor of a post that a source knows under a UID. -/
def Database.anchorAt (db : Database) (sourceId : Nat) (uid : String) (p : Nat) :
    Option Instant :=
  (db.keyOf p).bind fun key =>
    if key.sourceId = sourceId ∧ key.uid = uid then key.anchor else none

theorem anchorAt_eq_some_iff {db : Database} {sourceId : Nat} {uid : String} {p : Nat}
    {anchor : Instant} :
    db.anchorAt sourceId uid p = some anchor ↔
      db.keyOf p = some ⟨sourceId, uid, some anchor⟩ := by
  rw [Database.anchorAt, Option.bind_eq_some_iff]
  constructor
  · rintro ⟨⟨source, name, key⟩, hkey, h⟩
    split at h
    · rename_i heq
      obtain ⟨rfl, rfl⟩ := heq
      simp only at h
      rw [hkey, h]
    · cases h
  · intro hkey
    exact ⟨_, hkey, if_pos ⟨rfl, rfl⟩⟩

/-- A database without orphans in which an event of a source has a UID. -/
structure HasEvent (db : Database) (sourceId : Nat) (uid : String) (eventId : Nat) : Prop where
  valid : Valid db
  noOrphans : NoOrphans db sourceId
  event : (db.events.get eventId).isSome
  key : db.keyOf eventId = some ⟨sourceId, uid, none⟩

section

variable {db : Database} {sourceId : Nat} {uid : String} {eventId : Nat}

/-- The row of an occasion post of the source exists. -/
theorem NoOrphans.occasion_isSome (h : NoOrphans db sourceId) (hdb : Valid db) {p : Nat}
    {anchor : Instant} (hkey : db.keyOf p = some ⟨sourceId, uid, some anchor⟩) :
    (db.occasions.get p).isSome := by
  obtain ⟨post, hpost, hsync⟩ := Option.bind_eq_some_iff.mp hkey
  obtain ⟨hsource, _, hanchor⟩ := Post.syncKey_eq_some_iff.mp hsync
  have hcontext := (hdb.anchored p post hpost (by rw [hanchor]; rfl)).2
  exact (h p post hpost hsource).2 hcontext

/-- The occasion under an anchor is the row whose post has that key. -/
theorem existingByAnchor_value (h : HasEvent db sourceId uid eventId) {anchor : Instant}
    {row : Occasion} :
    (existingByAnchor db eventId).value anchor = some row ↔
      db.occasions.get row.postId = some row ∧
        db.keyOf row.postId = some ⟨sourceId, uid, some anchor⟩ := by
  -- what a listed pair says about its row
  have hlisted : ∀ a r, (a, r) ∈ ((db.occasions.rows.filter fun row =>
      row.eventId = eventId).filterMap fun row =>
        (db.anchorOf row.postId).map fun anchor => (anchor, row)) ↔
      db.occasions.get r.postId = some r ∧
        db.keyOf r.postId = some ⟨sourceId, uid, some a⟩ := by
    intro a r
    rw [List.mem_filterMap]
    constructor
    · rintro ⟨r', hr', hpair⟩
      obtain ⟨hmem, hevent⟩ := List.mem_filter.mp hr'
      obtain ⟨a', hanchor, heq⟩ := Option.map_eq_some_iff.mp hpair
      obtain ⟨rfl, rfl⟩ := Prod.mk.inj heq
      obtain ⟨post, hpost, hpostAnchor⟩ := Option.bind_eq_some_iff.mp hanchor
      have hget := Table.mem_rows_iff.mp hmem
      have hsource := (h.valid.anchored _ post hpost (by rw [hpostAnchor]; rfl)).1
      have huid := h.valid.named _ post hpost hsource
      obtain ⟨source, hsource⟩ := Option.isSome_iff_exists.mp hsource
      obtain ⟨name, huid⟩ := Option.isSome_iff_exists.mp huid
      have hkey : db.keyOf r'.postId = some ⟨source, name, some a'⟩ := by
        rw [Database.keyOf, hpost]
        exact Post.syncKey_eq_some_iff.mpr ⟨hsource, huid, hpostAnchor⟩
      have hown := (h.valid.occasionKey _ r' _ hget hkey).2
      rw [of_decide_eq_true hevent, h.key] at hown
      obtain ⟨rfl, rfl, _⟩ := SyncKey.mk.inj (Option.some.inj hown)
      exact ⟨hget, hkey⟩
    · rintro ⟨hget, hkey⟩
      have hown := (h.valid.occasionKey _ r _ hget hkey).2
      have hevent := h.valid.unique _ _ _ hown h.key
      obtain ⟨post, hpost, hsync⟩ := Option.bind_eq_some_iff.mp hkey
      obtain ⟨_, _, hanchor⟩ := Post.syncKey_eq_some_iff.mp hsync
      refine ⟨r, List.mem_filter.mpr ⟨Table.mem_rows_iff.mpr hget, decide_eq_true hevent⟩, ?_⟩
      rw [Database.anchorOf, hpost, Option.bind_some, hanchor]
      rfl
  rw [HashMap.value_eq_some_iff]
  constructor
  · intro hmem
    exact (hlisted anchor row).mp (Table.mem_of_mem_collect hmem)
  · intro hrow
    have hsome : ((existingByAnchor db eventId).get anchor).isSome :=
      Table.get_collect_isSome.mpr ⟨(anchor, row), (hlisted anchor row).mpr hrow, rfl⟩
    obtain ⟨⟨a, r⟩, hget⟩ := Option.isSome_iff_exists.mp hsome
    obtain ⟨hmem, hkey⟩ := Table.get_eq_some_iff.mp hget
    simp only at hkey
    subst hkey
    obtain ⟨hget', hkey'⟩ := (hlisted a r).mp (Table.mem_of_mem_collect hmem)
    have hid := h.valid.unique _ _ _ hrow.2 hkey'
    rw [← hid, hrow.1] at hget'
    obtain rfl := Option.some.inj hget'
    exact hmem

/-- An anchor has an occasion exactly if some post has its key. -/
theorem existingByAnchor_eq_none_iff (h : HasEvent db sourceId uid eventId) {anchor : Instant} :
    (existingByAnchor db eventId).value anchor = none ↔
      ∀ p, db.keyOf p ≠ some ⟨sourceId, uid, some anchor⟩ := by
  rw [Option.eq_none_iff_forall_ne_some]
  constructor
  · intro hnone p hkey
    obtain ⟨row, hrow⟩ := Option.isSome_iff_exists.mp (h.noOrphans.occasion_isSome h.valid hkey)
    have hid : row.postId = p := Table.key_of_get hrow
    exact hnone row ((existingByAnchor_value h).mpr ⟨hid.symm ▸ hrow, hid.symm ▸ hkey⟩)
  · intro hfree row hrow
    exact hfree row.postId ((existingByAnchor_value h).mp hrow).2

end

namespace UpdatesOccasion

variable {existing : Occasion} {occ : Occurrence} {db db' : Database}

/-- A post is rewritten to one that is looked up the same way. -/
theorem post_same (h : UpdatesOccasion existing occ db db') (p : Nat) :
    ∃ text : Post → Post, (∀ post, SameSync post (text post)) ∧
      db'.posts.get p = (db.posts.get p).map text := by
  rw [h.posts]
  split
  · exact ⟨retext occ.title occ.content none, fun _ => ⟨rfl, rfl, rfl, rfl⟩, rfl⟩
  · exact ⟨id, fun _ => .rfl, Option.map_id_apply.symm⟩

/-- Every post keeps its key. -/
theorem keyOf (h : UpdatesOccasion existing occ db db') (p : Nat) :
    db'.keyOf p = db.keyOf p := by
  obtain ⟨text, hsame, heq⟩ := h.post_same p
  rw [Database.keyOf, Database.keyOf, heq]
  cases db.posts.get p with
  | none => rfl
  | some post => exact (hsame post).syncKey

/-- No occasion comes or goes. -/
theorem occasions_isSome (h : UpdatesOccasion existing occ db db')
    (hrow : db.occasions.get existing.postId = some existing) (p : Nat) :
    (db'.occasions.get p).isSome = (db.occasions.get p).isSome := by
  rw [h.occasions]
  split
  · rename_i hp
    rw [hp, hrow]
    rfl
  · rfl

/-- The rows are the ones that were there, with other columns rewritten. -/
theorem shrinks (h : UpdatesOccasion existing occ db db') (hdb : Valid db)
    (hrow : db.occasions.get existing.postId = some existing) : Shrinks db db' := by
  have hpost : ∀ p, (db'.posts.get p).isSome = (db.posts.get p).isSome := by
    intro p
    obtain ⟨text, _, heq⟩ := h.post_same p
    rw [heq, Option.isSome_map]
  have hoccasion : ∀ p o', db'.occasions.get p = some o' →
      ∃ o, db.occasions.get p = some o ∧ o'.eventId = o.eventId := by
    intro p o' ho'
    rw [h.occasions] at ho'
    split at ho'
    · rename_i hp
      obtain rfl := Option.some.inj ho'
      exact ⟨existing, hp ▸ hrow, rfl⟩
    · exact ⟨o', ho', rfl⟩
  exact {
    posts := by
      intro p post' hpost'
      obtain ⟨text, hsame, heq⟩ := h.post_same p
      rw [heq] at hpost'
      obtain ⟨post, hget, rfl⟩ := Option.map_eq_some_iff.mp hpost'
      exact ⟨post, hget, hsame post⟩
    events := fun p hp => h.events ▸ hp
    occasions := hoccasion
    next := Nat.le_of_eq h.next.symm
    eventPost := by
      intro p hp
      rw [hpost]
      exact hdb.eventPost p (h.events ▸ hp)
    occasionPost := by
      intro p hp
      rw [hpost]
      rw [h.occasions_isSome hrow] at hp
      exact hdb.occasionPost p hp
    occasionEvent := by
      intro p o' ho'
      obtain ⟨o, ho, heventId⟩ := hoccasion p o' ho'
      rw [h.events, heventId]
      exact hdb.occasionEvent p o ho }

end UpdatesOccasion

/-- The occurrence with an anchor. -/
def occurrenceAt (occurrences : List Occurrence) (anchor : Instant) : Option Occurrence :=
  occurrences.find? fun occ => occ.recurrenceAnchor = anchor

/-- An anchor that no occurrence has. -/
theorem occurrenceAt_eq_none {done : List Occurrence} {anchor : Instant}
    (hfresh : anchor ∉ done.map (·.recurrenceAnchor)) : occurrenceAt done anchor = none := by
  rw [occurrenceAt, List.find?_eq_none]
  intro other hother heq
  exact hfresh (List.mem_map.mpr ⟨other, hother, of_decide_eq_true heq⟩)

/-- One more occurrence, with an anchor of its own. -/
theorem occurrenceAt_append {done : List Occurrence} {occ : Occurrence}
    (hfresh : occ.recurrenceAnchor ∉ done.map (·.recurrenceAnchor)) (anchor : Instant) :
    occurrenceAt (done ++ [occ]) anchor =
      if anchor = occ.recurrenceAnchor then some occ else occurrenceAt done anchor := by
  rw [occurrenceAt, List.find?_append, ← occurrenceAt]
  by_cases hanchor : anchor = occ.recurrenceAnchor
  · rw [if_pos hanchor, hanchor, occurrenceAt_eq_none hfresh]
    simp
  · have hother : ¬ occ.recurrenceAnchor = anchor := fun heq => hanchor heq.symm
    rw [if_neg hanchor]
    simp [hother]

/-- The text of an occasion's post, which only an override brings up to date. -/
def overrideText (wanted : Option Occurrence) (post : Post) : Post :=
  match wanted with
  | none => post
  | some occ => if occ.isOverride then retext occ.title occ.content none post else post

/-- An occasion brought up to date, if it has an occurrence. -/
def upToDate (wanted : Option Occurrence) (occasion : Occasion) : Occasion :=
  match wanted with
  | none => occasion
  | some occ => refreshed occ occasion

/-- The occurrence that some occurrences have for a post of a source and a UID. -/
def Database.wantedAt (db : Database) (sourceId : Nat) (uid : String)
    (occurrences : List Occurrence) (p : Nat) : Option Occurrence :=
  (db.anchorAt sourceId uid p).bind (occurrenceAt occurrences)

/-- What the database is after some occurrences of an event were written. -/
structure Upserted (params : SyncParams) (uid : String) (eventId : Nat)
    (done : List Occurrence) (db db' : Database) : Prop where
  valid : Valid db'
  noOrphans : NoOrphans db' params.sourceId
  syncSources : db'.syncSources = db.syncSources
  next : db.nextPostId ≤ db'.nextPostId
  events : ∀ p, db'.events.get p = db.events.get p
  oldPost : ∀ p, p < db.nextPostId →
    db'.posts.get p =
      (db.posts.get p).map (overrideText (db.wantedAt params.sourceId uid done p))
  oldOccasion : ∀ p, p < db.nextPostId →
    db'.occasions.get p =
      (db.occasions.get p).map (upToDate (db.wantedAt params.sourceId uid done p))
  new : ∀ p post, db.nextPostId ≤ p → db'.posts.get p = some post →
    ∃ occ ∈ done, (∀ q, db.keyOf q ≠ some ⟨params.sourceId, uid, some occ.recurrenceAnchor⟩) ∧
      post = createdOccasionPost params uid occ p ∧
      db'.occasions.get p = some (newOccasion eventId p occ)
  present : ∀ occ ∈ done, ∃ p,
    db'.keyOf p = some ⟨params.sourceId, uid, some occ.recurrenceAnchor⟩

/-- An override's text is not what a post is looked up by. -/
theorem overrideText_same (wanted : Option Occurrence) (post : Post) :
    SameSync post (overrideText wanted post) := by
  cases wanted with
  | none => exact .rfl
  | some occ =>
    rw [overrideText]
    split
    · exact ⟨rfl, rfl, rfl, rfl⟩
    · exact .rfl

/-- What is wanted for the post with a key. -/
theorem wantedAt_of_key {db : Database} {sourceId : Nat} {uid : String} {p : Nat}
    {anchor : Instant} (hkey : db.keyOf p = some ⟨sourceId, uid, some anchor⟩)
    (occurrences : List Occurrence) :
    db.wantedAt sourceId uid occurrences p = occurrenceAt occurrences anchor := by
  rw [Database.wantedAt, anchorAt_eq_some_iff.mpr hkey, Option.bind_some]

/-- Nothing is wanted for a post without a key of its own. -/
theorem wantedAt_eq_none {db : Database} {sourceId : Nat} {uid : String} {p : Nat}
    (hkey : ∀ anchor, db.keyOf p ≠ some ⟨sourceId, uid, some anchor⟩)
    (occurrences : List Occurrence) : db.wantedAt sourceId uid occurrences p = none := by
  have hnone : db.anchorAt sourceId uid p = none := by
    rw [Option.eq_none_iff_forall_ne_some]
    exact fun anchor hanchor => hkey anchor (anchorAt_eq_some_iff.mp hanchor)
  rw [Database.wantedAt, hnone, Option.bind_none]

@[simp] theorem wantedAt_nil (db : Database) (sourceId : Nat) (uid : String) (p : Nat) :
    db.wantedAt sourceId uid [] p = none := by
  rw [Database.wantedAt]
  cases db.anchorAt sourceId uid p <;> rfl

/-- One more occurrence is wanted for the posts with its anchor alone. -/
theorem wantedAt_append {db : Database} {sourceId : Nat} {uid : String} {p : Nat}
    {done : List Occurrence} {occ : Occurrence}
    (hfresh : occ.recurrenceAnchor ∉ done.map (·.recurrenceAnchor))
    (hkey : db.keyOf p ≠ some ⟨sourceId, uid, some occ.recurrenceAnchor⟩) :
    db.wantedAt sourceId uid (done ++ [occ]) p = db.wantedAt sourceId uid done p := by
  rw [Database.wantedAt, Database.wantedAt]
  cases hanchor : db.anchorAt sourceId uid p with
  | none => rfl
  | some anchor =>
    rw [Option.bind_some, Option.bind_some, occurrenceAt_append hfresh, if_neg]
    rintro rfl
    exact hkey (anchorAt_eq_some_iff.mp hanchor)

/-- A post with a key is not a new one. -/
theorem Valid.lt_of_key {db : Database} (h : Valid db) {p : Nat} {key : SyncKey}
    (hkey : db.keyOf p = some key) : p < db.nextPostId := by
  obtain ⟨post, hpost, _⟩ := Option.bind_eq_some_iff.mp hkey
  exact h.fresh p (Option.isSome_iff_exists.mpr ⟨post, hpost⟩)

namespace Upserted

variable {params : SyncParams} {uid : String} {eventId : Nat} {done : List Occurrence}
  {occ : Occurrence} {db db' db'' : Database}

/-- Nothing was written yet. -/
theorem nil (h : HasEvent db params.sourceId uid eventId) :
    Upserted params uid eventId [] db db where
  valid := h.valid
  noOrphans := h.noOrphans
  syncSources := rfl
  next := Nat.le_refl _
  events _ := rfl
  oldPost p _ := by
    rw [wantedAt_nil]
    cases db.posts.get p <;> rfl
  oldOccasion p _ := by
    rw [wantedAt_nil]
    cases db.occasions.get p <;> rfl
  new p post hp hpost := by
    have hlt := h.valid.fresh p (Option.isSome_iff_exists.mpr ⟨post, hpost⟩)
    omega
  present _ hocc := absurd hocc List.not_mem_nil

/-- Posts that were there keep their keys. -/
theorem keyOf (h : Upserted params uid eventId done db db') {p : Nat}
    (hp : p < db.nextPostId) : db'.keyOf p = db.keyOf p := by
  rw [Database.keyOf, Database.keyOf, h.oldPost p hp]
  cases db.posts.get p with
  | none => rfl
  | some post => exact (overrideText_same _ post).syncKey

/-- A key whose anchor was not written is found on posts that were there. -/
theorem keyOf_of_fresh (h : Upserted params uid eventId done db db') {p : Nat}
    (hfresh : occ.recurrenceAnchor ∉ done.map (·.recurrenceAnchor))
    (hkey : db'.keyOf p = some ⟨params.sourceId, uid, some occ.recurrenceAnchor⟩) :
    db.keyOf p = some ⟨params.sourceId, uid, some occ.recurrenceAnchor⟩ := by
  by_cases hp : p < db.nextPostId
  · rw [← h.keyOf hp, hkey]
  · obtain ⟨post, hpost, hsync⟩ := Option.bind_eq_some_iff.mp hkey
    obtain ⟨other, hother, _, rfl, _⟩ := h.new p post (Nat.le_of_not_lt hp) hpost
    have hanchor := (Post.syncKey_eq_some_iff.mp hsync).2.2
    rw [createdOccasionPost, Option.some.injEq] at hanchor
    exact absurd (List.mem_map.mpr ⟨other, hother, hanchor⟩) hfresh

/-- The row of an occasion whose occurrence was not written yet is still there. -/
theorem occasion_of_fresh (h : Upserted params uid eventId done db db') (hdb : Valid db)
    {existing : Occasion} (hfresh : occ.recurrenceAnchor ∉ done.map (·.recurrenceAnchor))
    (hrow : db.occasions.get existing.postId = some existing)
    (hkey : db.keyOf existing.postId =
      some ⟨params.sourceId, uid, some occ.recurrenceAnchor⟩) :
    db'.occasions.get existing.postId = some existing := by
  rw [h.oldOccasion _ (hdb.lt_of_key hkey), hrow, wantedAt_of_key hkey,
    occurrenceAt_eq_none hfresh]
  rfl

/-- Updating an existing occasion writes its occurrence. -/
theorem update (h : Upserted params uid eventId done db db') (hdb : Valid db)
    {existing : Occasion} (hfresh : occ.recurrenceAnchor ∉ done.map (·.recurrenceAnchor))
    (hrow : db.occasions.get existing.postId = some existing)
    (hkey : db.keyOf existing.postId = some ⟨params.sourceId, uid, some occ.recurrenceAnchor⟩)
    (hupdates : UpdatesOccasion existing occ db' db'') :
    Upserted params uid eventId (done ++ [occ]) db db'' := by
  have hlt := hdb.lt_of_key hkey
  have hrow' := h.occasion_of_fresh hdb hfresh hrow hkey
  have hshrinks := hupdates.shrinks h.valid hrow'
  have hwanted : db.wantedAt params.sourceId uid (done ++ [occ]) existing.postId = some occ := by
    rw [wantedAt_of_key hkey, occurrenceAt_append hfresh, if_pos rfl]
  have hother : ∀ p, p ≠ existing.postId →
      db.keyOf p ≠ some ⟨params.sourceId, uid, some occ.recurrenceAnchor⟩ :=
    fun p hp hp' => hp (hdb.unique _ _ _ hp' hkey)
  exact {
    valid := hshrinks.valid h.valid
    noOrphans := h.noOrphans.shrink hshrinks (fun p _ hp => hupdates.events ▸ hp)
      (fun p _ hp => (hupdates.occasions_isSome hrow' p).trans hp)
    syncSources := hupdates.syncSources.trans h.syncSources
    next := hupdates.next ▸ h.next
    events := fun p => by rw [hupdates.events, h.events]
    oldPost := by
      intro p hp
      rw [hupdates.posts, h.oldPost p hp]
      by_cases hid : p = existing.postId
      · rw [hid, hwanted, wantedAt_of_key hkey, occurrenceAt_eq_none hfresh]
        cases db.posts.get existing.postId with
        | none => exact ite_self _
        | some post =>
          by_cases hoverride : occ.isOverride = true
          · simp only [overrideText, hoverride, and_self, if_true, Option.map_some]
          · rw [if_neg fun hand => hoverride hand.2]
            simp only [overrideText, hoverride, Option.map_some]
            rfl
      · rw [if_neg fun hand => hid hand.1, wantedAt_append hfresh (hother p hid)]
    oldOccasion := by
      intro p hp
      rw [hupdates.occasions, h.oldOccasion p hp]
      by_cases hid : p = existing.postId
      · subst hid
        rw [if_pos rfl, hwanted, hrow]
        rfl
      · rw [if_neg hid, wantedAt_append hfresh (hother p hid)]
    new := by
      intro p post hp hpost
      have hid : p ≠ existing.postId := by omega
      rw [hupdates.posts, if_neg fun hand => hid hand.1] at hpost
      obtain ⟨other, hmem, hfree, heq, ho⟩ := h.new p post hp hpost
      refine ⟨other, List.mem_append_left _ hmem, hfree, heq, ?_⟩
      rw [hupdates.occasions, if_neg hid, ho]
    present := by
      intro other hmem
      rcases List.mem_append.mp hmem with hdone | hlast
      · obtain ⟨p, hp⟩ := h.present other hdone
        exact ⟨p, (hupdates.keyOf p).trans hp⟩
      · obtain rfl := List.mem_singleton.mp hlast
        exact ⟨existing.postId, by rw [hupdates.keyOf, h.keyOf hlt, hkey]⟩ }

/-- Creating an occasion writes its occurrence, if no post had its anchor. -/
theorem create (h : Upserted params uid eventId done db db')
    (hdb : HasEvent db params.sourceId uid eventId)
    (hfresh : occ.recurrenceAnchor ∉ done.map (·.recurrenceAnchor))
    (hfree : ∀ p, db.keyOf p ≠ some ⟨params.sourceId, uid, some occ.recurrenceAnchor⟩)
    (hadds : Adds (createdOccasionPost params uid occ db'.nextPostId) none
      (some (newOccasion eventId db'.nextPostId occ)) db' db'') :
    Upserted params uid eventId (done ++ [occ]) db db'' := by
  have hfree' : ∀ p, db'.keyOf p ≠ some ⟨params.sourceId, uid, some occ.recurrenceAnchor⟩ :=
    fun p hp => hfree p (h.keyOf_of_fresh hfresh hp)
  have hkey : (createdOccasionPost params uid occ db'.nextPostId).syncKey =
      some ⟨params.sourceId, uid, some occ.recurrenceAnchor⟩ := rfl
  have hevent : (db'.events.get eventId).isSome := by
    rw [h.events]
    exact hdb.event
  have heventKey : db'.keyOf eventId = some ⟨params.sourceId, uid, none⟩ := by
    rw [h.keyOf (hdb.valid.lt_of_key hdb.key), hdb.key]
  have hfits : Fits db' (createdOccasionPost params uid occ db'.nextPostId) none
      (some (newOccasion eventId db'.nextPostId occ)) := {
    named := fun _ => rfl
    anchored := fun _ => ⟨rfl, rfl⟩
    free := fun p key hp => by
      rw [hkey, Option.some.injEq] at hp
      rw [← hp]
      exact hfree' p
    event := fun hnone => by cases hnone
    occasion := fun o ho => by
      obtain rfl := Option.some.inj ho
      refine ⟨hevent, fun key hp => ?_⟩
      rw [hkey, Option.some.injEq] at hp
      rw [← hp]
      exact ⟨rfl, heventKey⟩ }
  have hold : ∀ p, p < db.nextPostId → p ≠ db'.nextPostId := by
    intro p hp heq
    have hnext := h.next
    omega
  exact {
    valid := hadds.valid hfits h.valid
    noOrphans := hadds.noOrphans h.noOrphans (fun hcontext => by cases hcontext) (fun _ => rfl)
    syncSources := hadds.syncSources.trans h.syncSources
    next := by
      have hnext := h.next
      rw [hadds.next]
      omega
    events := by
      intro p
      rw [hadds.events, h.events]
      split
      · rename_i hp
        rw [hp, ← h.events]
        exact h.valid.get_nextPostId.2.1.symm
      · rfl
    oldPost := by
      intro p hp
      rw [hadds.posts, if_neg (hold p hp), h.oldPost p hp, wantedAt_append hfresh (hfree p)]
    oldOccasion := by
      intro p hp
      rw [hadds.occasions, if_neg (hold p hp), h.oldOccasion p hp,
        wantedAt_append hfresh (hfree p)]
    new := by
      intro p post hp hpost
      rw [hadds.posts] at hpost
      rw [hadds.occasions]
      split at hpost
      · rename_i hid
        rw [if_pos hid, hid]
        obtain rfl := Option.some.inj hpost
        exact ⟨occ, List.mem_append_right _ (List.mem_singleton.mpr rfl), hfree, rfl, rfl⟩
      · rename_i hid
        rw [if_neg hid]
        obtain ⟨other, hmem, hrest⟩ := h.new p post hp hpost
        exact ⟨other, List.mem_append_left _ hmem, hrest⟩
    present := by
      intro other hmem
      rcases List.mem_append.mp hmem with hdone | hlast
      · obtain ⟨p, hp⟩ := h.present other hdone
        have hlt := h.valid.lt_of_key hp
        exact ⟨p, by rw [hadds.keyOf, if_neg (Nat.ne_of_lt hlt), hp]⟩
      · obtain rfl := List.mem_singleton.mp hlast
        exact ⟨db'.nextPostId, by rw [hadds.keyOf, if_pos rfl, hkey]⟩ }

end Upserted

/-- Writing occurrences with different anchors under an event always succeeds; the
occasions not seen are those with other anchors. -/
theorem upsertOccurrences_ok {params : SyncParams} {uid : String} {eventId : Nat} {db : Database}
    (hdb : HasEvent db params.sourceId uid eventId) {occurrences : List Occurrence}
    (hnodup : (occurrences.map (·.recurrenceAnchor)).Nodup) :
    ∃ state, occurrences.foldlM (upsertOccurrence params eventId uid)
        (db, existingByAnchor db eventId) = .ok state ∧
      Upserted params uid eventId occurrences db state.1 ∧
      ∀ anchor, state.2.value anchor = if anchor ∈ occurrences.map (·.recurrenceAnchor) then none
        else (existingByAnchor db eventId).value anchor := by
  refine foldlM_prefix_induction (I := fun done (state : Database × HashMap Instant Occasion) =>
    Upserted params uid eventId done db state.1 ∧
      ∀ anchor, state.2.value anchor = if anchor ∈ done.map (·.recurrenceAnchor) then none
        else (existingByAnchor db eventId).value anchor) ?_ ?_
  · exact ⟨Upserted.nil hdb, fun anchor => (if_neg List.not_mem_nil).symm⟩
  · rintro done occ rest ⟨db', unseen⟩ hsplit ⟨hupserted, hunseen⟩
    simp only at hupserted hunseen
    have hfresh : occ.recurrenceAnchor ∉ done.map (·.recurrenceAnchor) := by
      intro hmem
      rw [hsplit, List.map_append, List.map_cons] at hnodup
      exact List.disjoint_of_nodup_append hnodup hmem List.mem_cons_self
    have hvalue := hunseen occ.recurrenceAnchor
    rw [if_neg hfresh] at hvalue
    have hmember : ∀ anchor, anchor ∈ (done ++ [occ]).map (·.recurrenceAnchor) ↔
        anchor ∈ done.map (·.recurrenceAnchor) ∨ anchor = occ.recurrenceAnchor := by
      intro anchor
      rw [List.map_append, List.mem_append, List.map_singleton, List.mem_singleton]
    cases hexisting : (existingByAnchor db eventId).value occ.recurrenceAnchor with
    | some existing =>
      obtain ⟨hrow, hkey⟩ := (existingByAnchor_value hdb).mp hexisting
      have hrow' := hupserted.occasion_of_fresh hdb.valid hfresh hrow hkey
      have hpost : (db'.posts.get existing.postId).isSome :=
        hupserted.valid.occasionPost _ (Option.isSome_iff_exists.mpr ⟨_, hrow'⟩)
      obtain ⟨db'', hok, hupdates⟩ := updateOccasion_ok occ hrow' hpost
      refine ⟨(db'', unseen.delete fun entry => entry.1 = occ.recurrenceAnchor), ?_,
        hupserted.update hdb.valid hfresh hrow hkey hupdates, ?_⟩
      · simp only [upsertOccurrence, hvalue, hexisting, hok, bind, Except.bind]
        rfl
      · intro anchor
        rw [HashMap.value_delete_key, hunseen]
        by_cases hanchor : anchor = occ.recurrenceAnchor
        · rw [if_pos hanchor, if_pos ((hmember anchor).mpr (.inr hanchor))]
        · simp only [hmember, hanchor, or_false, if_false]
    | none =>
      have hfree := (existingByAnchor_eq_none_iff hdb).mp hexisting
      have hevent : (db'.events.get eventId).isSome := by
        rw [hupserted.events]
        exact hdb.event
      obtain ⟨db'', hok, hadds⟩ := createOccasion_ok hupserted.valid hevent
        fun p hp => hfree p (hupserted.keyOf_of_fresh hfresh hp)
      refine ⟨(db'', unseen), ?_, hupserted.create hdb hfresh hfree hadds, ?_⟩
      · simp only [upsertOccurrence, hvalue, hexisting, hok, bind, Except.bind]
        rfl
      · intro anchor
        rw [hunseen]
        by_cases hanchor : anchor = occ.recurrenceAnchor
        · rw [if_pos ((hmember anchor).mpr (.inr hanchor)), hanchor, if_neg hfresh, hexisting]
        · simp only [hmember, hanchor, or_false]

end Rellm.Sync
