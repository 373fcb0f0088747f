import Rellm.Sync.Upsert

/-!
# Reconciling the occasions of one event

What becomes of an occasion depends on what the calendar has for its anchor: it
is brought up to date with its occurrence, or it counts as missing, is marked
when a sync first misses it and deleted once it has stayed missing for the grace
period. Reconciling an event does exactly this to each of its occasions and adds
the occurrences that have none.
-/

namespace Rellm.Sync

open Foundation Calendar

/-- What becomes of an occasion that is not in the calendar. -/
def missingFate (params : SyncParams) (occasion : Occasion) : Option Occasion :=
  if covers params occasion then
    if occasion.syncMissingSince.isNone then
      some { occasion with syncMissingSince := some params.now }
    else if expired params occasion then none
    else some occasion
  else some occasion

/-- What becomes of an occasion, given what the calendar has for its anchor. -/
def fate (params : SyncParams) (wanted : Option Occurrence) (occasion : Occasion) :
    Option Occasion :=
  match wanted with
  | some occ => some (refreshed occ occasion)
  | none => missingFate params occasion

/-- What the database is after the occasions of an event were reconciled with the
occurrences at their anchors. -/
structure Reconciled (params : SyncParams) (uid : String) (eventId : Nat)
    (occurrence : Instant → Option Occurrence) (db db' : Database) : Prop where
  valid : Valid db'
  noOrphans : NoOrphans db' params.sourceId
  syncSources : db'.syncSources = db.syncSources
  next : db.nextPostId ≤ db'.nextPostId
  events : ∀ p, db'.events.get p = db.events.get p
  others : ∀ p, p < db.nextPostId →
    (∀ anchor, db.keyOf p ≠ some ⟨params.sourceId, uid, some anchor⟩) →
    db'.posts.get p = db.posts.get p ∧ db'.occasions.get p = db.occasions.get p
  occasion : ∀ p anchor, db.keyOf p = some ⟨params.sourceId, uid, some anchor⟩ →
    db'.occasions.get p = (db.occasions.get p).bind (fate params (occurrence anchor))
  post : ∀ p anchor, db.keyOf p = some ⟨params.sourceId, uid, some anchor⟩ →
    db'.posts.get p = if (db'.occasions.get p).isNone then none
      else (db.posts.get p).map (overrideText (occurrence anchor))
  new : ∀ p post, db.nextPostId ≤ p → db'.posts.get p = some post →
    ∃ anchor occ, occurrence anchor = some occ ∧ occ.recurrenceAnchor = anchor ∧
      (∀ q, db.keyOf q ≠ some ⟨params.sourceId, uid, some anchor⟩) ∧
      post = createdOccasionPost params uid occ p ∧
      db'.occasions.get p = some (newOccasion eventId p occ)
  present : ∀ anchor, (occurrence anchor).isSome →
    ∃ p, db'.keyOf p = some ⟨params.sourceId, uid, some anchor⟩

section

variable {params : SyncParams} {uid : String} {eventId : Nat} {occurrences : List Occurrence}
  {db : Database}

/-- An anchor has an occurrence exactly if it is the anchor of one. -/
theorem occurrenceAt_eq_none_iff {anchor : Instant} :
    occurrenceAt occurrences anchor = none ↔ anchor ∉ occurrences.map (·.recurrenceAnchor) := by
  constructor
  · intro hnone hmem
    obtain ⟨occ, hocc, rfl⟩ := List.mem_map.mp hmem
    exact List.find?_eq_none.mp hnone occ hocc (decide_eq_true rfl)
  · exact occurrenceAt_eq_none

/-- The occurrence with an anchor is the one of the occurrences that has it. -/
theorem occurrenceAt_eq_some_iff (hnodup : (occurrences.map (·.recurrenceAnchor)).Nodup)
    {anchor : Instant} {occ : Occurrence} :
    occurrenceAt occurrences anchor = some occ ↔
      occ ∈ occurrences ∧ occ.recurrenceAnchor = anchor := by
  constructor
  · intro h
    exact ⟨List.mem_of_find?_eq_some h, by simpa using List.find?_some h⟩
  · rintro ⟨hmem, rfl⟩
    cases hfind : occurrenceAt occurrences occ.recurrenceAnchor with
    | none =>
      have hout := occurrenceAt_eq_none_iff.mp hfind
      exact absurd (List.mem_map.mpr ⟨occ, hmem, rfl⟩) hout
    | some found =>
      have hanchor : found.recurrenceAnchor = occ.recurrenceAnchor := by
        simpa using List.find?_some hfind
      have hfound := List.mem_of_find?_eq_some hfind
      rw [List.inj_on_of_nodup_map hnodup hfound hmem hanchor]

/-- The ids of the occasions not seen that a sync covers and that satisfy a condition. -/
theorem mem_missingIds_iff (hdb : HasEvent db params.sourceId uid eventId)
    {unseen : HashMap Instant Occasion}
    (hunseen : ∀ anchor, unseen.value anchor =
      if anchor ∈ occurrences.map (·.recurrenceAnchor) then none
      else (existingByAnchor db eventId).value anchor) (condition : Occasion → Bool) {p : Nat} :
    p ∈ ((((unseen.rows.map Prod.snd).filter (covers params)).filter condition).map
        (·.postId)) ↔
      ∃ anchor o, db.keyOf p = some ⟨params.sourceId, uid, some anchor⟩ ∧
        occurrenceAt occurrences anchor = none ∧ db.occasions.get p = some o ∧
        covers params o = true ∧ condition o = true := by
  have hvalue : ∀ anchor o, (anchor, o) ∈ unseen.rows ↔
      occurrenceAt occurrences anchor = none ∧ db.occasions.get o.postId = some o ∧
        db.keyOf o.postId = some ⟨params.sourceId, uid, some anchor⟩ := by
    intro anchor o
    rw [← HashMap.value_eq_some_iff, hunseen, occurrenceAt_eq_none_iff]
    split
    · rename_i hmem
      constructor
      · intro h
        cases h
      · intro h
        exact absurd hmem h.1
    · rename_i hmem
      rw [existingByAnchor_value hdb]
      exact (and_iff_right hmem).symm
  rw [List.mem_map]
  constructor
  · rintro ⟨o, ho, rfl⟩
    obtain ⟨ho, hcondition⟩ := List.mem_filter.mp ho
    obtain ⟨ho, hcovers⟩ := List.mem_filter.mp ho
    obtain ⟨⟨anchor, o'⟩, hrow, rfl⟩ := List.mem_map.mp ho
    obtain ⟨hnone, hget, hkey⟩ := (hvalue anchor o').mp hrow
    exact ⟨anchor, o', hkey, hnone, hget, hcovers, hcondition⟩
  · rintro ⟨anchor, o, hkey, hnone, hget, hcovers, hcondition⟩
    have hid : o.postId = p := Table.key_of_get hget
    refine ⟨o, ?_, hid⟩
    subst hid
    have hrow := (hvalue anchor o).mpr ⟨hnone, hget, hkey⟩
    exact List.mem_filter.mpr ⟨List.mem_filter.mpr
      ⟨List.mem_map.mpr ⟨_, hrow, rfl⟩, hcovers⟩, hcondition⟩

/-- Marks the occasions with some ids as missing. -/
def markMissing (db : Database) (now : Instant) (postIds : List Nat) : Database :=
  { db with
    occasions := db.occasions.update (fun row => postIds.contains row.postId)
      (fun row => { row with syncMissingSince := some now }) (fun _ => rfl) }

/-- A marked occasion keeps its other columns. -/
theorem markMissing_occasion (now : Instant) (postIds : List Nat) (p : Nat) :
    (markMissing db now postIds).occasions.get p = (db.occasions.get p).map fun row =>
      if p ∈ postIds then { row with syncMissingSince := some now } else row := by
  rw [markMissing, Table.get_update]
  cases hget : db.occasions.get p with
  | none => rfl
  | some o =>
    have hid : o.postId = p := Table.key_of_get hget
    simp only [Option.map_some, List.contains_eq_mem, decide_eq_true_eq, hid]

/-- Marking rewrites one column of rows that stay. -/
theorem markMissing_shrinks (hdb : Valid db) (now : Instant) (postIds : List Nat) :
    Shrinks db (markMissing db now postIds) := by
  have hrow : ∀ p o', (markMissing db now postIds).occasions.get p = some o' →
      ∃ o, db.occasions.get p = some o ∧ o'.eventId = o.eventId := by
    intro p o' ho'
    rw [markMissing_occasion] at ho'
    obtain ⟨o, ho, rfl⟩ := Option.map_eq_some_iff.mp ho'
    refine ⟨o, ho, ?_⟩
    split <;> rfl
  exact {
    posts := fun p post' hpost' => ⟨post', hpost', .rfl⟩
    events := fun p hp => hp
    occasions := hrow
    next := Nat.le_refl _
    eventPost := hdb.eventPost
    occasionPost := fun p hp => by
      rw [markMissing_occasion, Option.isSome_map] at hp
      exact hdb.occasionPost p hp
    occasionEvent := fun p o' ho' => by
      obtain ⟨o, ho, heventId⟩ := hrow p o' ho'
      rw [heventId]
      exact hdb.occasionEvent p o ho }

/-- Reconciling is writing the occurrences, marking and deleting. -/
theorem reconcileOccasions_eq (group : EventGroup) (hoccurrences : group.occurrences = occurrences)
    (huid : group.uid = uid ∨ occurrences = []) :
    reconcileOccasions params db eventId group =
      (occurrences.foldlM (upsertOccurrence params eventId uid)
        (db, existingByAnchor db eventId)).bind fun state =>
      let missing := (state.2.rows.map Prod.snd).filter (covers params)
      deleteSyncedPosts
        (markMissing state.1 params.now
          ((missing.filter (·.syncMissingSince.isNone)).map (·.postId)))
        ((missing.filter (expired params)).map (·.postId)) := by
  rw [reconcileOccasions, hoccurrences]
  rcases huid with rfl | rfl
  · rfl
  · rfl

/-- An occasion that is not marked has not been missing. -/
theorem not_expired_of_unmarked {o : Occasion} (h : o.syncMissingSince = none) :
    expired params o = false := by
  rw [expired, h]
  rfl

/-- Marking and then deleting is what becomes of a missing occasion. -/
theorem missingFate_eq (o : Occasion) :
    (if covers params o = true ∧ expired params o = true then none
      else some (if covers params o = true ∧ o.syncMissingSince.isNone = true then
        { o with syncMissingSince := some params.now } else o)) = missingFate params o := by
  rw [missingFate]
  by_cases hcovers : covers params o = true
  · rw [if_pos hcovers]
    cases hmissing : o.syncMissingSince with
    | none =>
      have hexpired : expired params o = false := not_expired_of_unmarked hmissing
      simp only [hcovers, hexpired, Bool.false_eq_true, and_false, if_false, Option.isNone_none,
        and_self, if_true]
    | some since =>
      simp only [hcovers, true_and, Option.isNone_some, Bool.false_eq_true, and_false, if_false]
  · simp only [hcovers, Bool.false_eq_true, false_and, if_false]

/-- What the ids of expired occasions are. -/
def AreExpired (params : SyncParams) (uid : String) (occurrences : List Occurrence)
    (db : Database) (ids : List Nat) : Prop :=
  ∀ p, p ∈ ids ↔ ∃ anchor o, db.keyOf p = some ⟨params.sourceId, uid, some anchor⟩ ∧
    occurrenceAt occurrences anchor = none ∧ db.occasions.get p = some o ∧
    covers params o = true ∧ expired params o = true

/-- No event is among the expired occasions. -/
theorem AreExpired.not_event {ids : List Nat} (h : AreExpired params uid occurrences db ids)
    (hdb : Valid db) {p : Nat} (hp : p ∈ ids) : db.events.get p = none := by
  obtain ⟨_, o, _, _, hget, _⟩ := (h p).mp hp
  have happart := mt (hdb.apart p)
  rw [hget] at happart
  simpa using happart (Option.some_ne_none o)

/-- No occasion that is left loses its event to the expired occasions. -/
theorem AreExpired.event_kept {ids : List Nat} {db1 : Database}
    (h : AreExpired params uid occurrences db ids) (hdb : Valid db)
    (hupserted : Upserted params uid eventId occurrences db db1) (newlyMissing : List Nat)
    (p : Nat) (o : Occasion)
    (ho : (markMissing db1 params.now newlyMissing).occasions.get p = some o) :
    o.eventId ∉ ids := by
  intro hmem
  have hmarks := markMissing_shrinks hupserted.valid params.now newlyMissing
  have hevent : (db1.events.get o.eventId).isSome := hmarks.occasionEvent p o ho
  rw [hupserted.events, h.not_event hdb hmem] at hevent
  cases hevent

/-- Writing the occurrences, marking what is newly missing and deleting what is missing
for too long reconciles the event. -/
theorem reconciled_of_phases {db1 db3 : Database} {newlyMissing expiredIds : List Nat}
    (hdb : HasEvent db params.sourceId uid eventId)
    (hupserted : Upserted params uid eventId occurrences db db1)
    (hnewly : ∀ p, p ∈ newlyMissing ↔
      ∃ anchor o, db.keyOf p = some ⟨params.sourceId, uid, some anchor⟩ ∧
        occurrenceAt occurrences anchor = none ∧ db.occasions.get p = some o ∧
        covers params o = true ∧ o.syncMissingSince.isNone = true)
    (hexpired : AreExpired params uid occurrences db expiredIds)
    (hnodup : (occurrences.map (·.recurrenceAnchor)).Nodup)
    (hdeletes : DeletesPosts expiredIds (markMissing db1 params.now newlyMissing) db3) :
    Reconciled params uid eventId (occurrenceAt occurrences) db db3 := by
  have hmarks := markMissing_shrinks hupserted.valid params.now newlyMissing
  have hvalid := hmarks.valid hupserted.valid
  have hnone := hupserted.noOrphans.shrink hmarks (fun _ _ hp => hp)
    (fun p _ hp => by rw [markMissing_occasion, Option.isSome_map]; exact hp)
  have hkept := hexpired.event_kept hdb.valid hupserted newlyMissing
  have hoccasion : ∀ p, db3.occasions.get p = if p ∈ expiredIds then none
      else (db1.occasions.get p).map fun row =>
        if p ∈ newlyMissing then { row with syncMissingSince := some params.now } else row := by
    intro p
    rw [hdeletes.occasion_eq hkept, markMissing_occasion]
  have hposts : ∀ p, db3.posts.get p = if p ∈ expiredIds then none else db1.posts.get p :=
    hdeletes.posts
  have hshrinks := hdeletes.shrinks hvalid hkept
  -- no other post than one with an anchor of this event is marked or deleted
  have huntouched : ∀ p, (∀ anchor, db.keyOf p = some ⟨params.sourceId, uid, some anchor⟩ →
      occurrenceAt occurrences anchor ≠ none) → p ∉ newlyMissing ∧ p ∉ expiredIds := by
    intro p hp
    constructor
    · intro hmem
      obtain ⟨anchor, _, hkey, hnone, _⟩ := (hnewly p).mp hmem
      exact hp anchor hkey hnone
    · intro hmem
      obtain ⟨anchor, _, hkey, hnone, _⟩ := (hexpired p).mp hmem
      exact hp anchor hkey hnone
  have hoccasionFate : ∀ p anchor,
      db.keyOf p = some ⟨params.sourceId, uid, some anchor⟩ →
      db3.occasions.get p =
        (db.occasions.get p).bind (fate params (occurrenceAt occurrences anchor)) := by
    intro p anchor hkey
    have hlt := hdb.valid.lt_of_key hkey
    obtain ⟨o, ho⟩ := Option.isSome_iff_exists.mp (hdb.noOrphans.occasion_isSome hdb.valid hkey)
    rw [hoccasion, hupserted.oldOccasion p hlt, wantedAt_of_key hkey, ho]
    cases hwanted : occurrenceAt occurrences anchor with
    | some occ =>
      have hout := huntouched p fun anchor' hkey' hnone => by
        obtain rfl : anchor = anchor' := by simpa using hkey.symm.trans hkey'
        rw [hwanted] at hnone
        cases hnone
      rw [if_neg hout.2]
      simp only [hout.1, if_false, Option.map_some, Option.bind_some]
      rfl
    | none =>
      have hnewly' : p ∈ newlyMissing ↔
          covers params o = true ∧ o.syncMissingSince.isNone = true := by
        rw [hnewly]
        constructor
        · rintro ⟨_, o', _, _, ho', hcond⟩
          obtain rfl : o = o' := by simpa using ho.symm.trans ho'
          exact hcond
        · intro hcond
          exact ⟨anchor, o, hkey, hwanted, ho, hcond⟩
      have hexpired' : p ∈ expiredIds ↔ covers params o = true ∧ expired params o = true := by
        rw [hexpired]
        constructor
        · rintro ⟨_, o', _, _, ho', hcond⟩
          obtain rfl : o = o' := by simpa using ho.symm.trans ho'
          exact hcond
        · intro hcond
          exact ⟨anchor, o, hkey, hwanted, ho, hcond⟩
      simp only [hnewly', hexpired', Option.map_some, upToDate]
      exact missingFate_eq o
  exact {
    valid := hshrinks.valid hvalid
    noOrphans := hdeletes.noOrphans hvalid hkept hnone
    syncSources := hdeletes.syncSources.trans hupserted.syncSources
    next := by
      rw [hdeletes.next]
      exact hupserted.next
    events := by
      intro p
      rw [hdeletes.events]
      split
      · rename_i hmem
        exact (hexpired.not_event hdb.valid hmem).symm
      · exact hupserted.events p
    others := by
      intro p hlt hkey
      obtain ⟨hmark, hdelete⟩ := huntouched p fun anchor hkey' => absurd hkey' (hkey anchor)
      have hwanted := wantedAt_eq_none hkey occurrences
      rw [hposts, hoccasion, if_neg hdelete, if_neg hdelete, hupserted.oldPost p hlt,
        hupserted.oldOccasion p hlt, hwanted]
      simp only [hmark, if_false]
      constructor
      · cases db.posts.get p <;> rfl
      · cases db.occasions.get p <;> rfl
    occasion := hoccasionFate
    post := by
      intro p anchor hkey
      have hlt := hdb.valid.lt_of_key hkey
      obtain ⟨o, ho⟩ := Option.isSome_iff_exists.mp
        (hdb.noOrphans.occasion_isSome hdb.valid hkey)
      have hdeleted : (db3.occasions.get p).isNone = true ↔ p ∈ expiredIds := by
        rw [hoccasion, hupserted.oldOccasion p hlt, ho]
        by_cases hmem : p ∈ expiredIds
        · simp only [hmem, if_true, Option.isNone_none]
        · simp only [hmem, if_false, Option.map_some, Option.isNone_some, Bool.false_eq_true]
      rw [hposts, hupserted.oldPost p hlt, wantedAt_of_key hkey]
      simp only [hdeleted]
    new := by
      intro p post hp hpost
      have hfree : ∀ anchor, db.keyOf p ≠ some ⟨params.sourceId, uid, some anchor⟩ := by
        intro anchor hkey
        have hlt := hdb.valid.lt_of_key hkey
        omega
      obtain ⟨hmark, hdelete⟩ := huntouched p fun anchor hkey => absurd hkey (hfree anchor)
      rw [hposts, if_neg hdelete] at hpost
      obtain ⟨occ, hmem, hkeys, heq, ho⟩ := hupserted.new p post hp hpost
      refine ⟨occ.recurrenceAnchor, occ, (occurrenceAt_eq_some_iff hnodup).mpr ⟨hmem, rfl⟩, rfl,
        hkeys, heq, ?_⟩
      rw [hoccasion, if_neg hdelete, ho]
      simp only [hmark, if_false, Option.map_some]
    present := by
      intro anchor hsome
      obtain ⟨occ, hocc⟩ := Option.isSome_iff_exists.mp hsome
      obtain ⟨hmem, rfl⟩ := (occurrenceAt_eq_some_iff hnodup).mp hocc
      obtain ⟨p, hp⟩ := hupserted.present occ hmem
      have hdelete : p ∉ expiredIds := by
        intro hin
        obtain ⟨anchor, _, hkey, hmissing, _⟩ := (hexpired p).mp hin
        rw [hupserted.keyOf (hdb.valid.lt_of_key hkey), hkey] at hp
        obtain rfl : anchor = occ.recurrenceAnchor := by simpa using hp
        rw [hmissing] at hocc
        cases hocc
      refine ⟨p, ?_⟩
      rw [Database.keyOf, hposts, if_neg hdelete]
      exact hp }

/-- Reconciling an event of a database without orphans always succeeds. -/
theorem reconcileOccasions_ok (hdb : HasEvent db params.sourceId uid eventId)
    {group : EventGroup} (huid : group.uid = uid ∨ group.occurrences = [])
    (hnodup : (group.occurrences.map (·.recurrenceAnchor)).Nodup) :
    ∃ db', reconcileOccasions params db eventId group = .ok db' ∧
      Reconciled params uid eventId (occurrenceAt group.occurrences) db db' := by
  obtain ⟨⟨db1, unseen⟩, hok, hupserted, hunseen⟩ := upsertOccurrences_ok hdb hnodup
  simp only at hupserted hunseen
  have hmissing := fun condition p => mem_missingIds_iff (p := p) hdb hunseen condition
  have hexpired : AreExpired params uid group.occurrences db _ := hmissing (expired params)
  obtain ⟨db3, hdelete, hdeletes⟩ := deleteSyncedPosts_ok
    (hexpired.event_kept hdb.valid hupserted _)
  refine ⟨db3, ?_, reconciled_of_phases hdb hupserted (hmissing (·.syncMissingSince.isNone))
    hexpired hnodup hdeletes⟩
  rw [reconcileOccasions_eq group rfl huid, hok]
  exact hdelete

end

end Rellm.Sync
