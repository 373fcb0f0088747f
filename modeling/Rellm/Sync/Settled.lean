import Rellm.Sync.WriteGroups

/-!
# Settled databases

A database is settled for a feed when every event and occasion of the source is
already as the feed says. A sync leaves it settled, and a sync of a settled
database writes nothing but counts.
-/

namespace Rellm.Sync

open Foundation Calendar

/-- Every event and occasion of a source is as a feed says. -/
structure Settled (params : SyncParams) (feed : Feed) (db : Database) : Prop where
  valid : Valid db
  noOrphans : NoOrphans db params.sourceId
  eventText : ∀ p uid text post, db.keyOf p = some ⟨params.sourceId, uid, none⟩ →
    (db.events.get p).isSome → feed.text uid = some text → db.posts.get p = some post →
    retext text.title text.content text.link post = post
  eventKept : ∀ p uid, db.keyOf p = some ⟨params.sourceId, uid, none⟩ →
    (db.events.get p).isSome → feed.text uid = none →
    ∃ q o, db.occasions.get q = some o ∧ o.eventId = p
  occasion : ∀ p uid anchor o, db.keyOf p = some ⟨params.sourceId, uid, some anchor⟩ →
    db.occasions.get p = some o → fate params (feed.occurrence uid anchor) o = some o
  occasionText : ∀ p uid anchor post, db.keyOf p = some ⟨params.sourceId, uid, some anchor⟩ →
    db.posts.get p = some post → overrideText (feed.occurrence uid anchor) post = post
  presentEvent : ∀ uid, (feed.text uid).isSome →
    ∃ p, (db.events.get p).isSome ∧ db.keyOf p = some ⟨params.sourceId, uid, none⟩
  presentOccasion : ∀ uid anchor, (feed.occurrence uid anchor).isSome →
    ∃ p, db.keyOf p = some ⟨params.sourceId, uid, some anchor⟩

section

variable {params : SyncParams} {feed : Feed} {db db' : Database} {uid : String} {eventId : Nat}

/-- An occasion that was just marked, or is not due yet, stays as it is. -/
theorem missingFate_idempotent {o o' : Occasion} (h : missingFate params o = some o') :
    missingFate params o' = some o' := by
  rw [missingFate] at h
  split at h
  · rename_i hcovers
    split at h
    · obtain rfl := Option.some.inj h
      have hcovers' : covers params { o with syncMissingSince := some params.now } = true :=
        hcovers
      have hfresh : expired params { o with syncMissingSince := some params.now } = false := by
        rw [expired, Option.any_some, decide_eq_false_iff_not]
        simp only [missingGracePeriodDays, days]
        omega
      rw [missingFate, if_pos hcovers', hfresh]
      rfl
    · split at h
      · cases h
      · obtain rfl := Option.some.inj h
        rw [missingFate, if_pos hcovers, if_neg ‹_›, if_neg ‹_›]
  · rename_i hcovers
    obtain rfl := Option.some.inj h
    rw [missingFate, if_neg hcovers]

/-- What becomes of an occasion does not change when the same feed is synced again. -/
theorem fate_idempotent {wanted : Option Occurrence} {o o' : Occasion}
    (h : fate params wanted o = some o') : fate params wanted o' = some o' := by
  cases wanted with
  | none => exact missingFate_idempotent h
  | some occ =>
    obtain rfl := Option.some.inj h
    rfl

/-- The text of an override is set once. -/
theorem overrideText_idempotent (wanted : Option Occurrence) (post : Post) :
    overrideText wanted (overrideText wanted post) = overrideText wanted post := by
  cases wanted with
  | none => rfl
  | some occ =>
    simp only [overrideText]
    split
    · rfl
    · rfl

/-- The post of a new occasion has the text of its occurrence. -/
theorem overrideText_created {p : Nat} (occ : Occurrence) :
    overrideText (some occ) (createdOccasionPost params uid occ p) =
      createdOccasionPost params uid occ p := by
  rw [overrideText]
  split
  · rename_i hoverride
    rw [createdOccasionPost, newOccasionPost, if_pos hoverride, if_pos hoverride]
    rfl
  · rfl

/-- Updating an occasion that is up to date changes nothing. -/
theorem updateOccasion_eq_self {existing : Occasion} {occ : Occurrence} {post : Post}
    (hpost : db.posts.get existing.postId = some post)
    (hcurrent : refreshed occ existing = existing)
    (htext : overrideText (some occ) post = post) :
    updateOccasion db existing occ = .ok db := by
  have hsame : ¬ (existing.startsAt ≠ occ.startsAt ∨ existing.endsAt ≠ occ.endsAt ∨
      existing.location ≠ locationJson occ.location ∨ existing.timezone ≠ occ.timezone ∨
      existing.syncMissingSince.isSome = true) := by
    rw [← hcurrent]
    simp [refreshed]
  rw [updateOccasion, if_neg hsame]
  split
  · rename_i hoverride
    refine syncPostText_eq_self hpost ?_
    rw [overrideText, if_pos hoverride] at htext
    exact htext
  · rfl

namespace Settled

/-- A settled database has everything a feed lists. -/
theorem hasEvent (h : Settled params feed db) (hevent : (db.events.get eventId).isSome)
    (hkey : db.keyOf eventId = some ⟨params.sourceId, uid, none⟩) :
    HasEvent db params.sourceId uid eventId :=
  ⟨h.valid, h.noOrphans, hevent, hkey⟩

/-- Writing the occurrences of an event that is settled changes nothing. -/
theorem upsertOccurrences_eq_self (h : Settled params feed db)
    (hevent : HasEvent db params.sourceId uid eventId) {occurrences : List Occurrence}
    (hoccurrences : feed.occurrence uid = occurrenceAt occurrences)
    (hnodup : (occurrences.map (·.recurrenceAnchor)).Nodup) :
    ∃ state, occurrences.foldlM (upsertOccurrence params eventId uid)
        (db, existingByAnchor db eventId) = .ok state ∧ state.1 = db ∧
      ∀ anchor, state.2.value anchor = if anchor ∈ occurrences.map (·.recurrenceAnchor) then none
        else (existingByAnchor db eventId).value anchor := by
  refine foldlM_prefix_induction (I := fun (done : List Occurrence)
    (state : Database × HashMap Instant Occasion) => state.1 = db ∧
      ∀ anchor, state.2.value anchor = if anchor ∈ done.map (·.recurrenceAnchor) then none
        else (existingByAnchor db eventId).value anchor) ?_ ?_
  · exact ⟨rfl, fun anchor => (if_neg List.not_mem_nil).symm⟩
  · rintro done occ rest ⟨db', unseen⟩ hsplit ⟨hsame, hunseen⟩
    simp only at hsame hunseen
    subst hsame
    have hfresh : occ.recurrenceAnchor ∉ done.map (·.recurrenceAnchor) := by
      intro hmem
      rw [hsplit, List.map_append, List.map_cons] at hnodup
      exact List.disjoint_of_nodup_append hnodup hmem List.mem_cons_self
    have hmem : occ ∈ occurrences := by
      rw [hsplit]
      exact List.mem_append_right _ List.mem_cons_self
    have hocc : feed.occurrence uid occ.recurrenceAnchor = some occ := by
      rw [hoccurrences]
      exact (occurrenceAt_eq_some_iff hnodup).mpr ⟨hmem, rfl⟩
    obtain ⟨p, hkey⟩ := h.presentOccasion uid occ.recurrenceAnchor (by rw [hocc]; rfl)
    obtain ⟨existing, hrow⟩ := Option.isSome_iff_exists.mp
      (h.noOrphans.occasion_isSome h.valid hkey)
    obtain ⟨post, hpost, _⟩ := Option.bind_eq_some_iff.mp hkey
    have hid : existing.postId = p := Table.key_of_get hrow
    subst hid
    have hexisting := (existingByAnchor_value hevent).mpr ⟨hrow, hkey⟩
    have hvalue := hunseen occ.recurrenceAnchor
    rw [if_neg hfresh, hexisting] at hvalue
    have hcurrent := h.occasion _ uid _ existing hkey hrow
    rw [hocc] at hcurrent
    have htext := h.occasionText _ uid _ post hkey hpost
    rw [hocc] at htext
    have hupdate := updateOccasion_eq_self hpost (Option.some.inj hcurrent) htext
    refine ⟨(db', unseen.delete fun entry => entry.1 = occ.recurrenceAnchor), ?_, rfl, ?_⟩
    · simp only [upsertOccurrence, hvalue, hupdate, bind, Except.bind]
      rfl
    · intro anchor
      rw [HashMap.value_delete_key, hunseen, List.map_append, List.map_singleton]
      simp only [List.mem_append, List.mem_singleton]
      by_cases hanchor : anchor = occ.recurrenceAnchor
      · rw [if_pos hanchor, if_pos (.inr hanchor)]
      · simp only [hanchor, or_false, if_false]

/-- An occasion that the feed does not have is neither marked nor deleted. -/
theorem not_missing (h : Settled params feed db) {p : Nat} {anchor : Instant} {o : Occasion}
    (hkey : db.keyOf p = some ⟨params.sourceId, uid, some anchor⟩)
    (ho : db.occasions.get p = some o) (hnone : feed.occurrence uid anchor = none)
    (hcovers : covers params o = true) :
    o.syncMissingSince.isNone = false ∧ expired params o = false := by
  have hfate := h.occasion p uid anchor o hkey ho
  rw [hnone] at hfate
  have hmissing : missingFate params o = some o := hfate
  rw [missingFate, if_pos hcovers] at hmissing
  split at hmissing
  · rename_i hunmarked
    have hmarked : o.syncMissingSince = some params.now := by
      rw [← Option.some.inj hmissing]
    rw [hmarked] at hunmarked
    cases hunmarked
  · rename_i hmarked
    refine ⟨(Bool.not_eq_true _).mp hmarked, ?_⟩
    split at hmissing
    · cases hmissing
    · exact (Bool.not_eq_true _).mp ‹_›

/-- Reconciling an event that is settled changes nothing. -/
theorem reconcileOccasions_eq_self (h : Settled params feed db)
    (hevent : HasEvent db params.sourceId uid eventId) {group : EventGroup}
    (huid : group.uid = uid ∨ group.occurrences = [])
    (hoccurrences : feed.occurrence uid = occurrenceAt group.occurrences)
    (hnodup : (group.occurrences.map (·.recurrenceAnchor)).Nodup) :
    reconcileOccasions params db eventId group = .ok db := by
  obtain ⟨⟨db', unseen⟩, hok, hsame, hunseen⟩ :=
    h.upsertOccurrences_eq_self hevent hoccurrences hnodup
  simp only at hsame hunseen
  subst hsame
  have hnothing : ∀ condition : Occasion → Bool,
      (∀ p anchor o, db'.keyOf p = some ⟨params.sourceId, uid, some anchor⟩ →
        db'.occasions.get p = some o → feed.occurrence uid anchor = none →
        covers params o = true → condition o = false) →
      (((unseen.rows.map Prod.snd).filter (covers params)).filter condition).map
        (·.postId) = [] := by
    intro condition hfalse
    rw [List.eq_nil_iff_forall_not_mem]
    intro p hp
    obtain ⟨anchor, o, hkey, hnone, ho, hcovers, htrue⟩ :=
      (mem_missingIds_iff hevent hunseen condition).mp hp
    rw [hfalse p anchor o hkey ho (by rw [hoccurrences, hnone]) hcovers] at htrue
    cases htrue
  have hnewly := hnothing (·.syncMissingSince.isNone)
    fun p anchor o hkey ho hnone hcovers => (h.not_missing hkey ho hnone hcovers).1
  have hexpired := hnothing (expired params)
    fun p anchor o hkey ho hnone hcovers => (h.not_missing hkey ho hnone hcovers).2
  have hmark : markMissing db' params.now [] = db' := by
    rw [markMissing, Table.update_eq_self]
    intro row _ hin
    cases hin
  rw [reconcileOccasions_eq group rfl huid, hok]
  simp only [Except.bind, hnewly, hexpired, hmark]
  rfl

/-- Syncing a group of the feed changes nothing. -/
theorem syncGroup_eq_self (h : Settled params feed db) {group : EventGroup}
    (hlists : feed.Lists group) :
    syncGroup params (existingEventIdsByUid db params.sourceId) db group = .ok db := by
  obtain ⟨p, hsome, hkey⟩ := h.presentEvent group.uid (by rw [hlists.text]; rfl)
  have hexisting := (existingEventIdsByUid_value h.valid).mpr ⟨hsome, hkey⟩
  have hevent := h.hasEvent hsome hkey
  obtain ⟨post, hpost, _⟩ := Option.bind_eq_some_iff.mp hkey
  have htext := syncPostText_eq_self hpost
    (h.eventText p group.uid _ post hkey hsome hlists.text hpost)
  have hreconcile := h.reconcileOccasions_eq_self hevent (.inl rfl) hlists.occurrence hlists.nodup
  simp only [syncGroup, hexisting, htext, bind, Except.bind, hreconcile]

/-- Pruning an event of the source changes nothing. -/
theorem pruneEvent_eq_self (h : Settled params feed db) (hsome : (db.events.get eventId).isSome)
    (hkey : db.keyOf eventId = some ⟨params.sourceId, uid, none⟩)
    (hunlisted : feed.text uid = none) : pruneEvent params db eventId = .ok db := by
  have hreconcile : reconcileOccasions params db eventId emptyGroup = .ok db :=
    h.reconcileOccasions_eq_self (h.hasEvent hsome hkey) (.inr rfl)
      (feed.occurrence_eq_nil hunlisted) List.nodup_nil
  obtain ⟨q, o, ho, hevent⟩ := h.eventKept eventId uid hkey hsome hunlisted
  have hcount : ¬ db.occasions.rows.countP (fun row => row.eventId = eventId) = 0 := by
    rw [List.countP_eq_zero]
    intro hnone
    exact hnone o (Table.get_eq_some_iff.mp ho).1 (decide_eq_true hevent)
  simp only [pruneEvent, hreconcile, bind, Except.bind, if_neg hcount]
  rfl

/-- No post of a settled source is an orphan. -/
theorem deleteOrphanedSyncedPosts_eq_self (h : Settled params feed db) :
    deleteOrphanedSyncedPosts db params.sourceId = .ok db := by
  have hnone : ∀ (context : PostContext) (hasRow : Nat → Bool),
      (∀ p post, db.posts.get p = some post → post.syncSourceId = some params.sourceId →
        post.context = context → hasRow p = true) →
      orphanedPostIds db params.sourceId context hasRow = [] := by
    intro context hasRow hrows
    rw [List.eq_nil_iff_forall_not_mem]
    intro p hp
    obtain ⟨post, hpost, hsource, hcontext, hrow⟩ := mem_orphanedPostIds_iff.mp hp
    rw [hrows p post hpost hsource hcontext] at hrow
    cases hrow
  have hevents := hnone .event (fun id => (db.events.get id).isSome)
    fun p post hpost hsource => (h.noOrphans p post hpost hsource).1
  have hoccasions := hnone .occasion (fun id => (db.occasions.get id).isSome)
    fun p post hpost hsource => (h.noOrphans p post hpost hsource).2
  rw [deleteOrphanedSyncedPosts, hevents, hoccasions]
  rfl

/-- Writing the groups of a feed to a database that is settled for it stores counts alone. -/
theorem writeGroups_eq (h : Settled params feed db) (order : HashOrder)
    {groups : List EventGroup} (hhas : feed.Has groups) :
    writeGroups order params groups db = .ok (storeCounts db params.sourceId) := by
  have hgroups := foldlM_eq_self fun group hmem => h.syncGroup_eq_self (hhas.lists group hmem)
  have hunlisted : ∀ uid, uid ∉ groups.map (·.uid) → feed.text uid = none := by
    intro uid hout
    by_contra hsome
    exact hout (hhas.complete uid (Option.isSome_iff_ne_none.mpr hsome))
  have hprune := foldlM_eq_self (f := pruneEvent params) (s := db) fun e hmem => by
    obtain ⟨hsome, uid, hkey, hout⟩ :=
      (mem_staleEvents_iff h.valid order params.sourceId (groups.map (·.uid)) e).mp hmem
    exact h.pruneEvent_eq_self hsome hkey (hunlisted uid hout)
  simp only [writeGroups, h.deleteOrphanedSyncedPosts_eq_self, bind, Except.bind, hgroups, hprune]
  rfl

/-- Only the rows of posts, events and occasions matter. -/
theorem storeCounts (h : Settled params feed db) : Settled params feed
    (Sync.storeCounts db params.sourceId) :=
  ⟨h.valid.of_rows rfl rfl rfl rfl, h.noOrphans, h.eventText, h.eventKept, h.occasion,
    h.occasionText, h.presentEvent, h.presentOccasion⟩

end Settled

namespace Synced

/-- The event of a post was there if the post was. -/
theorem old_event (h : Synced params feed (fun _ => True) db db') {p : Nat}
    (hp : p < db.nextPostId) (hkey : db'.keyOf p = some ⟨params.sourceId, uid, none⟩)
    (hsome : (db'.events.get p).isSome) :
    (db.events.get p).isSome ∧ db.keyOf p = some ⟨params.sourceId, uid, none⟩ := by
  have hold := h.keyOf_of_some hp hkey
  refine ⟨?_, hold⟩
  by_contra hnone
  have hnot : ¬ Affected params.sourceId (fun _ => True) db p := by
    rintro ⟨uid', anchor, _, hkey', hevent⟩
    rw [hold, Option.some.injEq, SyncKey.mk.injEq] at hkey'
    exact hnone (hevent hkey'.2.2.symm)
  rw [(h.others p hp hnot).events] at hsome
  exact hnone hsome

/-- An event that is kept without being listed has an occasion left. -/
theorem kept_occasion (h : Synced params feed (fun _ => True) db db')
    (hevent : HasEvent db params.sourceId uid eventId) (hunlisted : feed.text uid = none)
    (hkeeps : KeepsOccasion params db eventId) :
    ∃ q o, db'.occasions.get q = some o ∧ o.eventId = eventId := by
  obtain ⟨q, o, ho, howner, hkept⟩ := hkeeps
  have hq := hevent.valid.fresh q
    (hevent.valid.occasionPost q (Option.isSome_iff_exists.mpr ⟨o, ho⟩))
  cases hkey : db.keyOf q with
  | none =>
    have hnot : ¬ Affected params.sourceId (fun _ => True) db q := by
      rintro ⟨_, _, _, hkey', _⟩
      rw [hkey] at hkey'
      cases hkey'
    exact ⟨q, o, (h.others q hq hnot).occasions.trans ho, howner⟩
  | some key =>
    obtain ⟨anchor, rfl⟩ := hevent.occasion_key ho howner hkey
    obtain ⟨o', ho'⟩ := Option.isSome_iff_exists.mp (hkept (by rw [hkey]; rfl))
    refine ⟨q, o', ?_, (missingFate_eventId ho').trans howner⟩
    rw [h.occasion q uid anchor trivial hkey, ho, feed.occurrence_eq_nil hunlisted]
    exact ho'

/-- Syncing all UIDs settles the database. -/
theorem settled (h : Synced params feed (fun _ => True) db db') (hdb : Valid db)
    (hnone : NoOrphans db params.sourceId) : Settled params feed db' where
  valid := h.valid
  noOrphans := h.noOrphans
  eventText := by
    intro p uid text post hkey hsome htext hpost
    by_cases hp : p < db.nextPostId
    · obtain ⟨hevent, hold⟩ := h.old_event hp hkey hsome
      rw [(h.listedEvent p uid text trivial hold hevent htext).1] at hpost
      obtain ⟨before, _, rfl⟩ := Option.map_eq_some_iff.mp hpost
      rfl
    · obtain ⟨post', hpost', hcreated⟩ := h.created_event (Nat.le_of_not_lt hp) hkey
      obtain rfl := Option.some.inj (hpost.symm.trans hpost')
      obtain ⟨text', htext', rfl⟩ := hcreated.text
      obtain rfl := Option.some.inj (htext.symm.trans htext')
      rfl
  eventKept := by
    intro p uid hkey hsome hunlisted
    have hp : p < db.nextPostId := by
      by_contra hge
      obtain ⟨_, _, hcreated⟩ := h.created_event (Nat.le_of_not_lt hge) hkey
      obtain ⟨_, htext, _⟩ := hcreated.text
      rw [hunlisted] at htext
      cases htext
    obtain ⟨hevent, hold⟩ := h.old_event hp hkey hsome
    have hkeeps : KeepsOccasion params db p := by
      by_contra hnot
      rw [(h.deletedEvent p uid trivial hold hevent hunlisted hnot).2] at hsome
      cases hsome
    exact h.kept_occasion ⟨hdb, hnone, hevent, hold⟩ hunlisted hkeeps
  occasion := by
    intro p uid anchor o hkey ho
    by_cases hp : p < db.nextPostId
    · rw [h.occasion p uid anchor trivial (h.keyOf_of_some hp hkey)] at ho
      obtain ⟨before, _, hfate⟩ := Option.bind_eq_some_iff.mp ho
      exact fate_idempotent hfate
    · obtain ⟨occ, e, hocc, _, _, ho', _⟩ := h.created_occasion (Nat.le_of_not_lt hp) hkey
      obtain rfl := Option.some.inj (ho.symm.trans ho')
      rw [hocc]
      rfl
  occasionText := by
    intro p uid anchor post hkey hpost
    by_cases hp : p < db.nextPostId
    · rw [h.occasionPost p uid anchor trivial (h.keyOf_of_some hp hkey)] at hpost
      split at hpost
      · cases hpost
      · obtain ⟨before, _, rfl⟩ := Option.map_eq_some_iff.mp hpost
        exact overrideText_idempotent _ before
    · obtain ⟨occ, e, hocc, _, hpost', _⟩ := h.created_occasion (Nat.le_of_not_lt hp) hkey
      obtain rfl := Option.some.inj (hpost.symm.trans hpost')
      rw [hocc]
      exact overrideText_created occ
  presentEvent := fun uid hsome => h.presentEvent uid trivial hsome
  presentOccasion := fun uid anchor hsome => h.presentOccasion uid anchor trivial hsome

end Synced

end

end Rellm.Sync
