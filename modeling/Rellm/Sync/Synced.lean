import Rellm.Sync.Reconcile

/-!
# Syncing events by UID

A feed is the text of its events by UID and their occurrences by anchor. Syncing
some UIDs of a source settles the rows that the source knows under these UIDs,
one by one as the feed says, and no others; so UIDs can be synced one after the
other, in any order.
-/

namespace Rellm.Sync

open Foundation Calendar

/-- The text of an event. -/
structure EventText where
  title : Option String
  content : Option String
  link : Option String
  deriving DecidableEq, Repr

/-- A group with a text and no occurrences. -/
def EventText.group (text : EventText) (uid : String) : EventGroup where
  uid := uid
  title := text.title
  content := text.content
  link := text.link
  occurrences := []

/-- What a feed has for each UID, and for each anchor of it. -/
structure Feed where
  text : String → Option EventText
  occurrence : String → Instant → Option Occurrence
  anchored : ∀ uid anchor occ, occurrence uid anchor = some occ → occ.recurrenceAnchor = anchor
  listed : ∀ uid anchor, (occurrence uid anchor).isSome → (text uid).isSome

/-- Under a UID that is not listed there are no occurrences. -/
theorem Feed.occurrence_eq_nil (feed : Feed) {uid : String} (hunlisted : feed.text uid = none) :
    feed.occurrence uid = occurrenceAt [] := by
  funext anchor
  cases hocc : feed.occurrence uid anchor with
  | none => rfl
  | some occ =>
    have hsome := feed.listed uid anchor (by rw [hocc]; rfl)
    rw [hunlisted] at hsome
    cases hsome

/-- The rows with an id are the same. -/
structure SameRows (db db' : Database) (p : Nat) : Prop where
  posts : db'.posts.get p = db.posts.get p
  events : db'.events.get p = db.events.get p
  occasions : db'.occasions.get p = db.occasions.get p

/-- Equal rows have equal keys. -/
theorem SameRows.keyOf {db db' : Database} {p : Nat} (h : SameRows db db' p) :
    db'.keyOf p = db.keyOf p := by
  rw [Database.keyOf, h.posts, Database.keyOf]

/-- The post of an event or an occasion of a source, under one of some UIDs. -/
def Affected (sourceId : Nat) (handled : String → Prop) (db : Database) (p : Nat) : Prop :=
  ∃ uid anchor, handled uid ∧ db.keyOf p = some ⟨sourceId, uid, anchor⟩ ∧
    (anchor = none → (db.events.get p).isSome)

/-- Some occasion of an event is not deleted when the event is missing from the feed. -/
def KeepsOccasion (params : SyncParams) (db : Database) (eventId : Nat) : Prop :=
  ∃ q o, db.occasions.get q = some o ∧ o.eventId = eventId ∧
    ((db.keyOf q).isSome → (missingFate params o).isSome)

/-- An event that was created for a UID the source had nothing under. -/
structure CreatedEvent (params : SyncParams) (feed : Feed) (db db' : Database) (uid : String)
    (p : Nat) (post : Post) : Prop where
  text : ∃ text, feed.text uid = some text ∧ post = createdEventPost params (text.group uid) p
  free : ∀ q, db.keyOf q ≠ some ⟨params.sourceId, uid, none⟩
  event : db'.events.get p = some { postId := p }
  occasion : db'.occasions.get p = none

/-- An occasion that was created for an anchor the source had nothing under. -/
structure CreatedOccasion (params : SyncParams) (feed : Feed) (db db' : Database) (uid : String)
    (p : Nat) (post : Post) : Prop where
  occurrence : ∃ anchor occ e, feed.occurrence uid anchor = some occ ∧
    (∀ q, db.keyOf q ≠ some ⟨params.sourceId, uid, some anchor⟩) ∧
    post = createdOccasionPost params uid occ p ∧
    db'.occasions.get p = some (newOccasion e p occ) ∧
    db'.keyOf e = some ⟨params.sourceId, uid, none⟩
  event : db'.events.get p = none

/-- What the database is after some UIDs of a source were synced with a feed. -/
structure Synced (params : SyncParams) (feed : Feed) (handled : String → Prop)
    (db db' : Database) : Prop where
  valid : Valid db'
  noOrphans : NoOrphans db' params.sourceId
  syncSources : db'.syncSources = db.syncSources
  next : db.nextPostId ≤ db'.nextPostId
  others : ∀ p, p < db.nextPostId → ¬ Affected params.sourceId handled db p → SameRows db db' p
  occasion : ∀ p uid anchor, handled uid →
    db.keyOf p = some ⟨params.sourceId, uid, some anchor⟩ →
    db'.occasions.get p =
      (db.occasions.get p).bind (fate params (feed.occurrence uid anchor))
  occasionPost : ∀ p uid anchor, handled uid →
    db.keyOf p = some ⟨params.sourceId, uid, some anchor⟩ →
    db'.posts.get p = if (db'.occasions.get p).isNone then none
      else (db.posts.get p).map (overrideText (feed.occurrence uid anchor))
  listedEvent : ∀ p uid text, handled uid → db.keyOf p = some ⟨params.sourceId, uid, none⟩ →
    (db.events.get p).isSome → feed.text uid = some text →
    db'.posts.get p = (db.posts.get p).map (retext text.title text.content text.link) ∧
      db'.events.get p = db.events.get p
  keptEvent : ∀ p uid, handled uid → db.keyOf p = some ⟨params.sourceId, uid, none⟩ →
    (db.events.get p).isSome → feed.text uid = none → KeepsOccasion params db p →
    db'.posts.get p = db.posts.get p ∧ db'.events.get p = db.events.get p
  deletedEvent : ∀ p uid, handled uid → db.keyOf p = some ⟨params.sourceId, uid, none⟩ →
    (db.events.get p).isSome → feed.text uid = none → ¬ KeepsOccasion params db p →
    db'.posts.get p = none ∧ db'.events.get p = none
  new : ∀ p post, db.nextPostId ≤ p → db'.posts.get p = some post →
    ∃ uid, handled uid ∧ (CreatedEvent params feed db db' uid p post ∨
      CreatedOccasion params feed db db' uid p post)
  presentEvent : ∀ uid, handled uid → (feed.text uid).isSome →
    ∃ p, (db'.events.get p).isSome ∧ db'.keyOf p = some ⟨params.sourceId, uid, none⟩
  presentOccasion : ∀ uid anchor, handled uid → (feed.occurrence uid anchor).isSome →
    ∃ p, db'.keyOf p = some ⟨params.sourceId, uid, some anchor⟩

/-- Nothing is deleted. -/
theorem DeletesPosts.nil (db : Database) : DeletesPosts [] db db where
  posts p := by rw [if_neg List.not_mem_nil]
  events p := by rw [if_neg List.not_mem_nil]
  occasions p := by
    cases db.occasions.get p with
    | none => rfl
    | some o =>
      rw [Option.filter_some, if_pos]
      simp only [List.not_mem_nil, not_false_eq_true, and_self, decide_true]
  syncSources := rfl
  next := rfl

section

variable {params : SyncParams} {feed : Feed} {uid : String} {eventId : Nat}
  {db db1 db2 db3 : Database}

/-- The text of one post was rewritten. -/
structure Retexted (text : Post → Post) (postId : Nat) (db db' : Database) : Prop where
  same : ∀ post, SameSync post (text post)
  posts : ∀ p, db'.posts.get p =
    if p = postId then (db.posts.get p).map text else db.posts.get p
  events : db'.events = db.events
  occasions : db'.occasions = db.occasions
  next : db'.nextPostId = db.nextPostId
  syncSources : db'.syncSources = db.syncSources

/-- Rewriting the text of an event leaves it an event of a database without orphans. -/
theorem HasEvent.retext {text : Post → Post} (h : HasEvent db params.sourceId uid eventId)
    (htext : Retexted text eventId db db1) :
    HasEvent db1 params.sourceId uid eventId ∧ ∀ p, db1.keyOf p = db.keyOf p := by
  obtain ⟨hsync, hposts, hevents, hoccasions, hnext, _⟩ := htext
  have hsame : ∀ p post1, db1.posts.get p = some post1 →
      ∃ post, db.posts.get p = some post ∧ SameSync post post1 := by
    intro p post1 hpost1
    rw [hposts] at hpost1
    split at hpost1
    · obtain ⟨post, hpost, rfl⟩ := Option.map_eq_some_iff.mp hpost1
      exact ⟨post, hpost, hsync post⟩
    · exact ⟨post1, hpost1, .rfl⟩
  have hsome : ∀ p, (db1.posts.get p).isSome = (db.posts.get p).isSome := by
    intro p
    rw [hposts]
    split
    · rw [Option.isSome_map]
    · rfl
  have hshrinks : Shrinks db db1 := {
    posts := hsame
    events := fun p hp => hevents ▸ hp
    occasions := fun p o ho => ⟨o, hoccasions ▸ ho, rfl⟩
    next := Nat.le_of_eq hnext.symm
    eventPost := fun p hp => by
      rw [hsome]
      exact h.valid.eventPost p (hevents ▸ hp)
    occasionPost := fun p hp => by
      rw [hsome]
      exact h.valid.occasionPost p (hoccasions ▸ hp)
    occasionEvent := fun p o ho => by
      rw [hevents]
      exact h.valid.occasionEvent p o (hoccasions ▸ ho) }
  have hkey : ∀ p, db1.keyOf p = db.keyOf p := by
    intro p
    rw [Database.keyOf, Database.keyOf, hposts]
    split
    · cases db.posts.get p with
      | none => rfl
      | some post => exact (hsync post).syncKey
    · rfl
  refine ⟨⟨hshrinks.valid h.valid, ?_, hevents ▸ h.event, (hkey eventId).trans h.key⟩, hkey⟩
  exact h.noOrphans.shrink hshrinks (fun p _ hp => hevents ▸ hp)
    (fun p _ hp => hoccasions ▸ hp)

/-- An event whose text was rewritten and whose occasions were reconciled, and that was
perhaps deleted then, is synced. -/
theorem synced_of_reconciled {text : Post → Post} {dropped : List Nat}
    (h : HasEvent db params.sourceId uid eventId) (htext : Retexted text eventId db db1)
    (hrec : Reconciled params uid eventId (feed.occurrence uid) db1 db2)
    (hdropped : ∀ p ∈ dropped, p = eventId)
    (hkept : ∀ p o, db2.occasions.get p = some o → o.eventId ∉ dropped)
    (hdeletes : DeletesPosts dropped db2 db3)
    (hlisted : ∀ wanted, feed.text uid = some wanted →
      text = retext wanted.title wanted.content wanted.link ∧ dropped = [])
    (hunlisted : feed.text uid = none → text = id ∧
      (KeepsOccasion params db eventId ↔ dropped = [])) :
    Synced params feed (· = uid) db db3 := by
  obtain ⟨h1, hkey⟩ := h.retext htext
  obtain ⟨_, hposts, hevents, hoccasions, hnext, hsources⟩ := htext
  have hlt := h.valid.lt_of_key h.key
  have hevent : ∀ p, (∀ anchor, db.keyOf p ≠ some ⟨params.sourceId, uid, some anchor⟩) →
      p < db.nextPostId → db2.posts.get p = db1.posts.get p ∧
        db2.occasions.get p = db1.occasions.get p := by
    intro p hfree hp
    refine hrec.others p (hnext ▸ hp) ?_
    intro anchor
    rw [hkey]
    exact hfree anchor
  have hown : ∀ anchor, db.keyOf eventId ≠ some ⟨params.sourceId, uid, some anchor⟩ := by
    intro anchor heq
    rw [h.key] at heq
    cases heq
  have hevent3 : ∀ p, p ≠ eventId → p ∉ dropped := fun p hp hmem => hp (hdropped p hmem)
  have hunique : ∀ p, db.keyOf p = some ⟨params.sourceId, uid, none⟩ → p = eventId :=
    fun p hp => h.valid.unique _ _ _ hp h.key
  have hanchored : ∀ p anchor, db.keyOf p = some ⟨params.sourceId, uid, some anchor⟩ →
      p ≠ eventId := fun p anchor hp heq => hown anchor (heq ▸ hp)
  have hnext3 : db.nextPostId ≤ db3.nextPostId := by
    rw [hdeletes.next, ← hnext]
    exact hrec.next
  exact {
    valid := (hdeletes.shrinks hrec.valid hkept).valid hrec.valid
    noOrphans := hdeletes.noOrphans hrec.valid hkept hrec.noOrphans
    syncSources := by rw [hdeletes.syncSources, hrec.syncSources, hsources]
    next := hnext3
    others := by
      intro p hp hnot
      have hne : p ≠ eventId := by
        rintro rfl
        exact hnot ⟨uid, none, rfl, h.key, fun _ => h.event⟩
      have hfree : ∀ anchor, db.keyOf p ≠ some ⟨params.sourceId, uid, some anchor⟩ :=
        fun anchor hp => hnot ⟨uid, some anchor, rfl, hp, fun hnone => by cases hnone⟩
      obtain ⟨hpost, hoccasion⟩ := hevent p hfree hp
      have hout := hevent3 p hne
      refine ⟨?_, ?_, ?_⟩
      · rw [hdeletes.posts, if_neg hout, hpost, hposts, if_neg hne]
      · rw [hdeletes.events, if_neg hout, hrec.events, hevents]
      · rw [hdeletes.occasion_eq hkept, if_neg hout, hoccasion, hoccasions]
    occasion := by
      rintro p _ anchor rfl hp
      have hout := hevent3 p (hanchored p anchor hp)
      rw [hdeletes.occasion_eq hkept, if_neg hout,
        hrec.occasion p anchor ((hkey p).trans hp), hoccasions]
    occasionPost := by
      rintro p _ anchor rfl hp
      have hne := hanchored p anchor hp
      have hout := hevent3 p hne
      rw [hdeletes.occasion_eq hkept, if_neg hout, hdeletes.posts, if_neg hout,
        hrec.post p anchor ((hkey p).trans hp), hposts, if_neg hne]
    listedEvent := by
      rintro p _ wanted rfl hp _ hwanted
      obtain rfl := hunique p hp
      obtain ⟨rfl, rfl⟩ := hlisted wanted hwanted
      obtain ⟨hpost, _⟩ := hevent p hown hlt
      constructor
      · rw [hdeletes.posts, if_neg List.not_mem_nil, hpost, hposts, if_pos rfl]
      · rw [hdeletes.events, if_neg List.not_mem_nil, hrec.events, hevents]
    keptEvent := by
      rintro p _ rfl hp _ hnone hkeeps
      obtain rfl := hunique p hp
      obtain ⟨rfl, hiff⟩ := hunlisted hnone
      obtain rfl := hiff.mp hkeeps
      obtain ⟨hpost, _⟩ := hevent p hown hlt
      constructor
      · rw [hdeletes.posts, if_neg List.not_mem_nil, hpost, hposts, if_pos rfl,
          Option.map_id_apply]
      · rw [hdeletes.events, if_neg List.not_mem_nil, hrec.events, hevents]
    deletedEvent := by
      rintro p _ rfl hp _ hnone hkeeps
      obtain rfl := hunique p hp
      have hne : dropped ≠ [] := mt ((hunlisted hnone).2.mpr) hkeeps
      obtain ⟨q, hq⟩ := List.exists_mem_of_ne_nil _ hne
      obtain rfl := hdropped q hq
      constructor
      · rw [hdeletes.posts, if_pos hq]
      · rw [hdeletes.events, if_pos hq]
    new := by
      intro p post hp hpost
      have hne : p ≠ eventId := by omega
      have hout := hevent3 p hne
      rw [hdeletes.posts, if_neg hout] at hpost
      obtain ⟨anchor, occ, hocc, hanchor, hfree, heq, ho⟩ := hrec.new p post (hnext ▸ hp) hpost
      refine ⟨uid, rfl, .inr ⟨⟨anchor, occ, eventId, hocc, ?_, heq, ?_, ?_⟩, ?_⟩⟩
      · intro q
        rw [← hkey]
        exact hfree q
      · rw [hdeletes.occasion_eq hkept, if_neg hout, ho]
      · have hempty : dropped = [] := by
          have hsome := feed.listed uid anchor (by rw [hocc]; rfl)
          obtain ⟨wanted, hwanted⟩ := Option.isSome_iff_exists.mp hsome
          exact (hlisted wanted hwanted).2
        subst hempty
        rw [Database.keyOf, hdeletes.posts, if_neg List.not_mem_nil, (hevent _ hown hlt).1,
          ← Database.keyOf, hkey, h.key]
      · rw [hdeletes.events, if_neg hout, hrec.events, hevents]
        have hnone := mt (h.valid.fresh p ∘ h.valid.eventPost p) (by omega)
        simpa using hnone
    presentEvent := by
      rintro _ rfl hsome
      obtain ⟨wanted, hwanted⟩ := Option.isSome_iff_exists.mp hsome
      obtain ⟨-, rfl⟩ := hlisted wanted hwanted
      refine ⟨eventId, ?_, ?_⟩
      · rw [hdeletes.events, if_neg List.not_mem_nil, hrec.events, hevents]
        exact h.event
      · rw [Database.keyOf, hdeletes.posts, if_neg List.not_mem_nil, (hevent _ hown hlt).1,
          ← Database.keyOf, hkey, h.key]
    presentOccasion := by
      rintro _ anchor rfl hsome
      obtain ⟨wanted, hwanted⟩ := Option.isSome_iff_exists.mp (feed.listed _ anchor hsome)
      obtain ⟨-, rfl⟩ := hlisted wanted hwanted
      obtain ⟨p, hp⟩ := hrec.present anchor hsome
      refine ⟨p, ?_⟩
      rw [Database.keyOf, hdeletes.posts, if_neg List.not_mem_nil, ← Database.keyOf, hp] }

/-- An event that was created and whose occasions were reconciled then is synced. -/
theorem synced_of_created {wanted : EventText} (hdb : Valid db)
    (hwanted : feed.text uid = some wanted)
    (hfree : ∀ p, db.keyOf p ≠ some ⟨params.sourceId, uid, none⟩)
    (hadds : Adds (createdEventPost params (wanted.group uid) db.nextPostId)
      (some { postId := db.nextPostId }) none db db1)
    (hrec : Reconciled params uid db.nextPostId (feed.occurrence uid) db1 db2) :
    Synced params feed (· = uid) db db2 := by
  have hnext : db1.nextPostId = db.nextPostId + 1 := hadds.next
  have hnew : db1.keyOf db.nextPostId = some ⟨params.sourceId, uid, none⟩ := by
    rw [hadds.keyOf, if_pos rfl]
    rfl
  have hkey : ∀ p, p < db.nextPostId → db1.keyOf p = db.keyOf p := by
    intro p hp
    rw [hadds.keyOf, if_neg (Nat.ne_of_lt hp)]
  have hkeyed : ∀ p anchor, db.keyOf p = some ⟨params.sourceId, uid, some anchor⟩ →
      db1.keyOf p = some ⟨params.sourceId, uid, some anchor⟩ ∧ p ≠ db.nextPostId := by
    intro p anchor hp
    have hlt := hdb.lt_of_key hp
    exact ⟨(hkey p hlt).trans hp, Nat.ne_of_lt hlt⟩
  have hown : ∀ anchor, db1.keyOf db.nextPostId ≠ some ⟨params.sourceId, uid, some anchor⟩ := by
    intro anchor heq
    rw [hnew] at heq
    cases heq
  have hcreated := hrec.others db.nextPostId (by omega) hown
  exact {
    valid := hrec.valid
    noOrphans := hrec.noOrphans
    syncSources := hrec.syncSources.trans hadds.syncSources
    next := by
      have hle := hrec.next
      omega
    others := by
      intro p hp hnot
      have hne := Nat.ne_of_lt hp
      obtain ⟨hpost, hoccasion⟩ := hrec.others p (by omega) fun anchor heq => by
        rw [hkey p hp] at heq
        exact hnot ⟨uid, some anchor, rfl, heq, fun hnone => by cases hnone⟩
      refine ⟨?_, ?_, ?_⟩
      · rw [hpost, hadds.posts, if_neg hne]
      · rw [hrec.events, hadds.events, if_neg hne]
      · rw [hoccasion, hadds.occasions, if_neg hne]
    occasion := by
      rintro p _ anchor rfl hp
      obtain ⟨hp1, hne⟩ := hkeyed p anchor hp
      rw [hrec.occasion p anchor hp1, hadds.occasions, if_neg hne]
    occasionPost := by
      rintro p _ anchor rfl hp
      obtain ⟨hp1, hne⟩ := hkeyed p anchor hp
      rw [hrec.post p anchor hp1, hadds.posts, if_neg hne]
    listedEvent := by
      rintro p _ _ rfl hp
      exact absurd hp (hfree p)
    keptEvent := by
      rintro p _ rfl hp
      exact absurd hp (hfree p)
    deletedEvent := by
      rintro p _ rfl hp
      exact absurd hp (hfree p)
    new := by
      intro p post hp hpost
      refine ⟨uid, rfl, ?_⟩
      by_cases hid : p = db.nextPostId
      · left
        subst hid
        rw [hcreated.1, hadds.posts, if_pos rfl, Option.some.injEq] at hpost
        refine ⟨⟨wanted, hwanted, hpost.symm⟩, hfree, ?_, ?_⟩
        · rw [hrec.events, hadds.events, if_pos rfl]
        · rw [hcreated.2, hadds.occasions, if_pos rfl]
      · right
        obtain ⟨anchor, occ, hocc, hanchor, hkeys, heq, ho⟩ := hrec.new p post (by omega) hpost
        refine ⟨⟨anchor, occ, db.nextPostId, hocc, ?_, heq, ho, ?_⟩, ?_⟩
        · intro q hq
          exact hkeys q (hkeyed q anchor hq).1
        · rw [Database.keyOf, hcreated.1, ← Database.keyOf, hnew]
        · rw [hrec.events, hadds.events, if_neg hid]
          have hold := mt (hdb.fresh p ∘ hdb.eventPost p) (by omega)
          simpa using hold
    presentEvent := by
      rintro _ rfl _
      refine ⟨db.nextPostId, ?_, ?_⟩
      · rw [hrec.events, hadds.events, if_pos rfl]
        rfl
      · rw [Database.keyOf, hcreated.1, ← Database.keyOf, hnew]
    presentOccasion := by
      rintro _ anchor rfl hsome
      exact hrec.present anchor hsome }

/-- A created event fits into the database and has the UID it was created for. -/
theorem hasEvent_of_created {group : EventGroup} (hdb : Valid db)
    (hnone : NoOrphans db params.sourceId)
    (hfree : ∀ p, db.keyOf p ≠ some ⟨params.sourceId, group.uid, none⟩)
    (hadds : Adds (createdEventPost params group db.nextPostId)
      (some { postId := db.nextPostId }) none db db1) :
    HasEvent db1 params.sourceId group.uid db.nextPostId := by
  have hkey : (createdEventPost params group db.nextPostId).syncKey =
      some ⟨params.sourceId, group.uid, none⟩ := rfl
  have hfits : Fits db (createdEventPost params group db.nextPostId)
      (some { postId := db.nextPostId }) none := {
    named := fun _ => rfl
    anchored := fun hanchor => by cases hanchor
    free := fun p key hp => by
      rw [hkey, Option.some.injEq] at hp
      rw [← hp]
      exact hfree p
    event := fun _ => ⟨rfl, fun _ => ⟨rfl, rfl⟩⟩
    occasion := fun o ho => by cases ho }
  refine ⟨hadds.valid hfits hdb, hadds.noOrphans hnone (fun _ => rfl) ?_, ?_, ?_⟩
  · intro hcontext
    cases hcontext
  · rw [hadds.events, if_pos rfl]
    rfl
  · rw [hadds.keyOf, if_pos rfl, hkey]

/-- A feed has a group under its UID. -/
structure Feed.Lists (feed : Feed) (group : EventGroup) : Prop where
  text : feed.text group.uid = some ⟨group.title, group.content, group.link⟩
  occurrence : feed.occurrence group.uid = occurrenceAt group.occurrences
  nodup : (group.occurrences.map (·.recurrenceAnchor)).Nodup

/-- Syncing a group under its event succeeds. -/
theorem syncGroup_existing_ok {group : EventGroup} {existingEventIds : HashMap String Nat}
    (hlists : feed.Lists group) (h : HasEvent db params.sourceId group.uid eventId)
    (hexisting : existingEventIds.value group.uid = some eventId) :
    ∃ db', syncGroup params existingEventIds db group = .ok db' ∧
      Synced params feed (· = group.uid) db db' := by
  obtain ⟨posts, htext, hposts⟩ := syncPostText_ok db (h.valid.eventPost eventId h.event)
    group.title group.content group.link
  have hretexted : Retexted (retext group.title group.content group.link) eventId db
      { db with posts := posts } :=
    ⟨fun _ => ⟨rfl, rfl, rfl, rfl⟩, hposts, rfl, rfl, rfl, rfl⟩
  obtain ⟨h1, _⟩ := h.retext hretexted
  obtain ⟨db2, hrec, hreconciled⟩ := reconcileOccasions_ok h1 (.inl rfl) hlists.nodup
  rw [← hlists.occurrence] at hreconciled
  refine ⟨db2, ?_, synced_of_reconciled h hretexted hreconciled
    (fun p hp => absurd hp List.not_mem_nil) (fun _ _ _ => List.not_mem_nil)
    (DeletesPosts.nil db2) ?_ ?_⟩
  · simp only [syncGroup, hexisting, htext, bind, Except.bind, hrec]
  · intro wanted hwanted
    rw [hlists.text, Option.some.injEq] at hwanted
    subst hwanted
    exact ⟨rfl, rfl⟩
  · intro hnone
    rw [hlists.text] at hnone
    cases hnone

/-- Syncing a group whose UID no post of the source has succeeds. -/
theorem syncGroup_new_ok {group : EventGroup} {existingEventIds : HashMap String Nat}
    (hlists : feed.Lists group) (hdb : Valid db) (hnone : NoOrphans db params.sourceId)
    (hfree : ∀ p, db.keyOf p ≠ some ⟨params.sourceId, group.uid, none⟩)
    (hexisting : existingEventIds.value group.uid = none) :
    ∃ db', syncGroup params existingEventIds db group = .ok db' ∧
      Synced params feed (· = group.uid) db db' := by
  obtain ⟨db1, hcreate, hadds⟩ := createEventForGroup_ok hdb hfree
  have h1 := hasEvent_of_created hdb hnone hfree hadds
  obtain ⟨db2, hrec, hreconciled⟩ := reconcileOccasions_ok h1 (.inl rfl) hlists.nodup
  rw [← hlists.occurrence] at hreconciled
  refine ⟨db2, ?_, synced_of_created hdb hlists.text hfree hadds hreconciled⟩
  simp only [syncGroup, hexisting, hcreate, bind, Except.bind, hrec]

/-- Syncing a group whose UID is held by a post that is not an event fails. -/
theorem syncGroup_error {group : EventGroup} {existingEventIds : HashMap String Nat}
    (hdb : Valid db) {p : Nat} (htaken : db.keyOf p = some ⟨params.sourceId, group.uid, none⟩)
    (hexisting : existingEventIds.value group.uid = none) :
    syncGroup params existingEventIds db group = .error .uniqueViolation := by
  simp only [syncGroup, hexisting, createEventForGroup_error hdb htaken, bind, Except.bind]

/-- A missing occasion that is kept stays with its event. -/
theorem missingFate_eventId {o o' : Occasion} (h : missingFate params o = some o') :
    o'.eventId = o.eventId := by
  rw [missingFate] at h
  split at h
  · split at h
    · obtain rfl := Option.some.inj h
      rfl
    · split at h
      · cases h
      · obtain rfl := Option.some.inj h
        rfl
  · obtain rfl := Option.some.inj h
    rfl

/-- An occasion under an event with a UID has an anchor for that UID, or no key. -/
theorem HasEvent.occasion_key (h : HasEvent db params.sourceId uid eventId) {q : Nat}
    {o : Occasion} (ho : db.occasions.get q = some o) (hevent : o.eventId = eventId)
    {key : SyncKey} (hkey : db.keyOf q = some key) :
    ∃ anchor, key = ⟨params.sourceId, uid, some anchor⟩ := by
  obtain ⟨source, name, anchor⟩ := key
  obtain ⟨hanchor, hown⟩ := h.valid.occasionKey q o _ ho hkey
  rw [hevent, h.key] at hown
  obtain ⟨rfl, rfl, _⟩ := SyncKey.mk.inj (Option.some.inj hown)
  obtain ⟨a, rfl⟩ := Option.isSome_iff_exists.mp hanchor
  exact ⟨a, rfl⟩

/-- An event keeps an occasion exactly if one is left after it was reconciled with nothing. -/
theorem keepsOccasion_iff (h : HasEvent db params.sourceId uid eventId)
    (hrec : Reconciled params uid eventId (occurrenceAt []) db db2) :
    KeepsOccasion params db eventId ↔
      ∃ q o, db2.occasions.get q = some o ∧ o.eventId = eventId := by
  constructor
  · rintro ⟨q, o, ho, hevent, hkept⟩
    have hlt := h.valid.fresh q
      (h.valid.occasionPost q (Option.isSome_iff_exists.mpr ⟨o, ho⟩))
    cases hkey : db.keyOf q with
    | none =>
      have hfree : ∀ anchor, db.keyOf q ≠ some ⟨params.sourceId, uid, some anchor⟩ := by
        intro anchor heq
        rw [hkey] at heq
        cases heq
      exact ⟨q, o, (hrec.others q hlt hfree).2.trans ho, hevent⟩
    | some key =>
      obtain ⟨anchor, rfl⟩ := h.occasion_key ho hevent hkey
      have hsome := hkept (by rw [hkey]; rfl)
      obtain ⟨o', ho'⟩ := Option.isSome_iff_exists.mp hsome
      refine ⟨q, o', ?_, (missingFate_eventId ho').trans hevent⟩
      rw [hrec.occasion q anchor hkey, ho]
      exact ho'
  · rintro ⟨q, o', ho', hevent⟩
    have hpost := hrec.valid.occasionPost q (Option.isSome_iff_exists.mpr ⟨o', ho'⟩)
    obtain ⟨post, hpost⟩ := Option.isSome_iff_exists.mp hpost
    have hlt : q < db.nextPostId := by
      by_contra hge
      obtain ⟨_, _, hocc, _⟩ := hrec.new q post (Nat.le_of_not_lt hge) hpost
      cases hocc
    by_cases hkeyed : ∃ anchor, db.keyOf q = some ⟨params.sourceId, uid, some anchor⟩
    · obtain ⟨anchor, hkey⟩ := hkeyed
      rw [hrec.occasion q anchor hkey] at ho'
      obtain ⟨o, ho, hfate⟩ := Option.bind_eq_some_iff.mp ho'
      have hmissing : missingFate params o = some o' := hfate
      refine ⟨q, o, ho, (missingFate_eventId hmissing).symm.trans hevent, fun _ => ?_⟩
      rw [hmissing]
      rfl
    · rw [not_exists] at hkeyed
      have ho := ho'
      rw [(hrec.others q hlt hkeyed).2] at ho
      refine ⟨q, o', ho, hevent, fun hsome => ?_⟩
      obtain ⟨key, hkey⟩ := Option.isSome_iff_exists.mp hsome
      obtain ⟨anchor, rfl⟩ := h.occasion_key ho hevent hkey
      exact absurd hkey (hkeyed anchor)

/-- Pruning an event that is missing from the feed succeeds. -/
theorem pruneEvent_ok (h : HasEvent db params.sourceId uid eventId)
    (hunlisted : feed.text uid = none) :
    ∃ db', pruneEvent params db eventId = .ok db' ∧ Synced params feed (· = uid) db db' := by
  obtain ⟨db2, hrec, hreconciled⟩ := reconcileOccasions_ok h
    (show emptyGroup.uid = uid ∨ emptyGroup.occurrences = [] from .inr rfl) List.nodup_nil
  have hnothing := feed.occurrence_eq_nil hunlisted
  have hkeeps := keepsOccasion_iff h hreconciled
  have hreconciled' : Reconciled params uid eventId (feed.occurrence uid) db db2 := by
    rw [hnothing]
    exact hreconciled
  have hretexted : Retexted id eventId db db :=
    ⟨fun _ => .rfl, fun p => by rw [Option.map_id_apply, ite_self], rfl, rfl, rfl, rfl⟩
  have hcount : db2.occasions.rows.countP (fun row => row.eventId = eventId) = 0 ↔
      ∀ q o, db2.occasions.get q = some o → o.eventId ≠ eventId := by
    rw [List.countP_eq_zero]
    constructor
    · intro hnone q o ho heq
      exact hnone o (Table.get_eq_some_iff.mp ho).1 (decide_eq_true heq)
    · intro hnone o ho heq
      exact hnone _ o (Table.mem_rows_iff.mp ho) (of_decide_eq_true heq)
  have hlisted : ∀ (dropped : List Nat) wanted, feed.text uid = some wanted →
      id = retext wanted.title wanted.content wanted.link ∧ dropped = [] := by
    intro dropped wanted hwanted
    rw [hunlisted] at hwanted
    cases hwanted
  by_cases hleft : KeepsOccasion params db eventId
  · obtain ⟨q, o, ho, hevent⟩ := hkeeps.mp hleft
    refine ⟨db2, ?_, synced_of_reconciled h hretexted hreconciled'
      (fun p hp => absurd hp List.not_mem_nil) (fun _ _ _ => List.not_mem_nil)
      (DeletesPosts.nil db2) (hlisted []) fun _ => ⟨rfl, iff_of_true hleft rfl⟩⟩
    have hsome : ¬ db2.occasions.rows.countP (fun row => row.eventId = eventId) = 0 :=
      fun hzero => hcount.mp hzero q o ho hevent
    simp only [pruneEvent, hrec, bind, Except.bind, if_neg hsome]
    rfl
  · have hnone : ∀ q o, db2.occasions.get q = some o → o.eventId ≠ eventId :=
      fun q o ho hevent => hleft (hkeeps.mpr ⟨q, o, ho, hevent⟩)
    have hkept : ∀ q o, db2.occasions.get q = some o → o.eventId ∉ [eventId] :=
      fun q o ho hmem => hnone q o ho (List.mem_singleton.mp hmem)
    obtain ⟨db3, hdelete, hdeletes⟩ := deleteSyncedPosts_ok hkept
    refine ⟨db3, ?_, synced_of_reconciled h hretexted hreconciled'
      (fun p hp => List.mem_singleton.mp hp) hkept hdeletes (hlisted [eventId])
      fun _ => ⟨rfl, iff_of_false hleft (List.cons_ne_nil _ _)⟩⟩
    simp only [pruneEvent, hrec, bind, Except.bind, if_pos (hcount.mpr hnone), hdelete]

end

end Rellm.Sync
