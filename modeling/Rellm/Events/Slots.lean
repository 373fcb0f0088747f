import Rellm.Events.Counted

/-!
# What the statements do to occasions

Of an occasion, the edits of an event matter here as far as they say which event it is of and when
it is. A call to change an event goes through the entries of its request three times: it creates the
occasions that the event does not have, writes those it has, and deletes those that are not among
the entries. What each statement leaves is said once.
-/

namespace Rellm.Events

open Foundation Content Calendar Posts

/-- The event and the times of an occasion. -/
structure Slot where
  eventId : Nat
  startsAt : Instant
  endsAt : Instant
  deriving DecidableEq, Repr

def Slot.of (occasion : Occasion) : Slot := ⟨occasion.eventId, occasion.startsAt, occasion.endsAt⟩

/-- The event and the times of the occasion with an id. -/
def slotOf (db : ContentDb) (id : Nat) : Option Slot := (db.occasions.get id).map Slot.of

/-- Every occasion has its post. -/
def Posted (db : ContentDb) : Prop :=
  ∀ occasion ∈ db.occasions.rows, (db.posts.get occasion.postId).isSome

/-- No occasion ends before it starts. -/
def Ordered (db : ContentDb) : Prop :=
  ∀ occasion ∈ db.occasions.rows, occasion.startsAt ≤ occasion.endsAt

instance (db : ContentDb) : Decidable (Posted db) :=
  inferInstanceAs (Decidable (∀ occasion ∈ db.occasions.rows, (db.posts.get occasion.postId).isSome))

instance (db : ContentDb) : Decidable (Ordered db) :=
  inferInstanceAs (Decidable (∀ occasion ∈ db.occasions.rows, occasion.startsAt ≤ occasion.endsAt))

/-- The id that an entry of a request names. -/
def OccasionRequest.named (entry : OccasionRequest) : Option Nat := entry.post.bind (·.id)

/-- Whether the occasion with an id is one of an event. -/
def isOn (eventId : Nat) (db : ContentDb) (id : Nat) : Bool :=
  (slotOf db id).any fun slot => slot.eventId = eventId

/-- The times of an entry, both there and not before the epoch. -/
def OccasionRequest.times (entry : OccasionRequest) : Option (Instant × Instant) :=
  match sentTime entry.startsAt .panic, sentTime entry.endsAt .panic with
  | .ok startsAt, .ok endsAt => some (startsAt, endsAt)
  | _, _ => none

section

variable {db db' : ContentDb} {eventId id : Nat} {entry : OccasionRequest}

theorem slotOf_eq_some {slot : Slot} :
    slotOf db id = some slot ↔ ∃ occasion, db.occasions.get id = some occasion ∧
      Slot.of occasion = slot :=
  Option.map_eq_some_iff

theorem slotOf_eq_none : slotOf db id = none ↔ db.occasions.get id = none :=
  Option.map_eq_none_iff

theorem ordered_iff :
    Ordered db ↔ ∀ id slot, slotOf db id = some slot → slot.startsAt ≤ slot.endsAt := by
  constructor
  · intro h id slot hslot
    obtain ⟨occasion, hget, rfl⟩ := slotOf_eq_some.mp hslot
    exact h occasion (Table.get_eq_some_iff.mp hget).1
  · intro h occasion hmem
    exact h occasion.postId (Slot.of occasion)
      (slotOf_eq_some.mpr ⟨occasion, Table.mem_rows_iff.mp hmem, rfl⟩)

theorem isOn_iff : isOn eventId db id = true ↔
    ∃ slot, slotOf db id = some slot ∧ slot.eventId = eventId := by
  rw [isOn, Option.any_eq_true]
  simp only [decide_eq_true_eq]

/-- The occasion of an event that an entry is about is the one it names. -/
theorem findExistingOccasion_eq_some {existing : Occasion} :
    findExistingOccasion entry eventId db = some existing ↔
      entry.named = some existing.postId ∧ db.occasions.get existing.postId = some existing ∧
        existing.eventId = eventId := by
  unfold findExistingOccasion OccasionRequest.named
  cases entry.post with
  | none => simp
  | some post =>
    cases hid : post.id with
    | none => simp [hid]
    | some id =>
      simp only [Option.bind_eq_bind, Option.bind_some, hid, Option.filter_eq_some_iff,
        decide_eq_true_eq, Option.some.injEq]
      constructor
      · rintro ⟨hget, hevent⟩
        obtain rfl : existing.postId = id := Table.key_of_get hget
        exact ⟨rfl, hget, hevent⟩
      · rintro ⟨rfl, hget, hevent⟩
        exact ⟨hget, hevent⟩

theorem findExistingOccasion_isSome :
    (findExistingOccasion entry eventId db).isSome ↔
      ∃ id, entry.named = some id ∧ isOn eventId db id = true := by
  rw [Option.isSome_iff_exists]
  simp only [findExistingOccasion_eq_some, isOn_iff, slotOf_eq_some]
  constructor
  · rintro ⟨existing, hnamed, hget, hevent⟩
    exact ⟨existing.postId, hnamed, Slot.of existing, ⟨existing, hget, rfl⟩, hevent⟩
  · rintro ⟨id, hnamed, _, ⟨existing, hget, rfl⟩, hevent⟩
    obtain rfl : existing.postId = id := Table.key_of_get hget
    exact ⟨existing, hnamed, hget, hevent⟩

theorem times_eq_some {startsAt endsAt : Instant} :
    entry.times = some (startsAt, endsAt) ↔
      sentTime entry.startsAt .panic = .ok startsAt ∧ sentTime entry.endsAt .panic = .ok endsAt := by
  unfold OccasionRequest.times
  cases sentTime entry.startsAt .panic <;> cases sentTime entry.endsAt .panic <;> simp

/-- What the edits of an event read of the rest stays: the occasions with their slots, the posts with
their authors, and the events. -/
structure SameSlots (db db' : ContentDb) : Prop where
  slots : ∀ id, slotOf db' id = slotOf db id
  next : db'.posts.next = db.posts.next
  authors : ∀ id, (db'.posts.get id).map (·.userId) = (db.posts.get id).map (·.userId)
  events : ∀ id, (db'.events.get id).map (·.postId) = (db.events.get id).map (·.postId)

namespace SameSlots

theorem refl (db : ContentDb) : SameSlots db db := ⟨fun _ => rfl, rfl, fun _ => rfl, fun _ => rfl⟩

theorem trans {db'' : ContentDb} (h : SameSlots db db') (h' : SameSlots db' db'') :
    SameSlots db db'' where
  slots id := (h'.slots id).trans (h.slots id)
  next := h'.next.trans h.next
  authors id := (h'.authors id).trans (h.authors id)
  events id := (h'.events id).trans (h.events id)

theorem ordered (h : SameSlots db db') : Ordered db' ↔ Ordered db := by
  simp only [ordered_iff, h.slots]

theorem isOn (h : SameSlots db db') (eventId : Nat) :
    isOn eventId db' = isOn eventId db := by
  funext id
  rw [Events.isOn, Events.isOn, h.slots]

end SameSlots

theorem posted_iff :
    Posted db ↔ ∀ id, (slotOf db id).isSome → (db.posts.get id).isSome := by
  constructor
  · intro h id hslot
    obtain ⟨slot, hslot⟩ := Option.isSome_iff_exists.mp hslot
    obtain ⟨occasion, hget, -⟩ := slotOf_eq_some.mp hslot
    obtain ⟨hmem, rfl⟩ := Table.get_eq_some_iff.mp hget
    exact h occasion hmem
  · intro h occasion hmem
    refine h occasion.postId ?_
    rw [slotOf, Table.mem_rows_iff.mp hmem]
    rfl

theorem SameSlots.posted (h : SameSlots db db') (hposted : Posted db) : Posted db' := by
  rw [posted_iff] at hposted ⊢
  intro id hslot
  rw [h.slots] at hslot
  have hauthor := congrArg Option.isSome (h.authors id)
  rw [Option.isSome_map, Option.isSome_map] at hauthor
  rw [hauthor]
  exact hposted id hslot

/-- The id of an occasion was given out. -/
theorem Posted.lt_next (h : Posted db) {slot : Slot} (hslot : slotOf db id = some slot) :
    id < db.posts.next := by
  have hpost := posted_iff.mp h id (by rw [hslot]; rfl)
  obtain ⟨post, hget⟩ := Option.isSome_iff_exists.mp hpost
  obtain ⟨hmem, rfl⟩ := Table.get_eq_some_iff.mp hget
  exact db.posts.below post hmem

/-- A post that keeps its author is written. -/
theorem sameSlots_savePost {post before : Post} (hget : db.posts.get post.id = some before)
    (huser : post.userId = before.userId) : SameSlots db (savePost post db) := by
  refine ⟨?_, rfl, ?_, fun _ => rfl⟩
  · intro id
    unfold savePost slotOf
    dsimp only
    split
    · rw [Table.get_update, Option.map_map]
      congr 1
      funext occasion
      rw [Function.comp_apply]
      split <;> rfl
    · rfl
  · intro id
    unfold savePost
    dsimp only
    rw [Serial.get_modify]
    split
    · rename_i hid
      rw [hid, hget, Option.map_some, Option.map_some, Option.map_some]
      exact congrArg some huser
    · rfl

/-- A post is changed. -/
theorem sameSlots_updatePost (user : Content.User) (request : PostRequest) (now : Instant)
    (db : ContentDb) : SameSlots db (finalState (updatePost user request now db)) := by
  rcases finalState_updatePost user request now db with ⟨after, hafter, hfinal⟩ | ⟨_, _, hfinal⟩
  · obtain ⟨before, hget, hplace⟩ := preparedUpdate_samePlace hafter
    rw [hfinal]
    exact sameSlots_savePost hget hplace.userId
  · rw [hfinal]
    exact .refl db

/-- The details of an event are written, and its post. -/
theorem sameSlots_updateEventDetailsImpl (user : Content.User) (eventId : Nat)
    (request : EventRequest) (now : Instant) (db : ContentDb) :
    SameSlots db (finalState (updateEventDetailsImpl user eventId request now db)) := by
  unfold updateEventDetailsImpl
  refine attempt_bind_invariant (.refl db) ?_
  intro existing _
  rw [modify_bind]
  have hinformed : SameSlots db { db with
      events := db.events.update (fun event => event.postId = existing.postId)
        (fun event => { event with info := request.info }) fun _ => rfl } := by
    refine ⟨fun _ => rfl, rfl, fun _ => rfl, ?_⟩
    intro id
    rw [Table.get_update, Option.map_map]
    congr 1
    funext event
    rw [Function.comp_apply]
    split <;> rfl
  cases request.post with
  | none => exact hinformed
  | some post =>
    refine attempt_bind_invariant hinformed ?_
    intro postId _
    split
    · rw [finalState_bind_pure]
      exact hinformed.trans (sameSlots_updatePost user post now _)
    · exact hinformed

/-- An occasion of an event is written under an id. -/
structure Wrote (db : ContentDb) (id : Nat) (slot : Slot) (db' : ContentDb) : Prop where
  slots : ∀ other, slotOf db' other = if other = id then some slot else slotOf db other
  posts : ∀ other, (db.posts.get other).isSome → (db'.posts.get other).isSome
  post : (db'.posts.get id).isSome

namespace Wrote

variable {slot : Slot}

theorem ordered (h : Wrote db id slot db') (hslot : slot.startsAt ≤ slot.endsAt)
    (hordered : Ordered db) : Ordered db' := by
  rw [ordered_iff] at hordered ⊢
  intro other found hfound
  rw [h.slots] at hfound
  split at hfound
  · cases hfound
    exact hslot
  · exact hordered other found hfound

theorem posted (h : Wrote db id slot db') (hposted : Posted db) : Posted db' := by
  rw [posted_iff] at hposted ⊢
  intro other hother
  rw [h.slots] at hother
  split at hother
  · rename_i hid
    exact hid ▸ h.post
  · exact h.posts other (hposted other hother)

theorem isOn (h : Wrote db id slot db') :
    isOn slot.eventId db' = fun other => Events.isOn slot.eventId db other || decide (other = id) := by
  funext other
  unfold Events.isOn
  rw [h.slots]
  by_cases hid : other = id
  · simp [hid]
  · simp [hid]

end Wrote

variable {user : Content.User} {event : Event} {now : Instant} {new : NewPost}

theorem posts_insertPost :
    (db.posts.get id).isSome → ((finalState (insertPost new now db)).posts.get id).isSome := by
  intro hsome
  obtain ⟨post, hget⟩ := Option.isSome_iff_exists.mp hsome
  have hkept : (finalState (insertPost new now db)).posts.get id = some post :=
    Serial.get_insert_of_get db.posts (new.row none now) (new.row_id none now) hget
  rw [hkept]
  rfl

theorem post_insertPost :
    ((finalState (insertPost new now db)).posts.get db.posts.next).isSome := by
  have hget : (finalState (insertPost new now db)).posts.get db.posts.next =
      some (new.row none now db.posts.next) := by
    refine (Serial.get_insert db.posts (new.row none now) (new.row_id none now) _).trans ?_
    rw [if_pos rfl]
  rw [hget]
  rfl

theorem posted_insertPost (h : Posted db) : Posted (finalState (insertPost new now db)) := by
  rw [posted_iff] at h ⊢
  exact fun id hslot => posts_insertPost (h id hslot)

/-- A new occasion is written, with the times of its entry. -/
theorem insertOccasion_eq_ok {failure : Status} {u : PUnit} {postId : Nat}
    (hpost : (db.posts.get postId).isSome)
    (h : insertOccasion entry eventId postId failure db = .ok u db') :
    ∃ startsAt endsAt, entry.times = some (startsAt, endsAt) ∧
      Wrote db postId ⟨eventId, startsAt, endsAt⟩ db' ∧ db'.posts = db.posts := by
  unfold insertOccasion checked at h
  obtain ⟨occasions, s, hattempt, h⟩ := bind_eq_ok.mp h
  cases hwith : withOccasion entry eventId postId failure db with
  | error e =>
    rw [attempt_of_error hwith] at hattempt
    cases hattempt
  | ok inserted =>
    rw [attempt_of_ok hwith] at hattempt
    cases hattempt
    cases h
    unfold withOccasion at hwith
    simp only [checks_eq_ok, answered_eq_ok, okOr_eq_ok, require_eq_ok] at hwith
    obtain ⟨startsAt, hstarts, endsAt, hends, _, _, hinsert⟩ := hwith
    refine ⟨startsAt, endsAt, times_eq_some.mpr ⟨hstarts, hends⟩, ⟨?_, fun _ h => h, hpost⟩, rfl⟩
    intro other
    rw [slotOf]
    dsimp only
    rw [Table.get_of_insert hinsert]
    change Option.map _ (if other = postId then _ else _) = _
    split <;> rfl

/-- An occasion is refused. -/
theorem insertOccasion_eq_error {failure : Status} {e : Failure} {postId : Nat}
    (h : insertOccasion entry eventId postId failure db = .error e db') :
    db' = db ∧ (e = .panic → entry.times = none) := by
  unfold insertOccasion checked at h
  cases hwith : withOccasion entry eventId postId failure db with
  | ok inserted =>
    rw [bind_of_ok (attempt_of_ok hwith)] at h
    cases h
  | error e' =>
    rw [bind_of_error (attempt_of_error hwith)] at h
    cases h
    refine ⟨rfl, ?_⟩
    rintro rfl
    by_contra htimes
    obtain ⟨⟨startsAt, endsAt⟩, htimes⟩ := Option.ne_none_iff_exists'.mp htimes
    obtain ⟨hstarts, hends⟩ := times_eq_some.mp htimes
    unfold withOccasion at hwith
    rw [checks_of_ok hstarts, checks_of_ok hends] at hwith
    revert hwith
    cases require (db.events.get eventId).isSome failure <;>
      cases db.occasions.insert (newOccasion entry eventId postId startsAt endsAt db) <;>
      simp [answered, Except.mapError, okOr, bind, Except.bind]

/-- A new occasion is written under the id of its new post. -/
theorem createOccasion_eq_ok {postId : Nat}
    (h : createOccasion user event entry now db = .ok postId db') :
    postId = db.posts.next ∧ db'.posts.next = db.posts.next + 1 ∧
      (∃ media, occasionMedia entry = .ok media) ∧
      ∃ startsAt endsAt, entry.times = some (startsAt, endsAt) ∧
        Wrote db db.posts.next ⟨event.postId, startsAt, endsAt⟩ db' := by
  unfold createOccasion at h
  cases hmedia : occasionMedia entry with
  | error e =>
    have hattempt := attempt_of_error (x := fun _ : ContentDb => answered (occasionMedia entry))
      (s := db) (e := .status e) (by rw [hmedia]; rfl)
    rw [bind_of_error hattempt] at h
    cases h
  | ok media =>
    have hattempt := attempt_of_ok (x := fun _ : ContentDb => answered (occasionMedia entry))
      (s := db) (answered_eq_ok.mpr hmedia)
    rw [bind_of_ok hattempt, bind_of_ok insertPost_eq] at h
    obtain ⟨_, s, hinsert, h⟩ := bind_eq_ok.mp h
    cases h
    obtain ⟨startsAt, endsAt, htimes, hwrote, hposts⟩ :=
      insertOccasion_eq_ok post_insertPost hinsert
    refine ⟨rfl, ?_, ⟨media, rfl⟩, startsAt, endsAt, htimes, ?_⟩
    · rw [hposts]
      rfl
    · exact ⟨hwrote.slots, fun other hsome => hwrote.posts other (posts_insertPost hsome),
        hwrote.post⟩

/-- A new occasion is refused; its post may be there already. -/
theorem createOccasion_eq_error {e : Failure}
    (h : createOccasion user event entry now db = .error e db') :
    (∀ id, slotOf db' id = slotOf db id) ∧ (Posted db → Posted db') ∧
      (e = .panic → (occasionMedia entry).toBool = true ∧ entry.times = none) := by
  unfold createOccasion at h
  cases hmedia : occasionMedia entry with
  | error status =>
    have hattempt := attempt_of_error (x := fun _ : ContentDb => answered (occasionMedia entry))
      (s := db) (e := .status status) (by rw [hmedia]; rfl)
    rw [bind_of_error hattempt] at h
    cases h
    exact ⟨fun _ => rfl, id, nofun⟩
  | ok media =>
    have hattempt := attempt_of_ok (x := fun _ : ContentDb => answered (occasionMedia entry))
      (s := db) (answered_eq_ok.mpr hmedia)
    rw [bind_of_ok hattempt, bind_of_ok insertPost_eq] at h
    cases hinsert : insertOccasion entry event.postId db.posts.next
        ⟨.internal, "failed_to_create_occasion"⟩
        (finalState (insertPost (occasionPost user .globalPublic .unmoderated entry.post media) now
          db)) with
    | ok u s =>
      rw [bind_of_ok hinsert] at h
      cases h
    | error e' s =>
      rw [bind_of_error hinsert] at h
      cases h
      obtain ⟨rfl, hpanic⟩ := insertOccasion_eq_error hinsert
      exact ⟨fun _ => rfl, posted_insertPost, fun he => ⟨rfl, hpanic he⟩⟩

/-- The timestamp is one before the epoch. -/
def beforeEpoch (seconds : Option Int64) : Bool := seconds.any (· < 0)

/-- An entry with a timestamp before the epoch, where it is read. -/
def OccasionRequest.aborts (entry : OccasionRequest) : Bool :=
  beforeEpoch entry.startsAt || (entry.startsAt.isSome && beforeEpoch entry.endsAt)

/-- An entry with both times, that does not end before it starts. -/
def OccasionRequest.inOrder (entry : OccasionRequest) : Bool :=
  entry.times.any fun times => times.1 ≤ times.2

theorem inOrder_iff : entry.inOrder = true ↔
    ∃ startsAt endsAt, entry.times = some (startsAt, endsAt) ∧ startsAt ≤ endsAt := by
  simp [OccasionRequest.inOrder, Option.any_eq_true]

/-- What a missing timestamp is answered with does not change the instant of one. -/
theorem sentTime_eq_ok {seconds : Option Int64} {missing missing' : Failure} {time : Instant} :
    sentTime seconds missing = .ok time ↔ sentTime seconds missing' = .ok time := by
  cases seconds <;> simp [sentTime, okOr, bind, Except.bind]

/-- A timestamp that aborts a call is before the epoch, unless a missing one does. -/
theorem beforeEpoch_of_panic {seconds : Option Int64} {missing : Failure}
    (h : sentTime seconds missing = .error .panic) (hmissing : missing ≠ .panic) :
    beforeEpoch seconds = true := by
  cases seconds with
  | none => exact absurd (Except.error.inj h) hmissing
  | some seconds =>
    change (if seconds < 0 then _ else _) = _ at h
    split at h
    · rename_i hbefore
      exact decide_eq_true hbefore
    · cases h

/-- An occasion is written over, with the event it had. -/
theorem wrote_updateOccasion {update : UpdateOccasion} (hget : db.occasions.get
      update.existing.postId = some update.existing)
    (hpost : db.posts.get update.existing.postId = some update.post) :
    Wrote db update.existing.postId ⟨update.existing.eventId, update.startsAt, update.endsAt⟩
      (update.write entry now db) := by
  let moved : ContentDb := { db with
    occasions := db.occasions.update (fun occasion => occasion.postId = update.existing.postId)
      (updatedOccasion entry update.startsAt update.endsAt (authorOf db update.existing.postId)
        now)
      (updatedOccasion_postId entry update.startsAt update.endsAt _ now) }
  have hslot : Slot.of (updatedOccasion entry update.startsAt update.endsAt
      (authorOf db update.existing.postId) now update.existing) =
        ⟨update.existing.eventId, update.startsAt, update.endsAt⟩ := by
    unfold updatedOccasion Slot.of
    dsimp only
    split
    · split <;> rfl
    · rename_i hsame
      simp only [not_or, not_not] at hsame
      obtain ⟨hstarts, hends, -, -⟩ := hsame
      rw [hstarts, hends]
      split <;> rfl
  have hmoved (other : Nat) : slotOf moved other = if other = update.existing.postId then
      some ⟨update.existing.eventId, update.startsAt, update.endsAt⟩ else slotOf db other := by
    rw [slotOf]
    dsimp only [moved]
    rw [Table.get_update_key]
    split
    · rename_i hother
      rw [hother, hget, Option.map_some, Option.map_some, hslot]
    · rfl
  have hid : update.post.id = update.existing.postId := Table.key_of_get hpost
  have hfound : moved.posts.get update.post.id = some update.post := hid.symm ▸ hpost
  have hsaved : SameSlots moved (update.write entry now db) := sameSlots_savePost hfound rfl
  have hposts (other : Nat) (hsome : (db.posts.get other).isSome) :
      ((update.write entry now db).posts.get other).isSome := by
    have hauthor := congrArg Option.isSome (hsaved.authors other)
    rw [Option.isSome_map, Option.isSome_map] at hauthor
    rw [hauthor]
    exact hsome
  exact ⟨fun other => (hsaved.slots other).trans (hmoved other), hposts,
    hposts _ (by rw [hpost]; rfl)⟩

/-- What the check of an occasion that is written says of it. -/
theorem checkUpdateOccasion_eq_ok {existing : Occasion} {update : UpdateOccasion} :
    checkUpdateOccasion entry existing db = .ok update ↔
      update.existing = existing ∧ db.posts.get existing.postId = some update.post ∧
        entry.times = some (update.startsAt, update.endsAt) ∧ update.startsAt ≤ update.endsAt := by
  unfold checkUpdateOccasion
  simp only [checks_eq_ok, answered_eq_ok, okOr_eq_ok, require_eq_ok, pure_eq_ok, times_eq_some]
  constructor
  · rintro ⟨post, hpost, startsAt, hstarts, endsAt, hends, _, hle, rfl⟩
    exact ⟨rfl, hpost, ⟨sentTime_eq_ok.mp hstarts, sentTime_eq_ok.mp hends⟩, hle⟩
  · obtain ⟨_, post, startsAt, endsAt⟩ := update
    rintro ⟨rfl, hpost, ⟨hstarts, hends⟩, hle⟩
    exact ⟨post, hpost, startsAt, sentTime_eq_ok.mp hstarts, endsAt, sentTime_eq_ok.mp hends, (),
      hle, rfl⟩

/-- The check of an occasion aborts the call only on a timestamp before the epoch. -/
theorem aborts_of_checkUpdateOccasion {existing : Occasion}
    (h : checkUpdateOccasion entry existing db = .error .panic) : entry.aborts = true := by
  unfold checkUpdateOccasion at h
  simp only [checks_eq_error, answered_ne_panic, pure_ne_error, false_or, and_false,
    exists_const, or_false] at h
  obtain ⟨_, _, hstarts | ⟨_, hstarts, hends⟩⟩ := h
  · rw [OccasionRequest.aborts, beforeEpoch_of_panic hstarts (fun h => by cases h)]
    rfl
  · have hsome : entry.startsAt.isSome = true := by
      cases hsent : entry.startsAt with
      | none =>
        rw [hsent] at hstarts
        cases hstarts
      | some seconds => rfl
    rw [OccasionRequest.aborts, hsome, beforeEpoch_of_panic hends (fun h => by cases h), Bool.true_and,
      Bool.or_true]

/-- The id of the occasion of an event that an entry is about. -/
theorem filter_named_eq_some {existing : Occasion}
    (h : findExistingOccasion entry eventId db = some existing) :
    entry.named.filter (isOn eventId db) = some existing.postId := by
  obtain ⟨hnamed, hget, hevent⟩ := findExistingOccasion_eq_some.mp h
  rw [Option.filter_eq_some_iff]
  exact ⟨hnamed, isOn_iff.mpr ⟨Slot.of existing, slotOf_eq_some.mpr ⟨existing, hget, rfl⟩, hevent⟩⟩

theorem filter_named_eq_none (h : findExistingOccasion entry eventId db = none) :
    entry.named.filter (isOn eventId db) = none := by
  rw [Option.filter_eq_none_iff]
  intro id hnamed hon
  have hfound := findExistingOccasion_isSome.mpr ⟨id, hnamed, hon⟩
  rw [h] at hfound
  cases hfound

/-- The occasion that an entry names is written over, if the event has it. -/
theorem updateOccasion_eq_ok {u : PUnit}
    (h : updateOccasion event now entry db = .ok u db') :
    match entry.named.filter (isOn event.postId db) with
    | none => db' = db
    | some id => ∃ startsAt endsAt, entry.times = some (startsAt, endsAt) ∧ startsAt ≤ endsAt ∧
        Wrote db id ⟨event.postId, startsAt, endsAt⟩ db' := by
  unfold updateOccasion at h
  rw [get_bind] at h
  cases hexisting : findExistingOccasion entry event.postId db with
  | none =>
    rw [hexisting] at h
    cases h
    rw [filter_named_eq_none hexisting]
  | some existing =>
    rw [hexisting] at h
    obtain ⟨-, hget, hevent⟩ := findExistingOccasion_eq_some.mp hexisting
    rw [filter_named_eq_some hexisting]
    dsimp only at h
    cases hcheck : checkUpdateOccasion entry existing db with
    | error e =>
      rw [bind_of_error (attempt_of_error hcheck)] at h
      cases h
    | ok update =>
      rw [bind_of_ok (attempt_of_ok hcheck)] at h
      cases h
      obtain ⟨rfl, hpost, htimes, hle⟩ := checkUpdateOccasion_eq_ok.mp hcheck
      exact ⟨_, _, htimes, hle, hevent ▸ wrote_updateOccasion hget hpost⟩

/-- An occasion that is not written stays. -/
theorem updateOccasion_eq_error {e : Failure}
    (h : updateOccasion event now entry db = .error e db') :
    db' = db ∧ (entry.named.filter (isOn event.postId db)).isSome = true ∧
      (Posted db → entry.inOrder = false) ∧ (e = .panic → entry.aborts = true) := by
  unfold updateOccasion at h
  rw [get_bind] at h
  cases hexisting : findExistingOccasion entry event.postId db with
  | none =>
    rw [hexisting] at h
    cases h
  | some existing =>
    rw [hexisting] at h
    dsimp only at h
    cases hcheck : checkUpdateOccasion entry existing db with
    | ok update =>
      rw [bind_of_ok (attempt_of_ok hcheck)] at h
      cases h
    | error e' =>
      rw [bind_of_error (attempt_of_error hcheck)] at h
      cases h
      refine ⟨rfl, by rw [filter_named_eq_some hexisting]; rfl, ?_, ?_⟩
      · intro hposted
        by_contra hinOrder
        obtain ⟨startsAt, endsAt, htimes, hle⟩ :=
          inOrder_iff.mp (Bool.eq_true_of_not_eq_false hinOrder)
        obtain ⟨post, hpost⟩ := Option.isSome_iff_exists.mp
          (hposted existing (findExistingOccasion_mem hexisting))
        have hok : checkUpdateOccasion entry existing db = .ok ⟨existing, post, startsAt, endsAt⟩ :=
          checkUpdateOccasion_eq_ok.mpr ⟨rfl, hpost, htimes, hle⟩
        rw [hok] at hcheck
        cases hcheck
      · rintro rfl
        exact aborts_of_checkUpdateOccasion hcheck

theorem slotOf_foldl_updateEventCounts (userIds : List Nat) :
    slotOf (userIds.foldl updateEventCounts db) id = slotOf db id := by
  induction userIds generalizing db with
  | nil => rfl
  | cons userId userIds ih => exact ih

theorem posts_foldl_updateEventCounts (userIds : List Nat) :
    (userIds.foldl updateEventCounts db).posts = db.posts := by
  induction userIds generalizing db with
  | nil => rfl
  | cons userId userIds ih => exact ih

/-- The occasions of an event that are not among the entries are deleted. -/
theorem slotOf_deleteRemovedOccasionsImpl (hposted : Posted db) (entries : List OccasionRequest) :
    slotOf (deleteRemovedOccasionsImpl user event entries db) id =
      (slotOf db id).filter fun slot =>
        slot.eventId ≠ event.postId || decide (id ∈ entries.filterMap OccasionRequest.named) := by
  have hremoved : id ∈ (removedOccasions event entries db).map (·.1) ↔
      isOn event.postId db id = true ∧ id ∉ entries.filterMap OccasionRequest.named := by
    unfold removedOccasions
    simp only [List.mem_map, List.mem_filterMap, List.mem_filter, Bool.and_eq_true,
      decide_eq_true_eq, Option.map_eq_some_iff]
    constructor
    · rintro ⟨_, ⟨occasion, ⟨hmem, hevent, hnot⟩, post, hpost, rfl⟩, rfl⟩
      have hid : post.id = occasion.postId := Table.key_of_get hpost
      rw [hid]
      refine ⟨isOn_iff.mpr ⟨Slot.of occasion, ?_, hevent⟩, ?_⟩
      · exact slotOf_eq_some.mpr ⟨occasion, Table.mem_rows_iff.mp hmem, rfl⟩
      · simpa [OccasionRequest.named] using hnot
    · rintro ⟨hon, hnot⟩
      obtain ⟨_, hslot, hevent⟩ := isOn_iff.mp hon
      obtain ⟨occasion, hget, rfl⟩ := slotOf_eq_some.mp hslot
      obtain ⟨hmem, rfl⟩ := Table.get_eq_some_iff.mp hget
      obtain ⟨post, hpost⟩ := Option.isSome_iff_exists.mp (hposted occasion hmem)
      have hid : post.id = occasion.postId := Table.key_of_get hpost
      refine ⟨_, ⟨occasion, ⟨hmem, hevent, ?_⟩, post, hpost, rfl⟩, hid⟩
      simpa [OccasionRequest.named] using hnot
  unfold deleteRemovedOccasionsImpl
  dsimp only
  rw [slotOf_foldl_updateEventCounts, slotOf]
  dsimp only
  rw [Table.get_delete]
  cases hget : db.occasions.get id with
  | none => rw [slotOf, hget, Option.filter_none, Option.map_none, Option.filter_none]
  | some occasion =>
    obtain rfl : occasion.postId = id := Table.key_of_get hget
    have hslot : slotOf db occasion.postId = some (Slot.of occasion) :=
      slotOf_eq_some.mpr ⟨occasion, hget, rfl⟩
    have hon : isOn event.postId db occasion.postId = decide (occasion.eventId = event.postId) := by
      rw [isOn, hslot]
      rfl
    have hgone : decide (occasion.postId ∈ (removedOccasions event entries db).map (·.1)) =
        (decide (occasion.eventId = event.postId) &&
          decide (occasion.postId ∉ entries.filterMap OccasionRequest.named)) := by
      rw [hon, decide_eq_true_eq] at hremoved
      rw [decide_eq_decide.mpr hremoved, Bool.decide_and]
    have hof : (Slot.of occasion).eventId = occasion.eventId := rfl
    rw [hslot, Option.filter_some, Option.filter_some, hgone, hof]
    by_cases hevent : occasion.eventId = event.postId <;>
      by_cases hkept : occasion.postId ∈ entries.filterMap OccasionRequest.named <;>
      simp [hevent, hkept]

end

end Rellm.Events
