import Rellm.Events.Edited
import Rellm.Foundation.Run

/-!
# Runs of edits

Events are created and their occasions edited, call after call. A call is to answer with an error
where it cannot go on, to store no occasion that ends before it starts, and to leave an event that
was updated with exactly the occasions of the request.
-/

namespace Rellm.Events

open Foundation Content Calendar Posts

inductive EventOperation where
  | createEvent
  | createNewOccasions
  | updateOccasions
  | updateEvent
  deriving DecidableEq, Repr

/-- A call to create an event or to change its occasions. -/
structure EventCall where
  operation : EventOperation
  config : ServerConfiguration
  user : Content.User
  request : EventRequest
  now : Instant

/-- A call is made; what it answers with besides is left out. -/
def EventCall.perform (call : EventCall) : Rpc Unit := do
  match call.operation with
  | .createEvent => let _ ← createEvent call.config call.user call.request call.now
  | .createNewOccasions => let _ ← createNewOccasions call.user call.request call.now
  | .updateOccasions => let _ ← updateOccasions call.user call.request call.now
  | .updateEvent => let _ ← updateEvent call.user call.request call.now

/-- The state that a call leaves. -/
def EventCall.step (db : ContentDb) (call : EventCall) : ContentDb := finalState (call.perform db)

/-- The entries of an edit, each with the id of an occasion, correspond to the occasions of the
event. -/
structure MatchesEdit (eventId : Nat) (entries : List OccasionRequest) (before after : ContentDb)
    (pairs : List (OccasionRequest × Nat)) : Prop where
  entries : pairs.map Prod.fst = entries
  named : ∀ pair ∈ pairs, ∀ existing,
    findExistingOccasion pair.1 eventId before = some existing → pair.2 = existing.postId
  single : ∀ earlier pair later, pairs = earlier ++ pair :: later →
    findExistingOccasion pair.1 eventId before = none →
    before.occasions.get pair.2 = none ∧ ∀ other ∈ earlier ++ later, other.2 ≠ pair.2
  times : ∀ earlier pair later, pairs = earlier ++ pair :: later →
    (∀ other ∈ later, other.2 ≠ pair.2) → ∃ occasion, after.occasions.get pair.2 = some occasion ∧
      occasion.eventId = eventId ∧ pair.1.times = some (occasion.startsAt, occasion.endsAt)
  only : ∀ occasion ∈ after.occasions.rows, occasion.eventId = eventId →
    ∃ pair ∈ pairs, pair.2 = occasion.postId
  others : ∀ id, isOn eventId before id = false → isOn eventId after id = false →
    slotOf after id = slotOf before id

/-- A call does not panic, and an update that succeeds leaves the occasions of its request. -/
structure KeepsEdit (db : ContentDb) (call : EventCall) : Prop where
  safe : Avoids .panic call.perform db
  matched : call.operation = .updateEvent → ∀ db', call.perform db = .ok () db' →
    ∀ eventId, eventPostId call.request = .ok eventId →
      ∃ pairs, MatchesEdit eventId call.request.occasions db db' pairs

/-- The event that a call changes, if its caller may. -/
def EventCall.event (call : EventCall) (db : ContentDb) : Option Nat :=
  match eventPostId call.request with
  | .ok eventId => if (editableEvent call.user eventId db).toBool then some eventId else none
  | .error _ => none

/-- The entries of a call with their ids. -/
def EventCall.assigned (call : EventCall) (db : ContentDb) (eventId : Nat) : List Assigned :=
  assign (isOn eventId db) db.posts.next call.request.occasions

/-- What a call has to meet, by what it does. -/
def EventCall.MeetsFor (db : ContentDb) (call : EventCall) : EventOperation → Prop
  | .createEvent => (checkCreateEvent call.user call.request).toBool = true →
    ∀ entry ∈ call.request.occasions, entry.inOrder = true
  | .createNewOccasions => ∀ eventId ∈ call.event db, NewInOrder (call.assigned db eventId)
  | .updateOccasions => ∀ eventId ∈ call.event db,
    WrittenFromEpoch (isOn eventId db) call.request.occasions
  | .updateEvent => ∀ eventId ∈ call.event db, NewInOrder (call.assigned db eventId) ∧
    WrittenFromEpoch (isOn eventId db) call.request.occasions ∧
    NamesNoNew (call.assigned db eventId)

def EventCall.Meets (db : ContentDb) (call : EventCall) : Prop := call.MeetsFor db call.operation

instance (db : ContentDb) (call : EventCall) :
    (operation : EventOperation) → Decidable (call.MeetsFor db operation)
  | .createEvent => inferInstanceAs (Decidable
    ((checkCreateEvent call.user call.request).toBool = true →
      ∀ entry ∈ call.request.occasions, entry.inOrder = true))
  | .createNewOccasions => inferInstanceAs (Decidable
    (∀ eventId ∈ call.event db, NewInOrder (call.assigned db eventId)))
  | .updateOccasions => inferInstanceAs (Decidable
    (∀ eventId ∈ call.event db, WrittenFromEpoch (isOn eventId db) call.request.occasions))
  | .updateEvent => inferInstanceAs (Decidable
    (∀ eventId ∈ call.event db, NewInOrder (call.assigned db eventId) ∧
      WrittenFromEpoch (isOn eventId db) call.request.occasions ∧
      NamesNoNew (call.assigned db eventId)))

instance (db : ContentDb) (call : EventCall) : Decidable (call.Meets db) :=
  inferInstanceAs (Decidable (call.MeetsFor db call.operation))

/-! ### Calls that do not panic -/

section

variable {db db' : ContentDb} {user : Content.User} {eventId : Nat} {now : Instant}

theorem getEventById_ne_nil {replies : List EventReply}
    (h : getEventById db (some user) eventId = .ok replies) : replies ≠ [] := by
  unfold getEventById at h
  split at h
  · cases h
  · cases h
    exact List.cons_ne_nil _ _

/-- An event that is read back is there, or an error says that it is not. -/
theorem readEvent_ne_panic : readEvent user eventId db ≠ .error .panic := by
  unfold readEvent
  rw [Ne, checks_eq_error]
  rintro (h | ⟨replies, hreplies, h⟩)
  · exact answered_ne_panic h
  · rw [okOr_eq_error] at h
    rw [answered_eq_ok] at hreplies
    unfold getEventByPostId at hreplies
    simp only [checks_eq_ok] at hreplies
    obtain ⟨_, _, found, _, hfound⟩ := hreplies
    exact getEventById_ne_nil hfound (List.head?_eq_none_iff.mp h.1)

theorem readBack_ne_panic {id : Option Nat} : readBack user id db ≠ .error .panic := by
  unfold readBack
  rw [Ne, checks_eq_error]
  rintro (h | ⟨replies, hreplies, h⟩)
  · exact answered_ne_panic h
  · rw [okOr_eq_error] at h
    rw [answered_eq_ok] at hreplies
    unfold getByPostId at hreplies
    simp only [checks_eq_ok, require_eq_ok, pure_eq_ok] at hreplies
    obtain ⟨_, _, _, hne, rfl⟩ := hreplies
    exact hne (List.map_eq_nil_iff.mp (List.head?_eq_none_iff.mp h.1))

theorem preparedUpdate_ne_panic {request : PostRequest} :
    preparedUpdate user request now db ≠ .error .panic := by
  unfold preparedUpdate checkUpdatePost updatedPost edited
  simp only [Ne, checks_eq_error, answered_ne_panic, pure_ne_error, false_or, and_false,
    exists_false, or_false]
  rintro ⟨existing, -, h⟩
  split at h
  · rw [checks_eq_error] at h
    rcases h with h | ⟨_, _, h⟩
    · cases (okOr_eq_error.mp h).2
    · exact pure_ne_error h
  · exact pure_ne_error h

theorem updatePost_safe {request : PostRequest} : Avoids .panic (updatePost user request now) db :=
  .bind (.attempt preparedUpdate_ne_panic) fun _ _ _ =>
    .bind (fun _ h => nomatch h) fun _ _ _ => .attempt readBack_ne_panic

theorem updateEventDetailsImpl_safe {request : EventRequest} :
    Avoids .panic (updateEventDetailsImpl user eventId request now) db := by
  refine .bind (.attempt answered_ne_panic) fun existing _ _ => ?_
  refine .bind (fun _ h => nomatch h) fun _ _ _ => ?_
  cases request.post with
  | none => exact .throw nofun
  | some post =>
    refine .bind (.attempt answered_ne_panic) fun postId _ _ => ?_
    split
    · exact updatePost_safe.bind fun _ _ _ => .pure _
    · exact .throw nofun

/-- What the statements of a call are to leave. -/
def Sound (db : ContentDb) : Prop := Posted db ∧ Ordered db

theorem SameSlots.sound (h : SameSlots db db') (hsound : Sound db) : Sound db' :=
  ⟨h.posted hsound.1, h.ordered.mpr hsound.2⟩

theorem sameSlots_updateEventCounts (userId : Nat) : SameSlots db (updateEventCounts db userId) :=
  ⟨fun _ => rfl, rfl, fun _ => rfl, fun _ => rfl⟩

/-- A program does not panic, and leaves the occasions sound. -/
structure Safe {α : Type} (x : Rpc α) (db : ContentDb) : Prop where
  avoids : Avoids .panic x db
  sound : Sound (finalState (x db))

theorem Safe.attempt {α : Type} {x : ContentDb → Except Failure α} (hsound : Sound db)
    (h : x db ≠ .error .panic) : Safe (attempt x) db :=
  ⟨.attempt h, by rwa [finalState_attempt]⟩

/-- Programs that are safe one after the other are. -/
theorem Safe.bind {α β : Type} {x : Rpc α} {f : α → Rpc β} (hx : Safe x db)
    (hf : ∀ a s, x db = .ok a s → Sound s → Safe (f a) s) : Safe (x >>= f) db := by
  have hsound := hx.sound
  cases hs : x db with
  | ok a s =>
    rw [hs] at hsound
    refine ⟨.bind_of_ok hs (hf a s hs hsound).avoids, ?_⟩
    rw [bind_of_ok hs]
    exact (hf a s hs hsound).sound
  | error e s =>
    rw [hs] at hsound
    refine ⟨.bind_of_error hs fun he => hx.avoids s (he ▸ hs), ?_⟩
    rw [bind_of_error hs]
    exact hsound

theorem Safe.pure {α : Type} (hsound : Sound db) (a : α) : Safe (pure a : Rpc α) db :=
  ⟨.pure a, hsound⟩

/-- An occasion of an event that is created is stored in order, or refused without a panic. -/
theorem insertEventOccasion_safe {config : ServerConfiguration} {post : PostRequest}
    {entry : OccasionRequest} (hsound : Sound db) (hinOrder : entry.inOrder = true) :
    Avoids .panic (insertEventOccasion config user post eventId now entry) db ∧
      ∀ u db', insertEventOccasion config user post eventId now entry db = .ok u db' →
        Sound db' := by
  obtain ⟨startsAt, endsAt, htimes, hle⟩ := inOrder_iff.mp hinOrder
  unfold insertEventOccasion
  constructor
  · refine .bind_of_ok insertPost_eq fun s' hfail => ?_
    have hnone := (insertOccasion_eq_error hfail).2 rfl
    rw [htimes] at hnone
    cases hnone
  · intro u db' h
    rw [bind_of_ok insertPost_eq] at h
    obtain ⟨_, _, htimes', hwrote, -⟩ := insertOccasion_eq_ok post_insertPost h
    rw [htimes] at htimes'
    cases htimes'
    refine ⟨hwrote.posted (posted_insertPost hsound.1), hwrote.ordered hle ?_⟩
    exact hsound.2

theorem insertEvent_safe {event : Event} : Avoids .panic (insertEvent event) db :=
  .bind (.attempt answered_ne_panic) fun _ _ _ => .bind (fun _ h => nomatch h) fun _ _ _ =>
    .attempt nofun

theorem insertEvent_sound {event : Event} {u : Unit} (hsound : Sound db)
    (h : insertEvent event db = .ok u db') : Sound db' := by
  unfold insertEvent checked at h
  obtain ⟨events, s, hattempt, h⟩ := bind_eq_ok.mp h
  obtain ⟨_, s', hmodify, h⟩ := bind_eq_ok.mp h
  cases hmodify
  cases h
  cases hinserted : answered (okOr (db.events.insert event) ⟨.internal, "internal_error"⟩) with
  | error e =>
    rw [attempt_of_error (x := fun db : ContentDb => answered (okOr (db.events.insert event) _))
      hinserted] at hattempt
    cases hattempt
  | ok inserted =>
    rw [attempt_of_ok (x := fun db : ContentDb => answered (okOr (db.events.insert event) _))
      hinserted] at hattempt
    cases hattempt
    exact hsound

variable {config : ServerConfiguration} {request : EventRequest} {post : PostRequest}

variable (config user post now) in
theorem commitCreateEvent_safe (hsound : Sound db)
    (hinOrder : ∀ entry ∈ request.occasions, entry.inOrder = true) :
    Avoids .panic (commitCreateEvent config user request post now) db ∧
      ∀ id db', commitCreateEvent config user request post now db = .ok id db' → Sound db' := by
  have hposted : Sound (finalState (insertPost (newEventPost config user post) now db)) :=
    ⟨posted_insertPost hsound.1, hsound.2⟩
  have hloop {s : ContentDb} (hs : Sound s) :=
    Avoids.forM (e := Failure.panic)
      (f := insertEventOccasion config user post db.posts.next now) hs
      fun entry hentry s hs => insertEventOccasion_safe hs (hinOrder entry hentry)
  unfold commitCreateEvent
  constructor
  · refine .bind_of_ok insertPost_eq (insertEvent_safe.bind fun _ s hinserted => ?_)
    refine (hloop (insertEvent_sound hposted hinserted)).1.bind fun _ _ _ => ?_
    exact .bind (fun _ h => nomatch h) fun _ _ _ => .pure _
  · intro id db' h
    rw [bind_of_ok insertPost_eq] at h
    obtain ⟨_, s, hinserted, h⟩ := bind_eq_ok.mp h
    obtain ⟨_, s', hcreated, h⟩ := bind_eq_ok.mp h
    cases h
    have hs' := (hloop (insertEvent_sound hposted hinserted)).2 _ _ hcreated
    exact (sameSlots_updateEventCounts user.id).sound hs'

theorem createEvent_safe (hsound : Sound db)
    (hinOrder : (checkCreateEvent user request).toBool = true →
      ∀ entry ∈ request.occasions, entry.inOrder = true) :
    Safe (createEvent config user request now) db := by
  refine .bind (.attempt hsound answered_ne_panic) fun post s hchecked _ => ?_
  obtain ⟨hpost, rfl⟩ := attempt_eq_ok.mp hchecked
  rw [answered_eq_ok] at hpost
  obtain ⟨hsafe, hkeeps⟩ := commitCreateEvent_safe user now config post hsound
    (hinOrder (by rw [hpost]; rfl))
  exact ⟨hsafe.transaction, transaction_invariant hsound hkeeps⟩

/-- New occasions of an event are stored in order, or refused without a panic. -/
theorem createNewOccasionsImpl_safe {event : Event} {entries : List OccasionRequest}
    (hsound : Sound db)
    (hinOrder : NewInOrder (assign (isOn event.postId db) db.posts.next entries)) :
    Safe (createNewOccasionsImpl user event entries now) db := by
  obtain ⟨hsafe, hposted, hordered⟩ := createAll_safe user now hsound.1 hsound.2 hinOrder
  refine .bind ⟨hsafe, hposted, hordered⟩ fun resolved s _ hs => ?_
  have hcounted : Sound (updateEventCounts s user.id) :=
    (sameSlots_updateEventCounts user.id).sound hs
  exact ⟨.bind (fun _ h => nomatch h) fun _ _ _ => .pure _, hcounted⟩

theorem updateOccasionsImpl_safe {event : Event} {entries : List OccasionRequest}
    (hsound : Sound db) (hepoch : WrittenFromEpoch (isOn event.postId db) entries) :
    Safe (updateOccasionsImpl event entries now) db := by
  obtain ⟨hsafe, hposted, hordered⟩ := updateAll_safe now hsound.1 hsound.2 hepoch
  exact ⟨hsafe, hposted, hordered⟩

/-- Deleting occasions leaves the others sound. -/
theorem sound_deleteRemovedOccasionsImpl {event : Event} (hsound : Sound db)
    (entries : List OccasionRequest) :
    Sound (deleteRemovedOccasionsImpl user event entries db) := by
  have hkept (id : Nat) (slot : Slot)
      (h : slotOf (deleteRemovedOccasionsImpl user event entries db) id = some slot) :
      slotOf db id = some slot := by
    rw [slotOf_deleteRemovedOccasionsImpl hsound.1] at h
    exact (Option.filter_eq_some_iff.mp h).1
  constructor
  · rw [posted_iff]
    intro id hid
    obtain ⟨slot, hslot⟩ := Option.isSome_iff_exists.mp hid
    have hposts : (deleteRemovedOccasionsImpl user event entries db).posts = db.posts :=
      posts_foldl_updateEventCounts _
    rw [hposts]
    exact posted_iff.mp hsound.1 id (by rw [hkept id slot hslot]; rfl)
  · rw [ordered_iff]
    exact fun id slot hslot => ordered_iff.mp hsound.2 id slot (hkept id slot hslot)

/-- Who may change an event after its details were written might before. -/
theorem SameSlots.editableEvent {event : Event} (h : SameSlots db db')
    (heditable : editableEvent user eventId db' = .ok event) :
    event.postId = eventId ∧ ∃ before, Events.editableEvent user eventId db = .ok before := by
  obtain ⟨hget, hpermitted⟩ := editableEvent_eq_ok.mp heditable
  rw [getEvent_eq_ok] at hget
  have hid : event.postId = eventId := Table.key_of_get hget
  refine ⟨hid, ?_⟩
  have hevent := h.events eventId
  rw [hget, Option.map_some] at hevent
  obtain ⟨before, hbefore, hsame⟩ := Option.map_eq_some_iff.mp hevent.symm
  refine ⟨before, editableEvent_eq_ok.mpr ⟨getEvent_eq_ok.mpr hbefore, ?_⟩⟩
  unfold validateEventEditPermission at hpermitted ⊢
  simp only [checks_eq_ok, okOr_eq_ok] at hpermitted ⊢
  obtain ⟨post, hpost, hpermitted⟩ := hpermitted
  have hauthor := h.authors event.postId
  rw [hpost, Option.map_some] at hauthor
  obtain ⟨postBefore, hpostBefore, huser⟩ := Option.map_eq_some_iff.mp hauthor.symm
  exact ⟨postBefore, hsame ▸ hpostBefore, by rwa [huser]⟩

theorem event_eq_some {call : EventCall} {event : Event}
    (hrequest : eventPostId call.request = .ok eventId)
    (heditable : editableEvent call.user eventId db = .ok event) : call.event db = some eventId := by
  rw [EventCall.event, hrequest]
  dsimp only
  rw [heditable]
  rfl

theorem readEvent_safe (hsound : Sound db) : Safe (attempt (readEvent user eventId)) db :=
  .attempt hsound readEvent_ne_panic

/-- What the entries name after the new occasions are there is what they named before. -/
theorem filter_named_of_createdAll {entry : OccasionRequest} {assigned : List Assigned}
    (hcreated : CreatedAll eventId assigned db db') (hnames : NamesNoNew assigned)
    (hentry : entry ∈ assigned.map (·.entry)) :
    entry.named.filter (isOn eventId db') = entry.named.filter (isOn eventId db) := by
  obtain ⟨a, ha, rfl⟩ := List.mem_map.mp hentry
  cases hnamed : a.entry.named with
  | none => rfl
  | some id =>
    have hslot := hcreated.old id fun b hb hnew hid => hnames b hb hnew a ha (hid ▸ hnamed)
    rw [Option.filter_some, Option.filter_some, isOn, isOn, hslot]

theorem writtenFromEpoch_of_createdAll {assigned : List Assigned}
    {entries : List OccasionRequest} (hcreated : CreatedAll eventId assigned db db')
    (hnames : NamesNoNew assigned) (hentries : assigned.map (·.entry) = entries)
    (h : WrittenFromEpoch (isOn eventId db) entries) :
    WrittenFromEpoch (isOn eventId db') entries := by
  have hsame : entries.filter (fun entry => (entry.named.filter (isOn eventId db')).isSome) =
      entries.filter fun entry => (entry.named.filter (isOn eventId db)).isSome := by
    refine List.filter_congr fun entry hentry => ?_
    rw [filter_named_of_createdAll hcreated hnames (hentries ▸ hentry)]
  unfold WrittenFromEpoch firstRefused
  rw [hsame]
  exact h

/-- What an edit has to meet, by a caller who may change the event. -/
structure MeetsEdit (db : ContentDb) (eventId : Nat) (entries : List OccasionRequest) : Prop where
  inOrder : NewInOrder (assign (isOn eventId db) db.posts.next entries)
  epoch : WrittenFromEpoch (isOn eventId db) entries
  names : NamesNoNew (assign (isOn eventId db) db.posts.next entries)

theorem MeetsEdit.of_sameSlots {entries : List OccasionRequest} (h : MeetsEdit db eventId entries)
    (hsame : SameSlots db db') : MeetsEdit db' eventId entries := by
  obtain ⟨hinOrder, hepoch, hnames⟩ := h
  rw [← hsame.isOn, ← hsame.next] at hinOrder hnames
  rw [← hsame.isOn] at hepoch
  exact ⟨hinOrder, hepoch, hnames⟩

/-- The new occasions of an edit that go in are those of its entries. -/
theorem createNewOccasionsImpl_eq_ok {event : Event} {entries resolved : List OccasionRequest}
    (h : createNewOccasionsImpl user event entries now db = .ok resolved db') :
    resolved.map (·.named) =
        (assign (isOn event.postId db) db.posts.next entries).map (fun a => some a.id) ∧
      CreatedAll event.postId (assign (isOn event.postId db) db.posts.next entries) db db' := by
  unfold createNewOccasionsImpl at h
  obtain ⟨_, s, hcreated, h⟩ := bind_eq_ok.mp h
  cases h
  obtain ⟨hresolved, hnew, hold⟩ := createdAll_of_mapM hcreated
  exact ⟨hresolved, hnew, hold⟩

theorem updateEvent_safe (hsound : Sound db)
    (hmeets : ∀ eventId, eventPostId request = .ok eventId →
      ∀ before, editableEvent user eventId db = .ok before →
        MeetsEdit db eventId request.occasions) :
    Safe (updateEvent user request now) db := by
  refine .bind (.attempt hsound answered_ne_panic) fun eventId s hread _ => ?_
  obtain ⟨hrequest, rfl⟩ := attempt_eq_ok.mp hread
  rw [answered_eq_ok] at hrequest
  have hsame := sameSlots_updateEventDetailsImpl user eventId request now db
  refine .bind ⟨updateEventDetailsImpl_safe, hsame.sound hsound⟩ fun _ db1 hdetails hdb1 => ?_
  rw [hdetails, finalState_ok] at hsame
  refine .bind (.attempt hdb1 answered_ne_panic) fun event s' hfound _ => ?_
  obtain ⟨hevent, rfl⟩ := attempt_eq_ok.mp hfound
  obtain ⟨rfl, before, hbefore⟩ := hsame.editableEvent (answered_eq_ok.mp hevent)
  obtain ⟨hinOrder, hepoch, hnames⟩ := (hmeets _ hrequest before hbefore).of_sameSlots hsame
  refine .bind (createNewOccasionsImpl_safe hdb1 hinOrder) fun resolved db2 hcreated hdb2 => ?_
  obtain ⟨-, hcreatedAll⟩ := createNewOccasionsImpl_eq_ok hcreated
  have hepoch' := writtenFromEpoch_of_createdAll hcreatedAll hnames entry_assign hepoch
  refine .bind (updateOccasionsImpl_safe hdb2 hepoch') fun _ db3 _ hdb3 => ?_
  refine .bind ⟨(fun _ h => nomatch h), sound_deleteRemovedOccasionsImpl hdb3 resolved⟩ ?_
  exact fun _ _ _ hdb4 => readEvent_safe hdb4

/-! ### The occasions of an update -/

section

variable {entries : List OccasionRequest} {db1 db2 db3 : ContentDb} {kept : List Nat}

/-- An edit that succeeded: its occasions were created, written and deleted, in this order. -/
structure Edited (eventId : Nat) (entries : List OccasionRequest) (before after : ContentDb) :
    Prop where
  posted : Posted before
  names : NamesNoNew (assign (isOn eventId before) before.posts.next entries)
  passes : ∃ created written,
    CreatedAll eventId (assign (isOn eventId before) before.posts.next entries) before created ∧
      UpdatedAll eventId (isOn eventId created) entries created written ∧
      ∀ id, slotOf after id = (slotOf written id).filter fun slot => slot.eventId ≠ eventId ||
        decide (id ∈ (assign (isOn eventId before) before.posts.next entries).map (·.id))

theorem findExistingOccasion_eq_none_iff {entry : OccasionRequest} :
    findExistingOccasion entry eventId db = none ↔
      entry.named.filter (isOn eventId db) = none := by
  refine ⟨filter_named_eq_none, fun h => ?_⟩
  cases hexisting : findExistingOccasion entry eventId db with
  | none => rfl
  | some existing =>
    rw [filter_named_eq_some hexisting] at h
    cases h

/-- Where no entry names the post of a new occasion, an entry that is for none names one that the
event has. -/
theorem on_of_not_isNew {on : Nat → Bool} {next : Nat}
    (hnames : NamesNoNew (assign on next entries)) {a : Assigned} (ha : a ∈ assign on next entries)
    (hnew : a.isNew = false) : a.entry.named = some a.id ∧ on a.id = true := by
  obtain ⟨hnamed, hon | ⟨b, hb, hbnew, hid⟩⟩ := named_of_not_isNew ha hnew
  · exact ⟨hnamed, hon⟩
  · exact absurd (hid ▸ hnamed) (hnames b hb hbnew a ha)

theorem lt_next_of_isOn {id : Nat} (hposted : Posted db) (hon : isOn eventId db id = true) :
    id < db.posts.next := by
  obtain ⟨slot, hslot, -⟩ := isOn_iff.mp hon
  exact hposted.lt_next hslot

/-- The entries of an edit with the ids of their occasions. -/
def Assigned.pair (a : Assigned) : OccasionRequest × Nat := (a.entry, a.id)

theorem split_of_map_pair {assigned : List Assigned} {earlier later : List (OccasionRequest × Nat)}
    {pair : OccasionRequest × Nat} (h : assigned.map Assigned.pair = earlier ++ pair :: later) :
    ∃ before a after, assigned = before ++ a :: after ∧ before.map Assigned.pair = earlier ∧
      a.pair = pair ∧ after.map Assigned.pair = later := by
  obtain ⟨before, rest, rfl, hbefore, hrest⟩ := List.map_eq_append_iff.mp h
  obtain ⟨a, after, rfl, ha, hafter⟩ := List.map_eq_cons_iff.mp hrest
  exact ⟨before, a, after, rfl, hbefore, ha, hafter⟩

namespace Edited

/-- An entry that names no occasion of the event has an occasion to itself. -/
theorem single (h : Edited eventId entries db db') {before after : List Assigned} {a : Assigned}
    (hsplit : assign (isOn eventId db) db.posts.next entries = before ++ a :: after)
    (hnone : a.entry.named.filter (isOn eventId db) = none) :
    db.occasions.get a.id = none ∧ ∀ b ∈ before ++ after, b.id ≠ a.id := by
  have ha : a ∈ assign (isOn eventId db) db.posts.next entries := by
    rw [hsplit]
    exact List.mem_append_right _ List.mem_cons_self
  have hnew : a.isNew = true := by
    by_contra hold
    obtain ⟨hnamed, hon⟩ := on_of_not_isNew h.names ha (Bool.eq_false_of_not_eq_true hold)
    rw [hnamed, Option.filter_some, if_pos hon] at hnone
    cases hnone
  have hnext := le_id_of_isNew ha hnew
  constructor
  · rw [← slotOf_eq_none]
    by_contra hsome
    obtain ⟨slot, hslot⟩ := Option.ne_none_iff_exists'.mp hsome
    exact absurd (h.posted.lt_next hslot) (Nat.not_lt.mpr hnext)
  · intro b hb
    have hmem : b ∈ assign (isOn eventId db) db.posts.next entries := by
      rw [hsplit]
      rcases List.mem_append.mp hb with hb | hb
      · exact List.mem_append_left _ hb
      · exact List.mem_append_right _ (List.mem_cons_of_mem _ hb)
    cases hbnew : b.isNew with
    | false =>
      have hlt := lt_next_of_isOn h.posted (on_of_not_isNew h.names hmem hbnew).2
      exact Nat.ne_of_lt (Nat.lt_of_lt_of_le hlt hnext)
    | true =>
      have hpairwise := pairwise_assign (isOn eventId db) db.posts.next entries
      rw [hsplit, List.pairwise_append, List.pairwise_cons] at hpairwise
      obtain ⟨-, ⟨hlater, -⟩, hearlier⟩ := hpairwise
      rcases List.mem_append.mp hb with hb | hb
      · exact hearlier b hb a List.mem_cons_self hbnew hnew
      · exact (hlater b hb hnew hbnew).symm

/-- The last entry with an id says when its occasion is. -/
theorem times (h : Edited eventId entries db db') {before after : List Assigned} {a : Assigned}
    (hsplit : assign (isOn eventId db) db.posts.next entries = before ++ a :: after)
    (hlast : ∀ b ∈ after, b.id ≠ a.id) : ∃ startsAt endsAt,
      a.entry.times = some (startsAt, endsAt) ∧
        slotOf db' a.id = some ⟨eventId, startsAt, endsAt⟩ := by
  obtain ⟨hposted, hnames, created, written, hcreated, hupdated, hdeleted⟩ := h
  have ha : a ∈ assign (isOn eventId db) db.posts.next entries := by
    rw [hsplit]
    exact List.mem_append_right _ List.mem_cons_self
  have hentries : (before ++ a :: after).map (·.entry) = entries := hsplit ▸ entry_assign
  have hsame {entry : OccasionRequest} (hentry : entry ∈ entries) :
      entry.named.filter (isOn eventId created) = entry.named.filter (isOn eventId db) :=
    filter_named_of_createdAll hcreated hnames (entry_assign.symm ▸ hentry)
  obtain ⟨startsAt, endsAt, htimes, hslot⟩ : ∃ startsAt endsAt,
      a.entry.times = some (startsAt, endsAt) ∧
        slotOf written a.id = some ⟨eventId, startsAt, endsAt⟩ := by
    cases hnew : a.isNew with
    | true =>
      obtain ⟨startsAt, endsAt, htimes, hslot⟩ := hcreated.new a ha hnew
      refine ⟨startsAt, endsAt, htimes, ?_⟩
      rw [hupdated.old a.id, hslot]
      intro entry hentry hnamed
      rw [← hentries, ← hsplit] at hentry
      obtain ⟨b, hb, rfl⟩ := List.mem_map.mp hentry
      exact hnames a ha hnew b hb (Option.filter_eq_some_iff.mp hnamed).1
    | false =>
      obtain ⟨hnamed, hon⟩ := on_of_not_isNew hnames ha hnew
      have hfilter : a.entry.named.filter (isOn eventId db) = some a.id := by
        rw [hnamed, Option.filter_some, if_pos hon]
      have hmem : a.entry ∈ entries := by
        rw [← hentries]
        exact List.mem_map_of_mem (List.mem_append_right _ List.mem_cons_self)
      refine hupdated.last (before.map (·.entry)) a.entry (after.map (·.entry)) a.id ?_
        ((hsame hmem).trans hfilter) ?_
      · rw [← hentries, List.map_append, List.map_cons]
      · intro other hother hothernamed
        obtain ⟨b, hb, rfl⟩ := List.mem_map.mp hother
        have hbmem : b ∈ assign (isOn eventId db) db.posts.next entries := by
          rw [hsplit]
          exact List.mem_append_right _ (List.mem_cons_of_mem _ hb)
        cases hbnew : b.isNew with
        | true =>
          have hnone := filter_named_of_isNew hbmem hbnew
          rw [hothernamed, Option.filter_some, if_pos hon] at hnone
          cases hnone
        | false =>
          have hbnamed := (on_of_not_isNew hnames hbmem hbnew).1
          rw [hothernamed] at hbnamed
          exact hlast b hb (Option.some.inj hbnamed).symm
  refine ⟨startsAt, endsAt, htimes, ?_⟩
  rw [hdeleted, hslot, Option.filter_some, if_pos]
  rw [Bool.or_eq_true, decide_eq_true_eq, decide_eq_true_eq]
  exact .inr (List.mem_map_of_mem ha)

/-- An occasion that the event neither had nor has stays. -/
theorem others (h : Edited eventId entries db db') {id : Nat}
    (hbefore : isOn eventId db id = false) (hafter : isOn eventId db' id = false) :
    slotOf db' id = slotOf db id := by
  have hnotNew : ∀ a ∈ assign (isOn eventId db) db.posts.next entries, a.isNew = true →
      a.id ≠ id := by
    rintro a ha hnew rfl
    obtain ⟨earlier, later, hsplit⟩ := List.append_of_mem ha
    obtain ⟨-, hsingle⟩ := h.single hsplit (filter_named_of_isNew ha hnew)
    obtain ⟨startsAt, endsAt, -, hslot⟩ :=
      h.times hsplit fun b hb => hsingle b (List.mem_append_right _ hb)
    rw [isOn, hslot] at hafter
    simp at hafter
  obtain ⟨hposted, hnames, created, written, hcreated, hupdated, hdeleted⟩ := h
  have hcreatedSlot := hcreated.old id hnotNew
  have hwritten : slotOf written id = slotOf created id := by
    refine hupdated.old id fun entry _ hnamed => ?_
    have hon := (Option.filter_eq_some_iff.mp hnamed).2
    rw [isOn, hcreatedSlot] at hon
    exact absurd hon (Bool.eq_false_iff.mp hbefore)
  rw [hdeleted, hwritten, hcreatedSlot]
  cases hslot : slotOf db id with
  | none => rfl
  | some slot =>
    have hother : slot.eventId ≠ eventId := by
      intro hevent
      have hon : isOn eventId db id = true := isOn_iff.mpr ⟨slot, hslot, hevent⟩
      rw [hbefore] at hon
      cases hon
    rw [Option.filter_some, if_pos]
    rw [Bool.or_eq_true, decide_eq_true_eq]
    exact .inl hother

/-- The occasions of an edit that succeeded are those of its entries. -/
theorem matchesEdit (h : Edited eventId entries db db') :
    MatchesEdit eventId entries db db'
      ((assign (isOn eventId db) db.posts.next entries).map Assigned.pair) where
  entries := by
    rw [List.map_map]
    exact entry_assign
  named := by
    intro pair hpair existing hexisting
    obtain ⟨a, ha, rfl⟩ := List.mem_map.mp hpair
    have hfilter := filter_named_eq_some hexisting
    cases hnew : a.isNew with
    | true =>
      have hnone := filter_named_of_isNew ha hnew
      rw [Assigned.pair] at hfilter
      rw [hnone] at hfilter
      cases hfilter
    | false =>
      have hnamed := (named_of_not_isNew ha hnew).1
      have hexistingNamed := (findExistingOccasion_eq_some.mp hexisting).1
      exact Option.some.inj (hnamed.symm.trans hexistingNamed)
  single := by
    intro earlier pair later hpairs hnone
    obtain ⟨before, a, after, hsplit, rfl, rfl, rfl⟩ := split_of_map_pair hpairs
    obtain ⟨hget, hothers⟩ := h.single hsplit (findExistingOccasion_eq_none_iff.mp hnone)
    refine ⟨hget, fun other hother => ?_⟩
    rw [← List.map_append] at hother
    obtain ⟨b, hb, rfl⟩ := List.mem_map.mp hother
    exact hothers b hb
  times := by
    intro earlier pair later hpairs hlast
    obtain ⟨before, a, after, hsplit, rfl, rfl, rfl⟩ := split_of_map_pair hpairs
    obtain ⟨startsAt, endsAt, htimes, hslot⟩ :=
      h.times hsplit fun b hb => hlast b.pair (List.mem_map_of_mem hb)
    obtain ⟨occasion, hget, hof⟩ := slotOf_eq_some.mp hslot
    cases hof
    exact ⟨occasion, hget, rfl, htimes⟩
  only := by
    intro occasion hmem hevent
    have hslot : slotOf db' occasion.postId = some (Slot.of occasion) :=
      slotOf_eq_some.mpr ⟨occasion, Table.mem_rows_iff.mp hmem, rfl⟩
    obtain ⟨-, -, _, _, -, -, hdeleted⟩ := h
    rw [hdeleted, Option.filter_eq_some_iff, Bool.or_eq_true, decide_eq_true_eq,
      decide_eq_true_eq] at hslot
    obtain ⟨-, hne | hkept⟩ := hslot
    · exact absurd hevent hne
    · obtain ⟨a, ha, hid⟩ := List.mem_map.mp hkept
      exact ⟨a.pair, List.mem_map_of_mem ha, hid⟩
  others := fun id hbefore hafter => h.others hbefore hafter

end Edited

theorem createdAll_of_sameSlots {assigned : List Assigned} (hsame : SameSlots db db1)
    (h : CreatedAll eventId assigned db1 db2) : CreatedAll eventId assigned db db2 :=
  ⟨h.new, fun id hid => (h.old id hid).trans (hsame.slots id)⟩

/-- An update that succeeds went through its passes. -/
theorem edited_of_updateEvent {reply : EventReply} (hsound : Sound db)
    (h : updateEvent user request now db = .ok reply db')
    (hrequest : eventPostId request = .ok eventId)
    (hmeets : ∀ before, editableEvent user eventId db = .ok before →
      MeetsEdit db eventId request.occasions) : Edited eventId request.occasions db db' := by
  unfold updateEvent at h
  obtain ⟨_, _, hread, h⟩ := bind_eq_ok.mp h
  obtain ⟨hid, rfl⟩ := attempt_eq_ok.mp hread
  rw [hrequest] at hid
  cases hid
  obtain ⟨_, db1, hdetails, h⟩ := bind_eq_ok.mp h
  have hsame := sameSlots_updateEventDetailsImpl user eventId request now db
  rw [hdetails, finalState_ok] at hsame
  obtain ⟨event, _, hfound, h⟩ := bind_eq_ok.mp h
  obtain ⟨hevent, rfl⟩ := attempt_eq_ok.mp hfound
  obtain ⟨rfl, before, hbefore⟩ := hsame.editableEvent (answered_eq_ok.mp hevent)
  have hmeets := hmeets before hbefore
  obtain ⟨hinOrder, hepoch, hnames⟩ := hmeets.of_sameSlots hsame
  obtain ⟨resolved, created, hcreated, h⟩ := bind_eq_ok.mp h
  obtain ⟨_, written, hwritten, h⟩ := bind_eq_ok.mp h
  obtain ⟨_, _, hdeleted, h⟩ := bind_eq_ok.mp h
  cases hdeleted
  obtain ⟨-, rfl⟩ := attempt_eq_ok.mp h
  obtain ⟨hresolved, hcreatedAll⟩ := createNewOccasionsImpl_eq_ok hcreated
  have hsound1 : Sound (finalState (createNewOccasionsImpl user event request.occasions now db1)) :=
    (createNewOccasionsImpl_safe (hsame.sound hsound) hinOrder).sound
  rw [hcreated, finalState_ok] at hsound1
  have hepoch' := writtenFromEpoch_of_createdAll hcreatedAll hnames entry_assign hepoch
  have hsound2 : Sound (finalState (updateOccasionsImpl event request.occasions now created)) :=
    (updateOccasionsImpl_safe hsound1 hepoch').sound
  rw [hwritten, finalState_ok] at hsound2
  have hkept : resolved.filterMap OccasionRequest.named =
      (assign (isOn event.postId db1) db1.posts.next request.occasions).map (·.id) := by
    have hids := congrArg (List.filterMap id) hresolved
    simpa [List.filterMap_map, Function.comp_def] using hids
  have hupdatedAll := updatedAll_of_forM hwritten
  rw [hsame.isOn, hsame.next] at hcreatedAll hkept
  refine ⟨hsound.1, hmeets.names, created, written, createdAll_of_sameSlots hsame hcreatedAll,
    hupdatedAll, fun id => ?_⟩
  rw [slotOf_deleteRemovedOccasionsImpl hsound2.1, hkept]

end

end

/-! ### Runs -/

section

variable {db : ContentDb} {call : EventCall} {eventId : Nat}

theorem meetsEdit_of_meets (h : call.Meets db) (hoperation : call.operation = .updateEvent)
    (hevent : call.event db = some eventId) : MeetsEdit db eventId call.request.occasions := by
  unfold EventCall.Meets at h
  rw [hoperation] at h
  obtain ⟨hinOrder, hepoch, hnames⟩ := h eventId hevent
  exact ⟨hinOrder, hepoch, hnames⟩

/-- A call that meets its condition does not panic, and leaves the occasions sound. -/
theorem perform_safe (hsound : Sound db) (h : call.Meets db) : Safe call.perform db := by
  obtain ⟨operation, config, user, request, now⟩ := call
  unfold EventCall.Meets at h
  cases operation with
  | createEvent => exact (createEvent_safe hsound h).bind fun _ _ _ hs => .pure hs _
  | updateEvent =>
    refine .bind (updateEvent_safe hsound ?_) fun _ _ _ hs => .pure hs _
    intro eventId hrequest before heditable
    exact meetsEdit_of_meets h rfl (event_eq_some hrequest heditable)
  | createNewOccasions =>
    refine .bind ?_ fun _ _ _ hs => .pure hs _
    refine .bind (.attempt hsound answered_ne_panic) fun eventId s hread _ => ?_
    obtain ⟨hrequest, rfl⟩ := attempt_eq_ok.mp hread
    refine .bind (.attempt hsound answered_ne_panic) fun event s' hfound _ => ?_
    obtain ⟨heditable, rfl⟩ := attempt_eq_ok.mp hfound
    rw [answered_eq_ok] at hrequest heditable
    have hinOrder := h eventId (event_eq_some hrequest heditable)
    obtain ⟨rfl, -⟩ := (SameSlots.refl db).editableEvent heditable
    exact .bind (createNewOccasionsImpl_safe hsound hinOrder) fun _ _ _ hs => readEvent_safe hs
  | updateOccasions =>
    refine .bind ?_ fun _ _ _ hs => .pure hs _
    refine .bind (.attempt hsound answered_ne_panic) fun eventId s hread _ => ?_
    obtain ⟨hrequest, rfl⟩ := attempt_eq_ok.mp hread
    refine .bind (.attempt hsound answered_ne_panic) fun event s' hfound _ => ?_
    obtain ⟨heditable, rfl⟩ := attempt_eq_ok.mp hfound
    rw [answered_eq_ok] at hrequest heditable
    have hepoch := h eventId (event_eq_some hrequest heditable)
    obtain ⟨rfl, -⟩ := (SameSlots.refl db).editableEvent heditable
    exact .bind (updateOccasionsImpl_safe hsound hepoch) fun _ _ _ hs => readEvent_safe hs

/-- An update that succeeds leaves the occasions of its request. -/
theorem perform_matched (hsound : Sound db) (h : call.Meets db) {db' : ContentDb}
    (hoperation : call.operation = .updateEvent) (hok : call.perform db = .ok () db')
    (hrequest : eventPostId call.request = .ok eventId) :
    ∃ pairs, MatchesEdit eventId call.request.occasions db db' pairs := by
  unfold EventCall.perform at hok
  rw [hoperation] at hok
  obtain ⟨reply, s, hreply, hok⟩ := bind_eq_ok.mp hok
  cases hok
  have hedited := edited_of_updateEvent hsound hreply hrequest fun before heditable =>
    meetsEdit_of_meets h hoperation (event_eq_some hrequest heditable)
  exact ⟨_, hedited.matchesEdit⟩

theorem keepsEdit_of_meets (hsound : Sound db) (h : call.Meets db) : KeepsEdit db call where
  safe := (perform_safe hsound h).avoids
  matched hoperation _ hok _ hrequest := perform_matched hsound h hoperation hok hrequest

end

/-- In a run of calls each of which meets its condition, none panics, every update that succeeds
leaves the occasions of its request, and no occasion ends before it starts. -/
theorem occasions_match_edits {db : ContentDb} (hposted : Posted db) (hordered : Ordered db)
    {calls : List EventCall}
    (hrun : Along EventCall.step (fun db call => call.Meets db) db calls) :
    Along EventCall.step KeepsEdit db calls ∧
      Throughout EventCall.step Ordered db calls := by
  have hstep (db : ContentDb) (call : EventCall) (hsound : Sound db) (h : call.Meets db) :
      KeepsEdit db call ∧ Sound (EventCall.step db call) :=
    ⟨keepsEdit_of_meets hsound h, (perform_safe hsound h).sound⟩
  refine ⟨Along.of_invariant hstep ⟨hposted, hordered⟩ hrun, ?_⟩
  exact Throughout.of_along (fun db call hsound h => (hstep db call hsound h).2)
    (fun _ hsound => hsound.2) ⟨hposted, hordered⟩ hrun

/-- A user who may do anything. -/
def organizer : Content.User where
  id := 1
  permissions := .array [some "ADMIN"]
  defaultFollowModeration := .unmoderated

/-- A call by that user. -/
def organize (operation : EventOperation) (request : EventRequest) : EventCall where
  operation := operation
  config := {}
  user := organizer
  request := request
  now := 0

/-- An event with an occasion that starts and ends at some seconds. -/
def oneOccasion (startsAt endsAt : Option Int64) : EventRequest where
  post := some { id := some 1, visibility := .globalPublic }
  occasions := [{ startsAt := startsAt, endsAt := endsAt }]

/-- An edit that moves the occasion of that event, and adds another. -/
def movedAndAdded : EventRequest where
  post := some { id := some 1, visibility := .globalPublic }
  occasions := [{ post := some { id := some 2 }, startsAt := some 30, endsAt := some 40 },
    { startsAt := some 50, endsAt := some 60 }]

theorem moved_and_added_match :
    Along EventCall.step KeepsEdit .empty
        [organize .createEvent (oneOccasion (some 10) (some 20)),
          organize .updateEvent movedAndAdded] ∧
      Throughout EventCall.step Ordered .empty
        [organize .createEvent (oneOccasion (some 10) (some 20)),
          organize .updateEvent movedAndAdded] :=
  occasions_match_edits (by decide) (by decide) (by decide +kernel)

/-- An occasion that ends before it starts is stored, and one without times panics. -/
theorem occasions_out_of_order :
    ¬ Throughout EventCall.step Ordered .empty
        [organize .createEvent (oneOccasion (some 20) (some 10))] ∧
      ¬ Along EventCall.step KeepsEdit .empty
        [organize .createEvent (oneOccasion (some 10) (some 20)),
          organize .createNewOccasions { post := some { id := some 1 }, occasions := [{}] }] := by
  refine ⟨fun h => ?_, fun h => ?_⟩
  · have hordered : Ordered (EventCall.step .empty
        (organize .createEvent (oneOccasion (some 20) (some 10)))) := h.2
    exact absurd hordered (by decide +kernel)
  · exact absurd h.2.1.safe (by decide +kernel)

end Rellm.Events
