import Rellm.Events.Write
import Rellm.Posts.Counted

/-!
# Events, occasions and the counters

Events and occasions are counted for the authors of their posts. New occasions are the
caller's, whose counters are refreshed once all are created; a call that fails after it has
created some leaves them uncounted. The counters refreshed after an event is deleted are
those of its owner.
-/

namespace Rellm.Events

open Foundation Content Calendar Posts

/-- The counters of the events and occasions of some users. -/
def eventsOf (userIds : List Nat) : Counter → Nat → Prop :=
  fun counter id => counter ∈ [Counter.event, .occasion] ∧ id ∈ userIds

/-- Once they are refreshed, none is stale. -/
theorem counted_refreshed {db : ContentDb} {userIds : List Nat} (h : Counted (eventsOf userIds) db) :
    Counted noCounter (userIds.foldl updateEventCounts db) :=
  (h.foldl_updateEventCounts userIds).mono fun _ _ hstale => hstale.2 hstale.1

section

variable {user : Content.User} {new : NewPost} {now : Instant} {db : ContentDb}
variable {stale : Counter → Nat → Prop}

/-- A new post of an event or of an occasion is not counted yet. -/
theorem counted_insertPost (new : NewPost) (now : Instant) (h : Counted stale db)
    (hcontext : isEventContext new.context = true) :
    Counted stale (finalState (insertPost new now db)) := by
  refine ⟨referenced_insert h.referenced, h.users.kept rfl ?_, h.members⟩
  intro counter id
  exact counted_insert h.referenced fun _ _ => hcontext

theorem insertPost_eq :
    insertPost new now db = .ok db.posts.next (finalState (insertPost new now db)) := rfl

/-- The author of a post that was just written. -/
theorem authorOf_insertPost :
    authorOf (finalState (insertPost new now db)) db.posts.next = new.userId := by
  have hget : (finalState (insertPost new now db)).posts.get db.posts.next =
      some (new.row none now db.posts.next) := by
    refine (Serial.get_insert db.posts (new.row none now) (new.row_id none now) _).trans ?_
    rw [if_pos rfl]
  rw [authorOf, hget]
  rfl

theorem exists_post_of_authorOf {postId author : Nat} (h : authorOf db postId = some author) :
    ∃ post, db.posts.get postId = some post ∧ post.userId = some author := by
  unfold authorOf at h
  exact Option.bind_eq_some_iff.mp h

variable (h : Counted (eventsOf [user.id]) db)

include h

/-- A new event is counted for the author of its post. -/
theorem counted_insertEvent (event : Event) (hauthor : authorOf db event.postId = some user.id) :
    Counted (eventsOf [user.id]) (finalState (insertEvent event db)) := by
  refine checked_invariant h ?_
  intro events hok
  rw [answered_eq_ok, okOr_eq_ok] at hok
  obtain ⟨post, hget, huser⟩ := exists_post_of_authorOf hauthor
  constructor
  · refine ⟨?_, ?_, h.referenced.memberships⟩
    · intro other hmem
      dsimp only at hmem ⊢
      rw [Table.rows_of_insert hok, List.mem_append, List.mem_singleton] at hmem
      rcases hmem with hmem | rfl
      · exact h.referenced.events other hmem
      · rw [hget]
        rfl
    · intro occasion hmem
      obtain ⟨hevent, hpost⟩ := h.referenced.occasions occasion hmem
      refine ⟨?_, hpost⟩
      dsimp only
      rw [Table.get_of_insert hok]
      split
      · rfl
      · exact hevent
  · apply h.users.changed
    · rfl
    · intro counter id hstale
      cases counter with
      | event =>
        apply Table.countP_of_insert hok
        rw [hget, Option.any_some, huser, decide_eq_false_iff_not, Option.some.injEq]
        rintro rfl
        exact hstale ⟨by simp, by simp⟩
      | _ => rfl
  · exact h.members

/-- A new occasion is counted for the author of its post. -/
theorem counted_insertOccasion {request : OccasionRequest} {eventId postId : Nat}
    {failure : Status} (hauthor : authorOf db postId = some user.id) :
    Counted (eventsOf [user.id])
      (finalState (insertOccasion request eventId postId failure db)) := by
  refine checked_invariant h ?_
  intro occasions hok
  unfold withOccasion at hok
  simp only [checks_eq_ok, answered_eq_ok, okOr_eq_ok, require_eq_ok] at hok
  obtain ⟨startsAt, _, endsAt, _, _, hevent, hok⟩ := hok
  obtain ⟨post, hget, huser⟩ := exists_post_of_authorOf hauthor
  constructor
  · refine ⟨h.referenced.events, ?_, h.referenced.memberships⟩
    intro occasion hmem
    dsimp only at hmem ⊢
    rw [Table.rows_of_insert hok, List.mem_append, List.mem_singleton] at hmem
    rcases hmem with hmem | rfl
    · exact h.referenced.occasions occasion hmem
    · exact ⟨hevent, post, hget, huser.trans hauthor.symm⟩
  · apply h.users.changed
    · rfl
    · intro counter id hstale
      cases counter with
      | occasion =>
        apply Table.countP_of_insert hok
        rw [decide_eq_false_iff_not]
        intro hid
        have huserId : some user.id = some id := hauthor.symm.trans hid
        cases huserId
        exact hstale ⟨by simp, by simp⟩
      | _ => rfl
  · exact h.members

end

section

variable {config : ServerConfiguration} {user : Content.User} {now : Instant} {db : ContentDb}

/-- A new post with its occasion leaves only counters of the caller stale. -/
theorem counted_insertBoth (h : Counted (eventsOf [user.id]) db) {new : NewPost}
    (hcontext : isEventContext new.context = true) (huser : new.userId = some user.id)
    (request : OccasionRequest) (eventId : Nat) (failure : Status) :
    Counted (eventsOf [user.id]) (finalState (insertOccasion request eventId db.posts.next failure
      (finalState (insertPost new now db)))) := by
  apply counted_insertOccasion (counted_insertPost new now h hcontext)
  rw [authorOf_insertPost, huser]

theorem counted_insertEventOccasion (h : Counted (eventsOf [user.id]) db) (post : PostRequest)
    (eventId : Nat) (occasion : OccasionRequest) :
    Counted (eventsOf [user.id])
      (finalState (insertEventOccasion config user post eventId now occasion db)) := by
  unfold insertEventOccasion
  rw [bind_of_ok insertPost_eq]
  exact counted_insertBoth h rfl rfl occasion eventId _

theorem counted_createOccasion (h : Counted (eventsOf [user.id]) db) (event : Event)
    (occasion : OccasionRequest) :
    Counted (eventsOf [user.id]) (finalState (createOccasion user event occasion now db)) := by
  unfold createOccasion
  refine attempt_bind_invariant h fun media _ => ?_
  rw [bind_of_ok insertPost_eq, finalState_bind_pure]
  exact counted_insertBoth h rfl rfl occasion event.postId _

theorem counted_resolveOccasion (now : Instant) (h : Counted (eventsOf [user.id]) db) (event : Event)
    (occasion : OccasionRequest) :
    Counted (eventsOf [user.id]) (finalState (resolveOccasion user event now occasion db)) := by
  unfold resolveOccasion
  rw [get_bind]
  split
  · exact h
  · rw [finalState_bind_pure]
    exact counted_createOccasion h event occasion

/-- A state in which only counters of the caller are stale, after each statement of a loop. -/
theorem counted_forM {items : List OccasionRequest} {f : OccasionRequest → Rpc PUnit}
    {stale : Counter → Nat → Prop}
    (hf : ∀ occasion ∈ items, ∀ db, Counted stale db → Counted stale (finalState (f occasion db)))
    (h : Counted stale db) : Counted stale (finalState (items.forM f db)) :=
  Within.forM (R := fun db db' => Counted stale db → Counted stale db') (fun _ h => h)
    (fun _ _ _ h h' hcounted => h' (h hcounted)) (fun occasion hmem db => hf occasion hmem db) db h

theorem counted_createEvent {request : EventRequest} (h : Counted noCounter db) :
    Counted noCounter (finalState (createEvent config user request now db)) := by
  unfold createEvent
  refine attempt_bind_invariant h fun post _ => transaction_invariant h ?_
  intro eventId db' hok
  unfold commitCreateEvent at hok
  rw [bind_of_ok insertPost_eq, bind_eq_ok] at hok
  obtain ⟨_, withEvent, hevent, hok⟩ := hok
  rw [bind_eq_ok] at hok
  obtain ⟨_, withOccasions, hoccasions, hok⟩ := hok
  rw [modify_bind] at hok
  cases hok
  have hstart : Counted (eventsOf [user.id]) db := ⟨h.referenced, h.users.of_noCounter, h.members⟩
  have hposted := counted_insertPost (newEventPost config user post) now hstart rfl
  have hwithEvent := counted_insertEvent hposted ⟨db.posts.next, request.info⟩
    authorOf_insertPost
  rw [hevent, finalState_ok] at hwithEvent
  have hwithOccasions : Counted (eventsOf [user.id]) (finalState (request.occasions.forM
      (insertEventOccasion config user post db.posts.next now) withEvent)) :=
    counted_forM (fun occasion _ _ h => counted_insertEventOccasion h post db.posts.next occasion)
      hwithEvent
  rw [hoccasions, finalState_ok] at hwithOccasions
  exact counted_refreshed hwithOccasions

end

/-- A request for a new occasion that can be met: its media decode, and it has both times, neither
before the epoch. -/
def completes (occasion : OccasionRequest) : Bool :=
  (occasionMedia occasion).toBool && (sentTime occasion.startsAt .panic).toBool &&
    (sentTime occasion.endsAt .panic).toBool

/-- An occasion that the event has, or that can be created. -/
def resolvable (eventId : Nat) (db : ContentDb) (occasion : OccasionRequest) : Bool :=
  (findExistingOccasion occasion eventId db).isSome || completes occasion

/-- All new occasions can be created, or none comes before the first that cannot. -/
def CreatesAllOrNone (eventId : Nat) (occasions : List OccasionRequest) (db : ContentDb) : Prop :=
  (∀ occasion ∈ occasions, resolvable eventId db occasion = true) ∨
    ∀ occasion ∈ occasions.takeWhile (resolvable eventId db),
      (findExistingOccasion occasion eventId db).isSome

section

variable {user : Content.User} {event : Event} {now : Instant} {db : ContentDb}

theorem completes_iff {occasion : OccasionRequest} :
    completes occasion = true ↔ ∃ media startsAt endsAt, occasionMedia occasion = .ok media ∧
      sentTime occasion.startsAt .panic = .ok startsAt ∧
        sentTime occasion.endsAt .panic = .ok endsAt := by
  unfold completes
  cases occasionMedia occasion <;> cases sentTime occasion.startsAt .panic <;>
    cases sentTime occasion.endsAt .panic <;> simp [Except.toBool]

/-- A timestamp that is missing, or before the epoch, aborts the call where it is not expected to
be missing. -/
theorem sentTime_panic {seconds : Option Int64} {e : Failure}
    (h : sentTime seconds .panic = .error e) : e = .panic := by
  unfold sentTime at h
  cases seconds with
  | none => exact (Except.error.inj h).symm
  | some seconds =>
    change (if seconds < 0 then _ else _) = _ at h
    split at h
    · exact (Except.error.inj h).symm
    · cases h

/-- A new occasion that can be created is, and what was there is still found. -/
theorem createOccasion_of_completes (user : Content.User) (now : Instant) (h : Referenced db)
    (hevent : (db.events.get event.postId).isSome) {occasion : OccasionRequest}
    (hcompletes : completes occasion = true) :
    ∃ postId db', createOccasion user event occasion now db = .ok postId db' ∧
      (db'.events.get event.postId).isSome ∧
      ∀ id found, db.occasions.get id = some found → db'.occasions.get id = some found := by
  obtain ⟨media, startsAt, endsAt, hmedia, hstarts, hends⟩ := completes_iff.mp hcompletes
  -- no occasion has the id of the new post, since every occasion has its post
  have hfresh : db.occasions.get db.posts.next = none := by
    rw [Table.get_eq_none_iff]
    intro other hmem hid
    obtain ⟨_, post, hpost, _⟩ := h.occasions other hmem
    rw [hid, Serial.get_next] at hpost
    cases hpost
  let posted := finalState (insertPost
    (occasionPost user .globalPublic .unmoderated occasion.post media) now db)
  let row := newOccasion occasion event.postId db.posts.next startsAt endsAt posted
  obtain ⟨occasions, hinsert, hget⟩ := Table.insert_of_get_none (t := db.occasions) row hfresh
  have hwith : withOccasion occasion event.postId db.posts.next
      ⟨.internal, "failed_to_create_occasion"⟩ posted = .ok occasions := by
    unfold withOccasion
    simp only [checks_eq_ok, answered_eq_ok, okOr_eq_ok, require_eq_ok]
    exact ⟨startsAt, hstarts, endsAt, hends, (), hevent, hinsert⟩
  refine ⟨db.posts.next, { posted with occasions := occasions }, ?_, hevent, ?_⟩
  · unfold createOccasion
    have hattempt := attempt_of_ok (x := fun _ : ContentDb => answered (occasionMedia occasion))
      (s := db) (answered_eq_ok.mpr hmedia)
    rw [bind_of_ok hattempt, bind_of_ok insertPost_eq]
    exact bind_of_ok (checked_of_ok hwith rfl)
  · intro id found hfound
    dsimp only
    rw [hget, if_neg, hfound]
    rintro rfl
    rw [show row.postId = db.posts.next from rfl, hfresh] at hfound
    cases hfound

/-- A new occasion that cannot be created leaves at most its post. -/
theorem createOccasion_of_incomplete (user : Content.User) (event : Event) (now : Instant)
    (h : Counted noCounter db) {occasion : OccasionRequest}
    (hcompletes : completes occasion = false) :
    ∃ e db', createOccasion user event occasion now db = .error e db' ∧ Counted noCounter db' := by
  cases hmedia : occasionMedia occasion with
  | error e =>
    have hattempt := attempt_of_error (x := fun _ : ContentDb => answered (occasionMedia occasion))
      (s := db) (e := .status e) (by rw [hmedia]; rfl)
    unfold createOccasion
    exact ⟨_, db, bind_of_error hattempt, h⟩
  | ok media =>
    have hattempt := attempt_of_ok (x := fun _ : ContentDb => answered (occasionMedia occasion))
      (s := db) (answered_eq_ok.mpr hmedia)
    have hposted := counted_insertPost
      (occasionPost user .globalPublic .unmoderated occasion.post media) now h rfl
    have hpanics (s : ContentDb) : withOccasion occasion event.postId db.posts.next
        ⟨.internal, "failed_to_create_occasion"⟩ s = .error .panic := by
      unfold withOccasion
      cases hstarts : sentTime occasion.startsAt .panic with
      | error e =>
        rw [sentTime_panic hstarts]
        rfl
      | ok startsAt =>
        cases hends : sentTime occasion.endsAt .panic with
        | error e =>
          rw [sentTime_panic hends]
          rfl
        | ok endsAt =>
          rw [completes_iff.mpr ⟨media, startsAt, endsAt, hmedia, hstarts, hends⟩] at hcompletes
          cases hcompletes
    unfold createOccasion
    rw [bind_of_ok hattempt, bind_of_ok insertPost_eq]
    refine ⟨.panic, _, bind_of_error ?_, hposted⟩
    exact bind_of_error (attempt_of_error (hpanics _))

/-- An occasion of the event is found where the occasions still have what they had. -/
theorem findExistingOccasion_of_kept {db' : ContentDb} {occasion : OccasionRequest} {eventId : Nat}
    (hkept : ∀ id found, db.occasions.get id = some found → db'.occasions.get id = some found)
    (h : (findExistingOccasion occasion eventId db).isSome) :
    (findExistingOccasion occasion eventId db').isSome := by
  obtain ⟨found, hfound⟩ := Option.isSome_iff_exists.mp h
  unfold findExistingOccasion at hfound ⊢
  obtain ⟨post, hpost, hfound⟩ := Option.bind_eq_some_iff.mp hfound
  obtain ⟨postId, hpostId, hfound⟩ := Option.bind_eq_some_iff.mp hfound
  obtain ⟨hget, hevent⟩ := Option.filter_eq_some_iff.mp hfound
  rw [Option.isSome_iff_exists]
  refine ⟨found, ?_⟩
  rw [hpost, Option.bind_eq_bind, Option.bind_some, hpostId, Option.bind_eq_bind,
    Option.bind_some, hkept postId found hget]
  exact Option.filter_eq_some_iff.mpr ⟨rfl, hevent⟩

/-- An occasion that can be resolved is, and the others can be resolved as before. -/
theorem resolveOccasion_of_resolvable (now : Instant) (h : Counted (eventsOf [user.id]) db)
    (hevent : (db.events.get event.postId).isSome) {occasion : OccasionRequest}
    (hresolvable : resolvable event.postId db occasion = true) :
    ∃ resolved db', resolveOccasion user event now occasion db = .ok resolved db' ∧
      Counted (eventsOf [user.id]) db' ∧ (db'.events.get event.postId).isSome ∧
      ∀ other, resolvable event.postId db other = true →
        resolvable event.postId db' other = true := by
  unfold resolvable at hresolvable ⊢
  simp only [Bool.or_eq_true] at hresolvable ⊢
  have hcounted := counted_resolveOccasion now h event occasion
  unfold resolveOccasion at hcounted ⊢
  rw [get_bind] at hcounted ⊢
  by_cases hexisting : (findExistingOccasion occasion event.postId db).isSome
  · rw [if_pos hexisting]
    exact ⟨occasion, db, rfl, h, hevent, fun _ hother => hother⟩
  · rw [if_neg hexisting] at hcounted ⊢
    obtain ⟨postId, db', hok, hevent', hkept⟩ := createOccasion_of_completes user now
      h.referenced hevent (hresolvable.resolve_left hexisting)
    rw [bind_of_ok hok] at hcounted ⊢
    exact ⟨_, db', rfl, hcounted, hevent', fun other hother =>
      hother.imp_left (findExistingOccasion_of_kept hkept)⟩

/-- Occasions that can be resolved all are. -/
theorem resolveAll_of_resolvable (now : Instant) (h : Counted (eventsOf [user.id]) db)
    (hevent : (db.events.get event.postId).isSome) {occasions : List OccasionRequest}
    (hresolvable : ∀ occasion ∈ occasions, resolvable event.postId db occasion = true) :
    ∃ resolved db', occasions.mapM (resolveOccasion user event now) db = .ok resolved db' ∧
      Counted (eventsOf [user.id]) db' := by
  induction occasions generalizing db with
  | nil => exact ⟨[], db, rfl, h⟩
  | cons occasion occasions ih =>
    obtain ⟨first, withFirst, hfirst, hcounted, hevent', hothers⟩ :=
      resolveOccasion_of_resolvable now h hevent
        (hresolvable occasion List.mem_cons_self)
    obtain ⟨rest, withRest, hrest, hcounted'⟩ := ih hcounted hevent' fun other hmem =>
      hothers other (hresolvable other (List.mem_cons_of_mem _ hmem))
    refine ⟨first :: rest, withRest, ?_, hcounted'⟩
    rw [List.mapM_cons, bind_of_ok hfirst, bind_of_ok hrest]
    rfl

/-- Where the occasions before the first that cannot be created are not new, none is created. -/
theorem resolveAll_of_existing (user : Content.User) (now : Instant) (h : Counted noCounter db)
    {occasions : List OccasionRequest}
    (hexisting : ∀ occasion ∈ occasions.takeWhile (resolvable event.postId db),
      (findExistingOccasion occasion event.postId db).isSome)
    (hincomplete : ¬ ∀ occasion ∈ occasions, resolvable event.postId db occasion = true) :
    ∃ e db', occasions.mapM (resolveOccasion user event now) db = .error e db' ∧
      Counted noCounter db' := by
  induction occasions with
  | nil => exact absurd (fun _ hmem => absurd hmem List.not_mem_nil) hincomplete
  | cons occasion occasions ih =>
    rw [List.mapM_cons]
    cases hfirst : resolvable event.postId db occasion with
    | false =>
      unfold resolvable at hfirst
      rw [Bool.or_eq_false_iff] at hfirst
      obtain ⟨e, db', herror, hcounted⟩ := createOccasion_of_incomplete user event now h hfirst.2
      refine ⟨e, db', bind_of_error ?_, hcounted⟩
      unfold resolveOccasion
      rw [get_bind, hfirst.1, if_neg Bool.false_ne_true, bind_of_error herror]
    | true =>
      rw [List.takeWhile_cons_of_pos hfirst] at hexisting
      have hkept : resolveOccasion user event now occasion db = .ok occasion db := by
        unfold resolveOccasion
        rw [get_bind, if_pos (hexisting occasion List.mem_cons_self)]
        rfl
      have hrest : ¬ ∀ other ∈ occasions, resolvable event.postId db other = true := by
        intro hall
        apply hincomplete
        intro other hmem
        rcases List.mem_cons.mp hmem with rfl | hmem
        · exact hfirst
        · exact hall other hmem
      obtain ⟨e, db', herror, hcounted⟩ := ih
        (fun other hmem => hexisting other (List.mem_cons_of_mem _ hmem)) hrest
      exact ⟨e, db', by rw [bind_of_ok hkept, bind_of_error herror], hcounted⟩

theorem counted_createNewOccasionsImpl (user : Content.User) (now : Instant)
    (h : Counted noCounter db)
    (hevent : (db.events.get event.postId).isSome) {occasions : List OccasionRequest}
    (hnone : CreatesAllOrNone event.postId occasions db) :
    Counted noCounter (finalState (createNewOccasionsImpl user event occasions now db)) := by
  unfold createNewOccasionsImpl
  by_cases hall : ∀ occasion ∈ occasions, resolvable event.postId db occasion = true
  · have hstart : Counted (eventsOf [user.id]) db :=
      ⟨h.referenced, h.users.of_noCounter, h.members⟩
    obtain ⟨resolved, db', hok, hcounted⟩ := resolveAll_of_resolvable now hstart hevent hall
    rw [bind_of_ok hok, modify_bind]
    exact counted_refreshed hcounted
  · obtain ⟨e, db', herror, hcounted⟩ := resolveAll_of_existing user now h
      (hnone.resolve_left hall) hall
    rw [bind_of_error herror]
    exact hcounted

theorem findExistingOccasion_mem {occasion : OccasionRequest} {eventId : Nat} {existing : Occasion}
    (h : findExistingOccasion occasion eventId db = some existing) :
    existing ∈ db.occasions.rows := by
  unfold findExistingOccasion at h
  obtain ⟨_, _, h⟩ := Option.bind_eq_some_iff.mp h
  obtain ⟨_, _, h⟩ := Option.bind_eq_some_iff.mp h
  exact (Table.get_eq_some_iff.mp (Option.filter_eq_some_iff.mp h).1).1

/-- An occasion that is written keeps the author that is counted for it. -/
theorem UpdateOccasion.sameCounted_write {update : UpdateOccasion} {request : OccasionRequest}
    (h : Referenced db) (hmem : update.existing ∈ db.occasions.rows)
    (hpost : db.posts.get update.existing.postId = some update.post) :
    SameCounted db (update.write request now db) := by
  obtain ⟨_, post, hget, huser⟩ := h.occasions update.existing hmem
  rw [hpost, Option.some.injEq] at hget
  subst hget
  have hauthor : authorOf db update.existing.postId = update.existing.userId := by
    rw [authorOf, hpost]
    exact huser
  let moved : ContentDb := { db with
    occasions := db.occasions.update (fun occasion => occasion.postId = update.existing.postId)
      (updatedOccasion request update.startsAt update.endsAt (authorOf db update.existing.postId)
        now)
      (updatedOccasion_postId request update.startsAt update.endsAt _ now) }
  have hmoved : SameCounted db moved := by
    refine ⟨rfl, rfl, rfl, rfl, rfl, rfl, ?_⟩
    refine db.occasions.map_rows_update_of_mem
      (updatedOccasion_postId request update.startsAt update.endsAt _ now) ?_
    intro occasion hother hid
    have hsame := db.occasions.eq_of_key_eq hother hmem (of_decide_eq_true hid)
    subst hsame
    rw [hauthor]
    unfold Occasion.authored updatedOccasion
    dsimp only
    split <;> split <;> rfl
  refine hmoved.trans ?_
  have hid : update.post.id = update.existing.postId := Table.key_of_get hpost
  have hget : moved.posts.get update.post.id = some update.post := hid.symm ▸ hpost
  exact sameCounted_savePost (hmoved.referenced h) hget rfl rfl

theorem sameCounted_updateOccasion (h : Referenced db) (request : OccasionRequest) :
    SameCounted db (finalState (updateOccasion event now request db)) := by
  unfold updateOccasion
  rw [get_bind]
  cases hexisting : findExistingOccasion request event.postId db with
  | none => exact .refl db
  | some existing =>
    refine attempt_bind_invariant (.refl db) ?_
    intro update hok
    unfold checkUpdateOccasion at hok
    simp only [checks_eq_ok, answered_eq_ok, okOr_eq_ok, pure_eq_ok] at hok
    obtain ⟨post, hpost, _, _, _, _, _, _, rfl⟩ := hok
    exact UpdateOccasion.sameCounted_write h (findExistingOccasion_mem hexisting) hpost

/-- What is counted stays so, whatever occasions are written. -/
theorem counted_updateOccasionsImpl (event : Event) (now : Instant)
    (h : Counted noCounter db) (occasions : List OccasionRequest) :
    Counted noCounter (finalState (updateOccasionsImpl event occasions now db)) :=
  counted_forM (fun occasion _ _ h =>
    (sameCounted_updateOccasion h.referenced occasion).counted h) h

theorem mem_affectedUserIds {removed : List (Nat × Option Nat)} {id : Nat} :
    id ∈ affectedUserIds user removed ↔ id ∈ removed.filterMap (·.2) ∨ id = user.id := by
  unfold affectedUserIds
  rw [mem_unique, List.mem_mergeSort, List.mem_append, List.mem_singleton]

/-- Occasions that are deleted are counted for some users only. -/
theorem counted_deleteOccasions (h : Counted noCounter db) {p : Occasion → Bool}
    {userIds : List Nat}
    (hauthors : ∀ occasion ∈ db.occasions.rows, p occasion = true →
      ∀ author, occasion.userId = some author → author ∈ userIds) :
    Counted (eventsOf userIds) { db with occasions := db.occasions.delete p } := by
  constructor
  · refine ⟨h.referenced.events, ?_, h.referenced.memberships⟩
    intro occasion hmem
    exact h.referenced.occasions occasion (List.mem_of_mem_filter hmem)
  · apply h.users.of_noCounter.changed
    · rfl
    · intro counter id hstale
      cases counter with
      | occasion =>
        apply Table.countP_delete
        intro occasion hmem hcounted
        rw [decide_eq_true_eq] at hcounted
        rw [← Bool.not_eq_true]
        intro hdeleted
        exact hstale ⟨by simp, hauthors occasion hmem hdeleted id hcounted⟩
      | _ => rfl
  · exact h.members

/-- The counters of all authors of removed occasions are refreshed. -/
theorem counted_deleteRemovedOccasionsImpl (h : Counted noCounter db)
    (occasions : List OccasionRequest) :
    Counted noCounter (deleteRemovedOccasionsImpl user event occasions db) := by
  apply counted_refreshed
  apply counted_deleteOccasions h
  intro occasion hmem hremoved author hauthor
  obtain ⟨_, post, hpost, huser⟩ := h.referenced.occasions occasion hmem
  rw [decide_eq_true_eq, List.mem_map] at hremoved
  obtain ⟨⟨postId, userId⟩, hremoved, rfl⟩ := hremoved
  rw [mem_affectedUserIds, List.mem_filterMap]
  left
  refine ⟨_, hremoved, ?_⟩
  unfold removedOccasions at hremoved
  obtain ⟨other, _, hother⟩ := List.mem_filterMap.mp hremoved
  obtain ⟨otherPost, hget, heq⟩ := Option.map_eq_some_iff.mp hother
  rw [Prod.mk.injEq] at heq
  obtain ⟨hid, hother⟩ := heq
  have hsame : occasion.postId = other.postId := hid.symm.trans (Table.key_of_get hget)
  rw [hsame, hget, Option.some.injEq] at hpost
  rw [← hother, hpost, huser, hauthor]

variable {request : EventRequest} {eventId : Nat}

/-- The details of an event, and its post but for its author, are not counted. -/
theorem sameCounted_updateEventDetailsImpl (user : Content.User) (eventId : Nat)
    (request : EventRequest) (now : Instant) (h : Referenced db) :
    SameCounted db (finalState (updateEventDetailsImpl user eventId request now db)) := by
  unfold updateEventDetailsImpl
  refine attempt_bind_invariant (.refl db) ?_
  intro existing hok
  rw [modify_bind]
  have hinformed : SameCounted db { db with
      events := db.events.update (fun event => event.postId = existing.postId)
        (fun event => { event with info := request.info }) fun _ => rfl } := by
    refine ⟨rfl, rfl, rfl, rfl, rfl, ?_, rfl⟩
    apply db.events.map_rows_update
    · intro event
      rfl
    · intro event
      rfl
  cases request.post with
  | none => exact hinformed
  | some post =>
    refine attempt_bind_invariant hinformed ?_
    intro postId hpostId
    split
    · rw [finalState_bind_pure]
      exact hinformed.trans (sameCounted_updatePost (hinformed.referenced h))
    · exact hinformed

theorem editableEvent_eq_ok {event : Event} :
    editableEvent user eventId db = .ok event ↔
      getEvent eventId db = .ok event ∧ validateEventEditPermission user event db = .ok () := by
  unfold editableEvent
  simp only [checks_eq_ok, pure_eq_ok]
  constructor
  · rintro ⟨found, hget, _, hpermitted, rfl⟩
    exact ⟨hget, hpermitted⟩
  · rintro ⟨hget, hpermitted⟩
    exact ⟨event, hget, (), hpermitted, rfl⟩

theorem getEvent_eq_ok {event : Event} :
    getEvent eventId db = .ok event ↔ db.events.get eventId = some event := okOr_eq_ok

/-- Who may change an event may do so after a change of what is not counted. -/
theorem editableEvent_sameCounted {db' : ContentDb} {event : Event} (h : SameCounted db db')
    (heditable : editableEvent user eventId db' = .ok event) :
    ∃ before, editableEvent user eventId db = .ok before ∧ before.postId = event.postId := by
  obtain ⟨hget, hpermitted⟩ := editableEvent_eq_ok.mp heditable
  rw [getEvent_eq_ok] at hget
  have hevents := h.get_events eventId
  rw [hget, Option.map_some] at hevents
  obtain ⟨before, hbefore, hid⟩ := Option.map_eq_some_iff.mp hevents.symm
  refine ⟨before, editableEvent_eq_ok.mpr ⟨getEvent_eq_ok.mpr hbefore, ?_⟩, hid⟩
  unfold validateEventEditPermission at hpermitted ⊢
  simp only [checks_eq_ok, okOr_eq_ok] at hpermitted ⊢
  obtain ⟨post, hpost, hpermitted⟩ := hpermitted
  have hposts := h.get_posts event.postId
  rw [hpost, Option.map_some] at hposts
  obtain ⟨postBefore, hpostBefore, hauthored⟩ := Option.map_eq_some_iff.mp hposts.symm
  unfold Post.authored at hauthored
  rw [Prod.mk.injEq, Prod.mk.injEq] at hauthored
  refine ⟨postBefore, hid ▸ hpostBefore, ?_⟩
  rw [hauthored.2.1]
  exact hpermitted

/-- The event has the occasions it had after a change of what is not counted. -/
theorem findExistingOccasion_sameCounted {db' : ContentDb} (h : SameCounted db db')
    (occasion : OccasionRequest) (eventId : Nat) :
    (findExistingOccasion occasion eventId db').isSome =
      (findExistingOccasion occasion eventId db).isSome := by
  have hget (id : Nat) : (db'.occasions.get id).map Occasion.authored =
      (db.occasions.get id).map Occasion.authored :=
    Table.map_get_of_map_rows (k := Prod.fst) (fun _ => rfl) h.occasions id
  unfold findExistingOccasion
  cases occasion.post with
  | none => rfl
  | some post =>
    rw [Option.bind_eq_bind, Option.bind_some, Option.bind_eq_bind, Option.bind_some]
    cases post.id with
    | none => rfl
    | some id =>
      have hfilter (found : Option Occasion) :
          (found.filter fun occasion => occasion.eventId = eventId).isSome =
            (found.map Occasion.authored).any fun occasion => occasion.2.1 = eventId := by
        cases found with
        | none => rfl
        | some occasion =>
          rw [Option.filter_some, Option.map_some, Option.any_some]
          unfold Occasion.authored
          split
          · rename_i hevent
            exact hevent.symm
          · rename_i hevent
            exact (Bool.eq_false_iff.mpr hevent).symm
      rw [Option.bind_some, Option.bind_some, hfilter, hfilter, hget]

theorem CreatesAllOrNone.sameCounted {db' : ContentDb} {occasions : List OccasionRequest}
    (h : CreatesAllOrNone eventId occasions db) (hsame : SameCounted db db') :
    CreatesAllOrNone eventId occasions db' := by
  have hexisting := findExistingOccasion_sameCounted hsame
  have hresolvable : resolvable eventId db' = resolvable eventId db := by
    funext occasion
    rw [resolvable, resolvable, hexisting]
  unfold CreatesAllOrNone
  simp only [hresolvable, hexisting]
  exact h

theorem isSome_get_of_editableEvent (h : editableEvent user eventId db = .ok event) :
    (db.events.get event.postId).isSome := by
  have hget := getEvent_eq_ok.mp (editableEvent_eq_ok.mp h).1
  rw [Table.key_of_get hget, hget]
  rfl

/-- New occasions are counted if they are created together, or none is. -/
theorem counted_createNewOccasions (h : Counted noCounter db)
    (hnone : ∀ eventId event, eventPostId request = .ok eventId →
      editableEvent user eventId db = .ok event →
      CreatesAllOrNone event.postId request.occasions db) :
    Counted noCounter (finalState (createNewOccasions user request now db)) := by
  unfold createNewOccasions
  refine attempt_bind_invariant h fun eventId heventId => ?_
  refine attempt_bind_invariant h fun event heditable => ?_
  rw [answered_eq_ok] at heventId heditable
  have hcreated := counted_createNewOccasionsImpl user now h
    (isSome_get_of_editableEvent heditable) (hnone eventId event heventId heditable)
  cases hok : createNewOccasionsImpl user event request.occasions now db with
  | error e db' =>
    rw [hok, finalState_error] at hcreated
    rw [bind_of_error hok]
    exact hcreated
  | ok resolved db' =>
    rw [hok, finalState_ok] at hcreated
    rw [bind_of_ok hok, finalState_attempt]
    exact hcreated

theorem counted_deleteRemovedOccasions (h : Counted noCounter db) :
    Counted noCounter (finalState (deleteRemovedOccasions user request db)) := by
  unfold deleteRemovedOccasions
  refine attempt_bind_invariant h fun eventId _ => ?_
  refine attempt_bind_invariant h fun event _ => ?_
  rw [modify_bind, finalState_attempt]
  exact counted_deleteRemovedOccasionsImpl h request.occasions

/-- An update keeps what is counted if the new occasions are created together, or none is. -/
theorem counted_updateEvent (h : Counted noCounter db)
    (hnone : ∀ eventId event, eventPostId request = .ok eventId →
      editableEvent user eventId db = .ok event →
      succeeded (updateEventDetailsImpl user eventId request now db) = true →
      CreatesAllOrNone event.postId request.occasions db) :
    Counted noCounter (finalState (updateEvent user request now db)) := by
  unfold updateEvent
  refine attempt_bind_invariant h fun eventId heventId => ?_
  rw [answered_eq_ok] at heventId
  have hsame := sameCounted_updateEventDetailsImpl user eventId request now h.referenced
  cases hdetails : updateEventDetailsImpl user eventId request now db with
  | error e db' =>
    rw [hdetails, finalState_error] at hsame
    rw [bind_of_error hdetails]
    exact hsame.counted h
  | ok _ detailed =>
    rw [hdetails, finalState_ok] at hsame
    rw [bind_of_ok hdetails]
    refine attempt_bind_invariant (hsame.counted h) fun event heditable => ?_
    rw [answered_eq_ok] at heditable
    obtain ⟨before, hbefore, hid⟩ := editableEvent_sameCounted hsame heditable
    have hnone' := (hnone eventId before heventId hbefore (by rw [hdetails]; rfl)).sameCounted hsame
    rw [hid] at hnone'
    have hcreated := counted_createNewOccasionsImpl user now (hsame.counted h)
      (isSome_get_of_editableEvent heditable) hnone'
    cases hok : createNewOccasionsImpl user event request.occasions now detailed with
    | error e db' =>
      rw [hok, finalState_error] at hcreated
      rw [bind_of_error hok]
      exact hcreated
    | ok resolved created =>
      rw [hok, finalState_ok] at hcreated
      rw [bind_of_ok hok]
      have hupdated := counted_updateOccasionsImpl event now hcreated request.occasions
      cases hwritten : updateOccasionsImpl event request.occasions now created with
      | error e db' =>
        rw [hwritten, finalState_error] at hupdated
        rw [bind_of_error hwritten]
        exact hupdated
      | ok _ updated =>
        rw [hwritten, finalState_ok] at hupdated
        rw [bind_of_ok hwritten, modify_bind, finalState_attempt]
        exact counted_deleteRemovedOccasionsImpl hupdated resolved

/-- The occasions of the event to delete are its owner's, or of no user. -/
def DeletesOwnOccasions (user : Content.User) (request : EventRequest) (db : ContentDb) : Prop :=
  ∀ delete, checkDeleteEvent user request db = .ok delete →
    ∀ occasion ∈ db.occasions.rows, occasion.eventId = delete.eventId →
      occasion.userId = none ∨ occasion.userId = delete.owner

/-- The owner of the event that is deleted is the author of its post. -/
theorem checkDeleteEvent_owner {delete : DeleteEvent}
    (h : checkDeleteEvent user request db = .ok delete) :
    ∃ post, db.posts.get delete.eventId = some post ∧ post.userId = delete.owner := by
  unfold checkDeleteEvent at h
  simp only [checks_eq_ok, okOr_eq_ok, pure_eq_ok] at h
  obtain ⟨_, _, _, _, post, hpost, _, _, rfl⟩ := h
  exact ⟨post, hpost, rfl⟩

theorem counted_deleteEvent (h : Counted noCounter db)
    (hown : DeletesOwnOccasions user request db) :
    Counted noCounter (finalState (deleteEvent user request db)) := by
  refine checked_invariant h ?_
  intro delete hok
  rw [answered_eq_ok] at hok
  obtain ⟨post, hpost, howner⟩ := checkDeleteEvent_owner hok
  let deleted : ContentDb := { db with
    events := db.events.delete fun event => event.postId = delete.eventId
    occasions := db.occasions.delete fun occasion => occasion.eventId = delete.eventId }
  have hdeleted : Counted (eventsOf delete.owner.toList) deleted := by
    constructor
    · refine ⟨?_, ?_, h.referenced.memberships⟩
      · intro event hmem
        exact h.referenced.events event (List.mem_of_mem_filter hmem)
      · intro occasion hmem
        obtain ⟨hmem, hspared⟩ := List.mem_filter.mp hmem
        obtain ⟨hevent, hauthor⟩ := h.referenced.occasions occasion hmem
        refine ⟨?_, hauthor⟩
        rw [Bool.not_eq_true', decide_eq_false_iff_not] at hspared
        dsimp only [deleted]
        rw [Table.get_delete]
        obtain ⟨event, hget⟩ := Option.isSome_iff_exists.mp hevent
        rw [hget, Option.filter_some, if_pos]
        · rfl
        · rw [Bool.not_eq_true', decide_eq_false_iff_not, Table.key_of_get hget]
          exact hspared
    · apply h.users.of_noCounter.changed
      · rfl
      · intro counter id hstale
        cases counter with
        | event =>
          apply Table.countP_delete
          intro event _ hcounted
          rw [decide_eq_false_iff_not]
          intro hdeleted
          rw [hdeleted, hpost, Option.any_some, howner, decide_eq_true_eq] at hcounted
          exact hstale ⟨by simp, Option.mem_toList.mpr hcounted⟩
        | occasion =>
          apply Table.countP_delete
          intro occasion hmem hcounted
          rw [decide_eq_true_eq] at hcounted
          rw [decide_eq_false_iff_not]
          intro hdeleted
          rcases hown delete hok occasion hmem hdeleted with hnone | howned
          · rw [hnone] at hcounted
            cases hcounted
          · exact hstale ⟨by simp, Option.mem_toList.mpr (howned.symm.trans hcounted)⟩
        | _ => rfl
    · exact h.members
  have hwritten : delete.write db = delete.owner.toList.foldl updateEventCounts deleted := by
    unfold DeleteEvent.write
    cases delete.owner <;> rfl
  rw [hwritten]
  exact counted_refreshed hdeleted

end

end Rellm.Events
