import Rellm.Events.Visible

/-!
# The number of occasions of an event

An event is returned with the number of its occasions. That number is counted apart from the
occasions that are returned: it leaves out the limited posts that a follow or a group shows,
keeps the occasions that ended before a listing starts, and where it finds none it is the
number of those returned. A listing of the event by its post shows as many occasions exactly
if what is left out and what is kept weigh each other up.
-/

namespace Rellm.Events

open Foundation Content Calendar Posts

/-- The request for an event by its post. -/
def singleEvent (eventId : Nat) : GetEventsRequest := { postId := some (some eventId) }

/-- Whether a request asks for the event of a post. -/
def GetEventsRequest.asksForEvent (request : GetEventsRequest) : Bool :=
  request.occasionPostIds = [] && request.listingType ≠ .eventTextSearch &&
    request.listingType ≠ .groupEvents && request.authorUserId.isNone && request.postId.isSome

/-- A post is public, or the viewer's own. -/
def openTo (user : Option Content.User) (post : Post) : Bool :=
  decide (post.visibility ∈ publicVisibilities user) || post.userId = some (viewerId user)

/-- An occasion ended before the listings start that are not given a time. -/
def isOver (occasion : Occasion) : Bool := occasion.endsAt ≤ endsAfter none

section

variable (db : ContentDb) (user : Option Content.User) (search : TextSearch)
variable (request : GetEventsRequest) (eventId : Nat)

/-- The number of occasions of an event that are returned to a viewer who asks for it by its
post. -/
def listedOccasions : Nat :=
  match getEvents db user search (singleEvent eventId) with
  | .ok replies =>
    ((replies.filter fun reply => reply.event.postId = eventId).map (·.occasions.length)).sum
  | .error _ => 0

/-- The rows that a request for an event returns. -/
def eventRows : List EventLoadData :=
  firstVisibleEvents db user singleOccasionLimit none fun row => row.event.postId = eventId

/-- What may show the post of an event shows another post to the viewer. -/
def shownThrough (post : Post) : Bool :=
  (db.posts.get eventId).any fun eventPost =>
    (joined db (viewerId user) eventPost).any fun row => visibleTo user { row with post := post }

/-- The occasions of an event for which something holds of them and their posts. -/
def countWhere (p : Occasion → Post → Bool) : Nat :=
  db.occasions.rows.countP fun occasion => occasion.eventId = eventId &&
    (db.posts.get occasion.postId).any (p occasion)

/-- The occasions that are public or the viewer's own. -/
def openOccasions : Nat := countWhere db eventId fun _ post => openTo user post

/-- Of these, the ones that ended before listings start. -/
def overOccasions : Nat :=
  countWhere db eventId fun occasion post => openTo user post && isOver occasion

/-- The occasions that only a follow or a group shows. -/
def limitedOccasions : Nat :=
  countWhere db eventId fun occasion post =>
    (shownThrough db user eventId post && !isOver occasion) && !openTo user post

/-- The occasions that are shown to the viewer. -/
def shownOccasions : Nat :=
  countWhere db eventId fun occasion post => shownThrough db user eventId post && !isOver occasion

/-- The post of an event stands for that event only, and the occasions that only a follow or a group
shows are as many as the open ones that are over. Where no occasion is open, the event is asked for
by a post, or a single one is shown. -/
structure CountAgrees : Prop where
  own : eventIdOfPost db eventId = some eventId
  agrees : shownOccasions db user eventId < singleOccasionLimit →
    if openOccasions db user eventId = 0 then
      request.asksForEvent = true ∨ limitedOccasions db user eventId = 1
    else limitedOccasions db user eventId = overOccasions db user eventId

/-- An event is returned with the number of occasions that a request for it by its post returns, if
they are fewer than such a request may return. -/
def CountsListed (reply : EventReply) : Prop :=
  listedOccasions db user search reply.event.postId < singleOccasionLimit →
    reply.occasionCount = listedOccasions db user search reply.event.postId

end

section

variable {db : ContentDb} {user : Option Content.User} {search : TextSearch}
variable {request : GetEventsRequest} {eventId : Nat} {replies : List EventReply}
variable {reply : EventReply}

variable (db eventId) in
/-- A count is that of those for which something holds and that of the others. -/
theorem countWhere_split (p q : Occasion → Post → Bool) :
    countWhere db eventId p =
      countWhere db eventId (fun occasion post => p occasion post && q occasion post) +
        countWhere db eventId (fun occasion post => p occasion post && !q occasion post) := by
  unfold countWhere
  induction db.occasions.rows with
  | nil => rfl
  | cons occasion rows ih =>
    simp only [List.countP_cons]
    rw [ih]
    cases hpost : db.posts.get occasion.postId with
    | none => simp
    | some post =>
      cases hp : p occasion post <;> cases hq : q occasion post <;>
        by_cases hevent : occasion.eventId = eventId <;> simp [hp, hq, hevent] <;> omega

theorem countWhere_congr {p q : Occasion → Post → Bool}
    (h : ∀ occasion post, p occasion post = q occasion post) :
    countWhere db eventId p = countWhere db eventId q := by
  have heq : p = q := funext fun occasion => funext fun post => h occasion post
  rw [heq]

/-- The occasions that are counted are the open ones. -/
theorem countOccasions_eq : countOccasions db user eventId = openOccasions db user eventId := rfl

/-- What shows the post of an event shows what reaches the viewer through it. -/
theorem shownThrough_iff {eventPost post : Post} (h : db.posts.get eventId = some eventPost) :
    shownThrough db user eventId post = true ↔ Reaches db user eventPost post := by
  rw [shownThrough, h, Option.any_some, List.any_eq_true]
  constructor
  · rintro ⟨row, hrow, hvisible⟩
    exact reaches_of_visibleTo hrow hvisible
  · intro hreaches
    obtain ⟨row, hrow, hshows⟩ := exists_row_shows db user eventPost
    exact ⟨row, hrow, hshows post hreaches⟩

/-- What is open reaches the viewer through any post. -/
theorem reaches_of_openTo {through post : Post} (h : openTo user post = true) :
    Reaches db user through post := by
  simp only [openTo, Bool.or_eq_true, decide_eq_true_eq] at h
  obtain hpublic | hown := h
  · exact Or.inl hpublic
  · exact Or.inr (Or.inr hown)

/-- An event whose own post is shown to the viewer. -/
structure Shown (db : ContentDb) (user : Option Content.User) (event : Event) (eventPost : Post) :
    Prop where
  event_eq : db.events.get event.postId = some event
  post_eq : db.posts.get event.postId = some eventPost
  reaches : Reaches db user eventPost eventPost
  moderation : passes eventPost.moderation = true ∨ eventPost.userId = some (viewerId user)
  author : eventPost.userId.isSome

/-- The post of an event that is returned is shown. -/
theorem shown_of_getEvents (h : getEvents db user search request = .ok replies)
    (hreply : reply ∈ replies) : Shown db user reply.event reply.post := by
  have hbacked := backed_of_getEvents h hreply
  obtain ⟨occasion, hoccasion⟩ := List.exists_mem_of_ne_nil _ hbacked.some
  obtain ⟨_, hdata, hreaches, _, hmoderation, hauthor⟩ :=
    visibleOccasion_iff_reaches.mp (hbacked.visible occasion hoccasion)
  simp only [occasionData, Option.bind_eq_bind, Option.bind_eq_some_iff] at hdata
  obtain ⟨event, hevent, eventPost, heventPost, occasionPost, _, hdata⟩ := hdata
  cases hdata
  refine ⟨?_, heventPost, hreaches, hmoderation, hauthor⟩
  rw [Table.key_of_get hevent]
  exact hevent

/-- The occasions that are over are counted with the open ones, those that only a follow or a group
shows are not. -/
theorem shownOccasions_add {event : Event} {eventPost : Post}
    (h : Shown db user event eventPost) :
    shownOccasions db user event.postId + overOccasions db user event.postId =
      openOccasions db user event.postId + limitedOccasions db user event.postId := by
  have hshown := countWhere_split db event.postId
    (fun occasion post => shownThrough db user event.postId post && !isOver occasion)
    fun _ post => openTo user post
  have hopen := countWhere_split db event.postId
    (fun _ post => openTo user post) fun occasion _ => isOver occasion
  have hboth : countWhere db event.postId (fun occasion post =>
      (shownThrough db user event.postId post && !isOver occasion) && openTo user post) =
      countWhere db event.postId fun occasion post => openTo user post && !isOver occasion := by
    apply countWhere_congr
    intro occasion post
    cases hpost : openTo user post with
    | false => simp
    | true =>
      have hreaches := (shownThrough_iff h.post_eq).mpr (reaches_of_openTo hpost)
      simp [hreaches]
  rw [hboth] at hshown
  unfold shownOccasions overOccasions openOccasions limitedOccasions
  omega

/-- A joined row shows an occasion of an event exactly if the occasion is not over, and what shows
the post of the event shows its own. -/
theorem mem_occasions_iff {event : Event} {eventPost : Post} (h : Shown db user event eventPost)
    (occasion : Occasion) :
    (∃ row ∈ visibleOccasions db user none fun row => row.event.postId = event.postId,
        row.occasion = occasion) ↔
      occasion ∈ db.occasions.rows ∧ (occasion.eventId = event.postId ∧
        (db.posts.get occasion.postId).any fun post =>
          shownThrough db user event.postId post && !isOver occasion) := by
  constructor
  · rintro ⟨row, hrow, rfl⟩
    obtain ⟨⟨hmem, hjoined⟩, ⟨hvisible, hends⟩, hkeep⟩ := mem_visibleOccasions.mp hrow
    obtain ⟨_, hevent, hpost, heventPost, hrowJoined⟩ := mem_joinedOccasions.mp hjoined
    have hid : row.event.postId = event.postId := of_decide_eq_true hkeep
    have hshown : shownThrough db user event.postId row.occasionPost = true := by
      rw [hid] at heventPost
      simp only [visibleOccasion, Bool.and_eq_true] at hvisible
      exact (shownThrough_iff heventPost).mpr (reaches_of_visibleTo hrowJoined hvisible.1.1.2)
    have hlate : isOver row.occasion = false := by
      rw [isOver, decide_eq_false_iff_not, not_le]
      exact hends
    refine ⟨hmem, ?_, ?_⟩
    · show row.occasion.eventId = event.postId
      rw [← hid, Table.key_of_get hevent]
    · show (db.posts.get row.occasion.postId).any _ = true
      rw [hpost, Option.any_some, hlate, hshown]
      rfl
  · rintro ⟨hmem, hevent, hshown⟩
    obtain ⟨post, hpost, hshown⟩ := (Option.any_eq_true _ _).mp hshown
    rw [Bool.and_eq_true, Bool.not_eq_true', isOver, decide_eq_false_iff_not, not_le] at hshown
    have hdata : occasionData db occasion = some ⟨occasion, event, eventPost, post⟩ := by
      simp [occasionData, hevent, h.event_eq, h.post_eq, hpost]
    have hvisible : VisibleOccasion db user ⟨occasion, event, eventPost, post⟩ :=
      visibleOccasion_iff_reaches.mpr ⟨⟨hmem, lt_of_le_of_lt (toDb_nonneg _) hshown.2⟩, hdata,
        h.reaches, (shownThrough_iff h.post_eq).mp hshown.1, h.moderation, h.author⟩
    obtain ⟨_, row, hrow, hvisible, hdata⟩ := hvisible
    have hoccasion := (mem_joinedOccasions.mp hrow).1
    have hsame : row.event = event := congrArg EventLoadData.event hdata
    refine ⟨row, mem_visibleOccasions.mpr ⟨⟨?_, ?_⟩, ⟨hvisible, ?_⟩, ?_⟩, hoccasion⟩
    · rwa [hoccasion]
    · rwa [hoccasion]
    · rw [hoccasion]
      exact hshown.2
    · rw [hsame]
      exact decide_eq_true rfl

/-- A request for an event returns the shown occasions, as far as the limit allows. -/
theorem length_eventRows {event : Event} {eventPost : Post} (h : Shown db user event eventPost) :
    (eventRows db user event.postId).length =
      min singleOccasionLimit (shownOccasions db user event.postId) := by
  rw [eventRows, firstVisibleEvents, length_capped]
  congr 1
  rw [shownOccasions, countWhere, List.countP_eq_length_filter, ← List.length_map EventLoadData.occasion]
  apply List.Perm.length_eq
  rw [List.perm_ext_iff_of_nodup]
  · intro occasion
    rw [List.mem_filter, Bool.and_eq_true, decide_eq_true_eq, ← mem_occasions_iff h occasion]
    simp only [List.mem_map, List.mem_dedup]
    constructor
    · rintro ⟨_, ⟨row, hrow, rfl⟩, hoccasion⟩
      exact ⟨row, hrow, hoccasion⟩
    · rintro ⟨row, hrow, hoccasion⟩
      exact ⟨row.data, ⟨row, hrow, rfl⟩, hoccasion⟩
  · -- an occasion determines the row that is returned of it
    apply List.Nodup.map_on _ (List.nodup_dedup _)
    intro data hdata data' hdata' hsame
    obtain ⟨row, hrow, rfl⟩ := List.mem_map.mp (List.mem_dedup.mp hdata)
    obtain ⟨row', hrow', rfl⟩ := List.mem_map.mp (List.mem_dedup.mp hdata')
    have hread := occasionData_of_visible (visible_of_mem_visibleOccasions hrow)
    have hread' := occasionData_of_visible (visible_of_mem_visibleOccasions hrow')
    rw [← hsame] at hread'
    exact Option.some.inj (hread.symm.trans hread')
  · exact (List.Nodup.of_map _ db.occasions.nodup).filter _

/-- What `getEventById` returns is a single event with the rows of the request. -/
theorem getEventById_eq_ok (h : getEventById db user eventId = .ok replies) :
    ∃ reply, replies = [reply] ∧ reply.event.postId = eventId ∧
      reply.occasions.length = (eventRows db user eventId).length ∧
      reply.occasionCount =
        attachedCount db user reply.event.postId (eventRows db user eventId).length := by
  have hrows : firstVisibleEvents db user singleOccasionLimit none
      (fun row => row.event.postId = eventId) = eventRows db user eventId := rfl
  rw [getEventById, hrows] at h
  cases heventRows : eventRows db user eventId with
  | nil =>
    rw [heventRows] at h
    cases h
  | cons first others =>
    rw [heventRows] at h
    cases h
    have hmem : first ∈ eventRows db user eventId := by
      rw [heventRows]
      exact List.mem_cons_self
    obtain ⟨row, hrow, rfl⟩ := List.mem_map.mp (List.mem_dedup.mp (mem_of_mem_capped hmem))
    exact ⟨_, rfl, of_decide_eq_true (mem_visibleOccasions.mp hrow).2.2, by simp, rfl⟩

/-- A request that fails has found no row. -/
theorem eventRows_of_error {status : Status} (h : getEventById db user eventId = .error status) :
    eventRows db user eventId = [] := by
  have hrows : firstVisibleEvents db user singleOccasionLimit none
      (fun row => row.event.postId = eventId) = eventRows db user eventId := rfl
  rw [getEventById, hrows] at h
  cases heventRows : eventRows db user eventId with
  | nil => rfl
  | cons first others =>
    rw [heventRows] at h
    cases h

theorem getEvents_singleEvent : getEvents db user search (singleEvent eventId) =
    getEventByPostId db user (some eventId) := rfl

/-- A request for an event by its post lists its rows if the post stands for that event, and none of
its occasions otherwise. -/
theorem listedOccasions_eq :
    listedOccasions db user search eventId =
      if eventIdOfPost db eventId = some eventId then (eventRows db user eventId).length else 0 := by
  rw [listedOccasions, getEvents_singleEvent]
  have hcall : getEventByPostId db user (some eventId) =
      (eventIdOfPost db eventId).elim (.error ⟨.notFound, "event_not_found"⟩)
        fun found => getEventById db user found := by
    cases hfound : eventIdOfPost db eventId <;>
      simp [getEventByPostId, okOr, hfound, bind, Except.bind]
  rw [hcall]
  cases eventIdOfPost db eventId with
  | none => rfl
  | some found =>
    dsimp only [Option.elim]
    cases hreplies : getEventById db user found with
    | error status =>
      by_cases hsame : found = eventId
      · rw [← hsame, eventRows_of_error hreplies]
        simp
      · simp [hsame]
    | ok replies =>
      obtain ⟨reply, rfl, hid, hlength, _⟩ := getEventById_eq_ok hreplies
      by_cases hsame : found = eventId
      · subst hsame
        simp [hid, hlength]
      · simp [hid, hsame]

/-- An event is returned with the count attached to it, for the rows that a request for it returns or
for a single one. -/
structure Returned (db : ContentDb) (user : Option Content.User) (request : GetEventsRequest)
    (reply : EventReply) : Prop where
  count : reply.occasionCount =
    attachedCount db user reply.event.postId reply.occasions.length
  length : reply.occasions.length =
    if request.asksForEvent then (eventRows db user reply.event.postId).length else 1

theorem returned_of_marshalableEventData {rows : List EventLoadData}
    (hrequest : request.asksForEvent = false) (h : reply ∈ marshalableEventData db user rows) :
    Returned db user request reply := by
  obtain ⟨data, _, rfl⟩ := List.mem_map.mp h
  refine ⟨rfl, ?_⟩
  rw [hrequest]
  rfl

/-- Whatever the listing, only a request for an event returns more than one of its occasions. -/
theorem returned_of_getEvents (h : getEvents db user search request = .ok replies)
    (hreply : reply ∈ replies) : Returned db user request reply := by
  simp only [getEvents, checks_eq_ok] at h
  obtain ⟨excluded, _, h⟩ := h
  split at h
  · rename_i hids
    have hrequest : request.asksForEvent = false := by simp [GetEventsRequest.asksForEvent, hids]
    rw [pure_eq_ok] at h
    subst h
    unfold getEventsByOccasionPostIds at hreply
    dsimp only at hreply
    split at hreply
    · cases hreply
    · exact returned_of_marshalableEventData hrequest hreply
  · rename_i hids
    rw [not_not] at hids
    split at h
    · rename_i htype
      have hrequest : request.asksForEvent = false := by
        simp [GetEventsRequest.asksForEvent, htype]
      simp only [getSearchEvents, checks_eq_ok, pure_eq_ok] at h
      obtain ⟨_, _, _, _, rfl⟩ := h
      exact returned_of_marshalableEventData hrequest hreply
    · rename_i htype
      have hrequest : request.asksForEvent = false := by
        simp [GetEventsRequest.asksForEvent, htype]
      simp only [getGroupEvents, checks_eq_ok, pure_eq_ok] at h
      obtain ⟨_, _, _, _, _, _, _, _, rfl⟩ := h
      exact returned_of_marshalableEventData hrequest hreply
    · rename_i hauthor _ _
      have hrequest : request.asksForEvent = false := by
        simp [GetEventsRequest.asksForEvent, hauthor]
      simp only [checks_eq_ok, pure_eq_ok] at h
      obtain ⟨_, _, rfl⟩ := h
      exact returned_of_marshalableEventData hrequest hreply
    · rename_i hauthor hpost hsearch hgroup
      have hrequest : request.asksForEvent = true := by
        simp only [GetEventsRequest.asksForEvent, hids, hauthor, hpost]
        simpa using ⟨hsearch, hgroup⟩
      simp only [getEventByPostId, checks_eq_ok] at h
      obtain ⟨_, _, _, _, h⟩ := h
      obtain ⟨reply', rfl, hid, hlength, hcount⟩ := getEventById_eq_ok h
      obtain rfl := List.mem_singleton.mp hreply
      refine ⟨?_, ?_⟩
      · rw [hcount, hlength]
      · rw [hrequest, hlength, hid]
        rfl
    · rename_i hpost _ _
      have hrequest : request.asksForEvent = false := by
        simp [GetEventsRequest.asksForEvent, hpost]
      rw [pure_eq_ok] at h
      subst h
      exact returned_of_marshalableEventData hrequest hreply

/-- An event is returned with the number of occasions that a request for it returns exactly if what
the count leaves out of them is as much as what it adds. -/
theorem countsListed_iff (h : getEvents db user search request = .ok replies)
    (hreply : reply ∈ replies) :
    CountsListed db user search reply ↔ CountAgrees db user request reply.event.postId := by
  have hshown := shown_of_getEvents h hreply
  have hreturned := returned_of_getEvents h hreply
  have hsome : 0 < reply.occasions.length :=
    List.length_pos_of_ne_nil (backed_of_getEvents h hreply).some
  have hadd := shownOccasions_add hshown
  have hlength := length_eventRows hshown
  have hcount := hreturned.count
  have hreplied := hreturned.length
  rw [attachedCount, countOccasions_eq] at hcount
  rw [CountsListed, listedOccasions_eq]
  by_cases hown : eventIdOfPost db reply.event.postId = some reply.event.postId
  · rw [if_pos hown, hlength]
    have hiff : CountAgrees db user request reply.event.postId ↔
        (shownOccasions db user reply.event.postId < singleOccasionLimit →
          if openOccasions db user reply.event.postId = 0 then
            request.asksForEvent = true ∨ limitedOccasions db user reply.event.postId = 1
          else limitedOccasions db user reply.event.postId =
            overOccasions db user reply.event.postId) :=
      ⟨(·.agrees), fun hagrees => ⟨hown, hagrees⟩⟩
    rw [hiff, min_lt_iff]
    simp only [lt_irrefl, false_or]
    apply imp_congr_right
    intro hbelow
    rw [min_eq_right hbelow.le] at hlength ⊢
    have hover : overOccasions db user reply.event.postId ≤
        openOccasions db user reply.event.postId := by
      have hsplit := countWhere_split db reply.event.postId
        (fun _ post => openTo user post) fun occasion _ => isOver occasion
      unfold overOccasions openOccasions
      omega
    cases hopen : openOccasions db user reply.event.postId with
    | zero =>
      rw [hopen] at hcount hadd hover
      rw [if_pos rfl, hcount]
      cases hrequest : request.asksForEvent with
      | true =>
        rw [hrequest, if_pos rfl] at hreplied
        exact iff_of_true (hreplied.trans hlength) (Or.inl rfl)
      | false =>
        rw [hrequest, if_neg Bool.false_ne_true] at hreplied
        simp only [Bool.false_eq_true, false_or]
        omega
    | succ count =>
      rw [hopen] at hcount hadd
      rw [if_neg (Nat.succ_ne_zero count), hcount]
      dsimp only
      omega
  · -- where the post stands for another event, no occasion is listed, but the event has a number
    rw [if_neg hown]
    refine iff_of_false (fun hlisted => ?_) fun hagrees => hown hagrees.own
    have hzero := hlisted (by decide)
    rw [hcount] at hzero
    split at hzero
    · omega
    · exact Nat.succ_ne_zero _ hzero

end

/-- A user who follows the author of a picnic. -/
def follower : Content.User where
  id := 2
  permissions := .array []
  defaultFollowModeration := .unmoderated

/-- The post of a picnic, or of an occasion of it. -/
def picnicPost (id : Nat) (context : PostContext) (visibility : Visibility) : Post where
  id := id
  userId := some 1
  context := context
  visibility := visibility
  moderation := .unmoderated
  createdAt := 0
  lastActivityAt := 0

/-- A picnic in spring. -/
def picnicOccasion (postId : Nat) (startsAt : Instant) : Occasion where
  eventId := 1
  postId := postId
  userId := some 1
  startsAt := startsAt
  endsAt := startsAt + 3600000000

/-- A picnic with an occasion for all and one for followers. -/
def picnic : ContentDb :=
  { ContentDb.empty with
    follows := ⟨[⟨2, 1, .approved⟩], by decide⟩
    posts := ⟨⟨[picnicPost 1 .event .globalPublic, picnicPost 2 .occasion .globalPublic,
      picnicPost 3 .occasion .limited], by decide⟩, 4, by decide⟩
    events := ⟨[{ postId := 1 }], by decide⟩
    occasions := ⟨[picnicOccasion 2 1000000000, picnicOccasion 3 2000000000], by decide⟩ }

/-- The picnic as it is returned to the follower. -/
def picnicReply : EventReply where
  event := { postId := 1 }
  post := picnicPost 1 .event .globalPublic
  occasions := [⟨picnicOccasion 2 1000000000, picnicPost 2 .occasion .globalPublic⟩,
    ⟨picnicOccasion 3 2000000000, picnicPost 3 .occasion .limited⟩]
  occasionCount := 1

theorem eventRows_picnic : eventRows picnic (some follower) 1 =
    picnicReply.occasions.map fun occasion =>
      ⟨occasion.occasion, picnicReply.event, picnicReply.post, occasion.post⟩ := by
  have hrows : (((visibleOccasions picnic (some follower) none fun row =>
      row.event.postId = 1).map JoinedOccasion.data).dedup) =
      picnicReply.occasions.map fun occasion =>
        ⟨occasion.occasion, picnicReply.event, picnicReply.post, occasion.post⟩ := by
    decide +kernel
  rw [eventRows, firstVisibleEvents, hrows, capped, List.mergeSort_of_pairwise (by decide)]
  rfl

theorem getEvents_picnic :
    getEvents picnic (some follower) (findsOnly (picnicOccasion 2 0)) (singleEvent 1) =
      .ok [picnicReply] := by
  have hrows : firstVisibleEvents picnic (some follower) singleOccasionLimit none
      (fun row => row.event.postId = 1) = _ := eventRows_picnic
  have hevent : getEventById picnic (some follower) 1 = .ok [picnicReply] := by
    rw [getEventById, hrows]
    decide +kernel
  rw [getEvents_singleEvent, getEventByPostId]
  exact hevent

/-- The follower sees both occasions of the picnic, of which only one is counted. -/
theorem countsListed_picnic :
    CountsListed picnic (some follower) (findsOnly (picnicOccasion 2 0)) picnicReply ↔
      CountAgrees picnic (some follower) (singleEvent 1) 1 :=
  countsListed_iff getEvents_picnic (List.mem_singleton_self _)

theorem picnic_miscounted :
    ¬ ∀ (db : ContentDb) (user : Option Content.User) (search : TextSearch)
      (request : GetEventsRequest) (replies : List EventReply) (reply : EventReply),
      getEvents db user search request = .ok replies → reply ∈ replies →
        CountsListed db user search reply := by
  intro h
  have hlisted : listedOccasions picnic (some follower) (findsOnly (picnicOccasion 2 0)) 1 = 2 := by
    rw [listedOccasions, getEvents_picnic]
    rfl
  have hcount := h _ _ _ _ _ _ getEvents_picnic (List.mem_singleton_self _)
  rw [CountsListed, show picnicReply.event.postId = 1 from rfl, hlisted] at hcount
  exact absurd (hcount (by decide)) (by decide)

end Rellm.Events
