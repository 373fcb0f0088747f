import Rellm.Foundation.Run
import Rellm.Rsvps.Upsert

/-!
# Who answers for whom

An RSVP of a user is answered by calls of that user alone, except where a call names a
user who has no RSVP to the occasion yet: whoever makes it then answers in the user's
name, since an invitation is recorded only for a caller who invites nobody else.
-/

namespace Rellm.Rsvps

open Foundation Content

/-- A call about an RSVP. -/
inductive RsvpCall where
  | upsert (request : RsvpRequest) (user : Option Content.User) (newToken : String)
  | delete (request : RsvpRequest) (user : Option Content.User)

namespace RsvpCall

def request : RsvpCall → RsvpRequest
  | upsert request _ _ | delete request _ => request

def user : RsvpCall → Option Content.User
  | upsert _ user _ | delete _ user => user

/-- The user a call is authenticated as. -/
def callerId (call : RsvpCall) : Option Nat := call.user.map (·.id)

end RsvpCall

section

variable (content : ContentDb)

/-- What a call leaves of the table; a call that fails leaves it as it was. -/
def rsvpCall (rsvps : RsvpTable) : RsvpCall → RsvpTable
  | .upsert request user newToken =>
    match upsertRsvp content request user newToken rsvps with
    | .ok (rsvps, _) => rsvps
    | .error _ => rsvps
  | .delete request user =>
    match deleteRsvp content request user rsvps with
    | .ok rsvps => rsvps
    | .error _ => rsvps

/-- A call is made by the owner of the event that an occasion is of. -/
def RsvpCall.ByOwner (call : RsvpCall) (occasionId : Nat) : Prop :=
  ∃ target, content.occasionContext occasionId = some target ∧
    isEventOwner call.user target = true

/-- The law of a call: it answers for nobody but its caller. -/
structure AnsweredByAttendee (rsvps : RsvpTable) (call : RsvpCall) : Prop where
  /-- Another's new RSVP is an invitation that records who invites. -/
  created : ∀ row ∈ (rsvpCall content rsvps call).rows, rsvps.get row.id = none →
    ∀ userId, row.attendee = .user userId → call.callerId = some userId ∨
      row.status = .requested ∧ row.invitingUserId = call.callerId ∧ call.callerId.isSome = true
  /-- Another's RSVP is moderated by the owner of the event, and not changed otherwise. -/
  changed : ∀ row row', rsvps.get row.id = some row →
    (rsvpCall content rsvps call).get row.id = some row' → ∀ userId, row.attendee = .user userId →
      call.callerId = some userId ∨ row' = row ∨
        call.ByOwner content row.occasionId ∧ row' = { row with moderation := row'.moderation }
  /-- Another's RSVP is deleted by the owner of the event. -/
  deleted : ∀ row, rsvps.get row.id = some row → (rsvpCall content rsvps call).get row.id = none →
    ∀ userId, row.attendee = .user userId →
      call.callerId = some userId ∨ call.ByOwner content row.occasionId
  /-- An anonymous RSVP is changed or deleted by whoever presents its token. -/
  anonymous : ∀ row name contactMethods authToken, rsvps.get row.id = some row →
    row.attendee = .anonymous name contactMethods authToken →
      (rsvpCall content rsvps call).get row.id = some row ∨
        call.request.authToken = some authToken

/-- A call names as the attendee another user, who has no RSVP to the occasion yet, and it meets
the conditions for a new RSVP: the occasion takes RSVPs, the guest count is valid and there is room
for the guests. -/
def AnswersForAnother (rsvps : RsvpTable) : RsvpCall → Prop
  | .delete _ _ => False
  | .upsert request user _ => ∃ occasionId target userId, request.occasionId = some occasionId ∧
    content.occasionContext occasionId = some target ∧
    request.attendee = some (.user (some userId)) ∧ user.map (·.id) ≠ some userId ∧
    (content.users.get userId).isSome = true ∧
    getRsvp rsvps occasionId (some userId) none = none ∧
    (rsvpsAllowed (eventInfo target.event) target.occasion.info.rsvpInfo).1 = true ∧
    1 ≤ request.numberOfGuests.toNat ∧ request.numberOfGuests.toNat < 2147483648 ∧
    (Upsert.insert (newRow request user target occasionId (some userId) (.user userId))).check
      content rsvps = .ok ()

end

section

variable {content : ContentDb} {rsvps : RsvpTable} {request : RsvpRequest}
variable {user : Option Content.User} {newToken : String}

/-- An upsert that succeeds has prepared, passed the check and written. -/
theorem upsertRsvp_eq_ok {result : RsvpTable × RsvpReply} :
    upsertRsvp content request user newToken rsvps = .ok result ↔
      ∃ upsert, prepareUpsert content request user newToken rsvps = .ok upsert ∧
        upsert.check content rsvps = .ok () ∧
        ∃ row, upsert.write content rsvps = .ok (result.1, row) ∧
          result.2 = row.toProto true true := by
  simp only [upsertRsvp, checks_eq_ok, pure_eq_ok]
  constructor
  · rintro ⟨upsert, hprepare, _, hcheck, ⟨rsvps', row⟩, hwrite, rfl⟩
    exact ⟨upsert, hprepare, hcheck, row, hwrite, rfl⟩
  · rintro ⟨upsert, hprepare, hcheck, row, hwrite, hreply⟩
    exact ⟨upsert, hprepare, (), hcheck, (result.1, row), hwrite, Prod.ext rfl hreply.symm⟩

/-- A write that succeeds updates the RSVP that was read, or inserts the new one. -/
theorem write_eq_ok {upsert : Upsert} {rsvps' : RsvpTable} {row : Rsvp} :
    upsert.write content rsvps = .ok (rsvps', row) ↔
      match upsert with
      | .update before after =>
        rsvps.modify before.id after.over after.over_id = rsvps' ∧ after = row
      | .insert new => ∃ guests, Guests.tryFrom new.numberOfGuests = some guests ∧
        (new.attendee.userId.all fun userId => (content.users.get userId).isSome) = true ∧
        rsvps.insert (new.row guests) (new.row_id guests) = rsvps' ∧
        new.row guests rsvps.next = row := by
  cases upsert with
  | update before after => simp [Upsert.write]
  | insert new =>
    simp only [Upsert.write, checks_eq_ok, okOr_eq_ok, require_eq_ok, pure_eq_ok, exists_const,
      Prod.mk.injEq]

/-- A new RSVP of another is never recorded as an invitation. -/
theorem newRow_not_requested (target : OccasionContext) (occasionId : Nat) {userId : Nat}
    (attendee : Attendee) (h : user.map (·.id) ≠ some userId) :
    (newRow request user target occasionId (some userId) attendee).status ≠ .requested := by
  have hown : isOwnRsvp user (some userId) = false := by
    unfold isOwnRsvp
    rw [decide_eq_false fun heq => h heq.symm, Bool.and_false]
  unfold newRow newStatus
  rw [hown]
  cases request.status <;> simp

/-- The caller who may change an RSVP of a user without being the attendee owns the event. -/
theorem owner_of_updatedRsvp {attendee : Attendee} {isOwner isOwn : Bool} {row after : Rsvp}
    (h : updatedRsvp request attendee isOwner isOwn false row = .ok after) (hown : isOwn = false) :
    isOwner = true ∧ after = { row with moderation := after.moderation } := by
  obtain ⟨hallowed, hafter⟩ := updatedRsvp_eq_ok.mp h
  subst hown
  have howner : isOwner = true := by simpa using hallowed
  refine ⟨howner, ?_⟩
  rw [if_neg (by simp)] at hafter
  rw [← hafter]
  simp [Rsvp.resetAnonymous, Rsvp.moderate, howner]

theorem isOwnRsvp_iff {userId : Option Nat} :
    isOwnRsvp user userId = true ↔ user.isSome = true ∧ userId = user.map (·.id) := by
  simp [isOwnRsvp]

/-- A call that changes nothing answers for nobody. -/
theorem AnsweredByAttendee.of_same {call : RsvpCall} (h : rsvpCall content rsvps call = rsvps) :
    AnsweredByAttendee content rsvps call := by
  refine ⟨?_, ?_, ?_, ?_⟩
  · intro row hrow hnone
    rw [h, Table.mem_rows_iff, hnone] at hrow
    cases hrow
  · intro row row' hrow hrow' _ _
    rw [h, hrow] at hrow'
    exact .inr (.inl (Option.some.inj hrow').symm)
  · intro row hrow hnone
    rw [h, hrow] at hnone
    cases hnone
  · intro row name contactMethods authToken hrow _
    rw [h]
    exact .inl hrow

/-- A call that updates the RSVP it is about answers for nobody but its caller. -/
theorem answered_of_update {before after : Rsvp} {call : RsvpCall}
    (hread : rsvps.get before.id = some before) (hid : after.id = before.id)
    (hcall : rsvpCall content rsvps call =
      rsvps.modify before.id after.over after.over_id)
    (huser : ∀ userId, before.attendee = .user userId → call.callerId = some userId ∨
      call.ByOwner content before.occasionId ∧ after = { before with moderation := after.moderation })
    (hanonymous : ∀ name contactMethods authToken,
      before.attendee = .anonymous name contactMethods authToken →
      call.request.authToken = some authToken) : AnsweredByAttendee content rsvps call := by
  have hget (id : Nat) : (rsvpCall content rsvps call).get id =
      if id = before.id then some after else rsvps.get id := by
    rw [hcall, Serial.get_modify]
    split
    · rename_i hsame
      rw [hsame, hread, Option.map_some, Rsvp.over_eq hid]
    · rfl
  refine ⟨?_, ?_, ?_, ?_⟩
  · intro row hrow hnone
    rw [Table.mem_rows_iff, hget] at hrow
    split at hrow
    · rename_i hsame
      rw [hsame, hread] at hnone
      cases hnone
    · rw [hnone] at hrow
      cases hrow
  · intro row row' hrow hrow' userId hattendee
    rw [hget] at hrow'
    split at hrow'
    · rename_i hsame
      obtain rfl := Option.some.inj ((hsame ▸ hrow).symm.trans hread)
      obtain rfl := Option.some.inj hrow'
      exact (huser userId hattendee).imp_right .inr
    · exact .inr (.inl (Option.some.inj (hrow'.symm.trans hrow)))
  · intro row hrow hnone
    rw [hget] at hnone
    split at hnone
    · cases hnone
    · rw [hrow] at hnone
      cases hnone
  · intro row name contactMethods authToken hrow hattendee
    rw [hget]
    split
    · rename_i hsame
      obtain rfl := Option.some.inj ((hsame ▸ hrow).symm.trans hread)
      exact .inr (hanonymous name contactMethods authToken hattendee)
    · exact .inl hrow

/-- A call that adds an RSVP answers for nobody but its caller if the RSVP does not. -/
theorem answered_of_insert {new : NewRsvp} {guests : Guests} {call : RsvpCall}
    (hcall : rsvpCall content rsvps call = rsvps.insert (new.row guests) (new.row_id guests)) :
    AnsweredByAttendee content rsvps call ↔ ∀ userId, new.attendee = .user userId →
      call.callerId = some userId ∨
        new.status = .requested ∧ new.invitingUserId = call.callerId ∧
          call.callerId.isSome = true := by
  constructor
  · intro h userId hattendee
    have hnew : new.row guests rsvps.next ∈ (rsvpCall content rsvps call).rows := by
      rw [hcall, Serial.rows_insert]
      exact List.mem_append_right _ List.mem_cons_self
    exact h.created _ hnew (by rw [NewRsvp.row_id]; exact rsvps.get_next) userId hattendee
  · intro h
    refine ⟨?_, ?_, ?_, ?_⟩
    · intro row hrow hnone
      rw [hcall, Serial.rows_insert] at hrow
      rcases List.mem_append.mp hrow with hold | hnew
      · rw [Table.mem_rows_iff.mp hold] at hnone
        cases hnone
      · obtain rfl := List.mem_singleton.mp hnew
        exact h
    · intro row row' hrow hrow' _ _
      rw [hcall, rsvps.get_insert_of_get (new.row guests) (new.row_id guests) hrow] at hrow'
      exact .inr (.inl (Option.some.inj hrow').symm)
    · intro row hrow hnone
      rw [hcall, rsvps.get_insert_of_get (new.row guests) (new.row_id guests) hrow] at hnone
      cases hnone
    · intro row name contactMethods authToken hrow _
      rw [hcall]
      exact .inl (rsvps.get_insert_of_get (new.row guests) (new.row_id guests) hrow)

/-- A stored attendee is the user the call names, or anonymous. -/
theorem storedAttendee_user {userId : Option Nat} {existing : Option Rsvp} {attendee : Attendee}
    {id : Nat} (h : storedAttendee request userId existing newToken = .ok attendee)
    (hattendee : attendee = .user id) : userId = some id := by
  subst hattendee
  unfold storedAttendee at h
  split at h
  · cases h
    rfl
  · cases h
  · cases h

/-- The user a call names as the attendee is the one of the request. -/
theorem attendeeUserId_eq_some {userId : Nat} (h : attendeeUserId user request = .ok (some userId)) :
    request.attendee = some (.user (some userId)) := by
  unfold attendeeUserId at h
  split at h
  · rename_i id hattendee
    obtain rfl := Option.some.inj (Except.ok.inj h)
    exact hattendee
  · cases h
  · cases h

/-- A call that names another user, who has no RSVP yet, answers in the name of that user. -/
theorem insert_of_answersForAnother
    (h : AnswersForAnother content rsvps (.upsert request user newToken)) :
    ∃ (new : NewRsvp) (guests : Guests) (userId : Nat), new.attendee = .user userId ∧
      user.map (·.id) ≠ some userId ∧ new.status ≠ .requested ∧
      rsvpCall content rsvps (.upsert request user newToken) =
        rsvps.insert (new.row guests) (new.row_id guests) := by
  obtain ⟨occasionId, target, userId, hoccasion, htarget, hattendee, hcaller, hexists, hnone,
    hallowed, hpos, hbound, hcheck⟩ := h
  let new := newRow request user target occasionId (some userId) (.user userId)
  let guests : Guests := ⟨request.numberOfGuests.toNat, hpos, hbound⟩
  have hguests : Guests.tryFrom new.numberOfGuests = some guests := dif_pos ⟨hpos, hbound⟩
  have htoken : request.authToken = none := by
    rw [RsvpRequest.authToken, hattendee]
  have hprepare : prepareUpsert content request user newToken rsvps = .ok (.insert new) := by
    simp only [prepareUpsert, checks_eq_ok, okOr_eq_ok, require_eq_ok]
    refine ⟨occasionId, hoccasion, (), hpos, target, htarget, some userId, ?_, .user userId, rfl, ?_⟩
    · rw [attendeeUserId, hattendee]
    · rw [htoken, hnone]
      simp only [checks_eq_ok, pure_eq_ok]
      exact ⟨new, newRsvp_eq_ok.mpr ⟨hallowed, rfl, rfl⟩, rfl⟩
  have hwrite : (Upsert.insert new).write content rsvps =
      .ok (rsvps.insert (new.row guests) (new.row_id guests), new.row guests rsvps.next) :=
    write_eq_ok.mpr ⟨guests, hguests, hexists, rfl, rfl⟩
  have hupsert : upsertRsvp content request user newToken rsvps =
      .ok (rsvps.insert (new.row guests) (new.row_id guests),
        (new.row guests rsvps.next).toProto true true) :=
    upsertRsvp_eq_ok.mpr ⟨_, hprepare, hcheck, _, hwrite, rfl⟩
  refine ⟨new, guests, userId, rfl, hcaller, newRow_not_requested _ _ _ hcaller, ?_⟩
  rw [rsvpCall, hupsert]

/-- An upsert that does not name another user without an RSVP answers for nobody but its caller. -/
theorem answered_upsert (h : ¬ AnswersForAnother content rsvps (.upsert request user newToken)) :
    AnsweredByAttendee content rsvps (.upsert request user newToken) := by
  cases hupsert : upsertRsvp content request user newToken rsvps with
  | error e =>
    apply AnsweredByAttendee.of_same
    rw [rsvpCall, hupsert]
  | ok result =>
    have hcall : rsvpCall content rsvps (.upsert request user newToken) = result.1 := by
      rw [rsvpCall, hupsert]
    obtain ⟨upsert, hprepare, hcheck, row, hwrite, _⟩ := upsertRsvp_eq_ok.mp hupsert
    obtain ⟨occasionId, target, userId, attendee, hoccasion, hguests, htarget, huser, hattendee,
      hplan⟩ := prepareUpsert_eq_ok hprepare
    cases hget : getRsvp rsvps occasionId userId request.authToken with
    | some before =>
      rw [hget] at hplan
      obtain ⟨after, hafter, rfl⟩ := hplan
      obtain ⟨hstored, hbefore, hbeforeUser, htoken⟩ := getRsvp_eq_some hget
      have hrows := (write_eq_ok.mp hwrite).1
      refine answered_of_update hstored (updatedRsvp_same hafter).1 (hcall.trans hrows.symm) ?_ ?_
      · intro id hid
        obtain rfl : userId = some id := by
          rw [← hbeforeUser, hid]
          rfl
        cases hown : isOwnRsvp user (some id) with
        | true => exact .inl (isOwnRsvp_iff.mp hown).2.symm
        | false =>
          obtain ⟨howner, hmoderated⟩ := owner_of_updatedRsvp hafter hown
          exact .inr ⟨⟨target, hbefore ▸ htarget, howner⟩, hmoderated⟩
      · intro name contactMethods authToken hanonymous
        have hnone : userId = none := by
          rw [← hbeforeUser, hanonymous]
          rfl
        have hpresented := htoken hnone
        rw [hanonymous] at hpresented
        exact hpresented.symm
    | none =>
      rw [hget] at hplan
      obtain ⟨new, hnew, rfl⟩ := hplan
      obtain ⟨guests, hvalue, hexists, hrows, _⟩ := write_eq_ok.mp hwrite
      obtain ⟨hallowed, _, rfl⟩ := newRsvp_eq_ok.mp hnew
      refine (answered_of_insert (hcall.trans hrows.symm)).mpr fun id hid => ?_
      obtain rfl := storedAttendee_user hattendee hid
      refine .inl (Decidable.byContradiction fun hother => h ?_)
      obtain rfl : attendee = .user id := hid
      have hbounds : 1 ≤ request.numberOfGuests.toNat ∧
          request.numberOfGuests.toNat < 2147483648 := by
        have hnumber : guests.value = request.numberOfGuests.toNat := Guests.value_of_tryFrom hvalue
        exact ⟨hnumber ▸ guests.pos, hnumber ▸ guests.bounded⟩
      exact ⟨occasionId, target, id, hoccasion, htarget, attendeeUserId_eq_some huser, hother,
        hexists, hget, hallowed, hbounds.1, hbounds.2, hcheck⟩

/-- A deletion deletes the RSVP of its caller, one that its caller owns the event of, or one whose
token it presents. -/
theorem answered_delete : AnsweredByAttendee content rsvps (.delete request user) := by
  cases hdelete : deleteRsvp content request user rsvps with
  | error e =>
    apply AnsweredByAttendee.of_same
    rw [rsvpCall, hdelete]
  | ok result =>
    have hcall : rsvpCall content rsvps (.delete request user) = result := by
      rw [rsvpCall, hdelete]
    simp only [deleteRsvp, findRsvpToDelete, checks_eq_ok, okOr_eq_ok, require_eq_ok,
      pure_eq_ok] at hdelete
    obtain ⟨_, ⟨occasionId, _, target, htarget, userId, huser, _, hallowed, found, hfound, rfl⟩,
      rfl⟩ := hdelete
    obtain ⟨hstored, hoccasion, hfoundUser, htoken⟩ := getRsvp_eq_some hfound
    have hget (row : Rsvp) (hrow : rsvps.get row.id = some row) (hne : row.id ≠ found.id) :
        (rsvpCall content rsvps (.delete request user)).get row.id = some row := by
      rw [hcall]
      refine (Table.get_delete rsvps.toTable _ _).trans ?_
      rw [hrow]
      simp [hne]
    have hkept (row row' : Rsvp)
        (h : (rsvpCall content rsvps (.delete request user)).get row.id = some row') :
        rsvps.get row.id = some row' := by
      rw [hcall] at h
      exact (Option.filter_eq_some_iff.mp
        ((Table.get_delete rsvps.toTable _ row.id).symm.trans h)).1
    have hsame (row : Rsvp) (hrow : rsvps.get row.id = some row) (hid : row.id = found.id) :
        row = found := Option.some.inj ((hid ▸ hrow).symm.trans hstored)
    refine ⟨?_, ?_, ?_, ?_⟩
    · intro row hrow hnone
      rw [hkept row row (Table.mem_rows_iff.mp hrow)] at hnone
      cases hnone
    · intro row row' hrow hrow' _ _
      exact .inr (.inl (Option.some.inj ((hkept row row' hrow').symm.trans hrow)))
    · intro row hrow hnone id hid
      have hfoundRow : row = found := by
        refine hsame row hrow (Decidable.byContradiction fun hne => ?_)
        rw [hget row hrow hne] at hnone
        cases hnone
      subst hfoundRow
      rw [hid] at hfoundUser
      obtain rfl : some id = userId := hfoundUser
      rw [Bool.or_eq_true, Bool.or_eq_true] at hallowed
      rcases hallowed with (howner | hown) | hnone
      · exact .inr ⟨target, hoccasion ▸ htarget, howner⟩
      · exact .inl (isOwnRsvp_iff.mp hown).2.symm
      · cases hnone
    · intro row name contactMethods authToken hrow hattendee
      by_cases hid : row.id = found.id
      · obtain rfl := hsame row hrow hid
        right
        have hnone : userId = none := by
          rw [← hfoundUser, hattendee]
          rfl
        have hpresented := htoken hnone
        rw [hattendee] at hpresented
        exact hpresented.symm
      · exact .inl (hget row hrow hid)

/-- A call answers for nobody but its caller exactly if it does not name another user without an
RSVP to the occasion. -/
theorem answeredByAttendee_iff (call : RsvpCall) :
    AnsweredByAttendee content rsvps call ↔ ¬ AnswersForAnother content rsvps call := by
  cases call with
  | delete request user => exact iff_of_true answered_delete not_false
  | upsert request user newToken =>
    refine ⟨fun hlaw hanother => ?_, answered_upsert⟩
    obtain ⟨new, guests, userId, hattendee, hcaller, hstatus, hcall⟩ :=
      insert_of_answersForAnother hanother
    rcases (answered_of_insert hcall).mp hlaw userId hattendee with hown | ⟨hrequested, _⟩
    · exact hcaller hown
    · exact hstatus hrequested

end

/-- For every run of upserts and deletions, nobody answers for somebody else if and only if no call
of it names another user who has no RSVP to the occasion yet. -/
theorem nobody_answers_for_another_iff (content : ContentDb) (rsvps : RsvpTable)
    (calls : List RsvpCall) :
    Along (rsvpCall content) (AnsweredByAttendee content) rsvps calls ↔
      Along (rsvpCall content) (fun rsvps call => ¬ AnswersForAnother content rsvps call) rsvps
        calls :=
  along_iff_of_invariant (I := fun _ => True) (fun _ _ _ _ => trivial)
    (fun _ call _ => answeredByAttendee_iff call) trivial calls

/-- Somebody who is not logged in makes a user come to a party. -/
theorem user_answered_for :
    ¬ ∀ (content : ContentDb) (rsvps : RsvpTable) (calls : List RsvpCall),
      Along (rsvpCall content) (AnsweredByAttendee content) rsvps calls := by
  intro h
  have hlaw := (h party .empty [.upsert (going (.user (some 2)) 1) none ""]).1
  have hgoing := hlaw.created ⟨1, 2, .user 2, .one, .going, none, "", "",
    .unmoderated⟩ (by decide +kernel) (by decide +kernel) 2 rfl
  exact absurd hgoing (by decide +kernel)

end Rellm.Rsvps
