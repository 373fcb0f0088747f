import Rellm.Rsvps.Answers

/-!
# Editing an anonymous RSVP

Whoever presents the token of an anonymous RSVP edits it. A new name or public note is moderated
again, unless the caller owns the event: the owner moderates with the same call.
-/

namespace Rellm.Rsvps

open Foundation Content

/-- No two RSVPs to an occasion have one token. -/
def DistinctTokens (rsvps : RsvpTable) : Prop :=
  ∀ row other, rsvps.get row.id = some row → rsvps.get other.id = some other →
    row.occasionId = other.occasionId → row.attendee.authToken.isSome = true →
    row.attendee.authToken = other.attendee.authToken → row = other

/-- Whether a caller owns the event of an occasion that there is. -/
def ownsEventOf (content : ContentDb) (user : Option Content.User) (occasionId : Nat) : Bool :=
  (content.occasionContext occasionId).any (isEventOwner user)

/-- What of an RSVP is moderated: the moderation it is left with by a caller. -/
def moderatedBy (request : RsvpRequest) (isOwner : Bool) (moderation : Moderation) : Moderation :=
  if isOwner then ownerModeration request.moderation moderation else moderation

/-- A request has another name or public note than an anonymous RSVP. -/
def Rsvp.RewordedBy (request : RsvpRequest) (name : String) (row : Rsvp) : Prop :=
  row.attendee.name ≠ some name ∨ row.publicNote ≠ request.publicNote

/-- What an edit stores in any case. -/
structure AnswersStored (request : RsvpRequest) (name : String) (row after : Rsvp) : Prop where
  name_eq : after.attendee.name = some name
  publicNote_eq : after.publicNote = request.publicNote
  privateNote_eq : after.privateNote = request.privateNote
  status_eq : after.status = request.status
  numberOfGuests_eq : after.numberOfGuests.value = request.numberOfGuests.toNat
  authToken_eq : after.attendee.authToken = row.attendee.authToken

/-- What an edit makes of an anonymous RSVP; nothing is said of the contact methods, and of the
moderation, where the contact methods alone are others. -/
structure EditedAnonymous (request : RsvpRequest) (name : String)
    (contactMethods : List Users.ContactMethod) (isOwner : Bool) (row after : Rsvp) : Prop extends
    AnswersStored request name row after where
  contactMethods_eq : row.RewordedBy request name ∨ row.attendee.contactMethods = contactMethods →
    after.attendee.contactMethods = contactMethods
  reset : row.RewordedBy request name → after.moderation = moderatedBy request isOwner .pending
  kept : ¬ row.RewordedBy request name → row.attendee.contactMethods = contactMethods →
    after.moderation = moderatedBy request isOwner row.moderation

/-- An edit stores all of the request, and resets the moderation exactly if something that is
moderated is another. -/
structure EditedAsAsked (request : RsvpRequest) (name : String)
    (contactMethods : List Users.ContactMethod) (row after : Rsvp) : Prop extends
    AnswersStored request name row after where
  contactMethods_eq : after.attendee.contactMethods = contactMethods
  reset : row.RewordedBy request name ∨ row.attendee.contactMethods ≠ contactMethods →
    after.moderation = .pending
  kept : ¬ row.RewordedBy request name → row.attendee.contactMethods = contactMethods →
    after.moderation = row.moderation

section

variable {content : ContentDb} {rsvps rsvps' : RsvpTable} {request : RsvpRequest}
variable {user : Option Content.User} {newToken : String} {reply : RsvpReply}

/-- With distinct tokens, the RSVP that a token finds is the one that has it. -/
theorem DistinctTokens.getRsvp (h : DistinctTokens rsvps) {row : Rsvp} {authToken : String}
    (hstored : rsvps.get row.id = some row) (htoken : row.attendee.authToken = some authToken) :
    Rsvps.getRsvp rsvps row.occasionId none (some authToken) = some row := by
  cases hget : Rsvps.getRsvp rsvps row.occasionId none (some authToken) with
  | none =>
    have hnone := List.find?_eq_none.mp hget row (Table.mem_rows_iff.mpr hstored)
    simp [htoken] at hnone
  | some found =>
    obtain ⟨hfound, hoccasion, _, hpresented⟩ := getRsvp_eq_some hget
    congr 1
    refine (h row found hstored hfound hoccasion.symm ?_ ?_).symm
    · rw [htoken]
      rfl
    · rw [htoken, hpresented rfl]

/-- What becomes of an RSVP keeps its token. -/
theorem authToken_of_updatedRsvp {attendee : Attendee} {isOwner isOwn isAnonymous : Bool}
    {row after : Rsvp} (hattendee : attendee.authToken = row.attendee.authToken)
    (h : updatedRsvp request attendee isOwner isOwn isAnonymous row = .ok after) :
    after.attendee.authToken = row.attendee.authToken := by
  have hreset : (row.resetAnonymous request attendee isAnonymous).attendee.authToken =
      row.attendee.authToken := by
    unfold Rsvp.resetAnonymous
    split
    · exact hattendee
    · rfl
  have hmoderate : ((row.resetAnonymous request attendee isAnonymous).moderate request
      isOwner).attendee.authToken = row.attendee.authToken := by
    unfold Rsvp.moderate
    split
    · exact hreset
    · exact hreset
  obtain ⟨_, h⟩ := updatedRsvp_eq_ok.mp h
  split at h
  · obtain ⟨guests, _, rfl⟩ := h
    exact hmoderate
  · rw [← h]
    exact hmoderate

/-- What an edit of an anonymous RSVP makes of it. -/
theorem editedAnonymous_of_updatedRsvp {row after : Rsvp} {name : String} {isOwner isOwn : Bool}
    {contactMethods : List Users.ContactMethod} {authToken : String}
    (htoken : row.attendee.authToken = some authToken)
    (h : updatedRsvp request (.anonymous name contactMethods authToken) isOwner isOwn true row =
      .ok after) : EditedAnonymous request name contactMethods isOwner row after := by
  have hpresented : (Attendee.anonymous name contactMethods authToken).authToken =
      row.attendee.authToken := htoken.symm
  have hkeeps := authToken_of_updatedRsvp hpresented h
  obtain ⟨_, h⟩ := updatedRsvp_eq_ok.mp h
  rw [if_pos (Bool.or_true _)] at h
  obtain ⟨guests, hguests, rfl⟩ := h
  have hmoderation (row : Rsvp) : (row.moderate request isOwner).moderation =
      moderatedBy request isOwner row.moderation := by
    unfold Rsvp.moderate moderatedBy
    split <;> rfl
  have hattendee (row : Rsvp) : (row.moderate request isOwner).attendee = row.attendee := by
    unfold Rsvp.moderate
    split <;> rfl
  by_cases hreworded : row.RewordedBy request name
  · have hreset : row.resetAnonymous request (.anonymous name contactMethods authToken) true =
        { row with attendee := .anonymous name contactMethods authToken, moderation := .pending } :=
      if_pos ⟨rfl, hreworded.symm.imp_right Ne.symm⟩
    rw [hreset] at hkeeps ⊢
    refine ⟨⟨?_, rfl, rfl, rfl, Guests.value_of_tryFrom hguests, hkeeps⟩, ?_, ?_, ?_⟩
    · rw [Rsvp.answer, hattendee]
      rfl
    · intro _
      rw [Rsvp.answer, hattendee]
      rfl
    · exact fun _ => hmoderation _
    · exact fun hsame => absurd hreworded hsame
  · have hreset : row.resetAnonymous request (.anonymous name contactMethods authToken) true = row :=
      if_neg fun hanew => hreworded (hanew.2.symm.imp_left Ne.symm)
    rw [hreset] at hkeeps ⊢
    refine ⟨⟨?_, rfl, rfl, rfl, Guests.value_of_tryFrom hguests, hkeeps⟩, ?_, ?_, ?_⟩
    · rw [Rsvp.answer, hattendee]
      exact not_not.mp fun hname => hreworded (.inl hname)
    · intro hsame
      rw [Rsvp.answer, hattendee]
      exact hsame.resolve_left hreworded
    · exact fun hanew => absurd hanew hreworded
    · exact fun _ _ => hmoderation row

end

def bobsEmail : Users.ContactMethod := { value := some "mailto:bob@example.com" }

/-- Bob goes to the party without an account. -/
def bobsRsvp : Rsvp where
  id := 1
  occasionId := 2
  attendee := .anonymous "Bob" [] "bobs-token"
  numberOfGuests := .one
  status := .going
  invitingUserId := none
  publicNote := ""
  privateNote := ""
  moderation := .pending

def bobsRsvps : RsvpTable := ⟨⟨[bobsRsvp], by decide⟩, 2, by decide⟩

theorem distinctTokens_bobsRsvps : DistinctTokens bobsRsvps := by
  intro row other hrow hother _ _ _
  have hbob := List.mem_singleton.mp (Table.mem_rows_iff.mpr hrow)
  have hbob' := List.mem_singleton.mp (Table.mem_rows_iff.mpr hother)
  rw [hbob, hbob']

/-- A request that presents Bob's token. -/
def bobsRequest (contactMethods : List Users.ContactMethod) (moderation : Moderation) :
    RsvpRequest :=
  { going (.anonymous "Bob" contactMethods (some "bobs-token")) 1 with moderation := moderation }

def bobsNote : RsvpRequest :=
  { bobsRequest [bobsEmail] .unknown with publicNote := "With cake" }

def bobsRsvpNoted : Rsvp :=
  { bobsRsvp with
    attendee := .anonymous "Bob" [bobsEmail] "bobs-token"
    publicNote := "With cake" }

/-- Whoever presents the token of an anonymous RSVP edits it; where that is the owner of the event,
the owner moderates it. -/
theorem anonymous_edited (content : ContentDb) (rsvps rsvps' : RsvpTable) (row : Rsvp)
    (request : RsvpRequest) (user : Option Content.User) (newToken name authToken : String)
    (contactMethods : List Users.ContactMethod) (reply : RsvpReply) (htokens : DistinctTokens rsvps)
    (hstored : rsvps.get row.id = some row) (htoken : row.attendee.authToken = some authToken)
    (hoccasion : request.occasionId = some row.occasionId)
    (hattendee : request.attendee = some (.anonymous name contactMethods (some authToken)))
    (hok : upsertRsvp content request user newToken rsvps = .ok (rsvps', reply)) :
    ∃ after, rsvps'.get row.id = some after ∧
      EditedAnonymous request name contactMethods (ownsEventOf content user row.occasionId) row
        after := by
  obtain ⟨upsert, hprepare, _, written, hwrite, _⟩ := upsertRsvp_eq_ok.mp hok
  obtain ⟨occasionId, target, userId, attendee, hid, _, htarget, huser, hattendeeStored, hplan⟩ :=
    prepareUpsert_eq_ok hprepare
  obtain rfl := Option.some.inj (hoccasion.symm.trans hid)
  have hnone : userId = none := by
    rw [attendeeUserId, hattendee] at huser
    exact (Except.ok.inj huser).symm
  subst hnone
  have hpresented : request.authToken = some authToken := by
    rw [RsvpRequest.authToken, hattendee]
  have hget := htokens.getRsvp hstored htoken
  rw [hpresented, hget] at hplan hattendeeStored
  obtain ⟨after, hafter, rfl⟩ := hplan
  have hanonymous : attendee = .anonymous name contactMethods authToken := by
    simp only [storedAttendee, hattendee, Option.bind_some, htoken] at hattendeeStored
    exact (Except.ok.inj hattendeeStored).symm
  rw [hanonymous] at hafter
  have howner : ownsEventOf content user row.occasionId = isEventOwner user target := by
    rw [ownsEventOf, htarget, Option.any_some]
  refine ⟨after, ?_, howner ▸ editedAnonymous_of_updatedRsvp htoken hafter⟩
  have hrows : _ = rsvps' := (write_eq_ok.mp hwrite).1
  rw [← hrows, Serial.get_modify, if_pos rfl, hstored, Option.map_some,
    Rsvp.over_eq (updatedRsvp_same hafter).1]

/-- A request with a new note and new contact methods, of somebody who does not own the event. -/
theorem anonymous_edited_bobsNote :
    ∃ after, (bobsRsvps.modify 1 bobsRsvpNoted.over (Rsvp.over_id _)).get 1 = some after ∧
      EditedAnonymous bobsNote "Bob" [bobsEmail] (ownsEventOf party none 2) bobsRsvp after :=
  anonymous_edited party bobsRsvps _ bobsRsvp bobsNote none "other-token" "Bob" "bobs-token"
    [bobsEmail] _ distinctTokens_bobsRsvps rfl rfl rfl rfl rfl

/-- One request that presents the token of an RSVP has all of it stored. -/
def EditsAsAsked (content : ContentDb) (rsvps : RsvpTable) (request : RsvpRequest)
    (user : Option Content.User) (newToken : String) : Prop :=
  ∀ (rsvps' : RsvpTable) (row : Rsvp) (name authToken : String)
    (contactMethods : List Users.ContactMethod) (reply : RsvpReply), DistinctTokens rsvps →
    rsvps.get row.id = some row → row.attendee.authToken = some authToken →
    request.occasionId = some row.occasionId →
    request.attendee = some (.anonymous name contactMethods (some authToken)) →
    upsertRsvp content request user newToken rsvps = .ok (rsvps', reply) →
    ∃ after, rsvps'.get row.id = some after ∧
      EditedAsAsked request name contactMethods row after

/-- The owner of the event approves an RSVP by an edit, and new contact methods alone are lost. -/
theorem not_editsAsAsked :
    ¬ EditsAsAsked party bobsRsvps (bobsRequest [] .approved) (some (guest 1)) "other-token" ∧
      ¬ EditsAsAsked party bobsRsvps (bobsRequest [bobsEmail] .unknown) none "other-token" := by
  constructor
  · intro h
    obtain ⟨after, hget, hedited⟩ := h
      (bobsRsvps.modify 1 ({ bobsRsvp with moderation := .approved } : Rsvp).over (Rsvp.over_id _))
      bobsRsvp "Bob" "bobs-token" [] _ distinctTokens_bobsRsvps rfl rfl rfl rfl rfl
    obtain rfl := Option.some.inj hget
    have hsame : ¬ bobsRsvp.RewordedBy (bobsRequest [] .approved) "Bob" := by
      rintro (hname | hnote)
      · exact hname rfl
      · exact hnote rfl
    cases hedited.kept hsame rfl
  · intro h
    obtain ⟨after, hget, hedited⟩ := h
      (bobsRsvps.modify 1 bobsRsvp.over (Rsvp.over_id _))
      bobsRsvp "Bob" "bobs-token" [bobsEmail] _ distinctTokens_bobsRsvps rfl rfl rfl rfl rfl
    obtain rfl := Option.some.inj hget
    cases hedited.contactMethods_eq

end Rellm.Rsvps
