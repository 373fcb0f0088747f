import Rellm.Foundation.Run
import Rellm.Rsvps.Edited

/-!
# The private token of an anonymous RSVP

An anonymous RSVP is given a token when it is created. Whatever others do, the token finds that RSVP
and no other, until the RSVP is deleted.
-/

namespace Rellm.Rsvps

open Foundation Content

/-- A call gives out no token that an RSVP has. -/
def RsvpCall.NewToken (rsvps : RsvpTable) : RsvpCall → Prop
  | .upsert _ _ newToken => ∀ row ∈ rsvps.rows, row.attendee.authToken ≠ some newToken
  | .delete _ _ => True

instance (call : RsvpCall) (rsvps : RsvpTable) : Decidable (call.NewToken rsvps) :=
  match call with
  | .upsert _ _ newToken =>
    inferInstanceAs (Decidable (∀ row ∈ rsvps.rows, row.attendee.authToken ≠ some newToken))
  | .delete _ _ => inferInstanceAs (Decidable True)

/-- An RSVP was deleted, or is there with its occasion and its token. -/
def KeptOrGone (row : Rsvp) (rsvps : RsvpTable) : Prop :=
  row.id < rsvps.next ∧ ∀ after, rsvps.get row.id = some after →
    after.occasionId = row.occasionId ∧ after.attendee.authToken = row.attendee.authToken

/-- As long as an RSVP is there, its token finds it. -/
def FoundByToken (row : Rsvp) (rsvps : RsvpTable) : Prop :=
  ∀ after, rsvps.get row.id = some after →
    getRsvp rsvps row.occasionId none row.attendee.authToken = some after

section

variable {content : ContentDb} {rsvps rsvps' : RsvpTable} {request : RsvpRequest}
variable {user : Option Content.User} {newToken : String} {reply : RsvpReply} {row : Rsvp}

/-- What a stored RSVP keeps of its attendee. -/
theorem authToken_of_storedAttendee {userId : Option Nat} {attendee : Attendee}
    (h : storedAttendee request userId (some row) newToken = .ok attendee)
    (huser : row.attendee.userId = userId) :
    attendee.authToken = row.attendee.authToken := by
  unfold storedAttendee at h
  cases hattendee : row.attendee with
  | user id =>
    rw [hattendee] at huser
    subst huser
    cases h
    rfl
  | anonymous name contactMethods token =>
    rw [hattendee] at huser
    subst huser
    dsimp only [Attendee.userId] at h
    split at h
    · contradiction
    · cases h
      simp [hattendee, Attendee.authToken]
    · cases h

/-- An RSVP is given no token, or the new one. -/
theorem authToken_of_newAttendee {userId : Option Nat} {attendee : Attendee}
    (h : storedAttendee request userId none newToken = .ok attendee) :
    attendee.authToken = none ∨ attendee.authToken = some newToken := by
  unfold storedAttendee at h
  split at h
  · cases h
    exact .inl rfl
  · cases h
    exact .inr rfl
  · cases h

/-- An upsert rewrites one RSVP, whose occasion and token stay, or adds one with a new token. -/
theorem upsertRsvp_cases (h : upsertRsvp content request user newToken rsvps = .ok (rsvps', reply)) :
    (rsvps'.next = rsvps.next ∧ ∃ before after, rsvps.get before.id = some before ∧
      after.id = before.id ∧ after.occasionId = before.occasionId ∧
      after.attendee.authToken = before.attendee.authToken ∧
      ∀ id, rsvps'.get id = if id = before.id then some after else rsvps.get id) ∨
    (rsvps'.next = rsvps.next + 1 ∧ ∃ new, new.id = rsvps.next ∧
      (new.attendee.authToken = none ∨ new.attendee.authToken = some newToken) ∧
      ∀ id, rsvps'.get id = if id = rsvps.next then some new else rsvps.get id) := by
  obtain ⟨upsert, hprepare, _, written, hwrite, _⟩ := upsertRsvp_eq_ok.mp h
  obtain ⟨occasionId, target, userId, attendee, _, _, _, _, hattendee, hplan⟩ :=
    prepareUpsert_eq_ok hprepare
  cases hget : getRsvp rsvps occasionId userId request.authToken with
  | some before =>
    rw [hget] at hplan hattendee
    obtain ⟨after, hafter, rfl⟩ := hplan
    obtain ⟨hstored, _, huser, _⟩ := getRsvp_eq_some hget
    obtain ⟨hid, hoccasion⟩ := updatedRsvp_same hafter
    have hrows : _ = rsvps' := (write_eq_ok.mp hwrite).1
    refine .inl ⟨?_, before, after, hstored, hid, hoccasion,
      authToken_of_updatedRsvp (authToken_of_storedAttendee hattendee huser) hafter, fun id => ?_⟩
    · rw [← hrows, Serial.next_modify]
    · rw [← hrows, Serial.get_modify]
      split
      · rename_i hsame
        rw [hsame, hstored, Option.map_some, Rsvp.over_eq hid]
      · rfl
  | none =>
    rw [hget] at hplan hattendee
    obtain ⟨new, hnew, rfl⟩ := hplan
    obtain ⟨guests, _, _, hrows, _⟩ := write_eq_ok.mp hwrite
    dsimp only at hrows
    obtain ⟨_, _, rfl⟩ := newRsvp_eq_ok.mp hnew
    have htoken := authToken_of_newAttendee hattendee
    refine .inr ⟨?_, (newRow request user target occasionId userId attendee).row guests rsvps.next,
      NewRsvp.row_id _ guests rsvps.next, htoken, fun id => ?_⟩
    · rw [← hrows, Serial.next_insert]
    · rw [← hrows, Serial.get_insert]

/-- New tokens keep the tokens distinct. -/
theorem DistinctTokens.upsert (h : DistinctTokens rsvps)
    (hnew : ∀ row ∈ rsvps.rows, row.attendee.authToken ≠ some newToken)
    (hok : upsertRsvp content request user newToken rsvps = .ok (rsvps', reply)) :
    DistinctTokens rsvps' := by
  obtain ⟨-, before, after, hstored, hid, hoccasion, htoken, hget⟩ | ⟨-, new, hid, htoken, hget⟩ :=
    upsertRsvp_cases hok
  · -- Each row has the occasion and the token of the row that it was.
    have hold {row : Rsvp} (hrow : rsvps'.get row.id = some row) :
        ∃ old, rsvps.get old.id = some old ∧ old.id = row.id ∧ old.occasionId = row.occasionId ∧
          old.attendee.authToken = row.attendee.authToken := by
      rw [hget] at hrow
      split at hrow
      · obtain rfl := Option.some.inj hrow
        exact ⟨before, hstored, hid.symm, hoccasion.symm, htoken.symm⟩
      · exact ⟨row, hrow, rfl, rfl, rfl⟩
    intro row other hrow hother hsame hsome heq
    obtain ⟨oldRow, holdRow, hidRow, hoccasionRow, htokenRow⟩ := hold hrow
    obtain ⟨oldOther, holdOther, hidOther, hoccasionOther, htokenOther⟩ := hold hother
    have hone := h oldRow oldOther holdRow holdOther
      (hoccasionRow.trans (hsame.trans hoccasionOther.symm)) (htokenRow ▸ hsome)
      (htokenRow.trans (heq.trans htokenOther.symm))
    rw [← hidRow, hone, hidOther, hother] at hrow
    exact (Option.some.inj hrow).symm
  · have hrow {row : Rsvp} (hrow : rsvps'.get row.id = some row) :
        rsvps.get row.id = some row ∨ row = new := by
      rw [hget] at hrow
      split at hrow
      · exact .inr (Option.some.inj hrow).symm
      · exact .inl hrow
    -- No RSVP that was there has the token that was given out.
    have hfresh {row : Rsvp} (hstored : rsvps.get row.id = some row)
        (hsome : row.attendee.authToken.isSome = true)
        (heq : row.attendee.authToken = new.attendee.authToken) : False := by
      rcases htoken with hnone | htoken
      · rw [heq, hnone] at hsome
        cases hsome
      · exact hnew row (Table.mem_rows_iff.mpr hstored) (heq.trans htoken)
    intro row other hrowGet hotherGet hsame hsome heq
    rcases hrow hrowGet with hrowOld | rfl
    · rcases hrow hotherGet with hotherOld | rfl
      · exact h row other hrowOld hotherOld hsame hsome heq
      · exact (hfresh hrowOld hsome heq).elim
    · rcases hrow hotherGet with hotherOld | rfl
      · exact (hfresh hotherOld (heq ▸ hsome) heq.symm).elim
      · rfl

theorem KeptOrGone.upsert (h : KeptOrGone row rsvps)
    (hok : upsertRsvp content request user newToken rsvps = .ok (rsvps', reply)) :
    KeptOrGone row rsvps' := by
  obtain ⟨hnext, before, after, hstored, hid, hoccasion, htoken, hget⟩ |
    ⟨hnext, new, hid, htoken, hget⟩ := upsertRsvp_cases hok
  · refine ⟨hnext ▸ h.1, fun found hfound => ?_⟩
    rw [hget] at hfound
    split at hfound
    · rename_i hsame
      obtain rfl := Option.some.inj hfound
      obtain ⟨hoccasion', htoken'⟩ := h.2 before (hsame ▸ hstored)
      exact ⟨hoccasion.trans hoccasion', htoken.trans htoken'⟩
    · exact h.2 found hfound
  · refine ⟨hnext ▸ Nat.lt_succ_of_lt h.1, fun found hfound => ?_⟩
    rw [hget, if_neg h.1.ne] at hfound
    exact h.2 found hfound

/-- A call keeps tokens distinct, and an RSVP with its token. -/
theorem tokens_rsvpCall (call : RsvpCall) (h : DistinctTokens rsvps ∧ KeptOrGone row rsvps)
    (hnew : call.NewToken rsvps) :
    DistinctTokens (rsvpCall content rsvps call) ∧ KeptOrGone row (rsvpCall content rsvps call) := by
  cases call with
  | upsert request user newToken =>
    rw [rsvpCall]
    split
    · rename_i hok
      exact ⟨h.1.upsert hnew hok, h.2.upsert hok⟩
    · exact h
  | delete request user =>
    rw [rsvpCall]
    split
    · rename_i hok
      obtain ⟨id, _, hdeleted⟩ := checks_eq_ok.mp hok
      obtain rfl := pure_eq_ok.mp hdeleted
      have hkept {id' : Nat} {found : Rsvp}
          (hfound : (rsvps.delete fun row => row.id = id).get id' = some found) :
          rsvps.get id' = some found := by
        rw [Serial.delete, Table.get_delete] at hfound
        exact (Option.filter_eq_some_iff.mp hfound).1
      refine ⟨fun found other hfound hother => h.1 found other (hkept hfound) (hkept hother),
        h.2.1, fun found hfound => h.2.2 found (hkept hfound)⟩
    · exact h

/-- In every run of calls that give out new tokens, the token of an anonymous RSVP finds the RSVP as long
as it is there, whatever becomes of it. -/
theorem token_finds_rsvp {calls : List RsvpCall} (htokens : DistinctTokens rsvps)
    (hnew : Along (rsvpCall content) (fun rsvps call => call.NewToken rsvps) rsvps calls)
    (hstored : rsvps.get row.id = some row) (hanonymous : row.attendee.authToken.isSome = true) :
    FoundByToken row (run (rsvpCall content) rsvps calls) := by
  have hinit : DistinctTokens rsvps ∧ KeptOrGone row rsvps := by
    refine ⟨htokens, rsvps.below row (Table.mem_rows_iff.mpr hstored), fun after hafter => ?_⟩
    obtain rfl := Option.some.inj (hstored.symm.trans hafter)
    exact ⟨rfl, rfl⟩
  obtain ⟨hdistinct, hkept⟩ := run_invariant
    (I := fun rsvps => DistinctTokens rsvps ∧ KeptOrGone row rsvps)
    (P := fun rsvps call => call.NewToken rsvps)
    (fun _ call h hnew => tokens_rsvpCall call h hnew) hinit hnew
  intro after hafter
  obtain ⟨hoccasion, htoken⟩ := hkept.2 after hafter
  obtain ⟨authToken, hauthToken⟩ := Option.isSome_iff_exists.mp hanonymous
  have hfound := hdistinct.getRsvp ((Table.key_of_get hafter).symm ▸ hafter) (htoken.trans hauthToken)
  rw [hoccasion] at hfound
  rw [hauthToken]
  exact hfound

end

/-- Bob's token finds his RSVP after he changed it and somebody else came and left. -/
theorem token_finds_rsvp_bob :
    FoundByToken bobsRsvp (run (rsvpCall party) bobsRsvps
      [.upsert bobsNote none "other-token", .upsert (going (.anonymous "Eve" [] none) 1) none "eves-token",
        .delete (going (.anonymous "Eve" [] (some "eves-token")) 1) none]) :=
  token_finds_rsvp distinctTokens_bobsRsvps (by decide +kernel) rfl rfl

end Rellm.Rsvps
