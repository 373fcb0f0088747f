import Rellm.Foundation.Run
import Rellm.Rsvps.Upsert

/-!
# The attendee limit under interleaving

The statements of upserts and deletions interleave; an upsert holds the row lock of its
occasion from before it reads the RSVP until it has written. What a checked upsert adds
fits, and goes on to fit: others can only take guests away before it writes.
-/

namespace Rellm.Rsvps

open Foundation Content

/-- An upsert that holds the lock of its occasion, and whether it has passed the check. -/
structure InFlight where
  upsert : Upsert
  checked : Bool
  deriving DecidableEq, Repr

/-- The table, the upserts in flight by the occasion they have locked, and the RSVPs that calls
are about to delete. -/
structure RsvpState where
  rsvps : RsvpTable
  inFlight : HashMap Nat InFlight
  deleting : List Nat

/-- What a write leaves of the table. -/
def Upsert.written (content : ContentDb) (rsvps : RsvpTable) (upsert : Upsert) : RsvpTable :=
  match upsert.write content rsvps with
  | .ok (rsvps, _) => rsvps
  | .error _ => rsvps

/-- No call is in flight. -/
def RsvpState.idle (rsvps : RsvpTable) : RsvpState := ⟨rsvps, .empty, []⟩

/-- What happens: an upsert takes the lock and reads, is checked, or writes; a deletion finds its
RSVP, or deletes it. -/
inductive RsvpEvent where
  | read (request : RsvpRequest) (user : Option Content.User) (newToken : String)
  | check (occasionId : Nat)
  | write (occasionId : Nat)
  | find (request : RsvpRequest) (user : Option Content.User)
  | delete (id : Nat)

section

variable (content : ContentDb)

/-- What an event makes of the state; an upsert that cannot have the lock waits. -/
def rsvpStep (s : RsvpState) : RsvpEvent → RsvpState
  | .read request user newToken =>
    if request.occasionId.any fun id => (s.inFlight.value id).isSome then s
    else match prepareUpsert content request user newToken s.rsvps with
      | .ok upsert => { s with inFlight := s.inFlight.put (upsert.occasionId, ⟨upsert, false⟩) }
      | .error _ => s
  | .check occasionId =>
    match s.inFlight.value occasionId with
    | some ⟨upsert, false⟩ =>
      match upsert.check content s.rsvps with
      | .ok _ => { s with inFlight := s.inFlight.put (occasionId, ⟨upsert, true⟩) }
      | .error _ => { s with inFlight := s.inFlight.delete fun entry => entry.1 = occasionId }
    | _ => s
  | .write occasionId =>
    match s.inFlight.value occasionId with
    | some ⟨upsert, true⟩ =>
      { s with
        rsvps := upsert.written content s.rsvps
        inFlight := s.inFlight.delete fun entry => entry.1 = occasionId }
    | _ => s
  | .find request user =>
    match findRsvpToDelete content request user s.rsvps with
    | .ok id => { s with deleting := id :: s.deleting }
    | .error _ => s
  | .delete id =>
    if id ∈ s.deleting then
      { s with
        rsvps := s.rsvps.delete fun row => row.id = id
        deleting := s.deleting.erase id }
    else s

end

section

variable {rsvps : RsvpTable} {occasionId : Nat} {before after : Rsvp}

/-- Leaving an RSVP out does not add to the guests. -/
theorem taken_except_le (excluding : Option Nat) :
    taken rsvps occasionId excluding ≤ taken rsvps occasionId none := by
  apply List.sum_le_sum
  intro row _
  unfold Rsvp.counted
  split
  · rename_i h
    rw [if_pos ⟨h.1, h.2.1, Option.some_ne_none _⟩]
  · exact Nat.zero_le _

/-- Leaving a stored RSVP out takes its guests away. -/
theorem taken_except (occasionId : Nat) (h : rsvps.get before.id = some before) :
    taken rsvps occasionId (some before.id) + before.counted occasionId none =
      taken rsvps occasionId none := by
  have hsum := rsvps.sum_split (Rsvp.counted occasionId none)
    (Rsvp.counted occasionId (some before.id)) h fun other hother => by
      simp [Rsvp.counted, hother]
  have hself : before.counted occasionId (some before.id) = 0 := by
    simp [Rsvp.counted]
  rw [hself] at hsum
  exact hsum

/-- An update changes the guests by what becomes of the RSVP. -/
theorem taken_update (occasionId : Nat) (h : rsvps.get before.id = some before)
    (hid : after.id = before.id) (excluding : Option Nat) :
    taken (rsvps.modify before.id after.over after.over_id) occasionId excluding +
        before.counted occasionId excluding =
      taken rsvps occasionId excluding + after.counted occasionId excluding := by
  have hsum := rsvps.sum_modify after.over after.over_id (Rsvp.counted occasionId excluding) h
  rw [Rsvp.over_eq hid] at hsum
  exact hsum

/-- An RSVP to another occasion is not counted. -/
theorem counted_of_ne {row : Rsvp} (h : row.occasionId ≠ occasionId) (excluding : Option Nat) :
    row.counted occasionId excluding = 0 :=
  if_neg fun hcounted => h hcounted.1

/-- Deletions do not add to the guests. -/
theorem taken_delete_le (p : Rsvp → Bool) (excluding : Option Nat) :
    taken (rsvps.delete p) occasionId excluding ≤ taken rsvps occasionId excluding :=
  rsvps.sum_delete_le p _

/-- An upsert in flight has locked its occasion: the RSVP it has read is still as it was read, if
it is still there. -/
def Upsert.Held (rsvps : RsvpTable) (occasionId : Nat) : Upsert → Prop
  | update before after =>
    before.occasionId = occasionId ∧ after.occasionId = occasionId ∧ after.id = before.id ∧
      before.id < rsvps.next ∧ ∀ row, rsvps.get before.id = some row → row = before
  | insert new => new.occasionId = occasionId

/-- What an upsert writes fits: it takes no more guests than before, or there is room for them. -/
def Upsert.Fits (rsvps : RsvpTable) (occasionId limit : Nat) : Upsert → Prop
  | update before after =>
    after.counted occasionId none ≤ before.counted occasionId none ∨
      taken rsvps occasionId (some before.id) + after.counted occasionId none ≤ limit
  | insert new => countsTowardLimit new.status new.moderation = true →
    taken rsvps occasionId none + new.numberOfGuests.toNat ≤ limit

namespace Upsert

variable {upsert other : Upsert} {limit otherId : Nat} {content : ContentDb}

/-- A deletion does not disturb an upsert in flight. -/
theorem Held.delete (h : upsert.Held rsvps occasionId) (p : Rsvp → Bool) :
    upsert.Held (rsvps.delete p) occasionId := by
  cases upsert with
  | insert new => exact h
  | update before after =>
    obtain ⟨hbefore, hafter, hid, hnext, hrow⟩ := h
    refine ⟨hbefore, hafter, hid, hnext, ?_⟩
    intro row hget
    have hold : rsvps.get before.id = some row := by
      have hfilter : (rsvps.get before.id).filter (fun row => !p row) = some row :=
        (Table.get_delete rsvps.toTable p before.id).symm.trans hget
      exact (Option.filter_eq_some_iff.mp hfilter).1
    exact hrow row hold

/-- What fits goes on to fit where guests are taken away. -/
theorem Fits.mono {rsvps' : RsvpTable} (h : upsert.Fits rsvps occasionId limit)
    (hle : ∀ excluding, taken rsvps' occasionId excluding ≤ taken rsvps occasionId excluding) :
    upsert.Fits rsvps' occasionId limit := by
  cases upsert with
  | update before after =>
    rcases h with hless | hroom
    · exact .inl hless
    · have hexcept := hle (some before.id)
      exact .inr (by omega)
  | insert new =>
    intro hcounts
    have hroom := h hcounts
    have htotal := hle none
    omega

/-- A new RSVP is written under the next id, if it is. -/
theorem written_insert (content : ContentDb) (rsvps : RsvpTable) (new : NewRsvp) :
    (insert new).written content rsvps = rsvps ∨
      ∃ guests, Guests.tryFrom new.numberOfGuests = some guests ∧
        (insert new).written content rsvps = rsvps.insert (new.row guests) (new.row_id guests) := by
  rw [written]
  split
  · rename_i rsvps' row hwrite
    simp only [write, checks_eq_ok, okOr_eq_ok, require_eq_ok, pure_eq_ok] at hwrite
    obtain ⟨guests, hguests, _, _, hrows⟩ := hwrite
    exact .inr ⟨guests, hguests, (Prod.mk.inj hrows).1.symm⟩
  · exact .inl rfl

/-- A write for an occasion leaves the guests of another. -/
theorem taken_written (h : upsert.Held rsvps otherId) (hne : otherId ≠ occasionId)
    (excluding : Option Nat) :
    taken (upsert.written content rsvps) occasionId excluding =
      taken rsvps occasionId excluding := by
  cases upsert with
  | update before after =>
    obtain ⟨hbefore, hafter, hid, _, hrow⟩ := h
    cases hget : rsvps.get before.id with
    | none =>
      exact congrArg (fun rows => (rows.map (Rsvp.counted occasionId excluding)).sum)
        (rsvps.rows_modify_of_get_none _ _ hget)
    | some row =>
      rw [hrow row hget] at hget
      have hsum := taken_update occasionId hget hid excluding
      rw [counted_of_ne (hbefore ▸ hne), counted_of_ne (hafter ▸ hne)] at hsum
      exact hsum
  | insert new =>
    rcases written_insert content rsvps new with hsame | ⟨guests, _, hnew⟩
    · rw [hsame]
    · have hother : (new.row guests rsvps.next).occasionId ≠ occasionId := by
        rw [new.row_occasionId, show new.occasionId = otherId from h]
        exact hne
      rw [hnew, taken, rsvps.sum_insert, counted_of_ne hother, taken, Nat.add_zero]

/-- A write for an occasion does not disturb an upsert in flight for another. -/
theorem Held.written (h : upsert.Held rsvps occasionId) (hother : other.Held rsvps otherId)
    (hne : otherId ≠ occasionId) : upsert.Held (other.written content rsvps) occasionId := by
  cases upsert with
  | insert new => exact h
  | update before after =>
    obtain ⟨hbefore, hafter, hid, hnext, hrow⟩ := h
    refine ⟨hbefore, hafter, hid, ?_⟩
    cases other with
    | update otherBefore otherAfter =>
      refine ⟨hnext, fun row hget => hrow row ?_⟩
      obtain ⟨hotherBefore, _, _, _, hotherRow⟩ := hother
      have hmodified := rsvps.get_modify otherAfter.over otherAfter.over_id otherBefore.id before.id
      by_cases hsame : before.id = otherBefore.id
      · rw [if_pos hsame] at hmodified
        obtain ⟨old, hold, _⟩ := Option.map_eq_some_iff.mp (hmodified.symm.trans hget)
        have hread := hotherRow old (hsame ▸ hold)
        have hoccasion : otherBefore.occasionId = before.occasionId := by
          rw [← hread, hrow old hold]
        exact absurd (hotherBefore.symm.trans (hoccasion.trans hbefore)) hne
      · rw [if_neg hsame] at hmodified
        exact hmodified.symm.trans hget
    | insert new =>
      rcases written_insert content rsvps new with hsame | ⟨guests, _, hnew⟩
      · rw [hsame]
        exact ⟨hnext, hrow⟩
      · rw [hnew]
        refine ⟨Nat.lt_succ_of_lt hnext, fun row hget => hrow row ?_⟩
        rw [Serial.get_insert, if_neg (Nat.ne_of_lt hnext)] at hget
        exact hget

/-- What fits keeps within the limit when it is written. -/
theorem Fits.written (h : upsert.Fits rsvps occasionId limit) (hheld : upsert.Held rsvps occasionId)
    (htotal : taken rsvps occasionId none ≤ limit) :
    taken (upsert.written content rsvps) occasionId none ≤ limit := by
  cases upsert with
  | update before after =>
    obtain ⟨_, _, hid, _, hrow⟩ := hheld
    cases hget : rsvps.get before.id with
    | none =>
      have hsame : taken ((update before after).written content rsvps) occasionId none =
          taken rsvps occasionId none :=
        congrArg (fun rows => (rows.map (Rsvp.counted occasionId none)).sum)
          (rsvps.rows_modify_of_get_none _ _ hget)
      rw [hsame]
      exact htotal
    | some row =>
      rw [hrow row hget] at hget
      have hsum : taken ((update before after).written content rsvps) occasionId none +
          before.counted occasionId none =
            taken rsvps occasionId none + after.counted occasionId none :=
        taken_update occasionId hget hid none
      have hexcept := taken_except occasionId hget
      rcases h with hless | hroom <;> omega
  | insert new =>
    rcases written_insert content rsvps new with hsame | ⟨guests, hguests, hnew⟩
    · rw [hsame]
      exact htotal
    · rw [hnew, taken, rsvps.sum_insert, ← taken]
      have hvalue := Guests.value_of_tryFrom hguests
      unfold Rsvp.counted
      split
      · rename_i hcounts
        have hroom := h hcounts.2.1
        rw [show (new.row guests rsvps.next).numberOfGuests = guests from rfl, hvalue]
        exact hroom
      · exact htotal

end Upsert

/-- Every upsert in flight has locked its occasion, and what has passed the check fits. -/
structure RsvpState.Within (s : RsvpState) (occasionId limit : Nat) : Prop where
  total : taken s.rsvps occasionId none ≤ limit
  held : ∀ id call, s.inFlight.value id = some call → call.upsert.Held s.rsvps id
  fits : ∀ upsert, s.inFlight.value occasionId = some ⟨upsert, true⟩ →
    upsert.Fits s.rsvps occasionId limit

end

section

variable {content : ContentDb} {s : RsvpState} {occasionId : Nat} {limit : UInt32}

/-- Within the limit the check does not overflow. -/
theorem check_arithmetic {rsvps : RsvpTable} (h : taken rsvps occasionId none ≤ limit.toNat)
    (excluding : Option Nat) {guests : Nat} (hguests : guests < 2 ^ 32) :
    (Int64.ofNat (taken rsvps occasionId excluding) + Int64.ofNat guests).toInt =
      taken rsvps occasionId excluding + guests := by
  have hlimit := limit.toNat_lt
  have hexcept : taken rsvps occasionId excluding ≤ taken rsvps occasionId none :=
    taken_except_le excluding
  rw [Int64.toInt_add, Int64.toInt_ofNat_of_lt (by omega), Int64.toInt_ofNat_of_lt (by omega)]
  rw [Int.bmod_eq_of_le] <;> omega

/-- Within the limit the check is passed only where there is room. -/
theorem room_of_check {rsvps : RsvpTable} (h : taken rsvps occasionId none ≤ limit.toNat)
    {excluding : Option Nat} {guests : Nat} (hguests : guests < 2 ^ 32)
    (hcheck : checkAttendeeLimit (some limit) rsvps occasionId excluding guests = .ok ()) :
    taken rsvps occasionId excluding + guests ≤ limit.toNat := by
  have hsum := check_arithmetic h excluding hguests
  have hlimit := limit.toNat_lt
  unfold checkAttendeeLimit at hcheck
  dsimp only at hcheck
  split at hcheck
  · cases hcheck
  · split at hcheck
    · cases hcheck
    · rename_i hroom
      rw [Int64.lt_iff_toInt_lt, hsum, Int64.toInt_ofNat_of_lt (by omega)] at hroom
      omega

/-- The guests of an RSVP to the occasion count if its status and moderation say so. -/
theorem counted_of_eq {row : Rsvp} (h : row.occasionId = occasionId) :
    row.counted occasionId none =
      if countsTowardLimit row.status row.moderation then row.numberOfGuests.value else 0 := by
  simp [Rsvp.counted, h]

/-- What passes the check fits. -/
theorem fits_of_check {rsvps : RsvpTable} {upsert : Upsert}
    (hlimit : attendeeLimit content occasionId = some limit)
    (htotal : taken rsvps occasionId none ≤ limit.toNat) (hheld : upsert.Held rsvps occasionId)
    (hcheck : upsert.check content rsvps = .ok ()) :
    upsert.Fits rsvps occasionId limit.toNat := by
  cases upsert with
  | update before after =>
    obtain ⟨hbefore, hafter, _⟩ := hheld
    rw [Upsert.check, hbefore, hlimit] at hcheck
    unfold Upsert.Fits
    dsimp only
    rw [counted_of_eq hafter, counted_of_eq hbefore]
    split at hcheck
    · right
      have hroom := room_of_check htotal (by have := after.numberOfGuests.bounded; omega) hcheck
      split <;> omega
    · rename_i hunchecked
      left
      cases hcounts : countsTowardLimit after.status after.moderation with
      | false => exact Nat.zero_le _
      | true =>
        cases hbefore : countsTowardLimit before.status before.moderation with
        | false => simp [hcounts, hbefore] at hunchecked
        | true =>
          have hless : ¬ before.numberOfGuests.value < after.numberOfGuests.value := by
            simpa [hcounts, hbefore] using hunchecked
          rw [if_pos rfl, if_pos rfl]
          omega
  | insert new =>
    intro hcounts
    rw [Upsert.check, if_pos hcounts, show new.occasionId = occasionId from hheld, hlimit] at hcheck
    exact room_of_check htotal new.numberOfGuests.toNat_lt hcheck

/-- An upsert that has read the RSVP it is about holds the occasion of its request. -/
theorem held_of_prepare {request : RsvpRequest} {user : Option Content.User} {newToken : String}
    {rsvps : RsvpTable} {upsert : Upsert}
    (h : prepareUpsert content request user newToken rsvps = .ok upsert) :
    request.occasionId = some upsert.occasionId ∧ upsert.Held rsvps upsert.occasionId := by
  obtain ⟨id, target, userId, attendee, hid, _, _, _, _, hupsert⟩ := prepareUpsert_eq_ok h
  cases hget : getRsvp rsvps id userId request.authToken with
  | some row =>
    rw [hget] at hupsert
    obtain ⟨after, hafter, rfl⟩ := hupsert
    obtain ⟨hstored, hoccasion, _⟩ := getRsvp_eq_some hget
    obtain ⟨hsame, hsameOccasion⟩ := updatedRsvp_same hafter
    refine ⟨hid.trans (congrArg some hoccasion.symm), rfl, hsameOccasion, hsame, ?_, ?_⟩
    · exact rsvps.below row (Table.get_eq_some_iff.mp hstored).1
    · intro other hother
      exact Option.some.inj (hother.symm.trans hstored)
  | none =>
    rw [hget] at hupsert
    obtain ⟨new, hnew, rfl⟩ := hupsert
    obtain ⟨_, _, rfl⟩ := newRsvp_eq_ok.mp hnew
    exact ⟨hid, rfl⟩

namespace RsvpState.Within

variable {limit' : Nat}

/-- An upsert that takes a free lock is not checked yet. -/
theorem put_unchecked (h : s.Within occasionId limit') {upsert : Upsert} {id : Nat}
    (hheld : upsert.Held s.rsvps id) :
    RsvpState.Within { s with inFlight := s.inFlight.put (id, ⟨upsert, false⟩) } occasionId
      limit' := by
  refine ⟨h.total, ?_, ?_⟩
  · intro other call hcall
    rw [HashMap.value_put] at hcall
    split at hcall
    · rename_i hsame
      rw [← Option.some.inj hcall, hsame]
      exact hheld
    · exact h.held other call hcall
  · intro other hother
    rw [HashMap.value_put] at hother
    split at hother
    · cases Option.some.inj hother
    · exact h.fits other hother

/-- A checked upsert that fits goes on to be in flight. -/
theorem put_checked (h : s.Within occasionId limit') {upsert : Upsert} {id : Nat}
    (hheld : upsert.Held s.rsvps id)
    (hfits : id = occasionId → upsert.Fits s.rsvps occasionId limit') :
    RsvpState.Within { s with inFlight := s.inFlight.put (id, ⟨upsert, true⟩) } occasionId
      limit' := by
  refine ⟨h.total, ?_, ?_⟩
  · intro other call hcall
    rw [HashMap.value_put] at hcall
    split at hcall
    · rename_i hsame
      rw [← Option.some.inj hcall, hsame]
      exact hheld
    · exact h.held other call hcall
  · intro other hother
    rw [HashMap.value_put] at hother
    split at hother
    · rename_i hsame
      cases Option.some.inj hother
      exact hfits hsame.symm
    · exact h.fits other hother

/-- An upsert that has ended releases its lock. -/
theorem release (h : s.Within occasionId limit') (id : Nat) :
    RsvpState.Within { s with inFlight := s.inFlight.delete fun entry => entry.1 = id } occasionId
      limit' := by
  refine ⟨h.total, ?_, ?_⟩
  · intro other call hcall
    rw [HashMap.value_delete_key] at hcall
    split at hcall
    · cases hcall
    · exact h.held other call hcall
  · intro other hother
    rw [HashMap.value_delete_key] at hother
    split at hother
    · cases hother
    · exact h.fits other hother

/-- An upsert that is written keeps within the limit. -/
theorem write (h : s.Within occasionId limit') {upsert : Upsert} {id : Nat}
    (hcall : s.inFlight.value id = some ⟨upsert, true⟩) :
    RsvpState.Within { s with
      rsvps := upsert.written content s.rsvps
      inFlight := s.inFlight.delete fun entry => entry.1 = id } occasionId limit' := by
  have hheld := h.held id _ hcall
  refine ⟨?_, ?_, ?_⟩
  · by_cases hid : id = occasionId
    · subst hid
      exact (h.fits upsert hcall).written hheld h.total
    · exact (Upsert.taken_written hheld hid none).le.trans h.total
  · intro other call hother
    rw [HashMap.value_delete_key] at hother
    split at hother
    · cases hother
    · rename_i hne
      exact (h.held other call hother).written hheld fun heq => hne heq.symm
  · intro other hother
    rw [HashMap.value_delete_key] at hother
    split at hother
    · cases hother
    · rename_i hne
      exact (h.fits other hother).mono fun excluding =>
        (Upsert.taken_written hheld (fun heq => hne heq.symm) excluding).le

/-- A deletion keeps within the limit. -/
theorem delete (h : s.Within occasionId limit') (p : Rsvp → Bool) (deleting : List Nat) :
    RsvpState.Within { s with rsvps := s.rsvps.delete p, deleting := deleting } occasionId
      limit' where
  total := (taken_delete_le p none).trans h.total
  held id call hcall := (h.held id call hcall).delete p
  fits upsert hupsert := (h.fits upsert hupsert).mono fun excluding => taken_delete_le p excluding

end RsvpState.Within

/-- Every event keeps the counted guests of an occasion within its limit. -/
theorem within_step (hlimit : attendeeLimit content occasionId = some limit)
    (h : s.Within occasionId limit.toNat) (event : RsvpEvent) :
    (rsvpStep content s event).Within occasionId limit.toNat := by
  cases event with
  | read request user newToken =>
    rw [rsvpStep]
    split
    · exact h
    · cases hprepare : prepareUpsert content request user newToken s.rsvps with
      | error e => exact h
      | ok upsert => exact h.put_unchecked (held_of_prepare hprepare).2
  | check id =>
    rw [rsvpStep]
    split
    · rename_i upsert hcall
      have hheld := h.held id _ hcall
      cases hcheck : upsert.check content s.rsvps with
      | error e => exact h.release id
      | ok u =>
        refine h.put_checked hheld ?_
        rintro rfl
        exact fits_of_check hlimit h.total hheld hcheck
    · exact h
  | write id =>
    rw [rsvpStep]
    split
    · rename_i upsert hcall
      exact h.write hcall
    · exact h
  | find request user =>
    rw [rsvpStep]
    cases findRsvpToDelete content request user s.rsvps with
    | error e => exact h
    | ok id => exact ⟨h.total, h.held, h.fits⟩
  | delete id =>
    rw [rsvpStep]
    split
    · exact h.delete _ _
    · exact h

end

/-- For every interleaving of upserts and deletions, the counted guests of an occasion stay within
its limit if they start within it, and the arithmetic of the check never overflows. -/
theorem attendee_limit_kept (content : ContentDb) (occasionId : Nat) (limit : UInt32)
    (hlimit : attendeeLimit content occasionId = some limit) (rsvps : RsvpTable)
    (hstart : taken rsvps occasionId none ≤ limit.toNat) (events : List RsvpEvent) :
    Throughout (rsvpStep content) (fun s => taken s.rsvps occasionId none ≤ limit.toNat ∧
      ∀ (excluding : Option Nat) (guests : UInt32),
        (Int64.ofNat (taken s.rsvps occasionId excluding) + Int64.ofNat guests.toNat).toInt =
          taken s.rsvps occasionId excluding + guests.toNat) (.idle rsvps) events := by
  refine Throughout.of_invariant (I := fun s => s.Within occasionId limit.toNat)
    (fun s event h => within_step hlimit h event) (fun s h => ⟨h.total, fun excluding guests =>
      check_arithmetic h.total excluding guests.toNat_lt⟩) ⟨hstart, ?_, ?_⟩
  · intro id call hcall
    cases hcall
  · intro upsert hupsert
    cases hupsert

/-- Two users ask to come with a guest each, at the same time: there is room for one of them. -/
def twoComers : List RsvpEvent :=
  [.read (going (.user (some 2)) 2) (some (guest 2)) "", .check 2,
    .read (going (.user (some 3)) 2) (some (guest 3)) "", .write 2,
    .read (going (.user (some 3)) 2) (some (guest 3)) "", .check 2, .write 2]

/-- The party is full, and not over its limit, after both have asked. -/
theorem attendee_limit_kept_party :
    Throughout (rsvpStep party) (fun s => taken s.rsvps 2 none ≤ 2 ∧
      ∀ (excluding : Option Nat) (guests : UInt32),
        (Int64.ofNat (taken s.rsvps 2 excluding) + Int64.ofNat guests.toNat).toInt =
          taken s.rsvps 2 excluding + guests.toNat) (.idle .empty) twoComers ∧
      taken (run (rsvpStep party) (.idle .empty) twoComers).rsvps 2 none = 2 :=
  ⟨attendee_limit_kept party 2 2 (by decide +kernel) .empty (by decide +kernel) twoComers,
    by decide +kernel⟩

end Rellm.Rsvps
