import Rellm.Users.PhoneHistory

/-!
# The time between two codes

Sending a message costs money, so a user is not to be sent two codes within a minute. Where the
last code was sent is kept with the verification in progress and nowhere else, in whole seconds.
-/

namespace Rellm.Users

open Foundation

/-- Whether a call is to send a code. -/
def AccountCall.isStart : AccountCall → Bool
  | .start _ _ _ => true
  | _ => false

/-- When codes were sent. -/
def sendsOf (events : List PhoneEvent) : List SystemTime :=
  events.filterMap fun
    | .sent _ _ time => some time
    | _ => none

/-- The accounts, when codes were sent to a user, the last first, and the clock. -/
structure Clocked where
  accounts : AccountsDb
  sends : List SystemTime := []
  clock : SystemTime := 0

section

variable (crates : ValidationCrates) (userId : Nat)

def Clocked.step (s : Clocked) (call : AccountCall) : Clocked where
  accounts := s.accounts.step crates call
  sends := sendsOf (s.accounts.events crates userId call) ++ s.sends
  clock := call.endsAt

/-- A call begins after the last one, and does not end before it begins. -/
def Clocked.InOrder (s : Clocked) (call : AccountCall) : Prop :=
  s.clock ≤ call.beginsAt ∧ call.beginsAt ≤ call.endsAt

/-- Two codes are sent a minute apart. -/
def Clocked.SendsApart (s : Clocked) : Prop :=
  s.sends.Pairwise fun later earlier => earlier + resendCooldown ≤ later

/-- A code that would be sent within a minute of the last one finds that one's verification still
in progress, and the minute not over as it is remembered. -/
def Clocked.RemembersLastSend (s : Clocked) : AccountCall → Prop
  | .start callerId request outcome =>
    callerId = userId →
      ∀ existing, sendable request (s.accounts.phoneOf userId) outcome.telSupported = .ok existing →
        outcome.answer = .ok () → ∀ last ∈ s.sends.head?,
          last + resendCooldown ≤ outcome.sentAt ∨
            existing.startedAt.isSome ∧ outcome.checkedAt < remembered last + resendCooldown
  | _ => True

end

/-- What is known along a run: codes were sent before now, and a verification in progress is that
of the last code. -/
structure Clocked.Tracks (userId : Nat) (s : Clocked) : Prop where
  past : ∀ time ∈ s.sends, time ≤ s.clock
  startedAt : ∀ last ∈ s.sends.head?,
    ∀ started ∈ (s.accounts.phoneOf userId).bind ContactMethod.startedAt, started = remembered last

section

variable {userId : Nat} {s : Clocked}

/-- A call to send a code adds the time of the code, where it sends one. -/
theorem sendsOf_start (crates : ValidationCrates) (db : AccountsDb) (callerId : Nat)
    (request : ContactMethod) (outcome : SendOutcome) :
    (callerId = userId ∧
        (∃ updated, startVerification request (db.phoneOf userId) outcome = .ok updated) ∧
        sendsOf (db.events crates userId (.start callerId request outcome)) = [outcome.sentAt]) ∨
      (callerId = userId →
        ¬ ∃ updated, startVerification request (db.phoneOf userId) outcome = .ok updated) ∧
        sendsOf (db.events crates userId (.start callerId request outcome)) = [] := by
  rw [AccountsDb.events]
  split
  · rename_i h
    obtain ⟨rfl, hsucceeded⟩ := h
    exact .inl ⟨rfl, (succeeded_start callerId request outcome).mp hsucceeded, rfl⟩
  · rename_i h
    refine .inr ⟨?_, rfl⟩
    rintro rfl hsent
    exact h ⟨rfl, (succeeded_start callerId request outcome).mpr hsent⟩

/-- No other call sends a code. -/
theorem sendsOf_eq_nil {crates : ValidationCrates} {db : AccountsDb} {call : AccountCall}
    (h : call.isStart = false) : sendsOf (db.events crates userId call) = [] := by
  cases call with
  | start callerId request outcome => cases h
  | verify callerId request checkedAt verifiedAt =>
    rw [AccountsDb.events]
    split <;> rfl
  | edit callerId request context => rfl
  | stop e164Number now => rfl

/-- A verification that is in progress after a call was before, unless the call sent its code. -/
theorem startedAt_of_change {call : AccountCall} {phone phone' : Option ContactMethod}
    {events : List PhoneEvent} (h : PhoneChange call phone events phone') :
    (sendsOf events = [] ∧ ∀ started ∈ phone'.bind ContactMethod.startedAt,
        started ∈ phone.bind ContactMethod.startedAt) ∨
      ∃ time, sendsOf events = [time] ∧
        phone'.bind ContactMethod.startedAt = some (remembered time) := by
  cases h with
  | unchanged => exact .inl ⟨rfl, fun _ h => h⟩
  | sent h =>
    obtain ⟨existing, -, -, -, rfl⟩ := startVerification_eq_ok.mp h
    exact .inr ⟨_, rfl, rfl⟩
  | refused h => exact .inl ⟨rfl, fun _ h => h⟩
  | guessed h => exact .inl ⟨rfl, startedAt_verifyPhone h⟩
  | kept => exact .inl ⟨rfl, fun _ h => h⟩
  | edited => exact .inl ⟨rfl, startedAt_applyContactMethodUpdate _ _ _ _⟩
  | revoked =>
    refine .inl ⟨rfl, ?_⟩
    rw [Option.bind_some, startedAt_revokeConsent]
    exact fun _ h => h

variable (crates : ValidationCrates)

theorem Clocked.Tracks.step (hs : s.Tracks userId) {call : AccountCall} (horder : s.InOrder call) :
    (s.step crates userId call).Tracks userId := by
  have hchange := phoneChange_step crates s.accounts call userId
  have hsends : ∀ time ∈ sendsOf (s.accounts.events crates userId call), time = call.endsAt := by
    intro time htime
    cases call with
    | start callerId request outcome =>
      rcases sendsOf_start crates s.accounts callerId request outcome with
        ⟨-, -, hsent⟩ | ⟨-, hnone⟩
      · rw [hsent] at htime
        exact List.mem_singleton.mp htime
      · rw [hnone] at htime
        cases htime
    | _ =>
      rw [sendsOf_eq_nil rfl] at htime
      cases htime
  refine ⟨?_, ?_⟩
  · intro time htime
    rcases List.mem_append.mp htime with hnew | hold
    · exact (hsends time hnew).le
    · exact (hs.past time hold).trans (horder.1.trans horder.2)
  · intro last hlast started hstarted
    rcases startedAt_of_change hchange with ⟨hnone, hbefore⟩ | ⟨time, hsent, hafter⟩
    · rw [Clocked.step, hnone] at hlast
      exact hs.startedAt last hlast started (hbefore started hstarted)
    · rw [Clocked.step, hsent] at hlast
      cases hlast
      exact Option.some.inj (hstarted.symm.trans hafter)

/-- A code is sent where its other checks are met and the last code is not remembered as one of
the last minute. -/
theorem sent_iff {request : ContactMethod} {phone : Option ContactMethod} {outcome : SendOutcome} :
    (∃ updated, startVerification request phone outcome = .ok updated) ↔
      ∃ existing, sendable request phone outcome.telSupported = .ok existing ∧
        outcome.answer = .ok () ∧
        ∀ started ∈ existing.startedAt, started + resendCooldown ≤ outcome.checkedAt := by
  constructor
  · rintro ⟨updated, h⟩
    obtain ⟨existing, hsendable, hcooldown, hanswer, -⟩ := startVerification_eq_ok.mp h
    exact ⟨existing, hsendable, hanswer, hcooldown⟩
  · rintro ⟨existing, hsendable, hanswer, hcooldown⟩
    exact ⟨_, startVerification_eq_ok.mpr ⟨existing, hsendable, hcooldown, hanswer, rfl⟩⟩

/-- A call keeps the codes a minute apart exactly if it remembers the last one. -/
theorem Clocked.sendsApart_step_iff (hs : s.Tracks userId) {call : AccountCall}
    (horder : s.InOrder call) (hapart : s.SendsApart) :
    (s.step crates userId call).SendsApart ↔ s.RemembersLastSend userId call := by
  have hstarted := hs.startedAt
  cases call with
  | start callerId request outcome =>
    rw [SendsApart, Clocked.step]
    rcases sendsOf_start crates s.accounts callerId request outcome with
      ⟨hself, hsends, hsent⟩ | ⟨hrefused, hnone⟩
    · obtain ⟨existing, hsendable, hanswer, hcooldown⟩ := sent_iff.mp hsends
      obtain ⟨hphone, -⟩ := sendable_eq_ok hsendable
      rw [hphone, Option.bind_some] at hstarted
      -- A verification in progress is that of the last code, which the check found old enough.
      have hremembers : s.RemembersLastSend userId (.start callerId request outcome) ↔
          ∀ last ∈ s.sends.head?, last + resendCooldown ≤ outcome.sentAt := by
        constructor
        · intro h last hlast
          rcases h hself existing hsendable hanswer last hlast with happart | ⟨hsome, hrecent⟩
          · exact happart
          · obtain ⟨started, hprogress⟩ := Option.isSome_iff_exists.mp hsome
            have hold := hcooldown started hprogress
            rw [hstarted last hlast started hprogress] at hold
            exact absurd hrecent (Nat.not_lt.mpr hold)
        · intro h _ other _ _ last hlast
          exact .inl (h last hlast)
      rw [hremembers, hsent, List.singleton_append, List.pairwise_cons]
      rw [SendsApart] at hapart
      cases hsends : s.sends with
      | nil => simp
      | cons last rest =>
        rw [hsends, List.pairwise_cons] at hapart
        simp only [List.head?_cons, Option.mem_some_iff, forall_eq', List.mem_cons, forall_eq_or_imp]
        constructor
        · rintro ⟨⟨h, -⟩, -⟩
          exact h
        · intro h
          refine ⟨⟨h, ?_⟩, List.pairwise_cons.mpr hapart⟩
          intro earlier hearlier
          calc
            earlier + resendCooldown ≤ last := hapart.1 earlier hearlier
            _ ≤ last + resendCooldown := Nat.le_add_right _ _
            _ ≤ outcome.sentAt := h
    · rw [hnone, List.nil_append]
      refine iff_of_true hapart ?_
      intro hself existing hsendable hanswer last hlast
      obtain ⟨hphone, -⟩ := sendable_eq_ok hsendable
      rw [hphone, Option.bind_some] at hstarted
      right
      by_contra hforgotten
      refine hrefused hself (sent_iff.mpr ⟨existing, hsendable, hanswer, ?_⟩)
      intro started hprogress
      by_contra hrecent
      rw [hstarted last hlast started hprogress] at hrecent
      exact hforgotten ⟨Option.isSome_of_mem hprogress, Nat.lt_of_not_le hrecent⟩
  | _ =>
    rw [SendsApart, Clocked.step, sendsOf_eq_nil rfl]
    exact iff_of_true hapart trivial

/-- Codes are sent a minute apart in a run exactly if each call that would send one remembers the
last. -/
theorem sendsApart_iff_remembersLastSend (crates : ValidationCrates) (userId : Nat)
    (accounts : AccountsDb) (clock : SystemTime) {calls : List AccountCall}
    (horder : Along (Clocked.step crates userId) Clocked.InOrder ⟨accounts, [], clock⟩ calls) :
    Throughout (Clocked.step crates userId) Clocked.SendsApart ⟨accounts, [], clock⟩ calls ↔
      Along (Clocked.step crates userId) (Clocked.RemembersLastSend userId) ⟨accounts, [], clock⟩
        calls := by
  have htracks : Clocked.Tracks userId ⟨accounts, [], clock⟩ := ⟨nofun, nofun⟩
  refine throughout_iff_along_of (I := Clocked.Tracks userId) ?_ ?_ htracks .nil horder
  · intro s call hs hcall
    exact hs.step crates hcall
  · intro s call hs hcall hapart
    exact Clocked.sendsApart_step_iff crates hs hcall hapart

end

/-- Two codes ninety seconds apart. -/
theorem sendsApart_ninetySeconds :
    Throughout (Clocked.step noCrates 1) Clocked.SendsApart ⟨consentingAccounts, [], 0⟩
      [sendTo 0 7, sendTo (90 * second) 8] := by
  refine (sendsApart_iff_remembersLastSend noCrates 1 consentingAccounts 0 ?_).mpr ?_
  · exact ⟨⟨le_rfl, le_rfl⟩, ⟨Nat.zero_le _, le_rfl⟩, trivial⟩
  · have hfirst : (Clocked.step noCrates 1 ⟨consentingAccounts, [], 0⟩ (sendTo 0 7)).sends =
        [0] := by decide +kernel
    refine ⟨fun _ _ _ _ => nofun, ?_, trivial⟩
    intro _ existing _ _ last hlast
    rw [hfirst] at hlast
    cases hlast
    exact .inl (by decide)

/-- A code that was given back leaves nothing to remember its time by. -/
theorem resent_after_success :
    ¬ Throughout (Clocked.step noCrates 1) Clocked.SendsApart ⟨consentingAccounts, [], 0⟩
      [sendTo 0 7, guessAt second "000007", sendTo (2 * second) 8] := by
  intro h
  have hapart := h.2.2.2
  revert hapart
  rw [throughout_nil, Clocked.SendsApart]
  decide +kernel

end Rellm.Users
