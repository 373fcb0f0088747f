import Rellm.Users.PhoneHistory

/-!
# A verified number was verified

What is stored with a number is explained by what happened to it before: a verification in
progress by the code that was sent, a verified number by the code that was given back, and the
consent by its history.
-/

namespace Rellm.Users

open Foundation

/-- No edit left another value. -/
def KeepsValue (value : String) (events : List PhoneEvent) : Prop :=
  ∀ other, .left other ∈ events → other = some value

/-- How often a code was guessed at in vain. -/
def wrongGuesses (value code : String) (events : List PhoneEvent) : Nat :=
  events.countP fun
    | .guessed guessedValue guess _ => guessedValue = value ∧ guess ≠ code
    | _ => false

/-- A code was sent to the value and given back in time, before too many guesses, and the value has
not changed since it was sent. The events are listed from the last one to the first. -/
def WasVerified (value : String) (events : List PhoneEvent) : Prop :=
  ∃ after guessedAt between code sentAt before,
    events = after ++ .guessed value code guessedAt ::
      (between ++ .sent value code sentAt :: before) ∧
    KeepsValue value (after ++ between) ∧
    guessedAt ≤ sentAt + codeTtl ∧
    wrongGuesses value code between ≤ 5

/-- A verification in progress is that of a code that was sent to the value, which has not changed
since, with its wrong guesses counted. -/
def InProgress (value : String) (verification : ContactMethodVerification)
    (events : List PhoneEvent) : Prop :=
  ∃ between sentAt before,
    events = between ++ .sent value verification.verificationCode sentAt :: before ∧
    validateTelValue value = .ok () ∧
    verification.verificationStartedAt = some (toProtoTime sentAt) ∧
    KeepsValue value between ∧
    wrongGuesses value verification.verificationCode between = verification.attempts.toInt ∧
    verification.attempts ≤ maxAttempts

/-- What is stored with a number is explained by what happened before. -/
structure Explained (phone : Option ContactMethod) (events : List PhoneEvent) : Prop where
  progress : ∀ stored ∈ phone, ∀ verification ∈ stored.verificationInProgress,
    ∃ value, stored.value = some value ∧ InProgress value verification events
  verified : ∀ stored ∈ phone, stored.verifiedAt.isSome →
    ∃ value, stored.value = some value ∧ WasVerified value events
  consent : ∀ stored ∈ phone, stored.consentState = stored.historicConsent.toI32

section

variable {value : String} {events : List PhoneEvent} {event : PhoneEvent}

theorem KeepsValue.nil : KeepsValue value [] := nofun

theorem KeepsValue.cons (h : KeepsValue value events)
    (hevent : ∀ other, event = .left other → other = some value) :
    KeepsValue value (event :: events) := by
  intro other hother
  rcases List.mem_cons.mp hother with hfirst | hrest
  · exact hevent other hfirst.symm
  · exact h other hrest

/-- A number that was verified stays so until its value changes. -/
theorem WasVerified.cons (h : WasVerified value events)
    (hevent : ∀ other, event = .left other → other = some value) :
    WasVerified value (event :: events) := by
  obtain ⟨after, guessedAt, between, code, sentAt, before, rfl, hkeeps, htime, hwrong⟩ := h
  exact ⟨event :: after, guessedAt, between, code, sentAt, before, rfl, hkeeps.cons hevent, htime,
    hwrong⟩

/-- A verification stays in progress until its code is guessed at or the value changes. -/
theorem InProgress.cons {verification : ContactMethodVerification}
    (h : InProgress value verification events)
    (hevent : ∀ other, event = .left other → other = some value)
    (hguess : ∀ code time, event ≠ .guessed value code time) :
    InProgress value verification (event :: events) := by
  obtain ⟨between, sentAt, before, rfl, htel, hstarted, hkeeps, hwrong, hattempts⟩ := h
  refine ⟨event :: between, sentAt, before, rfl, htel, hstarted, hkeeps.cons hevent, ?_, hattempts⟩
  rw [← hwrong, wrongGuesses, wrongGuesses, List.countP_cons_of_neg]
  cases event with
  | sent _ _ _ => nofun
  | left _ => nofun
  | guessed guessedValue guess time =>
    intro h
    obtain ⟨rfl, -⟩ := of_decide_eq_true h
    exact hguess guess time rfl

/-- A wrong guess is counted. -/
theorem InProgress.guessed {verification : ContactMethodVerification} {guess : String}
    {time : SystemTime} (h : InProgress value verification events)
    (hwrong : guess ≠ verification.verificationCode)
    (hattempts : verification.attempts < maxAttempts) :
    InProgress value { verification with attempts := verification.attempts + 1 }
      (.guessed value guess time :: events) := by
  obtain ⟨between, sentAt, before, rfl, htel, hstarted, hkeeps, hcount, -⟩ := h
  have hlt := Int32.lt_iff_toInt_lt.mp hattempts
  have hmax : maxAttempts.toInt = 5 := rfl
  have hnext : (verification.attempts + 1).toInt = verification.attempts.toInt + 1 := by
    rw [Int32.toInt_add, show Int32.toInt 1 = 1 from rfl]
    exact Int.bmod_eq_of_le (by omega) (by omega)
  have hle : verification.attempts + 1 ≤ maxAttempts := Int32.le_iff_toInt_le.mpr (by omega)
  refine ⟨.guessed value guess time :: between, sentAt, before, rfl, htel, hstarted,
    hkeeps.cons nofun, ?_, hle⟩
  rw [hnext, ← hcount, wrongGuesses, List.countP_cons_of_pos (by simp [hwrong])]
  rfl

/-- The right code, given back in time, verifies the number. -/
theorem InProgress.verified {verification : ContactMethodVerification} {time : SystemTime}
    (h : InProgress value verification events)
    (htime : time ≤ (verification.verificationStartedAt.map toDbTime).getD 0 + codeTtl) :
    WasVerified value (.guessed value verification.verificationCode time :: events) := by
  obtain ⟨between, sentAt, before, rfl, -, hstarted, hkeeps, hcount, hattempts⟩ := h
  refine ⟨[], time, between, verification.verificationCode, sentAt, before, rfl, hkeeps, ?_, ?_⟩
  · rw [hstarted] at htime
    exact htime.trans (Nat.add_le_add_right (remembered_le sentAt) codeTtl)
  · have hle := Int32.le_iff_toInt_le.mp hattempts
    have hmax : maxAttempts.toInt = 5 := rfl
    omega

end

/-- A new entry of a history tells the consent. -/
theorem historicConsent_of_append {method : ContactMethod} {history : List ContactConsentChange}
    {entry : ContactConsentChange} (h : method.consentHistory = history ++ [entry]) :
    method.historicConsent = .ofI32 entry.state := by
  rw [ContactMethod.historicConsent, h, List.getLast?_concat]
  rfl

/-- An edit leaves the consent that its history ends with. -/
theorem consent_of_edit {existing : Option ContactMethod} {consent : ContactConsentState}
    {now : SystemTime} {updated : ContactMethod} (hstate : updated.consentState = consent.toI32)
    (hhistory : updated.consentHistory = consentHistoryWith existing consent now)
    (hexisting : ∀ stored ∈ existing, stored.consentState = stored.historicConsent.toI32) :
    updated.consentState = updated.historicConsent.toI32 := by
  unfold consentHistoryWith at hhistory
  split at hhistory
  · rw [hstate, historicConsent_of_append hhistory, ContactConsentState.ofI32_toI32]
  · rename_i hsame
    rw [not_not] at hsame
    cases existing with
    | none =>
      have hempty : updated.consentHistory = [] := hhistory
      rw [hstate, hsame, ContactMethod.historicConsent, hempty]
      rfl
    | some stored =>
      have hkept : updated.historicConsent = stored.historicConsent := by
        rw [ContactMethod.historicConsent, hhistory]
        rfl
      have hconsent : stored.consent = stored.historicConsent := by
        rw [ContactMethod.consent, hexisting stored rfl, ContactConsentState.ofI32_toI32]
      rw [hstate, hsame, hkept, ← hconsent]
      rfl

/-- A stored value with its verification, which an event leaves as they are, stays explained. -/
theorem Explained.cons {stored stored' : ContactMethod} {events : List PhoneEvent}
    {event : PhoneEvent} (h : Explained (some stored) events)
    (hvalue : stored'.value = stored.value) (hverified : stored'.verifiedAt = stored.verifiedAt)
    (hprogress : stored'.verificationInProgress = stored.verificationInProgress)
    (hconsent : stored'.consentState = stored'.historicConsent.toI32)
    (hleft : ∀ other, event = .left other → other = stored.value)
    (hguess : ∀ value code time, stored.value = some value →
      stored.verificationInProgress.isSome → event ≠ .guessed value code time) :
    Explained (some stored') (event :: events) := by
  refine ⟨?_, ?_, ?_⟩
  · rintro _ ⟨⟩ verification hverification
    rw [hprogress] at hverification
    obtain ⟨value, hstored, hin⟩ := h.progress stored rfl verification hverification
    refine ⟨value, hvalue.trans hstored, hin.cons ?_ ?_⟩
    · intro other hother
      rw [← hstored]
      exact hleft other hother
    · intro code time
      exact hguess value code time hstored (Option.isSome_of_mem hverification)
  · rintro _ ⟨⟩ hsome
    rw [hverified] at hsome
    obtain ⟨value, hstored, hwas⟩ := h.verified stored rfl hsome
    refine ⟨value, hvalue.trans hstored, hwas.cons ?_⟩
    intro other hother
    rw [← hstored]
    exact hleft other hother
  · rintro _ ⟨⟩
    exact hconsent

theorem Explained.none {events : List PhoneEvent} : Explained none events := by
  refine ⟨?_, ?_, ?_⟩ <;>
    rintro _ ⟨⟩

/-- A code that is sent is in progress. -/
theorem Explained.sent {request updated : ContactMethod} {phone : Option ContactMethod}
    {outcome : SendOutcome} {events : List PhoneEvent} (h : Explained phone events)
    (hsent : startVerification request phone outcome = .ok updated) :
    Explained (some updated)
      (.sent (request.value.getD "") (codeOfDraw outcome.draw) outcome.sentAt :: events) := by
  obtain ⟨existing, hsendable, -, -, rfl⟩ := startVerification_eq_ok.mp hsent
  obtain ⟨rfl, hvalue, -⟩ := sendable_eq_ok hsendable
  obtain ⟨value, hrequested, htel⟩ := validateTelValue_of_sendable hsendable
  have hnone : (0 : Int32) ≤ maxAttempts := by decide
  rw [hrequested] at hvalue
  rw [hrequested, Option.getD_some]
  refine ⟨?_, ?_, ?_⟩
  · rintro _ ⟨⟩ _ ⟨⟩
    exact ⟨value, hvalue, [], outcome.sentAt, events, rfl, htel, rfl, .nil, rfl, hnone⟩
  · rintro _ ⟨⟩ hsome
    obtain ⟨value', hstored, hwas⟩ := h.verified existing rfl hsome
    exact ⟨value', hstored, hwas.cons nofun⟩
  · rintro _ ⟨⟩
    exact h.consent existing rfl

/-- A guess is counted, or ends the verification. -/
theorem Explained.guessed {request : VerifyRequest} {phone : Option ContactMethod}
    {checkedAt verifiedAt : SystemTime} {guessed : Guessed} {events : List PhoneEvent}
    (h : Explained phone events)
    (hguessed : verifyPhone request phone checkedAt verifiedAt = .ok guessed) :
    Explained (some guessed.phone)
      (.guessed request.value request.code checkedAt :: events) := by
  obtain ⟨stored, verification, rfl, hvalue, hprogress, hcases⟩ := verifyPhone_cases hguessed
  obtain ⟨value, hvalue', hin⟩ := h.progress stored rfl verification hprogress
  obtain rfl : request.value = value := Option.some.inj (hvalue.symm.trans hvalue')
  have hverified (hsome : stored.verifiedAt.isSome) :
      ∃ value, stored.value = some value ∧
        WasVerified value (.guessed request.value request.code checkedAt :: events) := by
    obtain ⟨value, hstored, hwas⟩ := h.verified stored rfl hsome
    exact ⟨value, hstored, hwas.cons nofun⟩
  rcases hcases with ⟨reply, -, rfl⟩ | ⟨hattempts, htime, ⟨hwrong, rfl⟩ | ⟨hright, hphone, -⟩⟩
  · refine ⟨?_, ?_, ?_⟩
    · rintro _ ⟨⟩ _ ⟨⟩
    · rintro _ ⟨⟩ hsome
      exact hverified hsome
    · rintro _ ⟨⟩
      exact h.consent stored rfl
  · refine ⟨?_, ?_, ?_⟩
    · rintro _ ⟨⟩ _ ⟨⟩
      exact ⟨request.value, hvalue, hin.guessed hwrong hattempts⟩
    · rintro _ ⟨⟩ hsome
      exact hverified hsome
    · rintro _ ⟨⟩
      exact h.consent stored rfl
  · rw [hphone]
    refine ⟨?_, ?_, ?_⟩
    · rintro _ ⟨⟩ _ ⟨⟩
    · rintro _ ⟨⟩ -
      rw [hright]
      exact ⟨request.value, hvalue, hin.verified htime⟩
    · rintro _ ⟨⟩
      exact h.consent stored rfl

/-- A guess that is refused is at no code that is in progress. -/
theorem Explained.refused {request : VerifyRequest} {phone : Option ContactMethod}
    {checkedAt verifiedAt : SystemTime} {reply : Status} {events : List PhoneEvent}
    (h : Explained phone events)
    (hrefused : verifyPhone request phone checkedAt verifiedAt = .error reply) :
    Explained phone (.guessed request.value request.code checkedAt :: events) := by
  cases phone with
  | none => exact .none
  | some stored =>
    refine h.cons rfl rfl rfl (h.consent stored rfl) nofun ?_
    rintro value code time hvalue hprogress ⟨⟩
    obtain ⟨verification, hverification⟩ := Option.isSome_iff_exists.mp hprogress
    obtain ⟨value, hvalue', between, sentAt, before, -, htel, -⟩ :=
      h.progress stored rfl verification hverification
    obtain rfl : request.value = value := Option.some.inj (hvalue.symm.trans hvalue')
    obtain ⟨guessed, hok⟩ := verifyPhone_of_progress htel hvalue hverification
      checkedAt verifiedAt
    rw [hok] at hrefused
    cases hrefused

/-- An edit keeps what is stored with a value, or drops it with the value. -/
theorem Explained.edited {phone : Option ContactMethod} {events : List PhoneEvent}
    (h : Explained phone events) (incoming : Option ContactMethod) (isSupported : String → Bool)
    (now : SystemTime) :
    Explained (applyContactMethodUpdate phone incoming isSupported now)
      (.left (incoming.bind (·.value)) :: events) := by
  rcases applyContactMethodUpdate_cases phone incoming isSupported now with
    ⟨-, hnone⟩ | ⟨requested, updated, rfl, hupdated, hvalue, hstate, hhistory, hcases⟩
  · rw [hnone]
    exact .none
  · have hconsent := consent_of_edit hstate hhistory h.consent
    rw [hupdated, Option.bind_some, ← hvalue]
    rcases hcases with ⟨-, hverified, hprogress⟩ | ⟨hsame, hverified, hprogress⟩
    · refine ⟨?_, ?_, ?_⟩
      · rintro _ ⟨⟩ verification hverification
        rw [hprogress] at hverification
        cases hverification
      · rintro _ ⟨⟩ hsome
        rw [hverified] at hsome
        cases hsome
      · rintro _ ⟨⟩
        exact hconsent
    · cases phone with
      | none =>
        refine ⟨?_, ?_, ?_⟩
        · rintro _ ⟨⟩ verification hverification
          rw [hprogress] at hverification
          cases hverification
        · rintro _ ⟨⟩ hsome
          rw [hverified] at hsome
          cases hsome
        · rintro _ ⟨⟩
          exact hconsent
      | some stored =>
        have hsame' : updated.value = stored.value := hvalue.trans hsame.symm
        refine h.cons hsame' hverified hprogress hconsent ?_ nofun
        rintro other ⟨⟩
        exact hsame'

/-- A STOP message is an entry of the history. -/
theorem Explained.revoked {stored : ContactMethod} {events : List PhoneEvent}
    (h : Explained (some stored) events) (now : SystemTime) :
    Explained (some (revokeConsent stored now)) events := by
  unfold revokeConsent
  split
  · exact h
  · refine ⟨?_, ?_, ?_⟩
    · rintro _ ⟨⟩ verification hverification
      exact h.progress stored rfl verification hverification
    · rintro _ ⟨⟩ hsome
      exact h.verified stored rfl hsome
    · rintro _ ⟨⟩
      rw [historicConsent_of_append rfl, ContactConsentState.ofI32_toI32]

/-- Whatever a call makes of a number, what is stored with it stays explained. -/
theorem Explained.change {call : AccountCall} {phone phone' : Option ContactMethod}
    {happened events : List PhoneEvent} (h : Explained phone events)
    (hchange : PhoneChange call phone happened phone') : Explained phone' (happened ++ events) := by
  cases hchange with
  | unchanged => exact h
  | sent hsent => exact h.sent hsent
  | refused hrefused => exact h.refused hrefused
  | guessed hguessed => exact h.guessed hguessed
  | kept =>
    cases phone with
    | none => exact .none
    | some stored =>
      refine h.cons rfl rfl rfl (h.consent stored rfl) ?_ nofun
      rintro other ⟨⟩
      rfl
  | edited => exact h.edited _ _ _
  | revoked => exact h.revoked _

/-- The accounts, and what happened to the number of a user, the last event first. -/
structure Logged where
  accounts : AccountsDb
  events : List PhoneEvent := []

section

variable (crates : ValidationCrates) (userId : Nat)

def Logged.step (s : Logged) (call : AccountCall) : Logged where
  accounts := s.accounts.step crates call
  events := s.accounts.events crates userId call ++ s.events

/-- A verified number was verified, and the consent is what its history ends with. -/
def Logged.Sound (s : Logged) : Prop :=
  ∀ stored ∈ s.accounts.phoneOf userId,
    (stored.verifiedAt.isSome →
      ∃ value, stored.value = some value ∧ WasVerified value s.events) ∧
    stored.consentState = stored.historicConsent.toI32

/-- A call only adds the server's entries to the history of a number, and removes a number only
where it is an edit without one. -/
def Logged.KeepsHistory (s : Logged) (call : AccountCall) : Prop :=
  let before := s.accounts.phoneOf userId
  let after := (s.step crates userId call).accounts.phoneOf userId
  (∀ stored ∈ after, ∃ added,
    stored.consentHistory = (before.map (·.consentHistory)).getD [] ++ added ∧
    ∀ entry ∈ added, entry = ⟨stored.consentState, some (intoTimestamp call.endsAt)⟩) ∧
  (before.isSome → after = none →
    ∃ callerId request context, call = .edit callerId request context ∧ request.phone = none)

end

/-- The history of a number after a call is the one before it and the server's entries. -/
theorem consentHistory_of_change {call : AccountCall} {phone phone' : Option ContactMethod}
    {events : List PhoneEvent} (h : PhoneChange call phone events phone') :
    ∀ stored ∈ phone', ∃ added,
      stored.consentHistory = (phone.map (·.consentHistory)).getD [] ++ added ∧
      ∀ entry ∈ added, entry = ⟨stored.consentState, some (intoTimestamp call.endsAt)⟩ := by
  cases h with
  | sent h =>
    obtain ⟨existing, hsendable, -, -, rfl⟩ := startVerification_eq_ok.mp h
    obtain ⟨rfl, -⟩ := sendable_eq_ok hsendable
    rintro _ ⟨⟩
    exact ⟨[], (List.append_nil _).symm, nofun⟩
  | guessed h =>
    obtain ⟨stored, verification, rfl, -, -, hcases⟩ := verifyPhone_cases h
    rintro _ ⟨⟩
    refine ⟨[], ?_, nofun⟩
    rcases hcases with ⟨reply, -, rfl⟩ | ⟨-, -, ⟨-, rfl⟩ | ⟨-, hphone, -⟩⟩
    · exact (List.append_nil _).symm
    · exact (List.append_nil _).symm
    · rw [hphone]
      exact (List.append_nil _).symm
  | @edited callerId request context _ =>
    rcases applyContactMethodUpdate_cases phone request.phone context.supportsTel context.now with
      ⟨-, hnone⟩ | ⟨requested, updated, -, hupdated, -, hstate, hhistory, -⟩
    · rw [hnone]
      rintro _ ⟨⟩
    · rw [hupdated]
      rintro _ ⟨⟩
      unfold consentHistoryWith at hhistory
      split at hhistory
      · refine ⟨_, hhistory, ?_⟩
        rw [hstate]
        exact fun entry hentry => List.mem_singleton.mp hentry
      · exact ⟨[], hhistory.trans (List.append_nil _).symm, nofun⟩
  | @revoked e164Number stored now =>
    unfold revokeConsent
    split
    · rintro _ ⟨⟩
      exact ⟨[], (List.append_nil _).symm, nofun⟩
    · rintro _ ⟨⟩
      exact ⟨_, rfl, fun entry hentry => List.mem_singleton.mp hentry⟩
  | _ =>
    rintro stored ⟨⟩
    exact ⟨[], (List.append_nil _).symm, nofun⟩

/-- A number is removed only by an edit without one. -/
theorem edit_of_removed {call : AccountCall} {phone phone' : Option ContactMethod}
    {events : List PhoneEvent} (h : PhoneChange call phone events phone')
    (hbefore : phone.isSome) (hafter : phone' = none) :
    ∃ callerId request context, call = .edit callerId request context ∧ request.phone = none := by
  cases h with
  | @edited callerId request context _ =>
    refine ⟨callerId, request, context, rfl, ?_⟩
    rcases applyContactMethodUpdate_cases phone request.phone context.supportsTel context.now with
      ⟨hnone, -⟩ | ⟨_, updated, -, hupdated, -⟩
    · exact hnone
    · rw [hupdated] at hafter
      cases hafter
  | unchanged | refused | kept =>
    rw [hafter] at hbefore
    cases hbefore
  | sent | guessed | revoked => cases hafter

/-- In every run that starts without a number, a verified number was verified, the consent is
what its history ends with, and the history of a number that stays only grows. -/
theorem verified_throughout (crates : ValidationCrates) (userId : Nat) (accounts : AccountsDb)
    (h : accounts.phoneOf userId = none) (calls : List AccountCall) :
    Throughout (Logged.step crates userId) (Logged.Sound userId) ⟨accounts, []⟩ calls ∧
      Along (Logged.step crates userId) (Logged.KeepsHistory crates userId) ⟨accounts, []⟩
        calls := by
  have hstart : Explained (accounts.phoneOf userId) [] := by
    rw [h]
    exact .none
  have hstep (s : Logged) (call : AccountCall)
      (hs : Explained (s.accounts.phoneOf userId) s.events) :
      Explained ((s.step crates userId call).accounts.phoneOf userId)
        (s.step crates userId call).events :=
    hs.change (phoneChange_step crates s.accounts call userId)
  refine ⟨?_, ?_⟩
  · refine Throughout.of_invariant
      (I := fun s => Explained (s.accounts.phoneOf userId) s.events) hstep ?_ hstart
    intro s hs stored hstored
    exact ⟨hs.verified stored hstored, hs.consent stored hstored⟩
  · refine Along.of_invariant (I := fun s => Explained (s.accounts.phoneOf userId) s.events)
      ?_ hstart (along_true _ _)
    intro s call hs _
    have hchange := phoneChange_step crates s.accounts call userId
    exact ⟨⟨consentHistory_of_change hchange, edit_of_removed hchange⟩, hstep s call hs⟩

/-- Word characters of the examples. -/
def plainCrates : ValidationCrates := ⟨Char.isAlphanum, fun _ => none⟩

/-- A user without a number. -/
def phoneless : AccountsDb :=
  ⟨⟨⟨[{ consenting with phone := none }], by decide⟩, 2, by decide⟩, .empty⟩

/-- A number whose owner consents. -/
def granted : ContactMethod := { value := some "tel:+15550100", consentState := 1 }

/-- The user stores a number, or none. -/
def editTo (time : SystemTime) (phone : Option ContactMethod) : AccountCall :=
  .edit 1 {
    id := Content.toProtoId 1
    username := "ann"
    phone := phone
    visibility := .serverPublic
    defaultFollowModeration := .unmoderated } ⟨fun _ => true, time⟩

/-- A number that is stored, sent a code and verified. -/
theorem verified_stored :
    Throughout (Logged.step plainCrates 1) (Logged.Sound 1) ⟨phoneless, []⟩
        [editTo 0 (some granted), sendTo second 7, guessAt (2 * second) "000007"] ∧
      Along (Logged.step plainCrates 1) (Logged.KeepsHistory plainCrates 1) ⟨phoneless, []⟩
        [editTo 0 (some granted), sendTo second 7, guessAt (2 * second) "000007"] :=
  verified_throughout plainCrates 1 phoneless (by decide) _

/-- An edit without the number drops its history, and a later one starts another. -/
theorem history_dropped :
    ¬ ∀ before after : List AccountCall,
      ∀ earlier ∈ (run (Logged.step plainCrates 1) ⟨phoneless, []⟩ before).accounts.phoneOf 1,
      ∀ later ∈
        (run (Logged.step plainCrates 1) ⟨phoneless, []⟩ (before ++ after)).accounts.phoneOf 1,
        earlier.consentHistory <+: later.consentHistory := by
  intro h
  have hkept := h [editTo 0 (some granted)] [editTo second none, editTo (2 * second) (some granted)]
  revert hkept
  decide +kernel

end Rellm.Users
