import Rellm.Users.PhoneHistory

/-!
# Calls that overlap

Sending a code and guessing at one load the row of their caller first, and write the whole
number later, as they read it; in between anything may be written. A ledger accounts for what
was agreed meanwhile: the value and the consent the last edit left, the revocations, and the
guesses that were answered for each code.
-/

namespace Rellm.Users

open Foundation Content

/-- What a call is for that has loaded the row of its caller. -/
inductive PhoneCall where
  | start (request : ContactMethod)
  | verify (request : VerifyRequest)
  deriving DecidableEq, Repr

/-- A call that has loaded the row of its caller and has not written it yet, and the code that
was in progress then. -/
structure Pending where
  caller : Account
  call : PhoneCall
  codeId : Nat
  deriving DecidableEq, Repr

/-- A step of a call, or a call that is one step. -/
inductive PhoneStep where
  | read (id callerId : Nat) (call : PhoneCall)
  | send (id : Nat) (outcome : SendOutcome)
  | guess (id : Nat) (checkedAt verifiedAt : SystemTime)
  | edit (callerId : Nat) (request : UserRequest) (context : EditContext)
  | stop (e164Number : String) (now : SystemTime)

/-- What was agreed about the number of a user: its value, whether the consent is revoked, the
revocations so far, the code in progress, how many were sent, and the code of each wrong guess. -/
structure PhoneLedger where
  value : Option String
  revoked : Bool
  revocations : List ContactConsentChange
  codeId : Nat := 0
  sent : Nat := 0
  answered : List Nat := []
  deriving DecidableEq, Repr

/-- The revocations in the history of a number. -/
def revocationsOf (phone : Option ContactMethod) : List ContactConsentChange :=
  ((phone.map (·.consentHistory)).getD []).filter fun entry =>
    entry.state = ContactConsentState.revoked.toI32

/-- Whether the consent of a number is revoked. -/
def consentRevoked (phone : Option ContactMethod) : Bool :=
  phone.any fun stored => stored.consent = .revoked

/-- A consent is recorded as an edit or a STOP message left it. -/
def PhoneLedger.recordConsent (ledger : PhoneLedger) (phone : Option ContactMethod) : PhoneLedger :=
  { ledger with
    revoked := consentRevoked phone
    revocations := revocationsOf phone ++ ledger.revocations }

/-- Whether a reply tells that the guess was wrong. -/
def Guessed.wrong (guessed : Guessed) : Bool :=
  match guessed.reply with
  | .error reply => reply.message = "incorrect_code"
  | .ok _ => false

/-- Whether a guess is answered as a wrong one. -/
def answersWrong (request : VerifyRequest) (phone : Option ContactMethod)
    (checkedAt verifiedAt : SystemTime) : Bool :=
  match verifyPhone request phone checkedAt verifiedAt with
  | .ok guessed => guessed.wrong
  | .error _ => false

/-- The accounts, the calls that have read and not written, and the ledger of a user. -/
structure Interleaved where
  accounts : AccountsDb
  pending : Nat → Option Pending := fun _ => none
  ledger : PhoneLedger

section

variable (crates : ValidationCrates) (userId : Nat)

/-- No call is pending, and the ledger is that of the stored number. -/
def Interleaved.start (accounts : AccountsDb) : Interleaved where
  accounts := accounts
  ledger := {
    value := (accounts.phoneOf userId).bind (·.value)
    revoked := consentRevoked (accounts.phoneOf userId)
    revocations := revocationsOf (accounts.phoneOf userId) }

def Interleaved.read (s : Interleaved) (id callerId : Nat) (call : PhoneCall) : Interleaved :=
  match s.accounts.users.get callerId with
  | none => s
  | some caller =>
    { s with pending := Function.update s.pending id (some ⟨caller, call, s.ledger.codeId⟩) }

def Interleaved.send (s : Interleaved) (id : Nat) (outcome : SendOutcome) : Interleaved :=
  match s.pending id with
  | some ⟨caller, .start request, _⟩ =>
    let result := startContactMethodVerification caller request outcome s.accounts
    { accounts := finalState result
      pending := Function.update s.pending id none
      ledger :=
        if caller.id = userId ∧ succeeded result then
          { s.ledger with sent := s.ledger.sent + 1, codeId := s.ledger.sent + 1 }
        else s.ledger }
  | _ => s

def Interleaved.guess (s : Interleaved) (id : Nat) (checkedAt verifiedAt : SystemTime) :
    Interleaved :=
  match s.pending id with
  | some ⟨caller, .verify request, codeId⟩ =>
    { accounts :=
        finalState (verifyContactMethod caller request checkedAt verifiedAt s.accounts)
      pending := Function.update s.pending id none
      ledger :=
        if caller.id = userId ∧ answersWrong request caller.phone checkedAt verifiedAt then
          { s.ledger with answered := codeId :: s.ledger.answered, codeId := codeId }
        else s.ledger }
  | _ => s

/-- The state after a step. -/
def Interleaved.step (s : Interleaved) : PhoneStep → Interleaved
  | .read id callerId call => s.read id callerId call
  | .send id outcome => s.send userId id outcome
  | .guess id checkedAt verifiedAt => s.guess userId id checkedAt verifiedAt
  | .edit callerId request context =>
    let accounts := s.accounts.step crates (.edit callerId request context)
    let phone := accounts.phoneOf userId
    { s with
      accounts := accounts
      ledger := { s.ledger.recordConsent phone with value := phone.bind (·.value) } }
  | .stop e164Number now =>
    let accounts := s.accounts.step crates (.stop e164Number now)
    { s with
      accounts := accounts
      ledger := s.ledger.recordConsent (accounts.phoneOf userId) }

end

/-- What is to survive: the revoked consent, every revocation in the history, the value of the last
edit, and the limit on the guesses for one code. -/
structure PhoneLedger.Survives (ledger : PhoneLedger) (phone : Option ContactMethod) : Prop where
  revoked : ledger.revoked = true → ∀ stored ∈ phone, stored.consent = .revoked
  revocations : ∀ entry ∈ ledger.revocations, ∃ stored ∈ phone, entry ∈ stored.consentHistory
  value : phone.bind (·.value) = ledger.value
  guesses : ∀ codeId, ledger.answered.count codeId ≤ 5

/-- What was agreed survives in the stored number. -/
def Interleaved.Survives (userId : Nat) (s : Interleaved) : Prop :=
  s.ledger.Survives (s.accounts.phoneOf userId)

/-- What a call that writes a number carries over of it: the value and the consent. -/
def carriedOver (stored : ContactMethod) : Option String × Int32 × List ContactConsentChange :=
  (stored.value, stored.consentState, stored.consentHistory)

/-- A call that writes a number finds it as it was read, and a guess the code too; and no edit
drops a number with a revocation in its history. -/
def Interleaved.Undisturbed (userId : Nat) (s : Interleaved) : PhoneStep → Prop
  | .read _ _ _ => True
  | .send id outcome =>
    ∀ caller request codeId, s.pending id = some ⟨caller, .start request, codeId⟩ →
      caller.id = userId →
      (∃ updated, startVerification request caller.phone outcome = .ok updated) →
      caller.phone.map carriedOver = (s.accounts.phoneOf userId).map carriedOver
  | .guess id checkedAt verifiedAt =>
    ∀ caller request codeId, s.pending id = some ⟨caller, .verify request, codeId⟩ →
      caller.id = userId →
      (∃ guessed, verifyPhone request caller.phone checkedAt verifiedAt = .ok guessed) →
      caller.phone.map carriedOver = (s.accounts.phoneOf userId).map carriedOver ∧
        caller.phone.bind (·.verificationInProgress) =
          (s.accounts.phoneOf userId).bind (·.verificationInProgress) ∧
        codeId = s.ledger.codeId
  | .edit callerId request _ =>
    ∀ caller, s.accounts.users.get callerId = some caller → editsProfile caller request = true →
      request.id.decoded = some userId → request.phone = none →
      revocationsOf (s.accounts.phoneOf userId) = []
  | .stop _ _ => True

/-- What is known along a run: what survives, that every revocation is one, that codes are numbered
in order, and that wrong guesses at the code in progress are counted. -/
structure PhoneLedger.Agrees (ledger : PhoneLedger) (phone : Option ContactMethod) : Prop extends
    ledger.Survives phone where
  states : ∀ entry ∈ ledger.revocations, entry.state = ContactConsentState.revoked.toI32
  current : ledger.codeId ≤ ledger.sent
  unsent : ∀ codeId, ledger.sent < codeId → ledger.answered.count codeId = 0
  counted : ∀ stored ∈ phone, ∀ verification ∈ stored.verificationInProgress,
    (ledger.answered.count ledger.codeId : Int) ≤ verification.attempts.toInt

section

variable {ledger : PhoneLedger} {phone : Option ContactMethod}

theorem mem_revocationsOf {entry : ContactConsentChange} (h : entry ∈ revocationsOf phone) :
    entry.state = ContactConsentState.revoked.toI32 ∧
      ∃ stored ∈ phone, entry ∈ stored.consentHistory := by
  obtain ⟨hmem, hstate⟩ := List.mem_filter.mp h
  refine ⟨of_decide_eq_true hstate, ?_⟩
  cases phone with
  | none => cases hmem
  | some stored => exact ⟨stored, rfl, hmem⟩

theorem consentRevoked_iff : consentRevoked phone = true ↔
    ∃ stored ∈ phone, stored.consent = .revoked := by
  cases phone <;> simp [consentRevoked]

/-- What is carried over of a number survives its being written. -/
theorem PhoneLedger.Survives.carriedOver (h : ledger.Survives phone) {written : ContactMethod}
    (hcarried : phone.map Users.carriedOver = some (Users.carriedOver written)) :
    ledger.Survives (some written) := by
  obtain ⟨stored, rfl, hstored⟩ := Option.map_eq_some_iff.mp hcarried
  simp only [Users.carriedOver, Prod.mk.injEq] at hstored
  obtain ⟨hvalue, hstate, hhistory⟩ := hstored
  refine ⟨?_, ?_, ?_, h.guesses⟩
  · rintro hrevoked _ ⟨⟩
    rw [ContactMethod.consent, ← hstate]
    exact h.revoked hrevoked stored rfl
  · intro entry hentry
    obtain ⟨_, ⟨⟩, hmem⟩ := h.revocations entry hentry
    exact ⟨written, rfl, hhistory ▸ hmem⟩
  · rw [← h.value]
    exact hvalue.symm

/-- A number that was found as it was read is stored. -/
theorem isSome_of_carriedOver {read : Option ContactMethod} {stored : ContactMethod}
    (h : read = some stored) (hread : read.map carriedOver = phone.map carriedOver) :
    phone.isSome := by
  rw [h] at hread
  obtain ⟨found, rfl, -⟩ := Option.map_eq_some_iff.mp hread.symm
  rfl

/-- A code that is sent to the number as it is agreed is a new one. -/
theorem PhoneLedger.Agrees.sent (h : ledger.Agrees phone) {request updated : ContactMethod}
    {read : Option ContactMethod} {outcome : SendOutcome}
    (hsent : startVerification request read outcome = .ok updated)
    (hread : read.map carriedOver = phone.map carriedOver) :
    { ledger with sent := ledger.sent + 1, codeId := ledger.sent + 1 }.Agrees (some updated) := by
  obtain ⟨existing, hsendable, -, -, hupdated⟩ := startVerification_eq_ok.mp hsent
  obtain ⟨rfl, -⟩ := sendable_eq_ok hsendable
  have hcarried : phone.map carriedOver = some (carriedOver updated) := by
    rw [← hread, hupdated]
    rfl
  have hsurvives := h.toSurvives.carriedOver hcarried
  refine ⟨⟨hsurvives.revoked, hsurvives.revocations, hsurvives.value, h.guesses⟩, h.states, le_rfl,
    ?_, ?_⟩
  · intro codeId hcode
    exact h.unsent codeId (Nat.lt_of_succ_lt hcode)
  · rintro _ ⟨⟩ verification hverification
    rw [hupdated] at hverification
    cases hverification
    rw [h.unsent (ledger.sent + 1) (Nat.lt_succ_self _)]
    exact le_rfl

/-- A guess at the code in progress, with the number as it is agreed, is counted. -/
theorem PhoneLedger.Agrees.guessed (h : ledger.Agrees phone) {request : VerifyRequest}
    {read : Option ContactMethod} {checkedAt verifiedAt : SystemTime} {guessed : Guessed}
    (hguessed : verifyPhone request read checkedAt verifiedAt = .ok guessed)
    (hread : read.map carriedOver = phone.map carriedOver)
    (hprogress : read.bind (·.verificationInProgress) = phone.bind (·.verificationInProgress)) :
    (if answersWrong request read checkedAt verifiedAt then
      { ledger with answered := ledger.codeId :: ledger.answered }
    else ledger).Agrees (some guessed.phone) := by
  obtain ⟨stored, verification, rfl, -, hverification, hcases⟩ := verifyPhone_cases hguessed
  have hcarried : phone.map carriedOver = some (carriedOver guessed.phone) := by
    rw [← hread]
    rcases hcases with ⟨reply, -, rfl⟩ | ⟨-, -, ⟨-, rfl⟩ | ⟨-, hphone, -⟩⟩
    · rfl
    · rfl
    · rw [hphone]
      rfl
  have hsurvives := h.toSurvives.carriedOver hcarried
  have hcounted : (ledger.answered.count ledger.codeId : Int) ≤ verification.attempts.toInt := by
    rw [Option.bind_some, hverification] at hprogress
    obtain ⟨current, hcurrent, hsame⟩ := Option.bind_eq_some_iff.mp hprogress.symm
    exact h.counted current hcurrent verification hsame
  have hanswer : answersWrong request (some stored) checkedAt verifiedAt = guessed.wrong := by
    rw [answersWrong, hguessed]
  rw [hanswer]
  rcases hcases with ⟨reply, hreply, rfl⟩ | ⟨hattempts, -, ⟨-, rfl⟩ | ⟨-, hphone, hreply⟩⟩
  · rw [if_neg (by simpa [Guessed.wrong] using hreply)]
    refine ⟨hsurvives, h.states, h.current, h.unsent, ?_⟩
    rintro _ ⟨⟩ _ ⟨⟩
  · rw [if_pos (by simp [Guessed.wrong])]
    have hlt := Int32.lt_iff_toInt_lt.mp hattempts
    have hmax : maxAttempts.toInt = 5 := rfl
    have hnext : (verification.attempts + 1).toInt = verification.attempts.toInt + 1 := by
      rw [Int32.toInt_add, show Int32.toInt 1 = 1 from rfl]
      exact Int.bmod_eq_of_le (by omega) (by omega)
    refine ⟨⟨hsurvives.revoked, hsurvives.revocations, hsurvives.value, ?_⟩, h.states, h.current,
      ?_, ?_⟩
    · intro codeId
      have hother := h.guesses codeId
      rw [List.count_cons]
      split
      · rename_i hsame
        rw [beq_iff_eq] at hsame
        rw [← hsame]
        omega
      · omega
    · intro codeId (hunsent : ledger.sent < codeId)
      have hcurrent := h.current
      have hnone := h.unsent codeId hunsent
      rw [List.count_cons_of_ne (by omega)]
      exact hnone
    · rintro _ ⟨⟩ _ ⟨⟩
      rw [List.count_cons_self, hnext]
      push_cast
      omega
  · have hright : ¬ guessed.wrong = true := by
      rw [Guessed.wrong, hreply]
      nofun
    rw [if_neg hright]
    refine ⟨hsurvives, h.states, h.current, h.unsent, ?_⟩
    rw [hphone]
    rintro _ ⟨⟩ _ ⟨⟩

/-- What a number becomes is agreed from then on, if it keeps the revocations. -/
theorem PhoneLedger.Agrees.recorded (h : ledger.Agrees phone) {phone' : Option ContactMethod}
    {value : Option String} (hvalue : phone'.bind (·.value) = value)
    (hkept : ∀ entry ∈ ledger.revocations, ∃ stored ∈ phone', entry ∈ stored.consentHistory)
    (hprogress : ∀ stored' ∈ phone', ∀ verification ∈ stored'.verificationInProgress,
      ∃ stored ∈ phone, verification ∈ stored.verificationInProgress) :
    { ledger.recordConsent phone' with value := value }.Agrees phone' := by
  refine ⟨⟨?_, ?_, hvalue, h.guesses⟩, ?_, h.current, h.unsent, ?_⟩
  · intro hrevoked stored hstored
    obtain ⟨stored', hstored', hconsent⟩ := consentRevoked_iff.mp hrevoked
    obtain rfl := Option.mem_unique hstored hstored'
    exact hconsent
  · intro entry hentry
    rcases List.mem_append.mp hentry with hnew | hold
    · exact (mem_revocationsOf hnew).2
    · exact hkept entry hold
  · intro entry hentry
    rcases List.mem_append.mp hentry with hnew | hold
    · exact (mem_revocationsOf hnew).1
    · exact h.states entry hold
  · intro stored' hstored' verification hverification
    obtain ⟨stored, hstored, hsame⟩ := hprogress stored' hstored' verification hverification
    exact h.counted stored hstored verification hsame

/-- An edit leaves what is agreed from then on, unless it drops a revocation. -/
theorem PhoneLedger.Agrees.edited (h : ledger.Agrees phone) {incoming : Option ContactMethod}
    (isSupported : String → Bool) (now : SystemTime)
    (hkeeps : incoming = none → revocationsOf phone = []) :
    { ledger.recordConsent (applyContactMethodUpdate phone incoming isSupported now) with
      value := (applyContactMethodUpdate phone incoming isSupported now).bind (·.value) }.Agrees
      (applyContactMethodUpdate phone incoming isSupported now) := by
  rcases applyContactMethodUpdate_cases phone incoming isSupported now with
    ⟨hincoming, hnone⟩ | ⟨requested, updated, -, hupdated, -, -, hhistory, hcases⟩
  · rw [hnone]
    refine h.recorded rfl ?_ ?_
    · intro entry hentry
      obtain ⟨stored, rfl, hmem⟩ := h.revocations entry hentry
      have hrevocation : entry ∈ revocationsOf (some stored) :=
        List.mem_filter.mpr ⟨hmem, decide_eq_true (h.states entry hentry)⟩
      rw [hkeeps hincoming] at hrevocation
      cases hrevocation
    · rintro _ ⟨⟩
  · rw [hupdated]
    refine h.recorded rfl ?_ ?_
    · intro entry hentry
      obtain ⟨stored, rfl, hmem⟩ := h.revocations entry hentry
      refine ⟨updated, rfl, ?_⟩
      rw [hhistory, consentHistoryWith]
      split
      · exact List.mem_append_left _ hmem
      · exact hmem
    · rintro _ ⟨⟩ verification hverification
      rcases hcases with ⟨-, -, hdropped⟩ | ⟨-, -, hsame⟩
      · rw [hdropped] at hverification
        cases hverification
      · rw [hsame] at hverification
        exact Option.bind_eq_some_iff.mp hverification

/-- A STOP message is agreed from then on. -/
theorem PhoneLedger.Agrees.stopped {stored : ContactMethod} (h : ledger.Agrees (some stored))
    (now : SystemTime) :
    (ledger.recordConsent (some (revokeConsent stored now))).Agrees
      (some (revokeConsent stored now)) := by
  have hvalue : (some (revokeConsent stored now)).bind (·.value) = ledger.value := by
    rw [← h.value]
    unfold revokeConsent
    split <;> rfl
  have hkept : ∀ entry ∈ ledger.revocations, ∃ written ∈ some (revokeConsent stored now),
      entry ∈ written.consentHistory := by
    intro entry hentry
    obtain ⟨_, ⟨⟩, hmem⟩ := h.revocations entry hentry
    refine ⟨_, rfl, ?_⟩
    unfold revokeConsent
    split
    · exact hmem
    · exact List.mem_append_left _ hmem
  have hprogress : ∀ written ∈ some (revokeConsent stored now),
      ∀ verification ∈ written.verificationInProgress,
      ∃ before ∈ some stored, verification ∈ before.verificationInProgress := by
    rintro _ ⟨⟩ verification hverification
    refine ⟨stored, rfl, ?_⟩
    unfold revokeConsent at hverification
    split at hverification <;> exact hverification
  have hrecorded := h.recorded hvalue hkept hprogress
  exact hrecorded

/-- A number that stays is agreed on as before. -/
theorem PhoneLedger.Agrees.kept (h : ledger.Agrees phone) {value : Option String}
    (hvalue : phone.bind (·.value) = value) :
    { ledger.recordConsent phone with value := value }.Agrees phone :=
  h.recorded hvalue h.revocations fun stored hstored _ hverification =>
    ⟨stored, hstored, hverification⟩

end

section

variable (crates : ValidationCrates) {userId : Nat} {s : Interleaved}

/-- Sending a code agrees with the ledger, if the number is found as it was read. -/
theorem agrees_send (h : s.ledger.Agrees (s.accounts.phoneOf userId)) {id : Nat}
    {outcome : SendOutcome} (hundisturbed : s.Undisturbed userId (.send id outcome)) :
    (s.send userId id outcome).ledger.Agrees
      ((s.send userId id outcome).accounts.phoneOf userId) := by
  unfold Interleaved.send
  split
  · rename_i caller request codeId hpending
    dsimp only
    rcases start_outcome s.accounts caller request outcome with
      ⟨reply, -, hsame, hfailed⟩ | ⟨updated, hstart, hwritten, hsucceeded⟩
    · rw [hsame, hfailed, if_neg (by simp)]
      exact h
    · rw [hwritten, hsucceeded]
      by_cases hself : caller.id = userId
      · have hread := hundisturbed caller request codeId hpending hself ⟨updated, hstart⟩
        obtain ⟨existing, hsendable, -⟩ := startVerification_eq_ok.mp hstart
        obtain ⟨hphone, -⟩ := sendable_eq_ok hsendable
        rw [if_pos ⟨hself, rfl⟩, hself,
          AccountsDb.phoneOf_persistPhone_self (isSome_of_carriedOver hphone hread)]
        exact h.sent hstart hread
      · rw [if_neg fun hboth => hself hboth.1, AccountsDb.phoneOf_persistPhone_of_ne (Ne.symm hself)]
        exact h
  · exact h

/-- A guess agrees with the ledger, if the number and the code are found as they were read. -/
theorem agrees_guess (h : s.ledger.Agrees (s.accounts.phoneOf userId)) {id : Nat}
    {checkedAt verifiedAt : SystemTime}
    (hundisturbed : s.Undisturbed userId (.guess id checkedAt verifiedAt)) :
    (s.guess userId id checkedAt verifiedAt).ledger.Agrees
      ((s.guess userId id checkedAt verifiedAt).accounts.phoneOf userId) := by
  unfold Interleaved.guess
  split
  · rename_i caller request codeId hpending
    dsimp only
    rcases verify_outcome s.accounts caller request checkedAt verifiedAt with
      ⟨reply, hverify, hsame⟩ | ⟨guessed, hverify, hwritten⟩
    · have hright : answersWrong request caller.phone checkedAt verifiedAt = false := by
        rw [answersWrong, hverify]
      rw [hsame, hright, if_neg (by simp)]
      exact h
    · rw [hwritten]
      by_cases hself : caller.id = userId
      · obtain ⟨hread, hprogress, hcode⟩ :=
          hundisturbed caller request codeId hpending hself ⟨guessed, hverify⟩
        obtain ⟨stored, -, hphone, -⟩ := verifyPhone_cases hverify
        rw [hself, AccountsDb.phoneOf_persistPhone_self (isSome_of_carriedOver hphone hread), hcode]
        have hagrees := h.guessed hverify hread hprogress
        simpa using hagrees
      · rw [if_neg fun hboth => hself hboth.1, AccountsDb.phoneOf_persistPhone_of_ne (Ne.symm hself)]
        exact h
  · exact h

/-- A step agrees with the ledger, if nothing disturbs it. -/
theorem agrees_step (h : s.ledger.Agrees (s.accounts.phoneOf userId)) {step : PhoneStep}
    (hundisturbed : s.Undisturbed userId step) :
    (s.step crates userId step).ledger.Agrees
      ((s.step crates userId step).accounts.phoneOf userId) := by
  cases step with
  | read id callerId call =>
    rw [Interleaved.step, Interleaved.read]
    split <;> exact h
  | send id outcome => exact agrees_send h hundisturbed
  | guess id checkedAt verifiedAt => exact agrees_guess h hundisturbed
  | edit callerId request context =>
    rw [Interleaved.step]
    dsimp only
    rcases step_edit crates s.accounts callerId request context with
      hsame | ⟨caller, edited, existing, hcaller, hexisting, hwritten, hedited⟩
    · rw [hsame]
      exact h.kept rfl
    · rw [hwritten, phoneOf_persistAccount hexisting]
      split
      · rename_i hself
        have hphone : s.accounts.phoneOf userId = existing.phone := by
          rw [hself, AccountsDb.phoneOf, hexisting, Option.bind_some]
        rw [hphone] at h
        rcases hedited with hkept | ⟨hdecoded, hedits, hchanged⟩
        · rw [hkept]
          exact h.kept rfl
        · rw [hchanged]
          refine h.edited context.supportsTel context.now ?_
          rw [← hphone]
          exact hundisturbed caller hcaller hedits (hself ▸ hdecoded)
      · exact h.kept rfl
  | stop e164Number now =>
    rw [Interleaved.step]
    dsimp only
    rcases phoneOf_revoke s.accounts e164Number now userId with
      hsame | ⟨stored, hstored, hrevoked⟩
    · rw [AccountsDb.step, hsame]
      exact h.kept h.value
    · rw [AccountsDb.step, hrevoked]
      rw [hstored] at h
      exact h.stopped now

/-- In every run in which nothing disturbs a call between its reading and its writing, what was
agreed about a number survives. -/
theorem survives_throughout (accounts : AccountsDb)
    (hcounted : ∀ stored ∈ accounts.phoneOf userId,
      ∀ verification ∈ stored.verificationInProgress, 0 ≤ verification.attempts)
    {steps : List PhoneStep}
    (hrun : Along (Interleaved.step crates userId) (Interleaved.Undisturbed userId)
      (Interleaved.start userId accounts) steps) :
    Throughout (Interleaved.step crates userId) (Interleaved.Survives userId)
      (Interleaved.start userId accounts) steps := by
  have hstart : (Interleaved.start userId accounts).ledger.Agrees (accounts.phoneOf userId) := by
    refine ⟨⟨?_, ?_, rfl, fun _ => Nat.zero_le _⟩, ?_, le_rfl, fun _ _ => rfl, ?_⟩
    · intro hrevoked stored hstored
      obtain ⟨stored', hstored', hconsent⟩ := consentRevoked_iff.mp hrevoked
      obtain rfl := Option.mem_unique hstored hstored'
      exact hconsent
    · exact fun entry hentry => (mem_revocationsOf hentry).2
    · exact fun entry hentry => (mem_revocationsOf hentry).1
    · intro stored hstored verification hverification
      exact Int32.le_iff_toInt_le.mp (hcounted stored hstored verification hverification)
  exact Throughout.of_along
    (I := fun s => s.ledger.Agrees (s.accounts.phoneOf userId))
    (fun _ _ hs hstep => agrees_step crates hs hstep) (fun _ hs => hs.toSurvives) hstart hrun

end

/-- A code that is sent and guessed at in vain, and a STOP message. -/
theorem survives_guessedAndStopped :
    Throughout (Interleaved.step noCrates 1) (Interleaved.Survives 1)
      (Interleaved.start 1 consentingAccounts)
      [.read 0 1 (.start { value := some "tel:+15550100" }),
        .send 0 ⟨true, 0, 7, .ok (), 0⟩,
        .read 1 1 (.verify ⟨"tel:+15550100", "123456"⟩),
        .guess 1 second second,
        .stop "+15550100" (2 * second)] := by
  refine survives_throughout noCrates consentingAccounts ?_
    ⟨trivial, ?_, trivial, ?_, trivial, trivial⟩
  · rintro _ ⟨⟩ _ ⟨⟩
  · rintro caller request codeId hpending - -
    cases hpending
    decide +kernel
  · rintro caller request codeId hpending - -
    cases hpending
    decide +kernel

/-- A code whose sending was on its way puts a consent back that was revoked meanwhile. -/
theorem consent_putBack :
    ¬ Throughout (Interleaved.step noCrates 1) (Interleaved.Survives 1)
      (Interleaved.start 1 consentingAccounts)
      [.read 0 1 (.start { value := some "tel:+15550100" }),
        .stop "+15550100" second,
        .send 0 ⟨true, 0, 7, .ok (), 2 * second⟩] := by
  intro h
  have hrevoked := h.2.2.2.revoked
  revert hrevoked
  decide +kernel

end Rellm.Users
