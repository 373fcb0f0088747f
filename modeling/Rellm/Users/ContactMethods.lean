import Rellm.Configuration.Validation
import Rellm.Foundation.Checks

/-!
# Contact methods

A user's phone number as it is stored: a code is sent to it and given back to verify it, and
the user consents to be contacted through it or revokes that. Every operation takes the
stored number to the one it stores.
-/

namespace Rellm.Users

open Foundation

/-- A reading of the server's clock, in nanoseconds since the epoch. -/
abbrev SystemTime := Nat

def second : SystemTime := 1000000000

/-- The timestamp of a reading; the fraction of its second is lost. -/
def toProtoTime (time : SystemTime) : Timestamp := ⟨Int64.ofNat (time / second), 0⟩

/-- The timestamp of a reading with the fraction of its second. -/
def intoTimestamp (time : SystemTime) : Timestamp :=
  ⟨Int64.ofNat (time / second), Int32.ofNat (time % second)⟩

/-- The instant of a timestamp; its nanoseconds are dropped. -/
def toDbTime (timestamp : Timestamp) : SystemTime := timestamp.seconds.toUInt64.toNat * second

/-- The instant a reading is remembered as. -/
def remembered (time : SystemTime) : SystemTime := toDbTime (toProtoTime time)

/-- A reading is never remembered as a later one. -/
theorem remembered_le (time : SystemTime) : remembered time ≤ time := by
  have hseconds : (Int64.ofNat (time / second)).toUInt64.toNat ≤ time / second :=
    Nat.mod_le _ _
  calc
    remembered time = (Int64.ofNat (time / second)).toUInt64.toNat * second := rfl
    _ ≤ time / second * second := Nat.mul_le_mul_right second hseconds
    _ ≤ time := Nat.div_mul_le_self time second

/-- Whether a user agrees to be contacted. -/
inductive ContactConsentState where
  | revoked
  | granted
  deriving DecidableEq, Repr

/-- The raw enumeration value of a consent. -/
def ContactConsentState.toI32 : ContactConsentState → Int32
  | .revoked => 0
  | .granted => 1

/-- The consent with a raw value; a value outside the enumeration counts as revoked. -/
def ContactConsentState.ofI32 (value : Int32) : ContactConsentState :=
  if value = 1 then .granted else .revoked

@[simp] theorem ContactConsentState.ofI32_toI32 (state : ContactConsentState) :
    ofI32 state.toI32 = state := by
  cases state <;> rfl

/-- An entry of the history of a consent. -/
structure ContactConsentChange where
  state : Int32
  changedAt : Option Timestamp
  deriving DecidableEq, Repr

/-- A code that was sent and not given back yet. -/
structure ContactMethodVerification where
  verificationCode : String
  verificationStartedAt : Option Timestamp
  attempts : Int32
  deriving DecidableEq, Repr

structure ContactMethod where
  value : Option String
  visibility : Visibility := .unknown
  supportedByServer : Bool := false
  verifiedAt : Option Timestamp := none
  verificationInProgress : Option ContactMethodVerification := none
  consentState : Int32 := 0
  consentHistory : List ContactConsentChange := []
  deriving DecidableEq, Repr

namespace ContactMethod

def consent (method : ContactMethod) : ContactConsentState := .ofI32 method.consentState

/-- The consent as of the last entry of the history; revoked is the default. -/
def historicConsent (method : ContactMethod) : ContactConsentState :=
  (method.consentHistory.getLast?.map fun change => .ofI32 change.state).getD .revoked

/-- The code is never echoed back. -/
def withoutCode (method : ContactMethod) : ContactMethod :=
  { method with
    verificationInProgress := method.verificationInProgress.map
      fun verification => { verification with verificationCode := "" } }

/-- When the last code was sent, as far as it is remembered. -/
def startedAt (method : ContactMethod) : Option SystemTime :=
  (method.verificationInProgress.bind (·.verificationStartedAt)).map toDbTime

end ContactMethod

/-- Whether a text starts with another. -/
def startsWith (start value : String) : Bool := start.toList.isPrefixOf value.toList

/-- A telephone number as a URL: a plus sign and digits. -/
def isTelUrl (value : String) : Bool :=
  let digits := value.toList.drop 5
  startsWith "tel:+" value && !digits.isEmpty && digits.all Char.isDigit

def validatePhone (value : Option String) : Except Status Unit :=
  match value with
  | none => .ok ()
  | some value => do
    validateLength value "phone" 1 128
    require (isTelUrl value) ⟨.invalidArgument, "phone_must_be_a_tel_url_in_e164_format"⟩

def validateEmail (value : Option String) : Except Status Unit :=
  match value with
  | none => .ok ()
  | some value => validateLength value "email" 1 255

/-- Only numbers are verified. -/
def validateTelValue (value : String) : Except Status Unit := do
  require (startsWith "mailto:" value = false)
    ⟨.unimplemented, "email_verification_not_implemented"⟩
  require (startsWith "tel:" value) ⟨.invalidArgument, "value_must_be_a_tel_or_mailto_url"⟩

/-- The stored number, if it is the one of a request. -/
def phoneWithValue (phone : Option ContactMethod) (value : String) :
    Except Status ContactMethod :=
  okOr (phone.filter fun method => method.value = some value)
    ⟨.failedPrecondition, "phone_not_set"⟩

theorem phoneWithValue_eq_ok {phone : Option ContactMethod} {value : String}
    {method : ContactMethod} :
    phoneWithValue phone value = .ok method ↔ phone = some method ∧ method.value = some value := by
  unfold phoneWithValue
  rw [okOr_eq_ok, Option.filter_eq_some_iff, decide_eq_true_eq]

/-- The time between two sends to a user. -/
def resendCooldown : SystemTime := 60 * second

/-- The time a code is good for. -/
def codeTtl : SystemTime := 10 * 60 * second

/-- The wrong guesses a code survives. -/
def maxAttempts : Int32 := 5

/-- A drawn code, with its six digits. -/
def codeOfDraw (draw : Fin 1000000) : String :=
  let digits := Nat.toDigits 10 draw
  String.ofList (List.replicate (6 - digits.length) '0' ++ digits)

/-- What a send meets: whether the server sends at all, the clock where the last send is looked
at, the code that is drawn, what the provider answers, and the clock after that. -/
structure SendOutcome where
  telSupported : Bool
  checkedAt : SystemTime
  draw : Fin 1000000
  answer : Except Status Unit
  sentAt : SystemTime

/-- The number a code may be sent to, unless one was sent just before. -/
def sendable (request : ContactMethod) (phone : Option ContactMethod) (telSupported : Bool) :
    Except Status ContactMethod := do
  let value ← okOr request.value ⟨.invalidArgument, "value_required"⟩
  validateTelValue value
  validatePhone (some value)
  let existing ← phoneWithValue phone value
  require (existing.consent = .granted) ⟨.failedPrecondition, "contact_consent_not_granted"⟩
  require telSupported ⟨.failedPrecondition, "verification_not_configured"⟩
  return existing

/-- A code is sent to the number; the answer is what is stored then. -/
def startVerification (request : ContactMethod) (phone : Option ContactMethod)
    (outcome : SendOutcome) : Except Status ContactMethod := do
  let existing ← sendable request phone outcome.telSupported
  require (∀ started ∈ existing.startedAt, started + resendCooldown ≤ outcome.checkedAt)
    ⟨.failedPrecondition, "verification_recently_sent"⟩
  outcome.answer
  return { existing with
    supportedByServer := true
    verificationInProgress := some {
      verificationCode := codeOfDraw outcome.draw
      verificationStartedAt := some (toProtoTime outcome.sentAt)
      attempts := 0 } }

/-- A number a code may be sent to is the stored one that was requested, and may be contacted. -/
theorem sendable_eq_ok {request : ContactMethod} {phone : Option ContactMethod}
    {telSupported : Bool} {existing : ContactMethod}
    (h : sendable request phone telSupported = .ok existing) :
    phone = some existing ∧ existing.value = request.value ∧ existing.consent = .granted := by
  simp only [sendable, checks_eq_ok, okOr_eq_ok, phoneWithValue_eq_ok, require_eq_ok,
    pure_eq_ok] at h
  obtain ⟨value, hvalue, -, -, -, -, found, ⟨hphone, hfound⟩, -, hconsent, -, -, rfl⟩ := h
  exact ⟨hphone, hfound.trans hvalue.symm, hconsent⟩

/-- What a send stores: the number as it was, with a new code. -/
theorem startVerification_eq_ok {request : ContactMethod} {phone : Option ContactMethod}
    {outcome : SendOutcome} {updated : ContactMethod} :
    startVerification request phone outcome = .ok updated ↔
      ∃ existing, sendable request phone outcome.telSupported = .ok existing ∧
        (∀ started ∈ existing.startedAt, started + resendCooldown ≤ outcome.checkedAt) ∧
        outcome.answer = .ok () ∧
        updated = { existing with
          supportedByServer := true
          verificationInProgress := some {
            verificationCode := codeOfDraw outcome.draw
            verificationStartedAt := some (toProtoTime outcome.sentAt)
            attempts := 0 } } := by
  simp only [startVerification, checks_eq_ok, require_eq_ok, pure_eq_ok]
  constructor
  · rintro ⟨existing, hexisting, _, hcooldown, _, hanswer, rfl⟩
    exact ⟨existing, hexisting, hcooldown, hanswer, rfl⟩
  · rintro ⟨existing, hexisting, hcooldown, hanswer, rfl⟩
    exact ⟨existing, hexisting, (), hcooldown, (), hanswer, rfl⟩

/-- A code is only sent to a telephone number. -/
theorem validateTelValue_of_sendable {request : ContactMethod} {phone : Option ContactMethod}
    {telSupported : Bool} {existing : ContactMethod}
    (h : sendable request phone telSupported = .ok existing) :
    ∃ value, request.value = some value ∧ validateTelValue value = .ok () := by
  simp only [sendable, checks_eq_ok, okOr_eq_ok] at h
  obtain ⟨value, hvalue, _, htel, -⟩ := h
  exact ⟨value, hvalue, htel⟩

structure VerifyRequest where
  value : String
  code : String
  deriving DecidableEq, Repr

/-- A number as it is stored by a guess, with the reply. -/
structure Guessed where
  phone : ContactMethod
  reply : Except Status ContactMethod

/-- A code is given back. The clock is read where the age of the code is looked at, and again
where the number is verified. -/
def verifyPhone (request : VerifyRequest) (phone : Option ContactMethod)
    (checkedAt verifiedAt : SystemTime) : Except Status Guessed := do
  validateTelValue request.value
  let phone ← phoneWithValue phone request.value
  let verification ← okOr phone.verificationInProgress
    ⟨.failedPrecondition, "no_verification_in_progress"⟩
  let startedAt := (verification.verificationStartedAt.map toDbTime).getD 0
  let cleared := { phone with verificationInProgress := none }
  if startedAt + codeTtl < checkedAt then
    return ⟨cleared, .error ⟨.failedPrecondition, "verification_expired"⟩⟩
  else if verification.attempts ≥ maxAttempts then
    return ⟨cleared, .error ⟨.failedPrecondition, "too_many_attempts"⟩⟩
  else if request.code ≠ verification.verificationCode then
    let counted := { verification with attempts := verification.attempts + 1 }
    return ⟨{ phone with verificationInProgress := some counted },
      .error ⟨.invalidArgument, "incorrect_code"⟩⟩
  else
    let verified := { cleared with verifiedAt := some (toProtoTime verifiedAt) }
    return ⟨verified, .ok verified⟩

/-- What a guess does: the code has expired, it was guessed at too often, the guess is wrong, or it
verifies the number. -/
theorem verifyPhone_cases {request : VerifyRequest} {phone : Option ContactMethod}
    {checkedAt verifiedAt : SystemTime} {guessed : Guessed}
    (h : verifyPhone request phone checkedAt verifiedAt = .ok guessed) :
    ∃ stored verification, phone = some stored ∧ stored.value = some request.value ∧
      stored.verificationInProgress = some verification ∧
      ((∃ reply, reply.message ≠ "incorrect_code" ∧
          guessed = ⟨{ stored with verificationInProgress := none }, .error reply⟩) ∨
        verification.attempts < maxAttempts ∧
          (verification.verificationStartedAt.map toDbTime).getD 0 + codeTtl ≥ checkedAt ∧
          (request.code ≠ verification.verificationCode ∧
            guessed = ⟨{ stored with verificationInProgress := some { verification with
                attempts := verification.attempts + 1 } },
              .error ⟨.invalidArgument, "incorrect_code"⟩⟩ ∨
          request.code = verification.verificationCode ∧
            guessed.phone = { stored with
              verificationInProgress := none
              verifiedAt := some (toProtoTime verifiedAt) } ∧
            guessed.reply = .ok guessed.phone)) := by
  simp only [verifyPhone, checks_eq_ok, okOr_eq_ok, phoneWithValue_eq_ok] at h
  obtain ⟨-, -, stored, ⟨hphone, hvalue⟩, verification, hverification, h⟩ := h
  refine ⟨stored, verification, hphone, hvalue, hverification, ?_⟩
  split at h
  · cases h
    exact .inl ⟨_, by decide, rfl⟩
  · rename_i hfresh
    split at h
    · cases h
      exact .inl ⟨_, by decide, rfl⟩
    · rename_i hattempts
      refine .inr ⟨Int32.not_le.mp hattempts, Nat.not_lt.mp hfresh, ?_⟩
      split at h
      · rename_i hcode
        cases h
        exact .inl ⟨hcode, rfl⟩
      · rename_i hcode
        cases h
        exact .inr ⟨not_not.mp hcode, rfl, rfl⟩

/-- A guess at a code that is in progress is not refused. -/
theorem verifyPhone_of_progress {request : VerifyRequest} {stored : ContactMethod}
    {verification : ContactMethodVerification}
    (htel : validateTelValue request.value = .ok ()) (hvalue : stored.value = some request.value)
    (hprogress : stored.verificationInProgress = some verification)
    (checkedAt verifiedAt : SystemTime) :
    ∃ guessed, verifyPhone request (some stored) checkedAt verifiedAt = .ok guessed := by
  have hphone := phoneWithValue_eq_ok.mpr ⟨rfl, hvalue⟩
  unfold verifyPhone
  rw [checks_of_ok htel, checks_of_ok hphone, checks_of_ok (okOr_eq_ok.mpr hprogress)]
  dsimp only
  split_ifs <;> exact ⟨_, rfl⟩

/-- A guess leaves the time of the code it was at, or no code. -/
theorem startedAt_verifyPhone {request : VerifyRequest} {phone : Option ContactMethod}
    {checkedAt verifiedAt : SystemTime} {guessed : Guessed}
    (h : verifyPhone request phone checkedAt verifiedAt = .ok guessed) :
    ∀ started ∈ guessed.phone.startedAt, started ∈ phone.bind ContactMethod.startedAt := by
  obtain ⟨stored, verification, rfl, -, hverification, hcases⟩ := verifyPhone_cases h
  rcases hcases with ⟨reply, -, rfl⟩ | ⟨-, -, ⟨-, rfl⟩ | ⟨-, hphone, -⟩⟩
  · nofun
  · intro started hstarted
    rw [Option.bind_some, ContactMethod.startedAt, hverification]
    exact hstarted
  · rw [hphone]
    nofun

/-- What a profile edit makes of a contact method: the value, the visibility and the consent are
the client's, the rest is the server's. -/
def applyContactMethodUpdate (existing incoming : Option ContactMethod)
    (isSupported : String → Bool) (now : SystemTime) : Option ContactMethod := do
  let incoming ← incoming
  let valueChanged := existing.bind (·.value) ≠ incoming.value
  let existingConsent := (existing.map (·.consent)).getD .revoked
  let history := (existing.map (·.consentHistory)).getD []
  return {
    value := incoming.value
    visibility := incoming.visibility
    supportedByServer := incoming.value.any isSupported
    verifiedAt := if valueChanged then none else existing.bind (·.verifiedAt)
    verificationInProgress :=
      if valueChanged then none else existing.bind (·.verificationInProgress)
    consentState := incoming.consent.toI32
    consentHistory :=
      if incoming.consent ≠ existingConsent then
        history ++ [⟨incoming.consent.toI32, some (intoTimestamp now)⟩]
      else history }

/-- The history after a consent was asked for: an entry is added where it differs. -/
def consentHistoryWith (existing : Option ContactMethod) (consent : ContactConsentState)
    (now : SystemTime) : List ContactConsentChange :=
  let history := (existing.map (·.consentHistory)).getD []
  if consent ≠ (existing.map (·.consent)).getD .revoked then
    history ++ [⟨consent.toI32, some (intoTimestamp now)⟩]
  else history

/-- What an edit does: it clears the number, or stores one under the value and the consent of the
client, which keeps its verification exactly if the value stays. -/
theorem applyContactMethodUpdate_cases (existing incoming : Option ContactMethod)
    (isSupported : String → Bool) (now : SystemTime) :
    (incoming = none ∧ applyContactMethodUpdate existing incoming isSupported now = none) ∨
      ∃ requested updated, incoming = some requested ∧
        applyContactMethodUpdate existing incoming isSupported now = some updated ∧
        updated.value = requested.value ∧
        updated.consentState = requested.consent.toI32 ∧
        updated.consentHistory = consentHistoryWith existing requested.consent now ∧
        (existing.bind (·.value) ≠ requested.value ∧ updated.verifiedAt = none ∧
            updated.verificationInProgress = none ∨
          existing.bind (·.value) = requested.value ∧
            updated.verifiedAt = existing.bind (·.verifiedAt) ∧
            updated.verificationInProgress = existing.bind (·.verificationInProgress)) := by
  cases incoming with
  | none => exact .inl ⟨rfl, rfl⟩
  | some requested =>
    right
    refine ⟨requested, _, rfl, rfl, rfl, rfl, rfl, ?_⟩
    by_cases hvalue : existing.bind (·.value) = requested.value
    · right
      exact ⟨hvalue, if_neg (not_not.mpr hvalue), if_neg (not_not.mpr hvalue)⟩
    · left
      exact ⟨hvalue, if_pos hvalue, if_pos hvalue⟩

/-- An edit leaves the value of the client. -/
theorem applyContactMethodUpdate_value (existing incoming : Option ContactMethod)
    (isSupported : String → Bool) (now : SystemTime) :
    (applyContactMethodUpdate existing incoming isSupported now).bind (·.value) =
      incoming.bind (·.value) := by
  cases incoming <;> rfl

/-- An edit keeps the verification in progress or drops it. -/
theorem startedAt_applyContactMethodUpdate (existing incoming : Option ContactMethod)
    (isSupported : String → Bool) (now : SystemTime) :
    ∀ started ∈ (applyContactMethodUpdate existing incoming isSupported now).bind
        ContactMethod.startedAt, started ∈ existing.bind ContactMethod.startedAt := by
  intro started hstarted
  rcases applyContactMethodUpdate_cases existing incoming isSupported now with
    ⟨-, hnone⟩ | ⟨_, updated, -, hupdated, -, -, -, ⟨-, -, hdropped⟩ | ⟨-, -, hkept⟩⟩
  · rw [hnone] at hstarted
    cases hstarted
  · rw [hupdated, Option.bind_some, ContactMethod.startedAt, hdropped] at hstarted
    cases hstarted
  · rw [hupdated, Option.bind_some, ContactMethod.startedAt, hkept] at hstarted
    cases existing with
    | none => cases hstarted
    | some stored => exact hstarted

/-- What a STOP message makes of a number that it is for. -/
def revokeConsent (phone : ContactMethod) (now : SystemTime) : ContactMethod :=
  if phone.consentState = ContactConsentState.revoked.toI32 then phone
  else { phone with
    consentState := ContactConsentState.revoked.toI32
    consentHistory := phone.consentHistory ++
      [⟨ContactConsentState.revoked.toI32, some (intoTimestamp now)⟩] }

theorem startedAt_revokeConsent (phone : ContactMethod) (now : SystemTime) :
    (revokeConsent phone now).startedAt = phone.startedAt := by
  unfold revokeConsent
  split <;> rfl

end Rellm.Users
