import Rellm.Foundation.Run
import Rellm.Foundation.Statements
import Rellm.Users.Accounts

/-!
# What happens to a stored number

The calls on the accounts one after the other, and what each of them is to one user: a code
that was sent, a guess, an edit of the number. However a call ends, it takes the user's number
through one operation on contact methods, or leaves it.
-/

namespace Rellm.Users

open Foundation Content

/-- A call on the accounts, or a STOP message. -/
inductive AccountCall where
  | start (callerId : Nat) (request : ContactMethod) (outcome : SendOutcome)
  | verify (callerId : Nat) (request : VerifyRequest) (checkedAt verifiedAt : SystemTime)
  | edit (callerId : Nat) (request : UserRequest) (context : EditContext)
  | stop (e164Number : String) (now : SystemTime)

/-- When a call reads the clock first. -/
def AccountCall.beginsAt : AccountCall → SystemTime
  | .start _ _ outcome => outcome.checkedAt
  | .verify _ _ checkedAt _ => checkedAt
  | .edit _ _ context => context.now
  | .stop _ now => now

/-- When a call reads the clock last. -/
def AccountCall.endsAt : AccountCall → SystemTime
  | .start _ _ outcome => outcome.sentAt
  | .verify _ _ _ verifiedAt => verifiedAt
  | .edit _ _ context => context.now
  | .stop _ now => now

/-- What happened to the number of a user: a code was sent to it, a code was given back, or an
edit left a value. -/
inductive PhoneEvent where
  | sent (value code : String) (time : SystemTime)
  | guessed (value code : String) (time : SystemTime)
  | left (value : Option String)
  deriving DecidableEq, Repr

/-- An authenticated call is made with the row of its caller. -/
def authenticated {α : Type} (callerId : Nat) (rpc : Account → AccountsRpc α) : AccountsRpc α := do
  let currentUser ← attempt fun db => okOr (db.users.get callerId)
    (.status ⟨.unauthenticated, "authentication_required"⟩)
  rpc currentUser

section

variable (crates : ValidationCrates)

/-- The accounts after a call. -/
def AccountsDb.step (db : AccountsDb) : AccountCall → AccountsDb
  | .start callerId request outcome =>
    finalState (authenticated callerId
      (fun user => startContactMethodVerification user request outcome) db)
  | .verify callerId request checkedAt verifiedAt =>
    finalState (authenticated callerId
      (fun user => verifyContactMethod user request checkedAt verifiedAt) db)
  | .edit callerId request context =>
    finalState (authenticated callerId (fun user => updateUser crates user request context) db)
  | .stop e164Number now => revokeSmsConsentByPhoneNumber e164Number now db

/-- What a call is to a user. -/
def AccountsDb.events (db : AccountsDb) (userId : Nat) (call : AccountCall) : List PhoneEvent :=
  match call with
  | .start callerId request outcome =>
    if callerId = userId ∧ succeeded (authenticated callerId
        (fun user => startContactMethodVerification user request outcome) db) then
      [.sent (request.value.getD "") (codeOfDraw outcome.draw) outcome.sentAt]
    else []
  | .verify callerId request checkedAt _ =>
    if callerId = userId then [.guessed request.value request.code checkedAt] else []
  | .edit _ _ _ => [.left (((db.step crates call).phoneOf userId).bind (·.value))]
  | .stop _ _ => []

end

/-- Whether an edit makes a number supported. -/
def EditContext.supportsTel (context : EditContext) (value : String) : Bool :=
  startsWith "tel:" value && context.supports .tel

/-- What a call makes of the stored number of a user. -/
inductive PhoneChange :
    AccountCall → Option ContactMethod → List PhoneEvent → Option ContactMethod → Prop
  | unchanged {call : AccountCall} {phone : Option ContactMethod} : PhoneChange call phone [] phone
  | sent {callerId : Nat} {request updated : ContactMethod} {phone : Option ContactMethod}
      {outcome : SendOutcome} (h : startVerification request phone outcome = .ok updated) :
      PhoneChange (.start callerId request outcome) phone
        [.sent (request.value.getD "") (codeOfDraw outcome.draw) outcome.sentAt] (some updated)
  | refused {callerId : Nat} {request : VerifyRequest} {phone : Option ContactMethod}
      {checkedAt verifiedAt : SystemTime} {reply : Status}
      (h : verifyPhone request phone checkedAt verifiedAt = .error reply) :
      PhoneChange (.verify callerId request checkedAt verifiedAt) phone
        [.guessed request.value request.code checkedAt] phone
  | guessed {callerId : Nat} {request : VerifyRequest} {phone : Option ContactMethod}
      {checkedAt verifiedAt : SystemTime} {guessed : Guessed}
      (h : verifyPhone request phone checkedAt verifiedAt = .ok guessed) :
      PhoneChange (.verify callerId request checkedAt verifiedAt) phone
        [.guessed request.value request.code checkedAt] (some guessed.phone)
  | kept {callerId : Nat} {request : UserRequest} {context : EditContext}
      {phone : Option ContactMethod} :
      PhoneChange (.edit callerId request context) phone [.left (phone.bind (·.value))] phone
  | edited {callerId : Nat} {request : UserRequest} {context : EditContext}
      {phone : Option ContactMethod} :
      PhoneChange (.edit callerId request context) phone [.left (request.phone.bind (·.value))]
        (applyContactMethodUpdate phone request.phone context.supportsTel context.now)
  | revoked {e164Number : String} {phone : ContactMethod} {now : SystemTime} :
      PhoneChange (.stop e164Number now) (some phone) [] (some (revokeConsent phone now))

section

variable {db : AccountsDb}

/-- A call of nobody does nothing. -/
theorem authenticated_of_none {α : Type} {callerId : Nat} (rpc : Account → AccountsRpc α)
    (h : db.users.get callerId = none) :
    finalState (authenticated callerId rpc db) = db ∧
      succeeded (authenticated callerId rpc db) = false := by
  have herror : authenticated callerId rpc db =
      .error (.status ⟨.unauthenticated, "authentication_required"⟩) db :=
    bind_of_error (attempt_of_error (by rw [h]; rfl))
  rw [herror]
  exact ⟨rfl, rfl⟩

theorem authenticated_of_some {α : Type} {callerId : Nat} {rpc : Account → AccountsRpc α}
    {account : Account} (h : db.users.get callerId = some account) :
    authenticated callerId rpc db = rpc account db :=
  bind_of_ok (attempt_of_ok (okOr_eq_ok.mpr h))

/-- A send that is refused does nothing; otherwise it stores the number with its code. -/
theorem start_outcome (db : AccountsDb) (currentUser : Account) (request : ContactMethod)
    (outcome : SendOutcome) :
    (∃ reply, startVerification request currentUser.phone outcome = .error reply ∧
      finalState (startContactMethodVerification currentUser request outcome db) = db ∧
      succeeded (startContactMethodVerification currentUser request outcome db) = false) ∨
    ∃ updated, startVerification request currentUser.phone outcome = .ok updated ∧
      finalState (startContactMethodVerification currentUser request outcome db) =
        db.persistPhone currentUser.id updated ∧
      succeeded (startContactMethodVerification currentUser request outcome db) = true := by
  cases h : startVerification request currentUser.phone outcome with
  | error reply =>
    have herror : startContactMethodVerification currentUser request outcome db =
        .error (.status reply) db := bind_of_error (attempt_of_error (by rw [h]; rfl))
    rw [herror]
    exact .inl ⟨reply, rfl, rfl, rfl⟩
  | ok updated =>
    have hok : startContactMethodVerification currentUser request outcome db =
        .ok updated.withoutCode (db.persistPhone currentUser.id updated) :=
      bind_of_ok (attempt_of_ok (answered_eq_ok.mpr h))
    rw [hok]
    exact .inr ⟨updated, rfl, rfl, rfl⟩

/-- A call to send a code sends one exactly if the number of its caller can be sent one. -/
theorem succeeded_start (callerId : Nat) (request : ContactMethod) (outcome : SendOutcome) :
    succeeded (authenticated callerId
        (fun user => startContactMethodVerification user request outcome) db) = true ↔
      ∃ updated, startVerification request (db.phoneOf callerId) outcome = .ok updated := by
  cases hcaller : db.users.get callerId with
  | none =>
    have hphone : db.phoneOf callerId = none := by
      rw [AccountsDb.phoneOf, hcaller, Option.bind_none]
    rw [(authenticated_of_none _ hcaller).2, hphone]
    refine iff_of_false nofun ?_
    rintro ⟨updated, h⟩
    obtain ⟨existing, hsendable, -⟩ := startVerification_eq_ok.mp h
    obtain ⟨hnone, -⟩ := sendable_eq_ok hsendable
    cases hnone
  | some caller =>
    have hphone : db.phoneOf callerId = caller.phone := by
      rw [AccountsDb.phoneOf, hcaller, Option.bind_some]
    rw [authenticated_of_some hcaller, hphone]
    rcases start_outcome db caller request outcome with
      ⟨reply, herror, -, hfailed⟩ | ⟨updated, hok, -, hsucceeded⟩
    · rw [hfailed, herror]
      exact iff_of_false nofun nofun
    · rw [hsucceeded, hok]
      exact iff_of_true rfl ⟨updated, rfl⟩

/-- A guess that is refused does nothing; otherwise it stores what became of the number. -/
theorem verify_outcome (db : AccountsDb) (currentUser : Account) (request : VerifyRequest)
    (checkedAt verifiedAt : SystemTime) :
    (∃ reply, verifyPhone request currentUser.phone checkedAt verifiedAt = .error reply ∧
      finalState (verifyContactMethod currentUser request checkedAt verifiedAt db) = db) ∨
    ∃ guessed, verifyPhone request currentUser.phone checkedAt verifiedAt = .ok guessed ∧
      finalState (verifyContactMethod currentUser request checkedAt verifiedAt db) =
        db.persistPhone currentUser.id guessed.phone := by
  cases h : verifyPhone request currentUser.phone checkedAt verifiedAt with
  | error reply =>
    have herror : verifyContactMethod currentUser request checkedAt verifiedAt db =
        .error (.status reply) db := bind_of_error (attempt_of_error (by rw [h]; rfl))
    rw [herror]
    exact .inl ⟨reply, rfl, rfl⟩
  | ok guessed =>
    have hok : verifyContactMethod currentUser request checkedAt verifiedAt db =
        attempt (fun _ => answered guessed.reply) (db.persistPhone currentUser.id guessed.phone) :=
      bind_of_ok (attempt_of_ok (answered_eq_ok.mpr h))
    rw [hok, finalState_attempt]
    exact .inr ⟨guessed, rfl, rfl⟩

/-- An edit that is refused does nothing; otherwise it writes the edited row. -/
theorem update_outcome (db : AccountsDb) (crates : ValidationCrates) (currentUser : Account)
    (request : UserRequest) (context : EditContext) :
    finalState (updateUser crates currentUser request context db) = db ∨
    ∃ edited, checkUpdateUser crates currentUser request context db = .ok edited ∧
      finalState (updateUser crates currentUser request context db) =
        db.persistAccount edited := by
  cases h : checkUpdateUser crates currentUser request context db with
  | error reply =>
    have herror : updateUser crates currentUser request context db = .error (.status reply) db :=
      bind_of_error (attempt_of_error (by rw [h]; rfl))
    rw [herror]
    exact .inl rfl
  | ok edited =>
    have hok : updateUser crates currentUser request context db =
        .ok edited (db.persistAccount edited) :=
      bind_of_ok (attempt_of_ok (answered_eq_ok.mpr h))
    rw [hok]
    exact .inr ⟨edited, rfl, rfl⟩

/-- An edited row is an existing one under its id, with the number kept or edited. -/
theorem checkUpdateUser_eq_ok {crates : ValidationCrates} {currentUser : Account}
    {request : UserRequest} {context : EditContext} {edited : Account}
    (h : checkUpdateUser crates currentUser request context db = .ok edited) :
    ∃ existing, db.users.get edited.id = some existing ∧
      (edited.phone = existing.phone ∨
        request.id.decoded = some edited.id ∧ editsProfile currentUser request = true ∧
          edited.phone = applyContactMethodUpdate existing.phone request.phone
            context.supportsTel context.now) := by
  simp only [checkUpdateUser, checks_eq_ok, okOr_eq_ok, pure_eq_ok, IdText.toDbIdOrErr] at h
  obtain ⟨-, -, userId, hdecoded, avatarMediaId, -, -, -, existing, hexisting, -, -, -, -, -, -,
    rfl⟩ := h
  have hid : (editAccount currentUser request context avatarMediaId existing).id = userId :=
    (editAccount_id currentUser request context avatarMediaId existing).trans
      (AccountsDb.id_of_get hexisting)
  refine ⟨existing, ?_, ?_⟩
  · rw [hid]
    exact hexisting
  · rw [hid, editAccount_phone]
    split
    · rename_i hedits
      exact .inr ⟨hdecoded, hedits, rfl⟩
    · exact .inl rfl

/-- A written row leaves the numbers of others. -/
theorem phoneOf_persistAccount {edited existing : Account}
    (h : db.users.get edited.id = some existing) (userId : Nat) :
    (db.persistAccount edited).phoneOf userId =
      if userId = edited.id then edited.phone else db.phoneOf userId := by
  unfold AccountsDb.phoneOf AccountsDb.persistAccount
  rw [Serial.get_modify]
  split
  · rename_i heq
    rw [heq, h]
    rfl
  · rfl

/-- A STOP message revokes the consent of the number, or is not for it. -/
theorem phoneOf_revoke (db : AccountsDb) (e164Number : String) (now : SystemTime) (userId : Nat) :
    (revokeSmsConsentByPhoneNumber e164Number now db).phoneOf userId = db.phoneOf userId ∨
    ∃ stored, db.phoneOf userId = some stored ∧
      (revokeSmsConsentByPhoneNumber e164Number now db).phoneOf userId =
        some (revokeConsent stored now) := by
  have hget : (revokeSmsConsentByPhoneNumber e164Number now db).users.get userId =
      (db.users.get userId).map fun account =>
        if account.hasNumber e164Number then account.revokeConsent now else account :=
    db.users.toTable.get_update (Account.hasNumber e164Number) (Account.revokeConsent now)
      (fun _ => rfl) userId
  unfold AccountsDb.phoneOf
  rw [hget]
  cases db.users.get userId with
  | none => exact .inl rfl
  | some account =>
    rw [Option.map_some, Option.bind_some, Option.bind_some]
    split
    · rename_i hnumber
      unfold Account.hasNumber at hnumber
      cases hphone : account.phone with
      | none =>
        rw [hphone] at hnumber
        cases hnumber
      | some stored =>
        right
        refine ⟨stored, rfl, ?_⟩
        rw [Account.revokeConsent, hphone, Option.map_some]
    · exact .inl rfl

/-- An edit writes one row, with the number kept or edited, or does nothing. -/
theorem step_edit (crates : ValidationCrates) (db : AccountsDb) (callerId : Nat)
    (request : UserRequest) (context : EditContext) :
    db.step crates (.edit callerId request context) = db ∨
      ∃ caller edited existing, db.users.get callerId = some caller ∧
        db.users.get edited.id = some existing ∧
        db.step crates (.edit callerId request context) = db.persistAccount edited ∧
        (edited.phone = existing.phone ∨
          request.id.decoded = some edited.id ∧ editsProfile caller request = true ∧
            edited.phone = applyContactMethodUpdate existing.phone request.phone
              context.supportsTel context.now) := by
  rw [AccountsDb.step]
  cases hcaller : db.users.get callerId with
  | none => exact .inl (authenticated_of_none _ hcaller).1
  | some caller =>
    rw [authenticated_of_some hcaller]
    rcases update_outcome db crates caller request context with
      hsame | ⟨edited, hchecked, hwritten⟩
    · exact .inl hsame
    · obtain ⟨existing, hexisting, hphone⟩ := checkUpdateUser_eq_ok hchecked
      exact .inr ⟨caller, edited, existing, rfl, hexisting, hwritten, hphone⟩

/-- However a call ends, the number of each user goes through one operation or stays. -/
theorem phoneChange_step (crates : ValidationCrates) (db : AccountsDb) (call : AccountCall)
    (userId : Nat) :
    PhoneChange call (db.phoneOf userId) (db.events crates userId call)
      ((db.step crates call).phoneOf userId) := by
  cases call with
  | start callerId request outcome =>
    rw [AccountsDb.events, AccountsDb.step]
    cases hcaller : db.users.get callerId with
    | none =>
      obtain ⟨hsame, hfailed⟩ := authenticated_of_none
        (fun user => startContactMethodVerification user request outcome) hcaller
      rw [hsame, hfailed, if_neg (by simp)]
      exact .unchanged
    | some caller =>
      have hid : caller.id = callerId := AccountsDb.id_of_get hcaller
      rw [authenticated_of_some hcaller]
      rcases start_outcome db caller request outcome with
        ⟨reply, -, hsame, hfailed⟩ | ⟨updated, hstart, hwritten, hsucceeded⟩
      · rw [hsame, hfailed, if_neg (by simp)]
        exact .unchanged
      · rw [hwritten, hsucceeded, hid, AccountsDb.phoneOf_persistPhone hcaller]
        by_cases hself : userId = callerId
        · have hphone : db.phoneOf userId = caller.phone := by
            rw [hself, AccountsDb.phoneOf, hcaller, Option.bind_some]
          rw [if_pos hself, if_pos ⟨hself.symm, rfl⟩, hphone]
          exact .sent hstart
        · rw [if_neg hself, if_neg fun h => hself h.1.symm]
          exact .unchanged
  | verify callerId request checkedAt verifiedAt =>
    rw [AccountsDb.events, AccountsDb.step]
    cases hcaller : db.users.get callerId with
    | none =>
      rw [(authenticated_of_none _ hcaller).1]
      by_cases hself : userId = callerId
      · have hphone : db.phoneOf userId = none := by
          rw [hself, AccountsDb.phoneOf, hcaller, Option.bind_none]
        rw [if_pos hself.symm, hphone]
        cases hverify : verifyPhone request none checkedAt verifiedAt with
        | error reply => exact .refused hverify
        | ok guessed =>
          obtain ⟨stored, -, hstored, -⟩ := verifyPhone_cases hverify
          cases hstored
      · rw [if_neg fun h => hself h.symm]
        exact .unchanged
    | some caller =>
      have hid : caller.id = callerId := AccountsDb.id_of_get hcaller
      rw [authenticated_of_some hcaller]
      by_cases hself : userId = callerId
      · have hphone : db.phoneOf userId = caller.phone := by
          rw [hself, AccountsDb.phoneOf, hcaller, Option.bind_some]
        rw [if_pos hself.symm]
        rcases verify_outcome db caller request checkedAt verifiedAt with
          ⟨reply, hverify, hsame⟩ | ⟨guessed, hverify, hwritten⟩
        · rw [hsame, hphone]
          exact .refused hverify
        · rw [hwritten, hid, AccountsDb.phoneOf_persistPhone hcaller, if_pos hself, hphone]
          exact .guessed hverify
      · rw [if_neg fun h => hself h.symm]
        rcases verify_outcome db caller request checkedAt verifiedAt with
          ⟨reply, -, hsame⟩ | ⟨guessed, -, hwritten⟩
        · rw [hsame]
          exact .unchanged
        · rw [hwritten, hid, AccountsDb.phoneOf_persistPhone hcaller, if_neg hself]
          exact .unchanged
  | edit callerId request context =>
    rw [AccountsDb.events]
    rcases step_edit crates db callerId request context with
      hsame | ⟨caller, edited, existing, -, hexisting, hwritten, hedited⟩
    · rw [hsame]
      exact .kept
    · rw [hwritten, phoneOf_persistAccount hexisting]
      by_cases hself : userId = edited.id
      · have hphone : db.phoneOf userId = existing.phone := by
          rw [hself, AccountsDb.phoneOf, hexisting, Option.bind_some]
        rw [if_pos hself, hphone]
        rcases hedited with hkept | ⟨-, -, hchanged⟩
        · rw [hkept]
          exact .kept
        · rw [hchanged, applyContactMethodUpdate_value]
          exact .edited
      · rw [if_neg hself]
        exact .kept
  | stop e164Number now =>
    rcases phoneOf_revoke db e164Number now userId with h | ⟨stored, hstored, h⟩
    · rw [AccountsDb.step, h]
      exact .unchanged
    · rw [AccountsDb.step, h, hstored]
      exact .revoked

end

/-- A user whose number may be contacted. -/
def consenting : Account where
  permissions := .array []
  id := 1
  defaultFollowModeration := .unmoderated
  username := "ann"
  passwordSaltedHash := ""
  phone := some { value := some "tel:+15550100", consentState := 1 }

/-- The accounts of that user alone. -/
def consentingAccounts : AccountsDb := ⟨⟨⟨[consenting], by decide⟩, 2, by decide⟩, .empty⟩

/-- What validation takes from elsewhere; of these calls a profile edit alone needs it. -/
def noCrates : ValidationCrates := ⟨fun _ => false, fun _ => none⟩

/-- A code is sent to that number, without delay. -/
def sendTo (time : SystemTime) (draw : Fin 1000000) : AccountCall :=
  .start 1 { value := some "tel:+15550100" } ⟨true, time, draw, .ok (), time⟩

/-- A code is given back for that number. -/
def guessAt (time : SystemTime) (code : String) : AccountCall :=
  .verify 1 ⟨"tel:+15550100", code⟩ time time

end Rellm.Users
