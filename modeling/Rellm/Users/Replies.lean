import Rellm.Users.Codes

/-!
# Which codes are shown

The calls that reply with users or contact methods, in two states that differ in codes. The
replies are the same exactly if every user that is shown with a code has it in both states.
-/

namespace Rellm.Users

open Foundation Content

/-- What the calls take from elsewhere; a password is compared with a salted hash. -/
structure ProfileServer where
  crates : ValidationCrates
  search : UserSearch
  verifyPassword : String → String → Bool

/-- A call that replies with users or a contact method. -/
inductive ProfileCall where
  | getUsers (viewerId : Option Nat) (request : GetUsersRequest)
  | getCurrentUser (callerId : Nat)
  | login (request : LoginRequest)
  | createAccount (request : CreateAccountRequest) (context : SignUpContext)
  | updateUser (callerId : Nat) (request : UserRequest) (context : EditContext)
  | startContactMethodVerification (callerId : Nat) (request : ContactMethod)
      (outcome : SendOutcome)

inductive ProfileReply where
  | users (response : GetUsersResponse)
  | user (user : ProtoUser)
  | contactMethod (method : ContactMethod)
  deriving DecidableEq, Repr

/-- What a program answers. -/
def answerOf {ε σ α : Type} : EStateM.Result ε σ α → Except ε α
  | .ok a _ => .ok a
  | .error e _ => .error e

/-- A program that starts with a check answers with what the rest of it does. -/
theorem answerOf_attempt_bind {ε σ α β : Type} (x : σ → Except ε α) (f : α → EStateM ε σ β)
    (s : σ) : answerOf ((attempt x >>= f) s) = x s >>= fun a => answerOf (f a s) := by
  cases h : x s with
  | ok a => rw [bind_of_ok (attempt_of_ok h), checks_of_ok rfl]
  | error e =>
    rw [bind_of_error (attempt_of_error h)]
    rfl

theorem answerOf_attempt {ε σ α : Type} (x : σ → Except ε α) (s : σ) :
    answerOf (attempt x s) = x s := by
  unfold attempt
  cases x s <;> rfl

/-- A call on the accounts answers the same as one on the directory. -/
theorem answerOf_onAccounts {α : Type} (rpc : AccountsRpc α) (db : DirectoryDb) :
    answerOf (onAccounts rpc db) = answerOf (rpc db.accounts) := by
  unfold onAccounts
  cases rpc db.accounts <;> rfl

section

variable (server : ProfileServer) (db : DirectoryDb)

/-- What a call replies. -/
def ProfileCall.respond : ProfileCall → Except Failure ProfileReply
  | .getUsers viewerId request =>
    (Users.getUsers server.search db (viewerId.bind db.users.get) request).map .users
  | .getCurrentUser callerId =>
    (answerOf ((callingAccount callerId >>= Users.getCurrentUser) db)).map .user
  | .login request =>
    (answerOf (Users.login server.crates server.verifyPassword request db)).map .user
  | .createAccount request context =>
    (answerOf (Users.createAccount server.crates request context db)).map .user
  | .updateUser callerId request context =>
    (answerOf ((callingAccount callerId >>= fun currentUser =>
      updateUserReply server.crates server.search currentUser request context) db)).map .user
  | .startContactMethodVerification callerId request outcome =>
    (answerOf ((callingAccount callerId >>= fun currentUser => onAccounts
      (Users.startContactMethodVerification currentUser request outcome)) db)).map .contactMethod

/-- The first of the rows that the lookup after an edit selects, as the caller sees it. -/
def shownAfterUpdate (currentUser : Account) (request : UserRequest) (context : EditContext) :
    List Account :=
  match updateUser server.crates currentUser request context db.accounts with
  | .error _ _ => []
  | .ok _ accounts =>
    match listedUsers server.search { db with accounts := accounts } (some currentUser)
        { userId := some request.id } with
    | .error _ => []
    | .ok listing => (listing.rows.map (·.account)).take 1

/-- The users that a call shows, with the user that each is shown to. -/
def ProfileCall.shown : ProfileCall → List (Option Account × Account)
  | .getUsers viewerId request =>
    match listedUsers server.search db (viewerId.bind db.users.get) request with
    | .error _ => []
    | .ok listing => listing.rows.map fun row => (viewerId.bind db.users.get, row.account)
  | .getCurrentUser callerId =>
    (db.users.get callerId).toList.map fun currentUser => (some currentUser, currentUser)
  | .login request =>
    match loginAccount server.crates server.verifyPassword request db with
    | .error _ => []
    | .ok user => [(some user, user)]
  | .updateUser callerId request context =>
    (db.users.get callerId).toList.flatMap fun currentUser =>
      (shownAfterUpdate server db currentUser request context).map fun account =>
        (some currentUser, account)
  | .createAccount _ _ | .startContactMethodVerification _ _ _ => []

end

section

variable (codes : Nat → String) (db : DirectoryDb)

/-- The code of a user where the codes are others. -/
theorem codeOf_recode (userId : Nat) :
    (db.recode codes).codeOf userId = (db.codeOf userId).map fun _ => codes userId := by
  unfold DirectoryDb.codeOf
  rw [DirectoryDb.get_recode]
  cases hget : db.users.get userId with
  | none => rfl
  | some account =>
    have hid : account.id = userId := AccountsDb.id_of_get hget
    rw [Option.map_some, Option.bind_some, Option.bind_some, ← hid]
    exact account.code_withCode (codes account.id)

theorem loginAccount_recode (crates : ValidationCrates) (verify : String → String → Bool)
    (request : LoginRequest) :
    loginAccount crates verify request (db.recode codes) =
      (loginAccount crates verify request db).map (Account.recode codes) := by
  have hpassword (found : Option Account) (denied : Status) :
      (okOr (found.map (Account.recode codes)) denied >>= fun user => do
        require (verify request.password user.passwordSaltedHash) denied
        return user) =
      (okOr found denied >>= fun user => do
        require (verify request.password user.passwordSaltedHash) denied
        return user).map (Account.recode codes) := by
    rw [okOr_map, checks_map, map_checks]
    exact bind_congr fun user => (map_checks (Account.recode codes) _ fun _ => pure user).symm
  have hrows : (db.recode codes).users.rows = db.users.rows.map (Account.recode codes) :=
    AccountsDb.rows_recode codes db.accounts
  unfold loginAccount
  rw [map_checks]
  refine bind_congr fun _ => ?_
  rw [map_checks]
  refine bind_congr fun _ => ?_
  cases request.userId with
  | none =>
    dsimp only
    rw [hrows, List.find?_map]
    exact hpassword _ _
  | some userId =>
    dsimp only
    rw [map_checks]
    refine bind_congr fun id => ?_
    rw [db.get_recode]
    exact hpassword _ _

theorem checkCreateAccount_recode (crates : ValidationCrates) (request : CreateAccountRequest) :
    checkCreateAccount crates request (db.recode codes) = checkCreateAccount crates request db := by
  have hrows : (db.recode codes).users.rows = db.users.rows.map (Account.recode codes) :=
    AccountsDb.rows_recode codes db.accounts
  unfold checkCreateAccount
  simp only [hrows, List.forall_mem_map]
  rfl

/-- A number may be sent a code regardless of the code it has. -/
theorem sendable_withCode (request : ContactMethod) (phone : Option ContactMethod)
    (telSupported : Bool) (code : String) :
    sendable request (phone.map (·.withCode code)) telSupported =
      (sendable request phone telSupported).map (·.withCode code) := by
  have hvalue (value : String) : phoneWithValue (phone.map (·.withCode code)) value =
      (phoneWithValue phone value).map (·.withCode code) := by
    unfold phoneWithValue
    cases phone with
    | none => rfl
    | some method =>
      have hsame : (method.withCode code).value = method.value := rfl
      rw [Option.map_some, Option.filter_some, Option.filter_some, hsame]
      split <;> rfl
  unfold sendable
  simp only [map_checks, hvalue]
  refine bind_congr fun value => bind_congr fun _ => bind_congr fun _ => ?_
  cases phoneWithValue phone value with
  | error reply => rfl
  | ok existing => rfl

/-- A code that is sent replaces any other. -/
theorem startVerification_withCode (request : ContactMethod) (phone : Option ContactMethod)
    (code : String) (outcome : SendOutcome) :
    startVerification request (phone.map (·.withCode code)) outcome =
      startVerification request phone outcome := by
  unfold startVerification
  rw [sendable_withCode]
  cases sendable request phone outcome.telSupported with
  | error reply => rfl
  | ok existing =>
    have hstarted : (existing.withCode code).startedAt = existing.startedAt := by
      unfold ContactMethod.startedAt ContactMethod.withCode
      cases existing.verificationInProgress <;> rfl
    dsimp only [bind, Except.bind, Except.map]
    simp only [hstarted]
    rfl

/-- An edit keeps the code of a number, or drops it. -/
theorem applyContactMethodUpdate_withCode (existing incoming : Option ContactMethod)
    (isSupported : String → Bool) (now : SystemTime) (code : String) :
    applyContactMethodUpdate (existing.map (·.withCode code)) incoming isSupported now =
      (applyContactMethodUpdate existing incoming isSupported now).map (·.withCode code) := by
  cases incoming with
  | none => rfl
  | some incoming =>
    have hvalue : (existing.map (·.withCode code)).bind (·.value) = existing.bind (·.value) := by
      cases existing <;> rfl
    have hverified : (existing.map (·.withCode code)).bind (·.verifiedAt) =
        existing.bind (·.verifiedAt) := by
      cases existing <;> rfl
    have hconsent : (existing.map (·.withCode code)).map (·.consent) =
        existing.map (·.consent) := by
      cases existing <;> rfl
    have hhistory : (existing.map (·.withCode code)).map (·.consentHistory) =
        existing.map (·.consentHistory) := by
      cases existing <;> rfl
    have hprogress : (existing.map (·.withCode code)).bind (·.verificationInProgress) =
        (existing.bind (·.verificationInProgress)).map fun verification =>
          { verification with verificationCode := code } := by
      cases existing <;> rfl
    unfold applyContactMethodUpdate
    rw [hvalue, hverified, hconsent, hhistory, hprogress]
    dsimp only [bind, Option.bind, pure, Option.map_some, ContactMethod.withCode]
    split_ifs <;> rfl

theorem editAccount_recode (currentUser : Account) (request : UserRequest) (context : EditContext)
    (avatarMediaId : Option Nat) (existing : Account) :
    editAccount (currentUser.recode codes) request context avatarMediaId (existing.recode codes) =
      (editAccount currentUser request context avatarMediaId existing).recode codes := by
  have hprofile : editProfile request context avatarMediaId (existing.recode codes) =
      (editProfile request context avatarMediaId existing).recode codes := by
    have hphone := applyContactMethodUpdate_withCode existing.phone request.phone
      (fun value => startsWith "tel:" value && context.supports .tel) context.now
      (codes existing.id)
    unfold editProfile Account.recode Account.withCode
    dsimp only
    rw [hphone]
  have hedits : editsProfile (currentUser.recode codes) request =
      editsProfile currentUser request := rfl
  have huser : (currentUser.recode codes).toUser = currentUser.toUser := rfl
  unfold editAccount
  rw [hedits, hprofile, huser]
  dsimp only
  split_ifs <;> rfl

/-- The row an edit writes where the codes are others. -/
theorem checkUpdateUser_recode (crates : ValidationCrates) (currentUser : Account)
    (request : UserRequest) (context : EditContext) (db : AccountsDb) :
    checkUpdateUser crates (currentUser.recode codes) request context (db.recode codes) =
      (checkUpdateUser crates currentUser request context db).map (Account.recode codes) := by
  have hedits : editsProfile (currentUser.recode codes) request =
      editsProfile currentUser request := rfl
  have hself : selfUpdate (currentUser.recode codes) request = selfUpdate currentUser request := rfl
  have huser : (currentUser.recode codes).toUser = currentUser.toUser := rfl
  unfold checkUpdateUser
  rw [hedits, hself, huser]
  simp only [map_checks]
  refine bind_congr fun _ => bind_congr fun userId => bind_congr fun avatarMediaId =>
    bind_congr fun _ => ?_
  rw [db.get_recode, okOr_map, checks_map]
  refine bind_congr fun existing => bind_congr fun _ => ?_
  have hnames (edited : Account) :
      (∀ other ∈ (db.recode codes).users.rows, other.id ≠ userId →
        other.username ≠ (edited.recode codes).username) ↔
      ∀ other ∈ db.users.rows, other.id ≠ userId → other.username ≠ edited.username := by
    rw [db.rows_recode, List.forall_mem_map]
    rfl
  simp only [editAccount_recode, hnames]
  rfl

/-- A row after another one was written over it if it has its id. -/
def overwritten (edited row : Account) : Account :=
  if decide (row.id = edited.id) = true then { edited with id := row.id } else row

theorem rows_persistAccount (db : AccountsDb) (edited : Account) :
    (db.persistAccount edited).users.rows = db.users.rows.map (overwritten edited) := rfl

/-- A row is written alike where the codes are others. -/
theorem persistAccount_recode (db : AccountsDb) (edited : Account) :
    (db.recode codes).persistAccount (edited.recode codes) =
      (db.persistAccount edited).recode codes := by
  have hrow (row : Account) : overwritten (edited.recode codes) (row.recode codes) =
      (overwritten edited row).recode codes := by
    by_cases hid : row.id = edited.id
    · have hkept : overwritten edited row = { edited with id := row.id } :=
        if_pos (decide_eq_true hid)
      have hrecoded : overwritten (edited.recode codes) (row.recode codes) =
          { edited.recode codes with id := row.id } := if_pos (decide_eq_true hid)
      rw [hkept, hrecoded, hid]
      rfl
    · have hkept : overwritten edited row = row := if_neg (mt of_decide_eq_true hid)
      have hrecoded : overwritten (edited.recode codes) (row.recode codes) = row.recode codes :=
        if_neg (mt of_decide_eq_true hid)
      rw [hkept, hrecoded]
  have hrows : ((db.recode codes).persistAccount (edited.recode codes)).users.rows =
      ((db.persistAccount edited).recode codes).users.rows := by
    rw [AccountsDb.rows_recode, rows_persistAccount, rows_persistAccount, AccountsDb.rows_recode,
      List.map_map, List.map_map]
    exact List.map_congr_left fun row _ => hrow row
  exact congrArg (fun users => ({ db with users := users } : AccountsDb))
    (Serial.ext_of_rows hrows rfl)

/-- An edit where the codes are others. -/
theorem updateUser_recode (crates : ValidationCrates) (currentUser : Account)
    (request : UserRequest) (context : EditContext) (db : AccountsDb) :
    updateUser crates (currentUser.recode codes) request context (db.recode codes) =
      match updateUser crates currentUser request context db with
      | .ok edited edit => .ok (edited.recode codes) (edit.recode codes)
      | .error failure edit => .error failure (edit.recode codes) := by
  have hcheck := checkUpdateUser_recode codes crates currentUser request context db
  cases h : checkUpdateUser crates currentUser request context db with
  | error reply =>
    rw [h] at hcheck
    have herror : updateUser crates currentUser request context db = .error (.status reply) db :=
      bind_of_error (attempt_of_error (by rw [h]; rfl))
    rw [herror]
    exact bind_of_error (attempt_of_error (by rw [hcheck]; rfl))
  | ok edited =>
    rw [h] at hcheck
    have hok : updateUser crates currentUser request context db =
        .ok edited (db.persistAccount edited) :=
      bind_of_ok (attempt_of_ok (answered_eq_ok.mpr h))
    rw [hok]
    dsimp only
    rw [← persistAccount_recode]
    exact bind_of_ok (attempt_of_ok (answered_eq_ok.mpr hcheck))

end

section

variable (codes : Nat → String) (server : ProfileServer) (db : DirectoryDb)

/-- The codes of the users that a call shows are those that other states have for them. -/
def ShowsCodes (codes : Nat → String) (shown : List (Option Account × Account)) : Prop :=
  ∀ viewed ∈ shown, exposesCode viewed.1 viewed.2 = true →
    viewed.2.code = some (codes viewed.2.id)

theorem showsCodes_nil : ShowsCodes codes [] := fun _ h => absurd h List.not_mem_nil

theorem showsCodes_singleton {viewer : Option Account} {account : Account} :
    ShowsCodes codes [(viewer, account)] ↔
      (exposesCode viewer account = true → account.code = some (codes account.id)) :=
  List.forall_mem_singleton

/-- A call of a user answers what it answers for the user's row. -/
theorem answerOf_callingAccount {α : Type} (callerId : Nat) (rpc : Account → DirectoryRpc α) :
    answerOf ((callingAccount callerId >>= rpc) db) =
      (okOr (db.users.get callerId) (.status ⟨.unauthenticated, "authentication_required"⟩)) >>=
        fun caller => answerOf (rpc caller db) := by
  refine (answerOf_attempt_bind _ rpc db).trans ?_
  cases db.users.get callerId <;> rfl

/-- Answers are the same if what they are made of is. -/
theorem map_eq_map_iff {α β : Type} {f : α → β} (hf : Function.Injective f)
    {x y : Except Failure α} : x.map f = y.map f ↔ x = y := by
  constructor
  · intro h
    cases x <;> cases y
    · exact congrArg Except.error (Except.error.inj h)
    · cases h
    · cases h
    · exact congrArg Except.ok (hf (Except.ok.inj h))
  · rintro rfl
    rfl

theorem respond_getUsers_iff (viewerId : Option Nat) (request : GetUsersRequest) :
    (ProfileCall.getUsers viewerId request).respond server (db.recode codes) =
        (ProfileCall.getUsers viewerId request).respond server db ↔
      ShowsCodes codes ((ProfileCall.getUsers viewerId request).shown server db) := by
  have hviewer : viewerId.bind (db.recode codes).users.get =
      (viewerId.bind db.users.get).map (Account.recode codes) := by
    cases viewerId with
    | none => rfl
    | some viewerId => exact db.get_recode codes viewerId
  have husers : Function.Injective ProfileReply.users := fun _ _ => ProfileReply.users.inj
  rw [ProfileCall.respond, ProfileCall.respond, map_eq_map_iff husers, hviewer,
    getUsers_recode_iff, ProfileCall.shown]
  cases listedUsers server.search db (viewerId.bind db.users.get) request with
  | error failure => exact iff_of_true nofun (showsCodes_nil codes)
  | ok listing =>
    rw [ShowsCodes, List.forall_mem_map]
    exact ⟨fun h => h listing rfl, by rintro h rows ⟨⟩; exact h⟩

theorem respond_getCurrentUser_iff (callerId : Nat) :
    (ProfileCall.getCurrentUser callerId).respond server (db.recode codes) =
        (ProfileCall.getCurrentUser callerId).respond server db ↔
      ShowsCodes codes ((ProfileCall.getCurrentUser callerId).shown server db) := by
  rw [ProfileCall.respond, ProfileCall.respond, answerOf_callingAccount, answerOf_callingAccount,
    db.get_recode, ProfileCall.shown]
  cases db.users.get callerId with
  | none => exact iff_of_true rfl (showsCodes_nil codes)
  | some user =>
    have huser : Function.Injective ProfileReply.user := fun _ _ => ProfileReply.user.inj
    refine (map_eq_map_iff huser).trans ((Except.ok.injEq _ _).to_iff.trans ?_)
    exact (toOwn_recode_iff codes db user _).trans (showsCodes_singleton codes).symm

theorem respond_login_iff (request : LoginRequest) :
    (ProfileCall.login request).respond server (db.recode codes) =
        (ProfileCall.login request).respond server db ↔
      ShowsCodes codes ((ProfileCall.login request).shown server db) := by
  have hanswer (db : DirectoryDb) :
      answerOf (Users.login server.crates server.verifyPassword request db) =
        (answered (loginAccount server.crates server.verifyPassword request db)) >>= fun user =>
          .ok (db.toOwn user (db.avatarOf user)) :=
    answerOf_attempt_bind _ _ db
  rw [ProfileCall.respond, ProfileCall.respond, hanswer, hanswer, loginAccount_recode,
    ProfileCall.shown]
  cases loginAccount server.crates server.verifyPassword request db with
  | error reply => exact iff_of_true rfl (showsCodes_nil codes)
  | ok user =>
    have huser : Function.Injective ProfileReply.user := fun _ _ => ProfileReply.user.inj
    refine (map_eq_map_iff huser).trans ((Except.ok.injEq _ _).to_iff.trans ?_)
    exact (toOwn_recode_iff codes db user _).trans (showsCodes_singleton codes).symm

/-- Users are the same to themselves where the same is attached to users. -/
theorem toOwn_congr {db db' : DirectoryDb} (h : db.relatedOf = db'.relatedOf) (account : Account)
    (avatar : Option MediaRow) : db.toOwn account avatar = db'.toOwn account avatar := by
  have hlookedUp (row : ListedUser) :
      db.toLookedUp (some account) row = db'.toLookedUp (some account) row := by
    unfold DirectoryDb.toLookedUp DirectoryDb.toFederated DirectoryDb.attachOwnSyncDestinations
    rw [h]
  unfold DirectoryDb.toOwn DirectoryDb.attachAdvancedAdminData
  rw [hlookedUp, h]

theorem get_insertAccount (request : CreateAccountRequest) (context : SignUpContext)
    (defaults : AccountDefaults) (userId : Nat) :
    (insertAccount request context defaults db).users.get userId =
      if userId = db.users.next then some (newAccount request context defaults db.users.next)
      else db.users.get userId :=
  Serial.get_insert db.users (newAccount request context defaults) (fun _ => rfl) userId

/-- What is attached to users does not depend on the codes when an account is created either. -/
theorem relatedOf_insertAccount_recode (request : CreateAccountRequest) (context : SignUpContext)
    (defaults : AccountDefaults) :
    (insertAccount request context defaults (db.recode codes)).relatedOf =
      (insertAccount request context defaults db).relatedOf := by
  have hauthor : (insertAccount request context defaults (db.recode codes)).author =
      (insertAccount request context defaults db).author := by
    funext userId
    have hnext : (db.recode codes).users.next = db.users.next := rfl
    rw [DirectoryDb.author, DirectoryDb.author, get_insertAccount, get_insertAccount,
      db.get_recode, hnext]
    split
    · rfl
    · rw [Option.map_map]
      rfl
  funext userId
  rw [DirectoryDb.relatedOf, hauthor]
  rfl

theorem respond_createAccount (request : CreateAccountRequest) (context : SignUpContext) :
    (ProfileCall.createAccount request context).respond server (db.recode codes) =
      (ProfileCall.createAccount request context).respond server db := by
  have hanswer (db : DirectoryDb) :
      answerOf (Users.createAccount server.crates request context db) =
        (answered (checkCreateAccount server.crates request db)) >>= fun defaults =>
          .ok ((insertAccount request context defaults db).toOwn
            (newAccount request context defaults db.users.next) none) :=
    answerOf_attempt_bind _ _ db
  rw [ProfileCall.respond, ProfileCall.respond, hanswer, hanswer, checkCreateAccount_recode]
  refine congrArg (Except.map ProfileReply.user) (bind_congr fun defaults => congrArg Except.ok ?_)
  exact toOwn_congr (relatedOf_insertAccount_recode codes db request context defaults) _ none

/-- What an edit answers, by the accounts it leaves. -/
theorem answerOf_updateUserReply (currentUser : Account) (request : UserRequest)
    (context : EditContext) :
    answerOf (updateUserReply server.crates server.search currentUser request context db) =
      match updateUser server.crates currentUser request context db.accounts with
      | .error failure _ => .error failure
      | .ok _ accounts =>
        getUsers server.search { db with accounts := accounts } (some currentUser)
            { userId := some request.id } >>= fun response => okOr response.users.head? .panic := by
  cases h : updateUser server.crates currentUser request context db.accounts with
  | error failure accounts =>
    have hedit : onAccounts (updateUser server.crates currentUser request context) db =
        .error failure { db with accounts := accounts } := by
      rw [onAccounts, h]
    exact congrArg answerOf (bind_of_error hedit)
  | ok edited accounts =>
    have hedit : onAccounts (updateUser server.crates currentUser request context) db =
        .ok edited { db with accounts := accounts } := by
      rw [onAccounts, h]
    exact (congrArg answerOf (bind_of_ok hedit)).trans (answerOf_attempt _ _)

theorem respond_updateUser_iff (callerId : Nat) (request : UserRequest) (context : EditContext) :
    (ProfileCall.updateUser callerId request context).respond server (db.recode codes) =
        (ProfileCall.updateUser callerId request context).respond server db ↔
      ShowsCodes codes ((ProfileCall.updateUser callerId request context).shown server db) := by
  have huser : Function.Injective ProfileReply.user := fun _ _ => ProfileReply.user.inj
  rw [ProfileCall.respond, ProfileCall.respond, map_eq_map_iff huser, answerOf_callingAccount,
    answerOf_callingAccount, db.get_recode, ProfileCall.shown]
  cases db.users.get callerId with
  | none => exact iff_of_true rfl (showsCodes_nil codes)
  | some currentUser =>
    change answerOf (updateUserReply server.crates server.search (currentUser.recode codes) request
        context (db.recode codes)) =
      answerOf (updateUserReply server.crates server.search currentUser request context db) ↔ _
    have hedit := updateUser_recode codes server.crates currentUser request context db.accounts
    have hshown : ((some currentUser).toList.flatMap fun currentUser =>
        (shownAfterUpdate server db currentUser request context).map fun account =>
          (some currentUser, account)) =
        (shownAfterUpdate server db currentUser request context).map fun account =>
          (some currentUser, account) := List.flatMap_singleton ..
    have haccounts : (db.recode codes).accounts = db.accounts.recode codes := rfl
    rw [answerOf_updateUserReply, answerOf_updateUserReply, hshown, shownAfterUpdate, haccounts,
      hedit]
    cases updateUser server.crates currentUser request context db.accounts with
    | error failure accounts => exact iff_of_true rfl (showsCodes_nil codes)
    | ok edited accounts =>
      dsimp only
      refine (head_getUsers_recode_iff codes server.search { db with accounts := accounts }
        (some currentUser) { userId := some request.id }).trans ?_
      cases listedUsers server.search { db with accounts := accounts } (some currentUser)
          { userId := some request.id } with
      | error failure => exact iff_of_true nofun (showsCodes_nil codes)
      | ok listing =>
        rw [ShowsCodes, List.forall_mem_map]
        exact ⟨fun h => h listing rfl, by rintro h rows ⟨⟩; exact h⟩

theorem respond_startContactMethodVerification (callerId : Nat) (request : ContactMethod)
    (outcome : SendOutcome) :
    (ProfileCall.startContactMethodVerification callerId request outcome).respond server
        (db.recode codes) =
      (ProfileCall.startContactMethodVerification callerId request outcome).respond server db := by
  rw [ProfileCall.respond, ProfileCall.respond, answerOf_callingAccount, answerOf_callingAccount,
    db.get_recode, okOr_map, checks_map]
  refine congrArg (Except.map ProfileReply.contactMethod) (bind_congr fun currentUser => ?_)
  have hanswer (currentUser : Account) (db : AccountsDb) :
      answerOf (Users.startContactMethodVerification currentUser request outcome db) =
        (answered (startVerification request currentUser.phone outcome)) >>= fun updated =>
          .ok updated.withoutCode :=
    answerOf_attempt_bind _ _ db
  rw [answerOf_onAccounts, answerOf_onAccounts, hanswer, hanswer]
  exact congrArg (fun check => answered check >>= _)
    (startVerification_withCode request currentUser.phone (codes currentUser.id) outcome)

/-- A call replies the same where the codes are others exactly if it shows no other code. -/
theorem respond_recode_iff (call : ProfileCall) :
    call.respond server (db.recode codes) = call.respond server db ↔
      ShowsCodes codes (call.shown server db) := by
  cases call with
  | getUsers viewerId request => exact respond_getUsers_iff codes server db viewerId request
  | getCurrentUser callerId => exact respond_getCurrentUser_iff codes server db callerId
  | login request => exact respond_login_iff codes server db request
  | createAccount request context =>
    exact iff_of_true (respond_createAccount codes server db request context) (showsCodes_nil codes)
  | updateUser callerId request context =>
    exact respond_updateUser_iff codes server db callerId request context
  | startContactMethodVerification callerId request outcome =>
    exact iff_of_true
      (respond_startContactMethodVerification codes server db callerId request outcome)
      (showsCodes_nil codes)

end

/-- A user to whose number a code was sent. -/
def verifying (code : String) : Account :=
  { consenting with
    phone := some {
      value := some "tel:+15550100"
      visibility := .limited
      consentState := 1
      verificationInProgress := some ⟨code, some ⟨0, 0⟩, 0⟩ } }

/-- The directory of that user alone. -/
def verifyingDirectory (code : String) : DirectoryDb where
  users := ⟨⟨[verifying code], List.nodup_singleton _⟩, 2, by
    intro row hrow
    rw [List.mem_singleton.mp hrow]
    exact Nat.lt_add_one 1⟩
  media := .empty
  follows := .empty
  related := fun _ _ => {}
  defaults := .error dataError

/-- What the calls take from elsewhere; of these calls only a listing would need it. -/
def plainServer : ProfileServer where
  crates := noCrates
  search := ⟨Char.isAlphanum, fun username _ _ query => username = query⟩
  verifyPassword := fun password hash => password = hash

section

variable {server : ProfileServer} {db : DirectoryDb}

/-- The code of a user is the one of the number. -/
theorem codeOf_eq (db : DirectoryDb) (userId : Nat) :
    db.codeOf userId = (db.phoneOf userId).bind ContactMethod.code := by
  unfold DirectoryDb.codeOf AccountsDb.phoneOf
  cases db.users.get userId <;> rfl

theorem codeOf_of_mem {account : Account} (h : account ∈ db.users.rows) :
    db.codeOf account.id = account.code := by
  have hget : db.users.get account.id = some account := Table.get_eq_some_iff.mpr ⟨h, rfl⟩
  rw [DirectoryDb.codeOf, hget, Option.bind_some]

/-- An edit of a number leaves the code that was there, or none. -/
theorem code_applyContactMethodUpdate {existing incoming : Option ContactMethod}
    {isSupported : String → Bool} {now : SystemTime} {own : String}
    (h : (applyContactMethodUpdate existing incoming isSupported now).bind ContactMethod.code =
      some own) : existing.bind ContactMethod.code = some own := by
  rcases applyContactMethodUpdate_cases existing incoming isSupported now with
    ⟨-, hnone⟩ | ⟨_, updated, -, hupdated, -, -, -, ⟨-, -, hdropped⟩ | ⟨-, -, hkept⟩⟩
  · rw [hnone] at h
    cases h
  · rw [hupdated, Option.bind_some, ContactMethod.code, hdropped] at h
    cases h
  · rw [hupdated, Option.bind_some, ContactMethod.code, hkept] at h
    cases existing with
    | none => cases h
    | some stored => exact h

/-- An edit leaves a user with the code that was there. -/
theorem codeOf_updateUser {currentUser edited : Account} {request : UserRequest}
    {context : EditContext} {accounts : AccountsDb} {userId : Nat} {own : String}
    (h : updateUser server.crates currentUser request context db.accounts = .ok edited accounts)
    (hown : (accounts.phoneOf userId).bind ContactMethod.code = some own) :
    (db.phoneOf userId).bind ContactMethod.code = some own := by
  rcases update_outcome db.accounts server.crates currentUser request context with
    hsame | ⟨written, hchecked, hwritten⟩
  · rw [h, finalState_ok] at hsame
    rwa [hsame] at hown
  · rw [h, finalState_ok] at hwritten
    obtain ⟨existing, hexisting, hphone⟩ := checkUpdateUser_eq_ok hchecked
    rw [hwritten, phoneOf_persistAccount hexisting] at hown
    split at hown
    · rename_i hid
      have hstored : db.phoneOf userId = existing.phone := by
        rw [hid, AccountsDb.phoneOf, hexisting, Option.bind_some]
      rw [hstored]
      rcases hphone with hkept | ⟨-, -, hupdated⟩
      · rwa [hkept] at hown
      · rw [hupdated] at hown
        exact code_applyContactMethodUpdate hown
    · exact hown

/-- Only stored users log in. -/
theorem mem_of_loginAccount {crates : ValidationCrates} {verify : String → String → Bool}
    {request : LoginRequest} {user : Account}
    (h : loginAccount crates verify request db = .ok user) : user ∈ db.users.rows := by
  unfold loginAccount at h
  simp only [checks_eq_ok] at h
  obtain ⟨-, -, -, -, h⟩ := h
  split at h
  · simp only [checks_eq_ok, okOr_eq_ok, pure_eq_ok] at h
    obtain ⟨id, -, found, hfound, -, -, rfl⟩ := h
    exact (Table.get_eq_some_iff.mp hfound).1
  · simp only [checks_eq_ok, okOr_eq_ok, pure_eq_ok] at h
    obtain ⟨found, hfound, -, -, rfl⟩ := h
    exact List.mem_of_find?_eq_some hfound

/-- A code that is shown is the one that is stored for the user. -/
theorem codeOf_of_shown {call : ProfileCall} {viewed : Option Account × Account} {own : String}
    (h : viewed ∈ call.shown server db) (hown : viewed.2.code = some own) :
    db.codeOf viewed.2.id = some own := by
  have hstored (hmem : viewed.2 ∈ db.users.rows) : db.codeOf viewed.2.id = some own :=
    (codeOf_of_mem hmem).trans hown
  cases call with
  | getUsers viewerId request =>
    rw [ProfileCall.shown] at h
    split at h
    · cases h
    · rename_i listing hlisting
      obtain ⟨row, hrow, rfl⟩ := List.mem_map.mp h
      exact hstored (listed_listedUsers server.search db _ request listing hlisting row hrow)
  | getCurrentUser callerId =>
    obtain ⟨user, huser, rfl⟩ := List.mem_map.mp h
    exact hstored (Table.get_eq_some_iff.mp (Option.mem_toList.mp huser)).1
  | login request =>
    rw [ProfileCall.shown] at h
    split at h
    · cases h
    · rename_i user huser
      obtain rfl := List.mem_singleton.mp h
      exact hstored (mem_of_loginAccount huser)
  | createAccount request context => cases h
  | updateUser callerId request context =>
    obtain ⟨currentUser, -, hviewed⟩ := List.mem_flatMap.mp h
    obtain ⟨account, haccount, rfl⟩ := List.mem_map.mp hviewed
    rw [shownAfterUpdate] at haccount
    split at haccount
    · cases haccount
    · rename_i edited accounts hupdated
      split at haccount
      · cases haccount
      · rename_i listing hlisting
        obtain ⟨row, hrow, rfl⟩ := List.mem_map.mp (List.mem_of_mem_take haccount)
        let edit : DirectoryDb := { db with accounts := accounts }
        have hmem : row.account ∈ edit.users.rows :=
          listed_listedUsers server.search edit _ _ listing hlisting row hrow
        have hleft : edit.codeOf row.account.id = some own := (codeOf_of_mem hmem).trans hown
        rw [codeOf_eq] at hleft ⊢
        exact codeOf_updateUser hupdated hleft
  | startContactMethodVerification callerId request outcome => cases h

end

/-- Where two states differ in codes only, a call replies the same in both exactly if each user
that it shows with a code has the same code in both. -/
theorem respond_eq_iff (server : ProfileServer) {db db' : DirectoryDb} (h : SameButCodes db db')
    (call : ProfileCall) :
    call.respond server db' = call.respond server db ↔
      ∀ viewed ∈ call.shown server db, exposesCode viewed.1 viewed.2 = true →
        db'.codeOf viewed.2.id = db.codeOf viewed.2.id := by
  obtain ⟨codes, rfl⟩ := h.exists_recode
  rw [respond_recode_iff]
  refine forall₃_congr fun viewed hviewed hexposes => ?_
  obtain ⟨own, hown⟩ := exists_code_of_exposes hexposes
  rw [codeOf_recode, codeOf_of_shown hviewed hown, hown, Option.map_some]
  exact eq_comm

/-- A user whose number is not public is shown alike to the public. -/
theorem respond_eq_toPublic :
    (ProfileCall.getUsers none { userId := some (toProtoId 1) }).respond plainServer
        (verifyingDirectory "000008") =
      (ProfileCall.getUsers none { userId := some (toProtoId 1) }).respond plainServer
        (verifyingDirectory "000007") := by
  have hsame : SameButCodes (verifyingDirectory "000007") (verifyingDirectory "000008") := rfl
  refine (respond_eq_iff plainServer hsame _).mpr ?_
  decide +kernel

/-- Users read off their own number which code was sent to it. -/
theorem code_told_to_caller :
    ¬ ∀ (server : ProfileServer) (db db' : DirectoryDb) (call : ProfileCall),
      SameButCodes db db' → call.respond server db' = call.respond server db := by
  intro h
  have hsame := h plainServer (verifyingDirectory "000007") (verifyingDirectory "000008")
    (.getCurrentUser 1) rfl
  revert hsame
  decide +kernel

end Rellm.Users
