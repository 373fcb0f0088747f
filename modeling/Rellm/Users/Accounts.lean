import Rellm.Content.Access
import Rellm.Users.ContactMethods

/-!
# Accounts

The rows of the users, and the calls that write the stored phone number of one: sending a code,
giving it back, editing the profile, and a STOP message to the provider. Each call takes the
number through one of the operations on contact methods.
-/

namespace Rellm.Users

open Foundation Content

/-- A message of another part of the program, as its bytes. -/
abbrev EncodedMessage := List UInt8

/-- A row of the media, with the reference that is made of it. -/
structure MediaRow where
  id : Nat
  reference : EncodedMessage
  deriving DecidableEq, Repr

structure Account extends contentUser : Content.User where
  username : String
  passwordSaltedHash : String
  realName : String := ""
  email : Option ContactMethod := none
  phone : Option ContactMethod := none
  avatarMediaId : Option Nat := none
  bio : String := ""
  visibility : Visibility := .serverPublic
  moderation : Moderation := .unmoderated
  createdAt : SystemTime := 0
  updatedAt : SystemTime := 0
  mediaStorageLimitBytes : Option Int64 := none
  mediaStorageBytesUsed : Int64 := 0
  deriving DecidableEq, Repr

structure AccountsDb where
  users : Serial fun account : Account => account.id
  media : Table MediaRow.id

/-- A call on the accounts. -/
abbrev AccountsRpc := EStateM Failure AccountsDb

namespace AccountsDb

theorem id_of_get {db : AccountsDb} {userId : Nat} {account : Account}
    (h : db.users.get userId = some account) : account.id = userId := by
  have hkey := Table.key_of_get h
  exact hkey

/-- The stored number of a user. -/
def phoneOf (db : AccountsDb) (userId : Nat) : Option ContactMethod :=
  (db.users.get userId).bind (·.phone)

/-- The row of a user is written with a number, and the rest of it as it is. -/
def persistPhone (userId : Nat) (phone : ContactMethod) (db : AccountsDb) : AccountsDb :=
  { db with
    users := db.users.modify userId (fun account => { account with phone := some phone })
      fun _ => rfl }

/-- A written number leaves those of others. -/
theorem phoneOf_persistPhone_of_ne {userId otherId : Nat} (h : otherId ≠ userId) (db : AccountsDb)
    (phone : ContactMethod) : (db.persistPhone userId phone).phoneOf otherId = db.phoneOf otherId := by
  unfold phoneOf persistPhone
  rw [Serial.get_modify, if_neg h]

theorem phoneOf_persistPhone {db : AccountsDb} {userId : Nat} {account : Account}
    (h : db.users.get userId = some account) (phone : ContactMethod) (otherId : Nat) :
    (db.persistPhone userId phone).phoneOf otherId =
      if otherId = userId then some phone else db.phoneOf otherId := by
  unfold phoneOf persistPhone
  rw [Serial.get_modify]
  split
  · rename_i heq
    rw [heq, h]
    rfl
  · rfl

/-- A number is written where one was stored. -/
theorem phoneOf_persistPhone_self {db : AccountsDb} {userId : Nat}
    (h : (db.phoneOf userId).isSome) (phone : ContactMethod) :
    (db.persistPhone userId phone).phoneOf userId = some phone := by
  obtain ⟨stored, hstored⟩ := Option.isSome_iff_exists.mp h
  obtain ⟨account, haccount, -⟩ := Option.bind_eq_some_iff.mp hstored
  rw [phoneOf_persistPhone haccount, if_pos rfl]

end AccountsDb

section

variable (currentUser : Account)

/-- `StartContactMethodVerification`. -/
def startContactMethodVerification (request : ContactMethod) (outcome : SendOutcome) :
    AccountsRpc ContactMethod := do
  let updated ← attempt fun _ =>
    answered (startVerification request currentUser.phone outcome)
  modify (AccountsDb.persistPhone currentUser.id updated)
  return updated.withoutCode

/-- `VerifyContactMethod`. -/
def verifyContactMethod (request : VerifyRequest) (checkedAt verifiedAt : SystemTime) :
    AccountsRpc ContactMethod := do
  let guessed ← attempt fun _ =>
    answered (verifyPhone request currentUser.phone checkedAt verifiedAt)
  modify (AccountsDb.persistPhone currentUser.id guessed.phone)
  attempt fun _ => answered guessed.reply

end

/-- The fields of a user that a profile edit reads. -/
structure UserRequest where
  id : IdText
  username : String
  realName : String := ""
  email : Option ContactMethod := none
  phone : Option ContactMethod := none
  permissions : List Permission := []
  avatar : Option IdText := none
  bio : String := ""
  mediaStorageLimitBytes : Option UInt64 := none
  visibility : Visibility
  moderation : Moderation := .unknown
  defaultFollowModeration : Moderation
  deriving DecidableEq, Repr

/-- What a profile edit meets: the protocols the server supports, and the clock. -/
structure EditContext where
  supports : ContactProtocol → Bool
  now : SystemTime

/-- Permissions that a profile edit neither grants nor revokes. -/
def neverGrantableViaUpdateUser : List Permission :=
  [.editClusterSettings, .editServerMediaAllocation, .viewServerLogs]

/-- The permissions an edit stores. -/
def editedPermissions (existing : NamesJson) (requested : List Permission) : NamesJson :=
  let kept := unique requested |>.filter fun p => p ∉ neverGrantableViaUpdateUser
  let carried := neverGrantableViaUpdateUser.filter fun p => p ∈ existing.toProtoPermissions
  NamesJson.encode Permission.asStrName (unique (kept ++ carried))

section

variable (crates : ValidationCrates) (currentUser : Account) (request : UserRequest)

def validateUser : Except Status Unit := do
  validateUsername crates request.username
  validateEmail (request.email.bind (·.value))
  validatePhone (request.phone.bind (·.value))
  let _ ← request.avatar.mapM fun avatar => avatar.toDbIdOrErr "avatar_media_id"
  require (request.visibility ≠ .unknown) ⟨.notFound, "invalid_visibility"⟩
  require (request.defaultFollowModeration ∈ [.pending, .unmoderated])
    ⟨.notFound, "invalid_default_follow_moderation"⟩
  require (.unknown ∉ request.permissions)
    ⟨.notFound, "invalid_permission_" ++ Permission.unknown.asStrName⟩

/-- Whether users edit themselves. -/
def selfUpdate : Bool := decide (request.id = toProtoId currentUser.id)

/-- Whether the caller may edit a profile as its owner may. -/
def editsProfile : Bool :=
  selfUpdate currentUser request || (validatePermission (some currentUser.toUser) .admin).toBool

/-- The owner's part of an edit. -/
def editProfile (context : EditContext) (avatarMediaId : Option Nat) (existing : Account) :
    Account :=
  { existing with
    username := request.username
    realName := request.realName
    bio := request.bio
    avatarMediaId := avatarMediaId
    visibility := request.visibility
    defaultFollowModeration := request.defaultFollowModeration
    phone := applyContactMethodUpdate existing.phone request.phone
      (fun value => startsWith "tel:" value && context.supports .tel) context.now
    email := applyContactMethodUpdate existing.email request.email
      (fun value => startsWith "mailto:" value && context.supports .mailto) context.now }

/-- The admin's part of an edit. -/
def administerAccount (existing : Account) : Account :=
  { existing with
    permissions := editedPermissions existing.permissions request.permissions
    mediaStorageLimitBytes := request.mediaStorageLimitBytes.map UInt64.toInt64 }

/-- The moderator's part of an edit. -/
def moderateAccount (existing : Account) : Account :=
  { existing with moderation := request.moderation }

/-- What an edit makes of a row. -/
def editAccount (context : EditContext) (avatarMediaId : Option Nat) (existing : Account) :
    Account :=
  let caller := some currentUser.toUser
  let admin := (validatePermission caller .admin).toBool
  let moderator := (validatePermission caller .moderateUsers).toBool
  let profile :=
    if editsProfile currentUser request then editProfile request context avatarMediaId existing
    else existing
  let administered := if admin then administerAccount request profile else profile
  let moderated :=
    if admin || moderator then moderateAccount request administered else administered
  { moderated with updatedAt := context.now }

/-- An edit leaves the id. -/
theorem editAccount_id (context : EditContext) (avatarMediaId : Option Nat) (existing : Account) :
    (editAccount currentUser request context avatarMediaId existing).id = existing.id := by
  unfold editAccount
  dsimp only
  split_ifs <;> rfl

/-- An edit leaves the number, unless it is the owner's or an admin's. -/
theorem editAccount_phone (context : EditContext) (avatarMediaId : Option Nat)
    (existing : Account) :
    (editAccount currentUser request context avatarMediaId existing).phone =
      if editsProfile currentUser request then
        applyContactMethodUpdate existing.phone request.phone
          (fun value => startsWith "tel:" value && context.supports .tel) context.now
      else existing.phone := by
  unfold editAccount
  dsimp only
  split_ifs <;> rfl

/-- The row an edit writes. -/
def checkUpdateUser (context : EditContext) (db : AccountsDb) : Except Status Account := do
  let caller := some currentUser.toUser
  validateUser crates request
  let userId ← request.id.toDbIdOrErr "id"
  let avatarMediaId ← request.avatar.mapM fun avatar => avatar.toDbIdOrErr "avatar"
  checkIf (¬ selfUpdate currentUser request) (validateAnyPermission caller .admin [.moderateUsers])
  let existing ← okOr (db.users.get userId) ⟨.notFound, "user_not_found"⟩
  checkIf (editsProfile currentUser request ∧ request.visibility = .globalPublic ∧
      existing.visibility ≠ .globalPublic)
    (require (validatePermission caller .publishUsersGlobally).toBool
      ⟨.invalidArgument, "cannot_publish_globally"⟩)
  let edited := editAccount currentUser request context avatarMediaId existing
  require (∀ other ∈ db.users.rows, other.id ≠ userId → other.username ≠ edited.username)
    ⟨.notFound, "duplicate_username"⟩
  require (∀ mediaId ∈ edited.avatarMediaId, (db.media.get mediaId).isSome) dataError
  return edited

/-- The row is written under the id it has. -/
def AccountsDb.persistAccount (edited : Account) (db : AccountsDb) : AccountsDb :=
  { db with
    users := db.users.modify edited.id (fun existing => { edited with id := existing.id })
      fun _ => rfl }

/-- `UpdateUser`, without the lookup that it answers with. -/
def updateUser (context : EditContext) : AccountsRpc Account := do
  let edited ← attempt fun db => answered (checkUpdateUser crates currentUser request context db)
  modify (AccountsDb.persistAccount edited)
  return edited

end

/-- Whether a user has the number. -/
def Account.hasNumber (e164Number : String) (account : Account) : Bool :=
  account.phone.any fun phone => phone.value = some ("tel:" ++ e164Number)

def Account.revokeConsent (now : SystemTime) (account : Account) : Account :=
  { account with phone := account.phone.map fun phone => Users.revokeConsent phone now }

/-- A STOP message from a number: everybody with that number revokes the consent. -/
def revokeSmsConsentByPhoneNumber (e164Number : String) (now : SystemTime) (db : AccountsDb) :
    AccountsDb :=
  { db with
    users := db.users.update (Account.hasNumber e164Number) (Account.revokeConsent now)
      fun _ => rfl }

end Rellm.Users
