import Rellm.Content.Tables

/-!
# Inbound email

The mail server hands over each message with the addresses it is for. A message is stored once for
its Message-Id. Who is named in its headers reads it as a member of its messaging group; who is not
is a blind copy recipient, and gets a row of their own.
-/

namespace Rellm.Messages

open Foundation

inductive RecipientType where
  | «to»
  | cc
  | bcc
  | direct
  deriving DecidableEq, Repr

/-- A conversation, by its participants. -/
structure MessagingGroup where
  id : Nat
  sortedUserIds : List Nat
  deriving DecidableEq, Repr

/-- The headers of an email that are kept. -/
structure EmailHeaders where
  sender : Option String := none
  «to» : List String := []
  cc : List String := []
  bcc : List String := []
  date : Option String := none
  messageId : Option String := none
  xMailer : Option String := none
  deriving DecidableEq, Repr

structure Message where
  id : Nat
  fromUserId : Option Nat
  subject : Option String
  bodyText : Option String
  emailHeaders : Option EmailHeaders
  emailMessageId : Option String
  emailObjectStoragePath : Option String
  messagingGroupId : Nat
  deriving DecidableEq, Repr

structure MessageRecipient where
  messageId : Nat
  userId : Nat
  recipientType : RecipientType
  deriving DecidableEq, Repr

/-- A user is a recipient of a message at most once. -/
def MessageRecipient.key (recipient : MessageRecipient) : Nat × Nat :=
  (recipient.messageId, recipient.userId)

/-- The tables of the messages. -/
structure Mailbox where
  groups : Serial MessagingGroup.id
  messages : Serial Message.id
  recipients : Table MessageRecipient.key

def Mailbox.empty : Mailbox := ⟨.empty, .empty, .empty⟩

/-- An address of a header. -/
structure Addr where
  name : Option String := none
  address : Option String := none
  deriving DecidableEq, Repr

/-- What the parser reads in a message. -/
structure ParsedMail where
  messageId : Option String := none
  sender : Option (List Addr) := none
  «to» : Option (List Addr) := none
  cc : Option (List Addr) := none
  date : Option String := none
  xMailer : Option String := none
  subject : Option String := none
  bodyText : Option String := none
  deriving DecidableEq, Repr

/-- The parser of messages, and whether it finds an address among others. -/
structure MailCrates where
  parse : String → Option ParsedMail
  contains : List Addr → String → Bool

/-- What the mail server hands over. -/
structure MtaHookRequest where
  envelope : List String
  headers : List (String × String)
  contents : String
  deriving DecidableEq, Repr

/-- A call of the hook: whether mail is received at all, what can be read of the request, the users
by their names, the random parts, and whether the message can be put in the storage. -/
structure Delivery where
  receivingEnabled : Bool := true
  complete : Bool := true
  payload : Option MtaHookRequest
  users : String → Option Nat
  generatedId : String
  objectId : String
  putObject : Bool := true

inductive HookAnswer where
  | accept
  | reject
  deriving DecidableEq, Repr

/-- A header value on one line. -/
def sanitizeHeaderValue (value : String) : String :=
  " ".intercalate (((value.toList.splitOnP fun c => c = '\r' || c = '\n').map
    fun fragment => trim (String.ofList fragment)).filter fun fragment => fragment ≠ "")

/-- The message as it was on the wire. -/
def buildRawMessage (headers : List (String × String)) (contents : String) : String :=
  headers.foldr (fun header rest => header.1 ++ ": " ++ sanitizeHeaderValue header.2 ++ "\r\n" ++ rest)
    ("\r\n" ++ contents)

def formatAddr (addr : Addr) : Option String :=
  match addr.name, addr.address with
  | some name, some address => some (name ++ " <" ++ address ++ ">")
  | none, some address => some address
  | _, none => none

def collectAddresses (addresses : Option (List Addr)) : List String :=
  (addresses.getD []).filterMap formatAddr

def displayAddress (addresses : List Addr) : Option String := addresses.head?.bind formatAddr

/-- The headers of a message that are kept; blind copy recipients are in none of them. -/
def emailHeaders (parsed : ParsedMail) : EmailHeaders where
  sender := parsed.sender.bind displayAddress
  «to» := collectAddresses parsed.to
  cc := collectAddresses parsed.cc
  date := parsed.date.map sanitizeHeaderValue
  messageId := parsed.messageId
  xMailer := parsed.xMailer.map sanitizeHeaderValue

/-- What is before the first at sign of an address. -/
def localPart (address : String) : String :=
  String.ofList (address.toList.takeWhile fun c => c ≠ '@')

/-- A message whose recipients are found. -/
structure IncomingMail where
  messageId : String
  parsed : ParsedMail
  recipients : List (Nat × RecipientType)
  objectStoragePath : String
  deriving DecidableEq, Repr

section

variable (crates : MailCrates)

/-- How an address of the envelope is named in the headers. -/
def recipientType (parsed : ParsedMail) (address : String) : RecipientType :=
  if parsed.to.any fun addresses => crates.contains addresses address then .to
  else if parsed.cc.any fun addresses => crates.contains addresses address then .cc
  else .bcc

/-- The users that an envelope names; who has no account here is skipped. -/
def envelopeRecipients (parsed : ParsedMail) (users : String → Option Nat)
    (envelope : List String) : List (Nat × RecipientType) :=
  (envelope.map trim).filterMap fun address =>
    if localPart address = "" then none
    else (users (localPart address)).map fun userId => (userId, recipientType crates parsed address)

/-- The message of a delivery, if it can be read and is for somebody here. -/
def incomingMail (delivery : Delivery) : Except HttpStatus IncomingMail := do
  require delivery.complete .payloadTooLarge
  let payload ← okOr delivery.payload .badRequest
  let parsed ← okOr (crates.parse (buildRawMessage payload.headers payload.contents)) .badRequest
  let recipients := envelopeRecipients crates parsed delivery.users payload.envelope
  require (recipients ≠ []) .notFound
  return {
    messageId := parsed.messageId.getD ("<generated-" ++ delivery.generatedId ++ "@rellm.internal>")
    parsed := parsed
    recipients := recipients
    objectStoragePath := "email/" ++ delivery.objectId ++ ".eml" }

end

/-- Participants in order, each once. -/
def sortedUserIds (userIds : List Nat) : List Nat :=
  unique (userIds.mergeSort fun a b => decide (a ≤ b))

/-- The group of some participants, which is made if there is none yet. -/
def findOrCreateMessagingGroup (userIds : List Nat) (db : Mailbox) : Nat × Mailbox :=
  match db.groups.rows.find? fun group => group.sortedUserIds = sortedUserIds userIds with
  | some group => (group.id, db)
  | none => (db.groups.next,
      { db with groups := db.groups.insert (fun id => ⟨id, sortedUserIds userIds⟩) fun _ => rfl })

namespace IncomingMail

variable (mail : IncomingMail)

/-- The users that the headers name. -/
def groupUserIds : List Nat :=
  (mail.recipients.filter fun recipient => recipient.2 ≠ .bcc).map (·.1)

/-- The row of a message. -/
def row (messagingGroupId id : Nat) : Message where
  id := id
  fromUserId := none
  subject := mail.parsed.subject
  bodyText := mail.parsed.bodyText
  emailHeaders := some (emailHeaders mail.parsed)
  emailMessageId := some mail.messageId
  emailObjectStoragePath := some mail.objectStoragePath
  messagingGroupId := messagingGroupId

/-- The message that has its Message-Id already. -/
def stored (db : Mailbox) : Option Message :=
  db.messages.rows.find? fun message => message.emailMessageId = some mail.messageId

/-- The message is stored, or the one that has its Message-Id stands for it. -/
def store (messagingGroupId : Nat) (db : Mailbox) : Nat × Mailbox :=
  match mail.stored db with
  | some message => (message.id, db)
  | none => (db.messages.next,
      { db with messages := db.messages.insert (mail.row messagingGroupId) fun _ => rfl })

/-- The blind copy recipients of a message get a row, unless they have one. -/
def addRecipients (messageId : Nat) (db : Mailbox) : Mailbox :=
  { db with
    recipients := (mail.recipients.filter fun recipient => recipient.2 = .bcc).foldl
      (fun recipients recipient =>
        (recipients.insert ⟨messageId, recipient.1, recipient.2⟩).getD recipients) db.recipients }

/-- The tables after a message is stored. -/
def write (messagingGroupId : Nat) (db : Mailbox) : Mailbox :=
  let stored := mail.store messagingGroupId db
  mail.addRecipients stored.1 stored.2

end IncomingMail

/-- The hook that the mail server calls. -/
def createEmailMessage (crates : MailCrates) (delivery : Delivery) (db : Mailbox) :
    Except HttpStatus HookAnswer × Mailbox :=
  if delivery.receivingEnabled then
    match incomingMail crates delivery with
    | .error status => (.error status, db)
    | .ok mail =>
      let group := findOrCreateMessagingGroup mail.groupUserIds db
      if delivery.putObject then (.ok .accept, mail.write group.1 group.2)
      else (.error .internalServerError, group.2)
  else (.ok .reject, db)

def messageNotFound : Status := ⟨.notFound, "message_not_found"⟩

/-- A user sent a message, is in its group, or is a recipient of it. -/
def isParticipant (db : Mailbox) (userId : Nat) (message : Message) (group : MessagingGroup) : Bool :=
  message.fromUserId = some userId || decide (userId ∈ group.sortedUserIds) ||
    (db.recipients.get (message.id, userId)).isSome

/-- A message as a user reads it. -/
def getByMessageId (db : Mailbox) (userId : Nat) (messageId : Option Nat)
    (isSystemListing : Bool) : Except Status (Message × MessagingGroup) := do
  let id ← okOr messageId (Content.invalidId "message_id")
  let message ← okOr (db.messages.get id) messageNotFound
  let group ← okOr (db.groups.get message.messagingGroupId) messageNotFound
  checkIf (isSystemListing = false) (require (isParticipant db userId message group) messageNotFound)
  return (message, group)

end Rellm.Messages
