import Rellm.Foundation.Cursors
import Rellm.Messages.Email
import Rellm.Posts.Visible

/-!
# Listed messages

Messages are listed newest first, and no more than a page of them. The next page is asked for by the
time of the last message, which is told in whole seconds.
-/

namespace Rellm.Messages

open Foundation Content

inductive MessageListingType where
  | personalMessages
  | personalMessagesTextSearch
  | allSystemMessages
  | allSystemMessagesTextSearch
  deriving DecidableEq, Repr

structure GetMessagesRequest where
  listingType : MessageListingType := .personalMessages
  messageId : Option (Option Nat) := none
  messageGroupId : Option (Option Nat) := none
  fromEmail : Option String := none
  searchText : Option String := none
  sentBefore : Option EpochSeconds := none
  deriving DecidableEq, Repr

/-- A message with its group. -/
abbrev MessageRow := Message × MessagingGroup

/-- What is known of messages: when each was stored, in microseconds since the epoch, and which ones a
query matches, by their own text or their sender's. -/
structure MessageSearch where
  createdAt : Message → Nat
  isAlphanumeric : Char → Bool
  matchesMessage : Message → String → Bool

/-- The time of a message as it is answered. -/
def MessageSearch.sentAt (search : MessageSearch) (row : MessageRow) : EpochSeconds :=
  search.createdAt row.1 / 1000000

/-- How the database sorts messages, newest first. -/
abbrev MessageSorter (search : MessageSearch) := Sorter fun row : MessageRow => search.createdAt row.1

def messagesPageSize : Nat := 200

def messagingGroupNotFound : Status := ⟨.notFound, "messaging_group_not_found"⟩

def MessageListingType.isSystemListing : MessageListingType → Bool
  | .allSystemMessages | .allSystemMessagesTextSearch => true
  | _ => false

def MessageListingType.isTextSearch : MessageListingType → Bool
  | .personalMessagesTextSearch | .allSystemMessagesTextSearch => true
  | _ => false

/-- All messages with their groups. -/
def Mailbox.joined (db : Mailbox) : List MessageRow :=
  db.messages.rows.filterMap fun message =>
    (db.groups.get message.messagingGroupId).map fun group => (message, group)

section

variable (search : MessageSearch) (sorter : MessageSorter search) (cutoff : Option EpochSeconds)

/-- The newest messages of some before a cutoff. -/
def newestMessages (rows : List MessageRow) : List MessageRow :=
  (sorter.sort (rows.filter fun row =>
    cutoff.all fun cutoff => decide ((search.createdAt row.1 : Int) < Content.toDb cutoff))).take
      messagesPageSize

def getMessagingGroupMessages (db : Mailbox) (userId : Nat) (messageGroupId : Option Nat)
    (isSystemListing : Bool) : Except Status (List MessageRow) := do
  let id ← okOr messageGroupId (invalidId "message_group_id")
  let group ← okOr (db.groups.get id) messagingGroupNotFound
  checkIf (isSystemListing = false) (require (userId ∈ group.sortedUserIds) messagingGroupNotFound)
  return newestMessages search sorter cutoff
    ((db.messages.rows.filter fun message => message.messagingGroupId = id).map (·, group))

def getByFromEmail (db : Mailbox) (userId : Nat) (fromEmail : String) (isSystemListing : Bool) :
    List MessageRow :=
  newestMessages search sorter cutoff (db.joined.filter fun row =>
    (isSystemListing || isParticipant db userId row.1 row.2) &&
      decide (row.1.emailHeaders.bind (·.sender) = some fromEmail))

def getPersonalMessages (db : Mailbox) (userId : Nat) (query : Option String) : List MessageRow :=
  newestMessages search sorter cutoff (db.joined.filter fun row =>
    isParticipant db userId row.1 row.2 && query.all (search.matchesMessage row.1))

def getSystemMessages (db : Mailbox) (query : Option String) : List MessageRow :=
  newestMessages search sorter cutoff (db.joined.filter fun row =>
    query.all (search.matchesMessage row.1))

end

/-- The query of a text search. -/
def GetMessagesRequest.query (search : MessageSearch) (request : GetMessagesRequest) :
    Except Status (Option String) :=
  if request.listingType.isTextSearch then
    (Posts.searchQuery search.isAlphanumeric request.searchText).map some
  else .ok none

/-- `GetMessages`. -/
def getMessages (search : MessageSearch) (sorter : MessageSorter search) (request : GetMessagesRequest)
    (user : Option Content.User) (db : Mailbox) : Except Status (List MessageRow) := do
  let isSystemListing := request.listingType.isSystemListing
  validatePermission (user.map (·.toUser))
    (if isSystemListing then .readAllSystemMessages else .readPersonalMessages)
  let user ← okOr user ⟨.unauthenticated, "authentication_required"⟩
  match request.messageId, request.messageGroupId, request.fromEmail with
  | some messageId, _, _ =>
    let row ← getByMessageId db user.id messageId isSystemListing
    return [row]
  | none, some messageGroupId, _ =>
    getMessagingGroupMessages search sorter request.sentBefore db user.id messageGroupId
      isSystemListing
  | none, none, some fromEmail =>
    return getByFromEmail search sorter request.sentBefore db user.id fromEmail isSystemListing
  | none, none, none =>
    let query ← request.query search
    return if isSystemListing then getSystemMessages search sorter request.sentBefore db query
      else getPersonalMessages search sorter request.sentBefore db user.id query

/-- Whether a message is one of those that a request asks for. -/
def GetMessagesRequest.asksFor (search : MessageSearch) (request : GetMessagesRequest)
    (row : MessageRow) : Bool :=
  match request.messageGroupId, request.fromEmail with
  | some messageGroupId, _ => messageGroupId = some row.1.messagingGroupId
  | none, some fromEmail => row.1.emailHeaders.bind (·.sender) = some fromEmail
  | none, none =>
    match request.query search with
    | .ok query => query.all (search.matchesMessage row.1)
    | .error _ => false

/-- The messages that a request asks for, of those that its caller may read. -/
def GetMessagesRequest.listed (search : MessageSearch) (request : GetMessagesRequest)
    (user : Content.User) (db : Mailbox) : List MessageRow :=
  db.joined.filter fun row =>
    (request.listingType.isSystemListing || isParticipant db user.id row.1 row.2) &&
      request.asksFor search row

section

variable {search : MessageSearch} {sorter : MessageSorter search} {request : GetMessagesRequest}
variable {user : Content.User} {db : Mailbox}

theorem mem_joined {row : MessageRow} :
    row ∈ db.joined ↔ db.messages.get row.1.id = some row.1 ∧
      db.groups.get row.1.messagingGroupId = some row.2 := by
  rw [Mailbox.joined, List.mem_filterMap]
  constructor
  · rintro ⟨message, hmessage, hrow⟩
    obtain ⟨group, hgroup, rfl⟩ := Option.map_eq_some_iff.mp hrow
    exact ⟨Table.mem_rows_iff.mp hmessage, hgroup⟩
  · rintro ⟨hmessage, hgroup⟩
    exact ⟨row.1, Table.mem_rows_iff.mpr hmessage, by rw [hgroup, Option.map_some]⟩

/-- A cutoff in seconds cuts off by the seconds of each message. -/
theorem newestMessages_eq (cutoff : Option EpochSeconds) (rows : List MessageRow) :
    newestMessages search sorter cutoff rows =
      (sorter.sort (belowCutoff search.sentAt cutoff rows)).take messagesPageSize := by
  have hbefore (row : MessageRow) (cutoff : EpochSeconds) :
      (search.createdAt row.1 : Int) < Content.toDb cutoff ↔ search.sentAt row < cutoff := by
    rw [Content.toDb, MessageSearch.sentAt, Nat.div_lt_iff_lt_mul (by decide)]
    omega
  rw [newestMessages, belowCutoff]
  simp only [hbefore]

/-- The messages of a group are those of all messages that belong to it. -/
theorem map_group_eq {group : MessagingGroup} {id : Nat} (hgroup : db.groups.get id = some group)
    {asked : MessageRow → Bool}
    (hasked : ∀ message, message.messagingGroupId = id → asked (message, group) = true)
    (hgroupOf : ∀ row, asked row = true → row.1.messagingGroupId = id) :
    (db.messages.rows.filter fun message => message.messagingGroupId = id).map (·, group) =
      db.joined.filter asked := by
  rw [Mailbox.joined]
  induction db.messages.rows with
  | nil => rfl
  | cons message rows ih =>
    rw [List.filter_cons, List.filterMap_cons]
    by_cases hid : message.messagingGroupId = id
    · rw [if_pos (decide_eq_true hid), List.map_cons, ih, hid, hgroup, Option.map_some]
      dsimp only
      rw [List.filter_cons_of_pos (hasked message hid)]
    · rw [if_neg (by rwa [decide_eq_true_iff]), ih]
      cases db.groups.get message.messagingGroupId with
      | none => rfl
      | some other =>
        rw [Option.map_some]
        dsimp only
        rw [List.filter_cons_of_neg fun h => hid (hgroupOf _ h)]

/-- Whatever its cutoff is, a request is answered with the newest messages that it asks for. -/
theorem getMessages_of_ok (hlist : request.messageId = none)
    (h : (getMessages search sorter request (some user) db).isOk = true) (sorter' : MessageSorter search)
    (cutoff : Option EpochSeconds) :
    getMessages search sorter' { request with sentBefore := cutoff } (some user) db =
      .ok (newestMessages search sorter' cutoff (request.listed search user db)) := by
  cases hanswer : getMessages search sorter request (some user) db with
  | error status =>
    rw [hanswer] at h
    cases h
  | ok answer =>
    unfold getMessages at hanswer ⊢
    simp only [checks_eq_ok, okOr_eq_ok, hlist] at hanswer ⊢
    obtain ⟨_, hpermission, caller, hcaller, hanswer⟩ := hanswer
    obtain rfl := Option.some.inj hcaller
    refine ⟨_, hpermission, _, rfl, ?_⟩
    unfold GetMessagesRequest.listed GetMessagesRequest.asksFor
    cases hgroupId : request.messageGroupId with
    | some messageGroupId =>
      rw [hgroupId] at hanswer
      dsimp only at hanswer ⊢
      unfold getMessagingGroupMessages at hanswer ⊢
      simp only [checks_eq_ok, okOr_eq_ok, checkIf_eq_ok, require_eq_ok, pure_eq_ok] at hanswer ⊢
      obtain ⟨id, rfl, group, hgroup, _, hmember, _⟩ := hanswer
      refine ⟨id, rfl, group, hgroup, (), hmember, ?_⟩
      congr 1
      refine map_group_eq hgroup (fun message hid => ?_) fun row hrow => ?_
      · rw [hid, decide_eq_true rfl, Bool.and_true, Bool.or_eq_true]
        cases hsystem : request.listingType.isSystemListing with
        | true => exact .inl rfl
        | false =>
          refine .inr ?_
          simp [isParticipant, hmember hsystem]
      · exact (Option.some.inj (of_decide_eq_true (Bool.and_eq_true _ _ ▸ hrow).2)).symm
    | none =>
      rw [hgroupId] at hanswer
      cases hfrom : request.fromEmail with
      | some fromEmail => rfl
      | none =>
        rw [hfrom] at hanswer
        dsimp only at hanswer ⊢
        simp only [checks_eq_ok, pure_eq_ok] at hanswer ⊢
        obtain ⟨query, hquery, _⟩ := hanswer
        refine ⟨query, hquery, ?_⟩
        rw [hquery]
        cases request.listingType.isSystemListing with
        | true => simp only [Bool.true_or, Bool.true_and, if_true, getSystemMessages]
        | false => rfl

/-- A message that is listed is one that the same caller gets by its id. -/
theorem getByMessageId_of_mem {row : MessageRow} (hrow : row ∈ request.listed search user db) :
    getByMessageId db user.id (some row.1.id) request.listingType.isSystemListing = .ok row := by
  obtain ⟨hjoined, hlisted⟩ := List.mem_filter.mp hrow
  obtain ⟨hmessage, hgroup⟩ := mem_joined.mp hjoined
  have hread := (Bool.and_eq_true _ _ ▸ hlisted).1
  unfold getByMessageId
  simp only [checks_eq_ok, okOr_eq_ok, checkIf_eq_ok, require_eq_ok, pure_eq_ok]
  refine ⟨_, rfl, _, hmessage, _, hgroup, (), fun hpersonal => ?_, rfl⟩
  rwa [hpersonal, Bool.false_or] at hread

/-- Newest first is newest first by seconds. -/
def MessageSearch.bySeconds (sorter : MessageSorter search) : Sorter search.sentAt :=
  sorter.coarsen (f := fun createdAt => createdAt / 1000000) fun _ _ h => Nat.div_le_div_right h

/-- Followed page after page, each from the time of the last message before, a listing returns each
message that its caller asks for and may read once, exactly if every page breaks off between messages
of different seconds. -/
theorem messages_followed_iff (sorters : Nat → MessageSorter search) (hlist : request.messageId = none)
    (h : (getMessages search (sorters 0) request (some user) db).isOk = true) :
    (∀ row ∈ request.listed search user db,
      getByMessageId db user.id (some row.1.id) request.listingType.isSystemListing = .ok row) ∧
    ((∃ collected, Followed search.sentAt (fun page cutoff =>
          (getMessages search (sorters page) { request with sentBefore := cutoff } (some user) db).toOption)
          0 none collected ∧ collected.Perm (request.listed search user db)) ↔
      PageBreaks search.sentAt messagesPageSize (request.listed search user db)) := by
  refine ⟨fun _ => getByMessageId_of_mem, ?_⟩
  have hall : belowCutoff search.sentAt none (request.listed search user db) =
      request.listed search user db := List.filter_true _
  have hrequest (page : Nat) (cutoff : Option EpochSeconds) :
      (getMessages search (sorters page) { request with sentBefore := cutoff } (some user) db).toOption =
        some (((MessageSearch.bySeconds (sorters page)).sort
          (belowCutoff search.sentAt cutoff (request.listed search user db))).take messagesPageSize) := by
    rw [getMessages_of_ok hlist h, newestMessages_eq]
    rfl
  have hfollowed := exists_followed_perm_iff (by decide : 0 < messagesPageSize) hrequest 0 none
  rw [hall] at hfollowed
  exact hfollowed

end

/-- A mailbox with two messages that were stored in one second, and their reader. -/
def receivedMailbox : Mailbox where
  groups := Serial.empty.insert (fun id => ⟨id, [1, 2]⟩) fun _ => rfl
  messages := (Serial.empty.insert (fun id => ⟨id, none, none, none, none, none, none, 1⟩) fun _ =>
    rfl).insert (fun id => ⟨id, none, none, none, none, none, none, 1⟩) fun _ => rfl
  recipients := .empty

def messageReader : Content.User where
  id := 1
  permissions := .array [some "READ_PERSONAL_MESSAGES"]
  defaultFollowModeration := .pending

def oneSecond : MessageSearch := ⟨fun message => 5000000 + message.id, fun _ => true, fun _ _ => true⟩

theorem messages_followed_iff_oneSecond :
    (∀ row ∈ GetMessagesRequest.listed oneSecond {} messageReader receivedMailbox,
      getByMessageId receivedMailbox 1 (some row.1.id) false = .ok row) ∧
    ((∃ collected, Followed oneSecond.sentAt (fun _ cutoff =>
          (getMessages oneSecond (.stable _) { sentBefore := cutoff } (some messageReader)
            receivedMailbox).toOption)
          0 none collected ∧
        collected.Perm (GetMessagesRequest.listed oneSecond {} messageReader receivedMailbox)) ↔
      PageBreaks oneSecond.sentAt messagesPageSize
        (GetMessagesRequest.listed oneSecond {} messageReader receivedMailbox)) :=
  messages_followed_iff (fun _ => .stable _) rfl (by decide +kernel)

end Rellm.Messages
