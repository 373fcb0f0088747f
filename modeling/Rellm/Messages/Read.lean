import Mathlib.Data.Set.List
import Rellm.Content.Access
import Rellm.Messages.Email

/-!
# Read messages

A user marks messages as read, or as unread again, all at once. The access to every message is
checked before anything is written, and one statement writes all marks. The messages that are found
are counted against the ids that are asked for.
-/

namespace Rellm.Messages

open Foundation Content

structure MessageRead where
  messageId : Nat
  userId : Nat
  readAt : Calendar.Instant
  deriving DecidableEq, Repr

/-- A user has at most one mark on a message. -/
def MessageRead.key (read : MessageRead) : Nat × Nat := (read.messageId, read.userId)

/-- The tables of the messages, with the marks of those who read them. -/
structure ReadMailbox extends Mailbox where
  messageReads : Table MessageRead.key

structure MarkMessagesReadRequest where
  messageIds : List (Option Nat)
  unread : Bool := false
  deriving DecidableEq, Repr

structure MarkMessagesReadResponse where
  messageReads : List MessageRead
  deriving DecidableEq, Repr

/-- The order in which a statement returns the rows it has written. -/
structure Returning where
  order : List MessageRead → List MessageRead
  perm : ∀ rows, (order rows).Perm rows

/-- The parameters that one statement can have. -/
def bindLimit : Nat := 65535

/-- One statement inserts some rows, each in place of the row that has its key. Each row takes three
parameters, and no key may come twice. -/
def upsertReads (reads : Table MessageRead.key) (rows : List MessageRead) :
    Option (Table MessageRead.key) :=
  if (rows.map MessageRead.key).Nodup ∧ 3 * rows.length ≤ bindLimit then
    some (rows.foldl Table.put reads)
  else none

namespace ReadMailbox

variable (db : ReadMailbox)

/-- The messages with some ids, each with its group. -/
def rows (messageDbIds : List Nat) : List (Message × MessagingGroup) :=
  (db.messages.rows.filter fun message => message.id ∈ messageDbIds).filterMap fun message =>
    (db.groups.get message.messagingGroupId).map fun group => (message, group)

/-- The messages of some that a user is a recipient of. -/
def bccMessageIds (messageDbIds : List Nat) (userId : Nat) : List Nat :=
  (db.recipients.rows.filter fun recipient =>
    recipient.messageId ∈ messageDbIds && recipient.userId = userId).map (·.messageId)

end ReadMailbox

/-- Whether a user may list all messages of the server. -/
def readsAllSystemMessages (user : Content.User) : Bool :=
  (validatePermission (some user.toUser) .readAllSystemMessages).toBool

/-- The ids of a request whose caller has access to all of its messages. -/
def accessibleIds (request : MarkMessagesReadRequest) (user : Content.User) (db : ReadMailbox) :
    Except Status (List Nat) := do
  require (request.messageIds ≠ []) ⟨.invalidArgument, "message_ids_required"⟩
  let messageDbIds ← decodedIds "message_ids" request.messageIds
  let rows := db.rows messageDbIds
  require (rows.length = messageDbIds.length) messageNotFound
  let bccMessageIds := db.bccMessageIds messageDbIds user.id
  let isAdmin := readsAllSystemMessages user
  require (rows.all fun row => isAdmin || row.1.fromUserId = some user.id ||
    decide (user.id ∈ row.2.sortedUserIds) || decide (row.1.id ∈ bccMessageIds)) messageNotFound
  return messageDbIds

/-- The marks in the order of the ids that were asked for. -/
def inRequestOrder (messageDbIds : List Nat) (reads : List MessageRead) :
    MarkMessagesReadResponse :=
  let byMessageId : Table MessageRead.messageId := .collect reads
  ⟨messageDbIds.filterMap fun id => byMessageId.get id⟩

/-- The mark of a user on a message. -/
def newMessageRead (user : Content.User) (now : Calendar.Instant) (messageId : Nat) : MessageRead :=
  ⟨messageId, user.id, now⟩

/-- `MarkMessagesRead`, at some time. -/
def markMessagesRead (now : Calendar.Instant) (returning : Returning)
    (request : MarkMessagesReadRequest) (user : Content.User) (db : ReadMailbox) :
    Except Status MarkMessagesReadResponse × ReadMailbox :=
  match accessibleIds request user db with
  | .error status => (.error status, db)
  | .ok messageDbIds =>
    let newReads := messageDbIds.map (newMessageRead user now)
    if request.unread then
      (.ok (inRequestOrder messageDbIds newReads),
        { db with messageReads := db.messageReads.delete fun read =>
            read.messageId ∈ messageDbIds && read.userId = user.id })
    else
      match upsertReads db.messageReads newReads with
      | none => (.error ⟨.internal, "error_marking_messages_read"⟩, db)
      | some messageReads =>
        (.ok (inRequestOrder messageDbIds (returning.order newReads)),
          { db with messageReads := messageReads })

/-- A message that a user has sent, or is in the group of, or is a recipient of; who reads all
messages of the server may read any. -/
def ReadMailbox.MayRead (db : ReadMailbox) (user : Content.User) (messageId : Nat) : Prop :=
  ∃ message group, db.messages.get messageId = some message ∧
    db.groups.get message.messagingGroupId = some group ∧
      (isParticipant db.toMailbox user.id message group = true ∨
        readsAllSystemMessages user = true)

section

variable {db : ReadMailbox} {user : Content.User} {messageDbIds : List Nat}

/-- The access is the one that a message is listed to a user for. -/
theorem mayRead_iff_getByMessageId {messageId : Nat} :
    db.MayRead user messageId ↔
      ∃ isSystemListing, (isSystemListing = true → readsAllSystemMessages user = true) ∧
        ∃ found, getByMessageId db.toMailbox user.id (some messageId) isSystemListing =
          .ok found := by
  unfold getByMessageId
  simp only [checks_eq_ok, okOr_eq_ok, checkIf_eq_ok, require_eq_ok, pure_eq_ok]
  constructor
  · rintro ⟨message, group, hmessage, hgroup, hparticipant | hall⟩
    · exact ⟨false, fun h => absurd h Bool.false_ne_true, (message, group), messageId, rfl, message,
        hmessage, group, hgroup, (), fun _ => hparticipant, rfl⟩
    · exact ⟨true, fun _ => hall, (message, group), messageId, rfl, message, hmessage, group, hgroup,
        (), fun h => absurd h.symm Bool.false_ne_true, rfl⟩
  · rintro ⟨isSystemListing, hsystem, _, _, hid, message, hmessage, group, hgroup, _, hparticipant, _⟩
    obtain rfl := Option.some.inj hid
    refine ⟨message, group, hmessage, hgroup, ?_⟩
    cases isSystemListing with
    | false => exact .inl (hparticipant rfl)
    | true => exact .inr (hsystem rfl)

/-- The rows of some ids are the messages that have them, with their groups. -/
theorem mem_rows {message : Message} {group : MessagingGroup} :
    (message, group) ∈ db.rows messageDbIds ↔ message.id ∈ messageDbIds ∧
      db.messages.get message.id = some message ∧
        db.groups.get message.messagingGroupId = some group := by
  unfold ReadMailbox.rows
  rw [List.mem_filterMap]
  constructor
  · rintro ⟨other, hother, hgroup⟩
    obtain ⟨found, hfound, heq⟩ := Option.map_eq_some_iff.mp hgroup
    obtain ⟨rfl, rfl⟩ := Prod.mk.inj heq
    obtain ⟨hmem, hid⟩ := List.mem_filter.mp hother
    exact ⟨of_decide_eq_true hid, Table.mem_rows_iff.mp hmem, hfound⟩
  · rintro ⟨hid, hmessage, hgroup⟩
    exact ⟨message, List.mem_filter.mpr ⟨Table.mem_rows_iff.mpr hmessage, decide_eq_true hid⟩, by
      rw [hgroup, Option.map_some]⟩

theorem nodup_rows : ((db.rows messageDbIds).map fun row => row.1.id).Nodup := by
  have hmessages : (db.messages.rows.filter fun message => message.id ∈ messageDbIds).Nodup :=
    (List.Nodup.of_map _ db.messages.nodup).filter _
  have hrows : (db.rows messageDbIds).Nodup := by
    refine hmessages.filterMap ?_
    rintro message message' ⟨_, _⟩ h h'
    obtain ⟨_, _, heq⟩ := Option.map_eq_some_iff.mp h
    obtain ⟨_, _, heq'⟩ := Option.map_eq_some_iff.mp h'
    rw [(Prod.mk.inj heq).1, (Prod.mk.inj heq').1]
  refine hrows.map_on ?_
  rintro ⟨message, group⟩ hrow ⟨message', group'⟩ hrow' hid
  obtain ⟨_, hmessage, hgroup⟩ := mem_rows.mp hrow
  obtain ⟨_, hmessage', hgroup'⟩ := mem_rows.mp hrow'
  dsimp only at hid
  rw [← hid, hmessage] at hmessage'
  obtain rfl := Option.some.inj hmessage'
  rw [hgroup] at hgroup'
  rw [Option.some.inj hgroup']

/-- As many rows are found as ids are asked for exactly if all of them are there and none comes
twice. -/
theorem length_rows_eq_iff : (db.rows messageDbIds).length = messageDbIds.length ↔
    messageDbIds.Nodup ∧ ∀ id ∈ messageDbIds, ∃ row ∈ db.rows messageDbIds, row.1.id = id := by
  have hsubset : (db.rows messageDbIds).map (fun row => row.1.id) ⊆ messageDbIds := by
    intro id hid
    obtain ⟨⟨message, group⟩, hrow, rfl⟩ := List.mem_map.mp hid
    exact (mem_rows.mp hrow).1
  have hsubperm : ((db.rows messageDbIds).map fun row => row.1.id).Subperm messageDbIds :=
    List.subperm_of_subset nodup_rows hsubset
  constructor
  · intro hlength
    have hperm := hsubperm.perm_of_length_le (by rw [List.length_map, hlength])
    refine ⟨hperm.nodup_iff.mp nodup_rows, ?_⟩
    intro id hid
    exact List.mem_map.mp (hperm.mem_iff.mpr hid)
  · rintro ⟨hnodup, hfound⟩
    have hperm := (List.perm_ext_iff_of_nodup nodup_rows hnodup).mpr fun id =>
      ⟨fun h => hsubset h, fun h => List.mem_map.mpr (hfound id h)⟩
    rw [← hperm.length_eq, List.length_map]

/-- The messages of a user's blind copies are those that the user is a recipient of. -/
theorem mem_bccMessageIds {userId messageId : Nat} (h : messageId ∈ messageDbIds) :
    messageId ∈ db.bccMessageIds messageDbIds userId ↔
      (db.recipients.get (messageId, userId)).isSome = true := by
  unfold ReadMailbox.bccMessageIds
  rw [List.mem_map, Option.isSome_iff_exists]
  constructor
  · rintro ⟨recipient, hmem, rfl⟩
    obtain ⟨hrow, hasked⟩ := List.mem_filter.mp hmem
    obtain ⟨_, huser⟩ := (Bool.and_eq_true _ _).mp hasked
    obtain rfl := of_decide_eq_true huser
    exact ⟨recipient, Table.mem_rows_iff.mp hrow⟩
  · rintro ⟨recipient, hget⟩
    obtain ⟨hrow, hkey⟩ := Table.get_eq_some_iff.mp hget
    obtain ⟨rfl, rfl⟩ := Prod.mk.inj hkey
    exact ⟨recipient, List.mem_filter.mpr
      ⟨hrow, (Bool.and_eq_true _ _).mpr ⟨decide_eq_true h, decide_eq_true rfl⟩⟩, rfl⟩

/-- Ids are accepted exactly if none comes twice and the caller may read each of their messages. -/
theorem accessibleIds_eq_ok {request : MarkMessagesReadRequest} :
    accessibleIds request user db = .ok messageDbIds ↔
      request.messageIds = messageDbIds.map some ∧ messageDbIds ≠ [] ∧ messageDbIds.Nodup ∧
        ∀ id ∈ messageDbIds, db.MayRead user id := by
  have haccess {message : Message} {group : MessagingGroup} (hid : message.id ∈ messageDbIds) :
      (readsAllSystemMessages user || message.fromUserId = some user.id ||
        decide (user.id ∈ group.sortedUserIds) ||
          decide (message.id ∈ db.bccMessageIds messageDbIds user.id)) = true ↔
      isParticipant db.toMailbox user.id message group = true ∨
        readsAllSystemMessages user = true := by
    rw [isParticipant]
    simp only [Bool.or_eq_true, decide_eq_true_eq, mem_bccMessageIds hid]
    tauto
  unfold accessibleIds
  simp only [checks_eq_ok, require_eq_ok, decodedIds_eq_ok, pure_eq_ok, List.all_eq_true]
  constructor
  · rintro ⟨_, hne, ids, hids, _, hlength, _, hall, rfl⟩
    obtain ⟨hnodup, hfound⟩ := length_rows_eq_iff.mp hlength
    refine ⟨hids, ?_, hnodup, ?_⟩
    · rintro rfl
      exact hne hids
    · intro id hid
      obtain ⟨⟨message, group⟩, hrow, rfl⟩ := hfound id hid
      obtain ⟨hmem, hmessage, hgroup⟩ := mem_rows.mp hrow
      exact ⟨message, group, hmessage, hgroup, (haccess hmem).mp (hall _ hrow)⟩
  · rintro ⟨hids, hne, hnodup, hread⟩
    refine ⟨(), ?_, messageDbIds, hids, (), ?_, (), ?_, rfl⟩
    · rw [hids]
      exact fun h => hne (List.map_eq_nil_iff.mp h)
    · refine length_rows_eq_iff.mpr ⟨hnodup, ?_⟩
      intro id hid
      obtain ⟨message, group, hmessage, hgroup, _⟩ := hread id hid
      obtain rfl := Table.key_of_get hmessage
      exact ⟨(message, group), mem_rows.mpr ⟨hid, hmessage, hgroup⟩, rfl⟩
    · rintro ⟨message, group⟩ hrow
      obtain ⟨hmem, hmessage, hgroup⟩ := mem_rows.mp hrow
      obtain ⟨message', group', hmessage', hgroup', hread⟩ := hread message.id hmem
      rw [hmessage] at hmessage'
      obtain rfl := Option.some.inj hmessage'
      rw [hgroup] at hgroup'
      obtain rfl := Option.some.inj hgroup'
      exact (haccess hmem).mpr hread

end

section

variable {now : Calendar.Instant} {user : Content.User} {messageDbIds : List Nat}

theorem key_newMessageRead (h : messageDbIds.Nodup) :
    ((messageDbIds.map (newMessageRead user now)).map MessageRead.key).Nodup := by
  rw [List.map_map]
  exact h.map fun id other heq => (Prod.mk.inj heq).1

/-- The response has the marks in the order of the request, in whatever order they are returned. -/
theorem inRequestOrder_of_perm {reads : List MessageRead}
    (hperm : reads.Perm (messageDbIds.map (newMessageRead user now))) :
    inRequestOrder messageDbIds reads = ⟨messageDbIds.map (newMessageRead user now)⟩ := by
  rw [inRequestOrder, MarkMessagesReadResponse.mk.injEq, ← List.filterMap_eq_map]
  apply List.filterMap_congr
  intro id hid
  have hmem : newMessageRead user now id ∈ reads := hperm.mem_iff.mpr (List.mem_map_of_mem hid)
  have hsome : ((Table.collect reads : Table MessageRead.messageId).get id).isSome :=
    Table.get_collect_isSome.mpr ⟨_, hmem, rfl⟩
  obtain ⟨found, hfound⟩ := Option.isSome_iff_exists.mp hsome
  obtain ⟨hrow, hkey⟩ := Table.get_eq_some_iff.mp hfound
  obtain ⟨other, _, rfl⟩ := List.mem_map.mp (hperm.mem_iff.mp (Table.mem_of_mem_collect hrow))
  obtain rfl : other = id := hkey
  exact hfound

end

/-- What a call does that marks the messages of its request, all of them or none. -/
structure MarksAsListed (now later : Calendar.Instant) (returning : Returning)
    (request : MarkMessagesReadRequest) (user : Content.User) (db : ReadMailbox) : Prop where
  succeeds_iff : (∃ response, (markMessagesRead now returning request user db).1 = .ok response) ↔
    request.messageIds ≠ [] ∧
      ∀ text ∈ request.messageIds, ∃ messageId, text = some messageId ∧ db.MayRead user messageId
  aligned : ∀ response, (markMessagesRead now returning request user db).1 = .ok response →
    response.messageReads.map (fun read => (some read.messageId, read.userId)) =
      request.messageIds.map fun text => (text, user.id)
  marked : ∀ response, (markMessagesRead now returning request user db).1 = .ok response →
    ∀ messageId, some messageId ∈ request.messageIds →
      ((markMessagesRead now returning request user db).2.messageReads.get
        (messageId, user.id)).isSome = !request.unread
  others : ∀ messageId userId, userId ≠ user.id ∨ some messageId ∉ request.messageIds →
    (markMessagesRead now returning request user db).2.messageReads.get (messageId, userId) =
      db.messageReads.get (messageId, userId)
  tables : (markMessagesRead now returning request user db).2.toMailbox = db.toMailbox
  unchanged : ∀ status, (markMessagesRead now returning request user db).1 = .error status →
    (markMessagesRead now returning request user db).2 = db
  restored : ∀ response, (markMessagesRead now returning request user db).1 = .ok response →
    request.unread = false →
    (∀ messageId, some messageId ∈ request.messageIds →
      db.messageReads.get (messageId, user.id) = none) →
    (markMessagesRead later returning { request with unread := true } user
      (markMessagesRead now returning request user db).2).2 = db

/-- No message is named twice, and if they are to be marked as read, one statement can carry them. -/
def MarkMessagesReadRequest.FitsStatement (request : MarkMessagesReadRequest) : Prop :=
  request.messageIds.Nodup ∧
    (request.unread = false → 3 * request.messageIds.length ≤ bindLimit)

section

variable {now later : Calendar.Instant} {returning : Returning}
variable {request : MarkMessagesReadRequest} {user : Content.User} {db : ReadMailbox}
variable {messageDbIds : List Nat}

theorem markMessagesRead_of_error {status : Status}
    (h : accessibleIds request user db = .error status) :
    markMessagesRead now returning request user db = (.error status, db) := by
  rw [markMessagesRead, h]

/-- Messages are marked as unread by one statement. -/
theorem markMessagesRead_unread (h : accessibleIds request user db = .ok messageDbIds)
    (hunread : request.unread = true) :
    markMessagesRead now returning request user db =
      (.ok ⟨messageDbIds.map (newMessageRead user now)⟩,
        { db with messageReads := db.messageReads.delete fun read =>
            read.messageId ∈ messageDbIds && read.userId = user.id }) := by
  rw [markMessagesRead, h]
  dsimp only
  rw [if_pos hunread, inRequestOrder_of_perm (List.Perm.refl _)]

/-- Messages are marked as read by one statement if it can carry them. -/
theorem markMessagesRead_read (h : accessibleIds request user db = .ok messageDbIds)
    (hunread : request.unread = false) (hlimit : 3 * messageDbIds.length ≤ bindLimit) :
    markMessagesRead now returning request user db =
      (.ok ⟨messageDbIds.map (newMessageRead user now)⟩,
        { db with messageReads :=
            (messageDbIds.map (newMessageRead user now)).foldl Table.put db.messageReads }) := by
  obtain ⟨_, _, hnodup, _⟩ := accessibleIds_eq_ok.mp h
  have hupsert : upsertReads db.messageReads (messageDbIds.map (newMessageRead user now)) =
      some ((messageDbIds.map (newMessageRead user now)).foldl Table.put db.messageReads) := by
    rw [upsertReads, if_pos ⟨key_newMessageRead hnodup, by rwa [List.length_map]⟩]
  rw [markMessagesRead, h]
  dsimp only
  rw [hunread, if_neg Bool.false_ne_true, hupsert]
  dsimp only
  rw [inRequestOrder_of_perm (returning.perm _)]

/-- More messages than a statement can carry are not marked as read. -/
theorem markMessagesRead_of_lt (h : accessibleIds request user db = .ok messageDbIds)
    (hunread : request.unread = false) (hlimit : ¬ 3 * messageDbIds.length ≤ bindLimit) :
    markMessagesRead now returning request user db =
      (.error ⟨.internal, "error_marking_messages_read"⟩, db) := by
  have hupsert : upsertReads db.messageReads (messageDbIds.map (newMessageRead user now)) = none := by
    rw [upsertReads, if_neg]
    rintro ⟨_, hle⟩
    rw [List.length_map] at hle
    exact hlimit hle
  rw [markMessagesRead, h]
  dsimp only
  rw [hunread, if_neg Bool.false_ne_true, hupsert]

/-- What a call does is one of these. -/
theorem markMessagesRead_cases (now : Calendar.Instant) (returning : Returning)
    (request : MarkMessagesReadRequest) (user : Content.User) (db : ReadMailbox) :
    (∃ status, markMessagesRead now returning request user db = (.error status, db)) ∨
      ∃ messageDbIds, accessibleIds request user db = .ok messageDbIds ∧
        (request.unread = false → 3 * messageDbIds.length ≤ bindLimit) := by
  cases h : accessibleIds request user db with
  | error status => exact .inl ⟨status, markMessagesRead_of_error h⟩
  | ok messageDbIds =>
    by_cases hfits : request.unread = false → 3 * messageDbIds.length ≤ bindLimit
    · exact .inr ⟨messageDbIds, rfl, hfits⟩
    · obtain ⟨hunread, hlimit⟩ := Classical.not_imp.mp hfits
      exact .inl ⟨_, markMessagesRead_of_lt h hunread hlimit⟩

/-- The mark of a user that is put on a message, or what was there. -/
theorem get_marks (h : messageDbIds.Nodup) (messageId userId : Nat) :
    ((messageDbIds.map (newMessageRead user now)).foldl Table.put db.messageReads).get
        (messageId, userId) =
      if messageId ∈ messageDbIds ∧ userId = user.id then some (newMessageRead user now messageId)
      else db.messageReads.get (messageId, userId) := by
  by_cases hmarked : messageId ∈ messageDbIds ∧ userId = user.id
  · obtain ⟨hid, rfl⟩ := hmarked
    rw [if_pos ⟨hid, rfl⟩]
    exact Table.get_foldl_put_of_mem (key_newMessageRead h) (List.mem_map_of_mem hid)
  · rw [if_neg hmarked]
    apply Table.get_foldl_put_of_notMem
    rw [List.mem_map]
    rintro ⟨read, hread, hkey⟩
    obtain ⟨id, hid, rfl⟩ := List.mem_map.mp hread
    obtain ⟨rfl, rfl⟩ := Prod.mk.inj hkey
    exact hmarked ⟨hid, rfl⟩

/-- A user's marks on some messages are taken back. -/
theorem get_unmarked (reads : Table MessageRead.key) (messageId userId : Nat) :
    (reads.delete fun read => read.messageId ∈ messageDbIds && read.userId = user.id).get
        (messageId, userId) =
      if messageId ∈ messageDbIds ∧ userId = user.id then none
      else reads.get (messageId, userId) := by
  rw [Table.get_delete]
  cases hget : reads.get (messageId, userId) with
  | none => rw [Option.filter_none, ite_self]
  | some read =>
    have hkey : read.key = (messageId, userId) := Table.key_of_get hget
    obtain ⟨rfl, rfl⟩ := Prod.mk.inj hkey
    rw [Option.filter_some]
    by_cases hmarked : read.messageId ∈ messageDbIds ∧ read.userId = user.id
    · rw [if_pos hmarked, decide_eq_true hmarked.1, decide_eq_true hmarked.2]
      rfl
    · rw [if_neg hmarked, if_pos]
      rwa [Bool.not_eq_true', Bool.and_eq_false_iff, decide_eq_false_iff_not,
        decide_eq_false_iff_not, ← not_and_or]

/-- Marks that were not there before are taken back without a trace. -/
theorem delete_marks (h : messageDbIds.Nodup)
    (hfresh : ∀ messageId ∈ messageDbIds, db.messageReads.get (messageId, user.id) = none) :
    (((messageDbIds.map (newMessageRead user now)).foldl Table.put db.messageReads).delete
      fun read => read.messageId ∈ messageDbIds && read.userId = user.id) = db.messageReads := by
  have hput : ((messageDbIds.map (newMessageRead user now)).foldl Table.put db.messageReads).rows =
      db.messageReads.rows ++ messageDbIds.map (newMessageRead user now) := by
    refine Table.rows_foldl_put ?_ (key_newMessageRead h)
    intro read hread
    obtain ⟨id, hid, rfl⟩ := List.mem_map.mp hread
    exact hfresh id hid
  have hrows : (db.messageReads.rows ++ messageDbIds.map (newMessageRead user now)).filter
      (fun read => !(decide (read.messageId ∈ messageDbIds) && decide (read.userId = user.id))) =
        db.messageReads.rows := by
    rw [List.filter_append, List.filter_eq_self.mpr, List.filter_eq_nil_iff.mpr, List.append_nil]
    · intro read hread hkept
      obtain ⟨id, hid, rfl⟩ := List.mem_map.mp hread
      rw [newMessageRead, decide_eq_true hid, decide_eq_true rfl] at hkept
      exact Bool.false_ne_true hkept
    · intro read hread
      rw [Bool.not_eq_true', Bool.and_eq_false_iff, decide_eq_false_iff_not,
        decide_eq_false_iff_not, ← not_and_or]
      rintro ⟨hid, huser⟩
      exact Table.get_eq_none_iff.mp (hfresh read.messageId hid) read hread
        (Prod.ext rfl huser)
  apply Table.ext_of_rows
  rw [← hput] at hrows
  exact hrows

/-- Messages that are accepted are marked as the request says. -/
theorem marksAsListed_of_ok (h : accessibleIds request user db = .ok messageDbIds)
    (hlimit : request.unread = false → 3 * messageDbIds.length ≤ bindLimit) :
    MarksAsListed now later returning request user db := by
  obtain ⟨hids, hne, hnodup, hread⟩ := accessibleIds_eq_ok.mp h
  have hmem {messageId : Nat} : some messageId ∈ request.messageIds ↔ messageId ∈ messageDbIds := by
    rw [hids, List.mem_map_of_injective (Option.some_injective _)]
  have hanswer : (markMessagesRead now returning request user db).1 =
      .ok ⟨messageDbIds.map (newMessageRead user now)⟩ := by
    cases hunread : request.unread with
    | true => rw [markMessagesRead_unread h hunread]
    | false => rw [markMessagesRead_read h hunread (hlimit hunread)]
  have htables : (markMessagesRead now returning request user db).2.toMailbox = db.toMailbox := by
    cases hunread : request.unread with
    | true => rw [markMessagesRead_unread h hunread]
    | false => rw [markMessagesRead_read h hunread (hlimit hunread)]
  have hget (messageId userId : Nat) :
      (markMessagesRead now returning request user db).2.messageReads.get (messageId, userId) =
        if messageId ∈ messageDbIds ∧ userId = user.id then
          if request.unread then none else some (newMessageRead user now messageId)
        else db.messageReads.get (messageId, userId) := by
    cases hunread : request.unread with
    | true =>
      rw [markMessagesRead_unread h hunread]
      exact get_unmarked db.messageReads messageId userId
    | false =>
      rw [markMessagesRead_read h hunread (hlimit hunread)]
      exact get_marks hnodup messageId userId
  constructor
  · refine iff_of_true ⟨_, hanswer⟩ ⟨?_, ?_⟩
    · rw [hids]
      exact fun hnil => hne (List.map_eq_nil_iff.mp hnil)
    · intro text htext
      rw [hids] at htext
      obtain ⟨id, hid, rfl⟩ := List.mem_map.mp htext
      exact ⟨id, rfl, hread id hid⟩
  · intro response hresponse
    obtain rfl := Except.ok.inj (hanswer.symm.trans hresponse)
    rw [hids, List.map_map, List.map_map]
    rfl
  · intro _ _ messageId hasked
    rw [hget, if_pos ⟨hmem.mp hasked, rfl⟩]
    cases request.unread <;> rfl
  · intro messageId userId hother
    rw [hget, if_neg]
    rintro ⟨hid, rfl⟩
    exact hother.elim (fun hne => hne rfl) fun hnot => hnot (hmem.mpr hid)
  · exact htables
  · intro status herror
    rw [hanswer] at herror
    cases herror
  · intro _ _ hunread hfresh
    have hagain : accessibleIds { request with unread := true } user
        (markMessagesRead now returning request user db).2 = .ok messageDbIds := by
      refine accessibleIds_eq_ok.mpr ⟨hids, hne, hnodup, ?_⟩
      unfold ReadMailbox.MayRead
      rw [htables]
      exact hread
    rw [markMessagesRead_unread hagain rfl, markMessagesRead_read h hunread (hlimit hunread)]
    dsimp only
    rw [delete_marks hnodup fun messageId hid => hfresh messageId (hmem.mpr hid)]

/-- A request that is refused rightly changes nothing. -/
theorem marksAsListed_of_error {status : Status}
    (h : markMessagesRead now returning request user db = (.error status, db))
    (hrefused : ¬ (request.messageIds ≠ [] ∧ ∀ text ∈ request.messageIds, ∃ messageId,
      text = some messageId ∧ db.MayRead user messageId)) :
    MarksAsListed now later returning request user db := by
  have hnever {response : MarkMessagesReadResponse} :
      (markMessagesRead now returning request user db).1 ≠ .ok response := by
    rw [h]
    exact fun heq => by cases heq
  exact {
    succeeds_iff := iff_of_false (fun ⟨_, hok⟩ => hnever hok) hrefused
    aligned := fun _ hok => absurd hok hnever
    marked := fun _ hok => absurd hok hnever
    others := fun _ _ _ => by rw [h]
    tables := by rw [h]
    unchanged := fun _ _ => by rw [h]
    restored := fun _ hok => absurd hok hnever }

/-- Messages are marked all at once, as they are listed, exactly if no message of an accepted request
is named twice and one statement can carry the marks. -/
theorem marksAsListed_iff : MarksAsListed now later returning request user db ↔
    (request.messageIds ≠ [] →
      (∀ text ∈ request.messageIds, ∃ messageId, text = some messageId ∧
        db.MayRead user messageId) → request.FitsStatement) := by
  constructor
  · intro hmarks hne hread
    obtain ⟨response, hresponse⟩ := hmarks.succeeds_iff.mpr ⟨hne, hread⟩
    rcases markMessagesRead_cases now returning request user db with ⟨_, herror⟩ | ⟨ids, hok, hlimit⟩
    · rw [herror] at hresponse
      cases hresponse
    · obtain ⟨hids, _, hnodup, _⟩ := accessibleIds_eq_ok.mp hok
      refine ⟨?_, ?_⟩
      · rw [hids]
        exact hnodup.map (Option.some_injective _)
      · rw [hids, List.length_map]
        exact hlimit
  · intro hfits
    rcases markMessagesRead_cases now returning request user db with ⟨_, herror⟩ | ⟨ids, hok, hlimit⟩
    · refine marksAsListed_of_error herror ?_
      rintro ⟨hne, hread⟩
      obtain ⟨hnodup, hlimit⟩ := hfits hne hread
      obtain ⟨ids, hids⟩ : request.messageIds ∈ Set.range (List.map (some : Nat → Option Nat)) := by
        rw [Set.range_list_map]
        intro text htext
        obtain ⟨messageId, rfl, _⟩ := hread text htext
        exact Set.mem_range_self messageId
      have hok : accessibleIds request user db = .ok ids := by
        refine accessibleIds_eq_ok.mpr ⟨hids.symm, ?_, ?_, ?_⟩
        · rintro rfl
          exact hne hids.symm
        · rw [← hids] at hnodup
          exact List.Nodup.of_map _ hnodup
        · intro id hid
          obtain ⟨messageId, heq, hmay⟩ := hread (some id) (hids ▸ List.mem_map_of_mem hid)
          rwa [Option.some.inj heq]
      rw [← hids, List.length_map] at hlimit
      cases hunread : request.unread with
      | true =>
        rw [markMessagesRead_unread hok hunread] at herror
        cases congrArg Prod.fst herror
      | false =>
        rw [markMessagesRead_read hok hunread (hlimit hunread)] at herror
        cases congrArg Prod.fst herror
    · exact marksAsListed_of_ok hok hlimit

end

/-- A mailbox with one message, which its reader has sent. -/
def sentMailbox : ReadMailbox where
  groups := Serial.empty.insert (fun id => ⟨id, [1]⟩) fun _ => rfl
  messages := Serial.empty.insert (fun id => ⟨id, some 1, none, none, none, none, none, 1⟩)
    fun _ => rfl
  recipients := .empty
  messageReads := .empty

def sender : Content.User where
  id := 1
  permissions := .array []
  defaultFollowModeration := .pending

/-- A message that is named twice is not found, though its sender may read it. -/
theorem twice_named_not_found : ¬ MarksAsListed 0 1 ⟨id, List.Perm.refl⟩
    { messageIds := [some 1, some 1] } sender sentMailbox := by
  intro h
  have hmay : sentMailbox.MayRead sender 1 := ⟨_, _, rfl, rfl, .inl rfl⟩
  obtain ⟨response, hresponse⟩ := h.succeeds_iff.mpr ⟨List.cons_ne_nil _ _, by
    intro text htext
    obtain rfl : text = some 1 := by simpa using htext
    exact ⟨1, rfl, hmay⟩⟩
  have hrefused : (markMessagesRead 0 ⟨id, List.Perm.refl⟩
      { messageIds := [some 1, some 1] } sender sentMailbox).1 = .error messageNotFound := rfl
  rw [hrefused] at hresponse
  cases hresponse

end Rellm.Messages
