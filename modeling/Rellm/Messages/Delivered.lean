import Rellm.Foundation.Run
import Rellm.Messages.Email

/-!
# Who reads an email

A delivered message should be read by the users its envelope names, and by nobody else. A delivery
whose Message-Id is stored already leaves its own contents out, and adds its blind copy recipients
to the message that is there.
-/

namespace Rellm.Messages

open Foundation

/-- What a message says. -/
abbrev Contents := Option String × Option String

def Message.contents (message : Message) : Contents := (message.subject, message.bodyText)

/-- A message that was accepted: what it says, and the users its envelope named. -/
structure Accepted where
  contents : Contents
  recipients : List Nat
  deriving DecidableEq, Repr

def IncomingMail.contents (mail : IncomingMail) : Contents :=
  (mail.parsed.subject, mail.parsed.bodyText)

def IncomingMail.accepted (mail : IncomingMail) : Accepted :=
  ⟨mail.contents, mail.recipients.map (·.1)⟩

/-- The tables, with what was accepted. -/
structure Inbox where
  db : Mailbox
  accepted : List Accepted

/-- What a delivery is answered and leaves. -/
def Inbox.receive (crates : MailCrates) (inbox : Inbox) (delivery : Delivery) : Inbox :=
  match incomingMail crates delivery, createEmailMessage crates delivery inbox.db with
  | .ok mail, (.ok .accept, db) => ⟨db, inbox.accepted ++ [mail.accepted]⟩
  | _, (_, db) => ⟨db, inbox.accepted⟩

/-- A user can read a stored message. -/
def CanRead (db : Mailbox) (userId : Nat) (message : Message) : Prop :=
  message ∈ db.messages.rows ∧
    ∃ group, getByMessageId db userId (some message.id) false = .ok (message, group)

/-- Every user that an accepted delivery named reads a message that says what it says, and a user
reads a message only if a delivery that said so named them. -/
structure ReadByRecipients (inbox : Inbox) : Prop where
  reached : ∀ mail ∈ inbox.accepted, ∀ userId ∈ mail.recipients,
    ∃ message, CanRead inbox.db userId message ∧ message.contents = mail.contents
  confined : ∀ message userId, CanRead inbox.db userId message →
    ∃ mail ∈ inbox.accepted, userId ∈ mail.recipients ∧ mail.contents = message.contents

/-- A message whose Message-Id is stored already: its recipients can read what it says, or get to
read the stored message, which says the same; and who gets to read the stored message is named
where it was said. -/
def MeetsStored (crates : MailCrates) (inbox : Inbox) (delivery : Delivery) : Prop :=
  ∀ mail, incomingMail crates delivery = .ok mail → delivery.receivingEnabled = true →
    delivery.putObject = true → ∀ stored, mail.stored inbox.db = some stored →
      (∀ userId ∈ mail.recipients.map (·.1),
        (∃ message, CanRead inbox.db userId message ∧ message.contents = mail.contents) ∨
          ((userId, .bcc) ∈ mail.recipients ∧ stored.contents = mail.contents)) ∧
      (∀ userId, (userId, .bcc) ∈ mail.recipients → stored.contents = mail.contents ∨
        ∃ earlier ∈ inbox.accepted, userId ∈ earlier.recipients ∧
          earlier.contents = stored.contents)

/-- Every message belongs to a group and was sent by nobody here, and recipients are those of
messages that are stored. -/
structure Received (db : Mailbox) : Prop where
  grouped : ∀ message ∈ db.messages.rows, (db.groups.get message.messagingGroupId).isSome
  foreign : ∀ message ∈ db.messages.rows, message.fromUserId = none
  backed : ∀ id userId, (db.recipients.get (id, userId)).isSome → (db.messages.get id).isSome

/-- The same messages with the same recipients, and no group less. -/
structure Extends (db db' : Mailbox) : Prop where
  messages : db'.messages = db.messages
  recipients : db'.recipients = db.recipients
  groups : ∀ id group, db.groups.get id = some group → db'.groups.get id = some group

section

variable {db db' : Mailbox} {userId : Nat} {message : Message}

/-- A user reads a message of others as a member of its group, or as a recipient. -/
theorem Received.canRead_iff (h : Received db) :
    CanRead db userId message ↔ message ∈ db.messages.rows ∧
      ((∃ group, db.groups.get message.messagingGroupId = some group ∧
        userId ∈ group.sortedUserIds) ∨ (db.recipients.get (message.id, userId)).isSome) := by
  unfold CanRead
  refine and_congr_right fun hmem => ?_
  have hforeign := h.foreign message hmem
  obtain ⟨group, hgroup⟩ := Option.isSome_iff_exists.mp (h.grouped message hmem)
  have hget : db.messages.get message.id = some message := Table.mem_rows_iff.mp hmem
  simp only [getByMessageId, checks_eq_ok, okOr_eq_ok, pure_eq_ok, checkIf_eq_ok, require_eq_ok,
    Option.some.injEq, hget, hgroup, isParticipant, hforeign, exists_eq_left', Prod.mk.injEq,
    true_and]
  simp

theorem Extends.refl (db : Mailbox) : Extends db db := ⟨rfl, rfl, fun _ _ h => h⟩

theorem Received.extends (h : Received db) (hextends : Extends db db') : Received db' := by
  obtain ⟨hmessages, hrecipients, hgroups⟩ := hextends
  constructor
  · rw [hmessages]
    intro message hmem
    obtain ⟨group, hgroup⟩ := Option.isSome_iff_exists.mp (h.grouped message hmem)
    rw [hgroups _ _ hgroup]
    rfl
  · rw [hmessages]
    exact h.foreign
  · rw [hmessages, hrecipients]
    exact h.backed

/-- More groups let nobody read more. -/
theorem Received.canRead_extends (h : Received db) (hextends : Extends db db') :
    CanRead db' userId message ↔ CanRead db userId message := by
  rw [(h.extends hextends).canRead_iff, h.canRead_iff, hextends.messages, hextends.recipients]
  refine and_congr_right fun hmem => or_congr_left ?_
  obtain ⟨group, hgroup⟩ := Option.isSome_iff_exists.mp (h.grouped message hmem)
  rw [hextends.groups _ _ hgroup, hgroup]

/-- Looking a group up keeps the groups that were there, and finds one of the participants. -/
theorem findOrCreate_spec (userIds : List Nat) (db : Mailbox) :
    Extends db (findOrCreateMessagingGroup userIds db).2 ∧
      ∃ group, (findOrCreateMessagingGroup userIds db).2.groups.get
          (findOrCreateMessagingGroup userIds db).1 = some group ∧
        ∀ userId, userId ∈ group.sortedUserIds ↔ userId ∈ userIds := by
  have hsorted (userId : Nat) : userId ∈ sortedUserIds userIds ↔ userId ∈ userIds := by
    rw [sortedUserIds, mem_unique, List.mem_mergeSort]
  unfold findOrCreateMessagingGroup
  split
  · rename_i group hfound
    have hmem := List.mem_of_find?_eq_some hfound
    have hids : group.sortedUserIds = sortedUserIds userIds := by
      simpa using List.find?_some hfound
    exact ⟨.refl db, group, Table.mem_rows_iff.mp hmem, fun userId => by rw [hids, hsorted]⟩
  · refine ⟨⟨rfl, rfl, fun _ _ h => Serial.get_insert_of_get _ _ _ h⟩,
      ⟨db.groups.next, sortedUserIds userIds⟩, ?_, hsorted⟩
    rw [Serial.get_insert, if_pos rfl]

/-- Who has a row for a message after blind copy recipients were added. -/
theorem IncomingMail.addRecipients_iff (mail : IncomingMail) (messageId id : Nat) :
    ((mail.addRecipients messageId db).recipients.get (id, userId)).isSome ↔
      (db.recipients.get (id, userId)).isSome ∨
        id = messageId ∧ (userId, .bcc) ∈ mail.recipients := by
  have hfold (recipients : List (Nat × RecipientType)) (t : Table MessageRecipient.key) :
      ((recipients.foldl (fun t recipient =>
        (t.insert ⟨messageId, recipient.1, recipient.2⟩).getD t) t).get (id, userId)).isSome ↔
      (t.get (id, userId)).isSome ∨
        id = messageId ∧ ∃ recipient ∈ recipients, recipient.1 = userId := by
    induction recipients generalizing t with
    | nil => simp
    | cons recipient recipients ih =>
      rw [List.foldl_cons, ih, Table.isSome_get_insert_getD]
      simp only [MessageRecipient.key, Prod.mk.injEq, List.mem_cons, exists_eq_or_imp,
        eq_comm (a := userId)]
      tauto
  unfold addRecipients
  rw [hfold]
  simp only [List.mem_filter, decide_eq_true_eq]
  constructor
  · rintro (h | ⟨rfl, ⟨user, kind⟩, ⟨hmem, rfl⟩, rfl⟩)
    · exact Or.inl h
    · exact Or.inr ⟨rfl, hmem⟩
  · rintro (h | ⟨rfl, hmem⟩)
    · exact Or.inl h
    · exact Or.inr ⟨rfl, (userId, .bcc), ⟨hmem, rfl⟩, rfl⟩

/-- The users that an envelope names are in the group or blind copy recipients. -/
theorem IncomingMail.mem_recipients_iff (mail : IncomingMail) :
    userId ∈ mail.recipients.map (·.1) ↔
      userId ∈ mail.groupUserIds ∨ (userId, .bcc) ∈ mail.recipients := by
  simp only [groupUserIds, List.mem_map, List.mem_filter, decide_eq_true_eq]
  constructor
  · rintro ⟨⟨user, kind⟩, hmem, rfl⟩
    by_cases hkind : kind = .bcc
    · exact Or.inr (hkind ▸ hmem)
    · exact Or.inl ⟨(user, kind), ⟨hmem, hkind⟩, rfl⟩
  · rintro (⟨recipient, ⟨hmem, _⟩, rfl⟩ | hmem)
    · exact ⟨recipient, hmem, rfl⟩
    · exact ⟨_, hmem, rfl⟩

/-- A message whose Message-Id is stored gives its blind copy recipients the stored one to read. -/
theorem IncomingMail.canRead_duplicate (mail : IncomingMail) (h : Received db) {groupId : Nat}
    {stored : Message} (hstored : mail.stored db = some stored) :
    Received (mail.write groupId db) ∧ ∀ userId message,
      CanRead (mail.write groupId db) userId message ↔
        CanRead db userId message ∨ message = stored ∧ (userId, .bcc) ∈ mail.recipients := by
  have hmem : stored ∈ db.messages.rows := List.mem_of_find?_eq_some hstored
  have hwrite : mail.write groupId db = mail.addRecipients stored.id db := by
    unfold write store
    rw [hstored]
  have hreceived : Received (mail.write groupId db) := by
    rw [hwrite]
    refine ⟨h.grouped, h.foreign, fun id userId hrow => ?_⟩
    rcases (mail.addRecipients_iff stored.id id).mp hrow with hold | ⟨rfl, _⟩
    · exact h.backed id userId hold
    · have hget := Table.mem_rows_iff.mp hmem
      exact Option.isSome_iff_exists.mpr ⟨stored, hget⟩
  refine ⟨hreceived, fun userId message => ?_⟩
  rw [hreceived.canRead_iff, h.canRead_iff, hwrite, addRecipients_iff]
  change message ∈ db.messages.rows ∧ _ ↔ _
  have hsame (hin : message ∈ db.messages.rows) : message.id = stored.id ↔ message = stored := by
    constructor
    · exact db.messages.eq_of_key_eq hin hmem
    · rintro rfl
      rfl
  constructor
  · rintro ⟨hin, hgroup | hrow | ⟨hid, hbcc⟩⟩
    · exact Or.inl ⟨hin, Or.inl hgroup⟩
    · exact Or.inl ⟨hin, Or.inr hrow⟩
    · exact Or.inr ⟨(hsame hin).mp hid, hbcc⟩
  · rintro (⟨hin, hgroup | hrow⟩ | ⟨rfl, hbcc⟩)
    · exact ⟨hin, Or.inl hgroup⟩
    · exact ⟨hin, Or.inr (Or.inl hrow)⟩
    · exact ⟨hmem, Or.inr (Or.inr ⟨rfl, hbcc⟩)⟩

/-- The messages once one is stored are those that were there and that one. -/
theorem IncomingMail.rows_stored (mail : IncomingMail) (groupId : Nat) :
    (db.messages.insert (mail.row groupId) fun _ => rfl).rows =
      db.messages.rows ++ [mail.row groupId db.messages.next] :=
  Serial.rows_insert ..

theorem IncomingMail.get_stored (mail : IncomingMail) (groupId id : Nat) :
    (db.messages.insert (mail.row groupId) fun _ => rfl).get id =
      if id = db.messages.next then some (mail.row groupId db.messages.next)
      else db.messages.get id :=
  Serial.get_insert ..

/-- A message whose Message-Id is new is read by the users its envelope names. -/
theorem IncomingMail.canRead_fresh (mail : IncomingMail) (h : Received db) {groupId : Nat}
    {group : MessagingGroup} (hgroup : db.groups.get groupId = some group)
    (hmembers : ∀ userId, userId ∈ group.sortedUserIds ↔ userId ∈ mail.groupUserIds)
    (hstored : mail.stored db = none) :
    Received (mail.write groupId db) ∧ ∃ fresh : Message, fresh.contents = mail.contents ∧
      ∀ userId message, CanRead (mail.write groupId db) userId message ↔
        CanRead db userId message ∨ message = fresh ∧ userId ∈ mail.recipients.map (·.1) := by
  let fresh := mail.row groupId db.messages.next
  let inserted : Mailbox :=
    { db with messages := db.messages.insert (mail.row groupId) fun _ => rfl }
  have hwrite : mail.write groupId db = mail.addRecipients db.messages.next inserted := by
    unfold write store
    rw [hstored]
  have hrows : ∀ message, message ∈ (mail.write groupId db).messages.rows ↔
      message ∈ db.messages.rows ∨ message = fresh := by
    intro message
    rw [hwrite]
    change message ∈ (db.messages.insert (mail.row groupId) fun _ => rfl).rows ↔ _
    rw [mail.rows_stored, List.mem_append, List.mem_singleton]
  have hreceived : Received (mail.write groupId db) := by
    constructor
    · intro message hmem
      have hgroups : (mail.write groupId db).groups = db.groups := by rw [hwrite]; rfl
      rw [hgroups]
      rcases (hrows message).mp hmem with hold | rfl
      · exact h.grouped message hold
      · exact Option.isSome_iff_exists.mpr ⟨group, hgroup⟩
    · intro message hmem
      rcases (hrows message).mp hmem with hold | rfl
      · exact h.foreign message hold
      · rfl
    · intro id userId hrow
      rw [hwrite] at hrow ⊢
      change ((db.messages.insert (mail.row groupId) fun _ => rfl).get id).isSome
      rw [mail.get_stored]
      rcases (mail.addRecipients_iff db.messages.next id).mp hrow with hold | ⟨rfl, _⟩
      · split
        · rfl
        · exact h.backed id userId hold
      · rw [if_pos rfl]
        rfl
  refine ⟨hreceived, fresh, rfl, fun userId message => ?_⟩
  have hgroups : (mail.write groupId db).groups = db.groups := by rw [hwrite]; rfl
  rw [hreceived.canRead_iff, h.canRead_iff, hrows, hgroups, hwrite, addRecipients_iff]
  change _ ∧ ((∃ group, _) ∨ (db.recipients.get _).isSome ∨ _) ↔ _
  have hnext : ∀ message ∈ db.messages.rows, message.id ≠ db.messages.next := fun message hmem =>
    (db.messages.below message hmem).ne
  have hnone : (db.recipients.get (db.messages.next, userId)).isSome = false := by
    rw [Bool.eq_false_iff]
    intro hrow
    have hbacked := h.backed _ _ hrow
    rw [Serial.get_next] at hbacked
    cases hbacked
  constructor
  · rintro ⟨hold | rfl, hreads⟩
    · rcases hreads with hmember | hrow | ⟨hid, _⟩
      · exact Or.inl ⟨hold, Or.inl hmember⟩
      · exact Or.inl ⟨hold, Or.inr hrow⟩
      · exact absurd hid (hnext message hold)
    · refine Or.inr ⟨rfl, mail.mem_recipients_iff.mpr ?_⟩
      rcases hreads with ⟨found, hfound, hmember⟩ | hrow | ⟨_, hbcc⟩
      · obtain rfl := Option.some.inj (hgroup.symm.trans hfound)
        exact Or.inl ((hmembers userId).mp hmember)
      · change (db.recipients.get (db.messages.next, userId)).isSome = true at hrow
        rw [hnone] at hrow
        cases hrow
      · exact Or.inr hbcc
  · rintro (⟨hold, hreads⟩ | ⟨rfl, hmem⟩)
    · exact ⟨Or.inl hold, hreads.imp_right Or.inl⟩
    · refine ⟨Or.inr rfl, ?_⟩
      rcases mail.mem_recipients_iff.mp hmem with hmember | hbcc
      · exact Or.inl ⟨group, hgroup, (hmembers userId).mpr hmember⟩
      · exact Or.inr (Or.inr ⟨rfl, hbcc⟩)

end

/-- Storing a group does not change which message has a Message-Id. -/
theorem IncomingMail.stored_extends (mail : IncomingMail) {db db' : Mailbox}
    (h : Extends db db') : mail.stored db' = mail.stored db := by
  unfold stored
  rw [h.messages]

section

variable {crates : MailCrates} {inbox : Inbox} {delivery : Delivery}

/-- A delivery that is not accepted leaves the messages as they are. -/
theorem receive_of_not_accepted (inbox : Inbox) (h : ∀ mail, ¬ (incomingMail crates delivery = .ok mail ∧
    delivery.receivingEnabled = true ∧ delivery.putObject = true)) :
    ∃ db, inbox.receive crates delivery = ⟨db, inbox.accepted⟩ ∧ Extends inbox.db db := by
  unfold Inbox.receive createEmailMessage
  cases hmail : incomingMail crates delivery with
  | error status =>
    refine ⟨inbox.db, ?_, .refl _⟩
    dsimp only
    split <;> rfl
  | ok mail =>
    by_cases hreceiving : delivery.receivingEnabled = true
    · have hput : delivery.putObject = false := by
        rw [Bool.eq_false_iff]
        exact fun hput => h mail ⟨hmail, hreceiving, hput⟩
      refine ⟨_, ?_, (findOrCreate_spec mail.groupUserIds inbox.db).1⟩
      simp [hreceiving, hput]
    · refine ⟨inbox.db, ?_, .refl _⟩
      simp [hreceiving]

theorem receive_of_accepted {mail : IncomingMail} (hmail : incomingMail crates delivery = .ok mail)
    (hreceiving : delivery.receivingEnabled = true) (hput : delivery.putObject = true) :
    inbox.receive crates delivery =
      ⟨mail.write (findOrCreateMessagingGroup mail.groupUserIds inbox.db).1
        (findOrCreateMessagingGroup mail.groupUserIds inbox.db).2,
        inbox.accepted ++ [mail.accepted]⟩ := by
  simp [Inbox.receive, createEmailMessage, hmail, hreceiving, hput]

/-- What a delivery does: it leaves the messages as they are, or its message is stored for the
users its envelope names, or the message that has its Message-Id gets its blind copy recipients. -/
theorem receive_cases (crates : MailCrates) (delivery : Delivery) (h : Received inbox.db) :
    ((∀ mail, ¬ (incomingMail crates delivery = .ok mail ∧ delivery.receivingEnabled = true ∧
        delivery.putObject = true)) ∧
      (inbox.receive crates delivery).accepted = inbox.accepted ∧
      Extends inbox.db (inbox.receive crates delivery).db) ∨
    ∃ mail, (incomingMail crates delivery = .ok mail ∧ delivery.receivingEnabled = true ∧
        delivery.putObject = true) ∧
      (inbox.receive crates delivery).accepted = inbox.accepted ++ [mail.accepted] ∧
      Received (inbox.receive crates delivery).db ∧
      ((mail.stored inbox.db = none ∧ ∃ fresh : Message, fresh.contents = mail.contents ∧
          ∀ userId message, CanRead (inbox.receive crates delivery).db userId message ↔
            CanRead inbox.db userId message ∨
              message = fresh ∧ userId ∈ mail.recipients.map (·.1)) ∨
        ∃ stored, mail.stored inbox.db = some stored ∧
          ∀ userId message, CanRead (inbox.receive crates delivery).db userId message ↔
            CanRead inbox.db userId message ∨
              message = stored ∧ (userId, .bcc) ∈ mail.recipients) := by
  by_cases haccepted : ∃ mail, incomingMail crates delivery = .ok mail ∧
      delivery.receivingEnabled = true ∧ delivery.putObject = true
  · obtain ⟨mail, hmail, hreceiving, hput⟩ := haccepted
    refine Or.inr ⟨mail, ⟨hmail, hreceiving, hput⟩, ?_⟩
    rw [receive_of_accepted hmail hreceiving hput]
    obtain ⟨hextends, group, hgroup, hmembers⟩ := findOrCreate_spec mail.groupUserIds inbox.db
    have hgrouped := h.extends hextends
    have hsame := mail.stored_extends hextends
    refine ⟨rfl, ?_⟩
    cases hstored : mail.stored inbox.db with
    | none =>
      obtain ⟨hreceived, fresh, hfresh, hread⟩ :=
        mail.canRead_fresh hgrouped hgroup hmembers (hsame.trans hstored)
      refine ⟨hreceived, Or.inl ⟨rfl, fresh, hfresh, fun userId message => ?_⟩⟩
      rw [hread, h.canRead_extends hextends]
    | some stored =>
      obtain ⟨hreceived, hread⟩ := mail.canRead_duplicate hgrouped (hsame.trans hstored)
      refine ⟨hreceived, Or.inr ⟨stored, rfl, fun userId message => ?_⟩⟩
      rw [hread, h.canRead_extends hextends]
  · have hnot : ∀ mail, ¬ (incomingMail crates delivery = .ok mail ∧
        delivery.receivingEnabled = true ∧ delivery.putObject = true) :=
      fun mail hmail => haccepted ⟨mail, hmail⟩
    obtain ⟨db, hreceive, hextends⟩ := receive_of_not_accepted inbox hnot
    rw [hreceive]
    exact Or.inl ⟨hnot, rfl, hextends⟩

theorem Received.receive (crates : MailCrates) (delivery : Delivery) (h : Received inbox.db) :
    Received (inbox.receive crates delivery).db := by
  rcases receive_cases crates delivery h with ⟨_, _, hextends⟩ | ⟨_, _, _, hreceived, _⟩
  · exact h.extends hextends
  · exact hreceived

/-- What it takes that a message some users get to read is read by its recipients. -/
theorem readByRecipients_iff {after : Inbox} {mail : Accepted} {message : Message}
    {gains : Nat → Prop} (hlaw : ReadByRecipients inbox)
    (haccepted : after.accepted = inbox.accepted ++ [mail])
    (hread : ∀ userId other, CanRead after.db userId other ↔
      CanRead inbox.db userId other ∨ other = message ∧ gains userId) :
    ReadByRecipients after ↔
      (∀ userId ∈ mail.recipients,
        (∃ other, CanRead inbox.db userId other ∧ other.contents = mail.contents) ∨
          gains userId ∧ message.contents = mail.contents) ∧
      ∀ userId, gains userId → (userId ∈ mail.recipients ∧ message.contents = mail.contents) ∨
        ∃ earlier ∈ inbox.accepted, userId ∈ earlier.recipients ∧
          earlier.contents = message.contents := by
  constructor
  · rintro ⟨hreached, hconfined⟩
    rw [haccepted] at hreached hconfined
    refine ⟨fun userId hmem => ?_, fun userId hgains => ?_⟩
    · obtain ⟨other, hcan, hcontents⟩ := hreached mail (by simp) userId hmem
      rcases (hread userId other).mp hcan with hold | ⟨rfl, hgains⟩
      · exact Or.inl ⟨other, hold, hcontents⟩
      · exact Or.inr ⟨hgains, hcontents⟩
    · obtain ⟨earlier, hearlier, hmem, hcontents⟩ :=
        hconfined message userId ((hread userId message).mpr (Or.inr ⟨rfl, hgains⟩))
      rcases List.mem_append.mp hearlier with hold | hnew
      · exact Or.inr ⟨earlier, hold, hmem, hcontents⟩
      · obtain rfl := List.mem_singleton.mp hnew
        exact Or.inl ⟨hmem, hcontents.symm⟩
  · rintro ⟨hreached, hconfined⟩
    constructor
    · rw [haccepted]
      intro earlier hearlier userId hmem
      rcases List.mem_append.mp hearlier with hold | hnew
      · obtain ⟨other, hcan, hcontents⟩ := hlaw.reached earlier hold userId hmem
        exact ⟨other, (hread userId other).mpr (Or.inl hcan), hcontents⟩
      · obtain rfl := List.mem_singleton.mp hnew
        rcases hreached userId hmem with ⟨other, hcan, hcontents⟩ | ⟨hgains, hcontents⟩
        · exact ⟨other, (hread userId other).mpr (Or.inl hcan), hcontents⟩
        · exact ⟨message, (hread userId message).mpr (Or.inr ⟨rfl, hgains⟩), hcontents⟩
    · rw [haccepted]
      intro other userId hcan
      rcases (hread userId other).mp hcan with hold | ⟨rfl, hgains⟩
      · obtain ⟨earlier, hearlier, hfound⟩ := hlaw.confined other userId hold
        exact ⟨earlier, List.mem_append_left _ hearlier, hfound⟩
      · rcases hconfined userId hgains with ⟨hmem, hcontents⟩ | ⟨earlier, hearlier, hfound⟩
        · exact ⟨mail, by simp, hmem, hcontents.symm⟩
        · exact ⟨earlier, List.mem_append_left _ hearlier, hfound⟩

/-- A delivery leaves the messages read by their recipients exactly if it is not at odds with a
message that has its Message-Id. -/
theorem receive_iff (crates : MailCrates) (delivery : Delivery) (h : Received inbox.db)
    (hlaw : ReadByRecipients inbox) :
    ReadByRecipients (inbox.receive crates delivery) ↔ MeetsStored crates inbox delivery := by
  rcases receive_cases crates delivery h with ⟨hnot, haccepted, hextends⟩ |
    ⟨mail, ⟨hmail, hreceiving, hput⟩, haccepted, _, hstores⟩
  · refine iff_of_true ⟨?_, ?_⟩ fun mail hmail hreceiving hput =>
      absurd ⟨hmail, hreceiving, hput⟩ (hnot mail)
    · rw [haccepted]
      intro earlier hearlier userId hmem
      obtain ⟨message, hcan, hcontents⟩ := hlaw.reached earlier hearlier userId hmem
      exact ⟨message, (h.canRead_extends hextends).mpr hcan, hcontents⟩
    · rw [haccepted]
      exact fun message userId hcan =>
        hlaw.confined message userId ((h.canRead_extends hextends).mp hcan)
  have honly (other : IncomingMail) (hother : incomingMail crates delivery = .ok other) :
      other = mail := Except.ok.inj (hother.symm.trans hmail)
  rcases hstores with ⟨hnone, fresh, hfresh, hread⟩ | ⟨stored, hstored, hread⟩
  · rw [readByRecipients_iff hlaw haccepted hread]
    refine iff_of_true ⟨?_, ?_⟩ ?_
    · exact fun userId hmem => Or.inr ⟨hmem, hfresh⟩
    · exact fun userId hmem => Or.inl ⟨hmem, hfresh⟩
    · intro other hother _ _ stored hstored
      rw [honly other hother, hnone] at hstored
      cases hstored
  · rw [readByRecipients_iff hlaw haccepted hread]
    constructor
    · rintro ⟨hreached, hconfined⟩ other hother _ _ found hfound
      obtain rfl := honly other hother
      obtain rfl := Option.some.inj (hstored.symm.trans hfound)
      exact ⟨hreached, fun userId hbcc => (hconfined userId hbcc).imp_left And.right⟩
    · intro hmeets
      obtain ⟨hreached, hconfined⟩ := hmeets mail hmail hreceiving hput stored hstored
      refine ⟨hreached, fun userId hbcc => (hconfined userId hbcc).imp_left fun hcontents => ?_⟩
      exact ⟨mail.mem_recipients_iff.mpr (Or.inr hbcc), hcontents⟩

end

def Inbox.empty : Inbox := ⟨.empty, []⟩

theorem Inbox.empty_received : Received Inbox.empty.db := by
  constructor
  · intro message hmem
    cases hmem
  · intro message hmem
    cases hmem
  · intro id userId hrow
    cases hrow

theorem Inbox.empty_readByRecipients : ReadByRecipients Inbox.empty := by
  constructor
  · intro mail hmem
    cases hmem
  · rintro message userId ⟨hmem, _⟩
    cases hmem

/-- Emails are read by exactly the users their envelopes name, throughout any run of the hook,
exactly if none is at odds with a stored message that has its Message-Id. -/
theorem readByRecipients_throughout_iff (crates : MailCrates) (deliveries : List Delivery) :
    Throughout (Inbox.receive crates) ReadByRecipients .empty deliveries ↔
      Along (Inbox.receive crates) (MeetsStored crates) .empty deliveries :=
  throughout_iff_along (I := fun inbox => Received inbox.db)
    (fun _ delivery h => h.receive crates delivery)
    (fun _ delivery h hlaw => receive_iff crates delivery h hlaw)
    Inbox.empty_received Inbox.empty_readByRecipients deliveries

/-- A parser that reads two messages with one Message-Id. -/
def twoMessages : MailCrates where
  parse raw :=
    if raw = "Message-Id: <m1@example.com>\r\n\r\nhello" then
      some { messageId := some "m1@example.com", bodyText := some "hello" }
    else if raw = "Message-Id: <m1@example.com>\r\n\r\nbye" then
      some { messageId := some "m1@example.com", bodyText := some "bye" }
    else none
  contains addresses address := addresses.any fun addr => addr.address = some address

def delivered (contents address objectId : String) : Delivery where
  payload := some ⟨[address], [("Message-Id", "<m1@example.com>")], contents⟩
  users name := if name = "alice" then some 1 else if name = "bob" then some 2 else none
  generatedId := "0"
  objectId := objectId

/-- Whoever is sent a second message under a Message-Id reads the first one instead. -/
theorem other_message_read : ¬ ∀ (crates : MailCrates) (deliveries : List Delivery),
    Throughout (Inbox.receive crates) ReadByRecipients .empty deliveries := by
  intro h
  have hthroughout := h twoMessages
    [delivered "hello" "alice@rellm.example" "1", delivered "bye" "bob@rellm.example" "2"]
  have hlast := hthroughout.2.2
  have haccepted : (Inbox.receive twoMessages (Inbox.receive twoMessages .empty
      (delivered "hello" "alice@rellm.example" "1"))
      (delivered "bye" "bob@rellm.example" "2")).accepted =
      [⟨(none, some "hello"), [1]⟩, ⟨(none, some "bye"), [2]⟩] := by
    decide +kernel
  have hread : getByMessageId (Inbox.receive twoMessages (Inbox.receive twoMessages .empty
      (delivered "hello" "alice@rellm.example" "1"))
      (delivered "bye" "bob@rellm.example" "2")).db 2 (some 1) false =
      .ok (⟨1, none, none, some "hello", some { messageId := some "m1@example.com" },
        some "m1@example.com", some "email/1.eml", 1⟩, ⟨1, []⟩) := by
    decide +kernel
  have hmem : (⟨1, none, none, some "hello", some { messageId := some "m1@example.com" },
      some "m1@example.com", some "email/1.eml", 1⟩ : Message) ∈
      (Inbox.receive twoMessages (Inbox.receive twoMessages .empty
        (delivered "hello" "alice@rellm.example" "1"))
        (delivered "bye" "bob@rellm.example" "2")).db.messages.rows := by
    decide +kernel
  obtain ⟨mail, hmail, huser, hcontents⟩ := hlast.confined _ 2 ⟨hmem, _, hread⟩
  rw [haccepted] at hmail
  rcases List.mem_cons.mp hmail with rfl | hmail
  · cases huser with
    | tail _ hrest => cases hrest
  · obtain rfl := List.mem_singleton.mp hmail
    exact absurd hcontents (by decide)

end Rellm.Messages
