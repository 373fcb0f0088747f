import Rellm.Events.Slots

/-!
# The occasions of an event after an edit

An edit goes through the entries of its request. An entry that names an occasion of the event is
about that occasion, each other is for a new one, under the id that its post gets. The pass that
writes occasions looks the ids up once more, among which are now those that were just given out.
-/

namespace Rellm.Events

open Foundation Content Calendar Posts

/-- An entry of a request with the id of the occasion that it is about, or that is created for it. -/
structure Assigned where
  entry : OccasionRequest
  id : Nat
  isNew : Bool

/-- The entries of a request with their ids: an occasion of the event, or else the next new post. -/
def assign (on : Nat → Bool) (next : Nat) : List OccasionRequest → List Assigned
  | [] => []
  | entry :: rest =>
    match entry.named.filter on with
    | some id => ⟨entry, id, false⟩ :: assign on next rest
    | none => ⟨entry, next, true⟩ :: assign (fun id => on id || decide (id = next)) (next + 1) rest

/-- Whether the next entry is come to: a new occasion needs its media. -/
def Assigned.proceeds (assigned : Assigned) : Bool :=
  !assigned.isNew || (occasionMedia assigned.entry).toBool

/-- All new occasions that are come to have their times, in order. -/
def NewInOrder (assigned : List Assigned) : Prop :=
  ∀ a ∈ assigned.takeWhile Assigned.proceeds, a.isNew = true → a.entry.inOrder = true

instance (assigned : List Assigned) : Decidable (NewInOrder assigned) :=
  inferInstanceAs (Decidable (∀ a ∈ assigned.takeWhile Assigned.proceeds,
    a.isNew = true → a.entry.inOrder = true))

/-- No entry names the post of a new occasion. -/
def NamesNoNew (assigned : List Assigned) : Prop :=
  ∀ a ∈ assigned, a.isNew = true → ∀ other ∈ assigned, other.entry.named ≠ some a.id

instance (assigned : List Assigned) : Decidable (NamesNoNew assigned) :=
  inferInstanceAs (Decidable (∀ a ∈ assigned, a.isNew = true →
    ∀ other ∈ assigned, other.entry.named ≠ some a.id))

/-- The first entry that names an occasion of the event and is not in order. -/
def firstRefused (on : Nat → Bool) (entries : List OccasionRequest) : Option OccasionRequest :=
  (entries.filter fun entry => (entry.named.filter on).isSome).find? fun entry => !entry.inOrder

/-- The first entry that names an occasion and is not in order has no timestamp before the epoch. -/
def WrittenFromEpoch (on : Nat → Bool) (entries : List OccasionRequest) : Prop :=
  ∀ entry ∈ firstRefused on entries, entry.aborts = false

instance (on : Nat → Bool) (entries : List OccasionRequest) :
    Decidable (WrittenFromEpoch on entries) :=
  inferInstanceAs (Decidable (∀ entry ∈ firstRefused on entries, entry.aborts = false))

section

variable {on : Nat → Bool} {next : Nat} {entries : List OccasionRequest}

theorem entry_assign : (assign on next entries).map (·.entry) = entries := by
  induction entries generalizing on next with
  | nil => rfl
  | cons entry rest ih =>
    rw [assign]
    split <;> rw [List.map_cons, ih]

/-- An id that is given out is no earlier than the next. -/
theorem le_id_of_isNew {a : Assigned} (h : a ∈ assign on next entries) (hnew : a.isNew = true) :
    next ≤ a.id := by
  induction entries generalizing on next with
  | nil => cases h
  | cons entry rest ih =>
    rw [assign] at h
    split at h
    · rcases List.mem_cons.mp h with rfl | h
      · cases hnew
      · exact ih h
    · rcases List.mem_cons.mp h with rfl | h
      · exact Nat.le_refl next
      · exact Nat.le_of_succ_le (ih h)

variable (on next entries) in
/-- No two entries are given one id. -/
theorem pairwise_assign : (assign on next entries).Pairwise fun a b =>
    a.isNew = true → b.isNew = true → a.id ≠ b.id := by
  induction entries generalizing on next with
  | nil => exact .nil
  | cons entry rest ih =>
    rw [assign]
    split
    · exact .cons (fun _ _ hnew => nomatch hnew) (ih _ _)
    · refine .cons (fun b hb _ hnew => ?_) (ih _ _)
      exact Nat.ne_of_lt (le_id_of_isNew hb hnew)

/-- An entry that is for no new occasion names one of the event, or one that is new itself. -/
theorem named_of_not_isNew {a : Assigned} (h : a ∈ assign on next entries)
    (hnew : a.isNew = false) :
    a.entry.named = some a.id ∧
      (on a.id = true ∨ ∃ b ∈ assign on next entries, b.isNew = true ∧ b.id = a.id) := by
  induction entries generalizing on next with
  | nil => cases h
  | cons entry rest ih =>
    rw [assign] at h ⊢
    split at h
    · rename_i id hid
      rcases List.mem_cons.mp h with rfl | h
      · obtain ⟨hnamed, hon⟩ := Option.filter_eq_some_iff.mp hid
        exact ⟨hnamed, .inl hon⟩
      · obtain ⟨hnamed, hon | ⟨b, hb, hnew⟩⟩ := ih h
        · exact ⟨hnamed, .inl hon⟩
        · exact ⟨hnamed, .inr ⟨b, List.mem_cons_of_mem _ hb, hnew⟩⟩
    · rcases List.mem_cons.mp h with rfl | h
      · cases hnew
      · obtain ⟨hnamed, hon | ⟨b, hb, hnew⟩⟩ := ih h
        · refine ⟨hnamed, ?_⟩
          rw [Bool.or_eq_true, decide_eq_true_eq] at hon
          refine hon.imp_right fun hid => ⟨_, List.mem_cons_self, rfl, hid.symm⟩
        · exact ⟨hnamed, .inr ⟨b, List.mem_cons_of_mem _ hb, hnew⟩⟩

/-- An entry that is for a new occasion names none of the event. -/
theorem filter_named_of_isNew {a : Assigned} (h : a ∈ assign on next entries)
    (hnew : a.isNew = true) : a.entry.named.filter on = none := by
  induction entries generalizing on next with
  | nil => cases h
  | cons entry rest ih =>
    rw [assign] at h
    split at h
    · rcases List.mem_cons.mp h with rfl | h
      · cases hnew
      · exact ih h
    · rename_i hnone
      rcases List.mem_cons.mp h with rfl | h
      · exact hnone
      · have hlater := ih h
        rw [Option.filter_eq_none_iff] at hlater ⊢
        intro id hid hon
        exact hlater id hid (by rw [hon, Bool.true_or])

end

/-! ### New occasions -/

section

variable {db db' : ContentDb} {user : Content.User} {event : Event} {now : Instant}
variable {entry : OccasionRequest} {entries resolved : List OccasionRequest}

/-- An entry that names an occasion of the event stays as it is; for another one an occasion is
created. -/
theorem resolveOccasion_eq_ok {after : OccasionRequest}
    (h : resolveOccasion user event now entry db = .ok after db') :
    match entry.named.filter (isOn event.postId db) with
    | some id => after.named = some id ∧ db' = db
    | none => after.named = some db.posts.next ∧ db'.posts.next = db.posts.next + 1 ∧
        (∃ media, occasionMedia entry = .ok media) ∧
        ∃ startsAt endsAt, entry.times = some (startsAt, endsAt) ∧
          Wrote db db.posts.next ⟨event.postId, startsAt, endsAt⟩ db' := by
  unfold resolveOccasion at h
  rw [get_bind] at h
  cases hexisting : findExistingOccasion entry event.postId db with
  | some existing =>
    rw [hexisting] at h
    cases h
    rw [filter_named_eq_some hexisting]
    exact ⟨(findExistingOccasion_eq_some.mp hexisting).1, rfl⟩
  | none =>
    rw [hexisting, if_neg (by simp)] at h
    obtain ⟨postId, s, hcreated, h⟩ := bind_eq_ok.mp h
    cases h
    rw [filter_named_eq_none hexisting]
    obtain ⟨rfl, hnext, hmedia, hwrote⟩ := createOccasion_eq_ok hcreated
    exact ⟨rfl, hnext, hmedia, hwrote⟩

theorem resolveOccasion_eq_error {e : Failure}
    (h : resolveOccasion user event now entry db = .error e db') :
    entry.named.filter (isOn event.postId db) = none ∧ (∀ id, slotOf db' id = slotOf db id) ∧
      (Posted db → Posted db') ∧
      (e = .panic → (occasionMedia entry).toBool = true ∧ entry.times = none) := by
  unfold resolveOccasion at h
  rw [get_bind] at h
  cases hexisting : findExistingOccasion entry event.postId db with
  | some existing =>
    rw [hexisting] at h
    cases h
  | none =>
    rw [hexisting, if_neg (by simp)] at h
    refine ⟨filter_named_eq_none hexisting, ?_⟩
    cases hcreated : createOccasion user event entry now db with
    | ok postId s =>
      rw [bind_of_ok hcreated] at h
      cases h
    | error e' s =>
      rw [bind_of_error hcreated] at h
      cases h
      exact createOccasion_eq_error hcreated

/-- The occasions of the new entries are created, and nothing else changes. -/
structure CreatedAll (eventId : Nat) (assigned : List Assigned) (db db' : ContentDb) : Prop where
  new : ∀ a ∈ assigned, a.isNew = true → ∃ startsAt endsAt,
    a.entry.times = some (startsAt, endsAt) ∧ slotOf db' a.id = some ⟨eventId, startsAt, endsAt⟩
  old : ∀ id, (∀ a ∈ assigned, a.isNew = true → a.id ≠ id) → slotOf db' id = slotOf db id

theorem createdAll_of_mapM (h : entries.mapM (resolveOccasion user event now) db =
      .ok resolved db') :
    resolved.map (·.named) =
        (assign (isOn event.postId db) db.posts.next entries).map (fun a => some a.id) ∧
      CreatedAll event.postId (assign (isOn event.postId db) db.posts.next entries) db db' := by
  induction entries generalizing db resolved with
  | nil =>
    rw [List.mapM_nil] at h
    cases h
    exact ⟨rfl, fun a ha => absurd ha List.not_mem_nil, fun _ _ => rfl⟩
  | cons entry rest ih =>
    rw [List.mapM_cons] at h
    obtain ⟨after, s, hafter, h⟩ := bind_eq_ok.mp h
    obtain ⟨others, s', hothers, h⟩ := bind_eq_ok.mp h
    cases h
    have hfirst := resolveOccasion_eq_ok hafter
    obtain ⟨hnamed, hnew, hold⟩ := ih hothers
    rw [assign]
    split at hfirst
    · obtain ⟨hentry, rfl⟩ := hfirst
      refine ⟨by rw [List.map_cons, List.map_cons, hentry, hnamed], ?_, ?_⟩
      · intro a ha hisNew
        rcases List.mem_cons.mp ha with rfl | ha
        · cases hisNew
        · exact hnew a ha hisNew
      · exact fun other hother => hold other fun a ha => hother a (List.mem_cons_of_mem _ ha)
    · obtain ⟨hentry, hnext, -, startsAt, endsAt, htimes, hwrote⟩ := hfirst
      have hisOn := hwrote.isOn
      rw [hisOn, hnext] at hnamed hnew hold
      refine ⟨by rw [List.map_cons, List.map_cons, hentry, hnamed], ?_, ?_⟩
      · intro a ha hisNew
        rcases List.mem_cons.mp ha with rfl | ha
        · refine ⟨startsAt, endsAt, htimes, ?_⟩
          rw [hold db.posts.next fun b hb hb' => Nat.ne_of_gt (le_id_of_isNew hb hb'), hwrote.slots,
            if_pos rfl]
        · exact hnew a ha hisNew
      · intro other hother
        rw [hold other fun a ha => hother a (List.mem_cons_of_mem _ ha), hwrote.slots, if_neg]
        exact fun heq => hother _ List.mem_cons_self rfl heq.symm

variable (user now) in
/-- New occasions that are in order are created without a panic, up to the first that is refused. -/
theorem createAll_safe (hposted : Posted db) (hordered : Ordered db)
    (hinOrder : NewInOrder (assign (isOn event.postId db) db.posts.next entries)) :
    Avoids .panic (entries.mapM (resolveOccasion user event now)) db ∧
      Posted (finalState (entries.mapM (resolveOccasion user event now) db)) ∧
      Ordered (finalState (entries.mapM (resolveOccasion user event now) db)) := by
  induction entries generalizing db with
  | nil =>
    rw [List.mapM_nil]
    exact ⟨.pure _, hposted, hordered⟩
  | cons entry rest ih =>
    rw [List.mapM_cons]
    cases hfirst : resolveOccasion user event now entry db with
    | error e s =>
      obtain ⟨hnone, hslots, hkept, hpanic⟩ := resolveOccasion_eq_error hfirst
      rw [bind_of_error hfirst, finalState_error]
      refine ⟨?_, hkept hposted, ?_⟩
      · intro s' hfail
        rw [bind_of_error hfirst] at hfail
        cases hfail
        obtain ⟨hmedia, htimes⟩ := hpanic rfl
        rw [assign, hnone] at hinOrder
        have hhead := hinOrder _ (by
          rw [List.takeWhile_cons_of_pos (by simp [Assigned.proceeds, hmedia])]
          exact List.mem_cons_self) rfl
        simp [OccasionRequest.inOrder, htimes] at hhead
      · rw [ordered_iff] at hordered ⊢
        intro id slot hslot
        rw [hslots] at hslot
        exact hordered id slot hslot
    | ok after s =>
      have hspec := resolveOccasion_eq_ok hfirst
      have hrest : Posted s ∧ Ordered s ∧
          NewInOrder (assign (isOn event.postId s) s.posts.next rest) := by
        rw [assign] at hinOrder
        split at hspec
        · rename_i id hid
          obtain ⟨-, rfl⟩ := hspec
          rw [hid] at hinOrder
          refine ⟨hposted, hordered, fun a ha => hinOrder a ?_⟩
          rw [List.takeWhile_cons_of_pos rfl]
          exact List.mem_cons_of_mem _ ha
        · rename_i hnone
          obtain ⟨-, hnext, ⟨media, hmedia⟩, startsAt, endsAt, htimes, hwrote⟩ := hspec
          have hisOn := hwrote.isOn
          rw [hnone] at hinOrder
          have hproceeds : Assigned.proceeds ⟨entry, db.posts.next, true⟩ = true := by
            simp [Assigned.proceeds, hmedia, Except.toBool]
          dsimp only [NewInOrder] at hinOrder
          rw [List.takeWhile_cons_of_pos hproceeds] at hinOrder
          have hhead := hinOrder _ List.mem_cons_self rfl
          obtain ⟨startsAt', endsAt', htimes', hle⟩ := inOrder_iff.mp hhead
          rw [htimes] at htimes'
          cases htimes'
          rw [hisOn, hnext]
          exact ⟨hwrote.posted hposted, hwrote.ordered hle hordered,
            fun a ha => hinOrder a (List.mem_cons_of_mem _ ha)⟩
      obtain ⟨hsafe, hpostedAll, horderedAll⟩ := ih hrest.1 hrest.2.1 hrest.2.2
      rw [bind_of_ok hfirst, finalState_bind_pure]
      exact ⟨.bind_of_ok hfirst (hsafe.bind fun _ _ _ => .pure _), hpostedAll, horderedAll⟩

/-! ### Occasions that are written -/

/-- Writing over an occasion of the event leaves which occasions it has. -/
theorem isOn_of_wrote {id : Nat} {slot : Slot} (h : Wrote db id slot db')
    (hon : isOn slot.eventId db id = true) : isOn slot.eventId db' = isOn slot.eventId db := by
  rw [h.isOn]
  funext other
  by_cases hother : other = id
  · rw [hother, hon, Bool.true_or]
  · rw [decide_eq_false hother, Bool.or_false]

/-- An occasion that an entry names is as the last entry says that names it; the others stay. -/
structure UpdatedAll (eventId : Nat) (on : Nat → Bool) (entries : List OccasionRequest)
    (db db' : ContentDb) : Prop where
  last : ∀ earlier entry later id, entries = earlier ++ entry :: later →
    entry.named.filter on = some id → (∀ other ∈ later, other.named ≠ some id) →
    ∃ startsAt endsAt, entry.times = some (startsAt, endsAt) ∧
      slotOf db' id = some ⟨eventId, startsAt, endsAt⟩
  old : ∀ id, (∀ entry ∈ entries, entry.named.filter on ≠ some id) → slotOf db' id = slotOf db id

theorem updatedAll_of_forM {u : PUnit}
    (h : updateOccasionsImpl event entries now db = .ok u db') :
    UpdatedAll event.postId (isOn event.postId db) entries db db' := by
  unfold updateOccasionsImpl at h
  induction entries generalizing db with
  | nil =>
    cases h
    exact ⟨fun earlier entry later id hsplit => by simp at hsplit, fun _ _ => rfl⟩
  | cons entry rest ih =>
    rw [List.forM] at h
    obtain ⟨_, s, hfirst, hrest⟩ := bind_eq_ok.mp h
    have hspec := updateOccasion_eq_ok hfirst
    obtain ⟨hlast, hold⟩ := ih hrest
    split at hspec
    · rename_i hnone
      subst hspec
      refine ⟨?_, fun id hid => hold id fun other hother => hid other (List.mem_cons_of_mem _ hother)⟩
      intro earlier other later id hsplit hnamed hlater
      cases earlier with
      | nil =>
        cases hsplit
        rw [hnone] at hnamed
        cases hnamed
      | cons first earlier =>
        cases hsplit
        exact hlast earlier other later id rfl hnamed hlater
    · rename_i written hwritten
      obtain ⟨startsAt, endsAt, htimes, -, hwrote⟩ := hspec
      have hon := isOn_of_wrote hwrote (Option.filter_eq_some_iff.mp hwritten).2
      rw [hon] at hlast hold
      constructor
      · intro earlier other later id hsplit hnamed hlater
        cases earlier with
        | nil =>
          cases hsplit
          rw [hwritten] at hnamed
          cases hnamed
          refine ⟨startsAt, endsAt, htimes, ?_⟩
          rw [hold written fun later hmem hfilter =>
              hlater later hmem (Option.filter_eq_some_iff.mp hfilter).1,
            hwrote.slots, if_pos rfl]
        | cons first earlier =>
          cases hsplit
          exact hlast earlier other later id rfl hnamed hlater
      · intro id hid
        rw [hold id fun other hother => hid other (List.mem_cons_of_mem _ hother), hwrote.slots,
          if_neg]
        rintro rfl
        exact hid entry List.mem_cons_self hwritten

variable (now) in
/-- Occasions are written without a panic where no timestamp is before the epoch. -/
theorem updateAll_safe (hposted : Posted db) (hordered : Ordered db)
    (hepoch : WrittenFromEpoch (isOn event.postId db) entries) :
    Avoids .panic (updateOccasionsImpl event entries now) db ∧
      Posted (finalState (updateOccasionsImpl event entries now db)) ∧
      Ordered (finalState (updateOccasionsImpl event entries now db)) := by
  unfold updateOccasionsImpl
  induction entries generalizing db with
  | nil => exact ⟨.pure _, hposted, hordered⟩
  | cons entry rest ih =>
    rw [List.forM]
    cases hfirst : updateOccasion event now entry db with
    | error e s =>
      obtain ⟨rfl, hon, hinOrder, hpanic⟩ := updateOccasion_eq_error hfirst
      rw [bind_of_error hfirst, finalState_error]
      refine ⟨?_, hposted, hordered⟩
      intro s' hfail
      rw [bind_of_error hfirst] at hfail
      cases hfail
      have haborts := hepoch entry (by
        rw [firstRefused, List.filter_cons, if_pos hon,
          List.find?_cons_of_pos (by simp [hinOrder hposted])]
        rfl)
      rw [hpanic rfl] at haborts
      cases haborts
    | ok u s =>
      have hspec := updateOccasion_eq_ok hfirst
      have hrest : Posted s ∧ Ordered s ∧ WrittenFromEpoch (isOn event.postId s) rest := by
        split at hspec
        · rename_i hnone
          subst hspec
          refine ⟨hposted, hordered, fun other hother => hepoch other ?_⟩
          rwa [firstRefused, List.filter_cons_of_neg (by simp [hnone])]
        · rename_i written hwritten
          obtain ⟨startsAt, endsAt, htimes, hle, hwrote⟩ := hspec
          have hon := isOn_of_wrote hwrote (Option.filter_eq_some_iff.mp hwritten).2
          refine ⟨hwrote.posted hposted, hwrote.ordered hle hordered, ?_⟩
          rw [hon]
          intro other hother
          have hinOrder := inOrder_iff.mpr ⟨startsAt, endsAt, htimes, hle⟩
          refine hepoch other ?_
          rwa [firstRefused, List.filter_cons_of_pos (by simp [hwritten]),
            List.find?_cons_of_neg (by simp [hinOrder])]
      obtain ⟨hsafe, hpostedAll, horderedAll⟩ := ih hrest.1 hrest.2.1 hrest.2.2
      rw [bind_of_ok hfirst]
      exact ⟨.bind_of_ok hfirst hsafe, hpostedAll, horderedAll⟩

end

end Rellm.Events
