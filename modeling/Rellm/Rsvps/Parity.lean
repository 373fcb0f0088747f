import Rellm.Rsvps.Visible

/-!
# GetEvents and GetRsvps agree

What is attached to an occasion are the RSVPs that rank first of those `GetRsvps` returns,
and the totals of all of them. The location may differ: `GetRsvps` looks for an approved
RSVP of the viewer among all RSVPs, `GetEvents` among those it attaches.
-/

namespace Rellm.Rsvps

open Foundation Content

/-- Whether a reply shows the viewer's own RSVP. -/
def RsvpReply.isViewersOwn (user : Option Content.User) (tokens : List String)
    (reply : RsvpReply) : Bool :=
  match reply.attendee with
  | .user userId => user.map (·.id) = some userId
  | .anonymous _ authToken => authToken.any fun token => decide (token ∈ tokens)

/-- What is attached to an occasion agrees with the RSVPs of the occasion. -/
structure RsvpsAgree (user : Option Content.User) (tokens : List String)
    (viaEvents : OccasionReply) (viaRsvps : RsvpsReply) : Prop where
  counts : viaEvents.rsvps.counts = viaRsvps.counts
  attached : viaEvents.rsvps.rsvps ⊆ viaRsvps.rsvps
  marshaled : ∀ reply ∈ viaEvents.rsvps.rsvps, ∀ reply' ∈ viaRsvps.rsvps, reply.id = reply'.id →
    reply = reply'
  all : viaRsvps.rsvps.length ≤ 100 → viaEvents.rsvps.rsvps.Perm viaRsvps.rsvps
  atMost : 100 < viaRsvps.rsvps.length → viaEvents.rsvps.rsvps.length = 100
  own : viaEvents.rsvps.rsvps.countP (RsvpReply.isViewersOwn user tokens) =
    min 100 (viaRsvps.rsvps.countP (RsvpReply.isViewersOwn user tokens))
  location : viaEvents.location = viaRsvps.hiddenLocation
  hiddenLocation : viaEvents.rsvps.hiddenLocation = viaRsvps.hiddenLocation

section

variable (user : Option Content.User) (tokens : List String)

theorem ranksBefore_trans (row row' row'' : Rsvp) (h : ranksBefore user tokens row row' = true)
    (h' : ranksBefore user tokens row' row'' = true) :
    ranksBefore user tokens row row'' = true := by
  simp only [ranksBefore, Bool.or_eq_true, Bool.and_eq_true, decide_eq_true_eq] at h h' ⊢
  omega

theorem ranksBefore_total (row row' : Rsvp) :
    (ranksBefore user tokens row row' || ranksBefore user tokens row' row) = true := by
  simp only [ranksBefore, Bool.or_eq_true, Bool.and_eq_true, decide_eq_true_eq]
  omega

theorem id_eq_of_ranksBefore {row row' : Rsvp} (h : ranksBefore user tokens row row' = true)
    (h' : ranksBefore user tokens row' row = true) : row.id = row'.id := by
  simp only [ranksBefore, Bool.or_eq_true, Bool.and_eq_true, decide_eq_true_eq] at h h'
  omega

/-- What ranks before an RSVP of the viewer is one of the viewer. -/
theorem own_of_ranksBefore {row row' : Rsvp} (h : ranksBefore user tokens row row' = true)
    (hown : row'.isViewersOwn user tokens = true) : row.isViewersOwn user tokens = true := by
  by_contra hother
  have hrank : rank user tokens row' < 8 := by
    simp only [rank, hown, if_true]
    split <;> cases row'.status <;> simp [statusRank]
  have hrank' : 8 ≤ rank user tokens row := by
    simp only [rank, hother, if_false]
    omega
  simp only [ranksBefore, Bool.or_eq_true, Bool.and_eq_true, decide_eq_true_eq] at h
  omega

/-- A reply shows an RSVP of the viewer exactly if the RSVP is one. -/
theorem isViewersOwn_forViewer (isOwner : Bool) (row : Rsvp) :
    (row.forViewer isOwner user tokens).isViewersOwn user tokens =
      row.isViewersOwn user tokens := by
  unfold Rsvp.forViewer Rsvp.toProto RsvpReply.isViewersOwn
  cases hattendee : row.attendee with
  | user userId => simp [Rsvp.isViewersOwn, hattendee]
  | anonymous name contactMethods authToken =>
    by_cases htoken : authToken ∈ tokens <;> cases isOwner <;>
      simp [Rsvp.isViewersOwn, hattendee, htoken]

end

section

variable {content : ContentDb} (user : Option Content.User) (tokens : List String)
variable (rsvps : RsvpTable) {occasionIds : List Nat} {target : OccasionContext}

/-- An occasion is found under its id. -/
theorem postId_of_occasionContext {occasionId : Nat}
    (h : content.occasionContext occasionId = some target) :
    target.occasion.postId = occasionId := by
  simp only [ContentDb.occasionContext, Option.bind_eq_bind, Option.bind_eq_some_iff] at h
  obtain ⟨occasion, hoccasion, event, _, eventPost, _, h⟩ := h
  rw [← Option.some.inj h]
  exact Table.key_of_get hoccasion

/-- Of the occasions that are returned, the viewer owns an event exactly if the id says so. -/
theorem mem_ownedOccasionIds (h : target ∈ occasionIds.filterMap content.occasionContext) :
    target.occasion.postId ∈
        ownedOccasionIds user (occasionIds.filterMap content.occasionContext) ↔
      isEventOwner user target = true := by
  simp only [ownedOccasionIds, List.mem_map, List.mem_filter]
  constructor
  · rintro ⟨other, ⟨hother, howner⟩, heq⟩
    obtain ⟨id, _, hid⟩ := List.mem_filterMap.mp h
    obtain ⟨id', _, hid'⟩ := List.mem_filterMap.mp hother
    rw [postId_of_occasionContext hid, postId_of_occasionContext hid'] at heq
    rw [heq, hid] at hid'
    rwa [Option.some.inj hid']
  · intro howner
    exact ⟨target, ⟨h, howner⟩, rfl⟩

/-- The two queries see the same RSVPs of an occasion. -/
theorem visibleWhere_of_occasion (h : target ∈ occasionIds.filterMap content.occasionContext) :
    (visibleWhere ((occasionIds.filterMap content.occasionContext).map (·.occasion.postId))
        (ownedOccasionIds user (occasionIds.filterMap content.occasionContext)) user tokens
        rsvps).filter (fun row => row.occasionId = target.occasion.postId) =
      visibleRsvps (isEventOwner user target) user tokens rsvps target.occasion.postId := by
  unfold visibleWhere visibleRsvps
  rw [List.filter_filter]
  apply List.filter_congr
  intro row _
  by_cases hoccasion : row.occasionId = target.occasion.postId
  · have hmem : target.occasion.postId ∈
        (occasionIds.filterMap content.occasionContext).map (·.occasion.postId) :=
      List.mem_map_of_mem h
    have howned : decide (target.occasion.postId ∈
        ownedOccasionIds user (occasionIds.filterMap content.occasionContext)) =
        isEventOwner user target := by
      rw [Bool.eq_iff_iff, decide_eq_true_eq]
      exact mem_ownedOccasionIds user h
    simp only [hoccasion, hmem, howned, decide_true, Bool.true_and]
  · simp only [hoccasion, decide_false, Bool.false_and]

/-- What is loaded of an occasion are the RSVPs that rank first of those the viewer may see. -/
theorem loaded_perm {visible : List Rsvp} (hsub : visible.Sublist rsvps.rows) (occasionId : Nat) :
    ((rsvpsById rsvps (rankedIds user tokens visible)).filter
        fun row => row.occasionId = occasionId).Perm
      (capped (ranksBefore user tokens) maxRsvpsPerOccasion
        (visible.filter fun row => row.occasionId = occasionId)) := by
  have hdistinct : rsvps.rows.Nodup := List.Nodup.of_map _ rsvps.nodup
  rw [List.perm_ext_iff_of_nodup]
  · intro row
    simp only [rsvpsById, List.mem_filter, List.mem_mergeSort, decide_eq_true_eq]
    simp only [rankedIds, List.mem_flatMap, List.mem_map, List.mem_dedup]
    constructor
    · rintro ⟨⟨hrow, _, ⟨other, _, rfl⟩, row', hrow', hid⟩, rfl⟩
      have hvisible := List.mem_filter.mp (mem_of_mem_capped hrow')
      have heq := rsvps.eq_of_key_eq (hsub.subset hvisible.1) hrow hid
      have hoccasion := of_decide_eq_true hvisible.2
      rw [heq] at hrow' hoccasion
      rwa [hoccasion]
    · intro hrow
      have hvisible := List.mem_filter.mp (mem_of_mem_capped hrow)
      exact ⟨⟨hsub.subset hvisible.1, occasionId,
        ⟨row, hvisible.1, of_decide_eq_true hvisible.2⟩, row, hrow, rfl⟩,
        of_decide_eq_true hvisible.2⟩
  · apply List.Nodup.filter
    exact (List.mergeSort_perm _ _).nodup_iff.mpr (hdistinct.filter _)
  · apply List.Nodup.sublist (List.take_sublist _ _)
    exact (List.mergeSort_perm _ _).nodup_iff.mpr ((hdistinct.sublist hsub).filter _)

end

section

variable (counts : RsvpCounts)

theorem RsvpTotals.add_comm (totals : RsvpTotals)
    (rsvpCount rsvpCount' attendees attendees' : UInt32) :
    (totals.add rsvpCount attendees).add rsvpCount' attendees' =
      (totals.add rsvpCount' attendees').add rsvpCount attendees := by
  simp only [RsvpTotals.add, UInt32.add_assoc, UInt32.add_comm rsvpCount',
    UInt32.add_comm attendees']

/-- The order in which RSVPs are counted does not matter. -/
theorem RsvpCounts.add_comm (status status' : RsvpStatus) (moderation moderation' : Moderation)
    (rsvpCount rsvpCount' attendees attendees' : UInt32) :
    (counts.add status moderation rsvpCount attendees).add status' moderation' rsvpCount'
        attendees' =
      (counts.add status' moderation' rsvpCount' attendees').add status moderation rsvpCount
        attendees := by
  unfold RsvpCounts.add
  cases bucket status moderation with
  | none => rfl
  | some first =>
    cases bucket status' moderation' with
    | none => rfl
    | some second =>
      cases first <;> cases second <;>
        simp only [RsvpCounts.bump, RsvpTotals.add_comm]

/-- RSVPs of a status and moderation are counted one by one or together. -/
theorem RsvpCounts.add_add (status : RsvpStatus) (moderation : Moderation)
    (rsvpCount rsvpCount' attendees attendees' : Nat) :
    (counts.add status moderation (UInt32.ofNat rsvpCount) (UInt32.ofNat attendees)).add status
        moderation (UInt32.ofNat rsvpCount') (UInt32.ofNat attendees') =
      counts.add status moderation (UInt32.ofNat (rsvpCount + rsvpCount'))
        (UInt32.ofNat (attendees + attendees')) := by
  unfold RsvpCounts.add
  cases bucket status moderation with
  | none => rfl
  | some bucket =>
    cases bucket <;> simp [RsvpCounts.bump, RsvpTotals.add, UInt32.add_assoc]

end

/-- The totals of the groups of an occasion are those of its RSVPs. -/
theorem countsByOccasion_eq (visible : List Rsvp) (occasionId : Nat) :
    countsByOccasion visible occasionId =
      RsvpCounts.ofRows (visible.filter fun row => row.occasionId = occasionId) := by
  unfold countsByOccasion RsvpCounts.ofRows
  rw [List.foldl_filter, foldl_grouped (f := fun (counts : RsvpCounts)
      (key : Nat × RsvpStatus × Moderation) (weight : Nat × Nat) =>
      if key.1 = occasionId then
        counts.add key.2.1 key.2.2 (UInt32.ofNat weight.1) (UInt32.ofNat weight.2)
      else counts)]
  · apply List.foldl_ext
    intro counts row _
    by_cases hoccasion : row.occasionId = occasionId <;> simp [hoccasion]
  · intro counts key weight key' weight'
    by_cases hkey : key.1 = occasionId <;> by_cases hkey' : key'.1 = occasionId <;>
      simp [hkey, hkey', RsvpCounts.add_comm]
  · intro counts key weight weight'
    by_cases hkey : key.1 = occasionId <;> simp [hkey, RsvpCounts.add_add]

/-- The viewer's own RSVPs to an occasion. -/
def ownRsvps (user : Option Content.User) (tokens : List String) (rsvps : RsvpTable)
    (occasionId : Nat) : List Rsvp :=
  rsvps.rows.filter fun row => row.occasionId = occasionId && row.isViewersOwn user tokens

/-- If the viewer has an approved RSVP, one ranks among the first hundred of the viewer's own. -/
def ApprovalAttached (user : Option Content.User) (tokens : List String) (rsvps : RsvpTable)
    (occasionId : Nat) : Prop :=
  ∀ row ∈ ownRsvps user tokens rsvps occasionId, row.moderation = .approved →
    ∃ row' ∈ ownRsvps user tokens rsvps occasionId, row'.moderation = .approved ∧
      (ownRsvps user tokens rsvps occasionId).countP (fun other =>
        ranksBefore user tokens other row' && decide (other ≠ row')) < maxRsvpsPerOccasion

/-- The approval of the viewer decides about the location: the event has one and hides it from a
viewer who does not own it. -/
def ApprovalDecides (user : Option Content.User) (target : OccasionContext) : Prop :=
  isEventOwner user target = false ∧ hidesLocation target.event = true ∧
    target.occasion.location.isSome

section

variable {user : Option Content.User} {tokens : List String} {rsvps : RsvpTable}
variable {isOwner : Bool} {occasionId : Nat}

/-- The viewer may see their own RSVPs. -/
theorem filter_visibleRsvps (isOwner : Bool) :
    (visibleRsvps isOwner user tokens rsvps occasionId).filter (Rsvp.isViewersOwn user tokens) =
      ownRsvps user tokens rsvps occasionId := by
  unfold visibleRsvps ownRsvps
  rw [List.filter_filter]
  apply List.filter_congr
  intro row _
  by_cases hown : row.isViewersOwn user tokens = true <;> simp [hown]

theorem anyApproved_eq_true {rows : List Rsvp} :
    anyApproved user tokens rows = true ↔
      ∃ row ∈ rows, row.moderation = .approved ∧ row.isViewersOwn user tokens = true := by
  simp [anyApproved]

/-- Among all RSVPs, an approved one of the viewer is found if there is one. -/
theorem anyApproved_visibleRsvps :
    anyApproved user tokens (visibleRsvps isOwner user tokens rsvps occasionId) = true ↔
      ∃ row ∈ ownRsvps user tokens rsvps occasionId, row.moderation = .approved := by
  simp only [anyApproved_eq_true, ← filter_visibleRsvps isOwner, List.mem_filter]
  constructor
  · rintro ⟨row, hrow, happroved, hown⟩
    exact ⟨row, ⟨hrow, hown⟩, happroved⟩
  · rintro ⟨row, ⟨hrow, hown⟩, happroved⟩
    exact ⟨row, hrow, happroved, hown⟩

/-- An RSVP of the viewer is attached exactly if less than a hundred of their own rank before. -/
theorem mem_capped_visibleRsvps {row : Rsvp}
    (h : row ∈ ownRsvps user tokens rsvps occasionId) :
    row ∈ capped (ranksBefore user tokens) maxRsvpsPerOccasion
        (visibleRsvps isOwner user tokens rsvps occasionId) ↔
      (ownRsvps user tokens rsvps occasionId).countP (fun other =>
        ranksBefore user tokens other row && decide (other ≠ row)) < maxRsvpsPerOccasion := by
  rw [← filter_visibleRsvps isOwner, List.mem_filter] at h
  have hnodup : (visibleRsvps isOwner user tokens rsvps occasionId).Nodup :=
    (List.Nodup.of_map _ rsvps.nodup).filter _
  rw [mem_capped_iff (ranksBefore_trans user tokens) (ranksBefore_total user tokens) _ hnodup h.1,
    ← filter_visibleRsvps isOwner, List.countP_filter]
  · have hsame : (visibleRsvps isOwner user tokens rsvps occasionId).countP (fun other =>
        ranksBefore user tokens other row && decide (other ≠ row)) =
        (visibleRsvps isOwner user tokens rsvps occasionId).countP (fun other =>
          (ranksBefore user tokens other row && decide (other ≠ row)) &&
            other.isViewersOwn user tokens) := by
      apply List.countP_congr
      intro other _
      by_cases hrank : ranksBefore user tokens other row = true
      · simp [own_of_ranksBefore user tokens hrank h.2]
      · simp [hrank]
    rw [hsame]
  · intro a ha b hb hab hba
    exact rsvps.eq_of_key_eq (List.mem_filter.mp ha).1 (List.mem_filter.mp hb).1
      (id_eq_of_ranksBefore user tokens hab hba)

/-- Among the attached RSVPs, an approved one of the viewer is found if it ranks first. -/
theorem anyApproved_capped :
    anyApproved user tokens (capped (ranksBefore user tokens) maxRsvpsPerOccasion
        (visibleRsvps isOwner user tokens rsvps occasionId)) = true ↔
      ∃ row ∈ ownRsvps user tokens rsvps occasionId, row.moderation = .approved ∧
        (ownRsvps user tokens rsvps occasionId).countP (fun other =>
          ranksBefore user tokens other row && decide (other ≠ row)) < maxRsvpsPerOccasion := by
  rw [anyApproved_eq_true]
  constructor
  · rintro ⟨row, hrow, happroved, hown⟩
    have hmem : row ∈ ownRsvps user tokens rsvps occasionId := by
      rw [← filter_visibleRsvps isOwner, List.mem_filter]
      exact ⟨mem_of_mem_capped hrow, hown⟩
    exact ⟨row, hmem, happroved, (mem_capped_visibleRsvps hmem).mp hrow⟩
  · rintro ⟨row, hmem, happroved, hcount⟩
    have hown := hmem
    rw [← filter_visibleRsvps isOwner, List.mem_filter] at hown
    exact ⟨row, (mem_capped_visibleRsvps hmem).mpr hcount, happroved, hown.2⟩

/-- An approval reveals the location; if only one of two sides sees it, they agree where it does not
decide. -/
theorem location_eq_iff {hides approved approved' : Bool} {location : Option Content.Location}
    (h : approved = true → approved' = true) :
    (if (isOwner || approved || !hides) = true then location else none) =
        (if (isOwner || approved' || !hides) = true then location else none) ↔
      (isOwner = false ∧ hides = true ∧ location.isSome → approved' = true → approved = true) := by
  cases isOwner <;> cases hides <;> cases location <;> cases approved <;> cases approved' <;>
    simp_all

/-- What `GetRsvps` replies with. -/
theorem getRsvps_eq_ok {content : ContentDb} {target : OccasionContext} {reply : RsvpsReply}
    (htarget : content.occasionContext occasionId = some target)
    (h : getRsvps content (some occasionId) tokens user rsvps = .ok reply) :
    reply = rsvpsOf occasionId tokens user rsvps target := by
  simp only [getRsvps, checks_eq_ok, okOr_eq_ok, pure_eq_ok, Option.some.injEq] at h
  obtain ⟨_, rfl, other, hother, _, _, h⟩ := h
  rw [htarget] at hother
  cases hother
  exact h.symm

/-- What is attached to an occasion: of the RSVPs the viewer may see, those that rank first. -/
theorem attached_eq {content : ContentDb} {occasionIds : List Nat} {viaEvents : OccasionReply}
    (h : viaEvents ∈ attachOccasionRsvps content occasionIds tokens user rsvps) :
    ∃ target rows, content.occasionContext viaEvents.occasionId = some target ∧
      rows.Perm (capped (ranksBefore user tokens) maxRsvpsPerOccasion (visibleRsvps
        (isEventOwner user target) user tokens rsvps viaEvents.occasionId)) ∧
      viaEvents = attachTo tokens user rows (RsvpCounts.ofRows (visibleRsvps
        (isEventOwner user target) user tokens rsvps viaEvents.occasionId)) target := by
  obtain ⟨target, htarget, rfl⟩ := List.mem_map.mp h
  obtain ⟨occasionId, _, hoccasion⟩ := List.mem_filterMap.mp htarget
  have hid := postId_of_occasionContext hoccasion
  have hvisible := visibleWhere_of_occasion user tokens rsvps htarget
  have hsub : (visibleWhere ((occasionIds.filterMap content.occasionContext).map
      (·.occasion.postId)) (ownedOccasionIds user
        (occasionIds.filterMap content.occasionContext)) user tokens rsvps).Sublist rsvps.rows :=
    List.filter_sublist
  have hperm := loaded_perm user tokens rsvps hsub target.occasion.postId
  rw [hvisible] at hperm
  refine ⟨target, _, ?_, hperm, ?_⟩
  · change content.occasionContext target.occasion.postId = some target
    rw [hid, hoccasion]
  · rw [countsByOccasion_eq, hvisible]
    rfl

/-- Something is attached to each occasion that is returned. -/
theorem exists_attached {content : ContentDb} {occasionIds : List Nat} {target : OccasionContext}
    (user : Option Content.User) (tokens : List String) (rsvps : RsvpTable)
    (h : target ∈ occasionIds.filterMap content.occasionContext) :
    ∃ viaEvents ∈ attachOccasionRsvps content occasionIds tokens user rsvps,
      viaEvents.occasionId = target.occasion.postId :=
  ⟨_, List.mem_map_of_mem h, rfl⟩

/-- The RSVPs that are attached are found approved as those that rank first are. -/
theorem anyApproved_perm {rows rows' : List Rsvp} (h : rows.Perm rows') :
    anyApproved user tokens rows = anyApproved user tokens rows' := by
  rw [Bool.eq_iff_iff, anyApproved_eq_true, anyApproved_eq_true]
  simp only [h.mem_iff]

/-- `GetEvents` and `GetRsvps` agree on the location of an occasion unless the viewer's approval
decides about it, and is not attached. -/
theorem locations_agree_iff {target : OccasionContext} {rows : List Rsvp} (counts : RsvpCounts)
    (h : rows.Perm (capped (ranksBefore user tokens) maxRsvpsPerOccasion
      (visibleRsvps (isEventOwner user target) user tokens rsvps occasionId))) :
    (attachTo tokens user rows counts target).location =
        (rsvpsOf occasionId tokens user rsvps target).hiddenLocation ↔
      (ApprovalDecides user target → ApprovalAttached user tokens rsvps occasionId) := by
  simp only [attachTo, rsvpsOf, anyApproved_perm h]
  rw [location_eq_iff]
  · simp only [ApprovalDecides, ApprovalAttached, anyApproved_visibleRsvps, anyApproved_capped]
    apply imp_congr_right
    intro _
    constructor
    · intro hfound row hrow happroved
      exact hfound ⟨row, hrow, happroved⟩
    · rintro hfound ⟨row, hrow, happroved⟩
      exact hfound row hrow happroved
  · rw [anyApproved_capped, anyApproved_visibleRsvps]
    rintro ⟨row, hrow, happroved, _⟩
    exact ⟨row, hrow, happroved⟩

/-- Whatever the location, `GetEvents` attaches what `GetRsvps` returns, up to the cap. -/
theorem rsvpsAgree_of_location {target : OccasionContext} {rows : List Rsvp}
    (h : rows.Perm (capped (ranksBefore user tokens) maxRsvpsPerOccasion
      (visibleRsvps (isEventOwner user target) user tokens rsvps occasionId)))
    (hlocation : (attachTo tokens user rows (RsvpCounts.ofRows (visibleRsvps
      (isEventOwner user target) user tokens rsvps occasionId)) target).location =
        (rsvpsOf occasionId tokens user rsvps target).hiddenLocation) :
    RsvpsAgree user tokens (attachTo tokens user rows (RsvpCounts.ofRows (visibleRsvps
      (isEventOwner user target) user tokens rsvps occasionId)) target)
      (rsvpsOf occasionId tokens user rsvps target) where
  counts := rfl
  attached := by
    apply List.map_subset
    intro row hrow
    exact mem_of_mem_capped (h.subset hrow)
  marshaled := by
    intro reply hreply reply' hreply' hid
    obtain ⟨row, hrow, rfl⟩ := List.mem_map.mp hreply
    obtain ⟨row', hrow', rfl⟩ := List.mem_map.mp hreply'
    have hmem := (List.mem_filter.mp (mem_of_mem_capped (h.subset hrow))).1
    rw [rsvps.eq_of_key_eq hmem (List.mem_filter.mp hrow').1 hid]
  all := by
    intro hlength
    rw [rsvpsOf, List.length_map] at hlength
    exact (h.trans (capped_perm hlength)).map _
  atMost := by
    intro hlength
    rw [rsvpsOf, List.length_map] at hlength
    rw [attachTo, List.length_map, h.length_eq, length_capped]
    exact Nat.min_eq_left (Nat.le_of_lt hlength)
  own := by
    have hreply : RsvpReply.isViewersOwn user tokens ∘
        Rsvp.forViewer (isEventOwner user target) user tokens = Rsvp.isViewersOwn user tokens := by
      funext row
      exact isViewersOwn_forViewer user tokens (isEventOwner user target) row
    rw [attachTo, rsvpsOf, List.countP_map, List.countP_map, hreply, h.countP_eq]
    apply countP_capped (ranksBefore_trans user tokens) (ranksBefore_total user tokens)
    intro row row'
    exact own_of_ranksBefore user tokens
  location := hlocation
  hiddenLocation := hlocation

end

section

variable {content : ContentDb} {user : Option Content.User} {tokens : List String}
variable {rsvps : RsvpTable} {occasionIds : List Nat} {viaEvents : OccasionReply}
variable {viaRsvps : RsvpsReply} {target : OccasionContext}

/-- `GetEvents` and `GetRsvps` agree on the location of an occasion exactly if an approved RSVP of
the viewer, where it decides, ranks among the first hundred of their own. -/
theorem location_agrees_iff
    (hevents : viaEvents ∈ attachOccasionRsvps content occasionIds tokens user rsvps)
    (hrsvps : getRsvps content (some viaEvents.occasionId) tokens user rsvps = .ok viaRsvps)
    (htarget : content.occasionContext viaEvents.occasionId = some target) :
    viaEvents.location = viaRsvps.hiddenLocation ↔
      (ApprovalDecides user target →
        ApprovalAttached user tokens rsvps viaEvents.occasionId) := by
  obtain ⟨other, rows, hother, hperm, hattached⟩ := attached_eq hevents
  rw [htarget] at hother
  cases hother
  rw [getRsvps_eq_ok htarget hrsvps, ← locations_agree_iff (RsvpCounts.ofRows (visibleRsvps
    (isEventOwner user target) user tokens rsvps viaEvents.occasionId)) hperm, ← hattached]

end

/-- The party as an occasion of its event. -/
def partyTarget : OccasionContext := ⟨⟨1, some partyInfo⟩, partyPost 1 .event, partyOccasion⟩

/-- An anonymous RSVP to the party, with a token of its own. -/
def anonymousRsvp (moderation : Moderation) (n : Nat) : Rsvp where
  id := n
  occasionId := 2
  attendee := .anonymous "Guest" [] (toString n)
  numberOfGuests := .one
  status := .going
  invitingUserId := none
  publicNote := ""
  privateNote := ""
  moderation := moderation

/-- The first anonymous RSVP is approved, the others are pending. -/
def crowdRsvp (n : Nat) : Rsvp := anonymousRsvp (if n = 1 then .approved else .pending) n

/-- Some anonymous RSVPs to the party, of which the first is approved. -/
def crowd (size : Nat) : RsvpTable where
  rows := (List.range' 1 size).map crowdRsvp
  nodup := by
    rw [List.map_map]
    exact List.Nodup.map (fun _ _ h => h) List.nodup_range'
  next := size + 1
  below := by
    intro row hrow
    obtain ⟨n, hn, rfl⟩ := List.mem_map.mp hrow
    have hlt := List.mem_range'_1.mp hn
    change n < size + 1
    omega

/-- The tokens of these RSVPs. -/
def crowdTokens (size : Nat) : List String := (List.range' 1 size).map toString

/-- All these RSVPs are of the viewer who presents the tokens. -/
theorem ownRsvps_crowd (size : Nat) :
    ownRsvps none (crowdTokens size) (crowd size) 2 = (crowd size).rows := by
  apply List.filter_eq_self.mpr
  intro row hrow
  obtain ⟨n, hn, rfl⟩ := List.mem_map.mp hrow
  have htoken : toString n ∈ crowdTokens size := List.mem_map_of_mem hn
  simpa [crowdRsvp, anonymousRsvp, Rsvp.isViewersOwn] using htoken

/-- All the pending ones rank before the approved one. -/
theorem countP_crowd (size : Nat) :
    (crowd (size + 1)).rows.countP (fun other =>
      ranksBefore none (crowdTokens (size + 1)) other (crowdRsvp 1) &&
        decide (other ≠ crowdRsvp 1)) = size := by
  have hown (n : Nat) (hn : n ∈ List.range' 1 (size + 1)) :
      (crowdRsvp n).isViewersOwn none (crowdTokens (size + 1)) = true := by
    have hmem : crowdRsvp n ∈ (crowd (size + 1)).rows := List.mem_map_of_mem hn
    rw [← ownRsvps_crowd, ownRsvps, List.mem_filter, Bool.and_eq_true] at hmem
    exact hmem.2.2
  have hfirst := hown 1 (List.mem_range'_1.mpr ⟨le_refl 1, by omega⟩)
  have hrest : (List.range' 2 size).countP ((fun other =>
      ranksBefore none (crowdTokens (size + 1)) other (crowdRsvp 1) &&
        decide (other ≠ crowdRsvp 1)) ∘ crowdRsvp) = (List.range' 2 size).length := by
    rw [List.countP_eq_length]
    intro n hn
    have hn' := List.mem_range'_1.mp hn
    have hne : n ≠ 1 := by omega
    have hother : crowdRsvp n ≠ crowdRsvp 1 := fun heq => hne (congrArg Rsvp.id heq)
    have hrank : rank none (crowdTokens (size + 1)) (crowdRsvp n) = 0 := by
      rw [rank, if_pos (hown n (List.mem_range'_1.mpr ⟨by omega, by omega⟩))]
      simp [crowdRsvp, anonymousRsvp, hne, statusRank]
    have hrank' : rank none (crowdTokens (size + 1)) (crowdRsvp 1) = 4 := by
      rw [rank, if_pos hfirst]
      simp [crowdRsvp, anonymousRsvp, statusRank]
    simp [ranksBefore, hrank, hrank', hother]
  rw [crowd, List.countP_map, List.range'_succ, List.countP_cons, hrest, List.length_range']
  simp

/-- The approval is not attached where more than a hundred RSVPs are of the same viewer. -/
theorem not_approvalAttached_crowd {size : Nat} (h : maxRsvpsPerOccasion ≤ size) :
    ¬ ApprovalAttached none (crowdTokens (size + 1)) (crowd (size + 1)) 2 := by
  intro hattached
  unfold ApprovalAttached at hattached
  rw [ownRsvps_crowd] at hattached
  have hfirst : crowdRsvp 1 ∈ (crowd (size + 1)).rows :=
    List.mem_map_of_mem (List.mem_range'_1.mpr ⟨le_refl 1, by omega⟩)
  obtain ⟨row, hrow, happroved, hcount⟩ := hattached (crowdRsvp 1) hfirst rfl
  obtain ⟨n, _, rfl⟩ := List.mem_map.mp hrow
  have hn : n = 1 := by
    by_contra hne
    simp [crowdRsvp, anonymousRsvp, hne] at happroved
  rw [hn, countP_crowd] at hcount
  omega

/-- Both calls reply to whoever presents the tokens. -/
theorem crowd_replies (size : Nat) :
    ∃ viaEvents ∈ attachOccasionRsvps party [2] (crowdTokens size) none (crowd size),
      viaEvents.occasionId = 2 ∧
      getRsvps party (some viaEvents.occasionId) (crowdTokens size) none (crowd size) =
        .ok (rsvpsOf 2 (crowdTokens size) none (crowd size) partyTarget) := by
  have htarget : partyTarget ∈ [2].filterMap party.occasionContext :=
    List.mem_filterMap.mpr ⟨2, List.mem_singleton_self 2, rfl⟩
  obtain ⟨viaEvents, hevents, hid⟩ :=
    exists_attached none (crowdTokens size) (crowd size) htarget
  refine ⟨viaEvents, hevents, hid, ?_⟩
  rw [hid]
  rfl

/-- `GetEvents` and `GetRsvps` agree on the RSVPs of an occasion exactly if an approved RSVP of the
viewer, where it decides about the location, ranks among the first hundred of their own. -/
theorem rsvpsAgree_iff {content : ContentDb} {user : Option Content.User} {tokens : List String}
    {rsvps : RsvpTable} {occasionIds : List Nat} {viaEvents : OccasionReply}
    {viaRsvps : RsvpsReply}
    (hevents : viaEvents ∈ attachOccasionRsvps content occasionIds tokens user rsvps)
    (hrsvps : getRsvps content (some viaEvents.occasionId) tokens user rsvps = .ok viaRsvps) :
    RsvpsAgree user tokens viaEvents viaRsvps ↔
      ∀ target, content.occasionContext viaEvents.occasionId = some target →
        ApprovalDecides user target →
        ApprovalAttached user tokens rsvps viaEvents.occasionId := by
  constructor
  · intro h target htarget
    exact (location_agrees_iff hevents hrsvps htarget).mp h.location
  · intro h
    obtain ⟨target, rows, htarget, hperm, hattached⟩ := attached_eq hevents
    have hreply := getRsvps_eq_ok htarget hrsvps
    have hagree := rsvpsAgree_of_location hperm (by
      rw [← hattached, ← hreply]
      exact (location_agrees_iff hevents hrsvps htarget).mpr (h target htarget))
    rwa [← hattached, ← hreply] at hagree

/-- The RSVPs of the party agree for its only attendee, whose approval reveals the location. -/
theorem rsvpsAgree_iff_party :
    ∃ viaEvents viaRsvps,
      viaEvents ∈ attachOccasionRsvps party [2] (crowdTokens 1) none (crowd 1) ∧
      getRsvps party (some viaEvents.occasionId) (crowdTokens 1) none (crowd 1) =
        .ok viaRsvps ∧
      RsvpsAgree none (crowdTokens 1) viaEvents viaRsvps := by
  obtain ⟨viaEvents, hevents, hid, hrsvps⟩ := crowd_replies 1
  refine ⟨viaEvents, _, hevents, hrsvps, (rsvpsAgree_iff hevents hrsvps).mpr ?_⟩
  rw [hid]
  intro target _ _ row hrow happroved
  refine ⟨row, hrow, happroved, ?_⟩
  rw [ownRsvps_crowd] at hrow ⊢
  rw [List.mem_singleton.mp hrow, countP_crowd 0]
  decide

/-- `GetEvents` hides the location from an attendee it is revealed to by `GetRsvps`, whose approved
RSVP ranks after a hundred pending ones of the same viewer. -/
theorem approval_beyond_cap :
    ∃ viaEvents viaRsvps,
      viaEvents ∈ attachOccasionRsvps party [2] (crowdTokens 101) none (crowd 101) ∧
      getRsvps party (some viaEvents.occasionId) (crowdTokens 101) none (crowd 101) =
        .ok viaRsvps ∧
      ¬ RsvpsAgree none (crowdTokens 101) viaEvents viaRsvps := by
  obtain ⟨viaEvents, hevents, hid, hrsvps⟩ := crowd_replies 101
  refine ⟨viaEvents, _, hevents, hrsvps, ?_⟩
  intro hagree
  have hcontext : party.occasionContext viaEvents.occasionId = some partyTarget := by
    rw [hid]
    rfl
  have hattached := (location_agrees_iff hevents hrsvps hcontext).mp hagree.location
    ⟨rfl, rfl, rfl⟩
  rw [hid] at hattached
  exact not_approvalAttached_crowd (le_refl 100) hattached

end Rellm.Rsvps
