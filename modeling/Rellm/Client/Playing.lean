import Rellm.Client.Links
import Rellm.Client.Player
import Rellm.Foundation.Sorting

/-!
# What the messages keep of the player's queue

Each entry is in the queue once, what is current is an entry of the queue, and only that is loaded;
no message but those that replace the queue drops an entry or reorders those it does not move. All
messages keep this but one: when the media viewer is left, the video that it brings back need not be
in the queue any more, and the track that is loaded without one is no longer current.
-/

namespace Rellm.Client.AudioPlayerPanel

open Foundation

/-- What a message moves to another place in the queue, or adds. -/
def moved : Msg → List String
  | .openTracks queue id host | .openAt queue id host _ _ =>
    let items := queue.tracks.map (trackItem host)
    match (items.filter fun item => item.media.id = id).head? with
    | some item => (item :: followingItems items id).map itemKey
    | none => []
  | .openVideo video title _ _ | .openViewerVideo video title _ _ _ | .loadVideo video title =>
    [itemKey (videoItem video title)]
  | .enqueue _ media host => [itemKey (trackItem host media)]
  | .gotPreMovePositions key _ | .drag key _ => [key]
  | _ => []

/-- No entry is dropped, and those that are not moved stay in their order. -/
structure OrderKept (movedKeys : List String) (queue queue' : List QueueItem) : Prop where
  subset : ∀ key ∈ queue.map itemKey, key ∈ queue'.map itemKey
  order : (queue.map itemKey).filter (fun key => key ∉ movedKeys) =
    (queue'.map itemKey).filter fun key => key ∉ movedKeys

/-- Each entry is in the queue once, what is current is one of them, and nothing else plays. -/
structure Lawful (model : Model) : Prop where
  keys_nodup : (model.queue.map itemKey).Nodup
  current : ∀ id, model.currentId = some id →
    (model.queue.filter (isCurrent model)).length = 1
  playing : ∀ source, slotSource model.activeSlot model = some source →
    model.currentId = some source.mediaId ∧ model.targetHost = source.host
  video : currentVideo model ≠ none → model.slotA = none ∧ model.slotB = none

/-- Whether a message replaces the queue. -/
def Msg.replaces : Msg → Bool
  | .load .. | .close => true
  | _ => false

/-- A message keeps the player lawful and the order of the queue. -/
structure Kept (model : Model) (msg : Msg) : Prop where
  lawful : Lawful (update model msg)
  order : msg.replaces = false →
    OrderKept (moved msg) model.queue (update model msg).queue

/-- When the media viewer is left, the video it brings back is still in the queue; if there is none,
no track is loaded. -/
def Meets (model : Model) : Msg → Prop
  | .leaveViewerVideo =>
    match model.videoPrior with
    | some prior => ∃ item ∈ model.queue,
        item.media.id = prior.item.media.id ∧ item.host = prior.item.host
    | none => slotSource model.activeSlot model = none
  | _ => True

theorem itemKey_eq_iff {item item' : QueueItem} :
    itemKey item = itemKey item' ↔ item.host = item'.host ∧ item.media.id = item'.media.id := by
  constructor
  · intro h
    have hkey := congrArg String.toList h
    simp only [itemKey, String.toList_append] at hkey
    have hslash : "/".toList = ['/'] := by decide +kernel
    rw [hslash, List.append_assoc, List.append_assoc] at hkey
    obtain ⟨hname, hid⟩ := split_unique item.host.no_slash item'.host.no_slash hkey
    refine ⟨?_, String.toList_inj.mp hid⟩
    have hname : item.host.name = item'.host.name := String.toList_inj.mp hname
    cases hhost : item.host
    cases hhost' : item'.host
    rw [hhost, hhost'] at hname
    simp only at hname
    subst hname
    rfl
  · rintro ⟨hhost, hid⟩
    rw [itemKey, itemKey, hhost, hid]

theorem isCurrent_iff {model : Model} {item : QueueItem} :
    isCurrent model item = true ↔
      model.currentId = some item.media.id ∧ item.host = model.targetHost := by
  rw [isCurrent, Bool.and_eq_true, decide_eq_true_eq, decide_eq_true_eq, eq_comm]

/-- An entry that stands for a video is on no server and has its source for identifier. -/
def VideoFormed (item : QueueItem) : Prop :=
  ∀ video, item.video = some video → item.host = .none ∧ item.media.id = video.src

/-- The queue by itself: each entry once, and the videos well-formed. -/
structure Queued (queue : List QueueItem) : Prop where
  keys_nodup : (queue.map itemKey).Nodup
  videos : ∀ item ∈ queue, VideoFormed item

theorem Queued.eq_of_key_eq {queue : List QueueItem} (h : Queued queue) {item item' : QueueItem}
    (hitem : item ∈ queue) (hitem' : item' ∈ queue) (hkey : itemKey item = itemKey item') :
    item = item' :=
  List.inj_on_of_nodup_map h.keys_nodup hitem hitem' hkey

/-- What every run keeps: what is loaded or held back is the current entry, which is in the queue;
the other slot is loaded only beside the active one; and nothing is loaded beside a video. -/
structure Inv (model : Model) : Prop where
  queued : Queued model.queue
  current : ∀ id, model.currentId = some id →
    ∃ item ∈ model.queue, isCurrent model item = true
  slots : ∀ slot source, slotSource slot model = some source →
    model.currentId = some source.mediaId ∧ model.targetHost = source.host
  upgrade : ∀ source, model.pendingUpgrade = some source →
    model.currentId = some source.mediaId ∧ model.targetHost = source.host
  active : slotSource model.activeSlot model = none →
    slotSource (otherSlot model.activeSlot) model = none ∧ model.pendingUpgrade = none
  video : ∀ item ∈ model.queue, isCurrent model item = true → item.video ≠ none →
    slotSource model.activeSlot model = none

section

variable {model : Model}

theorem slotSource_eq_none_iff :
    (slotSource model.activeSlot model = none ∧
      slotSource (otherSlot model.activeSlot) model = none) ↔
      model.slotA = none ∧ model.slotB = none := by
  cases hactive : model.activeSlot <;> simp [slotSource, otherSlot, and_comm]

theorem currentItem_eq_some {item : QueueItem} (h : currentItem model = some item) :
    item ∈ model.queue ∧ isCurrent model item = true :=
  List.mem_filter.mp (List.mem_of_head? h)

theorem currentVideo_eq_some {video : VideoItem} (h : currentVideo model = some video) :
    ∃ item ∈ model.queue, isCurrent model item = true ∧ item.video = some video := by
  rw [currentVideo, Option.bind_eq_some_iff] at h
  obtain ⟨item, hitem, hvideo⟩ := h
  obtain ⟨hmem, hcurrent⟩ := currentItem_eq_some hitem
  exact ⟨item, hmem, hcurrent, hvideo⟩

/-- Under the invariant the player is lawful. -/
theorem Inv.lawful (h : Inv model) : Lawful model where
  keys_nodup := h.queued.keys_nodup
  current id hid := by
    obtain ⟨item, hitem, hcurrent⟩ := h.current id hid
    have hall : ∀ other ∈ model.queue.filter (isCurrent model), other = item := by
      intro other hother
      obtain ⟨hother, hcurrent'⟩ := List.mem_filter.mp hother
      refine h.queued.eq_of_key_eq hother hitem (itemKey_eq_iff.mpr ?_)
      rw [isCurrent_iff] at hcurrent hcurrent'
      refine ⟨hcurrent'.2.trans hcurrent.2.symm, ?_⟩
      exact Option.some.inj (hcurrent'.1.symm.trans hcurrent.1)
    have hnodup : (model.queue.filter (isCurrent model)).Nodup :=
      h.queued.keys_nodup.of_map.filter _
    have hmem : item ∈ model.queue.filter (isCurrent model) :=
      List.mem_filter.mpr ⟨hitem, hcurrent⟩
    cases hfilter : model.queue.filter (isCurrent model) with
    | nil =>
      rw [hfilter] at hmem
      exact absurd hmem List.not_mem_nil
    | cons first rest =>
      cases rest with
      | nil => rfl
      | cons second rest =>
        rw [hfilter] at hnodup hall
        have hsame := (hall first List.mem_cons_self).trans
          (hall second (List.mem_cons_of_mem _ List.mem_cons_self)).symm
        exact absurd (hsame ▸ List.mem_cons_self) (List.nodup_cons.mp hnodup).1
  playing source hsource := h.slots _ source hsource
  video hvideo := by
    obtain ⟨video, hvideo⟩ := Option.ne_none_iff_exists'.mp hvideo
    obtain ⟨item, hitem, hcurrent, hsome⟩ := currentVideo_eq_some hvideo
    have hactive := h.video item hitem hcurrent (by simp [hsome])
    exact slotSource_eq_none_iff.mp ⟨hactive, (h.active hactive).1⟩

end

/-- Keeps the first entry of each key. -/
def keepFirst (kept : List QueueItem) (queued : QueueItem) : List QueueItem :=
  if kept.any fun other => itemKey other = itemKey queued then kept else kept ++ [queued]

section

variable {kept items : List QueueItem}

theorem keepFirst_of_mem {queued : QueueItem} (h : itemKey queued ∈ kept.map itemKey) :
    keepFirst kept queued = kept := by
  obtain ⟨other, hother, hkey⟩ := List.mem_map.mp h
  exact if_pos (List.any_eq_true.mpr ⟨other, hother, decide_eq_true hkey⟩)

theorem keepFirst_of_notMem {queued : QueueItem} (h : itemKey queued ∉ kept.map itemKey) :
    keepFirst kept queued = kept ++ [queued] := by
  refine if_neg fun hany => h ?_
  obtain ⟨other, hother, hkey⟩ := List.any_eq_true.mp hany
  exact List.mem_map.mpr ⟨other, hother, of_decide_eq_true hkey⟩

theorem prefix_foldl_keepFirst (kept items : List QueueItem) :
    kept <+: items.foldl keepFirst kept := by
  induction items generalizing kept with
  | nil => exact List.prefix_refl _
  | cons item items ih =>
    refine List.IsPrefix.trans ?_ (ih _)
    by_cases hkey : itemKey item ∈ kept.map itemKey
    · rw [keepFirst_of_mem hkey]
    · rw [keepFirst_of_notMem hkey]
      exact List.prefix_append _ _

theorem nodup_foldl_keepFirst (h : (kept.map itemKey).Nodup) :
    ((items.foldl keepFirst kept).map itemKey).Nodup := by
  induction items generalizing kept with
  | nil => exact h
  | cons item items ih =>
    refine ih ?_
    by_cases hkey : itemKey item ∈ kept.map itemKey
    · rw [keepFirst_of_mem hkey]
      exact h
    · rw [keepFirst_of_notMem hkey, List.map_append]
      exact h.append (List.nodup_singleton _) (List.disjoint_singleton.mpr hkey)

theorem mem_of_mem_foldl_keepFirst {item : QueueItem} (h : item ∈ items.foldl keepFirst kept) :
    item ∈ kept ∨ item ∈ items := by
  induction items generalizing kept with
  | nil => exact Or.inl h
  | cons first items ih =>
    obtain hmem | hmem := ih h
    · by_cases hkey : itemKey first ∈ kept.map itemKey
      · rw [keepFirst_of_mem hkey] at hmem
        exact Or.inl hmem
      · rw [keepFirst_of_notMem hkey, List.mem_append, List.mem_singleton] at hmem
        obtain hmem | rfl := hmem
        · exact Or.inl hmem
        · exact Or.inr List.mem_cons_self
    · exact Or.inr (List.mem_cons_of_mem _ hmem)

theorem mem_keys_foldl_keepFirst {key : String} :
    key ∈ (items.foldl keepFirst kept).map itemKey ↔
      key ∈ kept.map itemKey ∨ key ∈ items.map itemKey := by
  induction items generalizing kept with
  | nil => simp
  | cons item items ih =>
    rw [List.foldl_cons, ih, List.map_cons, List.mem_cons]
    by_cases hkey : itemKey item ∈ kept.map itemKey
    · rw [keepFirst_of_mem hkey]
      constructor
      · exact fun h => h.imp_right Or.inr
      · rintro (h | rfl | h)
        · exact Or.inl h
        · exact Or.inl hkey
        · exact Or.inr h
    · rw [keepFirst_of_notMem hkey, List.map_append, List.mem_append, List.map_singleton,
        List.mem_singleton, or_assoc]

/-- Entries of different keys are kept but for those that are there. -/
theorem foldl_keepFirst_eq (h : (items.map itemKey).Nodup) :
    items.foldl keepFirst kept =
      kept ++ items.filter fun item => itemKey item ∉ kept.map itemKey := by
  induction items generalizing kept with
  | nil => simp
  | cons item items ih =>
    rw [List.map_cons, List.nodup_cons] at h
    rw [List.foldl_cons, ih h.2]
    by_cases hkey : itemKey item ∈ kept.map itemKey
    · rw [keepFirst_of_mem hkey, List.filter_cons_of_neg (by simpa using hkey)]
    · rw [keepFirst_of_notMem hkey, List.filter_cons_of_pos (by simpa using hkey),
        List.append_assoc, List.singleton_append]
      congr 2
      refine List.filter_congr fun other hother => ?_
      have hne : itemKey other ≠ itemKey item := fun heq =>
        h.1 (heq ▸ List.mem_map_of_mem hother)
      simp [hne]

end

/-- What is played now: the entry and what follows it, then the queue without them. -/
theorem playNowQueue_eq {existing : List QueueItem} (h : (existing.map itemKey).Nodup)
    (item : QueueItem) (following : List QueueItem) :
    ∃ front, playNowQueue item following existing =
        front ++ existing.filter (fun queued => itemKey queued ∉ front.map itemKey) ∧
      item ∈ front ∧ (∀ queued ∈ front, queued = item ∨ queued ∈ following) ∧
      (∀ key, key ∈ front.map itemKey ↔ key ∈ (item :: following).map itemKey) ∧
      (front.map itemKey).Nodup := by
  refine ⟨(item :: following).foldl keepFirst [], ?_, ?_, ?_, ?_, ?_⟩
  · have hfold : playNowQueue item following existing =
        (item :: (following ++ existing)).foldl keepFirst [] := rfl
    rw [hfold, ← List.cons_append, List.foldl_append, foldl_keepFirst_eq h]
  · have hfirst : keepFirst [] item = [item] := keepFirst_of_notMem List.not_mem_nil
    rw [List.foldl_cons, hfirst]
    exact (prefix_foldl_keepFirst _ _).subset (List.mem_singleton_self _)
  · intro queued hqueued
    have hmem := (mem_of_mem_foldl_keepFirst hqueued).resolve_left List.not_mem_nil
    exact List.mem_cons.mp hmem
  · intro key
    rw [mem_keys_foldl_keepFirst]
    simp
  · exact nodup_foldl_keepFirst List.nodup_nil

/-- What is played now leaves each entry once, and drops or reorders none but what it plays. -/
theorem Queued.playNowQueue {queue : List QueueItem} (h : Queued queue) {item : QueueItem}
    (following : List QueueItem) (hitem : VideoFormed item)
    (hfollowing : ∀ queued ∈ following, VideoFormed queued) :
    Queued (playNowQueue item following queue) ∧ item ∈ playNowQueue item following queue ∧
      OrderKept ((item :: following).map itemKey) queue (playNowQueue item following queue) := by
  obtain ⟨front, heq, hmem, hfront, hkeys, hnodup⟩ := playNowQueue_eq h.keys_nodup item following
  rw [heq]
  refine ⟨⟨?_, fun queued hqueued => ?_⟩, List.mem_append_left _ hmem, ⟨fun key hkey => ?_, ?_⟩⟩
  · rw [List.map_append]
    refine hnodup.append (h.keys_nodup.sublist (List.filter_sublist.map _)) ?_
    intro key hkey hkey'
    obtain ⟨queued, hqueued, rfl⟩ := List.mem_map.mp hkey'
    exact of_decide_eq_true (List.mem_filter.mp hqueued).2 hkey
  · obtain hqueued | hqueued := List.mem_append.mp hqueued
    · obtain rfl | hqueued := hfront queued hqueued
      · exact hitem
      · exact hfollowing queued hqueued
    · exact h.videos queued (List.mem_filter.mp hqueued).1
  · rw [List.map_append, List.mem_append]
    by_cases hin : key ∈ front.map itemKey
    · exact Or.inl hin
    · obtain ⟨queued, hqueued, rfl⟩ := List.mem_map.mp hkey
      exact Or.inr (List.mem_map_of_mem (List.mem_filter.mpr ⟨hqueued, decide_eq_true hin⟩))
  · have hnone : (front.map itemKey).filter
        (fun key => key ∉ (item :: following).map itemKey) = [] := by
      refine List.filter_eq_nil_iff.mpr fun key hkey hnot => ?_
      exact of_decide_eq_true hnot ((hkeys key).mp hkey)
    rw [List.map_append, List.filter_append, hnone, List.nil_append, List.filter_map,
      List.filter_map, List.filter_filter]
    congr 1
    refine List.filter_congr fun queued _ => ?_
    simp only [Function.comp_apply, hkeys, Bool.and_self]

@[simp] theorem slotSource_setSlot (slot slot' : Slot) (source : Option Source) (model : Model) :
    slotSource slot (setSlot slot' source model) =
      if slot = slot' then source else slotSource slot model := by
  cases slot <;> cases slot' <;> rfl

theorem otherSlot_ne (slot : Slot) : otherSlot slot ≠ slot := by
  cases slot <;> decide

theorem eq_or_eq_otherSlot (slot active : Slot) : slot = active ∨ slot = otherSlot active := by
  cases slot <;> cases active <;> decide

section

variable (slot : Slot) (source : Option Source) (model : Model)

@[simp] theorem setSlot_queue : (setSlot slot source model).queue = model.queue := by
  cases slot <;> rfl

@[simp] theorem setSlot_currentId : (setSlot slot source model).currentId = model.currentId := by
  cases slot <;> rfl

@[simp] theorem setSlot_targetHost :
    (setSlot slot source model).targetHost = model.targetHost := by
  cases slot <;> rfl

@[simp] theorem setSlot_activeSlot :
    (setSlot slot source model).activeSlot = model.activeSlot := by
  cases slot <;> rfl

@[simp] theorem setSlot_pendingUpgrade :
    (setSlot slot source model).pendingUpgrade = model.pendingUpgrade := by
  cases slot <;> rfl

end

section

variable {model : Model} {item : QueueItem}

/-- The video that begins is current and nothing is loaded, if it is in the queue. -/
theorem inv_beginVideo (h : Queued model.queue)
    (hitem : ∃ entry ∈ model.queue, entry.media.id = item.media.id ∧ entry.host = item.host)
    (startAtSeconds : ℚ) (resume : Bool) : Inv (beginVideo item startAtSeconds resume model) where
  queued := h
  current id hid := by
    obtain ⟨entry, hentry, hid', hhost⟩ := hitem
    refine ⟨entry, hentry, isCurrent_iff.mpr ⟨?_, hhost⟩⟩
    exact congrArg some hid'.symm
  slots slot source hsource := by cases slot <;> cases hsource
  upgrade source hsource := by cases hsource
  active _ := by
    refine ⟨?_, rfl⟩
    generalize otherSlot _ = slot
    cases slot <;> rfl
  video entry _ _ _ := by
    generalize (beginVideo item startAtSeconds resume model).activeSlot = slot
    cases slot <;> rfl

/-- What the model is once a track begins. -/
theorem beginTrack_spec (item : QueueItem) (model : Model) :
    (beginTrack item model).queue = model.queue ∧
      (beginTrack item model).currentId = some item.media.id ∧
      (beginTrack item model).targetHost = item.host ∧
      slotSource (beginTrack item model).activeSlot (beginTrack item model) ≠ none ∧
      (∀ slot source, slotSource slot (beginTrack item model) = some source →
        source.mediaId = item.media.id ∧ source.host = item.host) ∧
      ∀ source, (beginTrack item model).pendingUpgrade = some source →
        source.mediaId = item.media.id ∧ source.host = item.host := by
  have hother := (otherSlot_ne model.activeSlot).symm
  simp only [beginTrack, setSlot_queue, setSlot_currentId, setSlot_targetHost, setSlot_activeSlot,
    setSlot_pendingUpgrade, slotSource_setSlot, if_neg hother, if_true]
  refine ⟨trivial, trivial, trivial, by simp, fun slot source hsource => ?_, fun source hsource => ?_⟩
  · obtain rfl | rfl := eq_or_eq_otherSlot slot model.activeSlot
    · rw [if_neg hother, if_pos rfl, Option.some.injEq] at hsource
      rw [← hsource]
      exact ⟨rfl, rfl⟩
    · rw [if_pos rfl] at hsource
      split at hsource
      · split at hsource
        · rw [← Option.some.inj hsource]
          exact ⟨rfl, rfl⟩
        · cases hsource
      · cases hsource
  · split at hsource
    · cases hsource
    · split at hsource
      · rw [← Option.some.inj hsource]
        exact ⟨rfl, rfl⟩
      · cases hsource

/-- The track that begins is current and loaded, if it is in the queue. -/
theorem inv_beginTrack (h : Queued model.queue) (hitem : item ∈ model.queue)
    (htrack : item.video = none) : Inv (beginTrack item model) := by
  obtain ⟨hqueue, hid, hhost, hactive, hslots, hupgrade⟩ := beginTrack_spec item model
  have hcurrent {entry : QueueItem} (hentry : entry ∈ model.queue)
      (hcurrent : isCurrent (beginTrack item model) entry = true) : entry = item := by
    rw [isCurrent_iff, hid, hhost, Option.some.injEq] at hcurrent
    exact h.eq_of_key_eq hentry hitem (itemKey_eq_iff.mpr ⟨hcurrent.2, hcurrent.1.symm⟩)
  refine ⟨hqueue.symm ▸ h, fun id _ => ⟨item, hqueue.symm ▸ hitem, ?_⟩, ?_, ?_, ?_, ?_⟩
  · rw [isCurrent_iff, hid, hhost]
    exact ⟨rfl, rfl⟩
  · intro slot source hsource
    obtain ⟨hsame, hsame'⟩ := hslots slot source hsource
    rw [hid, hhost, hsame, hsame']
    exact ⟨rfl, rfl⟩
  · intro source hsource
    obtain ⟨hsame, hsame'⟩ := hupgrade source hsource
    rw [hid, hhost, hsame, hsame']
    exact ⟨rfl, rfl⟩
  · exact fun hnone => absurd hnone hactive
  · intro entry hentry hcur hvideo
    rw [hqueue] at hentry
    exact absurd (hcurrent hentry hcur ▸ htrack) hvideo

theorem beginTrack_queue (item : QueueItem) (model : Model) :
    (beginTrack item model).queue = model.queue := (beginTrack_spec item model).1

theorem inv_beginItem (h : Queued model.queue) (hitem : item ∈ model.queue) :
    Inv (beginItem item model) := by
  rw [beginItem]
  split
  · exact inv_beginVideo h ⟨item, hitem, rfl, rfl⟩ 0 true
  · rename_i htrack
    exact inv_beginTrack h hitem htrack

theorem beginItem_queue (item : QueueItem) (model : Model) :
    (beginItem item model).queue = model.queue := by
  rw [beginItem]
  split
  · rfl
  · exact beginTrack_queue item model

/-- Nothing but the queue, what is current and what is loaded matters to the invariant. -/
theorem Inv.congr (h : Inv model) {model' : Model} (hqueue : model'.queue = model.queue)
    (hid : model'.currentId = model.currentId) (hhost : model'.targetHost = model.targetHost)
    (hactive : model'.activeSlot = model.activeSlot) (hslotA : model'.slotA = model.slotA)
    (hslotB : model'.slotB = model.slotB)
    (hupgrade : model'.pendingUpgrade = model.pendingUpgrade) : Inv model' := by
  have hslot (slot : Slot) : slotSource slot model' = slotSource slot model := by
    cases slot
    · exact hslotA
    · exact hslotB
  have hcurrent : isCurrent model' = isCurrent model := by
    funext item
    rw [isCurrent, isCurrent, hid, hhost]
  refine ⟨hqueue ▸ h.queued, ?_, ?_, ?_, ?_, ?_⟩
  · rw [hid, hqueue, hcurrent]
    exact h.current
  · simp only [hslot, hid, hhost]
    exact h.slots
  · rw [hupgrade, hid, hhost]
    exact h.upgrade
  · rw [hactive, hslot, hslot, hupgrade]
    exact h.active
  · rw [hactive, hslot, hqueue, hcurrent]
    exact h.video

theorem slotSource_requeue (slot : Slot) (queue : List QueueItem) :
    slotSource slot { model with queue := queue } = slotSource slot model := by
  cases slot <;> rfl

/-- The queue may be replaced by one that has the current entry, as a video only if nothing is loaded
or it was one. -/
theorem Inv.requeue (h : Inv model) {queue : List QueueItem} (hqueue : Queued queue)
    (hcurrent : ∀ id, model.currentId = some id → ∃ item ∈ queue, isCurrent model item = true)
    (hvideo : slotSource model.activeSlot model = none ∨
      ∀ item ∈ queue, isCurrent model item = true → item.video ≠ none →
        ∃ item' ∈ model.queue, isCurrent model item' = true ∧ item'.video ≠ none) :
    Inv { model with queue := queue } where
  queued := hqueue
  current := hcurrent
  slots slot source hsource := h.slots slot source ((slotSource_requeue _ _).symm.trans hsource)
  upgrade := h.upgrade
  active hnone := by
    rw [slotSource_requeue] at hnone ⊢
    exact h.active hnone
  video item hitem hcur hsome := by
    rw [slotSource_requeue]
    obtain hidle | hvideo := hvideo
    · exact hidle
    · obtain ⟨item', hitem', hcur', hsome'⟩ := hvideo item hitem hcur hsome
      exact h.video item' hitem' hcur' hsome'

theorem OrderKept.refl (movedKeys : List String) (queue : List QueueItem) :
    OrderKept movedKeys queue queue := ⟨fun _ => id, rfl⟩

theorem videoFormed_videoItem (video : VideoItem) (title : Option String) :
    VideoFormed (videoItem video title) := by
  intro other hother
  obtain rfl := Option.some.inj hother
  exact ⟨rfl, rfl⟩

theorem videoFormed_trackItem (host : Host) (media : MediaReference) :
    VideoFormed (trackItem host media) := nofun

theorem mem_followingItems {items : List QueueItem} {id : String}
    (h : item ∈ followingItems items id) : item ∈ items := by
  have hfold : ∀ (items : List QueueItem) (acc : Bool × List QueueItem),
      item ∈ (items.foldl (fun acc other =>
        if acc.1 then (true, acc.2 ++ [other]) else (decide (other.media.id = id), acc.2)) acc).2 →
      item ∈ acc.2 ∨ item ∈ items := by
    intro items
    induction items with
    | nil => exact fun _ h => Or.inl h
    | cons other items ih =>
      rintro ⟨seen, rest⟩ h
      cases seen with
      | true =>
        obtain h | h := ih _ h
        · obtain h | h := List.mem_append.mp h
          · exact Or.inl h
          · exact Or.inr (List.mem_cons.mpr (Or.inl (List.mem_singleton.mp h)))
        · exact Or.inr (List.mem_cons_of_mem _ h)
      | false =>
        exact (ih _ h).imp_right (List.mem_cons_of_mem _)
  exact (hfold items (false, []) h).resolve_left List.not_mem_nil

theorem videoFormed_of_mem_tracks {queue : Tracks} {host : Host}
    (h : item ∈ queue.tracks.map (trackItem host)) : VideoFormed item := by
  obtain ⟨media, _, rfl⟩ := List.mem_map.mp h
  exact videoFormed_trackItem host media

/-- An entry that is begun at the head of the queue. -/
theorem inv_playNow (h : Queued model.queue) {following : List QueueItem} (hitem : VideoFormed item)
    (hfollowing : ∀ queued ∈ following, VideoFormed queued) :
    Inv (beginItem item { model with queue := playNowQueue item following model.queue }) ∧
      OrderKept ((item :: following).map itemKey) model.queue
        (beginItem item { model with queue := playNowQueue item following model.queue }).queue := by
  obtain ⟨hqueued, hmem, horder⟩ := h.playNowQueue following hitem hfollowing
  rw [beginItem_queue]
  exact ⟨inv_beginItem hqueued hmem, horder⟩

theorem Inv.openTracks (h : Inv model) (queue : Tracks) (id : String) (host : Host) :
    Inv (openTracks queue id host model) ∧
      OrderKept (moved (.openTracks queue id host)) model.queue
        (openTracks queue id host model).queue := by
  unfold AudioPlayerPanel.openTracks moved
  dsimp only
  cases hfound : ((queue.tracks.map (trackItem host)).filter
    fun item => decide (item.media.id = id)).head? with
  | none => exact ⟨h, OrderKept.refl _ _⟩
  | some item =>
    have hmem := (List.mem_filter.mp (List.mem_of_head? hfound)).1
    exact inv_playNow h.queued (videoFormed_of_mem_tracks hmem)
      fun queued hqueued => videoFormed_of_mem_tracks (mem_followingItems hqueued)

theorem Inv.openAt (h : Inv model) (queue : Tracks) (id : String) (host : Host) (positionMs : ℚ)
    (playing : Bool) :
    Inv (openAt queue id host positionMs playing model) ∧
      OrderKept (moved (.openAt queue id host positionMs playing)) model.queue
        (openAt queue id host positionMs playing model).queue := by
  obtain ⟨hinv, horder⟩ := h.openTracks queue id host
  have hseek : ∀ opened : Model, Inv opened →
      Inv (if positionMs ≤ 0 then opened
        else if opened.autoStart then { opened with pendingSeekMs := some positionMs }
        else opened) ∧
      (if positionMs ≤ 0 then opened
        else if opened.autoStart then { opened with pendingSeekMs := some positionMs }
        else opened).queue = opened.queue := by
    intro opened hopened
    split
    · exact ⟨hopened, rfl⟩
    · split
      · exact ⟨hopened.congr rfl rfl rfl rfl rfl rfl rfl, rfl⟩
      · exact ⟨hopened, rfl⟩
  obtain ⟨hinv', hqueue⟩ := hseek _ hinv
  unfold AudioPlayerPanel.openAt
  dsimp only
  split
  · exact ⟨hinv', hqueue.symm ▸ horder⟩
  · exact ⟨hinv'.congr rfl rfl rfl rfl rfl rfl rfl, hqueue.symm ▸ horder⟩

/-- The video that the player shows is current, and nothing is loaded. -/
theorem Inv.of_isCurrentVideoSrc (h : Inv model) {src : String}
    (hcurrent : isCurrentVideoSrc src model = true) :
    model.currentId = some src ∧ model.targetHost = .none ∧
      slotSource model.activeSlot model = none := by
  unfold isCurrentVideoSrc at hcurrent
  split at hcurrent
  · rename_i video hvideo
    obtain ⟨item, hitem, hcur, hsome⟩ := currentVideo_eq_some hvideo
    obtain ⟨hhost, hid⟩ := h.queued.videos item hitem video hsome
    have hactive := h.video item hitem hcur (by simp [hsome])
    rw [isCurrent_iff, hhost, hid, of_decide_eq_true hcurrent] at hcur
    exact ⟨hcur.1, hcur.2.symm, hactive⟩
  · cases hcurrent

/-- A video that the player shows already is moved to the head of the queue. -/
theorem Inv.requeueVideo (h : Inv model) {video : VideoItem} (title : Option String)
    (hcurrent : isCurrentVideoSrc video.src model = true) :
    Inv { model with queue := playNowQueue (videoItem video title) [] model.queue } ∧
      OrderKept [itemKey (videoItem video title)] model.queue
        (playNowQueue (videoItem video title) [] model.queue) := by
  obtain ⟨hid, hhost, hactive⟩ := h.of_isCurrentVideoSrc hcurrent
  obtain ⟨hqueued, hmem, horder⟩ :=
    h.queued.playNowQueue [] (videoFormed_videoItem video title) nofun
  refine ⟨h.requeue hqueued (fun _ _ => ⟨_, hmem, ?_⟩) (Or.inl hactive), horder⟩
  rw [isCurrent_iff, hid, hhost]
  exact ⟨rfl, rfl⟩

/-- A video that begins at the head of the queue. -/
theorem inv_beginVideoNow (h : Queued model.queue) (video : VideoItem) (title : Option String)
    (startAtSeconds : ℚ) (resume : Bool) :
    Inv (beginVideo (videoItem video title) startAtSeconds resume
        { model with queue := playNowQueue (videoItem video title) [] model.queue }) ∧
      OrderKept [itemKey (videoItem video title)] model.queue
        (playNowQueue (videoItem video title) [] model.queue) := by
  obtain ⟨hqueued, hmem, horder⟩ :=
    h.playNowQueue [] (videoFormed_videoItem video title) nofun
  exact ⟨inv_beginVideo hqueued ⟨_, hmem, rfl, rfl⟩ _ _, horder⟩

theorem Inv.openVideo (h : Inv model) (video : VideoItem) (title : Option String)
    (startAtSeconds : ℚ) (resume : Bool) :
    Inv (openVideo video title startAtSeconds resume model) ∧
      OrderKept [itemKey (videoItem video title)] model.queue
        (openVideo video title startAtSeconds resume model).queue := by
  unfold AudioPlayerPanel.openVideo
  dsimp only
  split
  · rename_i hcurrent
    obtain ⟨hinv, horder⟩ := h.requeueVideo title hcurrent
    exact ⟨hinv.congr rfl rfl rfl rfl rfl rfl rfl, horder⟩
  · exact inv_beginVideoNow h.queued video title startAtSeconds resume

theorem Inv.openViewerVideo (h : Inv model) (video : VideoItem) (title : Option String)
    (startAtSeconds : ℚ) (resume startsStay : Bool) :
    Inv (openViewerVideo video title startAtSeconds resume startsStay model) ∧
      OrderKept [itemKey (videoItem video title)] model.queue
        (openViewerVideo video title startAtSeconds resume startsStay model).queue := by
  unfold AudioPlayerPanel.openViewerVideo
  dsimp only
  generalize (if startsStay = true then viewerPrior video model else model.videoPrior) = prior
  split
  · rename_i hcurrent
    obtain ⟨hinv, horder⟩ := h.requeueVideo title hcurrent
    exact ⟨hinv.congr rfl rfl rfl rfl rfl rfl rfl, horder⟩
  · have hprior : Inv { model with videoPrior := prior } :=
      h.congr rfl rfl rfl rfl rfl rfl rfl
    exact hprior.openVideo video title startAtSeconds resume

theorem Inv.loadVideo (h : Inv model) (video : VideoItem) (title : Option String) :
    Inv (loadVideo video title model) ∧
      OrderKept [itemKey (videoItem video title)] model.queue
        (loadVideo video title model).queue := by
  unfold AudioPlayerPanel.loadVideo
  split
  · exact ⟨h.congr rfl rfl rfl rfl rfl rfl rfl, OrderKept.refl _ _⟩
  · obtain ⟨hinv, horder⟩ := inv_beginVideoNow h.queued video title 0 false
    exact ⟨hinv.congr rfl rfl rfl rfl rfl rfl rfl, horder⟩

theorem queued_tracks (queue : Tracks) (host : Host) :
    Queued (queue.tracks.map (trackItem host)) where
  keys_nodup := by
    rw [List.map_map]
    refine List.Nodup.map_on ?_ queue.ids_nodup.of_map
    intro media hmedia media' hmedia' hkey
    exact List.inj_on_of_nodup_map queue.ids_nodup hmedia hmedia' (itemKey_eq_iff.mp hkey).2
  videos _ hitem := videoFormed_of_mem_tracks hitem

theorem Inv.load (h : Inv model) (queue : Tracks) (id : String) (host : Host) :
    Inv (load queue id host model) := by
  unfold AudioPlayerPanel.load
  dsimp only
  split
  · rename_i item hfound
    have hmem := (List.mem_filter.mp (List.mem_of_head? hfound)).1
    split
    · exact h.congr rfl rfl rfl rfl rfl rfl rfl
    · have htrack : item.video = none := by
        obtain ⟨media, _, rfl⟩ := List.mem_map.mp hmem
        rfl
      have hloaded : Queued ({ model with queue := queue.tracks.map (trackItem host) } : Model).queue :=
        queued_tracks queue host
      have hbegun := inv_beginTrack hloaded hmem htrack
      exact hbegun.congr rfl rfl rfl rfl rfl rfl rfl
  · exact h

theorem mem_of_adjacent {offset : Int} (h : adjacent offset model = some item) :
    item ∈ model.queue := by
  unfold adjacent at h
  split at h
  · split at h
    · cases h
    · exact List.mem_of_mem_drop (List.mem_of_head? h)
  · cases h

theorem Inv.begin (h : Inv model) (hitem : item ∈ model.queue) (movedKeys : List String) :
    Inv (beginItem item model) ∧
      OrderKept movedKeys model.queue (beginItem item model).queue := by
  rw [beginItem_queue]
  exact ⟨inv_beginItem h.queued hitem, OrderKept.refl _ _⟩

theorem Inv.endedItem (h : Inv model) (movedKeys : List String) :
    Inv (endedItem model) ∧ OrderKept movedKeys model.queue (endedItem model).queue := by
  unfold AudioPlayerPanel.endedItem
  split
  · rename_i next hnext
    exact h.begin (mem_of_adjacent hnext) movedKeys
  · exact ⟨h.congr rfl rfl rfl rfl rfl rfl rfl, OrderKept.refl _ _⟩

theorem Inv.nextItem (h : Inv model) (movedKeys : List String) :
    Inv (nextItem model) ∧ OrderKept movedKeys model.queue (nextItem model).queue := by
  unfold AudioPlayerPanel.nextItem
  split
  · rename_i next hnext
    exact h.begin (mem_of_adjacent hnext) movedKeys
  · exact ⟨h, OrderKept.refl _ _⟩

theorem Inv.prevItem (h : Inv model) (movedKeys : List String) :
    Inv (prevItem model) ∧ OrderKept movedKeys model.queue (prevItem model).queue := by
  unfold AudioPlayerPanel.prevItem
  split
  · exact ⟨h, OrderKept.refl _ _⟩
  · split
    · rename_i previous hprevious
      exact h.begin (mem_of_adjacent hprevious) movedKeys
    · exact ⟨h, OrderKept.refl _ _⟩

theorem Inv.playQueued (h : Inv model) (key : String) (movedKeys : List String) :
    Inv (playQueued key model) ∧ OrderKept movedKeys model.queue (playQueued key model).queue := by
  unfold AudioPlayerPanel.playQueued
  split
  · rename_i item hfound
    have hmem := (List.mem_filter.mp (List.mem_of_head? hfound)).1
    split
    · exact ⟨h, OrderKept.refl _ _⟩
    · exact h.begin hmem movedKeys
  · exact ⟨h, OrderKept.refl _ _⟩

theorem inv_close (model : Model) : Inv (close model) where
  queued := ⟨List.nodup_nil, fun _ hitem => absurd hitem List.not_mem_nil⟩
  current _ hid := by cases hid
  slots slot source hsource := by cases slot <;> cases hsource
  upgrade source hsource := by cases hsource
  active _ := by
    refine ⟨?_, rfl⟩
    generalize otherSlot _ = slot
    cases slot <;> rfl
  video entry hentry _ _ := absurd hentry List.not_mem_nil

/-- A slot may be loaded with the current track beside the active one. -/
theorem Inv.setOther (h : Inv model) (hactive : slotSource model.activeSlot model ≠ none)
    (loaded : Option Source)
    (hloaded : ∀ source, loaded = some source →
      model.currentId = some source.mediaId ∧ model.targetHost = source.host) :
    Inv (setSlot (otherSlot model.activeSlot) loaded model) := by
  have hne := (otherSlot_ne model.activeSlot).symm
  have hcurrent : isCurrent (setSlot (otherSlot model.activeSlot) loaded model) =
      isCurrent model := by
    funext item
    rw [isCurrent, isCurrent, setSlot_currentId, setSlot_targetHost]
  refine ⟨?_, ?_, ?_, ?_, ?_, ?_⟩
  · rw [setSlot_queue]
    exact h.queued
  · rw [setSlot_currentId, setSlot_queue, hcurrent]
    exact h.current
  · intro slot source hsource
    rw [setSlot_currentId, setSlot_targetHost]
    rw [slotSource_setSlot] at hsource
    split at hsource
    · exact hloaded source hsource
    · exact h.slots slot source hsource
  · rw [setSlot_pendingUpgrade, setSlot_currentId, setSlot_targetHost]
    exact h.upgrade
  · intro hnone
    rw [setSlot_activeSlot, slotSource_setSlot, if_neg hne] at hnone
    exact absurd hnone hactive
  · intro item hitem hcur hsome
    rw [setSlot_queue] at hitem
    rw [hcurrent] at hcur
    exact absurd (h.video item hitem hcur hsome) hactive

theorem Inv.dropUpgrade (h : Inv model) : Inv { model with pendingUpgrade := none } := by
  have hslot (slot : Slot) : slotSource slot { model with pendingUpgrade := none } =
      slotSource slot model := by
    cases slot <;> rfl
  refine ⟨h.queued, h.current, ?_, nofun, ?_, ?_⟩
  · simp only [hslot]
    exact h.slots
  · simp only [hslot]
    exact fun hnone => ⟨(h.active hnone).1, trivial⟩
  · simp only [hslot]
    exact h.video

theorem Inv.releaseUpgradeIfPlaying (h : Inv model) (movedKeys : List String) :
    Inv (releaseUpgradeIfPlaying model) ∧
      OrderKept movedKeys model.queue (releaseUpgradeIfPlaying model).queue := by
  unfold AudioPlayerPanel.releaseUpgradeIfPlaying
  cases hupgrade : model.pendingUpgrade with
  | none => exact ⟨h, OrderKept.refl _ _⟩
  | some upgrade =>
    dsimp only
    split
    · have hactive : slotSource model.activeSlot model ≠ none := fun hnone => by
        rw [(h.active hnone).2] at hupgrade
        cases hupgrade
      have hload : Inv (setSlot (otherSlot model.activeSlot) (some upgrade) model) :=
        h.setOther hactive _ fun source hsource => h.upgrade source (hupgrade.trans hsource)
      have hreleased := hload.dropUpgrade
      refine ⟨hreleased.congr ?_ ?_ ?_ ?_ ?_ ?_ ?_, ?_⟩
      all_goals
        first
          | (cases otherSlot model.activeSlot <;> rfl)
          | (rw [setSlot_queue]; exact OrderKept.refl _ _)
    · exact ⟨h, OrderKept.refl _ _⟩

theorem Inv.candidateReady (h : Inv model) (slot : Slot) (movedKeys : List String) :
    Inv (candidateReady slot model) ∧
      OrderKept movedKeys model.queue (candidateReady slot model).queue := by
  unfold AudioPlayerPanel.candidateReady
  split
  · rename_i hready
    obtain ⟨hne, hloaded⟩ := hready
    obtain rfl := (eq_or_eq_otherSlot slot model.activeSlot).resolve_left hne
    have hother : otherSlot (otherSlot model.activeSlot) = model.activeSlot := by
      cases model.activeSlot <;> rfl
    rw [hother]
    have hslot (slot : Slot) : slotSource slot
        { model with activeSlot := otherSlot model.activeSlot, activeLoaded := false } =
        slotSource slot model := by
      cases slot <;> rfl
    have hcurrent : isCurrent (setSlot model.activeSlot none
        { model with activeSlot := otherSlot model.activeSlot, activeLoaded := false }) =
        isCurrent model := by
      funext item
      rw [isCurrent, isCurrent, setSlot_currentId, setSlot_targetHost]
    have hready : slotSource (otherSlot model.activeSlot) (setSlot model.activeSlot none
        { model with activeSlot := otherSlot model.activeSlot, activeLoaded := false }) ≠ none := by
      rw [slotSource_setSlot, if_neg (otherSlot_ne _), hslot]
      exact hloaded
    refine ⟨⟨?_, ?_, ?_, ?_, ?_, ?_⟩, ?_⟩
    · rw [setSlot_queue]
      exact h.queued
    · rw [setSlot_currentId, setSlot_queue, hcurrent]
      exact h.current
    · intro slot source hsource
      rw [setSlot_currentId, setSlot_targetHost]
      rw [slotSource_setSlot, hslot] at hsource
      split at hsource
      · cases hsource
      · exact h.slots slot source hsource
    · rw [setSlot_pendingUpgrade, setSlot_currentId, setSlot_targetHost]
      exact h.upgrade
    · intro hnone
      rw [setSlot_activeSlot] at hnone
      exact absurd hnone hready
    · intro item hitem hcur hsome
      rw [setSlot_queue] at hitem
      rw [hcurrent] at hcur
      exact absurd (h.active (h.video item hitem hcur hsome)).1 hloaded
    · rw [setSlot_queue]
      exact OrderKept.refl _ _
  · exact ⟨h, OrderKept.refl _ _⟩

theorem Inv.qualityChanged (h : Inv model) (quality : Quality) (movedKeys : List String) :
    Inv (qualityChanged quality model) ∧
      OrderKept movedKeys model.queue (qualityChanged quality model).queue := by
  unfold AudioPlayerPanel.qualityChanged
  split
  · rename_i media playingSource hmedia hplaying
    obtain ⟨item, hitem, rfl⟩ := Option.map_eq_some_iff.mp hmedia
    have hcurrent := isCurrent_iff.mp (currentItem_eq_some hitem).2
    have hactive : slotSource model.activeSlot model ≠ none := by
      rw [hplaying]
      exact Option.some_ne_none _
    have hload := h.setOther hactive
      (if resolve item.media quality = playingSource.quality then none
        else some ⟨item.media.id, model.targetHost, resolve item.media quality, false⟩) (by
      intro source hsource
      split at hsource
      · cases hsource
      · rw [← Option.some.inj hsource]
        exact ⟨hcurrent.1, rfl⟩)
    refine ⟨hload.dropUpgrade.congr ?_ ?_ ?_ ?_ ?_ ?_ ?_, ?_⟩
    all_goals
      first
        | (cases otherSlot model.activeSlot <;> rfl)
        | (rw [setSlot_queue]; exact OrderKept.refl _ _)
  · exact ⟨h.congr rfl rfl rfl rfl rfl rfl rfl, OrderKept.refl _ _⟩

theorem Inv.mediaUpdated (h : Inv model) (updated : MediaReference) (movedKeys : List String) :
    Inv (mediaUpdated updated model) ∧
      OrderKept movedKeys model.queue (mediaUpdated updated model).queue := by
  have hid (item : QueueItem) : (if item.media.id = updated.id then
      { item with media := updated } else item).media.id = item.media.id := by
    split
    · rename_i hsame
      exact hsame.symm
    · rfl
  have hrest (item : QueueItem) : (if item.media.id = updated.id then
      { item with media := updated } else item).host = item.host ∧
      (if item.media.id = updated.id then { item with media := updated } else item).video =
        item.video := by
    split <;> exact ⟨rfl, rfl⟩
  have hkeys : (AudioPlayerPanel.mediaUpdated updated model).queue.map itemKey = model.queue.map itemKey := by
    rw [AudioPlayerPanel.mediaUpdated, List.map_map]
    refine List.map_congr_left fun item _ => ?_
    rw [Function.comp_apply, itemKey, itemKey, hid, (hrest item).1]
  have hcurrent (item : QueueItem) : isCurrent model (if item.media.id = updated.id then
      { item with media := updated } else item) = isCurrent model item := by
    rw [isCurrent, isCurrent, hid, (hrest item).1]
  refine ⟨h.requeue ⟨?_, ?_⟩ ?_ (Or.inr ?_), ⟨?_, ?_⟩⟩
  · rw [AudioPlayerPanel.mediaUpdated] at hkeys
    exact hkeys.symm ▸ h.queued.keys_nodup
  · intro item hitem video hvideo
    obtain ⟨old, hold, rfl⟩ := List.mem_map.mp hitem
    rw [(hrest old).2] at hvideo
    rw [hid, (hrest old).1]
    exact h.queued.videos old hold video hvideo
  · intro id hsome
    obtain ⟨item, hitem, hcur⟩ := h.current id hsome
    exact ⟨_, List.mem_map_of_mem hitem, (hcurrent item).trans hcur⟩
  · intro item hitem hcur hvideo
    obtain ⟨old, hold, rfl⟩ := List.mem_map.mp hitem
    rw [hcurrent] at hcur
    rw [(hrest old).2] at hvideo
    exact ⟨old, hold, hcur, hvideo⟩
  · rw [hkeys]
    exact fun _ => id
  · rw [hkeys]

/-- A queue without one entry, with that entry put at a place. -/
def insertAt (n : Nat) (item : QueueItem) (queue : List QueueItem) : List QueueItem :=
  (queue.filter fun queued => itemKey queued ≠ itemKey item).take n ++
    item :: (queue.filter fun queued => itemKey queued ≠ itemKey item).drop n

theorem insertAt_perm (n : Nat) (item : QueueItem) (queue : List QueueItem) :
    (insertAt n item queue).Perm
      (item :: queue.filter fun queued => itemKey queued ≠ itemKey item) := by
  refine List.perm_middle.trans ?_
  rw [List.take_append_drop]

theorem Queued.insertAt {queue : List QueueItem} (h : Queued queue) (hitem : VideoFormed item)
    (n : Nat) :
    Queued (insertAt n item queue) ∧
      OrderKept [itemKey item] queue (insertAt n item queue) := by
  have hperm := insertAt_perm n item queue
  refine ⟨⟨?_, fun queued hqueued => ?_⟩, ⟨fun key hkey => ?_, ?_⟩⟩
  · rw [(hperm.map itemKey).nodup_iff, List.map_cons, List.nodup_cons]
    refine ⟨fun hmem => ?_, h.keys_nodup.sublist (List.filter_sublist.map _)⟩
    obtain ⟨queued, hqueued, hkey⟩ := List.mem_map.mp hmem
    exact of_decide_eq_true (List.mem_filter.mp hqueued).2 hkey
  · obtain rfl | hqueued := List.mem_cons.mp (hperm.mem_iff.mp hqueued)
    · exact hitem
    · exact h.videos queued (List.mem_filter.mp hqueued).1
  · rw [(hperm.map itemKey).mem_iff, List.map_cons, List.mem_cons]
    by_cases hsame : key = itemKey item
    · exact Or.inl hsame
    · obtain ⟨queued, hqueued, rfl⟩ := List.mem_map.mp hkey
      exact Or.inr (List.mem_map_of_mem (List.mem_filter.mpr ⟨hqueued, decide_eq_true hsame⟩))
  · have hskip : (itemKey item :: ((queue.filter fun queued =>
        itemKey queued ≠ itemKey item).drop n).map itemKey).filter
          (fun key => key ∉ [itemKey item]) =
        (((queue.filter fun queued => itemKey queued ≠ itemKey item).drop n).map itemKey).filter
          fun key => key ∉ [itemKey item] :=
      List.filter_cons_of_neg (by simp)
    rw [AudioPlayerPanel.insertAt, List.map_append, List.map_cons, List.filter_append, hskip,
      ← List.filter_append, ← List.map_append, List.take_append_drop, List.filter_map,
      List.filter_map, List.filter_filter]
    congr 1
    refine List.filter_congr fun queued _ => ?_
    simp

theorem enqueue_eq (placement : Placement) (item : QueueItem) (model : Model) :
    ∃ n, enqueue placement item model = { model with queue := insertAt n item model.queue } := by
  cases placement with
  | playLast =>
    refine ⟨(model.queue.filter fun queued => itemKey queued ≠ itemKey item).length, ?_⟩
    rw [enqueue, insertAt, List.take_length, List.drop_length]
  | playNext => exact ⟨_, rfl⟩

theorem Inv.enqueueTrack (h : Inv model) (placement : Placement) (media : MediaReference)
    (host : Host) :
    Inv (enqueueTrack placement media host model) ∧
      OrderKept [itemKey (trackItem host media)] model.queue
        (enqueueTrack placement media host model).queue := by
  unfold AudioPlayerPanel.enqueueTrack
  dsimp only
  split
  · exact inv_playNow h.queued (videoFormed_trackItem host media) nofun
  · split
    · exact ⟨h, OrderKept.refl _ _⟩
    · rename_i hnot
      obtain ⟨n, hqueue⟩ := enqueue_eq placement (trackItem host media) model
      obtain ⟨hqueued, horder⟩ := h.queued.insertAt (videoFormed_trackItem host media) n
      have hperm := insertAt_perm n (trackItem host media) model.queue
      rw [hqueue]
      refine ⟨h.requeue hqueued (fun id hid => ?_) (Or.inr ?_), horder⟩
      · obtain ⟨item, hitem, hcur⟩ := h.current id hid
        refine ⟨item, hperm.mem_iff.mpr (List.mem_cons_of_mem _ ?_), hcur⟩
        refine List.mem_filter.mpr ⟨hitem, decide_eq_true fun hkey => hnot ?_⟩
        obtain ⟨hhost, hsame⟩ := itemKey_eq_iff.mp hkey
        rw [isCurrent_iff] at hcur ⊢
        rw [← hsame, ← hhost]
        exact hcur
      · intro item hitem hcur hvideo
        obtain rfl | hitem := List.mem_cons.mp (hperm.mem_iff.mp hitem)
        · exact absurd rfl hvideo
        · exact ⟨item, (List.mem_filter.mp hitem).1, hcur, hvideo⟩

/-- A queue of the same entries in another order. -/
theorem Inv.reorder (h : Inv model) {queue : List QueueItem} (hperm : queue.Perm model.queue) :
    Inv { model with queue := queue } := by
  refine h.requeue ⟨?_, fun item hitem => ?_⟩ (fun id hid => ?_) (Or.inr ?_)
  · exact (hperm.map itemKey).nodup_iff.mpr h.queued.keys_nodup
  · exact h.queued.videos item (hperm.mem_iff.mp hitem)
  · obtain ⟨item, hitem, hcur⟩ := h.current id hid
    exact ⟨item, hperm.mem_iff.mpr hitem, hcur⟩
  · exact fun item hitem hcur hvideo => ⟨item, hperm.mem_iff.mp hitem, hcur, hvideo⟩

theorem indexWhere_eq_some {p : QueueItem → Bool} {items : List QueueItem} {i : Nat}
    (h : indexWhere p items = some i) : ∃ hi : i < items.length, p items[i] = true := by
  obtain ⟨⟨found, _⟩, hfound, rfl⟩ := Option.map_eq_some_iff.mp h
  obtain ⟨hmem, hp⟩ := List.mem_filter.mp (List.mem_of_head? hfound)
  obtain ⟨hi, hget⟩ := List.getElem?_eq_some_iff.mp (List.mem_zipIdx_iff_getElem?.mp hmem)
  refine ⟨hi, ?_⟩
  rw [hget]
  exact hp

/-- Two neighbours that change places. -/
theorem swap_neighbours (before after : List QueueItem) (x y : QueueItem) :
    ((before ++ x :: y :: after).mapIdx fun idx item =>
      if idx = before.length then y else if idx = before.length + 1 then x else item) =
      before ++ y :: x :: after := by
  refine List.ext_getElem (by simp) fun n h h' => ?_
  rw [List.getElem_mapIdx]
  grind

theorem split_neighbours {items : List QueueItem} {i : Nat} (h : i + 1 < items.length) :
    items = items.take i ++ items[i] :: items[i + 1] :: items.drop (i + 2) := by
  rw [← List.drop_eq_getElem_cons h, ← List.drop_eq_getElem_cons (by omega : i < items.length),
    List.take_append_drop]

/-- A move within the list makes the entries at two places change places. -/
theorem moveListItemBy_eq {offset : Int} {key : String} {items : List QueueItem} {i j : Nat}
    (hindex : indexWhere (fun item => itemKey item = key) items = some i) (hi : i < items.length)
    (hj : j < items.length) (hoffset : (i : Int) + offset = j) :
    moveListItemBy offset key items =
      items.mapIdx fun idx item =>
        if idx = i then items[j] else if idx = j then items[i] else item := by
  have hbounds : ¬ ((j : Int) < 0 ∨ (items.length : Int) ≤ j) := by omega
  simp only [moveListItemBy, hindex, hoffset, if_neg hbounds, Int.toNat_natCast,
    List.getElem?_eq_getElem hi, List.getElem?_eq_getElem hj]

/-- A move leaves the queue or makes two neighbours change places, of which one is moved. -/
theorem moveListItemBy_cases (offset : MoveOffset) (key : String) (items : List QueueItem) :
    moveListItemBy offset.toInt key items = items ∨
      ∃ before x y after, items = before ++ x :: y :: after ∧
        moveListItemBy offset.toInt key items = before ++ y :: x :: after ∧
        (itemKey x = key ∨ itemKey y = key) := by
  cases hindex : indexWhere (fun item => decide (itemKey item = key)) items with
  | none =>
    rw [moveListItemBy, hindex]
    exact Or.inl rfl
  | some i =>
    obtain ⟨hi, hkey⟩ := indexWhere_eq_some hindex
    have hkey := of_decide_eq_true hkey
    by_cases hbounds : (i : Int) + offset.toInt < 0 ∨ (items.length : Int) ≤ i + offset.toInt
    · rw [moveListItemBy, hindex]
      exact Or.inl (if_pos hbounds)
    · refine Or.inr ?_
      cases offset with
      | down =>
        rw [MoveOffset.toInt] at hbounds ⊢
        have hj : i + 1 < items.length := by omega
        refine ⟨items.take i, items[i], items[i + 1], items.drop (i + 2), split_neighbours hj, ?_,
          Or.inl hkey⟩
        have hswap := swap_neighbours (items.take i) (items.drop (i + 2)) items[i] items[i + 1]
        rw [← split_neighbours hj, List.length_take_of_le hi.le] at hswap
        rw [moveListItemBy_eq hindex hi hj (by omega)]
        exact hswap
      | up =>
        rw [MoveOffset.toInt] at hbounds ⊢
        obtain ⟨j, rfl⟩ : ∃ j, i = j + 1 := ⟨i - 1, by omega⟩
        have hj : j < items.length := by omega
        refine ⟨items.take j, items[j], items[j + 1], items.drop (j + 2), split_neighbours hi, ?_,
          Or.inr hkey⟩
        have hswap := swap_neighbours (items.take j) (items.drop (j + 2)) items[j] items[j + 1]
        rw [← split_neighbours hi, List.length_take_of_le hj.le] at hswap
        rw [moveListItemBy_eq hindex hi hj (by omega), ← hswap]
        refine congrArg (fun f => List.mapIdx f items) (funext fun idx => funext fun item => ?_)
        by_cases hlow : idx = j
        · rw [if_neg (by omega), if_pos hlow, if_pos hlow]
        · rw [if_neg hlow, if_neg hlow]

/-- A move keeps the order of the entries that it does not move. -/
theorem Inv.move (h : Inv model) (key : String) (offset : MoveOffset) :
    Inv { model with queue := moveListItemBy offset.toInt key model.queue } ∧
      OrderKept [key] model.queue (moveListItemBy offset.toInt key model.queue) := by
  obtain hsame | ⟨before, x, y, after, hqueue, hmoved, hkey⟩ :=
    moveListItemBy_cases offset key model.queue
  · rw [hsame]
    exact ⟨h, OrderKept.refl _ _⟩
  · rw [hmoved]
    have hperm : (before ++ y :: x :: after).Perm model.queue := by
      rw [hqueue]
      exact (List.Perm.swap x y after).append_left before
    refine ⟨h.reorder hperm, ⟨fun _ => (hperm.map itemKey).mem_iff.mpr, ?_⟩⟩
    rw [hqueue]
    simp only [List.map_append, List.map_cons, List.filter_append]
    congr 1
    obtain rfl | rfl := hkey
    · simp [List.filter_cons]
    · simp [List.filter_cons]

/-- A key has its place in an order for its rank. -/
theorem rankOf_getElem {order : List String} (h : order.Nodup) {i : Nat} (hi : i < order.length) :
    rankOf order order[i] = i := by
  unfold rankOf
  cases hlast : (order.zipIdx.filter fun entry => decide (entry.1 = order[i])).getLast? with
  | none =>
    have hmem : (order[i], i) ∈ order.zipIdx.filter
        fun entry => decide (entry.1 = order[i]) :=
      List.mem_filter.mpr ⟨List.mem_zipIdx_iff_getElem?.mpr (List.getElem?_eq_getElem hi),
        decide_eq_true rfl⟩
    rw [List.getLast?_eq_none_iff.mp hlast] at hmem
    exact absurd hmem List.not_mem_nil
  | some entry =>
    obtain ⟨hmem, hkey⟩ := List.mem_filter.mp (List.mem_of_getLast? hlast)
    obtain ⟨hj, hget⟩ := List.getElem?_eq_some_iff.mp (List.mem_zipIdx_iff_getElem?.mp hmem)
    exact (List.Nodup.getElem_inj_iff h).mp (hget.trans (of_decide_eq_true hkey))

/-- Entries are sorted into an order of their keys. -/
theorem map_key_reorderByKeys {order : List String} {items : List QueueItem} (h : order.Nodup)
    (hperm : order.Perm (items.map itemKey)) : (reorderByKeys order items).map itemKey = order := by
  have hsame : ((reorderByKeys order items).map itemKey).Perm order :=
    ((List.mergeSort_perm _ _).map itemKey).trans hperm.symm
  have hinj {key key' : String} (hkey : key ∈ order) (hkey' : key' ∈ order)
      (hrank : rankOf order key = rankOf order key') : key = key' := by
    obtain ⟨i, hi, rfl⟩ := List.getElem_of_mem hkey
    obtain ⟨j, hj, rfl⟩ := List.getElem_of_mem hkey'
    rw [rankOf_getElem h hi, rankOf_getElem h hj] at hrank
    subst hrank
    rfl
  refine eq_of_pairwise_of_mem_iff (R := fun key key' => rankOf order key < rankOf order key')
    (fun _ _ => lt_asymm) ?_ ?_ fun key => hsame.mem_iff
  · have hsorted : ((reorderByKeys order items).map itemKey).Pairwise
        fun key key' => rankOf order key ≤ rankOf order key' := by
      rw [List.pairwise_map]
      refine (List.pairwise_mergeSort ?_ ?_ items).imp fun hle => of_decide_eq_true hle
      · intro a b c hab hbc
        rw [decide_eq_true_eq] at *
        exact hab.trans hbc
      · intro a b
        rw [Bool.or_eq_true, decide_eq_true_eq, decide_eq_true_eq]
        exact le_total _ _
    refine (hsorted.and (hsame.nodup_iff.mpr h)).imp_of_mem fun hkey hkey' hboth => ?_
    refine lt_of_le_of_ne hboth.1 fun hrank => hboth.2 ?_
    exact hinj (hsame.mem_iff.mp hkey) (hsame.mem_iff.mp hkey') hrank
  · refine List.pairwise_iff_getElem.mpr fun i j hi hj hlt => ?_
    rw [rankOf_getElem h hi, rankOf_getElem h hj]
    exact hlt

/-- A drag keeps the order of the entries that it does not move. -/
theorem Inv.dragged (h : Inv model) (key : String) (passes : String → Bool) :
    Inv (dragged key passes model) ∧
      OrderKept [key] model.queue (dragged key passes model).queue := by
  unfold AudioPlayerPanel.dragged
  dsimp only
  split
  · exact ⟨h, OrderKept.refl _ _⟩
  · rename_i hmoves
    unfold targetOrder at hmoves ⊢
    by_cases hmem : key ∈ model.queue.map itemKey
    · rw [if_neg (not_not.mpr hmem)] at hmoves ⊢
      dsimp only
      generalize ((List.filter (fun other => decide (other ≠ key))
        (model.queue.map itemKey)).filter passes).length = n
      have hnodup := h.queued.keys_nodup
      have hperm : (((model.queue.map itemKey).filter fun other => decide (other ≠ key)).take n ++
          key :: ((model.queue.map itemKey).filter fun other => decide (other ≠ key)).drop n).Perm
          (model.queue.map itemKey) := by
        refine List.perm_middle.trans ?_
        rw [List.take_append_drop]
        refine (List.perm_ext_iff_of_nodup ?_ hnodup).mpr fun other => ?_
        · refine List.nodup_cons.mpr ⟨fun hin => ?_, hnodup.filter _⟩
          exact of_decide_eq_true (List.mem_filter.mp hin).2 rfl
        · rw [List.mem_cons, List.mem_filter, decide_eq_true_eq]
          constructor
          · rintro (rfl | ⟨hin, _⟩)
            · exact hmem
            · exact hin
          · intro hin
            by_cases hsame : other = key
            · exact Or.inl hsame
            · exact Or.inr ⟨hin, hsame⟩
      have hkeys := map_key_reorderByKeys (hperm.nodup_iff.mpr hnodup) hperm
      refine ⟨h.reorder (List.mergeSort_perm _ _), ⟨?_, ?_⟩⟩
      · rw [hkeys]
        exact fun _ => hperm.mem_iff.mpr
      · rw [hkeys, List.filter_append, List.filter_cons_of_neg (by simp), ← List.filter_append,
          List.take_append_drop, List.filter_filter]
        refine List.filter_congr fun other _ => ?_
        simp
    · rw [if_pos hmem] at hmoves
      exact absurd rfl hmoves

/-- When the media viewer is left, the invariant stays if the video brought back is in the queue, or
nothing is loaded. -/
theorem Inv.leaveViewerVideo (h : Inv model) (hmeets : Meets model .leaveViewerVideo)
    (movedKeys : List String) :
    Inv (leaveViewerVideo model) ∧
      OrderKept movedKeys model.queue (leaveViewerVideo model).queue := by
  unfold AudioPlayerPanel.leaveViewerVideo
  unfold Meets at hmeets
  cases hprior : model.videoPrior with
  | some prior =>
    rw [hprior] at hmeets
    have hqueued : Queued ({ model with videoPrior := none } : Model).queue := h.queued
    exact ⟨inv_beginVideo hqueued hmeets _ _, OrderKept.refl _ _⟩
  | none =>
    rw [hprior] at hmeets
    have hidle := h.active hmeets
    have hslot (slot : Slot) : slotSource slot model = none := by
      obtain rfl | rfl := eq_or_eq_otherSlot slot model.activeSlot
      · exact hmeets
      · exact hidle.1
    have hnone : slotSource .slotA model = none ∧ slotSource .slotB model = none :=
      ⟨hslot _, hslot _⟩
    refine ⟨⟨h.queued, nofun, ?_, ?_, ?_, ?_⟩, OrderKept.refl _ _⟩
    · intro slot source hsource
      cases slot
      · exact absurd (hsource.symm.trans hnone.1) (by simp)
      · exact absurd (hsource.symm.trans hnone.2) (by simp)
    · intro source hsource
      rw [hidle.2] at hsource
      cases hsource
    · intro _
      refine ⟨?_, hidle.2⟩
      generalize otherSlot _ = slot
      cases slot
      · exact hnone.1
      · exact hnone.2
    · intro item _ hcur _
      rw [isCurrent_iff] at hcur
      cases hcur.1

/-- A message keeps the invariant and the order of the queue under the condition. -/
theorem Inv.update (h : Inv model) (msg : Msg) (hmeets : Meets model msg) :
    Inv (update model msg) ∧
      (msg.replaces = false → OrderKept (moved msg) model.queue (update model msg).queue) := by
  have hboth {model' : Model} (hkept : Inv model' ∧ OrderKept (moved msg) model.queue model'.queue) :
      Inv model' ∧ (msg.replaces = false → OrderKept (moved msg) model.queue model'.queue) :=
    ⟨hkept.1, fun _ => hkept.2⟩
  cases msg with
  | openTracks queue id host => exact hboth (h.openTracks queue id host)
  | openAt queue id host positionMs playing =>
    exact hboth (h.openAt queue id host positionMs playing)
  | openVideo video title startAtSeconds resume =>
    exact hboth (h.openVideo video title startAtSeconds resume)
  | openViewerVideo video title startAtSeconds resume startsStay =>
    exact hboth (h.openViewerVideo video title startAtSeconds resume startsStay)
  | leaveViewerVideo => exact hboth (h.leaveViewerVideo hmeets _)
  | videoState playing positionMs durationMs =>
    refine hboth ?_
    unfold AudioPlayerPanel.update
    dsimp only
    split
    · exact ⟨h.congr rfl rfl rfl rfl rfl rfl rfl, OrderKept.refl _ _⟩
    · exact ⟨h, OrderKept.refl _ _⟩
  | videoEnded =>
    refine hboth ?_
    unfold AudioPlayerPanel.update
    dsimp only
    split
    · exact h.endedItem _
    · exact ⟨h, OrderKept.refl _ _⟩
  | load queue id host => exact ⟨h.load queue id host, nofun⟩
  | loadVideo video title => exact hboth (h.loadVideo video title)
  | enqueue placement media host => exact hboth (h.enqueueTrack placement media host)
  | playQueued key => exact hboth (h.playQueued key _)
  | gotPreMovePositions key offset => exact hboth (h.move key offset)
  | drag key passes => exact hboth (h.dragged key passes)
  | next => exact hboth (h.nextItem _)
  | prev => exact hboth (h.prevItem _)
  | close => exact ⟨inv_close model, nofun⟩
  | timeUpdated slot positionMs durationMs =>
    refine hboth ?_
    unfold AudioPlayerPanel.update
    dsimp only
    split
    · exact ⟨h.congr rfl rfl rfl rfl rfl rfl rfl, OrderKept.refl _ _⟩
    · exact ⟨h, OrderKept.refl _ _⟩
  | playStateChanged slot playing =>
    refine hboth ?_
    unfold AudioPlayerPanel.update
    dsimp only
    split
    · have hplaying : Inv { model with playing := playing } :=
        h.congr rfl rfl rfl rfl rfl rfl rfl
      exact hplaying.releaseUpgradeIfPlaying _
    · exact ⟨h, OrderKept.refl _ _⟩
  | ended slot =>
    refine hboth ?_
    unfold AudioPlayerPanel.update
    dsimp only
    split
    · exact h.endedItem _
    · exact ⟨h, OrderKept.refl _ _⟩
  | canPlay slot =>
    refine hboth ?_
    unfold AudioPlayerPanel.update
    dsimp only
    split
    · exact ⟨h.congr rfl rfl rfl rfl rfl rfl rfl, OrderKept.refl _ _⟩
    · exact ⟨h, OrderKept.refl _ _⟩
  | activeFullyLoaded slot =>
    refine hboth ?_
    unfold AudioPlayerPanel.update
    dsimp only
    split
    · have hloaded : Inv { model with activeLoaded := true } :=
        h.congr rfl rfl rfl rfl rfl rfl rfl
      exact hloaded.releaseUpgradeIfPlaying _
    · exact ⟨h, OrderKept.refl _ _⟩
  | candidateReady slot => exact hboth (h.candidateReady slot _)
  | qualityChanged quality => exact hboth (h.qualityChanged quality _)
  | mediaUpdated updated => exact hboth (h.mediaUpdated updated _)

/-- A message keeps the player lawful exactly under the condition. -/
theorem Inv.kept_iff (h : Inv model) (msg : Msg) : Kept model msg ↔ Meets model msg := by
  constructor
  · intro hkept
    cases msg with
    | leaveViewerVideo =>
      have hlaw := hkept.lawful
      unfold AudioPlayerPanel.update AudioPlayerPanel.leaveViewerVideo at hlaw
      unfold Meets
      cases hprior : model.videoPrior with
      | some prior =>
        rw [hprior] at hlaw
        have hone := hlaw.current prior.item.media.id rfl
        obtain ⟨item, hitem⟩ := List.exists_mem_of_length_pos (hone ▸ Nat.one_pos)
        obtain ⟨hmem, hcur⟩ := List.mem_filter.mp hitem
        obtain ⟨hid, hhost⟩ := isCurrent_iff.mp hcur
        exact ⟨item, hmem, (Option.some.inj hid).symm, hhost⟩
      | none =>
        rw [hprior] at hlaw
        cases hactive : slotSource model.activeSlot model with
        | none => rfl
        | some source =>
          have hplaying := hlaw.playing source (by
            rw [← hactive]
            cases model.activeSlot <;> rfl)
          cases hplaying.1
    | _ => trivial
  · intro hmeets
    obtain ⟨hinv, horder⟩ := h.update msg hmeets
    exact ⟨hinv.lawful, horder⟩

end

theorem inv_init : Inv init where
  queued := ⟨List.nodup_nil, fun _ hitem => absurd hitem List.not_mem_nil⟩
  current _ hid := by cases hid
  slots slot source hsource := by cases slot <;> cases hsource
  upgrade source hsource := by cases hsource
  active _ := ⟨rfl, rfl⟩
  video entry hentry _ _ := absurd hentry List.not_mem_nil

/-- Any messages in any order keep the player lawful exactly if the media viewer is only left while
what it brings back is in the queue, or no track is loaded. -/
theorem playing_iff (msgs : List Msg) :
    Along update Kept init msgs ↔ Along update Meets init msgs := by
  refine along_iff_of_invariant (I := Inv) ?_ (fun _ msg h => h.kept_iff msg) inv_init msgs
  exact fun model msg h hkept => (h.update msg ((h.kept_iff msg).mp hkept)).1

/-- The player is closed while the media viewer has it, and leaving the viewer brings back a video
that is not in the queue any more. -/
theorem left_after_close :
    ¬ Along update Kept init
      [.openVideo { src := "/old" } none 0 true, .openViewerVideo { src := "/new" } none 0 true true,
        .close, .leaveViewerVideo] := by
  rintro ⟨_, _, _, hlast, _⟩
  have hone := hlast.lawful.current "/old" (by decide +kernel)
  exact absurd hone (by decide +kernel)

end Rellm.Client.AudioPlayerPanel
