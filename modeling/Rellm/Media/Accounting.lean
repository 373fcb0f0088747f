import Rellm.Foundation.Run
import Rellm.Media.Copies
import Rellm.Media.Store

/-!
# Media usage accounting

The counter of each user and the usage that the configuration reports agree with the rows of the
media after every operation. What an operation writes beside the usage are the normalized settings,
which are the stored ones only if these have both allocations.
-/

namespace Rellm.Media

open Foundation Content

/-- An item has its original at most once. -/
def OneOriginal (item : MediaItem) : Prop :=
  (item.sizes.countP fun size => size.conversion = .original) ≤ 1

theorem totalBytes_append (before after : List MediaSize) :
    totalBytes (before ++ after) = totalBytes before + totalBytes after := by
  rw [totalBytes, List.map_append, List.sum_append, totalBytes, totalBytes]

/-- The copies that are picked and those that are not make up all of them. -/
theorem totalBytes_filter (p : MediaSize → Bool) (sizes : List MediaSize) :
    totalBytes (sizes.filter p) + totalBytes (sizes.filter fun size => !p size) =
      totalBytes sizes := by
  have hperm : (sizes.filter p ++ sizes.filter fun size => !p size).Perm sizes :=
    List.filter_append_perm p sizes
  rw [← totalBytes_append]
  exact (hperm.map _).sum_eq

section

variable {run : ConversionRun} {item converted : MediaItem}

/-- What is made of an original is no original. -/
theorem derivedSize_of_copies {metadata : MediaMetadata} {original : MediaSize}
    {made : List MediaSize} (h : copies run metadata original = .ok made) :
    ∀ size ∈ made, derivedSize size = true := by
  intro size hsize
  rw [derivedSize, decide_eq_true_eq]
  by_cases htype : isAudioOrVideo original.contentType = true
  · exact (copied_of_copies htype h size hsize).ne_original
  · have hneither : ¬ isAudioContentType original.contentType = true ∧
        ¬ isVideoContentType original.contentType = true := by
      rwa [isAudioOrVideo, Bool.or_eq_true, not_or] at htype
    simp only [copies, checks_eq_ok, if_neg hneither.1, if_neg hneither.2, imageCopies] at h
    obtain ⟨_, _, _, _, _, _, _, _, h⟩ := h
    obtain ⟨hconversion, _⟩ := mapM_generated h hsize
    have hresized := List.mem_of_mem_filter hconversion
    have hall : ∀ conversion ∈ resizedConversions, conversion ≠ .original := by decide
    exact hall _ hresized

/-- An item with one original is that and its other copies. -/
theorem OneOriginal.bytes_eq (h : OneOriginal item) {original : MediaSize}
    (horiginal : item.original = some original) :
    item.bytes = original.sizeBytes + totalBytes (item.sizes.filter derivedSize) := by
  have hmem := size_eq_some horiginal
  have hone : (item.sizes.filter fun size => !derivedSize size) = [original] := by
    have hcount : (item.sizes.filter fun size => !derivedSize size).length ≤ 1 := by
      rw [← List.countP_eq_length_filter]
      refine le_trans (le_of_eq (List.countP_congr fun size _ => ?_)) h
      simp [derivedSize]
    have hin : original ∈ item.sizes.filter fun size => !derivedSize size :=
      List.mem_filter.mpr ⟨hmem.1, by simp [derivedSize, hmem.2]⟩
    match hlist : item.sizes.filter fun size => !derivedSize size, hcount, hin with
    | [only], _, hin => rw [List.mem_singleton.mp hin]
  have hsplit := totalBytes_filter derivedSize item.sizes
  rw [hone] at hsplit
  change totalBytes item.sizes = _
  rw [← hsplit, Int.add_comm]
  exact congrArg (· + _) (Int.add_zero _)

theorem retagMedia_same (h : retagMedia run item = .ok converted) :
    converted.id = item.id ∧ converted.userId = item.userId := by
  simp only [retagMedia, checks_eq_ok, require_eq_ok, pure_eq_ok] at h
  obtain ⟨_, _, _, _, rfl⟩ := h
  exact ⟨rfl, rfl⟩

theorem regenerate_same (h : regenerate run item = .ok converted) :
    converted.id = item.id ∧ converted.userId = item.userId := by
  simp only [regenerate, checks_eq_ok, pure_eq_ok] at h
  obtain ⟨_, _, _, _, rfl⟩ := h
  exact ⟨rfl, rfl⟩

/-- New tags leave the original once. -/
theorem oneOriginal_retagMedia (hone : OneOriginal item)
    (h : retagMedia run item = .ok converted) : OneOriginal converted := by
  have hmapM (sizes made : List MediaSize) (hmade : sizes.mapM (retag run) = .ok made) :
      made.map (·.conversion) = sizes.map (·.conversion) := by
    induction sizes generalizing made with
    | nil =>
      obtain rfl := Except.ok.inj hmade
      rfl
    | cons size sizes ih =>
      simp only [List.mapM_cons, checks_eq_ok, pure_eq_ok] at hmade
      obtain ⟨first, hfirst, rest, hrest, rfl⟩ := hmade
      rw [List.map_cons, List.map_cons, ih rest hrest, (retag_eq_ok hfirst).1]
  have hcount (sizes : List MediaSize) :
      (sizes.countP fun size => size.conversion = .original) =
        (sizes.map (·.conversion)).countP fun conversion => conversion = .original := by
    rw [List.countP_map]
    rfl
  unfold OneOriginal at *
  rw [hcount, hmapM _ _ (retagMedia_eq_ok h).2, ← hcount]
  exact hone

theorem oneOriginal_regenerate (h : regenerate run item = .ok converted) :
    OneOriginal converted := by
  cases horiginal : item.original with
  | none => simp [regenerate, horiginal, found] at h
  | some original =>
    obtain ⟨_, made, hmade, hsizes⟩ := regenerate_eq_ok horiginal h
    have hnone : (made.countP fun size => size.conversion = .original) = 0 := by
      rw [List.countP_eq_zero]
      intro size hsize
      simpa [derivedSize] using derivedSize_of_copies hmade size hsize
    unfold OneOriginal
    rw [hsizes, List.countP_cons, hnone]
    split <;> omega

/-- A run adds what the item takes up afterwards, less what it took up. -/
theorem convertedBytes_eq (hone : OneOriginal item) (h : convertMedia run item = .ok converted) :
    convertedBytes run item converted = converted.bytes - item.bytes := by
  have hregenerated (hmade : regenerate run item = .ok converted) :
      totalBytes (converted.sizes.drop 1) - totalBytes (item.sizes.filter derivedSize) =
        converted.bytes - item.bytes := by
    cases horiginal : item.original with
    | none => simp [regenerate, horiginal, found] at hmade
    | some original =>
      obtain ⟨_, made, _, hsizes⟩ := regenerate_eq_ok horiginal hmade
      have hconverted : converted.bytes = original.sizeBytes + totalBytes made := by
        rw [MediaItem.bytes, hsizes, List.map_cons, List.sum_cons]
        rfl
      rw [hone.bytes_eq horiginal, hconverted, hsizes]
      change totalBytes made - _ = _
      omega
  unfold convertMedia at h
  unfold convertedBytes
  split at h
  · rename_i hretag
    rw [decide_eq_true hretag.2, hretag.1]
    cases hretagged : retagMedia run item with
    | ok retagged => rfl
    | error failure =>
      rw [hretagged] at h
      exact hregenerated h
  · rename_i hregenerate
    have hfalse : (item.metadata.retagOnly && decide (1 < item.sizes.length)) = false := by
      rw [Bool.eq_false_iff, Ne, Bool.and_eq_true, decide_eq_true_eq]
      exact hregenerate
    rw [hfalse]
    exact hregenerated h

end

/-- Every item has its original at most once. -/
def OriginalsOnce (s : MediaStore) : Prop := ∀ item ∈ s.media.rows, OneOriginal item

/-- What an operation does to the counters: each user's is summed anew or what it counts did not
change, and the usage is adjusted by what the total changed. -/
structure Accounted (s s' : MediaStore) : Prop where
  users : ∀ after ∈ s'.users.rows, ∃ user ∈ s.users.rows, user.id = after.id ∧
    (after.mediaStorageBytesUsed = s'.mediaStorageBytesUsed after.id ∨
      after.mediaStorageBytesUsed = user.mediaStorageBytesUsed ∧
        s'.mediaStorageBytesUsed after.id = s.mediaStorageBytesUsed after.id)
  config : ∃ now, s'.config = adjustServerMediaUsageBytes
    (Int64.ofInt (s'.totalMediaBytes - s.totalMediaBytes)) now s.config
  originals : OriginalsOnce s → OriginalsOnce s'

section

variable {s : MediaStore} {now : Timestamp}

theorem Accounted.refl (s : MediaStore) : Accounted s s := by
  refine ⟨fun user hmem => ⟨user, hmem, rfl, Or.inr ⟨rfl, rfl⟩⟩, ⟨⟨0, 0⟩, ?_⟩, id⟩
  rw [Int.sub_self]
  rfl

/-- An owner's copies change by some bytes, which are accounted for. -/
theorem accounted_account {media : Serial MediaItem.id} {owner : Option Nat} {delta : Int}
    (htotal : (media.rows.map MediaItem.bytes).sum = s.totalMediaBytes + delta)
    (hothers : ∀ userId, owner ≠ some userId →
      (media.rows.map (MediaItem.bytesOf userId)).sum = s.mediaStorageBytesUsed userId)
    (honce : OriginalsOnce s → ∀ item ∈ media.rows, OneOriginal item) :
    Accounted s ({ s with media := media }.account owner delta now) := by
  have hmedia : ({ s with media := media }.account owner delta now).media = media := by
    cases owner <;> rfl
  constructor
  · intro after hafter
    unfold MediaStore.mediaStorageBytesUsed
    rw [hmedia]
    cases owner with
    | none =>
      exact ⟨after, hafter, rfl, Or.inr ⟨rfl, hothers after.id nofun⟩⟩
    | some userId =>
      obtain ⟨user, hmem, rfl⟩ := List.mem_map.mp hafter
      refine ⟨user, hmem, ?_⟩
      split
      · rename_i hid
        have hid : user.id = userId := of_decide_eq_true hid
        subst hid
        exact ⟨rfl, Or.inl rfl⟩
      · rename_i hid
        have hid : user.id ≠ userId := by simpa using hid
        exact ⟨rfl, Or.inr ⟨rfl, hothers user.id fun heq => hid (Option.some.inj heq).symm⟩⟩
  · refine ⟨now, ?_⟩
    have hdelta : (media.rows.map MediaItem.bytes).sum - s.totalMediaBytes = delta := by
      rw [htotal]
      omega
    unfold MediaStore.totalMediaBytes at hdelta ⊢
    rw [hmedia, hdelta]
    cases owner <;> rfl
  · unfold OriginalsOnce
    rw [hmedia]
    exact honce

/-- An item is stored over its row. -/
theorem sum_setItem {w : MediaItem → Int} {item after : MediaItem}
    (hget : s.media.get item.id = some item) (hid : after.id = item.id) :
    ((s.setItem after).media.rows.map w).sum + w item = (s.media.rows.map w).sum + w after := by
  have hget' : s.media.get after.id = some item := hid ▸ hget
  have hsum := s.media.sum_modify after.over after.over_id w hget'
  rwa [MediaItem.over_eq hid] at hsum

theorem originalsOnce_setItem (h : OriginalsOnce s) {after : MediaItem}
    (hafter : OneOriginal after) : OriginalsOnce (s.setItem after) := by
  intro row hrow
  rcases s.media.mem_modify after.over after.over_id hrow with ⟨hold, _⟩ | ⟨_, _, rfl⟩
  · exact h row hold
  · exact hafter

/-- An item is stored over its row, and the difference is accounted for. -/
theorem accounted_setItem {item after : MediaItem} {owner : Option Nat} {delta : Int}
    (hget : s.media.get item.id = some item) (hid : after.id = item.id)
    (huser : after.userId = item.userId) (howner : owner = item.userId)
    (hdelta : after.bytes = item.bytes + delta) (honce : OneOriginal item → OneOriginal after) :
    Accounted s ((s.setItem after).account owner delta now) := by
  subst howner
  refine accounted_account ?_ ?_ ?_
  · have hsum := sum_setItem (w := MediaItem.bytes) hget hid
    change ((s.setItem after).media.rows.map MediaItem.bytes).sum = _
    unfold MediaStore.totalMediaBytes
    omega
  · intro userId howner
    have hsum := sum_setItem (w := MediaItem.bytesOf userId) hget hid
    rw [MediaItem.bytesOf, MediaItem.bytesOf, huser, if_neg howner, if_neg howner] at hsum
    change ((s.setItem after).media.rows.map (MediaItem.bytesOf userId)).sum = _
    unfold MediaStore.mediaStorageBytesUsed
    omega
  · exact fun h => originalsOnce_setItem h
      (honce (h item (Table.get_eq_some_iff.mp hget).1))

/-- An item is stored over its row, and takes up as much as before. -/
theorem accounted_setItem_self {item after : MediaItem}
    (hget : s.media.get item.id = some item) (hid : after.id = item.id)
    (huser : after.userId = item.userId) (hbytes : after.bytes = item.bytes)
    (honce : OneOriginal item → OneOriginal after) : Accounted s (s.setItem after) := by
  have hmedia {w : MediaItem → Int} (hw : w after = w item) :
      ((s.setItem after).media.rows.map w).sum = (s.media.rows.map w).sum := by
    have hsum := sum_setItem (w := w) hget hid
    rw [hw] at hsum
    omega
  constructor
  · intro user hmem
    refine ⟨user, hmem, rfl, Or.inr ⟨rfl, hmedia ?_⟩⟩
    rw [MediaItem.bytesOf, MediaItem.bytesOf, huser, hbytes]
  · refine ⟨⟨0, 0⟩, ?_⟩
    have htotal : (s.setItem after).totalMediaBytes = s.totalMediaBytes := hmedia hbytes
    rw [htotal, Int.sub_self]
    rfl
  · exact fun h => originalsOnce_setItem h (honce (h item (Table.get_eq_some_iff.mp hget).1))

/-- An item keeps the copies that are not removed. -/
theorem bytes_removed {item after : MediaItem} {removed : MediaSize → Bool}
    (hsizes : after.sizes = item.sizes.filter fun size => !removed size) :
    after.bytes = item.bytes + -totalBytes (item.sizes.filter removed) := by
  have hsplit := totalBytes_filter removed item.sizes
  rw [← hsizes] at hsplit
  change totalBytes after.sizes = totalBytes item.sizes + _
  omega

theorem OneOriginal.of_filter {item after : MediaItem} {kept : MediaSize → Bool}
    (hsizes : after.sizes = item.sizes.filter kept) (h : OneOriginal item) :
    OneOriginal after := by
  unfold OneOriginal
  rw [hsizes]
  exact (List.filter_sublist.countP_le).trans h

theorem affectedMedia_eq_ok {media : Nat → Option MediaItem} {currentUser : Content.User}
    {id : Option Nat} {affected : MediaItem}
    (h : affectedMedia media currentUser id = .ok affected) :
    ∃ mediaId, media mediaId = some affected := by
  simp only [affectedMedia, checks_eq_ok, okOr_eq_ok, pure_eq_ok] at h
  obtain ⟨mediaId, _, found, hfound, _, _, rfl⟩ := h
  exact ⟨mediaId, hfound⟩

theorem get_of_affected {currentUser : Content.User} {id : Option Nat} {affected : MediaItem}
    (h : affectedMedia s.getMedia currentUser id = .ok affected) :
    s.media.get affected.id = some affected := by
  obtain ⟨mediaId, hget⟩ := affectedMedia_eq_ok h
  have hid := Table.key_of_get hget
  rw [hid]
  exact hget

theorem accounted_upload (userId : Nat) (request : UploadRequest) :
    Accounted s (s.upload now userId request) := by
  unfold MediaStore.upload
  split
  · split
    · exact .refl s
    · have hsum (w : MediaItem → Int) :
          ((s.media.insert (request.item userId) (request.item_id userId)).rows.map w).sum =
            (s.media.rows.map w).sum + w (request.item userId s.media.next) :=
        s.media.sum_insert (request.item userId) (request.item_id userId) w
      have hbytes : (request.item userId s.media.next).bytes = request.uploadedBytes :=
        Int.add_zero _
      refine accounted_account ?_ ?_ ?_
      · rw [hsum, hbytes]
        rfl
      · intro other howner
        have hzero : (request.item userId s.media.next).bytesOf other = 0 := if_neg howner
        rw [hsum, hzero, Int.add_zero]
        rfl
      · intro h item hitem
        rw [Serial.rows_insert, List.mem_append, List.mem_singleton] at hitem
        rcases hitem with hold | rfl
        · exact h item hold
        · exact Nat.le_refl 1
  · exact .refl s

theorem accounted_convert {item : MediaItem} (hget : s.media.get item.id = some item)
    (run : ConversionRun) (h : OriginalsOnce s) : Accounted s (s.convert now item run) := by
  unfold MediaStore.convert
  split
  · split
    · rename_i converted hconverted
      have hone := h item (Table.get_eq_some_iff.mp hget).1
      have hbytes := convertedBytes_eq hone hconverted
      obtain ⟨hid, huser⟩ : converted.id = item.id ∧ converted.userId = item.userId := by
        rcases convertMedia_eq_ok hconverted with hretag | hregenerate
        · exact retagMedia_same hretag
        · exact regenerate_same hregenerate
      refine accounted_setItem hget hid huser rfl (by omega) fun _ => ?_
      rcases convertMedia_eq_ok hconverted with hretag | hregenerate
      · exact oneOriginal_retagMedia hone hretag
      · exact oneOriginal_regenerate hregenerate
    · exact .refl s
  · exact .refl s

theorem accounted_update (currentUser : Content.User) (request : MediaRequest) :
    Accounted s (s.update now currentUser request) := by
  unfold MediaStore.update
  split
  · rename_i edit hedit
    simp only [updateMedia, checks_eq_ok, pure_eq_ok] at hedit
    obtain ⟨affected, haffected, visibility, _, metadata, _, rfl⟩ := hedit
    have hget := get_of_affected haffected
    split
    · rename_i hremoved
      refine accounted_setItem_self hget rfl rfl ?_ (OneOriginal.of_filter rfl)
      have hnone : affected.sizes.filter (outdated affected metadata) = [] := hremoved
      have hremains (after : MediaItem) (hsizes : after.sizes = affected.sizes.filter
          fun size => !outdated affected metadata size) : after.bytes = affected.bytes + -0 := by
        rw [bytes_removed hsizes, hnone]
        rfl
      refine (hremains _ rfl).trans ?_
      exact Int.add_zero _
    · exact accounted_setItem hget rfl rfl rfl (bytes_removed rfl) (OneOriginal.of_filter rfl)
  · exact .refl s

theorem accounted_deleteSizes (currentUser : Content.User) (request : MediaRequest) :
    Accounted s (s.deleteSizes now currentUser request) := by
  unfold MediaStore.deleteSizes
  split
  · rename_i edit hedit
    simp only [deleteMediaSizes, checks_eq_ok, require_eq_ok, pure_eq_ok] at hedit
    obtain ⟨affected, haffected, _, _, rfl⟩ := hedit
    refine accounted_setItem (get_of_affected haffected) rfl rfl rfl ?_ (OneOriginal.of_filter rfl)
    refine bytes_removed ?_
    simp
  · exact .refl s

theorem accounted_deleteMedia (currentUser : Content.User) (id : Option Nat) :
    Accounted s (s.deleteMedia now currentUser id) := by
  unfold MediaStore.deleteMedia
  split
  · rename_i affected haffected
    have hget := get_of_affected haffected
    refine accounted_account ?_ ?_ ?_
    · have hsum := s.media.sum_delete_key MediaItem.bytes hget
      unfold MediaStore.totalMediaBytes
      omega
    · intro userId howner
      have hsum := s.media.sum_delete_key (MediaItem.bytesOf userId) hget
      rw [MediaItem.bytesOf, if_neg howner] at hsum
      unfold MediaStore.mediaStorageBytesUsed
      omega
    · exact fun h item hitem => h item (List.mem_of_mem_filter hitem)
  · exact .refl s

theorem accounted_strip {item : MediaItem} (hget : s.media.get item.id = some item)
    (stripped : MediaSize → Bool) : Accounted s (s.strip now item stripped) :=
  accounted_setItem hget rfl rfl rfl (bytes_removed rfl) (OneOriginal.of_filter rfl)

/-- Every operation accounts for what it changes. -/
theorem accounted_step (h : OriginalsOnce s) (action : StoreOp × Timestamp) :
    Accounted s (s.step action) := by
  obtain ⟨op, now⟩ := action
  have hitem {f : MediaItem → MediaStore} {id : Nat}
      (hf : ∀ item, s.media.get item.id = some item → Accounted s (f item)) :
      Accounted s (((s.getMedia id).map f).getD s) := by
    cases hget : s.getMedia id with
    | none => exact .refl s
    | some item =>
      have hid : item.id = id := Table.key_of_get hget
      exact hf item (hid ▸ hget)
  cases op with
  | upload userId request => exact accounted_upload userId request
  | convert id run => exact hitem fun item hget => accounted_convert hget run h
  | update currentUser request => exact accounted_update currentUser request
  | deleteSizes currentUser request => exact accounted_deleteSizes currentUser request
  | delete currentUser id => exact accounted_deleteMedia currentUser id
  | stripDerivedAudio id originalStored =>
    refine hitem fun item hget => ?_
    unfold MediaStore.stripDerivedAudioSizes
    split
    · exact accounted_strip hget derivedSize
    · exact .refl s
  | stripQuicktime id originalStored =>
    refine hitem fun item hget => ?_
    unfold MediaStore.stripQuicktimeResizedSizes
    split
    · exact accounted_strip hget quicktimeSize
    · exact .refl s

end

/-- Media settings but for the usage that the operations account for. -/
def otherSettings (settings : MediaSettings) : MediaSettings :=
  { settings with serverMediaUsageBytes := 0, serverMediaUsageCalculatedAt := none }

/-- The usage that is reported is the total, and each user has the sum of their media. -/
structure Accurate (s : MediaStore) : Prop where
  reported : (s.mediaSettings.serverMediaUsageBytes.toNat : Int) = s.totalMediaBytes
  users : ∀ user ∈ s.users.rows, user.mediaStorageBytesUsed = s.mediaStorageBytesUsed user.id

/-- The counters are right, and the other settings are those that were stored at the start. -/
structure WellAccounted (start : ServerConfigurationRow) (s : MediaStore) : Prop
    extends Accurate s where
  settings : ∀ before, readColumn start.mediaSettings = some before →
    ∃ after, readColumn s.config.mediaSettings = some after ∧
      otherSettings after = otherSettings before

/-- The stored settings, if there are any, have both allocations. -/
def HasAllocations (config : ServerConfigurationRow) : Prop :=
  ∀ settings, readColumn config.mediaSettings = some settings →
    settings.defaultUserMediaAllocationBytes ≠ 0 ∧ settings.serverMediaAllocationBytes ≠ 0

/-- What the copies take up is summed in 64 bits. -/
def Summable (s : MediaStore) : Prop := 0 ≤ s.totalMediaBytes ∧ s.totalMediaBytes < 2 ^ 63

/-- An operation leaves how much all copies take up. -/
def KeepsTotal (s : MediaStore) (action : StoreOp × Timestamp) : Prop :=
  (s.step action).totalMediaBytes = s.totalMediaBytes

section

variable {s s' : MediaStore} {start : ServerConfigurationRow}

theorem readColumn_updateMediaSettings (config : ServerConfigurationRow)
    (f : MediaSettings → MediaSettings) :
    readColumn (updateMediaSettings config f).mediaSettings =
      some (f (normalizedMediaSettings config.mediaSettings)) := rfl

/-- What an adjustment leaves of the stored settings. -/
theorem mediaSettings_adjust {config : ServerConfigurationRow} {delta : Int64} {now : Timestamp}
    (hdelta : delta ≠ 0) :
    readColumn (adjustServerMediaUsageBytes delta now config).mediaSettings =
      some { normalizedMediaSettings config.mediaSettings with
        serverMediaUsageBytes := adjustedUsageBytes
          (normalizedMediaSettings config.mediaSettings).serverMediaUsageBytes delta
        serverMediaUsageCalculatedAt := some now } := by
  rw [adjustServerMediaUsageBytes, if_neg hdelta, readColumn_updateMediaSettings]

/-- A change of a total that is summed in 64 bits is no change only if it is zero. -/
theorem ofInt_ne_zero (hs : Summable s) (hs' : Summable s')
    (hchanged : s'.totalMediaBytes ≠ s.totalMediaBytes) :
    Int64.ofInt (s'.totalMediaBytes - s.totalMediaBytes) ≠ 0 := by
  intro hzero
  have hint : (Int64.ofInt (s'.totalMediaBytes - s.totalMediaBytes)).toInt =
      s'.totalMediaBytes - s.totalMediaBytes := by
    obtain ⟨hnonneg, hbound⟩ := hs
    obtain ⟨hnonneg', hbound'⟩ := hs'
    rw [Int64.toInt_ofInt, Int64.size]
    apply Int.bmod_eq_of_le <;> omega
  rw [hzero] at hint
  have hnothing : (0 : Int64).toInt = 0 := rfl
  omega

/-- An operation that keeps the total keeps the configuration. -/
theorem Accounted.config_eq (h : Accounted s s')
    (htotal : s'.totalMediaBytes = s.totalMediaBytes) : s'.config = s.config := by
  obtain ⟨now, hconfig⟩ := h.config
  rw [hconfig, htotal, Int.sub_self]
  rfl

/-- The stored settings after an operation that changes the total. -/
theorem Accounted.settings_eq (h : Accounted s s') (hs : Summable s) (hs' : Summable s')
    (hchanged : s'.totalMediaBytes ≠ s.totalMediaBytes) :
    ∃ now, readColumn s'.config.mediaSettings = some { s.mediaSettings with
      serverMediaUsageBytes := adjustedUsageBytes s.mediaSettings.serverMediaUsageBytes
        (Int64.ofInt (s'.totalMediaBytes - s.totalMediaBytes))
      serverMediaUsageCalculatedAt := some now } := by
  obtain ⟨now, hconfig⟩ := h.config
  refine ⟨now, ?_⟩
  rw [hconfig]
  exact mediaSettings_adjust (ofInt_ne_zero hs hs' hchanged)

/-- Every operation keeps the counters right. -/
theorem Accounted.accurate (h : Accounted s s') (hs : Summable s) (hs' : Summable s')
    (haccurate : Accurate s) : Accurate s' := by
  constructor
  · by_cases htotal : s'.totalMediaBytes = s.totalMediaBytes
    · have hsame : s'.mediaSettings = s.mediaSettings :=
        congrArg (fun config : ServerConfigurationRow => normalizedMediaSettings config.mediaSettings)
          (h.config_eq htotal)
      rw [hsame, htotal]
      exact haccurate.reported
    · obtain ⟨now, hsettings⟩ := h.settings_eq hs hs' htotal
      obtain ⟨hdefault, hserver⟩ := normalizedMediaSettings_allocations s.config.mediaSettings
      have hnormalized := normalizedMediaSettings_of_allocations hsettings hdefault hserver
      unfold MediaStore.mediaSettings
      rw [hnormalized]
      obtain ⟨_, hbound⟩ := hs
      obtain ⟨hnonneg', hbound'⟩ := hs'
      refine (toNat_adjustedUsageBytes haccurate.reported hbound ?_ ?_).trans ?_ <;> omega
  · intro after hafter
    obtain ⟨user, hmem, hid, hsummed | ⟨hkept, hsum⟩⟩ := h.users after hafter
    · exact hsummed
    · rw [hkept, hsum, ← hid]
      exact haccurate.users user hmem

/-- An operation keeps to what is stored exactly if it has the allocations to keep, or keeps the
total. -/
theorem Accounted.wellAccounted_iff (h : Accounted s s') (hs : Summable s) (hs' : Summable s')
    (hlaw : WellAccounted start s)
    (hnone : readColumn start.mediaSettings = none → HasAllocations s.config) :
    WellAccounted start s' ↔
      s'.totalMediaBytes = s.totalMediaBytes ∨ HasAllocations s.config := by
  have haccurate := h.accurate hs hs' hlaw.toAccurate
  by_cases htotal : s'.totalMediaBytes = s.totalMediaBytes
  · refine iff_of_true ⟨haccurate, ?_⟩ (Or.inl htotal)
    rw [h.config_eq htotal]
    exact hlaw.settings
  obtain ⟨now, hsettings⟩ := h.settings_eq hs hs' htotal
  rw [or_iff_right htotal]
  constructor
  · rintro ⟨_, hkept⟩
    cases hstart : readColumn start.mediaSettings with
    | none => exact hnone hstart
    | some before =>
      obtain ⟨old, hold, hsame⟩ := hlaw.settings before hstart
      obtain ⟨after, hafter, hsame'⟩ := hkept before hstart
      intro settings hread
      obtain rfl := Option.some.inj (hold.symm.trans hread)
      obtain rfl := Option.some.inj (hsettings.symm.trans hafter)
      obtain ⟨hdefault, hserver⟩ := normalizedMediaSettings_allocations s.config.mediaSettings
      have heq := hsame'.trans hsame.symm
      have hdefaults := congrArg MediaSettings.defaultUserMediaAllocationBytes heq
      have hservers := congrArg MediaSettings.serverMediaAllocationBytes heq
      exact ⟨fun hzero => hdefault (hdefaults.trans hzero),
        fun hzero => hserver (hservers.trans hzero)⟩
  · intro hallocations
    refine ⟨haccurate, fun before hstart => ⟨_, hsettings, ?_⟩⟩
    obtain ⟨old, hold, hsame⟩ := hlaw.settings before hstart
    obtain ⟨hdefault, hserver⟩ := hallocations old hold
    have hnormalized : s.mediaSettings = old :=
      normalizedMediaSettings_of_allocations hold hdefault hserver
    rw [← hsame, hnormalized]
    rfl

/-- Allocations, once they are there, stay. -/
theorem Accounted.hasAllocations (h : Accounted s s') (hs : Summable s) (hs' : Summable s')
    (hallocations : HasAllocations s.config) : HasAllocations s'.config := by
  by_cases htotal : s'.totalMediaBytes = s.totalMediaBytes
  · rw [h.config_eq htotal]
    exact hallocations
  · obtain ⟨now, hsettings⟩ := h.settings_eq hs hs' htotal
    intro settings hread
    obtain rfl := Option.some.inj (hsettings.symm.trans hread)
    exact normalizedMediaSettings_allocations s.config.mediaSettings

end

/-- An operation finds allocations or keeps the total exactly if the run started with allocations or
all of its operations so far kept the total. -/
theorem along_keepsTotal_iff {s : MediaStore} {actions : List (StoreOp × Timestamp)}
    (honce : OriginalsOnce s)
    (hrun : Along MediaStore.step (fun s a => Summable s ∧ Summable (s.step a)) s actions) :
    Along MediaStore.step (fun s a => KeepsTotal s a ∨ HasAllocations s.config) s actions ↔
      HasAllocations s.config ∨ Along MediaStore.step KeepsTotal s actions := by
  constructor
  · intro halong
    by_cases hstart : HasAllocations s.config
    · exact Or.inl hstart
    have hunchanged := (along_iff_of_invariant
      (I := fun t : MediaStore => OriginalsOnce t ∧ ¬ HasAllocations t.config)
      (Q := KeepsTotal) ?_ ?_ ⟨honce, hstart⟩ actions).mp halong
    · exact Or.inr hunchanged
    · rintro t action ⟨hone, hnone⟩ hkeeps
      have haccounted := accounted_step hone action
      rw [haccounted.config_eq (hkeeps.resolve_right hnone)]
      exact ⟨haccounted.originals hone, hnone⟩
    · rintro t action ⟨_, hnone⟩
      exact or_iff_left hnone
  · rintro (hstart | hkeeps)
    · refine hrun.of_invariant (I := fun t => OriginalsOnce t ∧ HasAllocations t.config) ?_
        ⟨honce, hstart⟩
      rintro t action ⟨hone, hallocations⟩ ⟨hs, hs'⟩
      have haccounted := accounted_step hone action
      exact ⟨Or.inr hallocations, haccounted.originals hone,
        haccounted.hasAllocations hs hs' hallocations⟩
    · exact hkeeps.of_invariant (I := fun _ => True) (fun _ _ _ h => ⟨Or.inl h, trivial⟩) trivial

/-- The counters stay right and the other settings stay what the admin stored, throughout any run of
operations one after the other, exactly if the settings have both allocations or no operation
changes how much the copies take up. -/
theorem wellAccounted_throughout_iff {s : MediaStore} {actions : List (StoreOp × Timestamp)}
    (haccurate : Accurate s) (honce : OriginalsOnce s)
    (hsum : Throughout MediaStore.step Summable s actions) :
    Throughout MediaStore.step (WellAccounted s.config) s actions ↔
      HasAllocations s.config ∨ Along MediaStore.step KeepsTotal s actions := by
  rw [← along_keepsTotal_iff honce hsum.along]
  refine throughout_iff_along_of (I := fun t => OriginalsOnce t ∧
    (readColumn s.config.mediaSettings = none → HasAllocations t.config)) ?_ ?_ ⟨honce, ?_⟩
    ⟨haccurate, fun before hbefore => ⟨before, hbefore, rfl⟩⟩ hsum.along
  · rintro t action ⟨hone, hnone⟩ ⟨hs, hs'⟩
    have haccounted := accounted_step hone action
    exact ⟨haccounted.originals hone,
      fun hstart => haccounted.hasAllocations hs hs' (hnone hstart)⟩
  · rintro t action ⟨hone, hnone⟩ ⟨hs, hs'⟩ hlaw
    exact (accounted_step hone action).wellAccounted_iff hs hs' hlaw hnone
  · intro hnone settings hread
    rw [hnone] at hread
    cases hread

/-- A server without media, whose settings were stored with some allocation for new users. -/
def storeOf (defaultBytes : UInt64) : MediaStore where
  media := .empty
  users := ⟨[⟨1, none, 0⟩], nodup_firstId⟩
  config :=
    { defaultServerConfiguration with
      id := 1
      mediaSettings := some (.message {
        defaultUserMediaAllocationBytes := defaultBytes
        serverMediaAllocationBytes := 1000
        hlsStreamingEnabled := true }) }

def picture : StoreOp × Timestamp :=
  (.upload 1 ⟨"a.png", "image/png", "user/1/a.png", 3⟩, ⟨0, 0⟩)

theorem storeOf_accurate {defaultBytes : UInt64}
    (h : (storeOf defaultBytes).mediaSettings.serverMediaUsageBytes = 0) :
    Accurate (storeOf defaultBytes) := by
  constructor
  · rw [h]
    rfl
  · intro user hmem
    obtain rfl := List.mem_singleton.mp hmem
    rfl

theorem storeOf_originalsOnce (defaultBytes : UInt64) : OriginalsOnce (storeOf defaultBytes) := by
  intro item hmem
  cases hmem

/-- An upload to a server with allocations is accounted for. -/
theorem upload_wellAccounted : Throughout MediaStore.step (WellAccounted (storeOf 100).config)
    (storeOf 100) [picture] := by
  have hsum : Throughout MediaStore.step Summable (storeOf 100) [picture] := by
    refine ⟨⟨?_, ?_⟩, ?_, ?_⟩ <;> decide +kernel
  refine (wellAccounted_throughout_iff (storeOf_accurate (by decide +kernel))
    (storeOf_originalsOnce 100) hsum).mpr (Or.inl fun settings hread => ?_)
  obtain rfl := Option.some.inj hread
  decide +kernel

/-- An upload to a server that gives new users no storage turns streaming off. -/
theorem upload_resets_settings : ¬ ∀ (s : MediaStore) (actions : List (StoreOp × Timestamp)),
    Accurate s → OriginalsOnce s → Throughout MediaStore.step Summable s actions →
    Throughout MediaStore.step (WellAccounted s.config) s actions := by
  intro h
  have hsum : Throughout MediaStore.step Summable (storeOf 0) [picture] := by
    refine ⟨⟨?_, ?_⟩, ?_, ?_⟩ <;> decide +kernel
  have hlaw := h (storeOf 0) [picture] (storeOf_accurate (by decide +kernel))
    (storeOf_originalsOnce 0) hsum
  obtain ⟨after, hafter, hsame⟩ := hlaw.2.settings _ rfl
  have hstreaming : (readColumn ((storeOf 0).step picture).config.mediaSettings).map
      (·.hlsStreamingEnabled) = some false := by
    decide +kernel
  rw [hafter, Option.map_some, Option.some.injEq] at hstreaming
  have hkept : after.hlsStreamingEnabled = true := congrArg MediaSettings.hlsStreamingEnabled hsame
  rw [hstreaming] at hkept
  cases hkept

end Rellm.Media
