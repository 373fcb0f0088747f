import Rellm.Foundation.Run
import Rellm.Media.Store

/-!
# Upload quotas

Uploads that run at the same time. Each checks its file against the user row it loaded before the
file was stored, and against the usage that is recorded when it checks; what others store in
between, or have stored but not yet counted, is not seen.
-/

namespace Rellm.Media

open Foundation Content

/-- Where an upload is: its user is loaded, its file is stored, it has checked the limits against a
usage, its row is inserted, the sum of its user is read, the sum is stored. -/
inductive UploadPhase where
  | loaded
  | stored
  | checked (serverUsageBytes : UInt64)
  | inserted
  | summed (bytesUsed : Int)
  | updated
  deriving DecidableEq, Repr

/-- An upload in progress, with the user row that it loaded. -/
structure UploadCall where
  id : Nat
  request : UploadRequest
  user : StorageUser
  phase : UploadPhase
  deriving DecidableEq, Repr

/-- The media, the stored files, and the uploads in progress. -/
structure Uploading where
  store : MediaStore
  objects : List String
  uploads : Table UploadCall.id

/-- A step of an upload. -/
inductive UploadStep where
  | load (id userId : Nat) (request : UploadRequest)
  | put (id : Nat)
  | check (id : Nat)
  | insert (id : Nat)
  | sum (id : Nat)
  | storeSum (id : Nat)
  | adjust (id : Nat) (now : Timestamp)
  deriving DecidableEq, Repr

namespace UploadCall

/-- What the step of an upload leaves. -/
def put (upload : UploadCall) (s : Uploading) : Uploading :=
  { s with
    objects := upload.request.objectStoragePath :: s.objects
    uploads := s.uploads.put { upload with phase := .stored } }

/-- The limits are checked; a file that would exceed one is deleted. -/
def check (upload : UploadCall) (s : Uploading) : Uploading :=
  if upload.user.exceeded upload.request.uploadedBytes ∨
      allocationExceeded s.store.mediaSettings upload.request.uploadedBytes then
    { s with
      objects := s.objects.erase upload.request.objectStoragePath
      uploads := s.uploads.delete fun other => other.id = upload.id }
  else
    { s with
      uploads := s.uploads.put { upload with
        phase := .checked s.store.mediaSettings.serverMediaUsageBytes } }

def insert (upload : UploadCall) (s : Uploading) : Uploading :=
  { s with
    store := s.store.insertMedia upload.user.id upload.request
    uploads := s.uploads.put { upload with phase := .inserted } }

def sum (upload : UploadCall) (s : Uploading) : Uploading :=
  { s with
    uploads := s.uploads.put { upload with
      phase := .summed (s.store.mediaStorageBytesUsed upload.user.id) } }

def storeSum (upload : UploadCall) (bytesUsed : Int) (s : Uploading) : Uploading :=
  { s with
    store := { s.store with
      users := s.store.users.update (fun user => user.id = upload.user.id)
        (fun user => { user with mediaStorageBytesUsed := bytesUsed }) fun _ => rfl }
    uploads := s.uploads.put { upload with phase := .updated } }

def adjust (upload : UploadCall) (now : Timestamp) (s : Uploading) : Uploading :=
  { s with
    store := { s.store with
      config := adjustServerMediaUsageBytes (Int64.ofNat upload.request.uploadedBytes) now
        s.store.config }
    uploads := s.uploads.delete fun other => other.id = upload.id }

end UploadCall

namespace Uploading

/-- The steps of uploads in any order; an upload takes no step out of its own order. -/
def step (s : Uploading) : UploadStep → Uploading
  | .load id userId request =>
    match s.uploads.get id, s.store.users.get userId with
    | none, some user => { s with uploads := s.uploads.put ⟨id, request, user, .loaded⟩ }
    | _, _ => s
  | .put id =>
    match s.uploads.get id with
    | some upload => if upload.phase = .loaded then upload.put s else s
    | none => s
  | .check id =>
    match s.uploads.get id with
    | some upload => if upload.phase = .stored then upload.check s else s
    | none => s
  | .insert id =>
    match s.uploads.get id with
    | some upload =>
      match upload.phase with
      | .checked _ => upload.insert s
      | _ => s
    | none => s
  | .sum id =>
    match s.uploads.get id with
    | some upload => if upload.phase = .inserted then upload.sum s else s
    | none => s
  | .storeSum id =>
    match s.uploads.get id with
    | some upload =>
      match upload.phase with
      | .summed bytesUsed => upload.storeSum bytesUsed s
      | _ => s
    | none => s
  | .adjust id now =>
    match s.uploads.get id with
    | some upload => if upload.phase = .updated then upload.adjust now s else s
    | none => s

/-- No upload is in progress. -/
def start (store : MediaStore) : Uploading := ⟨store, [], .empty⟩

end Uploading

/-- How much of an item was uploaded by a user. -/
def MediaItem.originalBytesOf (userId : Nat) (item : MediaItem) : Int :=
  if item.userId = some userId then
    totalBytes (item.sizes.filter fun size => size.conversion = .original)
  else 0

def MediaStore.originalBytes (s : MediaStore) (userId : Nat) : Int :=
  (s.media.rows.map (MediaItem.originalBytesOf userId)).sum

/-- What a user uploaded is within their limit, and all media are within what the server has for
them. -/
structure WithinQuotas (s : MediaStore) : Prop where
  users : ∀ user ∈ s.users.rows, ∀ limit, user.mediaStorageLimitBytes = some limit →
    s.originalBytes user.id ≤ limit.toInt
  server : s.totalMediaBytes ≤ s.mediaSettings.serverMediaAllocationBytes.toNat

/-- What the checks of an upload did not count fits into what they left: beside the loaded counter of
its user and the usage it checked against there is no more than the room beyond the file. -/
def RoomLeft (s : Uploading) : UploadStep → Prop
  | .insert id => ∀ upload ∈ s.uploads.rows, upload.id = id →
      ∀ serverUsageBytes, upload.phase = .checked serverUsageBytes →
      (∀ limit, upload.user.mediaStorageLimitBytes = some limit →
        s.store.originalBytes upload.user.id - upload.user.mediaStorageBytesUsed ≤
          limit.toInt - (upload.user.mediaStorageBytesUsed + upload.request.uploadedBytes)) ∧
      s.store.totalMediaBytes - serverUsageBytes.toNat ≤
        s.store.mediaSettings.serverMediaAllocationBytes.toNat -
          (serverUsageBytes.toNat + upload.request.uploadedBytes)
  | _ => True

/-- The limits in the rows that uploads loaded are those of their users. -/
def LimitsLoaded (s : Uploading) : Prop :=
  ∀ upload ∈ s.uploads.rows, ∃ user, s.store.users.get upload.user.id = some user ∧
    user.mediaStorageLimitBytes = upload.user.mediaStorageLimitBytes

/-- The media, the limits and the allocation stay as they are. -/
structure SameQuotas (s s' : MediaStore) : Prop where
  media : s'.media = s.media
  limits : ∀ id, (s'.users.get id).map (·.mediaStorageLimitBytes) =
    (s.users.get id).map (·.mediaStorageLimitBytes)
  allocation : s'.mediaSettings.serverMediaAllocationBytes =
    s.mediaSettings.serverMediaAllocationBytes

section

variable {s s' : MediaStore}

theorem SameQuotas.refl (s : MediaStore) : SameQuotas s s := ⟨rfl, fun _ => rfl, rfl⟩

theorem WithinQuotas.of_same (h : SameQuotas s s') (hlaw : WithinQuotas s) : WithinQuotas s' := by
  constructor
  · intro user hmem limit hlimit
    have hlimits := h.limits user.id
    rw [Table.mem_rows_iff.mp hmem, Option.map_some] at hlimits
    obtain ⟨old, hold, hsame⟩ := Option.map_eq_some_iff.mp hlimits.symm
    obtain ⟨hmem', hid⟩ := Table.get_eq_some_iff.mp hold
    have hwithin := hlaw.users old hmem' limit (hsame.trans hlimit)
    unfold MediaStore.originalBytes at hwithin ⊢
    rwa [h.media, ← hid]
  · have hserver := hlaw.server
    unfold MediaStore.totalMediaBytes at hserver ⊢
    rwa [h.media, h.allocation]

/-- Storing a sum changes no limit. -/
theorem sameQuotas_updateUsed (userId : Nat) (bytesUsed : Int) :
    SameQuotas s { s with
      users := s.users.update (fun user => user.id = userId)
        (fun user => { user with mediaStorageBytesUsed := bytesUsed }) fun _ => rfl } := by
  refine ⟨rfl, fun id => ?_, rfl⟩
  dsimp only
  rw [Table.get_update, Option.map_map]
  congr 1
  funext user
  rw [Function.comp_apply]
  split <;> rfl

/-- Adjusting the usage keeps the allocation. -/
theorem sameQuotas_adjust (delta : Int64) (now : Timestamp) :
    SameQuotas s { s with config := adjustServerMediaUsageBytes delta now s.config } := by
  refine ⟨rfl, fun _ => rfl, ?_⟩
  unfold MediaStore.mediaSettings
  by_cases hdelta : delta = 0
  · simp only [adjustServerMediaUsageBytes, hdelta, if_true]
  · obtain ⟨hdefault, hserver⟩ := normalizedMediaSettings_allocations s.config.mediaSettings
    have hadjusted :
        readColumn (adjustServerMediaUsageBytes delta now s.config).mediaSettings =
          some { normalizedMediaSettings s.config.mediaSettings with
            serverMediaUsageBytes := adjustedUsageBytes
              (normalizedMediaSettings s.config.mediaSettings).serverMediaUsageBytes delta
            serverMediaUsageCalculatedAt := some now } := by
      simp only [adjustServerMediaUsageBytes, if_neg hdelta]
      rfl
    rw [normalizedMediaSettings_of_allocations hadjusted hdefault hserver]

/-- The bytes that an inserted upload adds. -/
theorem bytes_insertMedia (userId : Nat) (request : UploadRequest) :
    (s.insertMedia userId request).totalMediaBytes =
        s.totalMediaBytes + request.uploadedBytes ∧
      ∀ other, (s.insertMedia userId request).originalBytes other =
        s.originalBytes other + if other = userId then (request.uploadedBytes : Int) else 0 := by
  have hsum (w : MediaItem → Int) : ((s.insertMedia userId request).media.rows.map w).sum =
      (s.media.rows.map w).sum + w (request.item userId s.media.next) :=
    s.media.sum_insert (request.item userId) (request.item_id userId) w
  constructor
  · unfold MediaStore.totalMediaBytes
    rw [hsum]
    exact congrArg (_ + ·) (Int.add_zero _)
  · intro other
    unfold MediaStore.originalBytes
    rw [hsum]
    by_cases hother : other = userId
    · subst hother
      have hone : (request.item other s.media.next).originalBytesOf other =
          request.uploadedBytes := (if_pos rfl).trans (Int.add_zero _)
      rw [if_pos rfl, hone]
    · have hzero : (request.item userId s.media.next).originalBytesOf other = 0 :=
        if_neg fun heq => hother (Option.some.inj heq).symm
      rw [if_neg hother, hzero]

/-- An upload may be inserted within the quotas exactly if there is room for it beside what is
stored. -/
theorem withinQuotas_insert_iff {user : StorageUser} {request : UploadRequest}
    (hlaw : WithinQuotas s) (huser : s.users.get user.id = some user) :
    WithinQuotas (s.insertMedia user.id request) ↔
      (∀ limit, user.mediaStorageLimitBytes = some limit →
        s.originalBytes user.id + request.uploadedBytes ≤ limit.toInt) ∧
      s.totalMediaBytes + request.uploadedBytes ≤
        s.mediaSettings.serverMediaAllocationBytes.toNat := by
  obtain ⟨htotal, horiginal⟩ := bytes_insertMedia (s := s) user.id request
  constructor
  · rintro ⟨husers, hserver⟩
    rw [htotal] at hserver
    refine ⟨fun limit hlimit => ?_, hserver⟩
    have hwithin := husers user (Table.get_eq_some_iff.mp huser).1 limit hlimit
    rwa [horiginal, if_pos rfl] at hwithin
  · rintro ⟨hroom, hserver⟩
    refine ⟨fun other hmem limit hlimit => ?_, by rw [htotal]; exact hserver⟩
    rw [horiginal]
    split
    · rename_i hid
      obtain rfl := s.users.eq_of_key_eq hmem (Table.get_eq_some_iff.mp huser).1 hid
      exact hroom limit hlimit
    · rw [Int.add_zero]
      exact hlaw.users other hmem limit hlimit

end

section

variable {s : Uploading}

/-- An upload step keeps the quotas as they are or inserts a row of an upload. -/
theorem step_cases (s : Uploading) (action : UploadStep) :
    SameQuotas s.store (s.step action).store ∨
      ∃ id upload serverUsageBytes, action = .insert id ∧ s.uploads.get id = some upload ∧
        upload.phase = .checked serverUsageBytes ∧ s.step action = upload.insert s := by
  cases action with
  | load id userId request =>
    left
    dsimp only [Uploading.step]
    split <;> exact .refl _
  | put id =>
    left
    dsimp only [Uploading.step]
    split
    · split <;> exact .refl _
    · exact .refl _
  | check id =>
    left
    dsimp only [Uploading.step]
    split
    · split
      · unfold UploadCall.check
        split <;> exact .refl _
      · exact .refl _
    · exact .refl _
  | insert id =>
    dsimp only [Uploading.step]
    split
    · rename_i upload hupload
      split
      · rename_i serverUsageBytes hchecked
        exact Or.inr ⟨id, upload, serverUsageBytes, rfl, hupload, hchecked, rfl⟩
      · exact Or.inl (.refl _)
    · exact Or.inl (.refl _)
  | sum id =>
    left
    dsimp only [Uploading.step]
    split
    · split <;> exact .refl _
    · exact .refl _
  | storeSum id =>
    left
    dsimp only [Uploading.step]
    split
    · rename_i upload hupload
      split
      · exact sameQuotas_updateUsed _ _
      · exact .refl _
    · exact .refl _
  | adjust id now =>
    left
    dsimp only [Uploading.step]
    split
    · split
      · exact sameQuotas_adjust _ _
      · exact .refl _
    · exact .refl _

/-- The uploads after a step are those that were there, in whatever phase, or one that just loaded
its user. -/
theorem uploads_step (s : Uploading) (action : UploadStep) :
    ∀ upload ∈ (s.step action).uploads.rows,
      (∃ old ∈ s.uploads.rows, old.user = upload.user) ∨
        s.store.users.get upload.user.id = some upload.user := by
  have hput {old : UploadCall} {id : Nat} (hold : s.uploads.get id = some old)
      (phase : UploadPhase) : ∀ upload ∈ (s.uploads.put { old with phase := phase }).rows,
      (∃ old ∈ s.uploads.rows, old.user = upload.user) ∨
        s.store.users.get upload.user.id = some upload.user := by
    intro upload hupload
    rcases s.uploads.mem_put.mp hupload with ⟨hmem, _⟩ | rfl
    · exact Or.inl ⟨upload, hmem, rfl⟩
    · exact Or.inl ⟨old, (Table.get_eq_some_iff.mp hold).1, rfl⟩
  have hsame : ∀ upload ∈ s.uploads.rows, (∃ old ∈ s.uploads.rows, old.user = upload.user) ∨
      s.store.users.get upload.user.id = some upload.user :=
    fun upload hupload => Or.inl ⟨upload, hupload, rfl⟩
  have hdelete (p : UploadCall → Bool) : ∀ upload ∈ (s.uploads.delete p).rows,
      (∃ old ∈ s.uploads.rows, old.user = upload.user) ∨
        s.store.users.get upload.user.id = some upload.user :=
    fun upload hupload => hsame upload (List.mem_of_mem_filter hupload)
  cases action with
  | load id userId request =>
    dsimp only [Uploading.step]
    split
    · rename_i user hnone huser
      intro upload hupload
      rcases s.uploads.mem_put.mp hupload with ⟨hmem, _⟩ | rfl
      · exact hsame upload hmem
      · refine Or.inr ?_
        rw [Table.key_of_get huser]
        exact huser
    · exact hsame
  | put id =>
    dsimp only [Uploading.step]
    split
    · rename_i old hold
      split
      · exact hput hold _
      · exact hsame
    · exact hsame
  | check id =>
    dsimp only [Uploading.step]
    split
    · rename_i old hold
      split
      · unfold UploadCall.check
        split
        · exact hdelete _
        · exact hput hold _
      · exact hsame
    · exact hsame
  | insert id =>
    dsimp only [Uploading.step]
    split
    · rename_i old hold
      split
      · exact hput hold _
      · exact hsame
    · exact hsame
  | sum id =>
    dsimp only [Uploading.step]
    split
    · rename_i old hold
      split
      · exact hput hold _
      · exact hsame
    · exact hsame
  | storeSum id =>
    dsimp only [Uploading.step]
    split
    · rename_i old hold
      split
      · exact hput hold _
      · exact hsame
    · exact hsame
  | adjust id now =>
    dsimp only [Uploading.step]
    split
    · split
      · exact hdelete _
      · exact hsame
    · exact hsame

/-- The limits of users stay, and so uploads keep the right ones. -/
theorem LimitsLoaded.step (h : LimitsLoaded s) (action : UploadStep) :
    LimitsLoaded (s.step action) := by
  have hlimits (id : Nat) : ((s.step action).store.users.get id).map (·.mediaStorageLimitBytes) =
      (s.store.users.get id).map (·.mediaStorageLimitBytes) := by
    rcases step_cases s action with hsame | ⟨_, _, _, _, _, _, hstep⟩
    · exact hsame.limits id
    · rw [hstep]
      rfl
  intro upload hupload
  have hloaded : ∃ user, s.store.users.get upload.user.id = some user ∧
      user.mediaStorageLimitBytes = upload.user.mediaStorageLimitBytes := by
    rcases uploads_step s action upload hupload with ⟨old, hold, huser⟩ | hread
    · rw [← huser]
      exact h old hold
    · exact ⟨upload.user, hread, rfl⟩
  obtain ⟨user, huser, hlimit⟩ := hloaded
  have hmap := hlimits upload.user.id
  rw [huser, Option.map_some] at hmap
  obtain ⟨now, hnow, hsame⟩ := Option.map_eq_some_iff.mp hmap
  exact ⟨now, hnow, hsame.trans hlimit⟩

/-- A step keeps the quotas exactly if it leaves room for what its upload did not count. -/
theorem withinQuotas_step_iff (h : LimitsLoaded s) (hlaw : WithinQuotas s.store)
    (action : UploadStep) : WithinQuotas (s.step action).store ↔ RoomLeft s action := by
  by_cases hinsert : ∃ id upload serverUsageBytes, action = .insert id ∧
      s.uploads.get id = some upload ∧ upload.phase = .checked serverUsageBytes
  · obtain ⟨id, upload, serverUsageBytes, rfl, hupload, hchecked⟩ := hinsert
    obtain ⟨hmem, hid⟩ := Table.get_eq_some_iff.mp hupload
    obtain ⟨user, huser, hlimit⟩ := h upload hmem
    have hkey : user.id = upload.user.id := Table.key_of_get huser
    have hstep : (s.step (.insert id)).store =
        s.store.insertMedia user.id upload.request := by
      dsimp only [Uploading.step]
      rw [hupload]
      dsimp only
      rw [hchecked, hkey]
      rfl
    rw [hstep, withinQuotas_insert_iff hlaw (hkey.symm ▸ huser), hlimit, hkey]
    constructor
    · rintro ⟨hroom, hserver⟩ other hother hother' usage husage
      obtain rfl := s.uploads.eq_of_key_eq hother hmem (hother'.trans hid.symm)
      refine ⟨fun limit hsome => ?_, ?_⟩
      · have := hroom limit hsome
        omega
      · omega
    · intro hroom
      obtain ⟨husers, hserver⟩ := hroom upload hmem hid serverUsageBytes hchecked
      refine ⟨fun limit hsome => ?_, ?_⟩
      · have := husers limit hsome
        omega
      · omega
  · have hsame : SameQuotas s.store (s.step action).store := by
      rcases step_cases s action with hsame | ⟨id, upload, usage, haction, hupload, hchecked, _⟩
      · exact hsame
      · exact absurd ⟨id, upload, usage, haction, hupload, hchecked⟩ hinsert
    refine iff_of_true (hlaw.of_same hsame) ?_
    cases action with
    | insert id =>
      intro upload hmem hid usage hchecked
      have hupload : s.uploads.get id = some upload := Table.get_eq_some_iff.mpr ⟨hmem, hid⟩
      exact absurd ⟨id, upload, usage, rfl, hupload, hchecked⟩ hinsert
    | load | put | check | sum | storeSum | adjust => exact trivial

end

/-- A server that has a user with 100 bytes, of which none are used. -/
def hundredBytes : MediaStore where
  media := .empty
  users := ⟨[⟨1, some 100, 0⟩], nodup_firstId⟩
  config :=
    { defaultServerConfiguration with
      id := 1
      mediaSettings := some (.message {
        defaultUserMediaAllocationBytes := 100
        serverMediaAllocationBytes := 1000 }) }

theorem hundredBytes_within : WithinQuotas hundredBytes := by
  constructor
  · intro user hmem limit hlimit
    obtain rfl := List.mem_singleton.mp hmem
    obtain rfl := Option.some.inj hlimit
    decide +kernel
  · decide +kernel

def sixtyBytes : UploadRequest := ⟨"a.png", "image/png", "user/1/a.png", 60⟩

end Rellm.Media
