import Rellm.Configuration.ConfigureServer

/-!
# What a new configuration version keeps

Fields that a request may not change are carried over from the version it
replaces, for every request, except where omitting a submessage clears it: the
media settings, and the cluster resources of a caller who may edit them.
-/

namespace Rellm

/-- The fields a new version keeps from the version it replaces. -/
structure CarriesForward (old new : ServerConfigurationRow) (request : ServerConfiguration)
    (user : User) : Prop where
  usageBytes : new.storedMediaSettings.serverMediaUsageBytes =
    old.storedMediaSettings.serverMediaUsageBytes
  usageCalculatedAt : new.storedMediaSettings.serverMediaUsageCalculatedAt =
    old.storedMediaSettings.serverMediaUsageCalculatedAt
  storageBytes : new.storedMediaSettings.serverObjectStorageUsageBytes =
    old.storedMediaSettings.serverObjectStorageUsageBytes
  storageCalculatedAt : new.storedMediaSettings.serverObjectStorageUsageCalculatedAt =
    old.storedMediaSettings.serverObjectStorageUsageCalculatedAt
  locks : new.conductorState.locks = old.conductorState.locks
  customCss : new.customCss = old.customCss
  customCssConfiguration : new.customCssConfiguration = old.customCssConfiguration
  allocation : holdsExactly user .editServerMediaAllocation = false →
    new.storedMediaSettings.serverMediaAllocationBytes =
      old.storedMediaSettings.serverMediaAllocationBytes
  cluster : holdsExactly user .editClusterSettings = false →
    new.storedClusterResources = old.storedClusterResources
  omittedMedia : request.mediaSettings = none →
    readColumn new.mediaSettings = readColumn old.mediaSettings

/-- The request omits no submessage whose omission clears something stored. -/
structure OmitsNothingStored (old : ServerConfigurationRow) (request : ServerConfiguration)
    (user : User) : Prop where
  media : request.mediaSettings = none → readColumn old.mediaSettings = none
  cluster : holdsExactly user .editClusterSettings = true → request.clusterResources = none →
    old.conductorState.locks = []

section

variable (existing : ServerConfigurationRow) (table : ServerConfigurations)
variable (request : ServerConfiguration) (user : User)

/-- The version committed for a request built from the row that was read. -/
def committed : ServerConfigurationRow :=
  (commitConfiguration table (buildConfiguration existing request user)).active

variable {request user}

/-- With media settings in the request, the stored ones are the incoming ones with
the usage fields, and possibly the allocation, of the row that was read. -/
theorem committed_storedMediaSettings_of_some (user : User) {incoming : MediaSettings}
    (h : request.mediaSettings = some incoming) :
    (committed existing table request user).storedMediaSettings =
      { incoming with
        serverMediaAllocationBytes :=
          if holdsExactly user .editServerMediaAllocation then
            incoming.serverMediaAllocationBytes
          else existing.storedMediaSettings.serverMediaAllocationBytes
        serverMediaUsageBytes := existing.storedMediaSettings.serverMediaUsageBytes
        serverMediaUsageCalculatedAt :=
          existing.storedMediaSettings.serverMediaUsageCalculatedAt
        serverObjectStorageUsageBytes :=
          existing.storedMediaSettings.serverObjectStorageUsageBytes
        serverObjectStorageUsageCalculatedAt :=
          existing.storedMediaSettings.serverObjectStorageUsageCalculatedAt } := by
  simp [committed, ServerConfigurationRow.storedMediaSettings, carriedMediaSettings, h,
    ServerConfigurationRow.storedMediaSettings]

/-- Without media settings in the request, none are stored. -/
theorem committed_mediaSettings_of_none (h : request.mediaSettings = none) :
    (committed existing table request user).mediaSettings = none := by
  simp [committed, carriedMediaSettings, h]

/-- A caller without `EDIT_CLUSTER_SETTINGS` leaves the cluster resources alone. -/
theorem committed_storedClusterResources_of_not_editor
    (h : holdsExactly user .editClusterSettings = false) :
    (committed existing table request user).storedClusterResources =
      existing.storedClusterResources := by
  simp [committed, ServerConfigurationRow.storedClusterResources, carriedClusterResources, h]

/-- Whoever sends cluster resources keeps the stored locks. -/
theorem committed_locks_of_some (user : User) {incoming : ClusterResources}
    (h : request.clusterResources = some incoming) :
    (committed existing table request user).conductorState.locks =
      existing.conductorState.locks := by
  cases hedit : holdsExactly user .editClusterSettings with
  | false =>
    rw [ServerConfigurationRow.conductorState, ServerConfigurationRow.conductorState,
      committed_storedClusterResources_of_not_editor existing table hedit]
  | true =>
    simp only [committed, ServerConfigurationRow.conductorState,
      ServerConfigurationRow.storedClusterResources, commitConfiguration_clusterResources,
      buildConfiguration_clusterResources, carriedClusterResources, hedit, h, if_true,
      Option.map_some, readColumn_some, Column.fromValue_toValue, Option.getD_some]
    cases readColumn existing.clusterResources with
    | none => rfl
    | some stored => cases hs : stored.conductorState <;> simp [hs]

/-- An editor of cluster settings who omits them clears them. -/
theorem committed_storedClusterResources_of_omitted
    (hedit : holdsExactly user .editClusterSettings = true)
    (h : request.clusterResources = none) :
    (committed existing table request user).storedClusterResources = none := by
  simp [committed, ServerConfigurationRow.storedClusterResources, carriedClusterResources,
    hedit, h]

/-- The media part of the carry-forward holds iff nothing stored was omitted. -/
theorem committed_media_iff (user : User) :
    (request.mediaSettings = none →
      readColumn (committed existing table request user).mediaSettings =
        readColumn existing.mediaSettings) ↔
    (request.mediaSettings = none → readColumn existing.mediaSettings = none) := by
  refine forall_congr' fun h => ?_
  rw [committed_mediaSettings_of_none existing table h, readColumn_none]
  exact eq_comm

/-- The locks are kept iff an editor of cluster settings does not omit them. -/
theorem committed_locks_iff :
    (committed existing table request user).conductorState.locks = existing.conductorState.locks ↔
    (holdsExactly user .editClusterSettings = true → request.clusterResources = none →
      existing.conductorState.locks = []) := by
  cases hr : request.clusterResources with
  | some incoming => simp [committed_locks_of_some existing table user hr]
  | none =>
    cases hedit : holdsExactly user .editClusterSettings with
    | false =>
      simp [ServerConfigurationRow.conductorState,
        committed_storedClusterResources_of_not_editor existing table hedit]
    | true =>
      rw [ServerConfigurationRow.conductorState,
        committed_storedClusterResources_of_omitted existing table hedit hr]
      constructor
      · intro h _ _
        exact h.symm
      · intro h
        exact (h rfl rfl).symm

/-- A version keeps all carried fields iff its request omits nothing stored. -/
theorem committed_carriesForward_iff :
    CarriesForward table.active (committed table.active table request user) request user ↔
      OmitsNothingStored table.active request user := by
  constructor
  · intro h
    exact ⟨(committed_media_iff table.active table user).mp h.omittedMedia,
      (committed_locks_iff table.active table).mp h.locks⟩
  · rintro ⟨hmedia, hcluster⟩
    have homitted := (committed_media_iff table.active table user).mpr hmedia
    have hlocks := (committed_locks_iff table.active table).mpr hcluster
    have hstored : request.mediaSettings = none →
        (committed table.active table request user).storedMediaSettings =
          table.active.storedMediaSettings := by
      intro h
      rw [ServerConfigurationRow.storedMediaSettings, ServerConfigurationRow.storedMediaSettings,
        homitted h]
    cases hr : request.mediaSettings with
    | none =>
      have he := hstored hr
      exact ⟨by rw [he], by rw [he], by rw [he], by rw [he], hlocks, rfl, rfl,
        fun _ => by rw [he], committed_storedClusterResources_of_not_editor table.active table, homitted⟩
    | some incoming =>
      have he := committed_storedMediaSettings_of_some table.active table user hr
      exact ⟨by rw [he], by rw [he], by rw [he], by rw [he], hlocks, rfl, rfl,
        fun hno => by simp [he, hno], committed_storedClusterResources_of_not_editor table.active table, homitted⟩

end

/-- For every active configuration and valid request, the new active version keeps
the carried fields iff the request omits nothing stored. -/
theorem configureServer_carriesForward_iff (crates : ValidationCrates)
    (table : ServerConfigurations) (request : ServerConfiguration) (user : User)
    (h : validateConfigureServer crates request user = .ok ()) :
    CarriesForward table.active (configureServer crates request user table).1.active
        request user ↔
      OmitsNothingStored table.active request user := by
  rw [configureServer_of_valid request user h]
  exact committed_carriesForward_iff table

/-- An installation whose stored media usage is 5 bytes. -/
def configuredInstallation : ServerConfigurations where
  active := { defaultServerConfiguration with
    id := 1
    mediaSettings := some (.toValue { defaultMediaSettings with serverMediaUsageBytes := 5 }) }
  nextId := 2

/-- An administrator without any further permission. -/
def plainAdmin : User := ⟨.array [some "ADMIN"]⟩

/-- Crates for requests without profile tabs or push keys. -/
def strictCrates : ValidationCrates := ⟨fun _ => false, fun _ => none⟩

/-- A request that omits the media settings clears them. -/
theorem omittedMediaSettings_not_carried :
    ¬ ∀ (crates : ValidationCrates) (table : ServerConfigurations)
      (request : ServerConfiguration) (user : User),
      validateConfigureServer crates request user = .ok () →
      CarriesForward table.active (configureServer crates request user table).1.active
        request user := by
  intro h
  have hcarry := h strictCrates configuredInstallation { peopleSettings := some {} }
    plainAdmin (by decide)
  exact absurd hcarry.usageBytes (by decide)

/-- The equivalence at a request that sends media settings. -/
theorem sentMediaSettings_carried :
    CarriesForward configuredInstallation.active
      (configureServer strictCrates { peopleSettings := some {}, mediaSettings := some {} }
        plainAdmin configuredInstallation).1.active
      { peopleSettings := some {}, mediaSettings := some {} } plainAdmin :=
  (configureServer_carriesForward_iff strictCrates configuredInstallation _ plainAdmin
    (by decide)).mpr ⟨fun h => absurd h (by decide), fun h => absurd h (by decide)⟩

end Rellm
