import Mathlib.Logic.Function.Basic
import Rellm.Cluster.Held
import Rellm.Configuration.CarryForward
import Rellm.Configuration.StorageUsage

/-!
# ConfigureServer against the in-place writers

A save reads the active row, and later commits a new version built from what it
read. Between the two, lock calls and usage updates may rewrite the active row
in place. A ledger accounts for what those writers did; the active row agrees
with it along a run exactly if no commit puts back older locks or usage.
-/

namespace Rellm

open Foundation Cluster

/-- A save whose request sends the cluster resources and the media settings. -/
structure Save where
  request : ServerConfiguration
  user : User
  sendsClusterResources : request.clusterResources.isSome
  sendsMediaSettings : request.mediaSettings.isSome

/-- The configurations, and the saves that have read a row but not committed yet. -/
structure Installation where
  table : ServerConfigurations
  pending : Nat → Option (Save × ServerConfigurationRow) := fun _ => none

/-- One atomic step of some party. -/
inductive PartyStep where
  | read (id : Nat) (save : Save)
  | commit (id : Nat)
  | call (call : Call)
  | usage (update : UsageUpdate) (now : Timestamp)

namespace Installation

/-- The read step of a save: an invalid request ends here. -/
def read (crates : ValidationCrates) (s : Installation) (id : Nat) (save : Save) : Installation :=
  match validateConfigureServer crates save.request save.user with
  | .error _ => s
  | .ok _ =>
    let captured := (save, s.table.getServerConfigurationModel)
    { s with pending := Function.update s.pending id (some captured) }

/-- The commit step of a save: the new version is built from the row it read. -/
def commit (s : Installation) (id : Nat) : Installation :=
  match s.pending id with
  | none => s
  | some (save, existing) =>
    { table := commitConfiguration s.table (buildConfiguration existing save.request save.user)
      pending := Function.update s.pending id none }

/-- The installation after an event. -/
def step (crates : ValidationCrates) (s : Installation) : PartyStep → Installation
  | .read id save => s.read crates id save
  | .commit id => s.commit id
  | .call call => { s with table := s.table.updateActive fun row => Cluster.step row call }
  | .usage update now => { s with table := s.table.updateActive (update.apply now) }

end Installation

/-- A read and a commit with nothing in between are one `ConfigureServer` call. -/
theorem read_commit_table (crates : ValidationCrates) (s : Installation) (id : Nat) (save : Save)
    (h : validateConfigureServer crates save.request save.user = .ok ()) :
    ((s.read crates id save).commit id).table =
      (configureServer crates save.request save.user s.table).1 := by
  rw [configureServer_of_valid save.request save.user h]
  simp [Installation.read, Installation.commit, h,
    ServerConfigurations.getServerConfigurationModel]

/-- What the in-place writers did: the pairs locked and not freed since, and the
usage their updates add up to. -/
structure Ledger where
  held : Set (String × ClusterResource)
  usageBytes : UInt64

namespace Ledger

/-- The ledger that agrees with a row. -/
def ofRow (row : ServerConfigurationRow) : Ledger where
  held := Cluster.held (locksOf row)
  usageBytes := storedUsageBytes row

/-- The pairs held after a call, by its answer. -/
def callHeld (held : Set (String × ClusterResource)) (row : ServerConfigurationRow) :
    Call → Set (String × ClusterResource)
  | .lock request sharedSecret now =>
    match lockClusterResources request sharedSecret now row with
    | .error _ => held
    | .ok (response, _) =>
      if response.granted then held ∪ requested request.namespaceId request.resources else held
  | .free request user sharedSecret =>
    match freeClusterResources request user sharedSecret row with
    | .error _ => held
    | .ok _ => held \ requested request.namespaceId request.resources

/-- The ledger after an event of an in-place writer; saves do not touch it. -/
def record (ledger : Ledger) (row : ServerConfigurationRow) : PartyStep → Ledger
  | .read _ _ => ledger
  | .commit _ => ledger
  | .call call => { ledger with held := callHeld ledger.held row call }
  | .usage update _ => { ledger with usageBytes := update.account ledger.usageBytes }

end Ledger

/-- An installation together with the ledger of its in-place writers. -/
structure Audit where
  installation : Installation
  ledger : Ledger

namespace Audit

/-- The audit of an installation in which no save is pending. -/
def start (table : ServerConfigurations) : Audit where
  installation := { table := table }
  ledger := .ofRow table.active

/-- One event, also recorded in the ledger. -/
def step (crates : ValidationCrates) (s : Audit) (event : PartyStep) : Audit where
  installation := s.installation.step crates event
  ledger := s.ledger.record s.installation.table.active event

/-- Every lock granted and not freed is held by the active row, every freed lock is
absent from it, and its usage counts every update. -/
def NothingLost (s : Audit) : Prop := s.ledger = .ofRow s.installation.table.active

/-- No lock record or usage total is put back or dropped by the event: a commit
finds those it read, a call replaces whole records, an update keeps the usage. -/
def Undisturbed (s : Audit) : PartyStep → Prop
  | .read _ _ => True
  | .commit id => ∀ save existing, s.installation.pending id = some (save, existing) →
      Ledger.ofRow existing = .ofRow s.installation.table.active
  | .call call => ReplacesWholeRecords s.installation.table.active call
  | .usage update _ => KeepsUsage s.installation.table.active update

/-- The lock records of each namespace are disjoint, now and in every row a save read. -/
structure Disjoint (s : Installation) : Prop where
  active : OwnDisjoint (locksOf s.table.active)
  pending : ∀ id save existing, s.pending id = some (save, existing) →
    OwnDisjoint (locksOf existing)

/-- A committed save stores the locks and the usage of the row it read. -/
theorem ofRow_commitConfiguration (table : ServerConfigurations) (save : Save)
    (existing : ServerConfigurationRow) :
    Ledger.ofRow (commitConfiguration table
      (buildConfiguration existing save.request save.user)).active = .ofRow existing := by
  obtain ⟨resources, hresources⟩ := Option.isSome_iff_exists.mp save.sendsClusterResources
  obtain ⟨media, hmedia⟩ := Option.isSome_iff_exists.mp save.sendsMediaSettings
  have hlocks := committed_locks_of_some existing table save.user hresources
  have hmediaSettings := committed_storedMediaSettings_of_some existing table save.user hmedia
  have husage : storedUsageBytes (committed existing table save.request save.user) =
      storedUsageBytes existing := by
    rw [storedUsageBytes, hmediaSettings]
    rfl
  change Ledger.ofRow (committed existing table save.request save.user) = .ofRow existing
  rw [Ledger.ofRow, Ledger.ofRow, husage, locksOf, hlocks]

/-- Every event keeps the lock records of each namespace disjoint. -/
theorem disjoint_step (crates : ValidationCrates) {s : Installation} (h : Disjoint s)
    (event : PartyStep) : Disjoint (s.step crates event) := by
  cases event with
  | read id save =>
    rw [Installation.step, Installation.read]
    split
    · exact h
    · refine ⟨h.active, ?_⟩
      refine (Function.forall_update_iff _ fun _ value => ∀ save' existing,
        value = some (save', existing) → OwnDisjoint (locksOf existing)).mpr ⟨?_, ?_⟩
      · rintro _ _ ⟨⟩
        exact h.active
      · intro other _
        exact h.pending other
  | commit id =>
    rw [Installation.step, Installation.commit]
    split
    · exact h
    · rename_i save existing hread
      obtain ⟨resources, hresources⟩ := Option.isSome_iff_exists.mp save.sendsClusterResources
      have hlocks := committed_locks_of_some existing s.table save.user hresources
      refine ⟨?_, ?_⟩
      · change OwnDisjoint (locksOf (committed existing s.table save.request save.user))
        rw [locksOf, hlocks]
        exact h.pending id save existing hread
      · refine (Function.forall_update_iff _ fun _ value => ∀ save' existing,
          value = some (save', existing) → OwnDisjoint (locksOf existing)).mpr ⟨?_, ?_⟩
        · rintro _ _ ⟨⟩
        · intro other _
          exact h.pending other
  | call call => exact ⟨ownDisjoint_step h.active call, h.pending⟩
  | usage update now =>
    refine ⟨?_, h.pending⟩
    change OwnDisjoint (update.apply now s.table.active).conductorState.locks
    rw [apply_conductorState]
    exact h.active

/-- A call leaves the accounted pairs held exactly if it replaces whole records. -/
theorem held_step_iff {row : ServerConfigurationRow} (h : OwnDisjoint (locksOf row))
    (call : Call) :
    Ledger.callHeld (held (locksOf row)) row call = held (locksOf (Cluster.step row call)) ↔
      ReplacesWholeRecords row call := by
  rw [← exactCall_iff h call]
  cases call with
  | lock request sharedSecret now =>
    cases hl : lockClusterResources request sharedSecret now row with
    | error e => simp [ExactCall, Ledger.callHeld, Cluster.step, hl]
    | ok result =>
      obtain ⟨response, row'⟩ := result
      rcases lock_cases hl with ⟨holder, _, rfl, rfl⟩ | ⟨_, rfl, _⟩
      · simp [ExactCall, Ledger.callHeld, Cluster.step, hl]
      · simp only [ExactCall, Ledger.callHeld, Cluster.step, hl, if_true]
        exact eq_comm
  | free request user sharedSecret =>
    cases hf : freeClusterResources request user sharedSecret row with
    | error e => simp [ExactCall, Ledger.callHeld, Cluster.step, hf]
    | ok row' =>
      simp only [ExactCall, Ledger.callHeld, Cluster.step, hf]
      exact eq_comm

/-- An event that starts from an agreeing ledger keeps it in agreement exactly if it
disturbs nothing. -/
theorem nothingLost_step_iff (crates : ValidationCrates) {s : Audit}
    (hdisjoint : Disjoint s.installation) (h : NothingLost s) (event : PartyStep) :
    NothingLost (s.step crates event) ↔ Undisturbed s event := by
  obtain ⟨installation, ledger⟩ := s
  obtain rfl : ledger = .ofRow installation.table.active := h
  cases event with
  | read id save =>
    refine iff_of_true ?_ trivial
    rw [NothingLost, step, Installation.step, Installation.read]
    split <;> rfl
  | commit id =>
    simp only [NothingLost, step, Installation.step, Installation.commit, Undisturbed,
      Ledger.record]
    cases hread : installation.pending id with
    | none => simp
    | some read =>
      obtain ⟨save, existing⟩ := read
      simp only [ofRow_commitConfiguration]
      constructor
      · rintro hsame _ _ ⟨⟩
        exact hsame.symm
      · intro hsame
        exact (hsame save existing rfl).symm
  | call call =>
    rw [Undisturbed, ← held_step_iff hdisjoint.active call]
    have husage : storedUsageBytes (Cluster.step installation.table.active call) =
        storedUsageBytes installation.table.active := by
      rw [storedUsageBytes, storedUsageBytes, ServerConfigurationRow.storedMediaSettings,
        ServerConfigurationRow.storedMediaSettings, step_mediaSettings]
    change Ledger.mk _ _ = Ledger.mk _ _ ↔ _
    rw [Ledger.mk.injEq]
    exact and_iff_left husage.symm
  | usage update now =>
    rw [Undisturbed, ← apply_storedUsageBytes_iff _ update now]
    change Ledger.mk _ _ = Ledger.mk _ _ ↔ _
    have hlocks : locksOf (update.apply now installation.table.active) =
        locksOf installation.table.active := by
      rw [locksOf, apply_conductorState]
    rw [Ledger.mk.injEq]
    constructor
    · rintro ⟨_, husage⟩
      exact husage.symm
    · intro husage
      exact ⟨congrArg held hlocks.symm, husage.symm⟩

/-- For every interleaving of saves, lock calls and usage updates, nothing is lost at
any point of the run iff no event of the run disturbs anything. -/
theorem nothingLost_run_iff (crates : ValidationCrates) (table : ServerConfigurations)
    (hdisjoint : OwnDisjoint (locksOf table.active)) (events : List PartyStep) :
    Along (step crates) (fun s event => NothingLost (s.step crates event)) (start table) events ↔
      Along (step crates) Undisturbed (start table) events := by
  apply along_iff_of_invariant (I := fun s => Disjoint s.installation ∧ NothingLost s)
  · rintro s event ⟨hs, _⟩ hafter
    exact ⟨disjoint_step crates hs event, hafter⟩
  · rintro s event ⟨hs, hnothing⟩
    exact nothingLost_step_iff crates hs hnothing event
  · exact ⟨⟨hdisjoint, fun _ _ _ hread => absurd hread (by simp [start])⟩, rfl⟩

/-- A conductor's configurations, with no locks yet. -/
def conductorInstallation : ServerConfigurations where
  active := freshConductor
  nextId := 2

/-- A save by an administrator who sends both submessages back. -/
def fullSave : Save where
  request := {
    peopleSettings := some {}
    clusterResources := some { namespaceId := "conductor", conductorHost := "conductor" }
    mediaSettings := some { defaultUserMediaAllocationBytes := 1 } }
  user := ⟨.array [some "ADMIN"]⟩
  sendsClusterResources := rfl
  sendsMediaSettings := rfl

/-- A lock granted between the read and the commit of a save is lost. -/
theorem lockDuringSave_lost :
    ¬ ∀ (crates : ValidationCrates) (table : ServerConfigurations) (events : List PartyStep),
      OwnDisjoint (locksOf table.active) →
      Along (step crates) (fun s event => NothingLost (s.step crates event)) (start table)
        events := by
  intro h
  have hlost := (h strictCrates conductorInstallation
    [.read 0 fullSave,
      .call (.lock { namespaceId := "a", resources := [0] } "secret" ⟨0, 0⟩),
      .commit 0] List.Pairwise.nil).2.2.1
  have hheld := congrArg Ledger.held hlost
  change held [] ∪ requested "a" [0] = held [] at hheld
  have hp : ("a", (0 : ClusterResource)) ∈ held [] ∪ requested "a" [0] := by simp
  rw [hheld] at hp
  simp at hp

/-- The equivalence at a save that commits before the lock is granted. -/
theorem nothingLost_run_save_then_lock :
    Along (step strictCrates) (fun s event => NothingLost (s.step strictCrates event))
      (start conductorInstallation)
      [.read 0 fullSave, .commit 0,
        .call (.lock { namespaceId := "a", resources := [0] } "secret" ⟨0, 0⟩)] := by
  refine (nothingLost_run_iff strictCrates conductorInstallation List.Pairwise.nil _).mpr
    ⟨trivial, ?_, ?_, trivial⟩
  · rintro _ _ ⟨⟩
    rfl
  · intro _ _ lock hlock
    cases hlock

end Audit

end Rellm
