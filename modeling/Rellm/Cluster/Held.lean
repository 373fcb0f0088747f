import Mathlib.Data.List.Pairwise
import Mathlib.Order.BooleanAlgebra.Set
import Rellm.Cluster.Broker

/-!
# The held set under lock and free calls

A granted lock should add exactly the requested pairs and a free should remove
exactly them. Both drop whole records, so they do precisely when every record
of the caller they touch lies within the request; the records of one namespace
stay pairwise disjoint along every run, which makes that condition necessary.
-/

namespace Rellm.Cluster

open Foundation

/-- What a call is meant to do to the held set, according to its answer. -/
def ExactCall (config : ServerConfigurationRow) : Call → Prop
  | .lock request sharedSecret now =>
    match lockClusterResources request sharedSecret now config with
    | .error _ => True
    | .ok (response, config') =>
      if response.granted then
        held (locksOf config') =
          held (locksOf config) ∪ requested request.namespaceId request.resources
      else locksOf config' = locksOf config
  | .free request user sharedSecret =>
    match freeClusterResources request user sharedSecret config with
    | .error _ => True
    | .ok config' =>
      held (locksOf config') =
        held (locksOf config) \ requested request.namespaceId request.resources

/-- Every record of the namespace that overlaps the resources names nothing else. -/
def OwnRecordsWithin (locks : List ClusterResourceLock) (namespaceId : String)
    (resources : List ClusterResource) : Prop :=
  ∀ lock ∈ locks, lock.lockHolderNamespaceId = namespaceId →
    resourcesOverlap lock.resources resources = true → ∀ r ∈ lock.resources, r ∈ resources

/-- The call, if it is authorized and not denied, replaces only whole records. -/
def ReplacesWholeRecords (config : ServerConfigurationRow) : Call → Prop
  | .lock request sharedSecret _ =>
    (validateConductor config sharedSecret).toBool = true →
    lockConflict config.conductorState request = none →
    OwnRecordsWithin (locksOf config) request.namespaceId request.resources
  | .free request user sharedSecret =>
    (authorizeFree config user sharedSecret).toBool = true →
    OwnRecordsWithin (locksOf config) request.namespaceId request.resources

/-- Two records that, if one namespace holds both, name no common resource. -/
def OwnApart (a b : ClusterResourceLock) : Prop :=
  a.lockHolderNamespaceId = b.lockHolderNamespaceId → ∀ r ∈ a.resources, r ∉ b.resources

instance : Std.Symm OwnApart where
  symm _ _ hab hba r hrb hra := hab hba.symm r hra hrb

/-- No two records of one namespace name a common resource. -/
def OwnDisjoint (locks : List ClusterResourceLock) : Prop := locks.Pairwise OwnApart

/-- Dropping records keeps the remaining ones disjoint. -/
theorem ownDisjoint_retainLocks {locks : List ClusterResourceLock} (h : OwnDisjoint locks)
    (namespaceId : String) (resources : List ClusterResource) :
    OwnDisjoint (retainLocks locks namespaceId resources) :=
  List.Pairwise.sublist List.filter_sublist h

/-- The new record of a grant overlaps no record of its namespace that was kept. -/
theorem ownDisjoint_grantLocks {locks : List ClusterResourceLock} (h : OwnDisjoint locks)
    (request : LockClusterResourcesRequest) (now : Timestamp) :
    OwnDisjoint (grantLocks locks request now) := by
  refine List.pairwise_append.mpr
    ⟨ownDisjoint_retainLocks h _ _, List.pairwise_singleton _ _, ?_⟩
  intro lock hlock new hnew hns
  rw [List.mem_singleton] at hnew
  subst hnew
  exact (mem_retainLocks.mp hlock).2 hns

/-- Every call keeps the records of each namespace disjoint. -/
theorem ownDisjoint_step {config : ServerConfigurationRow} (h : OwnDisjoint (locksOf config))
    (call : Call) : OwnDisjoint (locksOf (step config call)) := by
  rcases step_locks_cases config call with he | ⟨request, _, now, _, _, he⟩ |
    ⟨request, _, _, _, he⟩
  · rwa [he]
  · rw [he]
    exact ownDisjoint_grantLocks h request now
  · rw [he]
    exact ownDisjoint_retainLocks h _ _

/-- Two records of one namespace that share a resource are the same record. -/
theorem OwnDisjoint.eq_of_shared {locks : List ClusterResourceLock} (h : OwnDisjoint locks)
    {a b : ClusterResourceLock} (ha : a ∈ locks) (hb : b ∈ locks)
    (hns : a.lockHolderNamespaceId = b.lockHolderNamespaceId) {r : ClusterResource}
    (hra : r ∈ a.resources) (hrb : r ∈ b.resources) : a = b := by
  by_contra hne
  exact h.forall ha hb hne hns r hra hrb

/-- Retaining never keeps a requested pair and never invents one. -/
theorem held_retainLocks_subset (locks : List ClusterResourceLock) (namespaceId : String)
    (resources : List ClusterResource) :
    held (retainLocks locks namespaceId resources) ⊆
      held locks \ requested namespaceId resources := by
  rintro p ⟨lock, hlock, hns, hr⟩
  obtain ⟨hmem, hkept⟩ := mem_retainLocks.mp hlock
  refine ⟨⟨lock, hmem, hns, hr⟩, ?_⟩
  rintro ⟨hp, hreq⟩
  exact hkept (hns.trans hp) p.2 hr hreq

/-- Retaining removes exactly the requested pairs when whole records are replaced,
and, the namespace's records being disjoint, only then. -/
theorem held_retainLocks_iff {locks : List ClusterResourceLock} (h : OwnDisjoint locks)
    (namespaceId : String) (resources : List ClusterResource) :
    held (retainLocks locks namespaceId resources) = held locks \ requested namespaceId resources ↔
      OwnRecordsWithin locks namespaceId resources := by
  constructor
  · intro he lock hlock hns hover r hr
    by_contra hout
    have hp : (namespaceId, r) ∈ held locks \ requested namespaceId resources :=
      ⟨⟨lock, hlock, hns, hr⟩, fun hreq => hout hreq.2⟩
    rw [← he] at hp
    obtain ⟨other, hother, hons, hor⟩ := hp
    obtain ⟨homem, hkept⟩ := mem_retainLocks.mp hother
    obtain ⟨shared, hs, hsreq⟩ := resourcesOverlap_iff.mp hover
    have heq := h.eq_of_shared hlock homem (hns.trans hons.symm) hr hor
    exact hkept hons shared (heq ▸ hs) hsreq
  · intro hwithin
    apply (held_retainLocks_subset locks namespaceId resources).antisymm
    rintro p ⟨⟨lock, hlock, hns, hr⟩, hnot⟩
    refine ⟨lock, mem_retainLocks.mpr ⟨hlock, ?_⟩, hns, hr⟩
    intro hown r hrl hreq
    exact hnot ⟨hns.symm.trans hown,
      hwithin lock hlock hown (resourcesOverlap_iff.mpr ⟨r, hrl, hreq⟩) p.2 hr⟩

/-- A grant holds the retained pairs together with the requested ones. -/
theorem held_grantLocks (locks : List ClusterResourceLock)
    (request : LockClusterResourcesRequest) (now : Timestamp) :
    held (grantLocks locks request now) =
      held (retainLocks locks request.namespaceId request.resources) ∪
        requested request.namespaceId request.resources := by
  ext p
  simp only [grantLocks, mem_held, List.mem_append, List.mem_singleton, Set.mem_union,
    mem_requested]
  constructor
  · rintro ⟨lock, hlock | rfl, hns, hr⟩
    · exact .inl ⟨lock, hlock, hns, hr⟩
    · exact .inr ⟨hns.symm, hr⟩
  · rintro (⟨lock, hlock, hns, hr⟩ | ⟨hns, hr⟩)
    · exact ⟨lock, .inl hlock, hns, hr⟩
    · exact ⟨_, .inr rfl, hns.symm, hr⟩

/-- A grant adds exactly the requested pairs just when whole records are replaced. -/
theorem held_grantLocks_iff {locks : List ClusterResourceLock} (h : OwnDisjoint locks)
    (request : LockClusterResourcesRequest) (now : Timestamp) :
    held (grantLocks locks request now) =
        held locks ∪ requested request.namespaceId request.resources ↔
      OwnRecordsWithin locks request.namespaceId request.resources := by
  rw [← held_retainLocks_iff h, held_grantLocks]
  constructor
  · intro he
    apply (held_retainLocks_subset _ _ _).antisymm
    rintro p ⟨hp, hnot⟩
    have : p ∈ held locks ∪ requested request.namespaceId request.resources := .inl hp
    rw [← he] at this
    exact this.resolve_right hnot
  · intro he
    rw [he, Set.sdiff_union_self]

/-- An authorized call without a conflict is the granted one. -/
theorem lockClusterResources_ok {sharedSecret : String} {config : ServerConfigurationRow}
    (request : LockClusterResourcesRequest)
    (h : (validateConductor config sharedSecret).toBool = true) (now : Timestamp) :
    ∃ result, lockClusterResources request sharedSecret now config = .ok result := by
  cases hv : validateConductor config sharedSecret with
  | error e => simp [hv, Except.toBool] at h
  | ok resources =>
    cases hc : lockConflict config.conductorState request <;>
      simp [lockClusterResources, hv, hc, bind, Except.bind, pure, Except.pure]

/-- A call that is answered was authorized. -/
theorem validateConductor_of_ok {request : LockClusterResourcesRequest} {sharedSecret : String}
    {now : Timestamp} {config : ServerConfigurationRow}
    {result : LockClusterResourcesResponse × ServerConfigurationRow}
    (h : lockClusterResources request sharedSecret now config = .ok result) :
    (validateConductor config sharedSecret).toBool = true := by
  cases hv : validateConductor config sharedSecret with
  | error e => simp [lockClusterResources, hv, bind, Except.bind] at h
  | ok resources => rfl

/-- A free call succeeds exactly if it is authorized. -/
theorem freeClusterResources_ok_iff (request : FreeClusterResourcesRequest) {user : Option User}
    {sharedSecret : String} {config : ServerConfigurationRow} :
    (∃ config', freeClusterResources request user sharedSecret config = .ok config') ↔
      (authorizeFree config user sharedSecret).toBool = true := by
  cases ha : authorizeFree config user sharedSecret with
  | error e => simp [freeClusterResources, ha, bind, Except.bind, Except.toBool]
  | ok resources =>
    simp only [freeClusterResources, ha, bind, Except.bind, Except.toBool, iff_true]
    split <;> exact ⟨_, rfl⟩

/-- One call has exactly its intended effect iff it replaces only whole records. -/
theorem exactCall_iff {config : ServerConfigurationRow} (h : OwnDisjoint (locksOf config))
    (call : Call) : ExactCall config call ↔ ReplacesWholeRecords config call := by
  cases call with
  | lock request sharedSecret now =>
    simp only [ExactCall, ReplacesWholeRecords]
    cases hl : lockClusterResources request sharedSecret now config with
    | error e =>
      refine iff_of_true trivial fun hv => ?_
      obtain ⟨result, hr⟩ := lockClusterResources_ok request hv now
      rw [hl] at hr
      cases hr
    | ok result =>
      obtain ⟨response, config'⟩ := result
      have hv := validateConductor_of_ok hl
      rcases lock_cases hl with ⟨holder, hc, rfl, rfl⟩ | ⟨hc, rfl, rfl⟩
      · simp [hc]
      · simpa [hc, hv] using held_grantLocks_iff h request now
  | free request user sharedSecret =>
    simp only [ExactCall, ReplacesWholeRecords]
    cases hf : freeClusterResources request user sharedSecret config with
    | error e =>
      refine iff_of_true trivial fun ha => ?_
      obtain ⟨config', hr⟩ := (freeClusterResources_ok_iff request).mpr ha
      rw [hf] at hr
      cases hr
    | ok config' =>
      have ha := (freeClusterResources_ok_iff request).mp ⟨config', hf⟩
      simpa [ha, (free_locks hf).1] using
        held_retainLocks_iff h request.namespaceId request.resources

/-- Along every run from an empty lock list, each call has exactly its intended
effect on the held set iff each call replaces only whole records. -/
theorem exactCall_run_iff {config : ServerConfigurationRow} (h : locksOf config = [])
    (calls : List Call) :
    Along step ExactCall config calls ↔ Along step ReplacesWholeRecords config calls :=
  along_iff_of_invariant (I := fun config => OwnDisjoint (locksOf config))
    (fun _ call hs _ => ownDisjoint_step hs call) (fun _ call hs => exactCall_iff hs call)
    (h ▸ List.Pairwise.nil) calls

/-- A conductor row with no locks yet. -/
def freshConductor : ServerConfigurationRow :=
  { defaultServerConfiguration with
    id := 1
    clusterResources := some (.toValue {
      namespaceId := "conductor", conductorHost := "conductor",
      clusterSharedSecret := "secret" }) }

/-- Locking resources `0` and `1`, then `0` again. -/
def relockSubset : List Call :=
  [.lock { namespaceId := "a", resources := [0, 1] } "secret" ⟨0, 0⟩,
    .lock { namespaceId := "a", resources := [0] } "secret" ⟨1, 0⟩]

/-- Re-locking a subset of what a namespace holds releases the rest. -/
theorem relockSubset_not_exact :
    ¬ ∀ (config : ServerConfigurationRow) (calls : List Call), locksOf config = [] →
      Along step ExactCall config calls := by
  intro h
  have hexact := (h freshConductor relockSubset rfl).2.1
  change held [⟨"a", [0], some ⟨1, 0⟩⟩] =
    held [⟨"a", [0, 1], some ⟨0, 0⟩⟩] ∪ requested "a" [0] at hexact
  have hp : ("a", (1 : ClusterResource)) ∈
      held [⟨"a", [0, 1], some ⟨0, 0⟩⟩] ∪ requested "a" [0] := by simp
  rw [← hexact] at hp
  simp at hp

/-- A run that locks and then frees the same resource is exact. -/
theorem exactCall_run_lock_free :
    Along step ExactCall freshConductor
      [.lock { namespaceId := "a", resources := [0] } "secret" ⟨0, 0⟩,
        .free { namespaceId := "a", resources := [0] } none "secret"] := by
  refine (exactCall_run_iff rfl _).mpr ⟨?_, ?_, trivial⟩
  · intro _ _ lock hlock
    cases hlock
  · intro _ lock hlock _ _ r hr
    change lock ∈ [(⟨"a", [0], some ⟨0, 0⟩⟩ : ClusterResourceLock)] at hlock
    obtain rfl := List.mem_singleton.mp hlock
    exact hr

end Rellm.Cluster
