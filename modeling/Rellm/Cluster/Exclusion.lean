import Mathlib.Data.Finset.Card
import Rellm.Cluster.Held

/-!
# Mutual exclusion of the lock broker

The broker counts the other namespaces' records of a resource against the
resource's limit. The count of records holding a resource stays below the larger
of the limit and one, because the caller's own records of a requested resource
are always dropped first. A limit of zero is not enforced: with nobody to name
as holder, the request is granted.
-/

namespace Rellm.Cluster

open Foundation

/-- The namespaces holding a resource. -/
def holders (locks : List ClusterResourceLock) (resource : ClusterResource) : Finset String :=
  ((locks.filter fun lock => lock.resources.contains resource).map
    (·.lockHolderNamespaceId)).toFinset

/-- Being a holder is holding the pair. -/
theorem mem_holders {locks : List ClusterResourceLock} {resource : ClusterResource}
    {namespaceId : String} :
    namespaceId ∈ holders locks resource ↔ (namespaceId, resource) ∈ held locks := by
  simp only [holders, List.mem_toFinset, List.mem_map, List.mem_filter, List.contains_eq_mem,
    decide_eq_true_eq, mem_held]
  constructor
  · rintro ⟨lock, ⟨hm, hr⟩, hns⟩
    exact ⟨lock, hm, hns, hr⟩
  · rintro ⟨lock, hm, hns, hr⟩
    exact ⟨lock, ⟨hm, hr⟩, hns⟩

/-- No resource has more holders than its effective limit. -/
def Exclusive (config : ServerConfigurationRow) : Prop :=
  ∀ r, (holders (locksOf config) r).card ≤ (effectiveLimit (limitsOf config) r).toNat

/-- A denied lock call names another namespace that holds a requested resource. -/
def DenialNamesHolder (config : ServerConfigurationRow) : Call → Prop
  | .lock request sharedSecret now =>
    ∀ response config', lockClusterResources request sharedSecret now config =
      .ok (response, config') → response.granted = false →
      ∃ holder, response.holder = some holder ∧ holder ≠ request.namespaceId ∧
        ∃ r ∈ request.resources, (holder, r) ∈ held (locksOf config)
  | .free _ _ _ => True

/-- A lock call that is authorized and not denied requests no resource of limit zero. -/
def RequestsPositiveLimits (config : ServerConfigurationRow) : Call → Prop
  | .lock request sharedSecret _ =>
    (validateConductor config sharedSecret).toBool = true →
    lockConflict config.conductorState request = none →
    ∀ r ∈ request.resources, effectiveLimit (limitsOf config) r ≠ 0
  | .free _ _ _ => True

/-- How many records hold a resource. -/
def recordCount (locks : List ClusterResourceLock) (resource : ClusterResource) : Nat :=
  locks.countP fun lock => lock.resources.contains resource

/-- There are at most as many holders as records. -/
theorem card_holders_le (locks : List ClusterResourceLock) (resource : ClusterResource) :
    (holders locks resource).card ≤ recordCount locks resource := by
  refine (List.toFinset_card_le _).trans_eq ?_
  rw [List.length_map, recordCount, List.countP_eq_length_filter]

/-- Retaining records never adds one. -/
theorem recordCount_retainLocks_le (locks : List ClusterResourceLock) (namespaceId : String)
    (resources : List ClusterResource) (r : ClusterResource) :
    recordCount (retainLocks locks namespaceId resources) r ≤ recordCount locks r :=
  List.Sublist.countP_le List.filter_sublist

/-- For a requested resource only the other namespaces' records are retained. -/
theorem recordCount_retainLocks (locks : List ClusterResourceLock) (namespaceId : String)
    {resources : List ClusterResource} {r : ClusterResource} (hr : r ∈ resources) :
    recordCount (retainLocks locks namespaceId resources) r =
      (otherHolders locks namespaceId r).length := by
  rw [recordCount, retainLocks, List.countP_filter, otherHolders, List.length_map,
    List.countP_eq_length_filter]
  congr 1
  apply List.filter_congr
  intro lock _
  have hover : r ∈ lock.resources → resourcesOverlap lock.resources resources = true :=
    fun h => resourcesOverlap_iff.mpr ⟨r, h, hr⟩
  by_cases hm : r ∈ lock.resources <;> by_cases hns : lock.lockHolderNamespaceId = namespaceId <;>
    simp_all

/-- The grant adds one record, and only for the requested resources. -/
theorem recordCount_grantLocks (locks : List ClusterResourceLock)
    (request : LockClusterResourcesRequest) (now : Timestamp) (r : ClusterResource) :
    recordCount (grantLocks locks request now) r =
      recordCount (retainLocks locks request.namespaceId request.resources) r +
        if r ∈ request.resources then 1 else 0 := by
  simp [grantLocks, recordCount, List.countP_append, List.countP_singleton]

/-- A requested resource without a conflict has nobody else holding it, or fewer
other records (counted as a `u32`) than its limit. -/
theorem otherHolders_of_no_conflict {config : ServerConfigurationRow}
    {request : LockClusterResourcesRequest}
    (h : lockConflict config.conductorState request = none)
    {r : ClusterResource} (hr : r ∈ request.resources) :
    otherHolders (locksOf config) request.namespaceId r = [] ∨
      UInt32.ofNat (otherHolders (locksOf config) request.namespaceId r).length <
        effectiveLimit (limitsOf config) r := by
  have hnone := List.findSome?_eq_none_iff.mp h r hr
  unfold resourceConflict at hnone
  by_cases hle : UInt32.ofNat (otherHolders (locksOf config) request.namespaceId r).length ≥
      effectiveLimit (limitsOf config) r
  · left
    simpa [hle] using hnone
  · exact .inr (UInt32.not_le.mp hle)

/-- The record counts the broker maintains: the limit, but never below one. -/
def RecordsBounded (config : ServerConfigurationRow) : Prop :=
  ∀ r, recordCount (locksOf config) r ≤ max 1 (effectiveLimit (limitsOf config) r).toNat

/-- A grant keeps the record counts bounded. -/
theorem recordsBounded_grant {config : ServerConfigurationRow} (h : RecordsBounded config)
    {request : LockClusterResourcesRequest}
    (hc : lockConflict config.conductorState request = none) (now : Timestamp)
    (r : ClusterResource) :
    recordCount (grantLocks (locksOf config) request now) r ≤
      max 1 (effectiveLimit (limitsOf config) r).toNat := by
  have hold := h r
  rw [recordCount_grantLocks]
  by_cases hr : r ∈ request.resources
  · have hcount := recordCount_retainLocks (locksOf config) request.namespaceId hr
    have hle := recordCount_retainLocks_le (locksOf config) request.namespaceId
      request.resources r
    rcases otherHolders_of_no_conflict hc hr with hnil | hlt
    · rw [hcount, hnil, if_pos hr]
      exact le_max_left _ _
    · have hsize := (effectiveLimit (limitsOf config) r).toNat_lt
      rw [UInt32.lt_iff_toNat_lt, UInt32.toNat_ofNat', Nat.mod_eq_of_lt (by omega)] at hlt
      rw [hcount, if_pos hr]
      omega
  · rw [if_neg hr]
    exact (recordCount_retainLocks_le _ _ _ _).trans hold

/-- Every call keeps the record counts bounded. -/
theorem recordsBounded_step {config : ServerConfigurationRow} (h : RecordsBounded config)
    (call : Call) : RecordsBounded (step config call) := by
  intro r
  rw [step_limits]
  rcases step_locks_cases config call with he | ⟨request, _, now, _, hc, he⟩ |
    ⟨request, _, _, _, he⟩
  · rw [he]
    exact h r
  · rw [he]
    exact recordsBounded_grant h hc now r
  · rw [he]
    exact (recordCount_retainLocks_le _ _ _ _).trans (h r)

/-- A denial names a namespace found holding the conflicting resource. -/
theorem denialNamesHolder (config : ServerConfigurationRow) (call : Call) :
    DenialNamesHolder config call := by
  cases call with
  | free => trivial
  | lock request sharedSecret now =>
    intro response config' hl hdenied
    rcases lock_cases hl with ⟨holder, hc, rfl, rfl⟩ | ⟨_, rfl, _⟩
    · obtain ⟨r, hr, hconflict⟩ := List.exists_of_findSome?_eq_some hc
      have hmem : holder ∈ otherHolders (locksOf config') request.namespaceId r := by
        dsimp only [resourceConflict] at hconflict
        split at hconflict
        · exact List.mem_of_head? hconflict
        · cases hconflict
      obtain ⟨lock, hlock, rfl⟩ := List.mem_map.mp hmem
      simp only [List.mem_filter, Bool.and_eq_true, decide_eq_true_eq, List.contains_eq_mem,
        ne_eq] at hlock
      exact ⟨_, rfl, hlock.2.1, r, hr, lock, hlock.1, rfl, hlock.2.2⟩
    · cases hdenied

/-- What the broker promises of one call: exclusion afterwards, honest denials. -/
def ExcludesAfter (config : ServerConfigurationRow) (call : Call) : Prop :=
  Exclusive (step config call) ∧ DenialNamesHolder config call

/-- Bounded records give exclusion for every resource whose limit is positive. -/
theorem card_holders_le_limit {config : ServerConfigurationRow} (h : RecordsBounded config)
    {r : ClusterResource} (hr : effectiveLimit (limitsOf config) r ≠ 0) :
    (holders (locksOf config) r).card ≤ (effectiveLimit (limitsOf config) r).toNat := by
  have hpos : 0 < (effectiveLimit (limitsOf config) r).toNat :=
    Nat.pos_of_ne_zero fun h0 => hr (UInt32.toNat_inj.mp h0)
  exact (card_holders_le _ r).trans ((h r).trans_eq (max_eq_right hpos))

/-- A resource no call can newly hold keeps no holder it did not have. -/
theorem holders_step_subset {config : ServerConfigurationRow} {call : Call}
    (h : RequestsPositiveLimits config call) {r : ClusterResource}
    (hr : effectiveLimit (limitsOf config) r = 0) :
    holders (locksOf (step config call)) r ⊆ holders (locksOf config) r := by
  intro ns hns
  rw [mem_holders] at hns ⊢
  cases call with
  | free request user sharedSecret =>
    cases hf : freeClusterResources request user sharedSecret config with
    | error e => simpa [step, hf] using hns
    | ok config' =>
      simp only [step, hf, (free_locks hf).1] at hns
      exact (held_retainLocks_subset _ _ _ hns).1
  | lock request sharedSecret now =>
    cases hl : lockClusterResources request sharedSecret now config with
    | error e => simpa [step, hl] using hns
    | ok result =>
      obtain ⟨response, config'⟩ := result
      simp only [step, hl] at hns
      rcases lock_cases hl with ⟨_, _, _, rfl⟩ | ⟨hc, _, rfl⟩
      · exact hns
      · rw [locksOf_storeConductorState, held_grantLocks] at hns
        rcases hns with hkept | hreq
        · exact (held_retainLocks_subset _ _ _ hkept).1
        · exact absurd hr (h (validateConductor_of_ok hl) hc r hreq.2)

/-- The state the exclusion argument carries along a run. -/
def Bounded (config : ServerConfigurationRow) : Prop :=
  RecordsBounded config ∧ Exclusive config

/-- From a bounded state, one call excludes iff it requests only positive limits. -/
theorem excludesAfter_iff {config : ServerConfigurationRow} (h : Bounded config) (call : Call) :
    ExcludesAfter config call ↔ RequestsPositiveLimits config call := by
  constructor
  · rintro ⟨hex, _⟩
    cases call with
    | free => trivial
    | lock request sharedSecret now =>
      intro hv hc r hr hzero
      obtain ⟨⟨response, config'⟩, hl⟩ := lockClusterResources_ok request hv now
      rcases lock_cases hl with ⟨_, hsome, _, _⟩ | ⟨_, _, rfl⟩
      · rw [hc] at hsome
        cases hsome
      · have hle := hex r
        rw [step_limits, hzero] at hle
        have hmem : request.namespaceId ∈
            holders (locksOf (step config (.lock request sharedSecret now))) r := by
          rw [mem_holders]
          simp only [step, hl, locksOf_storeConductorState, held_grantLocks]
          exact .inr ⟨rfl, hr⟩
        exact absurd (Finset.card_pos.mpr ⟨_, hmem⟩) (not_lt.mpr hle)
  · intro hpos
    refine ⟨fun r => ?_, denialNamesHolder config call⟩
    by_cases hr : effectiveLimit (limitsOf config) r = 0
    · rw [step_limits]
      exact (Finset.card_le_card (holders_step_subset hpos hr)).trans (h.2 r)
    · exact card_holders_le_limit (recordsBounded_step h.1 call) (by rwa [step_limits])

/-- Along every run from an empty lock list, exclusion holds after every call and
every denial names a real holder, iff no granted call requests a resource of
limit zero. -/
theorem excludesAfter_run_iff {config : ServerConfigurationRow} (h : locksOf config = [])
    (calls : List Call) :
    Along step ExcludesAfter config calls ↔ Along step RequestsPositiveLimits config calls := by
  have hstart : Bounded config :=
    ⟨fun r => by simp [h, recordCount], fun r => by simp [h, holders]⟩
  constructor
  · exact Along.of_invariant (I := Bounded)
      (fun s call hs hP => ⟨(excludesAfter_iff hs call).mp hP,
        recordsBounded_step hs.1 call, hP.1⟩) hstart
  · exact Along.of_invariant (I := Bounded)
      (fun s call hs hP => by
        have hQ := (excludesAfter_iff hs call).mpr hP
        exact ⟨hQ, recordsBounded_step hs.1 call, hQ.1⟩) hstart

/-- A fresh conductor whose only limit entry sets resource `0` to zero holders. -/
def zeroLimitConductor : ServerConfigurationRow :=
  { freshConductor with
    clusterResources := some (.toValue {
      namespaceId := "conductor", conductorHost := "conductor",
      clusterSharedSecret := "secret"
      conductorState := some { limits := [{ resource := [0], limit := [0] }] } }) }

/-- With a limit of zero a single lock call is granted and exceeds the limit. -/
theorem zeroLimit_not_exclusive :
    ¬ ∀ (config : ServerConfigurationRow) (calls : List Call), locksOf config = [] →
      Along step ExcludesAfter config calls := by
  intro h
  have hex := (h zeroLimitConductor
    [.lock { namespaceId := "a", resources := [0] } "secret" ⟨0, 0⟩] rfl).1.1 0
  exact absurd hex (by decide)

/-- The default limit: a second namespace is denied and told who holds. -/
theorem excludesAfter_run_two_namespaces :
    Along step ExcludesAfter freshConductor
      [.lock { namespaceId := "a", resources := [0] } "secret" ⟨0, 0⟩,
        .lock { namespaceId := "b", resources := [0] } "secret" ⟨1, 0⟩] := by
  refine (excludesAfter_run_iff rfl _).mpr ⟨?_, ?_, trivial⟩
  · intro _ _ r _
    exact (by decide : (1 : UInt32) ≠ 0)
  · intro _ hc
    exact absurd hc (by decide)

end Rellm.Cluster
