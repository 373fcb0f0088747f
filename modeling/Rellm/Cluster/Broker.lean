import Mathlib.Data.Set.Basic
import Rellm.Configuration.Row
import Rellm.Foundation.Run
import Rellm.Protos.Permissions

/-!
# The cluster lock broker

`LockClusterResources` and `FreeClusterResources` on the conductor's active
configuration row. Locks are kept as one record per granted call; both calls
drop whole records of the caller that overlap the requested resources.

Lock and free calls are steps on that row. The set of held (namespace, resource) pairs tells what one
call can do to the stored locks.
-/

/-! ## The two calls -/

namespace Rellm

/-- Whether two resource lists name a common resource. -/
def resourcesOverlap (a b : List ClusterResource) : Bool := a.any fun resource => b.contains resource

/-- A common resource witnesses an overlap. -/
theorem resourcesOverlap_iff {a b : List ClusterResource} :
    resourcesOverlap a b = true ↔ ∃ r, r ∈ a ∧ r ∈ b := by
  simp [resourcesOverlap]

/-- How many namespaces may hold a resource at once: the first limit entry that
lists the resource and has a limit at its position, or `1`. -/
def effectiveLimit (limits : List ClusterResourceLimit) (resource : ClusterResource) : UInt32 :=
  (limits.findSome? fun entry =>
    (entry.resource.findIdx? fun r => r = resource).bind fun i => entry.limit[i]?).getD 1

/-- The other namespaces' records that hold a resource, by holder. -/
def otherHolders (locks : List ClusterResourceLock) (namespaceId : String)
    (resource : ClusterResource) : List String :=
  (locks.filter fun lock =>
    lock.lockHolderNamespaceId ≠ namespaceId && lock.resources.contains resource).map
      (·.lockHolderNamespaceId)

/-- The holder named for a resource that is already at its limit. -/
def resourceConflict (state : ClusterConductorState) (namespaceId : String)
    (resource : ClusterResource) : Option String :=
  let holders := otherHolders state.locks namespaceId resource
  if UInt32.ofNat holders.length ≥ effectiveLimit state.limits resource then holders.head? else none

/-- The holder of the first requested resource that is at its limit. -/
def lockConflict (state : ClusterConductorState) (request : LockClusterResourcesRequest) :
    Option String :=
  request.resources.findSome? (resourceConflict state request.namespaceId)

/-- The records left when a namespace's records overlapping some resources are dropped. -/
def retainLocks (locks : List ClusterResourceLock) (namespaceId : String)
    (resources : List ClusterResource) : List ClusterResourceLock :=
  locks.filter fun lock =>
    lock.lockHolderNamespaceId ≠ namespaceId || !resourcesOverlap lock.resources resources

/-- The locks after a granted request. -/
def grantLocks (locks : List ClusterResourceLock) (request : LockClusterResourcesRequest)
    (now : Timestamp) : List ClusterResourceLock :=
  retainLocks locks request.namespaceId request.resources ++
    [{ lockHolderNamespaceId := request.namespaceId, resources := request.resources,
       acquiredAt := some now }]

/-- A caller acting as a cluster member must present the stored shared secret. -/
def validateConductor (config : ServerConfigurationRow) (sharedSecret : String) :
    Except Status ClusterResources :=
  match config.storedClusterResources with
  | none => .error ⟨.failedPrecondition, "no_cluster_resources"⟩
  | some resources =>
    if sharedSecret.isEmpty || sharedSecret ≠ resources.clusterSharedSecret then
      .error ⟨.unauthenticated, "invalid_shared_secret"⟩
    else .ok resources

/-- The row with its conductor state replaced. -/
def storeConductorState (config : ServerConfigurationRow) (state : ClusterConductorState) :
    ServerConfigurationRow :=
  { config with clusterResources := some (Column.toValue
      { config.storedClusterResources.getD {} with conductorState := some state }) }

/-- `LockClusterResources`: all requested resources or none. -/
def lockClusterResources (request : LockClusterResourcesRequest) (sharedSecret : String)
    (now : Timestamp) (config : ServerConfigurationRow) :
    Except Status (LockClusterResourcesResponse × ServerConfigurationRow) := do
  let _ ← validateConductor config sharedSecret
  match lockConflict config.conductorState request with
  | some holder => return ({ granted := false, holder := some holder }, config)
  | none =>
    let state := { config.conductorState with
      locks := grantLocks config.conductorState.locks request now }
    return ({ granted := true, holder := none }, storeConductorState config state)

/-- A logged-in caller needs `EDIT_CLUSTER_SETTINGS`; an anonymous one the secret. -/
def authorizeFree (config : ServerConfigurationRow) (user : Option User) (sharedSecret : String) :
    Except Status ClusterResources :=
  match user with
  | some _ => do
    validateExactPermission user .editClusterSettings
    match config.storedClusterResources with
    | none => .error ⟨.failedPrecondition, "no_cluster"⟩
    | some resources => .ok resources
  | none => validateConductor config sharedSecret

/-- `FreeClusterResources`: drops the caller's overlapping records, if it has any. -/
def freeClusterResources (request : FreeClusterResourcesRequest) (user : Option User)
    (sharedSecret : String) (config : ServerConfigurationRow) :
    Except Status ServerConfigurationRow := do
  let _ ← authorizeFree config user sharedSecret
  let locks := config.conductorState.locks
  let heldByCaller := locks.any fun lock =>
    lock.lockHolderNamespaceId = request.namespaceId &&
      resourcesOverlap lock.resources request.resources
  if heldByCaller then
    let state := { config.conductorState with
      locks := retainLocks locks request.namespaceId request.resources }
    return storeConductorState config state
  else return config

@[simp] theorem storeConductorState_conductorState (config : ServerConfigurationRow)
    (state : ClusterConductorState) :
    (storeConductorState config state).conductorState = state := rfl

end Rellm

/-! ## Runs -/

namespace Rellm.Cluster

open Foundation

/-- The locks a configuration row stores. -/
abbrev locksOf (config : ServerConfigurationRow) : List ClusterResourceLock :=
  config.conductorState.locks

/-- The limits a configuration row stores. -/
abbrev limitsOf (config : ServerConfigurationRow) : List ClusterResourceLimit :=
  config.conductorState.limits

@[simp] theorem locksOf_storeConductorState (config : ServerConfigurationRow)
    (state : ClusterConductorState) : locksOf (storeConductorState config state) = state.locks := rfl

@[simp] theorem limitsOf_storeConductorState (config : ServerConfigurationRow)
    (state : ClusterConductorState) :
    limitsOf (storeConductorState config state) = state.limits := rfl

/-- The (namespace, resource) pairs that some lock record holds. -/
def held (locks : List ClusterResourceLock) : Set (String × ClusterResource) :=
  {p | ∃ lock ∈ locks, lock.lockHolderNamespaceId = p.1 ∧ p.2 ∈ lock.resources}

/-- The pairs a call of one namespace names. -/
def requested (namespaceId : String) (resources : List ClusterResource) :
    Set (String × ClusterResource) :=
  {p | p.1 = namespaceId ∧ p.2 ∈ resources}

@[simp] theorem mem_held {locks : List ClusterResourceLock} {p : String × ClusterResource} :
    p ∈ held locks ↔ ∃ lock ∈ locks, lock.lockHolderNamespaceId = p.1 ∧ p.2 ∈ lock.resources :=
  Iff.rfl

@[simp] theorem mem_requested {namespaceId : String} {resources : List ClusterResource}
    {p : String × ClusterResource} :
    p ∈ requested namespaceId resources ↔ p.1 = namespaceId ∧ p.2 ∈ resources := Iff.rfl

@[simp] theorem held_nil : held [] = ∅ := by
  ext p
  simp

/-- One call to the broker. -/
inductive Call where
  | lock (request : LockClusterResourcesRequest) (sharedSecret : String) (now : Timestamp)
  | free (request : FreeClusterResourcesRequest) (user : Option User) (sharedSecret : String)

/-- The row after a call; a call answered with an error leaves it alone. -/
def step (config : ServerConfigurationRow) : Call → ServerConfigurationRow
  | .lock request sharedSecret now =>
    match lockClusterResources request sharedSecret now config with
    | .ok (_, config') => config'
    | .error _ => config
  | .free request user sharedSecret =>
    match freeClusterResources request user sharedSecret config with
    | .ok config' => config'
    | .error _ => config

/-- A record survives exactly if another namespace holds it or it overlaps nothing. -/
theorem mem_retainLocks {locks : List ClusterResourceLock} {namespaceId : String}
    {resources : List ClusterResource} {lock : ClusterResourceLock} :
    lock ∈ retainLocks locks namespaceId resources ↔ lock ∈ locks ∧
      (lock.lockHolderNamespaceId = namespaceId → ∀ r ∈ lock.resources, r ∉ resources) := by
  simp only [retainLocks, List.mem_filter, Bool.or_eq_true, decide_eq_true_eq,
    Bool.not_eq_true', ← Bool.not_eq_true, resourcesOverlap_iff, not_exists, not_and]
  exact and_congr_right fun _ => Decidable.imp_iff_not_or.symm

/-- An authorized lock call either is denied and changes nothing, or is granted. -/
theorem lock_cases {request : LockClusterResourcesRequest} {sharedSecret : String}
    {now : Timestamp} {config config' : ServerConfigurationRow}
    {response : LockClusterResourcesResponse}
    (h : lockClusterResources request sharedSecret now config = .ok (response, config')) :
    (∃ holder, lockConflict config.conductorState request = some holder ∧
      response = { granted := false, holder := some holder } ∧ config' = config) ∨
    (lockConflict config.conductorState request = none ∧
      response = { granted := true, holder := none } ∧
      config' = storeConductorState config { config.conductorState with
        locks := grantLocks (locksOf config) request now }) := by
  unfold lockClusterResources at h
  cases hv : validateConductor config sharedSecret with
  | error e => simp [hv, bind, Except.bind] at h
  | ok resources =>
    cases hc : lockConflict config.conductorState request with
    | some holder =>
      left
      simp [hv, hc, bind, Except.bind, pure, Except.pure] at h
      exact ⟨holder, rfl, h.1.symm, h.2.symm⟩
    | none =>
      right
      simp [hv, hc, bind, Except.bind, pure, Except.pure] at h
      exact ⟨rfl, h.1.symm, h.2.symm⟩

/-- An authorized free call leaves exactly the retained records, and nothing else changes. -/
theorem free_locks {request : FreeClusterResourcesRequest} {user : Option User}
    {sharedSecret : String} {config config' : ServerConfigurationRow}
    (h : freeClusterResources request user sharedSecret config = .ok config') :
    locksOf config' = retainLocks (locksOf config) request.namespaceId request.resources ∧
      limitsOf config' = limitsOf config ∧ config'.mediaSettings = config.mediaSettings := by
  unfold freeClusterResources at h
  cases ha : authorizeFree config user sharedSecret with
  | error e => simp [ha, bind, Except.bind] at h
  | ok resources =>
    simp only [ha, bind, Except.bind, pure, Except.pure] at h
    split at h
    · obtain rfl := Except.ok.inj h
      exact ⟨rfl, rfl, rfl⟩
    · rename_i hnone
      obtain rfl := Except.ok.inj h
      refine ⟨(List.filter_eq_self.mpr ?_).symm, rfl, rfl⟩
      intro lock hlock
      have := (by simpa using hnone : ∀ x ∈ locksOf config,
        x.lockHolderNamespaceId = request.namespaceId →
          resourcesOverlap x.resources request.resources = false) lock hlock
      by_cases hns : lock.lockHolderNamespaceId = request.namespaceId
      · simp [hns, this hns]
      · simp [hns]

/-- What a call does to the stored locks: nothing, a grant without a conflict, or
the retained records of a free. -/
theorem step_locks_cases (config : ServerConfigurationRow) (call : Call) :
    locksOf (step config call) = locksOf config ∨
    (∃ request sharedSecret now, call = .lock request sharedSecret now ∧
      lockConflict config.conductorState request = none ∧
      locksOf (step config call) = grantLocks (locksOf config) request now) ∨
    (∃ request user sharedSecret, call = .free request user sharedSecret ∧
      locksOf (step config call) =
        retainLocks (locksOf config) request.namespaceId request.resources) := by
  cases call with
  | lock request sharedSecret now =>
    cases h : lockClusterResources request sharedSecret now config with
    | error e => exact .inl (by simp [step, h])
    | ok result =>
      obtain ⟨response, config'⟩ := result
      rcases lock_cases h with ⟨_, _, _, rfl⟩ | ⟨hc, _, rfl⟩
      · exact .inl (by simp [step, h])
      · exact .inr (.inl ⟨request, sharedSecret, now, rfl, hc, by simp [step, h]⟩)
  | free request user sharedSecret =>
    cases h : freeClusterResources request user sharedSecret config with
    | error e => exact .inl (by simp [step, h])
    | ok config' =>
      exact .inr (.inr ⟨request, user, sharedSecret, rfl, by simp [step, h, (free_locks h).1]⟩)

/-- No call changes the configured limits. -/
@[simp] theorem step_limits (config : ServerConfigurationRow) (call : Call) :
    limitsOf (step config call) = limitsOf config := by
  cases call with
  | lock request sharedSecret now =>
    cases h : lockClusterResources request sharedSecret now config with
    | error e => simp [step, h]
    | ok result =>
      obtain ⟨response, config'⟩ := result
      rcases lock_cases h with ⟨_, _, _, rfl⟩ | ⟨_, _, rfl⟩ <;> simp [step, h]
  | free request user sharedSecret =>
    cases h : freeClusterResources request user sharedSecret config with
    | error e => simp [step, h]
    | ok config' => simp [step, h, (free_locks h).2.1]

/-- No call touches the media settings. -/
@[simp] theorem step_mediaSettings (config : ServerConfigurationRow) (call : Call) :
    (step config call).mediaSettings = config.mediaSettings := by
  cases call with
  | lock request sharedSecret now =>
    cases h : lockClusterResources request sharedSecret now config with
    | error e => simp [step, h]
    | ok result =>
      obtain ⟨response, config'⟩ := result
      rcases lock_cases h with ⟨_, _, _, rfl⟩ | ⟨_, _, rfl⟩ <;>
        simp [step, h, storeConductorState]
  | free request user sharedSecret =>
    cases h : freeClusterResources request user sharedSecret config with
    | error e => simp [step, h]
    | ok config' => simp [step, h, (free_locks h).2.2]

end Rellm.Cluster
