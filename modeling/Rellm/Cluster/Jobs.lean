import Rellm.Cluster.Held

/-!
# Jobs and the broker

Jobs on any number of instances wait for resources, work, and release them. An attempt to lock
may be carried out by the conductor without its answer coming back. What a job has seen of the
calls of its namespace is remembered beside it.
-/

namespace Rellm.Cluster

open Foundation

/-- What the conductor does on a call. -/
inductive Effect where
  | nothing
  | granted (namespaceId : String) (resources : List ClusterResource)
  | freed (namespaceId : String) (resources : List ClusterResource)

/-- The effect of a call on a conductor. -/
def effect (config : ServerConfigurationRow) : Call → Effect
  | .lock request sharedSecret now =>
    match lockClusterResources request sharedSecret now config with
    | .ok (response, _) =>
      if response.granted then .granted request.namespaceId request.resources else .nothing
    | .error _ => .nothing
  | .free request user sharedSecret =>
    match freeClusterResources request user sharedSecret config with
    | .ok _ => .freed request.namespaceId request.resources
    | .error _ => .nothing

/-- Where a job is: it waits for its lock and has tried to get it or not, its lock is granted and
the answer on its way, it works, or it has ended. -/
inductive Phase where
  | waiting (attempted : Bool)
  | granted
  | working
  | ended
  deriving DecidableEq, Repr

/-- A job of a namespace, with what its namespace held when it began, what the conductor granted the
namespace since then and nobody freed, and whether another call touched the lock granted last. -/
structure Job where
  namespaceId : String
  sharedSecret : String
  wanted : List ClusterResource
  phase : Phase
  heldBefore : List ClusterResource
  gained : List ClusterResource
  disturbed : Bool

/-- Whether a call of a namespace drops a record of it with one of some wanted resources. -/
def touches (locks : List ClusterResourceLock) (namespaceId : String)
    (resources wanted : List ClusterResource) : Bool :=
  locks.any fun lock => lock.lockHolderNamespaceId = namespaceId &&
    resourcesOverlap lock.resources resources && resourcesOverlap lock.resources wanted

namespace Job

/-- A job that begins to wait. -/
def start (locks : List ClusterResourceLock) (namespaceId sharedSecret : String)
    (wanted : List ClusterResource) : Job where
  namespaceId := namespaceId
  sharedSecret := sharedSecret
  wanted := wanted
  phase := .waiting false
  heldBefore := wanted.filter fun resource => locks.any fun lock =>
    lock.lockHolderNamespaceId = namespaceId && lock.resources.contains resource
  gained := []
  disturbed := false

/-- The call of an attempt to lock. -/
def lockCall (job : Job) (now : Timestamp) : Call :=
  .lock { namespaceId := job.namespaceId, resources := job.wanted } job.sharedSecret now

/-- The call that releases what a job holds. -/
def freeCall (job : Job) : Call :=
  .free { namespaceId := job.namespaceId, resources := job.wanted } none job.sharedSecret

/-- What a job remembers of a call that the conductor carried out. -/
def remember (locks : List ClusterResourceLock) (effect : Effect) (job : Job) : Job :=
  match effect with
  | .nothing => job
  | .granted namespaceId resources =>
    if namespaceId = job.namespaceId then
      { job with
        gained := job.gained ++ resources
        disturbed := !(job.wanted.all fun resource => resources.contains resource) &&
          (job.disturbed || touches locks namespaceId resources job.wanted) }
    else job
  | .freed namespaceId resources =>
    if namespaceId = job.namespaceId then
      { job with
        gained := job.gained.filter fun resource => !resources.contains resource
        disturbed := job.disturbed || touches locks namespaceId resources job.wanted }
    else job

end Job

/-- The conductor and the jobs. -/
structure JobState where
  conductor : ServerConfigurationRow
  jobs : List Job

/-- How an attempt ends: in an error before the conductor has done anything, with the answer of the
conductor, or in an error after it. -/
inductive Outcome where
  | unreached
  | answered
  | answerLost
  deriving DecidableEq, Repr

/-- A step of a job, or a call that reaches the conductor from elsewhere. -/
inductive JobEvent where
  | start (namespaceId sharedSecret : String) (wanted : List ClusterResource)
  | attempt (job : Nat) (outcome : Outcome) (now : Timestamp)
  | acquired (job : Nat)
  | givesUp (job : Nat)
  | release (job : Nat) (delivered : Bool)
  | other (call : Call)

namespace JobState

/-- The conductor carries out a call. -/
def carryOut (s : JobState) (call : Call) : JobState where
  conductor := step s.conductor call
  jobs := s.jobs.map (Job.remember (locksOf s.conductor) (effect s.conductor call))

def setPhase (s : JobState) (id : Nat) (phase : Phase) : JobState :=
  { s with jobs := s.jobs.modify id fun job => { job with phase := phase } }

/-- The state after an attempt of a job that waits. -/
def tryLock (s : JobState) (id : Nat) (job : Job) (outcome : Outcome) (now : Timestamp) :
    JobState :=
  match outcome with
  | .unreached => s.setPhase id (.waiting true)
  | .answered =>
    match effect s.conductor (job.lockCall now) with
    | .granted _ _ => (s.carryOut (job.lockCall now)).setPhase id .granted
    | _ => (s.carryOut (job.lockCall now)).setPhase id (.waiting true)
  | .answerLost => (s.carryOut (job.lockCall now)).setPhase id (.waiting true)

/-- `acquire_cluster_lock` and `release_cluster_lock`, a step at a time; a step of a job that is
elsewhere does nothing. -/
def advance (s : JobState) : JobEvent → JobState
  | .start namespaceId sharedSecret wanted =>
    { s with jobs := s.jobs ++ [.start (locksOf s.conductor) namespaceId sharedSecret wanted] }
  | .attempt id outcome now =>
    match s.jobs[id]? with
    | some job =>
      match job.phase with
      | .waiting _ => s.tryLock id job outcome now
      | _ => s
    | none => s
  | .acquired id =>
    match s.jobs[id]? with
    | some job => if job.phase = .granted then s.setPhase id .working else s
    | none => s
  | .givesUp id =>
    match s.jobs[id]? with
    | some job => if job.phase = .waiting true then s.setPhase id .ended else s
    | none => s
  | .release id delivered =>
    match s.jobs[id]? with
    | some job =>
      if job.phase = .working then
        (if delivered then s.carryOut job.freeCall else s).setPhase id .ended
      else s
    | none => s
  | .other call => s.carryOut call

end JobState

/-- A job that acquires its lock holds it at the conductor, and one that gives up leaves nothing
held there that its namespace did not hold before. -/
def Agrees (s : JobState) : JobEvent → Prop
  | .acquired id => ∀ job, s.jobs[id]? = some job → job.phase = .granted →
    ∀ resource ∈ job.wanted, (job.namespaceId, resource) ∈ held (locksOf s.conductor)
  | .givesUp id => ∀ job, s.jobs[id]? = some job → job.phase = .waiting true →
    ∀ resource ∈ job.wanted, (job.namespaceId, resource) ∈ held (locksOf s.conductor) →
      resource ∈ job.heldBefore
  | _ => True

/-- A job acquires a lock that no other call of its namespace touched since it was granted, and gives
up only if nothing is left that was granted since it began. -/
def Undisturbed (s : JobState) : JobEvent → Prop
  | .acquired id => ∀ job, s.jobs[id]? = some job → job.phase = .granted → job.disturbed = false
  | .givesUp id => ∀ job, s.jobs[id]? = some job → job.phase = .waiting true →
    ∀ resource ∈ job.wanted, resource ∈ job.gained → resource ∈ job.heldBefore
  | _ => True

/-- What a job remembers is so. -/
structure Job.Tracked (locks : List ClusterResourceLock) (job : Job) : Prop where
  granted : job.phase = .granted → job.disturbed = false →
    ∀ resource ∈ job.wanted, (job.namespaceId, resource) ∈ held locks
  gained : ∀ resource ∈ job.wanted, (job.namespaceId, resource) ∈ held locks →
    resource ∈ job.heldBefore ∨ resource ∈ job.gained

section

variable {config : ServerConfigurationRow} {call : Call}

/-- What a call leaves of the locks, by its effect. -/
theorem held_step_of_effect (config : ServerConfigurationRow) (call : Call) :
    held (locksOf (step config call)) =
      match effect config call with
      | .nothing => held (locksOf config)
      | .granted namespaceId resources =>
        held (retainLocks (locksOf config) namespaceId resources) ∪ requested namespaceId resources
      | .freed namespaceId resources =>
        held (retainLocks (locksOf config) namespaceId resources) := by
  cases call with
  | lock request sharedSecret now =>
    rw [step, effect]
    cases hok : lockClusterResources request sharedSecret now config with
    | error status => rfl
    | ok result =>
      obtain ⟨response, config'⟩ := result
      rcases lock_cases hok with ⟨_, _, rfl, rfl⟩ | ⟨_, rfl, rfl⟩
      · rfl
      · exact held_grantLocks _ request now
  | free request user sharedSecret =>
    rw [step, effect]
    cases hok : freeClusterResources request user sharedSecret config with
    | error status => rfl
    | ok config' =>
      dsimp only
      rw [(free_locks hok).1]

/-- Calls of other namespaces leave what a namespace holds. -/
theorem mem_held_retainLocks_of_ne {locks : List ClusterResourceLock} {namespaceId : String}
    {resources : List ClusterResource} {p : String × ClusterResource} (h : namespaceId ≠ p.1) :
    p ∈ held (retainLocks locks namespaceId resources) ↔ p ∈ held locks := by
  constructor
  · exact fun hp => (held_retainLocks_subset locks namespaceId resources hp).1
  · rintro ⟨lock, hlock, hns, hr⟩
    exact ⟨lock, mem_retainLocks.mpr ⟨hlock, fun heq => absurd (heq.symm.trans hns) h⟩, hns, hr⟩

/-- A resource stays held if no record with a wanted resource is dropped. -/
theorem mem_held_retainLocks {locks : List ClusterResourceLock} {namespaceId : String}
    {resources wanted : List ClusterResource} {resource : ClusterResource}
    (htouches : touches locks namespaceId resources wanted = false) (hwanted : resource ∈ wanted)
    (hheld : (namespaceId, resource) ∈ held locks) :
    (namespaceId, resource) ∈ held (retainLocks locks namespaceId resources) := by
  obtain ⟨lock, hlock, hns, hr⟩ := hheld
  refine ⟨lock, mem_retainLocks.mpr ⟨hlock, fun _ r hmem hnamed => ?_⟩, hns, hr⟩
  have hall := List.any_eq_false.mp htouches lock hlock
  apply hall
  simp only [Bool.and_eq_true, decide_eq_true_eq]
  exact ⟨⟨hns, resourcesOverlap_iff.mpr ⟨r, hmem, hnamed⟩⟩,
    resourcesOverlap_iff.mpr ⟨resource, hr, hwanted⟩⟩

/-- What a job remembers stays so where its namespace holds the same. -/
theorem Job.Tracked.of_same {locks locks' : List ClusterResourceLock} {job : Job}
    (h : job.Tracked locks) (hsame : ∀ resource, (job.namespaceId, resource) ∈ held locks' ↔
      (job.namespaceId, resource) ∈ held locks) : job.Tracked locks' := by
  constructor
  · intro hphase hdisturbed resource hwanted
    exact (hsame resource).mpr (h.granted hphase hdisturbed resource hwanted)
  · intro resource hwanted hmem
    exact h.gained resource hwanted ((hsame resource).mp hmem)

/-- What a job remembers stays so while calls are carried out. -/
theorem Job.Tracked.remember {job : Job} (h : job.Tracked (locksOf config)) :
    (job.remember (locksOf config) (effect config call)).Tracked (locksOf (step config call)) := by
  have hheld := held_step_of_effect config call
  cases heffect : effect config call with
  | nothing =>
    rw [heffect] at hheld
    refine h.of_same fun resource => ?_
    rw [hheld]
  | granted namespaceId resources =>
    rw [heffect] at hheld
    dsimp only at hheld
    by_cases hown : namespaceId = job.namespaceId
    · subst hown
      simp only [Job.remember, if_true]
      constructor
      · intro hphase hdisturbed resource hwanted
        dsimp only at hphase hdisturbed hwanted ⊢
        rw [hheld]
        rw [Bool.and_eq_false_iff, Bool.not_eq_false', Bool.or_eq_false_iff] at hdisturbed
        rcases hdisturbed with hall | ⟨hbefore, htouches⟩
        · right
          exact ⟨rfl, by simpa using List.all_eq_true.mp hall resource hwanted⟩
        · left
          exact mem_held_retainLocks htouches hwanted (h.granted hphase hbefore resource hwanted)
      · intro resource hwanted hmem
        dsimp only at hwanted hmem ⊢
        rw [hheld] at hmem
        rcases hmem with hkept | hnew
        · exact (h.gained resource hwanted (held_retainLocks_subset _ _ _ hkept).1).imp_right
            (List.mem_append_left _)
        · exact .inr (List.mem_append_right _ hnew.2)
    · rw [Job.remember, if_neg hown]
      refine h.of_same fun resource => ?_
      rw [hheld, Set.mem_union, mem_held_retainLocks_of_ne hown]
      exact or_iff_left fun hnew => hown hnew.1.symm
  | freed namespaceId resources =>
    rw [heffect] at hheld
    dsimp only at hheld
    by_cases hown : namespaceId = job.namespaceId
    · subst hown
      simp only [Job.remember, if_true]
      constructor
      · intro hphase hdisturbed resource hwanted
        dsimp only at hphase hdisturbed hwanted ⊢
        rw [hheld]
        rw [Bool.or_eq_false_iff] at hdisturbed
        exact mem_held_retainLocks hdisturbed.2 hwanted
          (h.granted hphase hdisturbed.1 resource hwanted)
      · intro resource hwanted hmem
        dsimp only at hwanted hmem ⊢
        rw [hheld] at hmem
        obtain ⟨hbefore, hnot⟩ := held_retainLocks_subset _ _ _ hmem
        refine (h.gained resource hwanted hbefore).imp_right fun hgained => ?_
        rw [List.mem_filter]
        refine ⟨hgained, ?_⟩
        simpa using fun hnamed => hnot ⟨rfl, hnamed⟩
    · rw [Job.remember, if_neg hown]
      refine h.of_same fun resource => ?_
      rw [hheld, mem_held_retainLocks_of_ne hown]

/-- A job that does not become granted remembers the same. -/
theorem Job.Tracked.setPhase {locks : List ClusterResourceLock} {job : Job}
    (h : job.Tracked locks) {phase : Phase} (hphase : phase ≠ .granted) :
    ({ job with phase := phase } : Job).Tracked locks :=
  ⟨fun heq => absurd heq hphase, h.gained⟩

theorem Job.tracked_start (locks : List ClusterResourceLock) (namespaceId sharedSecret : String)
    (wanted : List ClusterResource) :
    (Job.start locks namespaceId sharedSecret wanted).Tracked locks := by
  refine ⟨nofun, fun resource hwanted hheld => .inl ?_⟩
  obtain ⟨lock, hlock, hns, hr⟩ := hheld
  refine List.mem_filter.mpr ⟨hwanted, List.any_eq_true.mpr ⟨lock, hlock, ?_⟩⟩
  simpa using ⟨hns, hr⟩

end

/-- What every job remembers is so. -/
def JobState.Tracked (s : JobState) : Prop := ∀ job ∈ s.jobs, job.Tracked (locksOf s.conductor)

namespace JobState

variable {s : JobState}

theorem Tracked.carryOut (h : s.Tracked) (call : Call) : (s.carryOut call).Tracked := by
  intro job hjob
  obtain ⟨before, hbefore, rfl⟩ := List.mem_map.mp hjob
  exact (h before hbefore).remember

theorem Tracked.setPhase (h : s.Tracked) {id : Nat} {phase : Phase} (hphase : phase ≠ .granted) :
    (s.setPhase id phase).Tracked := by
  intro job hjob
  obtain ⟨i, hi⟩ := List.mem_iff_getElem?.mp hjob
  rw [JobState.setPhase, List.getElem?_modify] at hi
  obtain ⟨before, hbefore, rfl⟩ := Option.map_eq_some_iff.mp hi
  have htracked := h before (List.mem_of_getElem? hbefore)
  split
  · exact htracked.setPhase hphase
  · exact htracked

/-- A job whose lock is granted holds it. -/
theorem Tracked.grant (h : s.Tracked) {id : Nat} {job : Job} (hjob : s.jobs[id]? = some job)
    {now : Timestamp} {namespaceId : String} {resources : List ClusterResource}
    (heffect : effect s.conductor (job.lockCall now) = .granted namespaceId resources) :
    ((s.carryOut (job.lockCall now)).setPhase id .granted).Tracked := by
  have hown : namespaceId = job.namespaceId ∧ resources = job.wanted := by
    rw [Job.lockCall, effect] at heffect
    split at heffect
    · split at heffect
      · cases heffect
        exact ⟨rfl, rfl⟩
      · cases heffect
    · cases heffect
  obtain ⟨rfl, rfl⟩ := hown
  intro job' hjob'
  obtain ⟨i, hi⟩ := List.mem_iff_getElem?.mp hjob'
  rw [JobState.setPhase, List.getElem?_modify] at hi
  obtain ⟨before, hbefore, rfl⟩ := Option.map_eq_some_iff.mp hi
  have htracked := (h.carryOut (job.lockCall now)) before (List.mem_of_getElem? hbefore)
  split
  · rename_i hid
    subst hid
    rw [JobState.carryOut, List.getElem?_map, hjob, Option.map_some] at hbefore
    obtain rfl := Option.some.inj hbefore
    refine ⟨fun _ _ resource hwanted => ?_, htracked.gained⟩
    rw [heffect, Job.remember, if_pos rfl] at hwanted ⊢
    show (job.namespaceId, resource) ∈ held (locksOf (step s.conductor (job.lockCall now)))
    rw [held_step_of_effect, heffect]
    exact .inr ⟨rfl, hwanted⟩
  · exact htracked

/-- Every step keeps what the jobs remember. -/
theorem Tracked.advance (h : s.Tracked) (event : JobEvent) : (s.advance event).Tracked := by
  cases event with
  | start namespaceId sharedSecret wanted =>
    intro job hjob
    rcases List.mem_append.mp hjob with hbefore | hnew
    · exact h job hbefore
    · rw [List.mem_singleton.mp hnew]
      exact Job.tracked_start _ namespaceId sharedSecret wanted
  | attempt id outcome now =>
    rw [JobState.advance]
    cases hjob : s.jobs[id]? with
    | none => exact h
    | some job =>
      dsimp only
      split
      · cases outcome with
        | unreached => exact h.setPhase nofun
        | answered =>
          rw [tryLock]
          split
          · rename_i heffect
            exact h.grant hjob heffect
          · exact (h.carryOut _).setPhase nofun
        | answerLost => exact (h.carryOut _).setPhase nofun
      · exact h
  | acquired id =>
    rw [JobState.advance]
    split
    · split
      · exact h.setPhase nofun
      · exact h
    · exact h
  | givesUp id =>
    rw [JobState.advance]
    split
    · split
      · exact h.setPhase nofun
      · exact h
    · exact h
  | release id delivered =>
    rw [JobState.advance]
    split
    · rename_i job _
      split
      · cases delivered with
        | true => exact (h.carryOut job.freeCall).setPhase nofun
        | false => exact h.setPhase nofun
      · exact h
    · exact h
  | other call => exact h.carryOut call

/-- An undisturbed step finds the conductor and the job in agreement. -/
theorem Tracked.agrees (h : s.Tracked) {event : JobEvent} (hevent : Undisturbed s event) :
    Agrees s event := by
  cases event with
  | acquired id =>
    intro job hjob hphase
    exact (h job (List.mem_of_getElem? hjob)).granted hphase (hevent job hjob hphase)
  | givesUp id =>
    intro job hjob hphase resource hwanted hheld
    rcases (h job (List.mem_of_getElem? hjob)).gained resource hwanted hheld with hbefore | hgained
    · exact hbefore
    · exact hevent job hjob hphase resource hwanted hgained
  | start | attempt | release | other => trivial

end JobState

/-- In every run of undisturbed steps, the jobs and the conductor agree on who holds what. -/
theorem jobs_agree (conductor : ServerConfigurationRow) (events : List JobEvent)
    (h : Along JobState.advance Undisturbed ⟨conductor, []⟩ events) :
    Along JobState.advance Agrees ⟨conductor, []⟩ events :=
  Along.of_invariant (I := JobState.Tracked)
    (fun _ event hs hevent => ⟨hs.agrees hevent, hs.advance event⟩)
    (fun _ hjob => absurd hjob List.not_mem_nil) h

/-- A job whose first attempt fails, and that then gets its lock, works and releases it. -/
def lockedOnce : List JobEvent :=
  [.start "a" "secret" [0], .attempt 0 .unreached ⟨0, 0⟩, .attempt 0 .answered ⟨5, 0⟩, .acquired 0,
    .release 0 true]

theorem jobs_agree_lockedOnce : Along JobState.advance Agrees ⟨freshConductor, []⟩ lockedOnce := by
  refine jobs_agree freshConductor lockedOnce ⟨trivial, trivial, trivial, ?_, trivial, trivial⟩
  intro job hjob _
  cases hjob
  rfl

/-- A lock whose answer is lost stays behind when its job gives up. -/
theorem lock_left_behind :
    ¬ ∀ (conductor : ServerConfigurationRow) (events : List JobEvent),
      Along JobState.advance Agrees ⟨conductor, []⟩ events := by
  intro h
  have hagrees := (h freshConductor
    [.start "a" "secret" [0], .attempt 0 .answerLost ⟨0, 0⟩, .givesUp 0]).2.2.1
  have hbefore := hagrees _ rfl rfl 0 List.mem_cons_self
    ⟨⟨"a", [0], some ⟨0, 0⟩⟩, List.mem_cons_self, rfl, List.mem_cons_self⟩
  cases hbefore

end Rellm.Cluster
