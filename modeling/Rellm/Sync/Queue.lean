import Mathlib.Data.List.Nodup
import Rellm.Foundation.Run

/-!
# The background sync queue

Edits ask for background syncs, and one worker takes them from a queue, one at a
time. A source that is edited while it syncs is queued again when that sync
ends. No request is lost, none is answered twice, and the queue is first in,
first out.
-/

namespace Rellm.Sync

open Foundation

/-- The sources waiting their turn, the one syncing now, and whether it was edited meanwhile. -/
structure SyncQueue where
  queued : List Nat := []
  running : Option Nat := none
  rerun : Bool := false
  deriving DecidableEq, Repr

namespace SyncQueue

variable (queue : SyncQueue)

/-- Asks for a sync of a source; also tells whether a worker should be woken. -/
def request (sourceId : Nat) : Bool × SyncQueue :=
  if queue.running = some sourceId then (false, { queue with rerun := true })
  else if queue.queued.contains sourceId then (false, queue)
  else (true, { queue with queued := queue.queued ++ [sourceId] })

/-- Takes the next source to sync, if any. -/
def startNext : Option Nat × SyncQueue :=
  match queue.queued with
  | [] => (none, queue)
  | sourceId :: queued =>
    (some sourceId, { queued := queued, running := some sourceId, rerun := false })

/-- The running sync is done; its source is queued again if it was edited meanwhile. -/
def finish : SyncQueue :=
  match queue.running with
  | none => queue
  | some sourceId =>
    if queue.rerun then
      { queued := queue.queued ++ [sourceId], running := none, rerun := false }
    else { queue with running := none }

/-- A sync of a source is still to be done. -/
def Pending (sourceId : Nat) : Prop :=
  sourceId ∈ queue.queued ∨ queue.running = some sourceId ∧ queue.rerun = true

instance (sourceId : Nat) : Decidable (queue.Pending sourceId) :=
  inferInstanceAs (Decidable (_ ∨ _))

end SyncQueue

/-- The queue, and the source the worker is syncing. -/
structure BackgroundSync where
  queue : SyncQueue := {}
  syncing : Option Nat := none
  deriving DecidableEq, Repr

/-- What happens to the queue: a request from any thread, and the worker's cycle. The worker
survives a panic of the sync it runs. -/
inductive QueueEvent where
  | request (sourceId : Nat)
  | startNext
  | finish (panicked : Bool)
  deriving DecidableEq, Repr

namespace BackgroundSync

variable (s : BackgroundSync)

/-- One event. The worker takes a source only when it has none, and finishes only the one
that it has. -/
def step : QueueEvent → BackgroundSync
  | .request sourceId => { s with queue := (s.queue.request sourceId).2 }
  | .startNext =>
    match s.syncing with
    | some _ => s
    | none => { queue := s.queue.startNext.2, syncing := s.queue.startNext.1 }
  | .finish _ =>
    match s.syncing with
    | none => s
    | some _ => { queue := s.queue.finish, syncing := none }

/-- The source whose sync an event starts. -/
def started : QueueEvent → Option Nat
  | .startNext => if s.syncing.isNone then s.queue.startNext.1 else none
  | _ => none

/-- The source that an event puts at the end of the queue. -/
def queues : QueueEvent → Option Nat
  | .request sourceId =>
    if s.queue.running ≠ some sourceId ∧ sourceId ∉ s.queue.queued then some sourceId else none
  | .startNext => none
  | .finish _ => if s.syncing.isSome ∧ s.queue.rerun = true then s.queue.running else none

/-- No source is queued twice or while it is syncing. -/
structure Ordered : Prop where
  nodup : s.queue.queued.Nodup
  notQueued : ∀ sourceId, s.queue.running = some sourceId → sourceId ∉ s.queue.queued
  syncing : s.syncing = s.queue.running
  rerun : s.queue.running = none → s.queue.rerun = false

variable {s}

/-- What a request leaves: a rerun of the running source, or the source in the queue. -/
theorem request_cases (s : BackgroundSync) (sourceId : Nat) :
    (s.queue.running = some sourceId ∧
      (s.queue.request sourceId).2 = { s.queue with rerun := true }) ∨
    (s.queue.running ≠ some sourceId ∧ sourceId ∈ s.queue.queued ∧
      (s.queue.request sourceId).2 = s.queue) ∨
    (s.queue.running ≠ some sourceId ∧ sourceId ∉ s.queue.queued ∧
      (s.queue.request sourceId).2 =
        { s.queue with queued := s.queue.queued ++ [sourceId] }) := by
  rw [SyncQueue.request]
  by_cases hrunning : s.queue.running = some sourceId
  · exact .inl ⟨hrunning, by rw [if_pos hrunning]⟩
  · by_cases hqueued : sourceId ∈ s.queue.queued
    · refine .inr (.inl ⟨hrunning, hqueued, ?_⟩)
      rw [if_neg hrunning, if_pos (List.contains_iff_mem.mpr hqueued)]
    · refine .inr (.inr ⟨hrunning, hqueued, ?_⟩)
      rw [if_neg hrunning, if_neg (by simpa using hqueued)]

/-- Every event keeps the queue in order. -/
theorem Ordered.step (h : Ordered s) (e : QueueEvent) : Ordered (s.step e) := by
  obtain ⟨hnodup, hnotQueued, hsyncing, hrerun⟩ := h
  cases e with
  | request sourceId =>
    rcases request_cases s sourceId with ⟨hrunning, heq⟩ | ⟨_, _, heq⟩ | ⟨hrunning, hnew, heq⟩
    · simp only [BackgroundSync.step, heq]
      refine ⟨hnodup, hnotQueued, hsyncing, ?_⟩
      intro hnone
      rw [hrunning] at hnone
      cases hnone
    · simp only [BackgroundSync.step, heq]
      exact ⟨hnodup, hnotQueued, hsyncing, hrerun⟩
    · simp only [BackgroundSync.step, heq]
      refine ⟨?_, ?_, hsyncing, hrerun⟩
      · exact hnodup.append (List.nodup_singleton _) (List.disjoint_singleton.mpr hnew)
      · intro other hother hmem
        rcases List.mem_append.mp hmem with hold | hlast
        · exact hnotQueued other hother hold
        · rw [List.mem_singleton.mp hlast] at hother
          exact hrunning hother
  | startNext =>
    cases hbusy : s.syncing with
    | some current =>
      simp only [BackgroundSync.step, hbusy]
      exact ⟨hnodup, hnotQueued, hsyncing, hrerun⟩
    | none =>
      cases hqueued : s.queue.queued with
      | nil =>
        simp only [BackgroundSync.step, hbusy, SyncQueue.startNext, hqueued]
        refine ⟨hnodup, hnotQueued, ?_, hrerun⟩
        rw [← hsyncing, hbusy]
      | cons sourceId queued =>
        simp only [BackgroundSync.step, hbusy, SyncQueue.startNext, hqueued]
        rw [hqueued, List.nodup_cons] at hnodup
        refine ⟨hnodup.2, ?_, rfl, fun _ => rfl⟩
        rintro other hother
        obtain rfl := Option.some.inj hother
        exact hnodup.1
  | finish panicked =>
    cases hbusy : s.syncing with
    | none =>
      simp only [BackgroundSync.step, hbusy]
      exact ⟨hnodup, hnotQueued, hsyncing, hrerun⟩
    | some current =>
      have hrunning : s.queue.running = some current := hsyncing ▸ hbusy
      simp only [BackgroundSync.step, hbusy, SyncQueue.finish, hrunning]
      cases hagain : s.queue.rerun with
      | true =>
        simp only [if_true]
        refine ⟨?_, fun _ hnone => (by cases hnone), rfl, fun _ => rfl⟩
        exact hnodup.append (List.nodup_singleton _)
          (List.disjoint_singleton.mpr (hnotQueued current hrunning))
      | false =>
        simp only [Bool.false_eq_true, if_false]
        exact ⟨hnodup, fun _ hnone => (by cases hnone), rfl, fun _ => rfl⟩

/-- The queue starts in order. -/
theorem ordered_default : Ordered {} where
  nodup := List.nodup_nil
  notQueued _ h := by cases h
  syncing := rfl
  rerun _ := rfl

/-- The queue is in order after every run. -/
theorem ordered_run (events : List QueueEvent) : Ordered (run step {} events) :=
  run_invariant_of_all (I := Ordered) (fun _ e h => h.step e) ordered_default events

/-- What an event starts comes from the front of the queue, what it queues goes to the back. -/
theorem started_append_queued (h : Ordered s) (e : QueueEvent) :
    (s.started e).toList ++ (s.step e).queue.queued =
      s.queue.queued ++ (s.queues e).toList := by
  cases e with
  | request sourceId =>
    rcases request_cases s sourceId with ⟨hrunning, heq⟩ | ⟨hrunning, hmem, heq⟩ |
      ⟨hrunning, hnew, heq⟩
    · simp only [started, queues, BackgroundSync.step, heq, hrunning]
      simp
    · simp only [started, queues, BackgroundSync.step, heq]
      rw [if_neg fun hnew => hnew.2 hmem]
      simp
    · simp only [started, queues, BackgroundSync.step, heq]
      rw [if_pos ⟨hrunning, hnew⟩]
      simp
  | startNext =>
    cases hbusy : s.syncing with
    | some current => simp [started, queues, BackgroundSync.step, hbusy]
    | none =>
      cases hqueued : s.queue.queued with
      | nil => simp [started, queues, BackgroundSync.step, hbusy, SyncQueue.startNext, hqueued]
      | cons sourceId queued =>
        simp [started, queues, BackgroundSync.step, hbusy, SyncQueue.startNext, hqueued]
  | finish panicked =>
    cases hbusy : s.syncing with
    | none => simp [started, queues, BackgroundSync.step, hbusy]
    | some current =>
      have hrunning : s.queue.running = some current := h.syncing ▸ hbusy
      cases hagain : s.queue.rerun with
      | true =>
        simp [started, queues, BackgroundSync.step, hbusy, SyncQueue.finish, hrunning, hagain]
      | false =>
        simp [started, queues, BackgroundSync.step, hbusy, SyncQueue.finish, hrunning, hagain]

/-- A request is pending once it was made. -/
theorem pending_request (s : BackgroundSync) (sourceId : Nat) :
    (s.step (.request sourceId)).queue.Pending sourceId := by
  rcases request_cases s sourceId with ⟨hrunning, heq⟩ | ⟨_, hmem, heq⟩ | ⟨_, _, heq⟩
  · simp only [BackgroundSync.step, heq]
    exact .inr ⟨hrunning, rfl⟩
  · simp only [BackgroundSync.step, heq]
    exact .inl hmem
  · simp only [BackgroundSync.step, heq]
    exact .inl (List.mem_append_right _ (List.mem_singleton.mpr rfl))

/-- What is pending stays pending until it is started. -/
theorem pending_step (h : Ordered s) {sourceId : Nat} (hpending : s.queue.Pending sourceId)
    (e : QueueEvent) :
    s.started e = some sourceId ∨ (s.step e).queue.Pending sourceId := by
  cases e with
  | request other =>
    right
    rcases request_cases s other with ⟨_, heq⟩ | ⟨_, _, heq⟩ | ⟨_, _, heq⟩
    · simp only [BackgroundSync.step, heq]
      exact hpending.imp id fun hrunning => ⟨hrunning.1, rfl⟩
    · simp only [BackgroundSync.step, heq]
      exact hpending
    · simp only [BackgroundSync.step, heq]
      exact hpending.imp (List.mem_append_left _) id
  | startNext =>
    cases hbusy : s.syncing with
    | some current =>
      right
      simp only [BackgroundSync.step, hbusy]
      exact hpending
    | none =>
      -- the worker has nothing, so the request is in the queue
      have hmem : sourceId ∈ s.queue.queued := by
        rcases hpending with hmem | ⟨hrunning, _⟩
        · exact hmem
        · rw [← h.syncing, hbusy] at hrunning
          cases hrunning
      cases hqueued : s.queue.queued with
      | nil =>
        rw [hqueued] at hmem
        exact absurd hmem List.not_mem_nil
      | cons first queued =>
        rw [hqueued] at hmem
        simp only [started, BackgroundSync.step, hbusy, SyncQueue.startNext, hqueued,
          Option.isNone_none, if_true]
        rcases List.mem_cons.mp hmem with rfl | hrest
        · exact .inl rfl
        · exact .inr (.inl hrest)
  | finish panicked =>
    right
    cases hbusy : s.syncing with
    | none =>
      simp only [BackgroundSync.step, hbusy]
      exact hpending
    | some current =>
      have hrunning : s.queue.running = some current := h.syncing ▸ hbusy
      simp only [BackgroundSync.step, hbusy, SyncQueue.finish, hrunning]
      rcases hpending with hmem | ⟨hsame, hagain⟩
      · split
        · exact .inl (List.mem_append_left _ hmem)
        · exact .inl hmem
      · rw [if_pos hagain]
        rw [hrunning, Option.some.injEq] at hsame
        rw [hsame]
        exact .inl (List.mem_append_right _ (List.mem_singleton.mpr rfl))

/-- What is pending is started in the run or still pending after it. -/
theorem pending_run (h : Ordered s) {sourceId : Nat} (hpending : s.queue.Pending sourceId)
    (events : List QueueEvent) :
    sourceId ∈ emitted step started s events ∨ (run step s events).queue.Pending sourceId := by
  induction events generalizing s with
  | nil => exact .inr hpending
  | cons e events ih =>
    rw [emitted_cons, List.mem_append]
    rcases pending_step h hpending e with hstarted | hstill
    · rw [hstarted]
      exact .inl (.inl (List.mem_singleton.mpr rfl))
    · rcases ih (h.step e) hstill with hlater | hlast
      · exact .inl (.inr hlater)
      · exact .inr hlast

/-- How many syncs of a source the queue still owes. -/
def owed (sourceId : Nat) (s : BackgroundSync) : Nat :=
  if s.queue.Pending sourceId then 1 else 0

theorem owed_le_one (sourceId : Nat) (s : BackgroundSync) : owed sourceId s ≤ 1 := by
  unfold owed
  split <;> omega

/-- An event owes a sync of a source that was not owed only if it requests it. -/
theorem pending_of_step (h : Ordered s) {sourceId : Nat} {e : QueueEvent}
    (hpending : (s.step e).queue.Pending sourceId) :
    e = .request sourceId ∨ s.queue.Pending sourceId ∧ s.started e ≠ some sourceId := by
  cases e with
  | request other =>
    have hnone : s.started (.request other) ≠ some sourceId := Option.some_ne_none _ |>.symm
    by_cases hother : other = sourceId
    · exact .inl (by rw [hother])
    · right
      refine ⟨?_, hnone⟩
      rcases request_cases s other with ⟨hrunning, heq⟩ | ⟨_, _, heq⟩ | ⟨_, _, heq⟩
      · simp only [BackgroundSync.step, heq] at hpending
        rcases hpending with hmem | ⟨hsame, _⟩
        · exact .inl hmem
        · exact absurd (Option.some.inj (hrunning.symm.trans hsame)) hother
      · simp only [BackgroundSync.step, heq] at hpending
        exact hpending
      · simp only [BackgroundSync.step, heq] at hpending
        rcases hpending with hmem | hrerun
        · rcases List.mem_append.mp hmem with hold | hlast
          · exact .inl hold
          · exact absurd (List.mem_singleton.mp hlast).symm hother
        · exact .inr hrerun
  | startNext =>
    right
    cases hbusy : s.syncing with
    | some current =>
      simp only [BackgroundSync.step, hbusy] at hpending
      refine ⟨hpending, ?_⟩
      simp [started, hbusy]
    | none =>
      cases hqueued : s.queue.queued with
      | nil =>
        simp only [BackgroundSync.step, hbusy, SyncQueue.startNext, hqueued] at hpending
        refine ⟨hpending, ?_⟩
        simp [started, hbusy, SyncQueue.startNext, hqueued]
      | cons first queued =>
        have hnodup := h.nodup
        rw [hqueued, List.nodup_cons] at hnodup
        simp only [BackgroundSync.step, hbusy, SyncQueue.startNext, hqueued] at hpending
        rcases hpending with hmem | ⟨_, hfalse⟩
        · refine ⟨.inl ?_, ?_⟩
          · rw [hqueued]
            exact List.mem_cons_of_mem _ hmem
          · simp only [started, hbusy, SyncQueue.startNext, hqueued, Option.isNone_none, if_true]
            intro heq
            rw [Option.some.inj heq] at hnodup
            exact hnodup.1 hmem
        · cases hfalse
  | finish panicked =>
    have hnone : s.started (.finish panicked) ≠ some sourceId := Option.some_ne_none _ |>.symm
    right
    refine ⟨?_, hnone⟩
    cases hbusy : s.syncing with
    | none =>
      simp only [BackgroundSync.step, hbusy] at hpending
      exact hpending
    | some current =>
      have hrunning : s.queue.running = some current := h.syncing ▸ hbusy
      simp only [BackgroundSync.step, hbusy, SyncQueue.finish, hrunning] at hpending
      split at hpending
      · rename_i hagain
        rcases hpending with hmem | ⟨hfalse, _⟩
        · rcases List.mem_append.mp hmem with hold | hlast
          · exact .inl hold
          · rw [List.mem_singleton.mp hlast]
            exact .inr ⟨hrunning, hagain⟩
        · cases hfalse
      · rcases hpending with hmem | ⟨hfalse, _⟩
        · exact .inl hmem
        · cases hfalse

/-- Only what is in the queue is started. -/
theorem pending_of_started {sourceId : Nat} {e : QueueEvent}
    (hstarted : s.started e = some sourceId) : s.queue.Pending sourceId := by
  cases e with
  | request other => cases hstarted
  | finish panicked => cases hstarted
  | startNext =>
    simp only [started] at hstarted
    split at hstarted
    · rw [SyncQueue.startNext] at hstarted
      split at hstarted
      · cases hstarted
      · rename_i first queued hqueued
        obtain rfl := Option.some.inj hstarted
        left
        rw [hqueued]
        exact List.mem_cons_self
    · cases hstarted

/-- A start pays what is owed, and only a request adds to it. -/
theorem owed_step (h : Ordered s) (sourceId : Nat) (e : QueueEvent) :
    (s.started e).toList.count sourceId + owed sourceId (s.step e) ≤
      owed sourceId s + (decide (e = .request sourceId)).toNat := by
  have hle := owed_le_one sourceId (s.step e)
  by_cases hstarted : s.started e = some sourceId
  · have hbefore : owed sourceId s = 1 := if_pos (pending_of_started hstarted)
    rw [hstarted, hbefore]
    have hcount : (some sourceId).toList.count sourceId = 1 := by simp
    rw [hcount]
    by_cases hafter : (s.step e).queue.Pending sourceId
    · rcases pending_of_step h hafter with rfl | ⟨_, hnot⟩
      · cases hstarted
      · exact absurd hstarted hnot
    · have hpaid : owed sourceId (s.step e) = 0 := if_neg hafter
      omega
  · have hcount : (s.started e).toList.count sourceId = 0 := by
      rw [List.count_eq_zero, Option.mem_toList]
      exact hstarted
    rw [hcount]
    by_cases hafter : (s.step e).queue.Pending sourceId
    · rcases pending_of_step h hafter with rfl | ⟨hbefore, _⟩
      · rw [decide_eq_true rfl, Bool.toNat_true]
        omega
      · have howed : owed sourceId s = 1 := if_pos hbefore
        omega
    · have hpaid : owed sourceId (s.step e) = 0 := if_neg hafter
      omega

/-- Over a run a source is synced at most as often as was owed and requested. -/
theorem count_started_le (h : Ordered s) (sourceId : Nat) (events : List QueueEvent) :
    (emitted step started s events).count sourceId + owed sourceId (run step s events) ≤
      owed sourceId s + events.countP fun e => e = .request sourceId :=
  count_emitted_le (I := Ordered) (fun _ e h => h.step e)
    (fun _ e h => owed_step h sourceId e) h events

/-- What the queue keeps over a run of events: no source is queued twice or while it syncs; a
request is followed by a start of its source or is pending; however often a source is
requested while it syncs, later requests apart that gives at most one more sync; and sources
are started in the order they were queued. -/
structure AnswersRequests (events : List QueueEvent) : Prop where
  nodup : (run step {} events).queue.queued.Nodup
  notRunning : ∀ sourceId, (run step {} events).queue.running = some sourceId →
    sourceId ∉ (run step {} events).queue.queued
  answered : ∀ before after sourceId, events = before ++ .request sourceId :: after →
    sourceId ∈ emitted step started (run step {} (before ++ [.request sourceId])) after ∨
      (run step {} events).queue.Pending sourceId
  once : ∀ before during after sourceId, events = before ++ .startNext :: during ++ after →
    (run step {} before).started .startNext = some sourceId →
    (∀ panicked, .finish panicked ∉ during) →
    (emitted step started (run step {} (before ++ .startNext :: during)) after).count sourceId ≤
      (if .request sourceId ∈ during then 1 else 0) +
        after.countP fun e => e = .request sourceId
  inOrder : emitted step started {} events ++ (run step {} events).queue.queued =
    emitted step queues {} events

/-- Every interleaving of requests with the worker's cycle answers the requests. -/
theorem answersRequests (events : List QueueEvent) : AnswersRequests events where
  nodup := (ordered_run events).nodup
  notRunning := (ordered_run events).notQueued
  answered := by
    rintro before after sourceId rfl
    have hsplit : before ++ QueueEvent.request sourceId :: after =
        (before ++ [.request sourceId]) ++ after := by simp
    have hpending : (run step {} (before ++ [.request sourceId])).queue.Pending sourceId := by
      rw [run_append]
      exact pending_request _ sourceId
    rw [hsplit, run_append _ (before ++ [QueueEvent.request sourceId])]
    exact pending_run (ordered_run _) hpending after
  once := by
    rintro before during after sourceId rfl hstarted _
    have hcount := count_started_le (ordered_run (before ++ .startNext :: during)) sourceId after
    have howed : owed sourceId (run step {} (before ++ .startNext :: during)) ≤
        if .request sourceId ∈ during then 1 else 0 := by
      split
      · exact owed_le_one sourceId _
      · rename_i hnone
        -- nothing is owed right after the start, and nothing was requested since
        have hpaid := owed_step (ordered_run before) sourceId .startNext
        have hrest := count_started_le ((ordered_run before).step .startNext) sourceId during
        have hzero : (during.countP fun e => e = .request sourceId) = 0 := by
          rw [List.countP_eq_zero]
          intro e hmem heq
          rw [of_decide_eq_true heq] at hmem
          exact hnone hmem
        have hone := owed_le_one sourceId (run step {} before)
        have hcost : (decide (QueueEvent.startNext = .request sourceId)).toNat = 0 := rfl
        have hstart : ((run step {} before).started .startNext).toList.count sourceId = 1 := by
          rw [hstarted]
          simp
        rw [run_append, run_cons]
        omega
    omega
  inOrder := by
    have h : emitted step started {} events ++ (run step {} events).queue.queued =
        [] ++ emitted step queues {} events :=
      emitted_append_buffer (fun s : BackgroundSync => s.queue.queued) (I := Ordered)
        (fun _ e h => h.step e) (fun _ e h => started_append_queued h e) ordered_default events
    rwa [List.nil_append] at h

end BackgroundSync

end Rellm.Sync
