import Mathlib.Logic.Function.Basic
import Rellm.Foundation.Run
import Rellm.Foundation.Table

/-!
# One segmentation of a rendition at a time

Requests for a rendition that is not segmented share its lock through a map. Each clones a handle of
the lock, waits for it, and forgets the entry of the map on its way out unless the lock has handles
beside its own and the map's. The steps of different requests come in any order.
-/

namespace Rellm.Hls

open Foundation

/-- Where a request is: it waits for its lock, holds it, has released it, or has looked after the
entry of the map and is about to drop its handle. -/
inductive Phase where
  | waiting
  | segmenting
  | returned
  | leaving
  deriving DecidableEq, Repr

/-- A request that has a handle of a lock. -/
structure SegmentRequest where
  id : Nat
  objectStoragePath : String
  lock : Nat
  phase : Phase
  deriving DecidableEq, Repr

/-- The locks with their reference counts, the map from renditions to locks, the requests that have
handles, and the renditions whose playlist is there. -/
structure Segments where
  allocated : Nat
  strongCount : Nat → Nat
  locked : Nat → Bool
  segmenting : HashMap String Nat
  requests : Table SegmentRequest.id
  segmented : List String

namespace Segments

def empty : Segments := ⟨0, fun _ => 0, fun _ => false, .empty, .empty, []⟩

variable (s : Segments)

def cloneLock (lock : Nat) : Segments :=
  { s with strongCount := Function.update s.strongCount lock (s.strongCount lock + 1) }

def dropLock (lock : Nat) : Segments :=
  { s with strongCount := Function.update s.strongCount lock (s.strongCount lock - 1) }

def setLocked (lock : Nat) (locked : Bool) : Segments :=
  { s with locked := Function.update s.locked lock locked }

/-- A new lock, which the map holds for a rendition. -/
def insertLock (objectStoragePath : String) : Segments :=
  { s with
    allocated := s.allocated + 1
    strongCount := Function.update s.strongCount s.allocated 1
    locked := Function.update s.locked s.allocated false
    segmenting := s.segmenting.put (objectStoragePath, s.allocated) }

def putRequest (request : SegmentRequest) : Segments :=
  { s with requests := s.requests.put request }

def removeRequest (id : Nat) : Segments :=
  { s with requests := s.requests.delete fun request => request.id = id }

/-- A request comes for a rendition: it has nothing to do if that is segmented, else it clones the
lock of the rendition, which is made if there is none. -/
def ensureSegments (id : Nat) (objectStoragePath : String) : Segments :=
  if objectStoragePath ∈ s.segmented ∨ (s.requests.get id).isSome then s
  else match s.segmenting.value objectStoragePath with
    | some lock => (s.cloneLock lock).putRequest ⟨id, objectStoragePath, lock, .waiting⟩
    | none =>
      ((s.insertLock objectStoragePath).cloneLock s.allocated).putRequest
        ⟨id, objectStoragePath, s.allocated, .waiting⟩

/-- A request gets its lock, once nobody has it. -/
def acquire (request : SegmentRequest) : Segments :=
  if request.phase = .waiting ∧ s.locked request.lock = false then
    (s.setLocked request.lock true).putRequest { request with phase := .segmenting }
  else s

/-- A request is done with the rendition, which is segmented by then unless that failed. -/
def segmentExclusively (request : SegmentRequest) (made : Bool) : Segments :=
  if request.phase = .segmenting then
    let s := (s.setLocked request.lock false).putRequest { request with phase := .returned }
    if made then { s with segmented := request.objectStoragePath :: s.segmented } else s
  else s

def deleteEntry (objectStoragePath : String) : Segments :=
  { s with segmenting := s.segmenting.delete fun entry => entry.1 = objectStoragePath }

/-- The map forgets the lock of a rendition. -/
def removeEntry (objectStoragePath : String) : Segments :=
  match s.segmenting.value objectStoragePath with
  | some lock => (s.dropLock lock).deleteEntry objectStoragePath
  | none => s

/-- A request looks after the entry of the map: nobody else has the lock if it has two handles. -/
def releaseSegmentingLock (request : SegmentRequest) : Segments :=
  if request.phase = .returned then
    let s := if s.strongCount request.lock ≤ 2 then s.removeEntry request.objectStoragePath else s
    s.putRequest { request with phase := .leaving }
  else s

def leave (request : SegmentRequest) : Segments :=
  if request.phase = .leaving then (s.dropLock request.lock).removeRequest request.id else s

/-- A request is dropped while it waits for its lock or holds it. -/
def abandon (request : SegmentRequest) : Segments :=
  match request.phase with
  | .waiting => (s.dropLock request.lock).removeRequest request.id
  | .segmenting =>
    ((s.setLocked request.lock false).dropLock request.lock).removeRequest request.id
  | _ => s

end Segments

/-- The steps of requests, by the ids of these; a directory may also be evicted. -/
inductive Action where
  | ensureSegments (id : Nat) (objectStoragePath : String)
  | acquire (id : Nat)
  | segmentExclusively (id : Nat) (made : Bool)
  | releaseSegmentingLock (id : Nat)
  | leave (id : Nat)
  | abandon (id : Nat)
  | evict (objectStoragePath : String)
  deriving DecidableEq, Repr

/-- What a step leaves; requests that are not there take none. -/
def Segments.step (s : Segments) : Action → Segments
  | .ensureSegments id objectStoragePath => s.ensureSegments id objectStoragePath
  | .acquire id => ((s.requests.get id).map s.acquire).getD s
  | .segmentExclusively id made =>
    ((s.requests.get id).map fun request => s.segmentExclusively request made).getD s
  | .releaseSegmentingLock id => ((s.requests.get id).map s.releaseSegmentingLock).getD s
  | .leave id => ((s.requests.get id).map s.leave).getD s
  | .abandon id => ((s.requests.get id).map s.abandon).getD s
  | .evict objectStoragePath =>
    { s with segmented := s.segmented.filter fun path => path ≠ objectStoragePath }

/-- At most one request holds the lock of a rendition. -/
def Exclusive (s : Segments) : Prop :=
  ∀ request ∈ s.requests.rows, ∀ other ∈ s.requests.rows, request.phase = .segmenting →
    other.phase = .segmenting → request.objectStoragePath = other.objectStoragePath →
    request = other

/-- An entry of the map is removed only by a request that looks after the lock it cloned, and that
no other request has a handle of. -/
def RemovesOwn (s : Segments) (action : Action) : Prop :=
  ∀ objectStoragePath lock, s.segmenting.value objectStoragePath = some lock →
    (s.step action).segmenting.value objectStoragePath ≠ some lock →
    ∃ request ∈ s.requests.rows, action = .releaseSegmentingLock request.id ∧
      request.objectStoragePath = objectStoragePath ∧ request.lock = lock ∧
      ∀ other ∈ s.requests.rows, other.lock = lock → other = request

/-- How many handles a lock has: those of the map and those of requests. -/
def Segments.handles (s : Segments) (lock : Nat) : Nat :=
  (s.segmenting.rows.countP fun entry => entry.2 = lock) +
    s.requests.rows.countP fun request => request.lock = lock

/-- The reference counts are right, the map has the lock of every request that has not looked after
it, and a lock that a request holds is locked by that request alone. -/
structure Sound (s : Segments) : Prop where
  counted : ∀ lock, s.strongCount lock = s.handles lock
  entries : ∀ objectStoragePath lock, s.segmenting.value objectStoragePath = some lock →
    lock < s.allocated
  handed : ∀ request ∈ s.requests.rows, request.lock < s.allocated
  registered : ∀ request ∈ s.requests.rows, request.phase ≠ .leaving →
    s.segmenting.value request.objectStoragePath = some request.lock
  locked : ∀ request ∈ s.requests.rows, request.phase = .segmenting →
    s.locked request.lock = true
  alone : ∀ request ∈ s.requests.rows, ∀ other ∈ s.requests.rows, request.phase = .segmenting →
    other.phase = .segmenting → request.lock = other.lock → request = other

theorem Sound.exclusive {s : Segments} (h : Sound s) : Exclusive s := by
  intro request hrequest other hother hholds hholds' hpath
  refine h.alone request hrequest other hother hholds hholds' ?_
  have hfirst := h.registered request hrequest (by rw [hholds]; decide)
  have hsecond := h.registered other hother (by rw [hholds']; decide)
  rw [hpath, hsecond] at hfirst
  exact (Option.some.inj hfirst).symm

section

variable {s : Segments} {request : SegmentRequest}

/-- The handles of a lock after a request is put in the place of the one with its id. -/
theorem Segments.handles_putRequest (s : Segments) (request : SegmentRequest) (lock : Nat) :
    (s.putRequest request).handles lock +
        ((s.requests.get request.id).any fun old => old.lock = lock).toNat =
      s.handles lock + (decide (request.lock = lock)).toNat := by
  have hput := s.requests.countP_put (fun old => decide (old.lock = lock)) request
  unfold handles
  change s.segmenting.rows.countP _ + (s.requests.put request).rows.countP _ + _ = _
  omega

theorem Segments.handles_removeRequest (s : Segments) (id lock : Nat) :
    (s.removeRequest id).handles lock +
        ((s.requests.get id).any fun old => old.lock = lock).toNat = s.handles lock := by
  have hdelete := s.requests.countP_delete_key (fun old => decide (old.lock = lock)) id
  unfold handles
  change s.segmenting.rows.countP _ + (s.requests.delete _).rows.countP _ + _ = _
  omega

/-- The handles of a lock after the map forgot the lock of a rendition. -/
theorem Segments.handles_removeEntry (s : Segments) (objectStoragePath : String) (lock : Nat) :
    (s.removeEntry objectStoragePath).handles lock +
        ((s.segmenting.value objectStoragePath).any fun old => old = lock).toNat =
      s.handles lock := by
  have hdelete := s.segmenting.countP_delete_key (fun entry => decide (entry.2 = lock))
    objectStoragePath
  unfold removeEntry HashMap.value
  cases hget : s.segmenting.get objectStoragePath with
  | none => rfl
  | some entry =>
    rw [hget] at hdelete
    unfold handles
    change (s.segmenting.delete _).rows.countP _ + s.requests.rows.countP _ + _ = _
    rw [Option.any_some] at hdelete
    rw [Option.map_some, Option.any_some]
    omega

/-- A request takes another step with the lock it has. -/
theorem Sound.putRequest (h : Sound s) {phase : Phase} (hrequest : request ∈ s.requests.rows)
    (hphase : phase ≠ .leaving → request.phase ≠ .leaving)
    (hholds : phase = .segmenting → s.locked request.lock = true ∧
      ∀ other ∈ s.requests.rows, other.phase = .segmenting → other.lock ≠ request.lock) :
    Sound (s.putRequest { request with phase := phase }) := by
  have hget := Table.mem_rows_iff.mp hrequest
  have hmem {other : SegmentRequest} :
      other ∈ (s.putRequest { request with phase := phase }).requests.rows ↔
        other ∈ s.requests.rows ∧ other.id ≠ request.id ∨
          other = { request with phase := phase } :=
    s.requests.mem_put
  constructor
  · intro lock
    have hhandles := s.handles_putRequest { request with phase := phase } lock
    change _ + ((s.requests.get request.id).any fun old => old.lock = lock).toNat = _ at hhandles
    rw [hget, Option.any_some] at hhandles
    have hcounted := h.counted lock
    change s.strongCount lock = _
    change _ + _ = _ + (decide (request.lock = lock)).toNat at hhandles
    omega
  · exact h.entries
  · intro other hother
    rcases hmem.mp hother with ⟨hold, _⟩ | rfl
    · exact h.handed other hold
    · exact h.handed request hrequest
  · intro other hother hstays
    rcases hmem.mp hother with ⟨hold, _⟩ | rfl
    · exact h.registered other hold hstays
    · exact h.registered request hrequest (hphase hstays)
  · intro other hother hsegmenting
    rcases hmem.mp hother with ⟨hold, _⟩ | rfl
    · exact h.locked other hold hsegmenting
    · exact (hholds hsegmenting).1
  · intro first hfirst second hsecond hsegmenting hsegmenting' hlock
    rcases hmem.mp hfirst with ⟨hold, _⟩ | rfl <;> rcases hmem.mp hsecond with ⟨hold', _⟩ | rfl
    · exact h.alone first hold second hold' hsegmenting hsegmenting' hlock
    · exact absurd hlock ((hholds hsegmenting').2 first hold hsegmenting)
    · exact absurd hlock.symm ((hholds hsegmenting).2 second hold' hsegmenting')
    · rfl

/-- A request drops its handle. -/
theorem Sound.removeRequest (h : Sound s) (hrequest : request ∈ s.requests.rows) :
    Sound ((s.dropLock request.lock).removeRequest request.id) := by
  have hget := Table.mem_rows_iff.mp hrequest
  have hmem {other : SegmentRequest} :
      other ∈ ((s.dropLock request.lock).removeRequest request.id).requests.rows →
        other ∈ s.requests.rows :=
    fun hother => (s.requests.mem_delete_key.mp hother).1
  constructor
  · intro lock
    have hhandles := (s.dropLock request.lock).handles_removeRequest request.id lock
    change _ + ((s.requests.get request.id).any fun old => old.lock = lock).toNat =
      s.handles lock at hhandles
    rw [hget, Option.any_some] at hhandles
    have hcounted := h.counted lock
    change Function.update s.strongCount request.lock (s.strongCount request.lock - 1) lock = _
    rw [Function.update_apply]
    by_cases hlock : lock = request.lock
    · subst hlock
      simp only [decide_true, Bool.toNat_true] at hhandles
      rw [if_pos rfl]
      omega
    · rw [decide_eq_false (Ne.symm hlock)] at hhandles
      rw [if_neg hlock]
      exact hcounted.trans hhandles.symm
  · exact h.entries
  · exact fun other hother => h.handed other (hmem hother)
  · exact fun other hother => h.registered other (hmem hother)
  · exact fun other hother => h.locked other (hmem hother)
  · exact fun first hfirst second hsecond => h.alone first (hmem hfirst) second (hmem hsecond)

/-- A lock that no request holds may be locked or not. -/
theorem Sound.setLocked (h : Sound s) {lock : Nat} (locked : Bool)
    (hfree : ∀ other ∈ s.requests.rows, other.phase = .segmenting → other.lock ≠ lock) :
    Sound (s.setLocked lock locked) := by
  refine ⟨h.counted, h.entries, h.handed, h.registered, fun other hother hholds => ?_, h.alone⟩
  change Function.update s.locked lock locked other.lock = true
  rw [Function.update_of_ne (hfree other hother hholds)]
  exact h.locked other hother hholds

/-- A new request gets a handle of the lock that the map has for its rendition. -/
theorem Sound.cloneLock (h : Sound s) {id lock : Nat} {objectStoragePath : String}
    (hnew : s.requests.get id = none) (hlock : s.segmenting.value objectStoragePath = some lock) :
    Sound ((s.cloneLock lock).putRequest ⟨id, objectStoragePath, lock, .waiting⟩) := by
  have hmem {other : SegmentRequest} :
      other ∈ ((s.cloneLock lock).putRequest ⟨id, objectStoragePath, lock, .waiting⟩).requests.rows →
        other ∈ s.requests.rows ∨ other = ⟨id, objectStoragePath, lock, .waiting⟩ :=
    fun hother => (s.requests.mem_put.mp hother).imp_left And.left
  constructor
  · intro l
    have hhandles := (s.cloneLock lock).handles_putRequest ⟨id, objectStoragePath, lock, .waiting⟩ l
    change _ + ((s.requests.get id).any fun old => old.lock = l).toNat =
      s.handles l + (decide (lock = l)).toNat at hhandles
    rw [hnew, Option.any_none] at hhandles
    have hcounted := h.counted l
    change Function.update s.strongCount lock (s.strongCount lock + 1) l = _
    rw [Function.update_apply]
    by_cases hl : l = lock
    · subst hl
      simp only [decide_true, Bool.toNat_true, Bool.toNat_false] at hhandles
      rw [if_pos rfl]
      omega
    · rw [decide_eq_false (Ne.symm hl)] at hhandles
      rw [if_neg hl]
      exact hcounted.trans hhandles.symm
  · exact h.entries
  · intro other hother
    rcases hmem hother with hold | rfl
    · exact h.handed other hold
    · exact h.entries objectStoragePath lock hlock
  · intro other hother hstays
    rcases hmem hother with hold | rfl
    · exact h.registered other hold hstays
    · exact hlock
  · intro other hother hholds
    rcases hmem hother with hold | rfl
    · exact h.locked other hold hholds
    · cases hholds
  · intro first hfirst second hsecond hholds hholds'
    rcases hmem hfirst with hold | rfl
    · rcases hmem hsecond with hold' | rfl
      · exact h.alone first hold second hold' hholds hholds'
      · cases hholds'
    · cases hholds

/-- A rendition without a lock gets a new one. -/
theorem Sound.insertLock (h : Sound s) {objectStoragePath : String}
    (hnone : s.segmenting.value objectStoragePath = none) :
    Sound (s.insertLock objectStoragePath) := by
  have hget : s.segmenting.get objectStoragePath = none := Option.map_eq_none_iff.mp hnone
  have hvalue (path : String) : (s.insertLock objectStoragePath).segmenting.value path =
      if path = objectStoragePath then some s.allocated else s.segmenting.value path :=
    HashMap.value_put ..
  have hfresh : s.handles s.allocated = 0 := by
    have hentries : (s.segmenting.rows.countP fun entry => entry.2 = s.allocated) = 0 := by
      rw [List.countP_eq_zero]
      rintro ⟨path, lock⟩ hentry
      have hbelow := h.entries path lock (HashMap.value_eq_some_iff.mpr hentry)
      simpa using Nat.ne_of_lt hbelow
    have hrequests : (s.requests.rows.countP fun request => request.lock = s.allocated) = 0 := by
      rw [List.countP_eq_zero]
      intro request hrequest
      simpa using Nat.ne_of_lt (h.handed request hrequest)
    rw [Segments.handles, hentries, hrequests]
  constructor
  · intro lock
    have hput := s.segmenting.countP_put (fun entry => decide (entry.2 = lock))
      (objectStoragePath, s.allocated)
    change _ + ((s.segmenting.get objectStoragePath).any _).toNat = _ at hput
    rw [hget, Option.any_none] at hput
    have hcounted := h.counted lock
    change Function.update s.strongCount s.allocated 1 lock =
      (s.segmenting.put (objectStoragePath, s.allocated)).rows.countP _ +
        s.requests.rows.countP _
    rw [Function.update_apply]
    by_cases hlock : lock = s.allocated
    · subst hlock
      simp only [decide_true, Bool.toNat_true, Bool.toNat_false] at hput
      unfold Segments.handles at hfresh
      rw [if_pos rfl]
      omega
    · rw [decide_eq_false (Ne.symm hlock)] at hput
      unfold Segments.handles at hcounted
      rw [if_neg hlock, hcounted]
      exact congrArg (· + _) hput.symm
  · intro path lock hlock
    rw [hvalue] at hlock
    split at hlock
    · obtain rfl := Option.some.inj hlock
      exact Nat.lt_succ_self _
    · exact Nat.lt_succ_of_lt (h.entries path lock hlock)
  · exact fun request hrequest => Nat.lt_succ_of_lt (h.handed request hrequest)
  · intro request hrequest hstays
    have hregistered := h.registered request hrequest hstays
    rw [hvalue, if_neg ?_]
    · exact hregistered
    · intro hpath
      rw [hpath, hnone] at hregistered
      cases hregistered
  · intro request hrequest hholds
    change Function.update s.locked s.allocated false request.lock = true
    rw [Function.update_of_ne (Nat.ne_of_lt (h.handed request hrequest))]
    exact h.locked request hrequest hholds
  · exact h.alone

/-- The map forgets the lock of a rendition that no request needs to find. -/
theorem Sound.removeEntry (h : Sound s) {objectStoragePath : String}
    (hunused : ∀ request ∈ s.requests.rows, request.phase ≠ .leaving →
      request.objectStoragePath ≠ objectStoragePath) :
    Sound (s.removeEntry objectStoragePath) := by
  cases hvalue : s.segmenting.value objectStoragePath with
  | none =>
    rw [Segments.removeEntry, hvalue]
    exact h
  | some removed =>
    have hremove : s.removeEntry objectStoragePath =
        (s.dropLock removed).deleteEntry objectStoragePath := by
      unfold Segments.removeEntry
      rw [hvalue]
    have hhandles := s.handles_removeEntry objectStoragePath
    rw [hvalue, hremove] at hhandles
    simp only [Option.any_some] at hhandles
    rw [hremove]
    have hkept (path : String) :
        HashMap.value (s.segmenting.delete fun entry => entry.1 = objectStoragePath) path =
          if path = objectStoragePath then none else s.segmenting.value path :=
      HashMap.value_delete_key ..
    constructor
    · intro lock
      have hcount := hhandles lock
      have hcounted := h.counted lock
      change Function.update s.strongCount removed (s.strongCount removed - 1) lock = _
      rw [Function.update_apply]
      by_cases hlock : lock = removed
      · subst hlock
        simp only [decide_true, Bool.toNat_true] at hcount
        rw [if_pos rfl]
        omega
      · rw [decide_eq_false (Ne.symm hlock)] at hcount
        rw [if_neg hlock]
        exact hcounted.trans hcount.symm
    · intro path lock hlock
      change HashMap.value (s.segmenting.delete _) path = some lock at hlock
      rw [hkept] at hlock
      split at hlock
      · cases hlock
      · exact h.entries path lock hlock
    · exact h.handed
    · intro request hrequest hstays
      change HashMap.value (s.segmenting.delete _) request.objectStoragePath = some request.lock
      rw [hkept, if_neg (hunused request hrequest hstays)]
      exact h.registered request hrequest hstays
    · exact h.locked
    · exact h.alone

/-- A lock with two handles is the map's and that of one request. -/
theorem Sound.only_handle (h : Sound s) (hrequest : request ∈ s.requests.rows)
    (hstays : request.phase ≠ .leaving) (hcount : s.strongCount request.lock ≤ 2) :
    ∀ other ∈ s.requests.rows, other.lock = request.lock → other = request := by
  intro other hother hlock
  have hget := Table.mem_rows_iff.mp hrequest
  have hentry := HashMap.value_eq_some_iff.mp (h.registered request hrequest hstays)
  have hentries : 0 < s.segmenting.rows.countP fun entry => entry.2 = request.lock :=
    List.countP_pos_iff.mpr ⟨_, hentry, by simp⟩
  have hdelete := s.requests.countP_delete_key (fun other => decide (other.lock = request.lock))
    request.id
  rw [hget, Option.any_some, decide_eq_true rfl, Bool.toNat_true] at hdelete
  have hcounted := h.counted request.lock
  unfold Segments.handles at hcounted
  by_contra hne
  have hid : other.id ≠ request.id := fun hid => hne (s.requests.eq_of_key_eq hother hrequest hid)
  have hleft : 0 < (s.requests.delete fun other => other.id = request.id).rows.countP
      fun other => other.lock = request.lock :=
    List.countP_pos_iff.mpr ⟨other, s.requests.mem_delete_key.mpr ⟨hother, hid⟩, by simp [hlock]⟩
  omega

theorem Sound.ensureSegments (h : Sound s) (id : Nat) (objectStoragePath : String) :
    Sound (s.ensureSegments id objectStoragePath) := by
  unfold Segments.ensureSegments
  split
  · exact h
  · rename_i hcomes
    have hnew : s.requests.get id = none := by
      rw [not_or, Option.not_isSome_iff_eq_none] at hcomes
      exact hcomes.2
    split
    · rename_i lock hlock
      exact h.cloneLock hnew hlock
    · rename_i hnone
      have hvalue : (s.insertLock objectStoragePath).segmenting.value objectStoragePath =
          some s.allocated := by
        refine (HashMap.value_put ..).trans ?_
        rw [if_pos rfl]
      exact (h.insertLock hnone).cloneLock hnew hvalue

theorem Sound.acquire (h : Sound s) (hrequest : request ∈ s.requests.rows) :
    Sound (s.acquire request) := by
  unfold Segments.acquire
  split
  · rename_i hfree
    obtain ⟨hwaits, hunlocked⟩ := hfree
    have hnobody : ∀ other ∈ s.requests.rows, other.phase = .segmenting →
        other.lock ≠ request.lock := by
      intro other hother hholds hlock
      have hlocked := h.locked other hother hholds
      rw [hlock, hunlocked] at hlocked
      cases hlocked
    refine (h.setLocked true hnobody).putRequest hrequest (fun _ => ?_) fun _ => ⟨?_, hnobody⟩
    · rw [hwaits]
      decide
    · exact Function.update_self ..
  · exact h

theorem Sound.segmentExclusively (h : Sound s) (hrequest : request ∈ s.requests.rows)
    (made : Bool) : Sound (s.segmentExclusively request made) := by
  unfold Segments.segmentExclusively
  split
  · rename_i hholds
    have hput : Sound (s.putRequest { request with phase := .returned }) :=
      h.putRequest hrequest (fun _ => by rw [hholds]; decide) fun hsegmenting => by
        cases hsegmenting
    have hunlocked : Sound ((s.putRequest { request with phase := .returned }).setLocked
        request.lock false) := by
      refine hput.setLocked false fun other hother hothers hlock => ?_
      rcases s.requests.mem_put.mp hother with ⟨hold, hid⟩ | rfl
      · have hsame := h.alone other hold request hrequest hothers hholds hlock
        exact hid (hsame ▸ rfl)
      · cases hothers
    cases made with
    | true => exact ⟨hunlocked.counted, hunlocked.entries, hunlocked.handed,
        hunlocked.registered, hunlocked.locked, hunlocked.alone⟩
    | false => exact hunlocked
  · exact h

/-- Looking after the entry of the map removes it only when no other request needs it. -/
theorem Sound.releaseSegmentingLock (h : Sound s) (hrequest : request ∈ s.requests.rows) :
    Sound (s.releaseSegmentingLock request) := by
  unfold Segments.releaseSegmentingLock
  split
  · rename_i hreturned
    have hstays : request.phase ≠ .leaving := by
      rw [hreturned]
      decide
    have hput : Sound (s.putRequest { request with phase := .leaving }) :=
      h.putRequest hrequest (fun hleaving => absurd rfl hleaving) fun hsegmenting => by
        cases hsegmenting
    dsimp only
    split
    · rename_i hcount
      have hcommute : (s.removeEntry request.objectStoragePath).putRequest
          { request with phase := .leaving } =
          (s.putRequest { request with phase := .leaving }).removeEntry
            request.objectStoragePath := by
        unfold Segments.removeEntry
        change _ = match s.segmenting.value request.objectStoragePath with | some _ => _ | none => _
        cases s.segmenting.value request.objectStoragePath <;> rfl
      rw [hcommute]
      refine hput.removeEntry fun other hother hothers hpath => ?_
      rcases s.requests.mem_put.mp hother with ⟨hold, hid⟩ | rfl
      · have hfound := h.registered other hold hothers
        rw [hpath, h.registered request hrequest hstays] at hfound
        have hsame := h.only_handle hrequest hstays hcount other hold (Option.some.inj hfound).symm
        exact hid (hsame ▸ rfl)
      · exact hothers rfl
    · exact hput
  · exact h

theorem Sound.abandon (h : Sound s) (hrequest : request ∈ s.requests.rows) :
    Sound (s.abandon request) := by
  unfold Segments.abandon
  split
  · exact h.removeRequest hrequest
  · rename_i hholds
    refine (h.removeRequest hrequest).setLocked false fun other hother hothers hlock => ?_
    obtain ⟨hold, hid⟩ := s.requests.mem_delete_key.mp hother
    exact hid (congrArg _ (h.alone other hold request hrequest hothers hholds hlock))
  · exact h

/-- Every step keeps the locks sound. -/
theorem Sound.step (h : Sound s) (action : Action) : Sound (s.step action) := by
  have hdone {f : SegmentRequest → Segments}
      (hf : ∀ request ∈ s.requests.rows, Sound (f request)) (id : Nat) :
      Sound (((s.requests.get id).map f).getD s) := by
    cases hget : s.requests.get id with
    | none => exact h
    | some request => exact hf request (Table.get_eq_some_iff.mp hget).1
  cases action with
  | ensureSegments id objectStoragePath => exact h.ensureSegments id objectStoragePath
  | acquire id => exact hdone (fun _ => h.acquire) id
  | segmentExclusively id made =>
    exact hdone (fun _ hrequest => h.segmentExclusively hrequest made) id
  | releaseSegmentingLock id => exact hdone (fun _ => h.releaseSegmentingLock) id
  | leave id =>
    refine hdone (fun request hrequest => ?_) id
    unfold Segments.leave
    split
    · exact h.removeRequest hrequest
    · exact h
  | abandon id => exact hdone (fun _ => h.abandon) id
  | evict objectStoragePath =>
    exact ⟨h.counted, h.entries, h.handed, h.registered, h.locked, h.alone⟩

/-- An entry of the map that is gone after a request looked after it was that of its lock, which no
other request has. -/
theorem Sound.removesOwn (h : Sound s) (action : Action) : RemovesOwn s action := by
  intro objectStoragePath lock hlock hgone
  have hkept {f : SegmentRequest → Segments} {id : Nat}
      (hf : ∀ request, (f request).segmenting = s.segmenting) :
      (((s.requests.get id).map f).getD s).segmenting.value objectStoragePath = some lock := by
    cases s.requests.get id with
    | none => exact hlock
    | some request =>
      rw [Option.map_some, Option.getD_some, hf]
      exact hlock
  cases action with
  | ensureSegments id path =>
    refine absurd ?_ hgone
    dsimp only [Segments.step, Segments.ensureSegments]
    split
    · exact hlock
    · split
      · exact hlock
      · rename_i hnone
        refine (HashMap.value_put ..).trans ?_
        rw [if_neg ?_]
        · exact hlock
        · rintro rfl
          rw [hnone] at hlock
          cases hlock
  | acquire id =>
    refine absurd (hkept fun request => ?_) hgone
    unfold Segments.acquire
    split <;> rfl
  | segmentExclusively id made =>
    refine absurd (hkept fun request => ?_) hgone
    unfold Segments.segmentExclusively
    split
    · cases made <;> rfl
    · rfl
  | leave id =>
    refine absurd (hkept fun request => ?_) hgone
    unfold Segments.leave
    split <;> rfl
  | abandon id =>
    refine absurd (hkept fun request => ?_) hgone
    unfold Segments.abandon
    split <;> rfl
  | evict path => exact absurd hlock hgone
  | releaseSegmentingLock id =>
    dsimp only [Segments.step] at hgone
    cases hget : s.requests.get id with
    | none =>
      rw [hget] at hgone
      exact absurd hlock hgone
    | some request =>
      obtain ⟨hrequest, rfl⟩ := Table.get_eq_some_iff.mp hget
      rw [hget, Option.map_some, Option.getD_some, Segments.releaseSegmentingLock] at hgone
      split at hgone
      · rename_i hreturned
        have hstays : request.phase ≠ .leaving := by
          rw [hreturned]
          decide
        have hregistered := h.registered request hrequest hstays
        dsimp only at hgone
        split at hgone
        · rename_i hcount
          change (s.removeEntry request.objectStoragePath).segmenting.value objectStoragePath ≠ _
            at hgone
          rw [Segments.removeEntry, hregistered] at hgone
          have hpath : request.objectStoragePath = objectStoragePath := by
            by_contra hother
            refine hgone ((HashMap.value_delete_key ..).trans ?_)
            rw [if_neg (Ne.symm hother)]
            exact hlock
          rw [hpath, hlock] at hregistered
          obtain rfl := Option.some.inj hregistered
          exact ⟨request, hrequest, rfl, hpath, rfl, h.only_handle hrequest hstays hcount⟩
        · exact absurd hlock hgone
      · exact absurd hlock hgone

end

theorem Segments.empty_sound : Sound .empty := by
  constructor
  · exact fun _ => rfl
  · exact fun _ _ hlock => by cases hlock
  · exact fun _ hrequest => by cases hrequest
  · exact fun _ hrequest => by cases hrequest
  · exact fun _ hrequest => by cases hrequest
  · exact fun _ hrequest => by cases hrequest

/-- However the steps of requests interleave, at most one holds the lock of a rendition at a time,
and an entry of the map goes only with the last handle. -/
theorem segmenting_exclusive (actions : List Action) :
    Throughout Segments.step Exclusive .empty actions ∧
      Along Segments.step RemovesOwn .empty actions := by
  constructor
  · exact Throughout.of_invariant (fun _ action h => h.step action) (fun _ h => h.exclusive)
      Segments.empty_sound
  · exact Along.of_invariant (fun _ action h _ => ⟨h.removesOwn action, h.step action⟩)
      Segments.empty_sound (along_true _ actions)

end Rellm.Hls
