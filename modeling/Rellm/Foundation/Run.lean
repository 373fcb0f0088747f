import Mathlib.Data.List.Basic

/-!
# Runs of a deterministic step function

A component is a step function `S → A → S`; a run performs a list of actions in
order. `Along` states a property of every step of a run, at the state before
that step. Invariants and step equivalences lift from one step to whole runs,
and from one iteration to a loop whose iterations may fail. What the steps put
out is compared with what they take in.
-/

namespace Rellm.Foundation

variable {S T A : Type*}

/-- The state reached by performing the actions in order. -/
def run (step : S → A → S) (s : S) (actions : List A) : S := actions.foldl step s

/-- Every step of the run satisfies `P`, read at the state before the step. -/
def Along (step : S → A → S) (P : S → A → Prop) : S → List A → Prop
  | _, [] => True
  | s, a :: actions => P s a ∧ Along step P (step s a) actions

/-- Every state the run passes satisfies `P`, the first and the last included. -/
def Throughout (step : S → A → S) (P : S → Prop) : S → List A → Prop
  | s, [] => P s
  | s, a :: actions => P s ∧ Throughout step P (step s a) actions

variable {step : S → A → S}

@[simp] theorem run_nil (s : S) : run step s [] = s := rfl

@[simp] theorem run_cons (s : S) (a : A) (actions : List A) :
    run step s (a :: actions) = run step (step s a) actions := rfl

/-- Performing two lists of actions one after the other. -/
theorem run_append (s : S) (before after : List A) :
    run step s (before ++ after) = run step (run step s before) after :=
  List.foldl_append

@[simp] theorem along_nil (P : S → A → Prop) (s : S) : Along step P s [] := trivial

@[simp] theorem along_cons {P : S → A → Prop} {s : S} {a : A} {actions : List A} :
    Along step P s (a :: actions) ↔ P s a ∧ Along step P (step s a) actions := Iff.rfl

/-- A step property of a run holds of each of its prefixes and of the rest. -/
theorem along_append {P : S → A → Prop} {s : S} {before after : List A} :
    Along step P s (before ++ after) ↔
      Along step P s before ∧ Along step P (run step s before) after := by
  induction before generalizing s with
  | nil => simp
  | cons a before ih => simp only [List.cons_append, along_cons, run_cons, ih, and_assoc]

/-- An invariant preserved by every admissible step holds after the run. -/
theorem run_invariant {I : S → Prop} {P : S → A → Prop}
    (hstep : ∀ s a, I s → P s a → I (step s a)) {s : S} {actions : List A}
    (hs : I s) (hrun : Along step P s actions) : I (run step s actions) := by
  induction actions generalizing s with
  | nil => exact hs
  | cons a actions ih => exact ih (hstep s a hs hrun.1) hrun.2

/-- An invariant preserved by every step holds after every run. -/
theorem run_invariant_of_all {I : S → Prop} (hstep : ∀ s a, I s → I (step s a))
    {s : S} (hs : I s) (actions : List A) : I (run step s actions) := by
  induction actions generalizing s with
  | nil => exact hs
  | cons a actions ih => exact ih (hstep s a hs)

/-- Under an invariant, a step property implied at each step holds along the run. -/
theorem Along.of_invariant {I : S → Prop} {P Q : S → A → Prop}
    (hstep : ∀ s a, I s → P s a → Q s a ∧ I (step s a)) {s : S} {actions : List A}
    (hs : I s) (hrun : Along step P s actions) : Along step Q s actions := by
  induction actions generalizing s with
  | nil => trivial
  | cons a actions ih =>
    have h := hstep s a hs hrun.1
    exact ⟨h.1, ih h.2 hrun.2⟩

/-- Step properties that agree at each step of a run agree along it. -/
theorem along_congr {P Q R : S → A → Prop} (hPQ : ∀ s a, R s a → (P s a ↔ Q s a)) {s : S}
    {actions : List A} (hrun : Along step R s actions) :
    Along step P s actions ↔ Along step Q s actions := by
  induction actions generalizing s with
  | nil => exact Iff.rfl
  | cons a actions ih => rw [along_cons, along_cons, hPQ s a hrun.1, ih hrun.2]

/-- Two step properties that agree under an invariant agree along every run; the
invariant need only survive the steps that have the property. -/
theorem along_iff_of_invariant {I : S → Prop} {P Q : S → A → Prop}
    (hI : ∀ s a, I s → P s a → I (step s a)) (hPQ : ∀ s a, I s → (P s a ↔ Q s a)) {s : S}
    (hs : I s) (actions : List A) : Along step P s actions ↔ Along step Q s actions := by
  induction actions generalizing s with
  | nil => exact Iff.rfl
  | cons a actions ih =>
    rw [along_cons, along_cons, ← hPQ s a hs]
    exact and_congr_right fun ha => ih (hI s a hs ha)

/-- A step property that has two parts holds along a run if both parts do. -/
theorem along_and {P Q : S → A → Prop} {s : S} {actions : List A} :
    Along step (fun s a => P s a ∧ Q s a) s actions ↔
      Along step P s actions ∧ Along step Q s actions := by
  induction actions generalizing s with
  | nil => simp
  | cons a actions ih =>
    rw [along_cons, along_cons, along_cons, ih]
    tauto

/-- Two step functions whose steps differ only where it can be seen lead through states that look
the same exactly if every step of the run is the same. -/
theorem runs_agree_iff {V : Type*} {ideal : S → A → S} {view : S → V}
    (hview : ∀ s a, view (step s a) = view (ideal s a) → step s a = ideal s a) {s : S}
    {actions : List A} :
    (∀ before, before <+: actions → view (run step s before) = view (run ideal s before)) ↔
      Along step (fun s a => step s a = ideal s a) s actions := by
  induction actions generalizing s with
  | nil => simp
  | cons a actions ih =>
    rw [along_cons, ← ih]
    constructor
    · intro h
      have hsame := hview s a (h [a] (List.cons_prefix_cons.mpr ⟨rfl, List.nil_prefix⟩))
      refine ⟨hsame, fun before hprefix => ?_⟩
      have hrest := h (a :: before) (List.cons_prefix_cons.mpr ⟨rfl, hprefix⟩)
      rwa [run_cons, run_cons, ← hsame] at hrest
    · rintro ⟨hsame, hrest⟩ before hbefore
      cases before with
      | nil => rfl
      | cons b before =>
        obtain ⟨rfl, hprefix⟩ := List.cons_prefix_cons.mp hbefore
        rw [run_cons, run_cons, ← hsame]
        exact hrest before hprefix

@[simp] theorem throughout_nil {P : S → Prop} {s : S} : Throughout step P s [] ↔ P s := Iff.rfl

@[simp] theorem throughout_cons {P : S → Prop} {s : S} {a : A} {actions : List A} :
    Throughout step P s (a :: actions) ↔ P s ∧ Throughout step P (step s a) actions := Iff.rfl

/-- A decidable step property of a run can be checked. -/
instance decidableAlong {P : S → A → Prop} [∀ s a, Decidable (P s a)] :
    (s : S) → (actions : List A) → Decidable (Along step P s actions)
  | _, [] => isTrue trivial
  | s, a :: actions =>
    have := decidableAlong (P := P) (step s a) actions
    inferInstanceAs (Decidable (P s a ∧ Along step P (step s a) actions))

/-- What holds throughout a run holds where it starts. -/
theorem Throughout.head {P : S → Prop} {s : S} {actions : List A}
    (h : Throughout step P s actions) : P s := by
  cases actions with
  | nil => exact h
  | cons a actions => exact h.1

/-- What holds throughout a run is what holds after each of its prefixes. -/
theorem throughout_iff {P : S → Prop} {s : S} {actions : List A} :
    Throughout step P s actions ↔ ∀ before, before <+: actions → P (run step s before) := by
  induction actions generalizing s with
  | nil => simp
  | cons a actions ih =>
    rw [throughout_cons, ih]
    constructor
    · rintro ⟨hs, hrest⟩ before hbefore
      cases before with
      | nil => exact hs
      | cons b before =>
        obtain ⟨rfl, hprefix⟩ := List.cons_prefix_cons.mp hbefore
        exact hrest before hprefix
    · intro h
      refine ⟨h [] List.nil_prefix, fun before hprefix => ?_⟩
      exact h (a :: before) (List.cons_prefix_cons.mpr ⟨rfl, hprefix⟩)

/-- A law that an admissible step keeps exactly under a condition holds throughout a run of such
steps exactly if every step of it meets the condition. -/
theorem throughout_iff_along_of {I L : S → Prop} {P R : S → A → Prop}
    (hI : ∀ s a, I s → R s a → I (step s a))
    (hL : ∀ s a, I s → R s a → L s → (L (step s a) ↔ P s a)) {s : S} (hs : I s) (h : L s)
    {actions : List A} (hrun : Along step R s actions) :
    Throughout step L s actions ↔ Along step P s actions := by
  induction actions generalizing s with
  | nil => simp [h]
  | cons a actions ih =>
    obtain ⟨ha, hrest⟩ := hrun
    rw [throughout_cons, along_cons, ← hL s a hs ha h]
    constructor
    · rintro ⟨_, hlater⟩
      have hnext := hlater.head
      exact ⟨hnext, (ih (hI s a hs ha) hnext hrest).mp hlater⟩
    · rintro ⟨hnext, hlater⟩
      exact ⟨h, (ih (hI s a hs ha) hnext hrest).mpr hlater⟩

theorem along_true (s : S) (actions : List A) : Along step (fun _ _ => True) s actions := by
  induction actions generalizing s with
  | nil => trivial
  | cons a actions ih => exact ⟨trivial, ih (step s a)⟩

/-- A law that a step keeps exactly under a condition holds throughout a run exactly if every
step of it meets the condition. -/
theorem throughout_iff_along {I L : S → Prop} {P : S → A → Prop}
    (hI : ∀ s a, I s → I (step s a)) (hL : ∀ s a, I s → L s → (L (step s a) ↔ P s a)) {s : S}
    (hs : I s) (h : L s) (actions : List A) :
    Throughout step L s actions ↔ Along step P s actions :=
  throughout_iff_along_of (fun s a hs _ => hI s a hs) (fun s a hs _ => hL s a hs) hs h
    (along_true s actions)

/-- What holds throughout a run holds before and after each step of it. -/
theorem Throughout.along {P : S → Prop} {s : S} {actions : List A}
    (h : Throughout step P s actions) :
    Along step (fun s a => P s ∧ P (step s a)) s actions := by
  induction actions generalizing s with
  | nil => trivial
  | cons a actions ih => exact ⟨⟨h.1, h.2.head⟩, ih h.2⟩

/-- A law that follows from an invariant holds throughout every run whose steps keep the
invariant. -/
theorem Throughout.of_along {I L : S → Prop} {P : S → A → Prop}
    (hI : ∀ s a, I s → P s a → I (step s a)) (hL : ∀ s, I s → L s) {s : S} {actions : List A}
    (hs : I s) (h : Along step P s actions) : Throughout step L s actions := by
  induction actions generalizing s with
  | nil => exact hL s hs
  | cons a actions ih => exact ⟨hL s hs, ih (hI s a hs h.1) h.2⟩

/-- A law that follows from an invariant of every step holds throughout every run. -/
theorem Throughout.of_invariant {I L : S → Prop} (hI : ∀ s a, I s → I (step s a))
    (hL : ∀ s, I s → L s) {s : S} {actions : List A} (hs : I s) : Throughout step L s actions := by
  induction actions generalizing s with
  | nil => exact hL s hs
  | cons a actions ih => exact ⟨hL s hs, ih (hI s a hs)⟩

section

variable {B : Type*} (step)

/-- What the steps of a run put out, in order. -/
def emitted (out : S → A → Option B) : S → List A → List B
  | _, [] => []
  | s, a :: actions => (out s a).toList ++ emitted out (step s a) actions

variable {step} {out inp : S → A → Option B}

@[simp] theorem emitted_nil (s : S) : emitted step out s [] = [] := rfl

theorem emitted_cons (s : S) (a : A) (actions : List A) :
    emitted step out s (a :: actions) = (out s a).toList ++ emitted step out (step s a) actions :=
  rfl

/-- A run with a buffer puts out what it took in, in the same order, up to what is left. -/
theorem emitted_append_buffer (buffer : S → List B) {I : S → Prop}
    (hI : ∀ s a, I s → I (step s a))
    (hstep : ∀ s a, I s →
      (out s a).toList ++ buffer (step s a) = buffer s ++ (inp s a).toList)
    {s : S} (hs : I s) (actions : List A) :
    emitted step out s actions ++ buffer (run step s actions) =
      buffer s ++ emitted step inp s actions := by
  induction actions generalizing s with
  | nil => simp
  | cons a actions ih =>
    rw [emitted_cons, emitted_cons, run_cons, List.append_assoc, ih (hI s a hs),
      ← List.append_assoc, hstep s a hs, List.append_assoc]

/-- Outputs that use up a potential number at most what was there and what was added. -/
theorem count_emitted_le [DecidableEq B] {I : S → Prop} {b : B} {owed : S → Nat}
    {adds : A → Bool} (hI : ∀ s a, I s → I (step s a))
    (hstep : ∀ s a, I s →
      (out s a).toList.count b + owed (step s a) ≤ owed s + (adds a).toNat)
    {s : S} (hs : I s) (actions : List A) :
    (emitted step out s actions).count b + owed (run step s actions) ≤
      owed s + actions.countP adds := by
  induction actions generalizing s with
  | nil => simp
  | cons a actions ih =>
    have hfirst := hstep s a hs
    have hrest := ih (hI s a hs)
    have hadds : (a :: actions).countP adds = (adds a).toNat + actions.countP adds := by
      rw [List.countP_cons]
      cases adds a <;> simp [Nat.add_comm]
    rw [emitted_cons, List.count_append, run_cons, hadds]
    omega

end

/-- A loop whose every iteration succeeds and extends the invariant by the element it
processed succeeds, with the invariant for the whole list. -/
theorem foldlM_prefix_induction {ε : Type*} {f : S → A → Except ε S} {I : List A → S → Prop}
    {actions : List A} {s : S} (h : I [] s)
    (hstep : ∀ done a rest s, actions = done ++ a :: rest → I done s →
      ∃ s', f s a = .ok s' ∧ I (done ++ [a]) s') :
    ∃ s', actions.foldlM f s = .ok s' ∧ I actions s' := by
  suffices hgoal : ∀ rest done s, actions = done ++ rest → I done s →
      ∃ s', rest.foldlM f s = .ok s' ∧ I actions s' from hgoal actions [] s rfl h
  intro rest
  induction rest with
  | nil =>
    intro done s hsplit hs
    rw [List.append_nil] at hsplit
    exact ⟨s, rfl, hsplit ▸ hs⟩
  | cons a rest ih =>
    intro done s hsplit hs
    obtain ⟨s', hs', hI⟩ := hstep done a rest s hsplit hs
    obtain ⟨final, hfinal, hIfinal⟩ := ih (done ++ [a]) s' (by simp [hsplit]) hI
    refine ⟨final, ?_, hIfinal⟩
    rw [List.foldlM_cons, hs']
    exact hfinal

/-- What every iteration that succeeds preserves holds after a loop that succeeds. -/
theorem foldlM_invariant {ε : Type*} {f : S → A → Except ε S} {I : S → Prop}
    (hstep : ∀ s a s', I s → f s a = .ok s' → I s') {actions : List A} {s final : S} (hs : I s)
    (hok : actions.foldlM f s = .ok final) : I final := by
  induction actions generalizing s with
  | nil =>
    obtain rfl := Except.ok.inj hok
    exact hs
  | cons a actions ih =>
    rw [List.foldlM_cons] at hok
    cases ha : f s a with
    | error e =>
      rw [ha] at hok
      cases hok
    | ok s' =>
      rw [ha] at hok
      exact ih (hstep s a s' hs ha) hok

/-- A loop none of whose iterations changes anything changes nothing. -/
theorem foldlM_eq_self {ε : Type*} {f : S → A → Except ε S} {s : S} {actions : List A}
    (h : ∀ a ∈ actions, f s a = .ok s) : actions.foldlM f s = .ok s := by
  induction actions with
  | nil => rfl
  | cons a actions ih =>
    rw [List.foldlM_cons, h a List.mem_cons_self]
    exact ih fun b hb => h b (List.mem_cons_of_mem _ hb)

end Rellm.Foundation
