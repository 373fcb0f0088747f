import Mathlib.Data.List.Basic

/-!
# Checks of a request

A handler checks a request one condition after the other; the first that is not met is
its answer. Such a chain is a computation in `Except`, and it succeeds exactly if every
check of it is met.
-/

namespace Rellm.Foundation

variable {ε α β : Type}

/-- The value, or else an error. -/
def okOr (value : Option α) (error : ε) : Except ε α :=
  match value with
  | some a => .ok a
  | none => .error error

/-- A condition on what a check answers if it is met. -/
def OnOk (x : Except ε α) (p : α → Prop) : Prop := ∀ a, x = .ok a → p a

instance (x : Except ε α) (p : α → Prop) [∀ a, Decidable (p a)] : Decidable (OnOk x p) :=
  match x with
  | .ok a => decidable_of_iff (p a) ⟨fun h _ ha => by cases ha; exact h, fun h => h a rfl⟩
  | .error _ => .isTrue fun _ h => nomatch h

/-- The condition is met, or else there is an error. -/
def require (p : Prop) [Decidable p] (error : ε) : Except ε Unit :=
  if p then .ok () else .error error

/-- The check is made under a condition. -/
def checkIf (p : Prop) [Decidable p] (check : Except ε Unit) : Except ε Unit :=
  if p then check else .ok ()

@[simp] theorem checkIf_eq_ok {p : Prop} [Decidable p] {check : Except ε Unit} {u : Unit} :
    checkIf p check = .ok u ↔ (p → check = .ok ()) := by
  unfold checkIf
  split <;> simp [*]

@[simp] theorem okOr_eq_ok {value : Option α} {error : ε} {a : α} :
    okOr value error = .ok a ↔ value = some a := by
  cases value <;> simp [okOr]

@[simp] theorem require_eq_ok {p : Prop} [Decidable p] {error : ε} {u : Unit} :
    require p error = .ok u ↔ p := by
  unfold require
  split <;> simp [*]

/-- A chain of checks succeeds exactly if its first check and the rest do. -/
@[simp] theorem checks_eq_ok {x : Except ε α} {f : α → Except ε β} {b : β} :
    (x >>= f) = .ok b ↔ ∃ a, x = .ok a ∧ f a = .ok b := by
  cases x <;> simp [bind, Except.bind]

/-- A chain of checks fails exactly if its first check does, or that succeeds and the rest fails. -/
theorem checks_eq_error {x : Except ε α} {f : α → Except ε β} {e : ε} :
    (x >>= f) = .error e ↔ x = .error e ∨ ∃ a, x = .ok a ∧ f a = .error e := by
  cases x <;> simp [bind, Except.bind]

theorem okOr_eq_error {value : Option α} {error e : ε} :
    okOr value error = .error e ↔ value = none ∧ error = e := by
  cases value <;> simp [okOr]

theorem require_eq_error {p : Prop} [Decidable p] {error e : ε} :
    require p error = .error e ↔ ¬p ∧ error = e := by
  unfold require
  split <;> simp [*]

theorem pure_ne_error {a : α} {e : ε} : (pure a : Except ε α) ≠ .error e := nofun

@[simp] theorem pure_eq_ok {a b : α} : (pure a : Except ε α) = .ok b ↔ a = b := by
  simp [pure, Except.pure]

/-- The answer of checks is converted by converting that of the last one. -/
theorem map_checks {γ : Type} (g : β → γ) (x : Except ε α) (f : α → Except ε β) :
    (x >>= f).map g = x >>= fun a => (f a).map g := by
  cases x <;> rfl

/-- Checks that go on with a converted answer convert it themselves. -/
theorem checks_map {γ : Type} (g : α → β) (x : Except ε α) (f : β → Except ε γ) :
    (x.map g >>= f) = x >>= fun a => f (g a) := by
  cases x <;> rfl

theorem okOr_map (g : α → β) (value : Option α) (error : ε) :
    okOr (value.map g) error = (okOr value error).map g := by
  cases value <;> rfl

/-- What a check makes of a list is made of its members. -/
theorem mem_of_mapM {f : α → Except ε β} {items : List α} {made : List β}
    (h : items.mapM f = .ok made) {b : β} (hb : b ∈ made) : ∃ a ∈ items, f a = .ok b := by
  induction items generalizing made with
  | nil =>
    obtain rfl := Except.ok.inj h
    exact absurd hb List.not_mem_nil
  | cons a items ih =>
    simp only [List.mapM_cons, checks_eq_ok, pure_eq_ok] at h
    obtain ⟨first, hfirst, rest, hrest, rfl⟩ := h
    rcases List.mem_cons.mp hb with rfl | hb
    · exact ⟨a, List.mem_cons_self, hfirst⟩
    · obtain ⟨c, hc, hmade⟩ := ih hrest hb
      exact ⟨c, List.mem_cons_of_mem _ hc, hmade⟩

/-- A check that succeeds on a list makes something of each of its members. -/
theorem mapM_mem {f : α → Except ε β} {items : List α} {made : List β}
    (h : items.mapM f = .ok made) {a : α} (ha : a ∈ items) : ∃ b ∈ made, f a = .ok b := by
  induction items generalizing made with
  | nil => exact absurd ha List.not_mem_nil
  | cons c items ih =>
    simp only [List.mapM_cons, checks_eq_ok, pure_eq_ok] at h
    obtain ⟨first, hfirst, rest, hrest, rfl⟩ := h
    rcases List.mem_cons.mp ha with rfl | ha
    · exact ⟨first, List.mem_cons_self, hfirst⟩
    · obtain ⟨b, hb, hmade⟩ := ih hrest ha
      exact ⟨b, List.mem_cons_of_mem _ hb, hmade⟩

/-- A chain of checks continues after a check that is met. -/
theorem checks_of_ok {x : Except ε α} {f : α → Except ε β} {a : α} (h : x = .ok a) :
    (x >>= f) = f a := by
  rw [h]
  rfl

/-- A chain of checks ends with the first error. -/
theorem checks_of_error {x : Except ε α} {f : α → Except ε β} {e : ε} (h : x = .error e) :
    (x >>= f) = .error e := by
  rw [h]
  rfl

end Rellm.Foundation
