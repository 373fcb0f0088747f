import Mathlib.Data.List.Nodup
import Mathlib.Logic.Relation

/-!
# Climbing a forest

A forest is given by what is above each of its nodes: another node, or nothing if it is
a root. The chain from a node is what a loop that goes up until it finds a root goes
through; a node is below exactly those of its chain.
-/

namespace Rellm.Foundation

universe u

variable {α : Type u}

/-- What the loop that goes up from a node goes through; the nodes are known, and the last is a
root. -/
inductive Chain (up : α → Option (Option α)) : Option α → List α → Prop
  | root : Chain up none []
  | step {a : α} {above : Option α} {chain : List α} (hup : up a = some above)
      (hchain : Chain up above chain) : Chain up (some a) (a :: chain)

/-- The loop that goes up from a node, for so many steps; it fails at a node that is not known. -/
def climb (up : α → Option (Option α)) : Nat → Option α → Option (List α)
  | _, none => some []
  | 0, some _ => none
  | fuel + 1, some a => do
    let above ← up a
    let chain ← climb up fuel above
    return a :: chain

/-- A node is below another if the loop that goes up from it comes to the other. -/
def Below (up : α → Option (Option α)) : α → α → Prop :=
  Relation.TransGen fun a b => up a = some (some b)

variable {up up' : α → Option (Option α)} {start : Option α} {chain chain' : List α}

namespace Chain

/-- There is one chain from a node. -/
theorem unique (h : Chain up start chain) (h' : Chain up start chain') : chain = chain' := by
  induction h generalizing chain' with
  | root => cases h'; rfl
  | step hup hchain ih =>
    cases h' with
    | step hup' hchain' =>
      rw [hup] at hup'
      cases hup'
      rw [ih hchain']

/-- The chain from a node goes through it. -/
theorem start_mem {a : α} (h : Chain up (some a) chain) : a ∈ chain := by
  cases h with
  | step => exact List.mem_cons_self

/-- Nothing is above a root. -/
theorem eq_nil (h : Chain up none chain) : chain = [] := h.unique .root

/-- The chain goes on from each of its nodes. -/
theorem from_mem (h : Chain up start chain) {a : α} (ha : a ∈ chain) :
    ∃ before after, chain = before ++ a :: after ∧ Chain up (some a) (a :: after) := by
  induction h with
  | root => cases ha
  | step hup hchain ih =>
    rename_i b above rest
    cases List.mem_cons.mp ha with
    | inl heq =>
      subst heq
      exact ⟨[], rest, rfl, .step hup hchain⟩
    | inr hrest =>
      obtain ⟨before, after, rfl, hfrom⟩ := ih hrest
      exact ⟨b :: before, after, rfl, hfrom⟩

/-- The loop never comes to a node twice. -/
theorem nodup (h : Chain up start chain) : chain.Nodup := by
  induction h with
  | root => exact List.nodup_nil
  | step hup hchain ih =>
    rename_i a above rest
    rw [List.nodup_cons]
    refine ⟨?_, ih⟩
    intro ha
    obtain ⟨before, after, rfl, hfrom⟩ := hchain.from_mem ha
    have heq := hfrom.unique (.step hup hchain)
    have hlength := congrArg List.length heq
    simp only [List.length_cons, List.length_append] at hlength
    omega

/-- The nodes of a chain are known. -/
theorem known (h : Chain up start chain) {a : α} (ha : a ∈ chain) : (up a).isSome := by
  obtain ⟨_, _, _, hfrom⟩ := h.from_mem ha
  cases hfrom with
  | step hup _ =>
    rw [hup]
    rfl

/-- The chain is the same in a forest that agrees on its nodes. -/
theorem congr (h : Chain up start chain) (hup : ∀ a ∈ chain, up' a = up a) :
    Chain up' start chain := by
  induction h with
  | root => exact .root
  | step hstep _ ih =>
    refine .step ?_ (ih fun b hb => hup b (List.mem_cons_of_mem _ hb))
    rw [hup _ List.mem_cons_self, hstep]

/-- A node is below the nodes of the chain from it, but for itself. -/
theorem below_iff {a b : α} (hup : up a = some start) (h : Chain up start chain) :
    Below up a b ↔ b ∈ chain := by
  constructor
  · intro hbelow
    induction hbelow using Relation.TransGen.head_induction_on generalizing start chain with
    | single hlast =>
      rw [hup] at hlast
      cases hlast
      cases h with
      | step => exact List.mem_cons_self
    | head hfirst _ ih =>
      rw [hup] at hfirst
      cases hfirst
      cases h with
      | step hup' hchain => exact List.mem_cons_of_mem _ (ih hup' hchain)
  · intro hb
    induction h generalizing a with
    | root => cases hb
    | step hstep hchain ih =>
      cases List.mem_cons.mp hb with
      | inl heq =>
        subst heq
        exact .single hup
      | inr hrest => exact .head hup (ih hstep hrest)

end Chain

/-- The loop goes through the chain if it may take so many steps. -/
theorem climb_eq_some_iff {fuel : Nat} :
    climb up fuel start = some chain ↔ Chain up start chain ∧ chain.length ≤ fuel := by
  induction fuel generalizing start chain with
  | zero =>
    cases start with
    | none =>
      constructor
      · intro h
        cases h
        exact ⟨.root, Nat.le_refl 0⟩
      · rintro ⟨h, _⟩
        cases h
        rfl
    | some a =>
      constructor
      · intro h
        cases h
      · rintro ⟨h, hlength⟩
        cases h
        simp at hlength
  | succ fuel ih =>
    cases start with
    | none =>
      constructor
      · intro h
        cases h
        exact ⟨.root, Nat.zero_le _⟩
      · rintro ⟨h, _⟩
        cases h
        rfl
    | some a =>
      simp only [climb, Option.bind_eq_bind, Option.bind_eq_some_iff, Option.pure_def,
        Option.some.injEq]
      constructor
      · rintro ⟨above, hup, rest, hrest, rfl⟩
        obtain ⟨hchain, hlength⟩ := ih.mp hrest
        exact ⟨.step hup hchain, Nat.succ_le_succ hlength⟩
      · rintro ⟨h, hlength⟩
        cases h with
        | step hup hchain =>
          exact ⟨_, hup, _, ih.mpr ⟨hchain, Nat.le_of_succ_le_succ hlength⟩, rfl⟩

end Rellm.Foundation
