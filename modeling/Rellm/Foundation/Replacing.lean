import Mathlib.Data.List.Infix
import Mathlib.Logic.Function.Basic

/-!
# Replacing placeholders

A template has placeholders, which are found by their text. They may be replaced all at once, or one
after the other, each at the first place where its text is found by then. What was inserted before
may put the text of a placeholder in front of its own place; where it does not, both are the same.
-/

namespace Rellm.Foundation

variable {α Slot : Type} [DecidableEq α] [DecidableEq Slot]

/-- Where a pattern is found first. -/
def firstOccurrence (pattern : List α) : List α → Option Nat
  | [] => none
  | a :: l =>
    if pattern.isPrefixOf (a :: l) then some 0 else (firstOccurrence pattern l).map (· + 1)

/-- Replaces a pattern where it is found first. -/
def replaceFirst (pattern replacement l : List α) : List α :=
  match firstOccurrence pattern l with
  | some index => l.take index ++ replacement ++ l.drop (index + pattern.length)
  | none => l

/-- A template as its placeholders and the elements around them. -/
abbrev Marks (α Slot : Type) := List (α ⊕ Slot)

/-- What is found at an element. -/
def renderMark (f : Slot → List α) : α ⊕ Slot → List α
  | .inl a => [a]
  | .inr slot => f slot

/-- A template with some text for each placeholder. -/
def render (f : Slot → List α) (marks : Marks α Slot) : List α := marks.flatMap (renderMark f)

/-- Where the text of a placeholder starts. -/
def offset (f : Slot → List α) (slot : Slot) : Marks α Slot → Option Nat
  | [] => none
  | mark :: marks =>
    if mark = .inr slot then some 0
    else (offset f slot marks).map (· + (renderMark f mark).length)

/-- The placeholders of a text from the left, after some elements that are skipped. -/
def scanAfter (text : Slot → List α) (slots : List Slot) : Nat → List α → Marks α Slot
  | _, [] => []
  | skipped + 1, _ :: l => scanAfter text slots skipped l
  | 0, a :: l =>
    match slots.find? fun slot => (text slot).isPrefixOf (a :: l) with
    | some slot => .inr slot :: scanAfter text slots ((text slot).length - 1) l
    | none => .inl a :: scanAfter text slots 0 l

/-- The placeholders of a text, from the left. -/
def scan (text : Slot → List α) (slots : List Slot) (l : List α) : Marks α Slot :=
  scanAfter text slots 0 l

/-- A pattern is found at one place at most. -/
def Once (pattern l : List α) : Prop :=
  ∀ i j, pattern <+: l.drop i → pattern <+: l.drop j → i = j

/-- A template has a placeholder at one place at most. -/
def MarkedOnce (slot : Slot) (marks : Marks α Slot) : Prop :=
  ∀ before after, marks = before ++ .inr slot :: after → .inr slot ∉ before ∧ .inr slot ∉ after

/-- Replaces placeholders by their text one after the other. -/
def replaceEach (text : Slot → List α) (steps : List (Slot × List α)) (l : List α) : List α :=
  steps.foldl (fun page step => replaceFirst (text step.1) step.2 page) l

/-- The texts of the placeholders after some of them are replaced. -/
def filling (f : Slot → List α) (steps : List (Slot × List α)) : Slot → List α :=
  steps.foldl (fun f step => Function.update f step.1 step.2) f

/-- What was inserted before never puts the text of a placeholder in front of its own place. -/
def Uncaptured (marks : Marks α Slot) : (Slot → List α) → List (Slot × List α) → Prop
  | _, [] => True
  | f, (slot, replacement) :: steps =>
    firstOccurrence (f slot) (render f marks) = offset f slot marks ∧
      Uncaptured marks (Function.update f slot replacement) steps

section

variable {f : Slot → List α} {slot : Slot} {marks : Marks α Slot}

omit [DecidableEq α] [DecidableEq Slot] in
@[simp] theorem render_nil : render f [] = ([] : List α) := rfl

omit [DecidableEq α] [DecidableEq Slot] in
@[simp] theorem render_cons (mark : α ⊕ Slot) (marks : Marks α Slot) :
    render f (mark :: marks) = renderMark f mark ++ render f marks :=
  List.flatMap_cons

omit [DecidableEq α] [DecidableEq Slot] in
@[simp] theorem render_append (before after : Marks α Slot) :
    render f (before ++ after) = render f before ++ render f after :=
  List.flatMap_append

omit [DecidableEq α] in
/-- The text of a placeholder that is not there does not matter. -/
theorem render_update_of_notMem (h : Sum.inr slot ∉ marks) (replacement : List α) :
    render (Function.update f slot replacement) marks = render f marks := by
  refine List.flatMap_congr ?_
  intro mark hmark
  cases mark with
  | inl a => rfl
  | inr other =>
    have hne : other ≠ slot := by
      rintro rfl
      exact h hmark
    exact Function.update_of_ne hne _ _

/-- A placeholder that starts somewhere is there. -/
theorem exists_of_offset {index : Nat} (h : offset f slot marks = some index) :
    ∃ before after, marks = before ++ .inr slot :: after ∧ (render f before).length = index := by
  induction marks generalizing index with
  | nil => cases h
  | cons mark marks ih =>
    rw [offset] at h
    split at h
    · rename_i hmark
      exact ⟨[], marks, by rw [hmark, List.nil_append], Option.some.inj h⟩
    · obtain ⟨rest, hrest, rfl⟩ := Option.map_eq_some_iff.mp h
      obtain ⟨before, after, rfl, hlength⟩ := ih hrest
      refine ⟨mark :: before, after, rfl, ?_⟩
      rw [render_cons, List.length_append, hlength, Nat.add_comm]

theorem offset_eq_none_iff : offset f slot marks = none ↔ Sum.inr slot ∉ marks := by
  induction marks with
  | nil => simp [offset]
  | cons mark marks ih =>
    rw [offset]
    split
    · rename_i hmark
      simp [hmark]
    · rename_i hmark
      rw [Option.map_eq_none_iff, ih, List.mem_cons, not_or]
      exact ⟨fun h => ⟨Ne.symm hmark, h⟩, fun h => h.2⟩

/-- Where the first place of a text is that of its placeholder, replacing the text replaces the
placeholder. -/
theorem replaceFirst_render (honce : MarkedOnce slot marks)
    (h : firstOccurrence (f slot) (render f marks) = offset f slot marks)
    (replacement : List α) :
    replaceFirst (f slot) replacement (render f marks) =
      render (Function.update f slot replacement) marks := by
  unfold replaceFirst
  rw [h]
  cases hoffset : offset f slot marks with
  | none => exact (render_update_of_notMem (offset_eq_none_iff.mp hoffset) replacement).symm
  | some index =>
    obtain ⟨before, after, rfl, rfl⟩ := exists_of_offset hoffset
    obtain ⟨hbefore, hafter⟩ := honce before after rfl
    dsimp only
    rw [render_append, render_append, render_cons, render_cons, render_update_of_notMem hbefore,
      render_update_of_notMem hafter]
    simp only [renderMark, Function.update_self]
    rw [List.take_left, ← List.append_assoc, ← List.length_append, List.drop_left,
      List.append_assoc]

/-- Replacing placeholders one after the other replaces them all at once where none is captured. -/
theorem replaceEach_render {text : Slot → List α} {steps : List (Slot × List α)}
    (hnodup : (steps.map Prod.fst).Nodup) (honce : ∀ step ∈ steps, MarkedOnce step.1 marks)
    (htext : ∀ step ∈ steps, f step.1 = text step.1) (h : Uncaptured marks f steps) :
    replaceEach text steps (render f marks) = render (filling f steps) marks := by
  induction steps generalizing f with
  | nil => rfl
  | cons step steps ih =>
    obtain ⟨slot, replacement⟩ := step
    rw [List.map_cons, List.nodup_cons] at hnodup
    rw [List.forall_mem_cons] at honce htext
    have hstep := replaceFirst_render honce.1 h.1 replacement
    rw [htext.1] at hstep
    rw [replaceEach, List.foldl_cons, ← replaceEach, hstep]
    refine ih hnodup.2 honce.2 ?_ h.2
    intro other hother
    have hne : other.1 ≠ slot := by
      intro heq
      exact hnodup.1 (List.mem_map.mpr ⟨other, hother, heq⟩)
    rw [Function.update_of_ne hne]
    exact htext.2 other hother

variable {text : Slot → List α} {slots : List Slot} {l : List α}

omit [DecidableEq Slot] in
/-- A template is the text of its placeholders and what is around them. -/
theorem render_scanAfter (hne : ∀ slot ∈ slots, text slot ≠ []) (skipped : Nat) (l : List α) :
    render text (scanAfter text slots skipped l) = l.drop skipped := by
  fun_induction scanAfter text slots skipped l with
  | case1 => rw [render_nil, List.drop_nil]
  | case2 skipped a l ih => rw [ih, List.drop_succ_cons]
  | case3 a l slot hfound ih =>
    have hprefix := List.find?_some hfound
    obtain ⟨rest, hrest⟩ := List.isPrefixOf_iff_prefix.mp hprefix
    rw [render_cons, ih, renderMark, List.drop_zero]
    cases htext : text slot with
    | nil => exact absurd htext (hne slot (List.mem_of_find?_eq_some hfound))
    | cons b pattern =>
      rw [htext, List.cons_append, List.cons.injEq] at hrest
      rw [← hrest.1, ← hrest.2, List.length_cons, Nat.add_sub_cancel, List.drop_left,
        List.cons_append]
  | case4 a l hnone ih => rw [render_cons, ih, renderMark, List.singleton_append, List.drop_zero,
      List.drop_zero]

omit [DecidableEq Slot] in
theorem render_scan (hne : ∀ slot ∈ slots, text slot ≠ []) (l : List α) :
    render text (scan text slots l) = l :=
  render_scanAfter hne 0 l

omit [DecidableEq α] [DecidableEq Slot] in
/-- A text that is found once is that of a placeholder once. -/
theorem MarkedOnce.of_once (hne : text slot ≠ []) (h : Once (text slot) (render text marks)) :
    MarkedOnce slot marks := by
  have hpos : 0 < (text slot).length := List.length_pos_iff.mpr hne
  have hfound (before after : Marks α Slot) (heq : marks = before ++ .inr slot :: after) :
      text slot <+: (render text marks).drop (render text before).length := by
    rw [heq, render_append, List.drop_left, render_cons]
    exact List.prefix_append _ _
  have htwice (first between last : Marks α Slot)
      (heq : marks = first ++ .inr slot :: (between ++ .inr slot :: last)) : False := by
    have hsame := h _ _ (hfound first _ heq)
      (hfound (first ++ .inr slot :: between) last (by rw [heq]; simp))
    rw [render_append, render_cons, List.length_append, List.length_append, renderMark] at hsame
    omega
  intro before after heq
  constructor
  · intro hmem
    obtain ⟨first, between, rfl⟩ := List.append_of_mem hmem
    exact htwice first between after (by rw [heq]; simp)
  · intro hmem
    obtain ⟨between, last, rfl⟩ := List.append_of_mem hmem
    exact htwice before between last heq

omit [DecidableEq Slot] in
/-- A pattern is found once if its first element is. -/
theorem once_of_head {a : α} {rest : List α}
    (h : ((List.range l.length).filter fun i => decide (l[i]? = some a)).length ≤ 1) :
    Once (a :: rest) l := by
  have hmem (i : Nat) (hi : a :: rest <+: l.drop i) :
      i ∈ (List.range l.length).filter fun i => decide (l[i]? = some a) := by
    obtain ⟨tail, htail⟩ := hi
    have hget : l[i]? = some a := by
      rw [← List.head?_drop, ← htail]
      rfl
    obtain ⟨hlt, _⟩ := List.getElem?_eq_some_iff.mp hget
    exact List.mem_filter.mpr ⟨List.mem_range.mpr hlt, decide_eq_true hget⟩
  intro i j hi hj
  match hplaces : (List.range l.length).filter fun i => decide (l[i]? = some a) with
  | [] => exact absurd (hplaces ▸ hmem i hi) List.not_mem_nil
  | [place] =>
    have hsame (i : Nat) (hi : a :: rest <+: l.drop i) : i = place :=
      List.mem_singleton.mp (hplaces ▸ hmem i hi)
    exact (hsame i hi).trans (hsame j hj).symm
  | _ :: _ :: _ =>
    rw [hplaces, List.length_cons, List.length_cons] at h
    omega

end

end Rellm.Foundation
