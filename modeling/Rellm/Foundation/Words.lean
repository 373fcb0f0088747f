import Mathlib.Data.List.Basic
import Mathlib.Data.List.DropRight

/-!
# Words and trimming

A list loses, at both of its ends, the elements that satisfy a predicate. What stays has ends that do
not satisfy it, and a list with such ends stays as it is. The words of a list are the stretches between
separators, as long as they are and not empty.
-/

namespace Rellm.Foundation

/-! ## Trimming -/

section

variable {α : Type} {p : α → Bool}

/-- A list without the elements at its ends that satisfy a predicate. -/
def trimmed (p : α → Bool) (l : List α) : List α := (l.dropWhile p).rdropWhile p

/-- Neither end of a list satisfies a predicate. -/
structure CleanEnds (p : α → Bool) (l : List α) : Prop where
  head : ∀ a ∈ l.head?, p a = false
  last : ∀ a ∈ l.getLast?, p a = false

theorem trimmed_sublist (p : α → Bool) (l : List α) : (trimmed p l).Sublist l :=
  (List.rdropWhile_prefix p _).sublist.trans (List.dropWhile_sublist p)

theorem cleanEnds_trimmed (p : α → Bool) (l : List α) : CleanEnds p (trimmed p l) where
  head := by
    intro a ha
    obtain ⟨rest, hrest⟩ := List.rdropWhile_prefix p (l.dropWhile p)
    have hhead : (l.dropWhile p).head? = some a := by
      have ha : ((l.dropWhile p).rdropWhile p).head? = some a := ha
      rw [← hrest, List.head?_append, ha, Option.some_or]
    have hnot := List.head?_dropWhile_not p l
    rw [hhead] at hnot
    exact hnot
  last := by
    intro a ha
    have hne : trimmed p l ≠ [] := fun hnil => by rw [hnil] at ha; cases ha
    have hlast := List.rdropWhile_last_not p _ hne
    rw [Option.mem_def, List.getLast?_eq_some_getLast hne, Option.some.injEq] at ha
    rw [← ha]
    exact Bool.eq_false_iff.mpr hlast

theorem trimmed_eq_self {l : List α} (h : CleanEnds p l) : trimmed p l = l := by
  have hdrop : l.dropWhile p = l := by
    cases l with
    | nil => rfl
    | cons a l => rw [List.dropWhile_cons_of_neg (Bool.eq_false_iff.mp (h.head a rfl))]
  rw [trimmed, hdrop, List.rdropWhile_eq_self_iff]
  intro hne
  exact Bool.eq_false_iff.mp (h.last _ (List.getLast?_eq_some_getLast hne))

theorem trimmed_eq_self_iff {l : List α} : trimmed p l = l ↔ CleanEnds p l :=
  ⟨fun h => h ▸ cleanEnds_trimmed p l, trimmed_eq_self⟩

theorem cleanEnds_of_forall {l : List α} (h : ∀ a ∈ l, p a = false) : CleanEnds p l where
  head := fun a ha => h a (List.mem_of_head? ha)
  last := fun a ha => h a (List.mem_of_getLast? ha)

theorem cleanEnds_nil : CleanEnds p [] := ⟨nofun, nofun⟩

/-- What stands between two lists with clean ends does not matter, unless one of them is empty. -/
theorem CleanEnds.surround {first last : List α} (hfirst : CleanEnds p first)
    (hlast : CleanEnds p last) (hfirstNe : first ≠ []) (hlastNe : last ≠ []) (between : List α) :
    CleanEnds p (first ++ between ++ last) where
  head := by
    intro a ha
    rw [List.append_assoc, List.head?_append_of_ne_nil _ hfirstNe] at ha
    exact hfirst.head a ha
  last := by
    intro a ha
    rw [List.getLast?_append_of_ne_nil _ hlastNe] at ha
    exact hlast.last a ha

/-- Lists with clean ends, none of them empty, have clean ends when they are joined. -/
theorem cleanEnds_intercalate {separator : List α} {pieces : List (List α)}
    (h : ∀ piece ∈ pieces, CleanEnds p piece ∧ piece ≠ []) :
    CleanEnds p (separator.intercalate pieces) := by
  suffices hboth : pieces ≠ [] →
      CleanEnds p (separator.intercalate pieces) ∧ separator.intercalate pieces ≠ [] by
    by_cases hnil : pieces = []
    · rw [hnil, List.intercalate_nil]
      exact cleanEnds_nil
    · exact (hboth hnil).1
  induction pieces with
  | nil => exact fun hne => absurd rfl hne
  | cons first pieces ih =>
    intro _
    obtain ⟨hfirst, hfirstNe⟩ := h first List.mem_cons_self
    by_cases hnil : pieces = []
    · rw [hnil, List.intercalate_singleton]
      exact ⟨hfirst, hfirstNe⟩
    · obtain ⟨hrest, hrestNe⟩ := ih (fun piece hpiece => h piece (List.mem_cons_of_mem _ hpiece)) hnil
      rw [List.intercalate_cons_of_ne_nil hnil]
      exact ⟨hfirst.surround hrest hfirstNe hrestNe separator, by simp [hfirstNe]⟩

end

/-! ## Words -/

section

variable {α : Type} {p : α → Bool} {l word : List α}

def words (p : α → Bool) (l : List α) : List (List α) :=
  (l.splitOnP p).filter fun piece => !piece.isEmpty

/-- A stretch of a list without separators that has one, or an end of the list, on either side. -/
structure Between (p : α → Bool) (l piece : List α) : Prop where
  clean : ∀ a ∈ piece, p a = false
  bounded : ∃ before after, l = before ++ piece ++ after ∧ (∀ a ∈ before.getLast?, p a = true) ∧
    ∀ a ∈ after.head?, p a = true

/-- A list is without separators, or has a first one. -/
theorem exists_first (p : α → Bool) (l : List α) : (∀ a ∈ l, p a = false) ∨
    ∃ first sep rest, l = first ++ sep :: rest ∧ (∀ a ∈ first, p a = false) ∧ p sep = true := by
  induction l with
  | nil => exact Or.inl nofun
  | cons b l ih =>
    by_cases hb : p b = true
    · exact Or.inr ⟨[], b, l, rfl, nofun, hb⟩
    · have hb : p b = false := Bool.eq_false_iff.mpr hb
      obtain hclean | ⟨first, sep, rest, rfl, hclean, hsep⟩ := ih
      · exact Or.inl (List.forall_mem_cons.mpr ⟨hb, hclean⟩)
      · exact Or.inr ⟨b :: first, sep, rest, rfl, List.forall_mem_cons.mpr ⟨hb, hclean⟩, hsep⟩

/-- What lies before a separator and what lies after it are split on their own. -/
theorem splitOnP_of_sep {first rest : List α} {sep : α} (hclean : ∀ a ∈ first, p a = false)
    (hsep : p sep = true) : (first ++ sep :: rest).splitOnP p = first :: rest.splitOnP p := by
  rw [List.splitOnP_append_cons _ _ hsep, List.splitOnP_eq_singleton hclean, List.singleton_append]

theorem Between.of_mem_splitOnP (h : word ∈ l.splitOnP p) : Between p l word := by
  induction hlength : l.length using Nat.strongRecOn generalizing l with
  | ind length ih =>
    obtain hclean | ⟨first, sep, rest, rfl, hclean, hsep⟩ := exists_first p l
    · rw [List.splitOnP_eq_singleton hclean, List.mem_singleton] at h
      rw [h]
      exact ⟨hclean, [], [], by simp, nofun, nofun⟩
    · rw [splitOnP_of_sep hclean hsep] at h
      rcases List.mem_cons.mp h with rfl | h
      · refine ⟨hclean, [], sep :: rest, rfl, nofun, ?_⟩
        intro a ha
        rw [← Option.some.inj ha]
        exact hsep
      · have hlt : rest.length < length := by
          rw [← hlength, List.length_append, List.length_cons]
          omega
        obtain ⟨hword, before, after, rfl, hbefore, hafter⟩ := ih _ hlt h rfl
        refine ⟨hword, first ++ sep :: before, after, by simp, ?_, hafter⟩
        intro a ha
        rw [List.getLast?_append, List.getLast?_cons] at ha
        cases hlast : before.getLast? with
        | none =>
          rw [hlast] at ha
          rw [← Option.some.inj ha]
          exact hsep
        | some b =>
          rw [hlast] at ha
          rw [← Option.some.inj ha]
          exact hbefore b hlast

/-- What ends in a separator is split before it. -/
theorem Between.mem_splitOnP (h : Between p l word) : word ∈ l.splitOnP p := by
  obtain ⟨hclean, before, after, rfl, hbefore, hafter⟩ := h
  have hrest : word ∈ (word ++ after).splitOnP p := by
    cases after with
    | nil => rw [List.append_nil, List.splitOnP_eq_singleton hclean, List.mem_singleton]
    | cons sep rest =>
      rw [splitOnP_of_sep hclean (hafter sep rfl)]
      exact List.mem_cons_self
  rcases List.eq_nil_or_concat before with rfl | ⟨before, sep, rfl⟩
  · exact hrest
  · have hsep : p sep = true := hbefore sep (by simp)
    rw [List.concat_eq_append, List.append_assoc, List.append_assoc, List.singleton_append,
      List.splitOnP_append_cons _ _ hsep]
    exact List.mem_append_right _ hrest

/-- The words are the stretches between separators that are not empty. -/
theorem mem_words_iff : word ∈ words p l ↔ word ≠ [] ∧ Between p l word := by
  rw [words, List.mem_filter]
  constructor
  · rintro ⟨hmem, hne⟩
    refine ⟨?_, Between.of_mem_splitOnP hmem⟩
    rintro rfl
    exact Bool.false_ne_true hne
  · rintro ⟨hne, h⟩
    exact ⟨h.mem_splitOnP, by simpa using hne⟩

end

end Rellm.Foundation
