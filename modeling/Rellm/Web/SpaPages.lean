import Rellm.Foundation.Replacing

/-!
# Pages with a summary

The pages of the frontends are templates. What a page is about is summarized in its head: a title, a
description and an image take the place of the texts that stand for them, one after the other.
-/

namespace Rellm.Web

open Foundation

abbrev Text := List Char

structure RellmSummary where
  title : Option Text
  description : Option Text
  image : Option Text
  deriving DecidableEq

/-- A text in which a character is written in another way. -/
def replaceChar (c : Char) (written : String) (text : Text) : Text :=
  text.flatMap fun d => if d = c then written.toList else [d]

/-- The first line of a text, escaped. -/
def metaText (text : Text) : Text :=
  let line := text.takeWhile (· ≠ '\n')
  replaceChar '\'' "&#39;" (replaceChar '"' "&quot;" (replaceChar '>' "&gt;"
    (replaceChar '<' "&lt;" (replaceChar '&' "&amp;" line))))

/-- What stands for a part of the summary in a template. -/
inductive Placeholder where
  | socialLink
  | titleTag
  | description
  | ogImage
  | spacedOgImage
  deriving DecidableEq, Repr

namespace Placeholder

def all : List Placeholder := [socialLink, titleTag, description, ogImage, spacedOgImage]

def text : Placeholder → Text
  | socialLink => "Rellm Social Link".toList
  | titleTag => "<title>Rellm</title>".toList
  | description =>
    "A link from a fediverse community with events, posts, and realtime chat".toList
  | ogImage => "<meta property=\"og:image\" content=\"/favicon.png\"/>".toList
  | spacedOgImage => "<meta property=\"og:image\" content=\"/favicon.png\" />".toList

end Placeholder

def titleTag (title : Text) : Text := "<title>".toList ++ metaText title ++ "</title>".toList

def ogImageTag (image : Option Text) : Text :=
  (image.map fun i => "<meta property=\"og:image\" content=\"".toList ++ metaText i ++
    "\"/>".toList).getD []

/-- The page that is served: a template, if there is one, with its summary, if it has one. -/
def spaWebPath (template : Option Text) (summary : Option RellmSummary) : Option Text :=
  match summary, template with
  | some summary, some template =>
    let titled := match summary.title with
      | some title =>
        replaceFirst Placeholder.titleTag.text (titleTag title)
          (replaceFirst Placeholder.socialLink.text (metaText title) template)
      | none => template
    let described :=
      replaceFirst Placeholder.description.text (metaText (summary.description.getD [])) titled
    let tag := ogImageTag summary.image
    some (replaceFirst Placeholder.spacedOgImage.text tag
      (replaceFirst Placeholder.ogImage.text tag described))
  | _, template => template

/-- What takes the place of the placeholders, in the order in which it does. -/
def RellmSummary.steps (summary : RellmSummary) : List (Placeholder × Text) :=
  (match summary.title with
    | some title => [(.socialLink, metaText title), (.titleTag, titleTag title)]
    | none => []) ++
  [(.description, metaText (summary.description.getD [])),
    (.ogImage, ogImageTag summary.image), (.spacedOgImage, ogImageTag summary.image)]

/-- The placeholders of a template. -/
def marksOf (template : Text) : Marks Char Placeholder := scan Placeholder.text Placeholder.all template

/-- What takes the place of a placeholder. Without a title, those for it stay. -/
def RellmSummary.replacement (summary : RellmSummary) : Placeholder → Text
  | .socialLink => (summary.title.map metaText).getD Placeholder.socialLink.text
  | .titleTag => (summary.title.map titleTag).getD Placeholder.titleTag.text
  | .description => metaText (summary.description.getD [])
  | .ogImage | .spacedOgImage => ogImageTag summary.image

/-- A template with all placeholders replaced at once. -/
def filled (template : Text) (summary : RellmSummary) : Text :=
  render summary.replacement (marksOf template)

/-- A template has each placeholder at most once. -/
def EachOnce (template : Text) : Prop := ∀ placeholder : Placeholder, Once placeholder.text template

theorem spaWebPath_eq (template : Text) (summary : RellmSummary) :
    spaWebPath (some template) (some summary) =
      some (replaceEach Placeholder.text summary.steps template) := by
  obtain ⟨title, description, image⟩ := summary
  cases title <;> rfl

/-- What the steps put in the place of the placeholders. -/
theorem filling_steps (summary : RellmSummary) :
    filling Placeholder.text summary.steps = summary.replacement := by
  obtain ⟨title, description, image⟩ := summary
  funext placeholder
  cases title <;> cases placeholder <;> rfl

theorem nodup_steps (summary : RellmSummary) : (summary.steps.map Prod.fst).Nodup := by
  obtain ⟨title, description, image⟩ := summary
  cases title with
  | none => exact (by decide : [Placeholder.description, .ogImage, .spacedOgImage].Nodup)
  | some title => exact (by decide : Placeholder.all.Nodup)

theorem text_ne_nil (placeholder : Placeholder) : placeholder.text ≠ [] := by
  cases placeholder <;> decide +kernel

/-- A character that was not in a text, or is written in another way, is not in it afterwards. -/
theorem notMem_replaceChar {c d : Char} {written : String} {text : Text}
    (hwritten : d ∉ written.toList) (h : d ∉ text ∨ d = c) : d ∉ replaceChar c written text := by
  intro hmem
  obtain ⟨e, he, hd⟩ := List.mem_flatMap.mp hmem
  split at hd
  · exact hwritten hd
  · rename_i hne
    obtain rfl := List.mem_singleton.mp hd
    exact h.elim (fun hnot => hnot he) hne

/-- A text without characters that end an attribute or start a tag. -/
def Inert (text : Text) : Prop := ∀ c ∈ text, c ≠ '<' ∧ c ≠ '>' ∧ c ≠ '"' ∧ c ≠ '\''

theorem inert_metaText (text : Text) : Inert (metaText text) := by
  have hlt : '<' ∉ metaText text := by
    apply notMem_replaceChar (by decide) (Or.inl _)
    apply notMem_replaceChar (by decide) (Or.inl _)
    apply notMem_replaceChar (by decide) (Or.inl _)
    exact notMem_replaceChar (by decide) (Or.inr rfl)
  have hgt : '>' ∉ metaText text := by
    apply notMem_replaceChar (by decide) (Or.inl _)
    apply notMem_replaceChar (by decide) (Or.inl _)
    exact notMem_replaceChar (by decide) (Or.inr rfl)
  have hdouble : '"' ∉ metaText text := by
    apply notMem_replaceChar (by decide) (Or.inl _)
    exact notMem_replaceChar (by decide) (Or.inr rfl)
  have hsingle : '\'' ∉ metaText text := notMem_replaceChar (by decide) (Or.inr rfl)
  intro c hc
  refine ⟨?_, ?_, ?_, ?_⟩
  all_goals
    rintro rfl
    contradiction

/-- Nothing that the summary inserts puts the text of a placeholder in front of its own place. -/
def RellmSummary.Uncaptured (summary : RellmSummary) (template : Text) : Prop :=
  Foundation.Uncaptured (marksOf template) Placeholder.text summary.steps

theorem render_marksOf (template : Text) :
    render Placeholder.text (marksOf template) = template :=
  render_scan (fun placeholder _ => text_ne_nil placeholder) template

theorem EachOnce.markedOnce {template : Text} (h : EachOnce template) (placeholder : Placeholder) :
    MarkedOnce placeholder (marksOf template) := by
  apply MarkedOnce.of_once (text_ne_nil placeholder)
  rw [render_marksOf]
  exact h placeholder

/-- The summary fills a template at once if it captures no placeholder. -/
theorem spaWebPath_eq_filled {template : Text} {summary : RellmSummary} (honce : EachOnce template)
    (h : summary.Uncaptured template) :
    spaWebPath (some template) (some summary) = some (filled template summary) := by
  have heach : replaceEach Placeholder.text summary.steps
      (render Placeholder.text (marksOf template)) = _ :=
    replaceEach_render (nodup_steps summary) (fun step _ => honce.markedOnce step.1)
      (fun _ _ => rfl) h
  rw [render_marksOf, filling_steps] at heach
  rw [spaWebPath_eq, heach, filled]

/-- What a description puts into a template. -/
def descriptionPart (template : Text) (description : Option Text) : Text :=
  match offset Placeholder.text .description (marksOf template) with
  | some _ => metaText (description.getD [])
  | none => []

/-- Two descriptions make a difference at their placeholder only. -/
theorem exists_filled_description (template : Text) (summary : RellmSummary)
    (honce : EachOnce template) : ∃ before after, ∀ description,
      filled template { summary with description := description } =
        before ++ descriptionPart template description ++ after := by
  have hupdate (description : Option Text) :
      RellmSummary.replacement { summary with description := description } =
        Function.update summary.replacement .description (metaText (description.getD [])) := by
    funext placeholder
    cases placeholder <;> rfl
  cases hoffset : offset Placeholder.text .description (marksOf template) with
  | some index =>
    obtain ⟨before, after, heq, _⟩ := exists_of_offset hoffset
    obtain ⟨hbefore, hafter⟩ := honce.markedOnce .description before after heq
    refine ⟨render summary.replacement before, render summary.replacement after, ?_⟩
    intro description
    rw [filled, hupdate, descriptionPart, hoffset, heq, render_append, render_cons,
      render_update_of_notMem hbefore, render_update_of_notMem hafter, renderMark,
      Function.update_self, List.append_assoc]
  | none =>
    have hmem := offset_eq_none_iff.mp hoffset
    refine ⟨filled template summary, [], ?_⟩
    intro description
    rw [filled, hupdate, descriptionPart, hoffset, render_update_of_notMem hmem, filled,
      List.append_nil, List.append_nil]

/-- Two summaries that differ in the description only are served as they fill the template, and the
pages differ where the description is only; and what is inserted is escaped. -/
structure Unshaped (template : Text) (summary : RellmSummary) (description : Option Text) : Prop where
  filled : spaWebPath (some template) (some summary) = some (filled template summary)
  localized : ∃ before after,
    spaWebPath (some template) (some summary) =
      some (before ++ descriptionPart template summary.description ++ after) ∧
    spaWebPath (some template) (some { summary with description := description }) =
      some (before ++ descriptionPart template description ++ after)
  inert : ∀ text, Inert (metaText text)

/-- Pages are not reshaped by summaries that capture no placeholder. -/
theorem unshaped_of_uncaptured (template : Text) (honce : EachOnce template)
    (summary : RellmSummary) (description : Option Text) (h : summary.Uncaptured template)
    (h' : RellmSummary.Uncaptured { summary with description := description } template) :
    Unshaped template summary description := by
  refine ⟨spaWebPath_eq_filled honce h, ?_, inert_metaText⟩
  obtain ⟨before, after, hfilled⟩ := exists_filled_description template summary honce
  refine ⟨before, after, ?_, ?_⟩
  · rw [spaWebPath_eq_filled honce h]
    exact congrArg some (hfilled summary.description)
  · rw [spaWebPath_eq_filled honce h', hfilled description]

/-- A template of the placeholders for the title and the description. -/
def shortTemplate : Text := Placeholder.socialLink.text ++ ' ' :: Placeholder.description.text

theorem marksOf_shortTemplate :
    marksOf shortTemplate = [.inr .socialLink, .inl ' ', .inr .description] := by
  decide +kernel

theorem eachOnce_shortTemplate : EachOnce shortTemplate := by
  intro placeholder
  cases placeholder with
  | socialLink => exact once_of_head (by decide +kernel)
  | description => exact once_of_head (by decide +kernel)
  | titleTag | ogImage | spacedOgImage => exact once_of_head (by decide +kernel)

theorem uncaptured_shortTemplate :
    RellmSummary.Uncaptured ⟨some "A & B".toList, some "<C>".toList, none⟩ shortTemplate := by
  unfold RellmSummary.Uncaptured
  rw [marksOf_shortTemplate]
  exact ⟨by decide +kernel, by decide +kernel, by decide +kernel, by decide +kernel,
    by decide +kernel, trivial⟩

theorem unshaped_shortTemplate :
    Unshaped shortTemplate ⟨some "A & B".toList, some "<C>".toList, none⟩ (some "<C>".toList) :=
  unshaped_of_uncaptured shortTemplate eachOnce_shortTemplate _ _ uncaptured_shortTemplate
    uncaptured_shortTemplate

/-- A title that is the text of the placeholder for the description gets the description. -/
theorem title_captures_description :
    ¬ ∀ template, EachOnce template → ∀ summary description,
      Unshaped template summary description := by
  intro h
  have hserved := (h shortTemplate eachOnce_shortTemplate
    ⟨some Placeholder.description.text, some "C".toList, none⟩ none).filled
  have hhead := congrArg (fun page : Option Text => page.bind List.head?) hserved
  exact absurd hhead (by decide +kernel)

end Rellm.Web
