import Mathlib.Algebra.Ring.Int.Defs
import Mathlib.Data.List.Nodup
import Rellm.Foundation.Run

/-!
# Infinite scroll

Of the posts of a page a window is rendered, which starts at a post named by its key. The list of posts
grows at its end; at the bottom the window reaches further down, at the top it reaches back up. It
is trimmed above when it gets too large, and below when it reaches back up.

Where the window starts and how many posts it shows are two numbers. What becomes of them does not
depend on the keys.
-/

namespace Rellm.Client.PostsPage.Paging

open Foundation

/-- The window starts at the post with a key, or at the first one; how many posts it shows may be more
than there are. -/
structure Window (Key : Type) where
  start : Option Key
  shown : Int
  deriving DecidableEq, Repr

def revealStep : Int := 25

def maxRendered : Int := 100

section

variable {Key : Type} [DecidableEq Key]

def initialWindow : Window Key := ⟨none, revealStep⟩

/-- The index of the first post with the key, or zero if there is none. -/
def startIndex (keys : List Key) (window : Window Key) : Int :=
  match window.start with
  | none => 0
  | some startKey => (keys.findIdx? fun key => decide (key = startKey)).getD 0

/-- The posts that the window renders. -/
def visible {Item : Type} (keyOf : Item → Key) (window : Window Key) (items : List Item) : List Item :=
  (items.drop (startIndex (items.map keyOf) window).toNat).take window.shown.toNat

def revealBelow (window : Window Key) : Window Key :=
  { window with shown := window.shown + revealStep }

def revealAbove (keys : List Key) (window : Window Key) : Window Key :=
  let start := startIndex keys window
  let newStart := max 0 (start - revealStep)
  { start := if newStart = 0 then none else (keys.drop newStart.toNat).head?
    shown := min maxRendered (window.shown + (start - newStart)) }

def returnToTop (keys : List Key) (window : Window Key) : Window Key where
  start := none
  shown := min maxRendered (window.shown + startIndex keys window)

def trimTop (keys : List Key) (window : Window Key) : Window Key :=
  let start := startIndex keys window
  let rendered := min window.shown (keys.length - start)
  let surplus := rendered - maxRendered
  if 0 < surplus then
    { start := (keys.drop (start + surplus).toNat).head?, shown := window.shown - surplus }
  else window

/-- Drops the surplus at the top. A window whose start is gone starts over. -/
def normalize (keys : List Key) (window : Window Key) : Window Key :=
  match window.start with
  | some startKey =>
    if startKey ∈ keys then trimTop keys window else trimTop keys { window with start := none }
  | none => trimTop keys window

def hasHiddenAbove (keys : List Key) (window : Window Key) : Bool := decide (0 < startIndex keys window)

def remainingBelow (keys : List Key) (window : Window Key) : Int :=
  max 0 (keys.length - startIndex keys window - window.shown)

/-- The posts that may be shown and the window on them. -/
structure Page (Key : Type) where
  keys : List Key
  window : Window Key

inductive Action (Key : Type) where
  | bottomReached
  | topReached
  | returnToTop
  | grow (more : List Key)

/-- The page before anything is reached. -/
def Page.initial (keys : List Key) : Page Key := ⟨keys, initialWindow⟩

/-- What an action makes of the page before the window is normalized. -/
def perform (page : Page Key) : Action Key → Page Key
  | .bottomReached =>
    if 0 < remainingBelow page.keys page.window then
      { page with window := revealBelow page.window }
    else page
  | .topReached =>
    if hasHiddenAbove page.keys page.window then
      { page with window := revealAbove page.keys page.window }
    else page
  | .returnToTop => { page with window := returnToTop page.keys page.window }
  | .grow more => { page with keys := page.keys ++ more }

def step (page : Page Key) (action : Action Key) : Page Key :=
  let performed := perform page action
  { performed with window := normalize performed.keys performed.window }

/-- The keys that are rendered. -/
def Page.rendered (page : Page Key) : List Key := visible id page.window page.keys

end

/-- Where a window starts and how many posts it shows. -/
@[ext] structure Spot where
  start : Int
  shown : Int

namespace Spot

variable (count : Int) (spot : Spot)

/-- How many of the posts that are rendered are too many. -/
def surplus : Int := max 0 (min spot.shown (count - spot.start) - maxRendered)

def trim : Spot := ⟨spot.start + spot.surplus count, spot.shown - spot.surplus count⟩

def below : Spot :=
  if 0 < count - spot.start - spot.shown then ⟨spot.start, spot.shown + revealStep⟩ else spot

def above : Spot :=
  if 0 < spot.start then
    ⟨max 0 (spot.start - revealStep),
      min maxRendered (spot.shown + (spot.start - max 0 (spot.start - revealStep)))⟩
  else spot

def toTop : Spot := ⟨0, min maxRendered (spot.shown + spot.start)⟩

/-- There is a post where the window starts, unless it starts at the top. It is no further ahead of the
posts than one step, and renders no more than it may. -/
structure Sound : Prop where
  start_nonneg : 0 ≤ spot.start
  within : spot.start < count ∨ spot.start = 0
  shown_ge : revealStep ≤ spot.shown
  ahead : spot.shown ≤ count - spot.start + revealStep
  capped : min spot.shown (count - spot.start) ≤ maxRendered

variable {count : Int} {spot : Spot}

theorem above_of_pos (h : 0 < spot.start) : spot.above =
    ⟨max 0 (spot.start - revealStep),
      min maxRendered (spot.shown + (spot.start - max 0 (spot.start - revealStep)))⟩ :=
  if_pos h

theorem below_of_pos (h : 0 < count - spot.start - spot.shown) :
    spot.below count = ⟨spot.start, spot.shown + revealStep⟩ :=
  if_pos h

theorem trim_of_capped (h : min spot.shown (count - spot.start) ≤ maxRendered) :
    spot.trim count = spot := by
  have hsurplus : spot.surplus count = 0 := by
    unfold surplus
    omega
  ext <;> simp [trim, hsurplus]

/-- What is at most a step ahead of the posts and renders at most a step too many is sound when it is
trimmed. -/
theorem sound_trim {start shown : Int} (hstart : 0 ≤ start) (hwithin : start < count ∨ start = 0)
    (hshown : 25 ≤ shown) (hahead : shown ≤ count - start + 25) :
    (trim count ⟨start, shown⟩).Sound count := by
  constructor <;> simp only [trim, surplus, revealStep, maxRendered] <;> omega

theorem Sound.below (h : spot.Sound count) : ((spot.below count).trim count).Sound count := by
  obtain ⟨hstart, hwithin, hshown, hahead, hcapped⟩ := h
  unfold Spot.below
  unfold revealStep at *
  split
  · apply sound_trim <;> omega
  · exact sound_trim hstart hwithin hshown hahead

theorem Sound.above (h : spot.Sound count) : (spot.above.trim count).Sound count := by
  obtain ⟨hstart, hwithin, hshown, hahead, hcapped⟩ := h
  unfold Spot.above
  unfold revealStep maxRendered at *
  split
  · apply sound_trim <;> omega
  · exact sound_trim hstart hwithin hshown hahead

theorem Sound.toTop (h : spot.Sound count) : (spot.toTop.trim count).Sound count := by
  obtain ⟨hstart, hwithin, hshown, hahead, hcapped⟩ := h
  unfold Spot.toTop
  unfold revealStep maxRendered at *
  apply sound_trim <;> omega

theorem Sound.grow (h : spot.Sound count) {more : Int} (hmore : 0 ≤ more) :
    (spot.trim (count + more)).Sound (count + more) := by
  obtain ⟨hstart, hwithin, hshown, hahead, hcapped⟩ := h
  unfold revealStep at *
  apply sound_trim <;> omega

/-- Reaching back up is never trimmed. -/
theorem trim_above (h : spot.Sound count) : spot.above.trim count = spot.above := by
  obtain ⟨hstart, hwithin, hshown, hahead, hcapped⟩ := h
  apply trim_of_capped
  unfold Spot.above
  split
  · simp only [maxRendered]
    omega
  · exact hcapped

end Spot

section

variable {Key : Type} [DecidableEq Key] {keys : List Key} {window : Window Key} {page : Page Key}

/-- The post that the window starts at is there. -/
def Anchored (keys : List Key) (window : Window Key) : Prop := ∀ key ∈ window.start, key ∈ keys

def spotOf (keys : List Key) (window : Window Key) : Spot := ⟨startIndex keys window, window.shown⟩

theorem startIndex_none (shown : Int) : startIndex keys ⟨none, shown⟩ = 0 := rfl

theorem startIndex_nonneg : 0 ≤ startIndex keys window := by
  unfold startIndex
  split <;> omega

/-- The index of an anchored window, which does not change as the list grows. -/
theorem startIndex_append (h : Anchored keys window) (more : List Key) :
    startIndex (keys ++ more) window = startIndex keys window := by
  unfold startIndex
  split
  · rfl
  · rename_i startKey hstart
    have hsome : (keys.findIdx? fun key => decide (key = startKey)).isSome = true := by
      rw [List.findIdx?_isSome, List.any_eq_true]
      exact ⟨startKey, h startKey hstart, decide_eq_true rfl⟩
    obtain ⟨index, hindex⟩ := Option.isSome_iff_exists.mp hsome
    rw [List.findIdx?_append, hindex, Option.some_or]

theorem startIndex_lt : startIndex keys window < keys.length ∨
    startIndex keys window = 0 := by
  unfold startIndex
  split
  · exact Or.inr rfl
  · rename_i startKey hstart
    cases hindex : keys.findIdx? fun key => decide (key = startKey) with
    | none => exact Or.inr rfl
    | some index =>
      obtain ⟨hlt, _⟩ := List.findIdx?_eq_some_iff_getElem.mp hindex
      exact Or.inl (by simpa using hlt)

/-- A window that is anchored at an index starts there. -/
theorem startIndex_head?_drop (hnodup : keys.Nodup) {index : Nat} (h : index < keys.length)
    (shown : Int) : startIndex keys ⟨(keys.drop index).head?, shown⟩ = index := by
  have hfind : (keys.findIdx? fun key => decide (key = keys[index])) = some index := by
    rw [List.findIdx?_eq_some_iff_getElem]
    refine ⟨h, decide_eq_true rfl, ?_⟩
    intro other hother heq
    have hsame := (hnodup.getElem_inj_iff).mp (of_decide_eq_true heq)
    omega
  rw [startIndex, List.head?_drop, List.getElem?_eq_getElem h]
  simp only [hfind, Option.getD_some]

omit [DecidableEq Key] in
theorem anchored_head?_drop (index : Nat) (shown : Int) :
    Anchored keys ⟨(keys.drop index).head?, shown⟩ := by
  intro key hkey
  exact List.mem_of_mem_drop (List.mem_of_head? hkey)

theorem normalize_eq (h : Anchored keys window) : normalize keys window = trimTop keys window := by
  unfold normalize
  split
  · rename_i startKey hstart
    rw [if_pos (h startKey hstart)]
  · rfl

/-- Trimming a window trims where it starts and how many posts it shows. -/
theorem spotOf_trimTop (hnodup : keys.Nodup) (h : Anchored keys window) :
    spotOf keys (trimTop keys window) = (spotOf keys window).trim keys.length ∧
      Anchored keys (trimTop keys window) := by
  have hnonneg : 0 ≤ startIndex keys window := startIndex_nonneg
  unfold trimTop
  dsimp only
  split
  · rename_i hsurplus
    refine ⟨?_, anchored_head?_drop _ _⟩
    have hlt : (startIndex keys window + (min window.shown (keys.length - startIndex keys window)
        - maxRendered)).toNat < keys.length := by
      unfold maxRendered at *
      omega
    ext
    · rw [spotOf, startIndex_head?_drop hnodup hlt]
      simp only [Spot.trim, Spot.surplus, spotOf]
      omega
    · simp only [Spot.trim, Spot.surplus, spotOf]
      omega
  · rename_i hsurplus
    refine ⟨?_, h⟩
    ext <;> simp only [Spot.trim, Spot.surplus, spotOf] <;> omega

theorem spotOf_revealAbove (hnodup : keys.Nodup) (hhidden : 0 < startIndex keys window) :
    spotOf keys (revealAbove keys window) = (spotOf keys window).above ∧
      Anchored keys (revealAbove keys window) := by
  have hlt : startIndex keys window < keys.length ∨ startIndex keys window = 0 := startIndex_lt
  rw [Spot.above_of_pos hhidden]
  unfold revealAbove
  dsimp only [spotOf]
  split
  · rename_i hzero
    refine ⟨?_, nofun⟩
    rw [startIndex_none, hzero]
  · refine ⟨?_, anchored_head?_drop _ _⟩
    unfold revealStep at *
    rw [startIndex_head?_drop hnodup (by omega)]
    ext
    · dsimp only
      omega
    · rfl

/-- Where the window of a page starts and how many posts it shows. -/
def Page.spot (page : Page Key) : Spot := spotOf page.keys page.window

/-- The keys of a page are distinct, and its window is anchored and sound. -/
structure Page.Sound (page : Page Key) : Prop where
  nodup : page.keys.Nodup
  anchored : Anchored page.keys page.window
  spot : page.spot.Sound page.keys.length

/-- What an action makes of the two numbers. -/
def performSpot (count : Int) (spot : Spot) : Action Key → Spot
  | .bottomReached => spot.below count
  | .topReached => spot.above
  | .returnToTop => spot.toTop
  | .grow _ => spot

/-- The keys stay distinct as the list grows. -/
def Distinct (page : Page Key) : Action Key → Prop
  | .grow more => (page.keys ++ more).Nodup
  | _ => True

theorem perform_bottomReached : perform page .bottomReached =
    if 0 < remainingBelow page.keys page.window then
      { page with window := revealBelow page.window }
    else page := rfl

theorem perform_topReached : perform page .topReached =
    if hasHiddenAbove page.keys page.window then
      { page with window := revealAbove page.keys page.window }
    else page := rfl

theorem spot_perform (h : page.Sound) (action : Action Key) :
    (perform page action).spot = performSpot page.keys.length page.spot action ∧
      Anchored (perform page action).keys (perform page action).window := by
  obtain ⟨hnodup, hanchored, _⟩ := h
  cases action with
  | bottomReached =>
    have hremaining : 0 < remainingBelow page.keys page.window ↔
        0 < page.keys.length - page.spot.start - page.spot.shown := by
      simp only [remainingBelow, Page.spot, spotOf]
      omega
    by_cases hbelow : 0 < remainingBelow page.keys page.window
    · rw [perform_bottomReached, if_pos hbelow, performSpot, Spot.below_of_pos (hremaining.mp hbelow)]
      exact ⟨rfl, hanchored⟩
    · rw [perform_bottomReached, if_neg hbelow, performSpot, Spot.below,
        if_neg (mt hremaining.mpr hbelow)]
      exact ⟨rfl, hanchored⟩
  | topReached =>
    have hhas : hasHiddenAbove page.keys page.window = true ↔
        0 < startIndex page.keys page.window := decide_eq_true_iff
    by_cases hhidden : 0 < startIndex page.keys page.window
    · rw [perform_topReached, if_pos (hhas.mpr hhidden), performSpot]
      exact spotOf_revealAbove hnodup hhidden
    · rw [perform_topReached, if_neg (mt hhas.mp hhidden)]
      exact ⟨(if_neg hhidden).symm, hanchored⟩
  | returnToTop => exact ⟨rfl, nofun⟩
  | grow more =>
    refine ⟨?_, fun key hkey => List.mem_append_left _ (hanchored key hkey)⟩
    simp only [perform, performSpot, Page.spot, spotOf, startIndex_append hanchored]

/-- A step performs the action on the two numbers and trims them. -/
theorem spot_step (h : page.Sound) {action : Action Key} (hdistinct : Distinct page action) :
    (step page action).spot = (performSpot page.keys.length page.spot action).trim
      (step page action).keys.length ∧
    Anchored (step page action).keys (step page action).window := by
  obtain ⟨hspot, hanchored⟩ := spot_perform h action
  have hnodup : (perform page action).keys.Nodup := by
    cases action with
    | bottomReached =>
      rw [perform_bottomReached]
      split <;> exact h.nodup
    | topReached =>
      rw [perform_topReached]
      split <;> exact h.nodup
    | returnToTop => exact h.nodup
    | grow more => exact hdistinct
  have htrim := spotOf_trimTop hnodup hanchored
  rw [← normalize_eq hanchored] at htrim
  rw [← hspot]
  exact htrim

/-- Only the list's growth changes the keys. -/
theorem keys_step (page : Page Key) (action : Action Key) :
    (step page action).keys = match action with
      | .grow more => page.keys ++ more
      | _ => page.keys := by
  cases action with
  | bottomReached =>
    show (perform page .bottomReached).keys = page.keys
    rw [perform_bottomReached]
    split <;> rfl
  | topReached =>
    show (perform page .topReached).keys = page.keys
    rw [perform_topReached]
    split <;> rfl
  | returnToTop => rfl
  | grow more => rfl

theorem sound_step (h : page.Sound) {action : Action Key} (hdistinct : Distinct page action) :
    (step page action).Sound := by
  obtain ⟨hspot, hanchored⟩ := spot_step h hdistinct
  refine ⟨?_, hanchored, ?_⟩
  · rw [keys_step]
    cases action with
    | grow more => exact hdistinct
    | bottomReached | topReached | returnToTop => exact h.nodup
  · rw [hspot, keys_step]
    cases action with
    | bottomReached => exact h.spot.below
    | topReached => exact h.spot.above
    | returnToTop => exact h.spot.toTop
    | grow more =>
      rw [List.length_append, Nat.cast_add]
      exact h.spot.grow (Int.natCast_nonneg _)

theorem sound_initial (hnodup : keys.Nodup) : (Page.initial keys).Sound := by
  have hspot : (Page.initial keys).spot = ⟨0, 25⟩ := rfl
  refine ⟨hnodup, nofun, ?_⟩
  rw [hspot]
  refine ⟨Int.le_refl 0, Or.inr rfl, Int.le_refl 25, ?_, ?_⟩
  · show (25 : Int) ≤ keys.length - 0 + 25
    omega
  · show min (25 : Int) (keys.length - 0) ≤ 100
    omega

theorem rendered_eq : page.rendered =
    (page.keys.drop page.spot.start.toNat).take page.spot.shown.toNat := by
  rw [Page.rendered, visible, List.map_id]
  rfl

/-- A key is rendered exactly if its index is in the window. -/
theorem mem_rendered (h : page.Sound) {key : Key} : key ∈ page.rendered ↔
    ∃ index : Nat, page.keys[index]? = some key ∧ page.spot.start ≤ index ∧
      index < page.spot.start + page.spot.shown := by
  obtain ⟨hstart, _, hshown, _, _⟩ := h.spot
  unfold revealStep at hshown
  rw [rendered_eq, List.mem_iff_getElem?]
  constructor
  · rintro ⟨index, hindex⟩
    rw [List.getElem?_take] at hindex
    split at hindex
    · rw [List.getElem?_drop] at hindex
      exact ⟨_, hindex, by omega, by omega⟩
    · cases hindex
  · rintro ⟨index, hkey, hge, hlt⟩
    refine ⟨index - page.spot.start.toNat, ?_⟩
    rw [List.getElem?_take, if_pos (by omega), List.getElem?_drop, ← hkey]
    congr 1
    omega

/-- What is rendered is a stretch of the list, and not too long. -/
structure Page.Bounded (page : Page Key) : Prop where
  contiguous : page.rendered <:+: page.keys
  capped : page.rendered.length ≤ maxRendered

/-- Reaching the bottom renders a post further down, and the last post still. -/
structure Page.ReachesDown (page : Page Key) : Prop where
  further : ∃ key ∈ (step page .bottomReached).rendered, ∀ seen ∈ page.rendered,
    page.keys.idxOf seen < page.keys.idxOf key
  keeps : ∀ key ∈ page.rendered.getLast?, key ∈ (step page .bottomReached).rendered

/-- Reaching the top starts further up, and renders the first post still. -/
structure Page.ReachesUp (page : Page Key) : Prop where
  further : startIndex page.keys (step page .topReached).window <
    startIndex page.keys page.window
  keeps : ∀ key ∈ page.rendered.head?, key ∈ (step page .topReached).rendered

/-- Repeating an action some times, or more often, renders a post. -/
def Page.EndsAt (page : Page Key) (action : Action Key) (key : Key) : Prop :=
  ∃ times, ∀ repeated, times ≤ repeated →
    key ∈ (run step page (List.replicate repeated action)).rendered

/-- Every post that reaching the bottom drops is rendered again when the top is reached often
enough. -/
def Page.Restores (page : Page Key) : Prop :=
  ∃ times, ∀ key ∈ page.rendered, key ∉ (step page .bottomReached).rendered →
    key ∈ (run step (step page .bottomReached) (List.replicate times .topReached)).rendered

/-- Every post can be reached. -/
structure Page.ShowsAll (page : Page Key) : Prop where
  bounded : page.Bounded
  down : 0 < remainingBelow page.keys page.window → page.ReachesDown
  up : hasHiddenAbove page.keys page.window = true → page.ReachesUp
  toBottom : ∀ key ∈ page.keys.getLast?, page.EndsAt .bottomReached key
  toTop : ∀ key ∈ page.keys.head?, page.EndsAt .topReached key
  restores : page.Restores

theorem remainingBelow_pos_iff : 0 < remainingBelow page.keys page.window ↔
    0 < page.keys.length - page.spot.start - page.spot.shown := by
  simp only [remainingBelow, Page.spot, spotOf]
  omega

theorem Page.Sound.bounded (h : page.Sound) : page.Bounded := by
  have hcapped := h.spot.capped
  have hnonneg := h.spot.start_nonneg
  refine ⟨?_, ?_⟩
  · rw [rendered_eq]
    exact (List.take_prefix _ _).isInfix.trans (List.drop_suffix _ _).isInfix
  · rw [rendered_eq, List.length_take, List.length_drop]
    unfold maxRendered at *
    omega

/-- Reaching the bottom moves the end of the window a step down, and its start by less than it
shows. -/
theorem spot_bottomReached (h : page.Sound) (hbelow : 0 < remainingBelow page.keys page.window) :
    let spot := (step page .bottomReached).spot
    spot.start + spot.shown = page.spot.start + page.spot.shown + 25 ∧
      page.spot.start ≤ spot.start ∧ spot.start < page.spot.start + page.spot.shown ∧
      spot.start ≤ page.spot.start + 25 ∧
      (page.spot.start < spot.start → 100 ≤ spot.shown) := by
  have hdistinct : Distinct page .bottomReached := trivial
  have hspot := (spot_step h hdistinct).1
  rw [keys_step, performSpot, Spot.below_of_pos (remainingBelow_pos_iff.mp hbelow)] at hspot
  obtain ⟨hstart, _, hshown, _, hcapped⟩ := h.spot
  have hremaining := remainingBelow_pos_iff.mp hbelow
  rw [hspot]
  simp only [Spot.trim, Spot.surplus]
  unfold revealStep maxRendered at *
  omega

/-- Where nothing is left below, reaching the bottom changes nothing. -/
theorem spot_bottomReached_of_not (h : page.Sound)
    (hbelow : ¬ 0 < remainingBelow page.keys page.window) :
    (step page .bottomReached).spot = page.spot := by
  have hdistinct : Distinct page .bottomReached := trivial
  have hspot := (spot_step h hdistinct).1
  rw [keys_step, performSpot, Spot.below, if_neg (mt remainingBelow_pos_iff.mpr hbelow)] at hspot
  rw [hspot, Spot.trim_of_capped h.spot.capped]

theorem spot_topReached (h : page.Sound) :
    (step page .topReached).spot = page.spot.above := by
  have hdistinct : Distinct page .topReached := trivial
  have hspot := (spot_step h hdistinct).1
  rw [keys_step] at hspot
  exact hspot.trans (Spot.trim_above h.spot)

/-- The first key that is rendered is where the window starts. -/
theorem head?_rendered (h : page.Sound) :
    page.rendered.head? = page.keys[page.spot.start.toNat]? := by
  have hshown := h.spot.shown_ge
  have hpos : page.spot.shown.toNat ≠ 0 := by
    unfold revealStep at hshown
    omega
  rw [rendered_eq, List.head?_take, if_neg hpos, List.head?_drop]

/-- The last key that is rendered is at the end of the window, as far as there are posts. -/
theorem getLast?_rendered (h : page.Sound)
    (hbelow : 0 < remainingBelow page.keys page.window) :
    page.rendered.getLast? = page.keys[(page.spot.start + page.spot.shown - 1).toNat]? := by
  obtain ⟨hstart, _, hshown, _, _⟩ := h.spot
  have hremaining := remainingBelow_pos_iff.mp hbelow
  unfold revealStep at hshown
  rw [List.getLast?_eq_getElem?, rendered_eq, List.length_take, List.length_drop,
    List.getElem?_take, if_pos (by omega), List.getElem?_drop]
  congr 1
  omega

theorem Page.Sound.reachesDown (h : page.Sound)
    (hbelow : 0 < remainingBelow page.keys page.window) : page.ReachesDown := by
  have hstep : (step page .bottomReached).Sound := sound_step h trivial
  have hkeys : (step page .bottomReached).keys = page.keys := keys_step page .bottomReached
  obtain ⟨hend, hge, hlt, _, _⟩ := spot_bottomReached h hbelow
  have hremaining := remainingBelow_pos_iff.mp hbelow
  have hstart := h.spot.start_nonneg
  have hshown := h.spot.shown_ge
  unfold revealStep at hshown
  refine ⟨?_, ?_⟩
  · -- the post right after the window
    have hindex : (page.spot.start + page.spot.shown).toNat < page.keys.length := by omega
    refine ⟨page.keys[(page.spot.start + page.spot.shown).toNat], ?_, ?_⟩
    · rw [mem_rendered hstep, hkeys]
      exact ⟨_, List.getElem?_eq_getElem hindex, by omega, by omega⟩
    · intro seen hseen
      obtain ⟨index, hkey, _, hbefore⟩ := (mem_rendered h).mp hseen
      obtain ⟨hindex', rfl⟩ := List.getElem?_eq_some_iff.mp hkey
      rw [h.nodup.idxOf_getElem index hindex', h.nodup.idxOf_getElem _ hindex]
      omega
  · intro key hkey
    rw [getLast?_rendered h hbelow] at hkey
    rw [mem_rendered hstep, hkeys]
    exact ⟨_, hkey, by omega, by omega⟩

theorem Page.Sound.reachesUp (h : page.Sound)
    (hhidden : hasHiddenAbove page.keys page.window = true) : page.ReachesUp := by
  have hstep : (step page .topReached).Sound := sound_step h trivial
  have hkeys : (step page .topReached).keys = page.keys := keys_step page .topReached
  have hpos : 0 < page.spot.start := of_decide_eq_true hhidden
  have habove := spot_topReached h
  rw [Spot.above_of_pos hpos] at habove
  have hstart : (step page .topReached).spot.start = max 0 (page.spot.start - 25) := by
    rw [habove]
    rfl
  have hshown : (step page .topReached).spot.shown =
      min 100 (page.spot.shown + (page.spot.start - max 0 (page.spot.start - 25))) := by
    rw [habove]
    rfl
  have hge := h.spot.shown_ge
  unfold revealStep at hge
  refine ⟨?_, ?_⟩
  · have hindex : startIndex page.keys (step page .topReached).window =
        (step page .topReached).spot.start := by
      rw [Page.spot, hkeys]
      rfl
    have hindex' : startIndex page.keys page.window = page.spot.start := rfl
    omega
  · intro key hkey
    rw [head?_rendered h] at hkey
    rw [mem_rendered hstep, hkeys]
    exact ⟨_, hkey, by omega, by omega⟩

/-- Repeating the bottom moves the end of the window by at least a post each time, as far as there are
posts. -/
theorem run_bottomReached (h : page.Sound) (repeated : Nat) :
    let reached := run step page (List.replicate repeated .bottomReached)
    reached.Sound ∧ reached.keys = page.keys ∧
      min (page.keys.length : Int) (page.spot.start + page.spot.shown + repeated) ≤
        reached.spot.start + reached.spot.shown := by
  induction repeated generalizing page with
  | zero =>
    refine ⟨h, rfl, ?_⟩
    rw [List.replicate_zero, run_nil]
    omega
  | succ repeated ih =>
    have hkeys : (step page .bottomReached).keys = page.keys := keys_step page .bottomReached
    have hdistinct : Distinct page .bottomReached := trivial
    obtain ⟨hsound, hreached, hend⟩ := ih (sound_step h hdistinct)
    rw [hkeys] at hreached hend
    rw [List.replicate_succ, run_cons]
    refine ⟨hsound, hreached, ?_⟩
    by_cases hbelow : 0 < remainingBelow page.keys page.window
    · obtain ⟨hmoved, _⟩ := spot_bottomReached h hbelow
      omega
    · have hsame := spot_bottomReached_of_not h hbelow
      rw [hsame] at hend
      have hnone := mt remainingBelow_pos_iff.mpr hbelow
      omega

/-- Repeating the top moves the start of the window by at least a post each time, up to the first. -/
theorem run_topReached (h : page.Sound) (repeated : Nat) :
    let reached := run step page (List.replicate repeated .topReached)
    reached.Sound ∧ reached.keys = page.keys ∧
      reached.spot.start ≤ max 0 (page.spot.start - repeated) := by
  induction repeated generalizing page with
  | zero =>
    refine ⟨h, rfl, ?_⟩
    rw [List.replicate_zero, run_nil]
    omega
  | succ repeated ih =>
    have hkeys : (step page .topReached).keys = page.keys := keys_step page .topReached
    have hdistinct : Distinct page .topReached := trivial
    obtain ⟨hsound, hreached, hstart⟩ := ih (sound_step h hdistinct)
    rw [hkeys] at hreached
    rw [List.replicate_succ, run_cons]
    refine ⟨hsound, hreached, ?_⟩
    have hnonneg := h.spot.start_nonneg
    have hmoved : (step page .topReached).spot.start ≤ max 0 (page.spot.start - 1) := by
      rw [spot_topReached h, Spot.above]
      split
      · show max 0 (page.spot.start - 25) ≤ _
        omega
      · omega
    omega

theorem Page.Sound.endsAt_last (h : page.Sound) {key : Key} (hlast : key ∈ page.keys.getLast?) :
    page.EndsAt .bottomReached key := by
  refine ⟨page.keys.length, ?_⟩
  intro repeated hrepeated
  obtain ⟨hsound, hkeys, hend⟩ := run_bottomReached h repeated
  have hstart := h.spot.start_nonneg
  have hshown := h.spot.shown_ge
  have hwithin := hsound.spot.within
  unfold revealStep at hshown
  rw [List.getLast?_eq_getElem?] at hlast
  obtain ⟨hindex, _⟩ := List.getElem?_eq_some_iff.mp hlast
  rw [hkeys] at hwithin
  rw [mem_rendered hsound, hkeys]
  exact ⟨_, hlast, by omega, by omega⟩

theorem Page.Sound.endsAt_first (h : page.Sound) {key : Key} (hfirst : key ∈ page.keys.head?) :
    page.EndsAt .topReached key := by
  refine ⟨page.spot.start.toNat, ?_⟩
  intro repeated hrepeated
  obtain ⟨hsound, hkeys, hstart⟩ := run_topReached h repeated
  have hshown := hsound.spot.shown_ge
  have hnonneg := hsound.spot.start_nonneg
  unfold revealStep at hshown
  rw [List.head?_eq_getElem?] at hfirst
  rw [mem_rendered hsound, hkeys]
  exact ⟨_, hfirst, by omega, by omega⟩

/-- Reaching the top once brings back what reaching the bottom dropped. -/
theorem Page.Sound.restores (h : page.Sound) : page.Restores := by
  have hstep : (step page .bottomReached).Sound := sound_step h trivial
  have hkeys : (step page .bottomReached).keys = page.keys := keys_step page .bottomReached
  have hback : (step (step page .bottomReached) .topReached).Sound := sound_step hstep trivial
  have hkeys' : (step (step page .bottomReached) .topReached).keys = page.keys :=
    (keys_step _ .topReached).trans hkeys
  refine ⟨1, ?_⟩
  intro key hkey hdropped
  obtain ⟨index, hindex, hge, hlt⟩ := (mem_rendered h).mp hkey
  have hbefore : (index : Int) < (step page .bottomReached).spot.start ∨
      (step page .bottomReached).spot.start + (step page .bottomReached).spot.shown ≤ index := by
    by_contra hcontra
    exact hdropped ((mem_rendered hstep).mpr ⟨index, hkeys ▸ hindex, by omega, by omega⟩)
  rw [List.replicate_one, run_cons, run_nil, mem_rendered hback, hkeys']
  refine ⟨index, hindex, ?_⟩
  by_cases hbelow : 0 < remainingBelow page.keys page.window
  · obtain ⟨hend, _, _, hnear, hfull⟩ := spot_bottomReached h hbelow
    have hnonneg := h.spot.start_nonneg
    have hpos : 0 < (step page .bottomReached).spot.start := by omega
    rw [spot_topReached hstep, Spot.above_of_pos hpos]
    unfold revealStep maxRendered
    dsimp only
    omega
  · have hsame := spot_bottomReached_of_not h hbelow
    rw [hsame] at hbefore
    omega

theorem Page.Sound.showsAll (h : page.Sound) : page.ShowsAll where
  bounded := h.bounded
  down := h.reachesDown
  up := h.reachesUp
  toBottom := fun _ => h.endsAt_last
  toTop := fun _ => h.endsAt_first
  restores := h.restores

/-- Every post can be reached in every state of a run. -/
theorem shows_every_post (keys : List Key) (hnodup : keys.Nodup) (actions : List (Action Key))
    (hdistinct : Along step Distinct (Page.initial keys) actions) :
    Throughout step Page.ShowsAll (Page.initial keys) actions :=
  Throughout.of_along (I := Page.Sound) (fun _ _ h haction => sound_step h haction)
    (fun _ h => h.showsAll) (sound_initial hnodup) hdistinct

/-- A list that grows by one post. -/
theorem shows_every_post_grown :
    Throughout step Page.ShowsAll (Page.initial [1, 2])
      [.bottomReached, .grow [3], .bottomReached, .topReached] :=
  shows_every_post [1, 2] (by decide) _ ⟨trivial, by unfold Distinct; decide, trivial, trivial, trivial⟩

end

end Rellm.Client.PostsPage.Paging
