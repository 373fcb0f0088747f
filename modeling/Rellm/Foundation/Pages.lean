import Mathlib.Data.Set.Basic
import Mathlib.Order.Defs.LinearOrder
import Rellm.Foundation.Queries

/-!
# Pages

A listing is asked for page after page, until a page is the last. Each page is cut out of a sort
of its own, and rows with equal keys come in any order: two pages are pages of one list only
where the sorts agree about what comes before the page. They do wherever a page breaks off between
rows with different keys.
-/

namespace Rellm.Foundation

universe u v

variable {α : Type u} {κ : Type v}

/-- What is collected from a page on. A request answers with the rows of a page and whether another
page follows, unless it fails. -/
inductive Collected (request : Nat → Option (List α × Bool)) : Nat → List α → Prop
  | last {page : Nat} {rows : List α} :
      request page = some (rows, false) → Collected request page rows
  | more {page : Nat} {rows rest : List α} :
      request page = some (rows, true) → Collected request (page + 1) rest →
      Collected request page (rows ++ rest)

/-- The pages together are the rows of a listing, each once. -/
def ReturnsEachOnce (request : Nat → Option (List α × Bool)) (target : List α) : Prop :=
  ∃ rows, Collected request 0 rows ∧ rows.Perm target

/-- A page of a listing with whether another follows it, read off one row more than the page has. -/
def pageOf (size : Nat) (rows : List α) (page : Nat) : List α × Bool :=
  (((rows.drop (page * size)).take (size + 1)).take size,
    decide (size < ((rows.drop (page * size)).take (size + 1)).length))

/-- The answers to requests for pages, each cut out of a list of its own; only pages below some
number can be asked for. -/
def pagesOf (limit size : Nat) (lists : Nat → List α) (page : Nat) : Option (List α × Bool) :=
  if page < limit then some (pageOf size (lists page) page) else none

theorem pageOf_fst (size : Nat) (rows : List α) (page : Nat) :
    (pageOf size rows page).1 = (rows.drop (page * size)).take size := by
  rw [pageOf, List.take_take, Nat.min_eq_left (Nat.le_succ size)]

theorem pageOf_snd (size : Nat) (rows : List α) (page : Nat) :
    (pageOf size rows page).2 = decide ((page + 1) * size < rows.length) := by
  rw [pageOf, List.length_take, List.length_drop, Nat.succ_mul]
  apply decide_eq_decide.mpr
  omega

/-- A page together with what comes before it. -/
theorem take_append_pageOf (size : Nat) (rows : List α) (page : Nat) :
    rows.take (page * size) ++ (pageOf size rows page).1 = rows.take ((page + 1) * size) := by
  rw [pageOf_fst, ← List.take_add, Nat.succ_mul]

section

variable {limit size : Nat} {lists : Set (List α)} {target : List α}

theorem pagesOf_of_lt {ls : Nat → List α} {page : Nat} (h : page < limit) :
    pagesOf limit size ls page = some (pageOf size (ls page) page) := if_pos h

theorem pagesOf_eq_some {ls : Nat → List α} {page : Nat} {answer : List α × Bool}
    (h : pagesOf limit size ls page = some answer) :
    page < limit ∧ pageOf size (ls page) page = answer := by
  unfold pagesOf at h
  split at h
  · exact ⟨‹_›, Option.some.inj h⟩
  · cases h

/-- The lists of a set agree on the rows before every page. -/
def AgreeBefore (size : Nat) (lists : Set (List α)) : Prop :=
  ∀ page, ∀ l ∈ lists, ∀ l' ∈ lists, (l.take (page * size)).Perm (l'.take (page * size))

/-- What comes before the last page of a list, and that page, are the list. -/
theorem last_perm {l : List α} {page : Nat} (hlast : (pageOf size l page).2 = false)
    (hsame : l.Perm target) : (l.take (page * size) ++ (pageOf size l page).1).Perm target := by
  rw [pageOf_snd, decide_eq_false_iff_not, Nat.not_lt] at hlast
  rw [take_append_pageOf, List.take_of_length_le hlast]
  exact hsame

/-- A page that is the last one completes what comes before it. -/
theorem exists_collected_last (hagree : AgreeBefore size lists)
    (hsame : ∀ l ∈ lists, l.Perm target) {ls : Nat → List α} (hls : ∀ page, ls page ∈ lists)
    {page : Nat} (hlimit : page < limit) (hlast : (pageOf size (ls page) page).2 = false) :
    ∃ rows, Collected (pagesOf limit size ls) page rows ∧
      ∀ l ∈ lists, (l.take (page * size) ++ rows).Perm target := by
  refine ⟨(pageOf size (ls page) page).1, .last ?_, fun l hl => ?_⟩
  · rw [pagesOf_of_lt hlimit, ← hlast]
  · exact (List.Perm.append_right _ (hagree page l hl _ (hls page))).trans
      (last_perm hlast (hsame _ (hls page)))

/-- Lists that agree before every page, each with the rows of the listing, are collected into
these. -/
theorem exists_collected (hagree : AgreeBefore size lists)
    (hsame : ∀ l ∈ lists, l.Perm target) {ls : Nat → List α} (hls : ∀ page, ls page ∈ lists)
    (left : Nat) (page : Nat) (hlimit : page + left < limit)
    (hleft : target.length ≤ (page + left + 1) * size) :
    ∃ rows, Collected (pagesOf limit size ls) page rows ∧
      ∀ l ∈ lists, (l.take (page * size) ++ rows).Perm target := by
  have hpage : page < limit := Nat.lt_of_le_of_lt (Nat.le_add_right page left) hlimit
  induction left generalizing page with
  | zero =>
    refine exists_collected_last hagree hsame hls hpage ?_
    rw [pageOf_snd, decide_eq_false_iff_not, (hsame _ (hls page)).length_eq, Nat.not_lt]
    exact hleft
  | succ left ih =>
    cases hmore : (pageOf size (ls page) page).2 with
    | false => exact exists_collected_last hagree hsame hls hpage hmore
    | true =>
      have hnext : page + (left + 1) = page + 1 + left := by omega
      rw [hnext] at hlimit hleft
      obtain ⟨rest, hrest, hperm⟩ := ih (page + 1) hlimit hleft (by omega)
      refine ⟨(pageOf size (ls page) page).1 ++ rest, .more ?_ hrest, fun l hl => ?_⟩
      · rw [pagesOf_of_lt hpage, ← hmore]
      · rw [← List.append_assoc]
        refine (List.Perm.append_right _ (List.Perm.append_right _
          (hagree page l hl _ (hls page)))).trans ?_
        rw [take_append_pageOf]
        exact hperm _ (hls page)

/-- From a page on from which all lists are one, the rest of this list is collected. -/
theorem Collected.eq_drop {ls : Nat → List α} {l : List α} {page : Nat} {rows : List α}
    (h : Collected (pagesOf limit size ls) page rows) (hls : ∀ later, page ≤ later → ls later = l) :
    rows = l.drop (page * size) := by
  induction h with
  | @last page rows hpage =>
    obtain ⟨rfl, hlast⟩ := Prod.ext_iff.mp (pagesOf_eq_some hpage).2
    rw [hls page le_rfl] at hlast ⊢
    rw [pageOf_snd, decide_eq_false_iff_not, Nat.not_lt, Nat.succ_mul] at hlast
    rw [pageOf_fst, List.take_of_length_le]
    rw [List.length_drop]
    omega
  | @more page rows rest hpage _ ih =>
    obtain ⟨rfl, _⟩ := Prod.ext_iff.mp (pagesOf_eq_some hpage).2
    rw [ih fun later hlater => hls later (Nat.le_of_succ_le hlater), hls page le_rfl, pageOf_fst,
      Nat.succ_mul, ← List.drop_drop, List.take_append_drop]

/-- Where a list answers for the pages before one within it, and another for the others, the first
rows of the one and the further rows of the other are collected. -/
theorem Collected.eq_take_append_drop {ls : Nat → List α} {l l' : List α} {split page : Nat}
    {rows : List α} (h : Collected (pagesOf limit size ls) page rows) (hpage : page ≤ split)
    (hbefore : ∀ earlier, earlier < split → ls earlier = l)
    (hafter : ∀ later, split ≤ later → ls later = l') (hwithin : split * size < l.length) :
    l.take (page * size) ++ rows = l.take (split * size) ++ l'.drop (split * size) := by
  induction h with
  | @last page rows hanswer =>
    rcases Nat.lt_or_eq_of_le hpage with hlt | rfl
    · -- the list goes on after a page before the split
      have hlast := (Prod.ext_iff.mp (pagesOf_eq_some hanswer).2).2
      rw [hbefore page hlt, pageOf_snd, decide_eq_false_iff_not] at hlast
      exact absurd (Nat.lt_of_le_of_lt (Nat.mul_le_mul_right size hlt) hwithin) hlast
    · rw [(Collected.last hanswer).eq_drop hafter]
  | @more page rows rest hanswer hrest ih =>
    rcases Nat.lt_or_eq_of_le hpage with hlt | rfl
    · obtain ⟨rfl, _⟩ := Prod.ext_iff.mp (pagesOf_eq_some hanswer).2
      rw [← ih hlt, ← List.append_assoc, hbefore page hlt, take_append_pageOf]
    · rw [(Collected.more hanswer hrest).eq_drop hafter]

/-- What is collected of one list is on pages that can be asked for. -/
theorem Collected.length_le {ls : Nat → List α} {l : List α} {page : Nat} {rows : List α}
    (h : Collected (pagesOf limit size ls) page rows) (hls : ∀ page, ls page = l) :
    l.length ≤ limit * size := by
  induction h with
  | @last page rows hpage =>
    obtain ⟨hlt, hanswer⟩ := pagesOf_eq_some hpage
    have hlast := (Prod.ext_iff.mp hanswer).2
    rw [hls page, pageOf_snd, decide_eq_false_iff_not, Nat.not_lt] at hlast
    exact hlast.trans (Nat.mul_le_mul_right size hlt)
  | more _ _ ih => exact ih

/-- However the pages are cut out of lists of a set, each row of the listing is returned once,
exactly if these are the rows of every list, the lists agree on the rows before every page, and there are
numbers for all pages. -/
theorem forall_returnsEachOnce_iff (hlimit : 0 < limit) (hnonempty : lists.Nonempty) :
    (∀ ls : Nat → List α, (∀ page, ls page ∈ lists) →
        ReturnsEachOnce (pagesOf limit size ls) target) ↔
      (∀ l ∈ lists, l.Perm target) ∧ AgreeBefore size lists ∧ target.length ≤ limit * size := by
  constructor
  · intro hreturns
    have hsame : ∀ l ∈ lists, l.Perm target := by
      intro l hl
      obtain ⟨rows, hrows, hperm⟩ := hreturns (fun _ => l) fun _ => hl
      have hall : rows = l.drop (0 * size) := hrows.eq_drop fun _ _ => rfl
      rw [Nat.zero_mul, List.drop_zero] at hall
      exact hall ▸ hperm
    refine ⟨hsame, fun split l hl l' hl' => ?_, ?_⟩
    · rcases Nat.lt_or_ge (split * size) l.length with hwithin | hpast
      · obtain ⟨rows, hrows, hperm⟩ := hreturns (fun page => if page < split then l else l') (by
          intro page
          split <;> assumption)
        have hall : l.take (0 * size) ++ rows = l.take (split * size) ++ l'.drop (split * size) :=
          hrows.eq_take_append_drop (Nat.zero_le split) (fun _ hearlier => if_pos hearlier)
            (fun _ hlater => if_neg (Nat.not_lt.mpr hlater)) hwithin
        rw [Nat.zero_mul, List.take_zero, List.nil_append] at hall
        have hboth : (l.take (split * size) ++ l'.drop (split * size)).Perm
            (l'.take (split * size) ++ l'.drop (split * size)) := by
          rw [List.take_append_drop, ← hall]
          exact hperm.trans (hsame l' hl').symm
        exact (List.perm_append_right_iff _).mp hboth
      · have hlength : l'.length = l.length :=
          ((hsame l' hl').trans (hsame l hl).symm).length_eq
        rw [List.take_of_length_le hpast, List.take_of_length_le (hlength ▸ hpast)]
        exact (hsame l hl).trans (hsame l' hl').symm
    · obtain ⟨l, hl⟩ := hnonempty
      obtain ⟨rows, hrows, _⟩ := hreturns (fun _ => l) fun _ => hl
      rw [← (hsame l hl).length_eq]
      exact hrows.length_le fun _ => rfl
  · rintro ⟨hsame, hagree, hlength⟩ ls hls
    obtain ⟨rows, hrows, hperm⟩ : ∃ rows, Collected (pagesOf limit size ls) 0 rows ∧
        ∀ l ∈ lists, (l.take (0 * size) ++ rows).Perm target :=
      exists_collected hagree hsame hls (limit - 1) 0 (by omega) (by
        rwa [Nat.zero_add, Nat.sub_add_cancel hlimit])
    have hall := hperm _ (hls 0)
    rw [Nat.zero_mul, List.take_zero, List.nil_append] at hall
    exact ⟨rows, hrows, hall⟩

end

section

variable [LinearOrder κ]

/-- A list is a sort of the rows by a key, greatest first. -/
def Sorts (key : α → κ) (rows l : List α) : Prop :=
  l.Perm rows ∧ l.Pairwise fun a b => key b ≤ key a

/-- A way to sort rows by a key, greatest first; rows with equal keys may come in any order. -/
structure Sorter (key : α → κ) where
  sort : List α → List α
  sorts : ∀ rows, Sorts key rows (sort rows)

variable {key : α → κ} {rows : List α}

/-- The sort that keeps rows with equal keys in order. -/
def Sorter.stable (key : α → κ) : Sorter key where
  sort rows := rows.mergeSort fun a b => decide (key b ≤ key a)
  sorts rows := by
    refine ⟨List.mergeSort_perm rows _, ?_⟩
    have htrans (a b c : α) (hab : decide (key b ≤ key a) = true)
        (hbc : decide (key c ≤ key b) = true) : decide (key c ≤ key a) = true :=
      decide_eq_true ((of_decide_eq_true hbc).trans (of_decide_eq_true hab))
    have htotal (a b : α) : (decide (key b ≤ key a) || decide (key a ≤ key b)) = true := by
      rw [Bool.or_eq_true, decide_eq_true_iff, decide_eq_true_iff]
      exact le_total _ _
    have hsorted := List.pairwise_mergeSort htrans htotal rows
    exact hsorted.imp of_decide_eq_true

/-- A sort of some rows is one that a way to sort may make. -/
def Sorter.making [DecidableEq α] {l : List α} (h : Sorts key rows l) : Sorter key where
  sort other := if other = rows then l else (Sorter.stable key).sort other
  sorts other := by
    split
    · rename_i heq
      exact heq ▸ h
    · exact (Sorter.stable key).sorts other

theorem Sorter.sort_making [DecidableEq α] {l : List α} (h : Sorts key rows l) :
    (Sorter.making h).sort rows = l := if_pos rfl

/-- Some rows are those with the greatest keys, down to some bound. -/
def SplitsAt (key : α → κ) (rows : List α) (count : Nat) : Prop :=
  ∃ bound, rows.countP (fun row => decide (bound ≤ key row)) = count

/-- Every page of a listing but the last breaks off between rows with different keys. -/
def PageBreaks (key : α → κ) (size : Nat) (rows : List α) : Prop :=
  ∀ page, 0 < page * size → page * size < rows.length → SplitsAt key rows (page * size)

/-- Of rows that come before all others, those are taken that there are. -/
theorem filter_eq_take_countP {p : α → Bool}
    (h : rows.Pairwise fun a b => p b = true → p a = true) :
    rows.filter p = rows.take (rows.countP p) := by
  induction rows with
  | nil => rfl
  | cons a rows ih =>
    obtain ⟨hfirst, hrest⟩ := List.pairwise_cons.mp h
    by_cases ha : p a = true
    · rw [List.filter_cons_of_pos ha, List.countP_cons_of_pos ha, List.take_succ_cons, ih hrest]
    · have hnone : ∀ b ∈ rows, ¬ p b = true := fun b hb hp => ha (hfirst b hb hp)
      rw [List.filter_cons_of_neg ha, List.countP_cons_of_neg ha, List.countP_eq_zero.mpr hnone,
        List.take_zero, List.filter_eq_nil_iff.mpr hnone]

/-- Rows with equal keys may change places in a sort. -/
theorem pairwise_swap {before between after : List α} {a b : α} (hkey : key a = key b)
    (h : (before ++ a :: (between ++ b :: after)).Pairwise fun a b => key b ≤ key a) :
    (before ++ b :: (between ++ a :: after)).Pairwise fun a b => key b ≤ key a := by
  simp only [List.pairwise_append, List.pairwise_cons, List.mem_append, List.mem_cons] at h ⊢
  obtain ⟨hbefore, ⟨ha, hbetween, ⟨hb, hafter⟩, hcross⟩, hfirst⟩ := h
  refine ⟨hbefore, ⟨?_, hbetween, ⟨?_, hafter⟩, ?_⟩, ?_⟩
  · rintro c (hc | rfl | hc)
    · exact (ha c (.inl hc)).trans hkey.le
    · exact hkey.le
    · exact hb c hc
  · intro c hc
    exact (hb c hc).trans hkey.ge
  · rintro c hc d (rfl | hd)
    · rw [hkey]
      exact hcross c hc b (.inl rfl)
    · exact hcross c hc d (.inr hd)
  · rintro c hc d (rfl | hd | rfl | hd)
    · exact hfirst c hc _ (.inr (.inr (.inl rfl)))
    · exact hfirst c hc d (.inr (.inl hd))
    · exact hfirst c hc _ (.inl rfl)
    · exact hfirst c hc d (.inr (.inr (.inr hd)))

/-- What is kept of the sorts of some rows. -/
def keptSorts (key : α → κ) (rows : List α) (keep : α → Bool) : Set (List α) :=
  {kept | ∃ l, Sorts key rows l ∧ l.filter keep = kept}

/-- Sorts agree on the first rows they keep where these have the greatest keys. -/
theorem SplitsAt.take_perm {keep : α → Bool} {count : Nat}
    (h : SplitsAt key (rows.filter keep) count) {l l' : List α} (hl : l ∈ keptSorts key rows keep)
    (hl' : l' ∈ keptSorts key rows keep) : (l.take count).Perm (l'.take count) := by
  obtain ⟨bound, hcount⟩ := h
  have htake : ∀ kept ∈ keptSorts key rows keep,
      (kept.take count).Perm ((rows.filter keep).filter fun row => bound ≤ key row) := by
    rintro _ ⟨sorted, ⟨hperm, hsorted⟩, rfl⟩
    have hkept := hperm.filter keep
    rw [← hcount, ← hkept.countP_eq, ← filter_eq_take_countP]
    · exact hkept.filter _
    · refine (hsorted.sublist List.filter_sublist).imp fun {a b} hle hbound => ?_
      exact decide_eq_true ((of_decide_eq_true hbound).trans hle)
  exact (htake l hl).trans (htake l' hl').symm

/-- Where the sorts of some rows agree on the first ones they keep, these have the greatest keys. -/
theorem splitsAt_of_take_perm {keep : α → Bool} {count : Nat} (hnodup : rows.Nodup)
    (hpos : 0 < count) (hwithin : count < (rows.filter keep).length)
    (h : ∀ l ∈ keptSorts key rows keep, ∀ l' ∈ keptSorts key rows keep,
      (l.take count).Perm (l'.take count)) : SplitsAt key (rows.filter keep) count := by
  obtain ⟨n, rfl⟩ := Nat.exists_eq_succ_of_ne_zero (Nat.ne_of_gt hpos)
  obtain ⟨l, hl⟩ : ∃ l, Sorts key rows l := ⟨_, (Sorter.stable key).sorts rows⟩
  have hkept := hl.1.filter keep
  -- the last of the first rows, and the row after it
  obtain ⟨before, a, b, after, hn, hsplit⟩ : ∃ before a b after, before.length = n ∧
      l.filter keep = before ++ a :: b :: after := by
    rw [← hkept.length_eq] at hwithin
    obtain ⟨a, tail, htail⟩ := List.exists_cons_of_length_pos (l := (l.filter keep).drop n) (by
      rw [List.length_drop]
      omega)
    have hlength := congrArg List.length htail
    rw [List.length_drop, List.length_cons] at hlength
    obtain ⟨b, after, rfl⟩ := List.exists_cons_of_length_pos (l := tail) (by omega)
    refine ⟨(l.filter keep).take n, a, b, after, List.length_take_of_le (by omega), ?_⟩
    rw [← htail, List.take_append_drop]
  have hsorted := hl.2.sublist (List.filter_sublist (p := keep))
  rw [hsplit, List.pairwise_append, List.pairwise_cons, List.pairwise_cons] at hsorted
  obtain ⟨_, ⟨ha, hb, _⟩, hcross⟩ := hsorted
  rcases (ha b List.mem_cons_self).lt_or_eq with hlt | hkey
  · refine ⟨key a, ?_⟩
    have hbefore : before.countP (fun row => decide (key a ≤ key row)) = before.length :=
      List.countP_eq_length.mpr fun c hc => decide_eq_true (hcross c hc a List.mem_cons_self)
    have hafter : (b :: after).countP (fun row => decide (key a ≤ key row)) = 0 := by
      refine List.countP_eq_zero.mpr fun c hc hle => ?_
      rcases List.mem_cons.mp hc with rfl | hc
      · exact absurd (of_decide_eq_true hle) (not_le_of_gt hlt)
      · exact absurd ((of_decide_eq_true hle).trans (hb c hc)) (not_le_of_gt hlt)
    have hfirst : (a :: b :: after).countP (fun row => decide (key a ≤ key row)) = 0 + 1 := by
      rw [← hafter]
      exact List.countP_cons_of_pos (decide_eq_true le_rfl)
    rw [← hkept.countP_eq, hsplit, List.countP_append, hbefore, hn, hfirst]
  · -- the two rows may change places, and then the first rows are others
    exfalso
    obtain ⟨l₁, l₂, rfl, hl₁, hl₂⟩ := List.filter_eq_append_iff.mp hsplit
    obtain ⟨m₁, m₂, rfl, hm₁, hka, hm₂⟩ := List.filter_eq_cons_iff.mp hl₂
    obtain ⟨m₃, m₄, rfl, hm₃, hkb, hm₄⟩ := List.filter_eq_cons_iff.mp hm₂
    have hswapped : Sorts key rows ((l₁ ++ m₁) ++ b :: (m₃ ++ a :: m₄)) := by
      constructor
      · refine List.Perm.trans ?_ hl.1
        rw [List.append_assoc]
        refine (List.Perm.append_left _ (List.Perm.append_left _ ?_))
        exact (List.perm_middle.cons b).trans
          ((List.Perm.swap a b _).trans (List.perm_middle.symm.cons a))
      · refine pairwise_swap hkey.symm ?_
        rw [List.append_assoc]
        exact hl.2
    have hother : ((l₁ ++ m₁) ++ b :: (m₃ ++ a :: m₄)).filter keep = before ++ b :: a :: after := by
      rw [List.filter_append, List.filter_append, hl₁, List.filter_eq_nil_iff.mpr hm₁,
        List.append_nil, List.filter_cons_of_pos hkb, List.filter_append,
        List.filter_eq_nil_iff.mpr hm₃, List.nil_append, List.filter_cons_of_pos hka, hm₄]
    have hperm := h _ ⟨_, hl, hsplit⟩ _ ⟨_, hswapped, hother⟩
    rw [← hn, List.take_append, List.take_append, List.take_of_length_le (by omega),
      Nat.succ_sub le_rfl, Nat.sub_self, List.take_succ_cons, List.take_succ_cons, List.take_zero,
      List.take_zero, List.perm_append_left_iff, List.singleton_perm_singleton] at hperm
    have hdistinct := (hnodup.sublist (List.filter_sublist (p := keep)))
    rw [← hkept.nodup_iff, hsplit, hperm] at hdistinct
    exact (List.nodup_cons.mp (List.nodup_append.mp hdistinct).2.1).1 List.mem_cons_self

/-- The sorts of some rows agree about what they keep before every page exactly if every page breaks
off between rows with different keys. -/
theorem agreeBefore_keptSorts_iff {keep : α → Bool} {size : Nat} (hnodup : rows.Nodup) :
    AgreeBefore size (keptSorts key rows keep) ↔ PageBreaks key size (rows.filter keep) := by
  constructor
  · intro hagree page hpos hwithin
    exact splitsAt_of_take_perm hnodup hpos hwithin (hagree page)
  · intro hbreaks page l hl l' hl'
    have hlength : ∀ kept ∈ keptSorts key rows keep, kept.Perm (rows.filter keep) := by
      rintro _ ⟨sorted, hsorted, rfl⟩
      exact hsorted.1.filter keep
    rcases Nat.eq_zero_or_pos (page * size) with hzero | hpos
    · rw [hzero, List.take_zero, List.take_zero]
    · rcases Nat.lt_or_ge (page * size) (rows.filter keep).length with hwithin | hpast
      · exact (hbreaks page hpos hwithin).take_perm hl hl'
      · rw [List.take_of_length_le ((hlength l hl).length_eq ▸ hpast),
          List.take_of_length_le ((hlength l' hl').length_eq ▸ hpast)]
        exact (hlength l hl).trans (hlength l' hl').symm

/-- What is kept of the first rows of the sorts of some rows. -/
def cappedSorts (key : α → κ) (rows : List α) (cap : Nat) (keep : α → Bool) : Set (List α) :=
  {kept | ∃ l, Sorts key rows l ∧ (l.take cap).filter keep = kept}

/-- No row that is kept has as many rows with keys as great as its own as to be cut off. -/
def FitsCap (key : α → κ) (rows : List α) (cap : Nat) (keep : α → Bool) : Prop :=
  ∀ row ∈ rows, keep row = true → rows.countP (fun other => decide (key row ≤ key other)) ≤ cap

/-- A row may come after all others with a key as great. -/
theorem exists_sorts_last {row : α} (hrow : row ∈ rows) :
    ∃ before after, Sorts key rows (before ++ row :: after) ∧
      before.length + 1 = rows.countP fun other => decide (key row ≤ key other) := by
  obtain ⟨hperm, hsorted⟩ := (Sorter.stable key).sorts rows
  obtain ⟨before, after, hsplit⟩ := List.append_of_mem (hperm.mem_iff.mpr hrow)
  rw [hsplit] at hperm hsorted
  let equal : α → Bool := fun other => decide (key row ≤ key other)
  have hself : equal row = true := decide_eq_true le_rfl
  simp only [List.pairwise_append, List.pairwise_cons, List.mem_cons] at hsorted
  obtain ⟨hbefore, ⟨hrowAfter, hafter⟩, hcross⟩ := hsorted
  have hequal : after.filter equal = after.take (after.countP equal) :=
    filter_eq_take_countP (hafter.imp fun hle hbound =>
      decide_eq_true ((of_decide_eq_true hbound).trans hle))
  have hsplitAfter : after = after.filter equal ++ after.drop (after.countP equal) := by
    rw [hequal, List.take_append_drop]
  refine ⟨before ++ after.filter equal, after.drop (after.countP equal), ⟨?_, ?_⟩, ?_⟩
  · refine List.Perm.trans ?_ hperm
    rw [List.append_assoc]
    refine List.Perm.append_left _ (List.perm_middle.trans (List.Perm.cons _ ?_))
    rw [← hsplitAfter]
  · rw [hsplitAfter, List.pairwise_append] at hafter
    have hmem : ∀ c ∈ after.filter equal, c ∈ after ∧ key row ≤ key c := fun c hc =>
      ⟨List.mem_of_mem_filter hc, of_decide_eq_true (List.mem_filter.mp hc).2⟩
    simp only [List.pairwise_append, List.pairwise_cons, List.mem_append, List.mem_cons]
    refine ⟨⟨hbefore, hafter.1, fun c hc d hd => hcross c hc d (.inr (hmem d hd).1)⟩,
      ⟨fun c hc => hrowAfter c (List.mem_of_mem_drop hc), hafter.2.1⟩, ?_⟩
    rintro c (hc | hc) d (rfl | hd)
    · exact hcross c hc _ (.inl rfl)
    · exact hcross c hc d (.inr (List.mem_of_mem_drop hd))
    · exact (hmem c hc).2
    · exact hafter.2.2 c hc d hd
  · have hall : before.countP equal = before.length :=
      List.countP_eq_length.mpr fun c hc => decide_eq_true (hcross c hc row (.inl rfl))
    rw [← hperm.countP_eq, List.length_append, ← List.countP_eq_length_filter,
      List.countP_append, List.countP_cons_of_pos hself, hall, Nat.add_assoc]

/-- The rows that are to be kept are among the first of every sort exactly if none may be cut
off. -/
theorem cappedSorts_perm_iff {keep : α → Bool} {cap : Nat} (hnodup : rows.Nodup) :
    (∀ kept ∈ cappedSorts key rows cap keep, kept.Perm (rows.filter keep)) ↔
      FitsCap key rows cap keep := by
  constructor
  · intro hkept row hrow hkeep
    by_contra hmany
    obtain ⟨before, after, hsorts, hcount⟩ :
        ∃ before after, Sorts key rows (before ++ row :: after) ∧
          before.length + 1 = rows.countP fun other => decide (key row ≤ key other) :=
      exists_sorts_last hrow
    have hdistinct := hsorts.1.nodup_iff.mpr hnodup
    have hbefore : row ∉ before := fun hmem =>
      (List.nodup_append.mp hdistinct).2.2 row hmem row List.mem_cons_self rfl
    have hlisted := (hkept _ ⟨_, hsorts, rfl⟩).mem_iff.mpr (List.mem_filter.mpr ⟨hrow, hkeep⟩)
    have htaken := (mem_take_iff hbefore).mp (List.mem_of_mem_filter hlisted)
    omega
  · rintro hfits _ ⟨l, ⟨hperm, hsorted⟩, rfl⟩
    have hcut : (l.drop cap).filter keep = [] := by
      refine List.filter_eq_nil_iff.mpr fun row hrow hkeep => ?_
      have hlength := List.length_pos_of_mem hrow
      rw [List.length_drop] at hlength
      rw [← List.take_append_drop cap l, List.pairwise_append] at hsorted
      have hbefore : (l.take cap).countP (fun other => decide (key row ≤ key other)) = cap := by
        rw [List.countP_eq_length.mpr fun c hc => decide_eq_true (hsorted.2.2 c hc row hrow)]
        exact List.length_take_of_le (by omega)
      have hself : 0 < (l.drop cap).countP fun other => decide (key row ≤ key other) :=
        List.countP_pos_iff.mpr ⟨row, hrow, decide_eq_true le_rfl⟩
      have hcount := hfits row (hperm.mem_iff.mp (List.mem_of_mem_drop hrow)) hkeep
      rw [← hperm.countP_eq, ← List.take_append_drop cap l, List.countP_append, hbefore] at hcount
      omega
    have hall := hperm.filter keep
    rw [← List.take_append_drop cap l, List.filter_append, hcut, List.append_nil] at hall
    exact hall

/-- Where nothing that is to be kept is cut off, a cap changes nothing. -/
theorem cappedSorts_eq {keep : α → Bool} {cap : Nat}
    (h : ∀ kept ∈ cappedSorts key rows cap keep, kept.Perm (rows.filter keep)) :
    cappedSorts key rows cap keep = keptSorts key rows keep := by
  have hsame : ∀ l, Sorts key rows l → (l.take cap).filter keep = l.filter keep := by
    intro l hl
    have hlength := ((h _ ⟨l, hl, rfl⟩).trans (hl.1.filter keep).symm).length_eq
    exact ((List.take_sublist cap l).filter keep).eq_of_length hlength
  ext kept
  constructor
  · rintro ⟨l, hl, rfl⟩
    exact ⟨l, hl, (hsame l hl).symm⟩
  · rintro ⟨l, hl, rfl⟩
    exact ⟨l, hl, hsame l hl⟩

end

end Rellm.Foundation
