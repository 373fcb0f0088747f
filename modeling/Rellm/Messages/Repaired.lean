import Rellm.Messages.Rebuilt

/-!
# Repairing emails

Emails were once rebuilt with an empty line after each header, as values kept the line end that the
mail server had given them. The repair takes these empty lines out again. What is stored are the bytes
of a text, which is modelled by its characters.
-/

namespace Rellm.Messages

/-- The end of a line, and an empty line. -/
def doubleCrlf : List Char := ['\r', '\n', '\r', '\n']

/-- The pieces of a text between empty lines, where `segment` is what is read already of the first
one. -/
def splitFrom (segment : List Char) : List Char → List (List Char)
  | [] => [segment]
  | '\r' :: '\n' :: '\r' :: '\n' :: rest => segment :: splitFrom [] rest
  | c :: rest => splitFrom (segment ++ [c]) rest

def splitOnDoubleCrlf (text : List Char) : List (List Char) := splitFrom [] text

/-- Printable ASCII characters without the colon and the blank. -/
def isFieldNameChar (c : Char) : Bool :=
  (decide (33 ≤ c.toNat) && decide (c.toNat ≤ 57)) ||
    (decide (59 ≤ c.toNat) && decide (c.toNat ≤ 126))

def looksLikeHeaderLine (segment : List Char) : Bool :=
  match segment.findIdx? fun c => c = ':' with
  | none => false
  | some 0 => false
  | some (colon + 1) => (segment.take (colon + 1)).all isFieldNameChar

/-- What comes before and after the first colon with a blank. -/
def splitAtColon : List Char → Option (List Char × List Char)
  | [] => none
  | ':' :: ' ' :: rest => some ([], rest)
  | c :: rest => (splitAtColon rest).map fun split => (c :: split.1, split.2)

/-- Sanitizes the value of a header. -/
def resanitizeHeaderSegment (segment : List Char) : List Char :=
  match splitAtColon segment with
  | some (name, rest) => name ++ ':' :: ' ' :: (sanitizeHeaderValue (String.ofList rest)).toList
  | none => (sanitizeHeaderValue (String.ofList segment)).toList

def stripCrlf : List Char → List Char
  | '\r' :: '\n' :: rest => rest
  | segment => segment

/-- The body: the line end that is left before it is taken off, and its empty lines are put back. -/
def repairedBody : List (List Char) → List Char
  | [] => []
  | first :: rest => stripCrlf first ++ rest.flatMap fun segment => doubleCrlf ++ segment

/-- Takes out the empty line after each header. -/
def repairRawMessage (corrupted : List Char) : List Char :=
  let segments := splitOnDoubleCrlf corrupted
  let headers := segments.takeWhile looksLikeHeaderLine
  if headers = [] then corrupted
  else
    headers.foldr (fun header rest => resanitizeHeaderSegment header ++ '\r' :: '\n' :: rest)
      ('\r' :: '\n' :: repairedBody (segments.drop headers.length))

/-- A header as it was written, without its line ends. -/
def headerSegment (header : String × String) : List Char :=
  header.1.toList ++ ':' :: ' ' :: header.2.toList

/-- What an email was rebuilt to: the value of each header kept its line end, and got another. -/
def corrupt (headers : List (String × String)) (contents : String) : List Char :=
  headers.foldr (fun header rest => headerSegment header ++ doubleCrlf ++ rest)
    ('\r' :: '\n' :: contents.toList)

/-- A header with a name, and a value (without its line end) that has no empty line. -/
structure Repairable (header : String × String) : Prop where
  name_ne : header.1 ≠ ""
  name : ∀ c ∈ header.1.toList, isFieldNameChar c = true
  value : ¬ doubleCrlf <:+: header.2.toList ++ ['\r', '\n', '\r']

/-! ### Splitting -/

section

variable {text : List Char} {header : String × String}

/-- A text without an empty line is one piece. -/
theorem splitFrom_append (h : ¬ doubleCrlf <:+: text ++ ['\r', '\n', '\r'])
    (segment rest : List Char) :
    splitFrom segment (text ++ doubleCrlf ++ rest) = (segment ++ text) :: splitFrom [] rest := by
  induction text generalizing segment with
  | nil =>
    rw [List.append_nil]
    rfl
  | cons c text ih =>
    have htext : ¬ doubleCrlf <:+: text ++ ['\r', '\n', '\r'] := fun hinfix =>
      h (List.infix_cons hinfix)
    -- An empty line that begins here would be in the text.
    have hnone (after : List Char) (hc : c = '\r')
        (hafter : text ++ doubleCrlf ++ rest = '\n' :: '\r' :: '\n' :: after) : False := by
      have hlong : ['\n', '\r', '\n'] <+: text ++ ['\r', '\n', '\r'] ++ ('\n' :: rest) := by
        refine ⟨after, ?_⟩
        rw [List.cons_append, List.cons_append, List.cons_append, List.nil_append, ← hafter]
        simp [doubleCrlf]
      have hshort : ['\n', '\r', '\n'] <+: text ++ ['\r', '\n', '\r'] :=
        List.prefix_of_prefix_length_le hlong (List.prefix_append _ _) (by simp)
      refine h ?_
      rw [hc, doubleCrlf]
      exact ((List.prefix_cons_inj '\r').mpr hshort).isInfix
    rw [List.cons_append, List.cons_append, splitFrom, ih htext, List.append_assoc,
      List.singleton_append]
    exact hnone

/-- The pieces of a text and the empty lines between them are the text. -/
theorem exists_splitFrom (segment text : List Char) :
    ∃ first rest, splitFrom segment text = (segment ++ first) :: rest ∧
      text = first ++ rest.flatMap fun piece => doubleCrlf ++ piece := by
  fun_induction splitFrom segment text with
  | case1 segment => exact ⟨[], [], by simp, rfl⟩
  | case2 segment rest ih =>
    obtain ⟨first, pieces, hsplit, htext⟩ := ih
    refine ⟨[], first :: pieces, by rw [hsplit, List.append_nil, List.nil_append], ?_⟩
    rw [List.nil_append, List.flatMap_cons, htext]
    simp [doubleCrlf]
  | case3 segment c rest _ ih =>
    obtain ⟨first, pieces, hsplit, htext⟩ := ih
    refine ⟨c :: first, pieces, by rw [hsplit, List.append_assoc, List.singleton_append], ?_⟩
    rw [htext, List.cons_append]

/-! ### Headers -/

theorem Repairable.segment (h : Repairable header) :
    ¬ doubleCrlf <:+: headerSegment header ++ ['\r', '\n', '\r'] := by
  have hskip {c : Char} {rest : List Char} (hc : c ≠ '\r') (hrest : ¬ doubleCrlf <:+: rest) :
      ¬ doubleCrlf <:+: c :: rest := by
    rw [List.infix_cons_iff, not_or]
    refine ⟨fun hprefix => hc ?_, hrest⟩
    rw [doubleCrlf, List.cons_prefix_cons] at hprefix
    exact hprefix.1.symm
  have hname (name : List Char) (hchars : ∀ c ∈ name, isFieldNameChar c = true) :
      ¬ doubleCrlf <:+: name ++ ':' :: ' ' :: header.2.toList ++ ['\r', '\n', '\r'] := by
    induction name with
    | nil => exact hskip (by decide) (hskip (by decide) h.value)
    | cons c name ih =>
      rw [List.forall_mem_cons] at hchars
      refine hskip ?_ (ih hchars.2)
      rintro rfl
      exact absurd hchars.1 (by decide)
  exact hname _ h.name

theorem Repairable.looksLike (h : Repairable header) :
    looksLikeHeaderLine (headerSegment header) = true := by
  have hnone : header.1.toList.findIdx? (fun c => c = ':') = none := by
    rw [List.findIdx?_eq_none_iff]
    intro c hc
    have hchar := h.name c hc
    rw [decide_eq_false_iff_not]
    rintro rfl
    exact absurd hchar (by decide)
  have hcolon : (headerSegment header).findIdx? (fun c => c = ':') = some header.1.toList.length := by
    rw [headerSegment, List.findIdx?_append, hnone]
    simp [List.findIdx?_cons]
  rw [looksLikeHeaderLine, hcolon]
  cases hlength : header.1.toList.length with
  | zero =>
    have hempty : header.1 = "" := String.toList_eq_nil_iff.mp (List.eq_nil_of_length_eq_zero hlength)
    exact absurd hempty h.name_ne
  | succ n =>
    dsimp only
    rw [← hlength, headerSegment, List.take_left, List.all_eq_true]
    exact h.name

theorem Repairable.resanitize (h : Repairable header) :
    resanitizeHeaderSegment (headerSegment header) = (headerLine header).toList := by
  have hsplit (name rest : List Char) (hchars : ∀ c ∈ name, isFieldNameChar c = true) :
      splitAtColon (name ++ ':' :: ' ' :: rest) = some (name, rest) := by
    induction name with
    | nil => rfl
    | cons c name ih =>
      rw [List.forall_mem_cons] at hchars
      rw [List.cons_append, splitAtColon, ih hchars.2]
      · rfl
      · rintro after rfl
        exact absurd hchars.1 (by decide)
  rw [resanitizeHeaderSegment, headerSegment, hsplit _ _ h.name, headerLine]
  simp

end

/-! ### The body -/

/-- No body is taken for a header. -/
theorem looksLikeHeaderLine_body (rest : List Char) :
    looksLikeHeaderLine ('\r' :: rest) = false := by
  rw [looksLikeHeaderLine]
  split
  · rfl
  · rfl
  · rw [List.take_succ_cons, List.all_cons]
    rfl

/-- The body comes back, but for one that begins with an empty line: that gets another. -/
theorem repairedBody_split (contents : List Char) :
    (splitFrom [] ('\r' :: '\n' :: contents)).takeWhile looksLikeHeaderLine = [] ∧
      (repairedBody (splitFrom [] ('\r' :: '\n' :: contents)) = contents ↔
        ¬ ['\r', '\n'] <+: contents) := by
  by_cases hempty : ['\r', '\n'] <+: contents
  · obtain ⟨rest, rfl⟩ := hempty
    obtain ⟨first, pieces, hsplit, hrest⟩ := exists_splitFrom [] rest
    have hsegments : splitFrom [] ('\r' :: '\n' :: (['\r', '\n'] ++ rest)) =
        [] :: splitFrom [] rest := rfl
    rw [hsegments, hsplit, List.nil_append]
    refine ⟨rfl, iff_of_false (fun hsame => ?_) (not_not.mpr ⟨rest, rfl⟩)⟩
    have hlength := congrArg List.length hsame
    rw [repairedBody, stripCrlf, List.nil_append, List.flatMap_cons, List.append_assoc,
      ← hrest] at hlength
    · simp only [doubleCrlf, List.length_append, List.length_cons, List.length_nil] at hlength
      omega
    · rintro after ⟨⟩
  · obtain ⟨first, pieces, hsplit, hcontents⟩ := exists_splitFrom ['\r', '\n'] contents
    have hsegments : splitFrom [] ('\r' :: '\n' :: contents) = splitFrom ['\r', '\n'] contents := by
      rw [splitFrom, splitFrom]
      · rfl
      · rintro after ⟨⟩
      · rintro after - hafter
        refine hempty ⟨after, ?_⟩
        cases hafter
        rfl
    rw [hsegments, hsplit]
    refine ⟨?_, iff_of_true ?_ hempty⟩
    · rw [List.takeWhile_cons_of_neg]
      rw [Bool.not_eq_true]
      exact looksLikeHeaderLine_body _
    · exact hcontents.symm

/-! ### The whole email -/

/-- Emails with the same headers are equal if their bodies are. -/
theorem foldr_lines_inj (lines : List (List Char)) (body body' : List Char) :
    lines.foldr (fun line rest => line ++ '\r' :: '\n' :: rest) body =
      lines.foldr (fun line rest => line ++ '\r' :: '\n' :: rest) body' ↔ body = body' := by
  induction lines with
  | nil => exact Iff.rfl
  | cons line lines ih =>
    rw [List.foldr_cons, List.foldr_cons, List.append_cancel_left_eq, List.cons.injEq,
      List.cons.injEq, ih]
    simp

theorem splitFrom_corrupt {headers : List (String × String)}
    (h : ∀ header ∈ headers, Repairable header) (contents : String) :
    splitFrom [] (corrupt headers contents) =
      headers.map headerSegment ++ splitFrom [] ('\r' :: '\n' :: contents.toList) := by
  induction headers with
  | nil => rfl
  | cons header headers ih =>
    rw [List.forall_mem_cons] at h
    rw [corrupt, List.foldr_cons, splitFrom_append h.1.segment, List.nil_append, List.map_cons,
      List.cons_append, ← ih h.2]
    rfl

/-- The repair makes of a corrupted email exactly what it should have been rebuilt to, unless its body
begins with an empty line. -/
theorem repaired_iff {headers : List (String × String)} (hne : headers ≠ [])
    (h : ∀ header ∈ headers, Repairable header) (contents : String) :
    repairRawMessage (corrupt headers contents) = (buildRawMessage headers contents).toList ↔
      ¬ ['\r', '\n'] <+: contents.toList := by
  obtain ⟨hnone, hbody⟩ := repairedBody_split contents.toList
  have hheaders : (splitOnDoubleCrlf (corrupt headers contents)).takeWhile looksLikeHeaderLine =
      headers.map headerSegment := by
    rw [splitOnDoubleCrlf, splitFrom_corrupt h, List.takeWhile_append_of_pos, hnone, List.append_nil]
    intro segment hsegment
    obtain ⟨header, hheader, rfl⟩ := List.mem_map.mp hsegment
    exact (h header hheader).looksLike
  have hlines : headers.map (fun header => resanitizeHeaderSegment (headerSegment header)) =
      headers.map fun header => (headerLine header).toList :=
    List.map_congr_left fun header hheader => (h header hheader).resanitize
  have hfold := foldr_lines_inj
    (headers.map fun header => resanitizeHeaderSegment (headerSegment header))
    ('\r' :: '\n' :: repairedBody (splitFrom [] ('\r' :: '\n' :: contents.toList)))
    ('\r' :: '\n' :: contents.toList)
  rw [List.foldr_map, List.foldr_map] at hfold
  rw [repairRawMessage, hheaders, if_neg (by rwa [List.map_eq_nil_iff]), splitOnDoubleCrlf,
    splitFrom_corrupt h, List.drop_left, toList_buildRawMessage, ← hlines, List.foldr_map,
    List.foldr_map, hfold, List.cons_inj_right, List.cons_inj_right, hbody]

/-- An email with two paragraphs. -/
theorem repaired_iff_paragraphs :
    repairRawMessage (corrupt [("To", " jon@ato.band"), ("Subject", " Test")] "Test.\r\n\r\nBye.") =
        (buildRawMessage [("To", " jon@ato.band"), ("Subject", " Test")]
          "Test.\r\n\r\nBye.").toList ↔
      ¬ ['\r', '\n'] <+: "Test.\r\n\r\nBye.".toList := by
  have hto : Repairable ("To", " jon@ato.band") :=
    ⟨by decide, List.all_eq_true.mp (by decide +kernel), by decide +kernel⟩
  have hsubject : Repairable ("Subject", " Test") :=
    ⟨by decide, List.all_eq_true.mp (by decide +kernel), by decide +kernel⟩
  refine repaired_iff (List.cons_ne_nil _ _) (fun header hheader => ?_) _
  rw [List.mem_cons, List.mem_singleton] at hheader
  obtain rfl | rfl := hheader
  · exact hto
  · exact hsubject

end Rellm.Messages
