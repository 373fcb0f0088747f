import Rellm.Foundation.Words
import Rellm.Messages.Email

/-!
# Rebuilt emails

The mail server hands over the headers of an email apart from its contents, with values that may
carry line ends of their own. The email that is rebuilt from them has one line for each header, and
its first empty line is the one before the contents.
-/

namespace Rellm.Messages

open Foundation

def isTerminator (c : Char) : Bool := c = '\r' || c = '\n'

/-- What a line that ends here makes of the rest: an empty line ends the header. -/
def endLine (line rest : List Char) (later : Option (List (List Char) × List Char)) :
    Option (List (List Char) × List Char) :=
  if line = [] then some ([], rest) else later.map fun split => (line :: split.1, split.2)

/-- The lines of a message before its first empty line, and what comes after that, where `line` is
what is read already of the first one. Both characters of a CR LF end one line. -/
def splitMessage (line : List Char) : List Char → Option (List (List Char) × List Char)
  | [] => none
  | '\r' :: '\n' :: rest => endLine line rest (splitMessage [] rest)
  | c :: rest =>
    if isTerminator c then endLine line rest (splitMessage [] rest)
    else splitMessage (line ++ [c]) rest

/-- A text without line ends. -/
def OneLine (text : List Char) : Prop := ∀ c ∈ text, isTerminator c = false

theorem OneLine.append {first second : List Char} (hfirst : OneLine first)
    (hsecond : OneLine second) : OneLine (first ++ second) := by
  intro c hc
  rcases List.mem_append.mp hc with hc | hc
  · exact hfirst c hc
  · exact hsecond c hc

theorem splitMessage_append {text : List Char} (h : OneLine text) (line rest : List Char) :
    splitMessage line (text ++ rest) = splitMessage (line ++ text) rest := by
  induction text generalizing line with
  | nil => rw [List.nil_append, List.append_nil]
  | cons c text ih =>
    have hc : isTerminator c = false := h c List.mem_cons_self
    have hcr : c ≠ '\r' := by
      rintro rfl
      exact absurd hc (by decide)
    rw [List.cons_append, splitMessage, if_neg (Bool.eq_false_iff.mp hc),
      ih (fun c hmem => h c (List.mem_cons_of_mem _ hmem)), List.append_assoc,
      List.singleton_append]
    exact fun _ heq => absurd heq hcr

/-- A line that is not empty is the first one of the header. -/
theorem splitMessage_line {line : List Char} (h : OneLine line) (hne : line ≠ [])
    (rest : List Char) :
    splitMessage [] (line ++ '\r' :: '\n' :: rest) =
      (splitMessage [] rest).map fun split => (line :: split.1, split.2) := by
  rw [splitMessage_append h, List.nil_append, splitMessage, endLine, if_neg hne]

/-- Several lines, none of them empty, and then an empty one. -/
theorem splitMessage_lines {lines : List (List Char)}
    (h : ∀ line ∈ lines, OneLine line ∧ line ≠ []) (contents : List Char) :
    splitMessage [] (lines.foldr (fun line rest => line ++ '\r' :: '\n' :: rest)
      ('\r' :: '\n' :: contents)) = some (lines, contents) := by
  induction lines with
  | nil => rw [List.foldr_nil, splitMessage, endLine, if_pos rfl]
  | cons line lines ih =>
    obtain ⟨hline, hne⟩ := h line List.mem_cons_self
    rw [List.foldr_cons, splitMessage_line hline hne,
      ih fun line hmem => h line (List.mem_cons_of_mem _ hmem), Option.map_some]

/-! ### One line for each header -/

theorem trim_eq_self_iff {text : String} :
    trim text = text ↔ CleanEnds isWhitespace text.toList := by
  rw [← trimmed_eq_self_iff, ← String.toList_inj]
  unfold trim
  rw [String.toList_ofList]
  rfl

/-- The fragments of a value between its line ends, without those that are blank. -/
def fragments (value : String) : List (List Char) :=
  ((value.toList.splitOnP isTerminator).map (trimmed isWhitespace)).filter (· ≠ [])

theorem toList_sanitizeHeaderValue (value : String) :
    (sanitizeHeaderValue value).toList = [' '].intercalate (fragments value) := by
  have hfilter : (fun fragment : String => decide (fragment ≠ "")) =
      (fun fragment : List Char => decide (fragment ≠ [])) ∘ String.toList := by
    funext fragment
    simp [String.toList_eq_nil_iff]
  have htrim : (String.toList ∘ fun fragment => trim (String.ofList fragment)) =
      trimmed isWhitespace := by
    funext fragment
    rw [Function.comp_apply, trim, String.toList_ofList, String.toList_ofList]
    rfl
  rw [sanitizeHeaderValue, String.toList_intercalate, hfilter, ← List.filter_map, List.map_map, htrim]
  rfl

/-- No piece of a list that is split has a separator in it. -/
theorem forall_of_mem_splitOnP {α : Type} {p : α → Bool} {l piece : List α}
    (h : piece ∈ l.splitOnP p) : ∀ a ∈ piece, p a = false := by
  induction l generalizing piece with
  | nil =>
    rw [List.splitOnP_nil, List.mem_singleton] at h
    rw [h]
    nofun
  | cons b l ih =>
    rw [List.splitOnP_cons_eq_if_modifyHead] at h
    split at h
    · rcases List.mem_cons.mp h with rfl | h
      · nofun
      · exact ih h
    · rename_i hb
      cases hsplit : l.splitOnP p with
      | nil => exact absurd hsplit (List.splitOnP_ne_nil p l)
      | cons first pieces =>
        rw [hsplit, List.modifyHead_cons, List.mem_cons] at h
        rcases h with rfl | h
        · rw [List.forall_mem_cons]
          exact ⟨Bool.eq_false_iff.mpr hb, ih (hsplit ▸ List.mem_cons_self)⟩
        · exact ih (hsplit ▸ List.mem_cons_of_mem _ h)

theorem mem_fragments {value : String} {fragment : List Char} (h : fragment ∈ fragments value) :
    CleanEnds isWhitespace fragment ∧ OneLine fragment ∧ fragment ≠ [] := by
  obtain ⟨hmem, hne⟩ := List.mem_filter.mp h
  obtain ⟨piece, hpiece, rfl⟩ := List.mem_map.mp hmem
  refine ⟨cleanEnds_trimmed _ _, fun c hc => ?_, of_decide_eq_true hne⟩
  exact forall_of_mem_splitOnP hpiece c ((trimmed_sublist _ _).subset hc)

theorem oneLine_intercalate {pieces : List (List Char)} (h : ∀ piece ∈ pieces, OneLine piece) :
    OneLine ([' '].intercalate pieces) := by
  induction pieces with
  | nil => exact nofun
  | cons first pieces ih =>
    have hrest := ih fun piece hpiece => h piece (List.mem_cons_of_mem _ hpiece)
    by_cases hnil : pieces = []
    · rw [hnil, List.intercalate_singleton]
      exact h first List.mem_cons_self
    · rw [List.intercalate_cons_of_ne_nil hnil]
      have hblank : OneLine [' '] := by
        intro c hc
        rw [List.mem_singleton.mp hc]
        rfl
      exact ((h first List.mem_cons_self).append hblank).append hrest

/-- A value that is sanitized is one line without blanks at its ends. -/
theorem oneLine_sanitizeHeaderValue (value : String) :
    OneLine (sanitizeHeaderValue value).toList := by
  rw [toList_sanitizeHeaderValue]
  exact oneLine_intercalate fun piece hpiece => (mem_fragments hpiece).2.1

theorem trim_sanitizeHeaderValue (value : String) :
    trim (sanitizeHeaderValue value) = sanitizeHeaderValue value := by
  rw [trim_eq_self_iff, toList_sanitizeHeaderValue]
  exact cleanEnds_intercalate fun piece hpiece =>
    ⟨(mem_fragments hpiece).1, (mem_fragments hpiece).2.2⟩

/-- One line without blanks at its ends stays as it is. -/
theorem sanitizeHeaderValue_eq_self {value : String} (hline : OneLine value.toList)
    (htrim : trim value = value) : sanitizeHeaderValue value = value := by
  have hclean : trimmed isWhitespace value.toList = value.toList :=
    trimmed_eq_self (trim_eq_self_iff.mp htrim)
  rw [← String.toList_inj, toList_sanitizeHeaderValue, fragments,
    List.splitOnP_eq_singleton hline, List.map_singleton, hclean]
  by_cases hnil : value.toList = []
  · rw [hnil]
    rfl
  · have hkept : [value.toList].filter (· ≠ []) = [value.toList] :=
      List.filter_eq_self.mpr (by simpa using hnil)
    rw [hkept, List.intercalate_singleton]

/-! ### The whole email -/

/-- The line of a header. -/
def headerLine (header : String × String) : String :=
  header.1 ++ ": " ++ sanitizeHeaderValue header.2

/-- The name of a header has no line end and no colon. -/
def IsHeaderName (name : String) : Prop := ∀ c ∈ name.toList, c ≠ '\r' ∧ c ≠ '\n' ∧ c ≠ ':'

instance (name : String) : Decidable (IsHeaderName name) :=
  decidable_of_iff (name.toList.all fun c => c != '\r' && c != '\n' && c != ':')
    (by simp [IsHeaderName, and_assoc])

theorem IsHeaderName.oneLine {name : String} (h : IsHeaderName name) : OneLine name.toList := by
  intro c hc
  obtain ⟨hcr, hlf, _⟩ := h c hc
  simp [isTerminator, hcr, hlf]

theorem oneLine_headerLine {header : String × String} (h : IsHeaderName header.1) :
    OneLine (headerLine header).toList ∧ (headerLine header).toList ≠ [] := by
  have hcolon : OneLine (": ".toList) := by
    intro c hc
    have hchar : c = ':' ∨ c = ' ' := by simpa using hc
    rcases hchar with rfl | rfl <;> rfl
  rw [headerLine, String.toList_append, String.toList_append]
  exact ⟨(h.oneLine.append hcolon).append (oneLine_sanitizeHeaderValue _), by simp⟩

theorem toList_buildRawMessage (headers : List (String × String)) (contents : String) :
    (buildRawMessage headers contents).toList =
      (headers.map fun header => (headerLine header).toList).foldr
        (fun line rest => line ++ '\r' :: '\n' :: rest) ('\r' :: '\n' :: contents.toList) := by
  induction headers with
  | nil => simp [buildRawMessage]
  | cons header headers ih =>
    rw [List.map_cons, List.foldr_cons, ← ih]
    simp [buildRawMessage, headerLine]

/-- The email that is rebuilt splits at its first empty line into one line for each header, in their
order, and the contents; a value is sanitized at most once. -/
theorem rebuilt_splits (headers : List (String × String)) (contents : String)
    (h : ∀ header ∈ headers, IsHeaderName header.1) :
    splitMessage [] (buildRawMessage headers contents).toList =
        some (headers.map fun header => (header.1 ++ ": " ++ sanitizeHeaderValue header.2).toList,
          contents.toList) ∧
      (∀ value, sanitizeHeaderValue (sanitizeHeaderValue value) = sanitizeHeaderValue value) ∧
      ∀ value, (∀ c ∈ value.toList, c ≠ '\r' ∧ c ≠ '\n') → trim value = value →
        sanitizeHeaderValue value = value := by
  refine ⟨?_, fun value => ?_, fun value hline htrim => ?_⟩
  · rw [toList_buildRawMessage]
    refine splitMessage_lines (fun line hline => ?_) contents.toList
    obtain ⟨header, hheader, rfl⟩ := List.mem_map.mp hline
    exact oneLine_headerLine (h header hheader)
  · exact sanitizeHeaderValue_eq_self (oneLine_sanitizeHeaderValue value)
      (trim_sanitizeHeaderValue value)
  · refine sanitizeHeaderValue_eq_self (fun c hc => ?_) htrim
    obtain ⟨hcr, hlf⟩ := hline c hc
    simp [isTerminator, hcr, hlf]

theorem rebuilt_splits_folded :
    splitMessage [] (buildRawMessage
        [("To", " jon@ato.band\r\n"), ("Received", "from foo\r\n\tby bar\r\n\r\n")]
        "\r\nTest.").toList =
      some (["To: jon@ato.band".toList, "Received: from foo by bar".toList], "\r\nTest.".toList) := by
  have hnames : ∀ header ∈ [("To", " jon@ato.band\r\n"),
      ("Received", "from foo\r\n\tby bar\r\n\r\n")], IsHeaderName header.1 :=
    List.forall_mem_cons.mpr
      ⟨by decide +kernel, List.forall_mem_singleton.mpr (by decide +kernel)⟩
  exact (rebuilt_splits _ "\r\nTest." hnames).1.trans (by decide +kernel)

end Rellm.Messages
