import Mathlib.Data.List.TakeWhile
import Rellm.Foundation.Percent
import Rellm.Media.Items

/-!
# Names of downloads

A media file that is downloaded is saved under the name of its item. The name is sent in a header,
once as far as it is plain ASCII and once in full, percent-encoded.
-/

namespace Rellm.Media

open Foundation

/-- A content type, and the file extension that is known for it. -/
structure ContentType where
  text : String
  extension : Option String
  deriving DecidableEq, Repr

def replaceSeparators (name : String) : String :=
  String.ofList (name.toList.map fun c => if c = '/' ∨ c = '\\' then '_' else c)

/-- Which copy is served, as it is named in a download. -/
def conversionSuffix : Option MediaConversion → String
  | some .original => " (original)"
  | some .small => " (low)"
  | some .medium => " (medium)"
  | some .large => " (high)"
  | some .unlicensedPreviewMedium => " (preview)"
  | some other => " (" ++ other.key ++ ")"
  | none => ""

def fileExtension (contentType : ContentType) : Option String :=
  match contentType.text with
  | "audio/mp4" => some "m4a"
  | "audio/mpeg" => some "mp3"
  | "audio/wav" | "audio/x-wav" | "audio/wave" | "audio/vnd.wave" => some "wav"
  | _ => contentType.extension

/-- The name to save a download under. -/
def downloadFilename (name : Option String) (fallbackId : String)
    (conversion : Option MediaConversion) (contentType : ContentType) : String :=
  let base := replaceSeparators
    (((name.map trim).filter (· ≠ "")).getD ("media-" ++ fallbackId))
  match fileExtension contentType with
  | some extension => base ++ conversionSuffix conversion ++ "." ++ extension
  | none => base ++ conversionSuffix conversion

/-- An ASCII character that is no control character. -/
def isPrintable (c : Char) : Bool := 32 ≤ c.toNat && c.toNat ≤ 126

/-- The characters that stay in the plain name. -/
def isQuotable (c : Char) : Bool := isPrintable c && c ≠ '"' && c ≠ '\\'

/-- The bytes that stay as they are in the full name. -/
def isUnreserved (byte : UInt8) : Bool :=
  (48 ≤ byte.toNat && byte.toNat ≤ 57) || (65 ≤ byte.toNat && byte.toNat ≤ 90) ||
    (97 ≤ byte.toNat && byte.toNat ≤ 122) || byte = 45 || byte = 95 || byte = 46 || byte = 126

def utf8Bytes (text : String) : List UInt8 := text.toUTF8.data.toList

/-- The name as far as it is plain: quotes, control characters and what is no ASCII are dropped. -/
def asciiName (filename : String) : List Char :=
  filename.toList.map fun c => if isQuotable c then c else '_'

/-- The name in full, percent-encoded. -/
def encodedName (filename : String) : List Char := percentEncode isUnreserved (utf8Bytes filename)

/-- The header to save a download under a name. -/
def contentDispositionAttachment (filename : String) : String :=
  "attachment; filename=\"" ++ String.ofList (asciiName filename) ++ "\"; filename*=UTF-8''" ++
    String.ofList (encodedName filename)

/-! ### Reading the header -/

/-- The characters of a token. -/
def isTokenChar (c : Char) : Bool :=
  c.isAlphanum || c ∈ "!#$%&'*+-.^_`|~".toList

/-- What a quoted string contains up to its closing quote, and what follows. A backslash escapes the
character after it. -/
def readQuoted : List Char → Option (List Char × List Char)
  | [] => none
  | '"' :: rest => some ([], rest)
  | '\\' :: c :: rest => (readQuoted rest).map fun read => (c :: read.1, read.2)
  | c :: rest => (readQuoted rest).map fun read => (c :: read.1, read.2)

/-- The value of a parameter: a quoted string, or a token. -/
def readValue : List Char → Option (List Char × List Char)
  | '"' :: rest => readQuoted rest
  | rest =>
    if (rest.takeWhile isTokenChar) = [] then none
    else some (rest.takeWhile isTokenChar, rest.dropWhile isTokenChar)

/-- A parameter with its name and its value, and what follows. -/
def readParameter (text : List Char) : Option ((List Char × List Char) × List Char) :=
  match (text.dropWhile (· = ' ')).takeWhile isTokenChar,
      (text.dropWhile (· = ' ')).dropWhile isTokenChar with
  | name, '=' :: rest =>
    if name = [] then none else (readValue rest).map fun read => ((name, read.1), read.2)
  | _, _ => none

/-- The parameters of a header, each after a semicolon; `fuel` bounds how many there are. -/
def readParameters : Nat → List Char → Option (List (List Char × List Char))
  | _, [] => some []
  | fuel + 1, ';' :: rest => do
    let read ← readParameter rest
    let parameters ← readParameters fuel read.2
    return read.1 :: parameters
  | _, _ => none

/-- The type of a disposition and its parameters. -/
def parseDisposition (header : String) :
    Option (List Char × List (List Char × List Char)) :=
  (readParameters header.length (header.toList.dropWhile isTokenChar)).map fun parameters =>
    (header.toList.takeWhile isTokenChar, parameters)

theorem takeWhile_token {name : List Char} (h : ∀ c ∈ name, isTokenChar c = true) {c : Char}
    (hc : isTokenChar c = false) (rest : List Char) :
    (name ++ c :: rest).takeWhile isTokenChar = name := by
  rw [List.takeWhile_append_of_pos h, List.takeWhile_cons_of_neg (Bool.eq_false_iff.mp hc),
    List.append_nil]

theorem dropWhile_token {name : List Char} (h : ∀ c ∈ name, isTokenChar c = true) {c : Char}
    (hc : isTokenChar c = false) (rest : List Char) :
    (name ++ c :: rest).dropWhile isTokenChar = c :: rest := by
  rw [List.dropWhile_append_of_pos h, List.dropWhile_cons_of_neg (Bool.eq_false_iff.mp hc)]

/-- A quoted string without quotes and backslashes is what stands between its quotes. -/
theorem readQuoted_append {text : List Char} (h : ∀ c ∈ text, isQuotable c = true)
    (rest : List Char) : readQuoted (text ++ '"' :: rest) = some (text, rest) := by
  induction text with
  | nil => rfl
  | cons c text ih =>
    have hc := h c List.mem_cons_self
    have hquote : c ≠ '"' := by
      rintro rfl
      exact absurd hc (by decide)
    have hslash : c ≠ '\\' := by
      rintro rfl
      exact absurd hc (by decide)
    rw [List.cons_append, readQuoted, ih fun c hmem => h c (List.mem_cons_of_mem _ hmem),
      Option.map_some]
    · exact fun heq => absurd heq hquote
    · exact fun _ _ heq => absurd heq hslash

/-- The name of a parameter, after a blank, and the value after its equals sign. -/
theorem readParameter_eq {name : List Char} (hne : name ≠ [])
    (hname : ∀ c ∈ name, isTokenChar c = true) (rest : List Char) :
    readParameter (' ' :: (name ++ '=' :: rest)) =
      (readValue rest).map fun read => ((name, read.1), read.2) := by
  have hblank : (' ' :: (name ++ '=' :: rest)).dropWhile (· = ' ') = name ++ '=' :: rest := by
    rw [List.dropWhile_cons_of_pos rfl]
    cases name with
    | nil => exact absurd rfl hne
    | cons c name =>
      have hc : c ≠ ' ' := by
        rintro rfl
        exact absurd (hname _ List.mem_cons_self) (by decide)
      rw [List.cons_append, List.dropWhile_cons_of_neg (by simpa using hc)]
  have hequals : isTokenChar '=' = false := by decide +kernel
  unfold readParameter
  rw [hblank, takeWhile_token hname hequals, dropWhile_token hname hequals]
  exact if_neg hne

theorem readParameters_nil (fuel : Nat) : readParameters fuel [] = some [] := by
  cases fuel <;> rfl

theorem readParameters_cons {fuel : Nat} {text rest : List Char}
    {parameter : List Char × List Char} {parameters : List (List Char × List Char)}
    (h : readParameter text = some (parameter, rest))
    (hrest : readParameters fuel rest = some parameters) :
    readParameters (fuel + 1) (';' :: text) = some (parameter :: parameters) := by
  rw [readParameters, h, Option.bind_eq_bind, Option.bind_some, hrest, Option.bind_eq_bind,
    Option.bind_some]
  rfl

theorem readValue_token {value : List Char} (hne : value ≠ [])
    (hvalue : ∀ c ∈ value, isTokenChar c = true) : readValue value = some (value, []) := by
  have htake : value.takeWhile isTokenChar = value := List.takeWhile_eq_self_iff.mpr hvalue
  have hdrop : value.dropWhile isTokenChar = [] := List.dropWhile_eq_nil_iff.mpr hvalue
  unfold readValue
  split
  · exact absurd (hvalue _ List.mem_cons_self) (by decide)
  · rw [htake, hdrop, if_neg hne]

theorem forall_token {text : List Char} (h : text.all isTokenChar = true) :
    ∀ c ∈ text, isTokenChar c = true := List.all_eq_true.mp h

/-- A header with a quoted name and a full name reads as these two parameters. -/
theorem parseDisposition_eq {ascii encoded : List Char} (hascii : ∀ c ∈ ascii, isQuotable c = true)
    (hencoded : ∀ c ∈ encoded, isTokenChar c = true) :
    parseDisposition ("attachment; filename=\"" ++ String.ofList ascii ++ "\"; filename*=UTF-8''" ++
        String.ofList encoded) =
      some ("attachment".toList, [("filename".toList, ascii),
        ("filename*".toList, "UTF-8''".toList ++ encoded)]) := by
  have hname : ∀ c ∈ "filename".toList, isTokenChar c = true := forall_token (by decide +kernel)
  have hstar : ∀ c ∈ "filename*".toList, isTokenChar c = true := forall_token (by decide +kernel)
  have htype : ∀ c ∈ "attachment".toList, isTokenChar c = true := forall_token (by decide +kernel)
  have hcharset : ∀ c ∈ "UTF-8''".toList, isTokenChar c = true :=
    forall_token (by decide +kernel)
  have hvalue : ∀ c ∈ "UTF-8''".toList ++ encoded, isTokenChar c = true := by
    intro c hc
    rcases List.mem_append.mp hc with hc | hc
    · exact hcharset c hc
    · exact hencoded c hc
  have hsemicolon : isTokenChar ';' = false := by decide +kernel
  have hheader : ("attachment; filename=\"" ++ String.ofList ascii ++ "\"; filename*=UTF-8''" ++
      String.ofList encoded).toList = "attachment".toList ++ ';' :: ' ' :: ("filename".toList ++
        '=' :: '"' :: (ascii ++ '"' :: ';' :: ' ' :: ("filename*".toList ++
          '=' :: ("UTF-8''".toList ++ encoded)))) := by
    simp
  generalize "attachment; filename=\"" ++ String.ofList ascii ++ "\"; filename*=UTF-8''" ++
    String.ofList encoded = header at hheader
  obtain ⟨fuel, hfuel⟩ : ∃ fuel, header.length = fuel + 2 := by
    refine ⟨header.length - 2, ?_⟩
    rw [← String.length_toList, hheader]
    simp only [List.length_append, List.length_cons]
    omega
  have hquoted (rest : List Char) : readValue ('"' :: (ascii ++ '"' :: rest)) = some (ascii, rest) :=
    readQuoted_append hascii rest
  have hnameNe : "filename".toList ≠ [] := by decide +kernel
  have hstarNe : "filename*".toList ≠ [] := by decide +kernel
  have hfull : readParameters (fuel + 1) (';' :: ' ' :: ("filename*".toList ++
      '=' :: ("UTF-8''".toList ++ encoded))) =
        some [("filename*".toList, "UTF-8''".toList ++ encoded)] := by
    refine readParameters_cons ?_ (readParameters_nil fuel)
    rw [readParameter_eq hstarNe hstar, readValue_token (by simp) hvalue, Option.map_some]
  have hboth := readParameters_cons (by
    rw [readParameter_eq hnameNe hname, hquoted, Option.map_some]) hfull
  rw [parseDisposition, hheader, takeWhile_token htype hsemicolon, dropWhile_token htype hsemicolon,
    hfuel, hboth, Option.map_some]

theorem printable_of_isQuotable {c : Char} (h : isQuotable c = true) :
    isPrintable c = true ∧ c ≠ '"' ∧ c ≠ '\\' := by
  simpa [isQuotable, and_assoc] using h

theorem isQuotable_asciiName (filename : String) :
    ∀ c ∈ asciiName filename, isQuotable c = true := by
  intro c hc
  obtain ⟨d, _, rfl⟩ := List.mem_map.mp hc
  split
  · rename_i h
    exact h
  · decide

theorem plainAscii_isUnreserved : PlainAscii isUnreserved := by
  have hall : ∀ n : Fin 256, isUnreserved (UInt8.ofNat n) = true → n.val < 128 ∧ n.val ≠ 37 := by
    decide +kernel
  intro byte h
  have hbyte := hall ⟨byte.toNat, byte.toNat_lt⟩
  rw [UInt8.ofNat_toNat] at hbyte
  exact hbyte h

/-- The encoded name consists of printable characters that may stand in a token. -/
theorem mem_encodedName (filename : String) : ∀ c ∈ encodedName filename,
    isTokenChar c = true ∧ isPrintable c = true := by
  apply forall_mem_percentEncode
  · have hall : ∀ n : Fin 256, isUnreserved (UInt8.ofNat n) = true →
        isTokenChar (Char.ofNat n) = true ∧ isPrintable (Char.ofNat n) = true := by
      decide +kernel
    intro byte h
    have hbyte := hall ⟨byte.toNat, byte.toNat_lt⟩
    rw [UInt8.ofNat_toNat] at hbyte
    exact hbyte h
  · decide +kernel
  · have hall : ∀ n : Fin 16,
        isTokenChar (percentDigit n) = true ∧ isPrintable (percentDigit n) = true := by
      decide +kernel
    exact fun n hn => hall ⟨n, hn⟩

/-- A text without path separators. -/
def NoSeparator (text : String) : Prop := '/' ∉ text.toList ∧ '\\' ∉ text.toList

instance (text : String) : Decidable (NoSeparator text) :=
  inferInstanceAs (Decidable (_ ∧ _))

theorem noSeparator_replaceSeparators (name : String) : NoSeparator (replaceSeparators name) := by
  have hne (c : Char) : (if c = '/' ∨ c = '\\' then '_' else c) ≠ '/' ∧
      (if c = '/' ∨ c = '\\' then '_' else c) ≠ '\\' := by
    split
    · decide
    · rename_i h
      exact not_or.mp h
  unfold NoSeparator
  rw [replaceSeparators, String.toList_ofList]
  constructor
  · intro hmem
    obtain ⟨c, _, hc⟩ := List.mem_map.mp hmem
    exact (hne c).1 hc
  · intro hmem
    obtain ⟨c, _, hc⟩ := List.mem_map.mp hmem
    exact (hne c).2 hc

theorem NoSeparator.append {first second : String} (hfirst : NoSeparator first)
    (hsecond : NoSeparator second) : NoSeparator (first ++ second) := by
  unfold NoSeparator
  rw [String.toList_append, List.mem_append, List.mem_append]
  exact ⟨fun h => h.elim hfirst.1 hsecond.1, fun h => h.elim hfirst.2 hsecond.2⟩

theorem noSeparator_conversionSuffix (conversion : Option MediaConversion) :
    NoSeparator (conversionSuffix conversion) := by
  cases conversion with
  | none => decide +kernel
  | some conversion => cases conversion <;> decide +kernel

/-- A download name is the name of the item with its separators replaced, or a name made of its id,
and what follows. -/
theorem downloadFilename_eq (name : Option String) (fallbackId : String)
    (conversion : Option MediaConversion) (contentType : ContentType) :
    downloadFilename name fallbackId conversion contentType =
      replaceSeparators (((name.map trim).filter (· ≠ "")).getD ("media-" ++ fallbackId)) ++
        (conversionSuffix conversion ++ ((fileExtension contentType).map ("." ++ ·)).getD "") := by
  unfold downloadFilename
  cases fileExtension contentType with
  | none => simp
  | some extension => simp [String.append_assoc]

theorem noSeparator_fileExtension {contentType : ContentType}
    (h : ∀ extension, contentType.extension = some extension → NoSeparator extension) :
    NoSeparator (((fileExtension contentType).map ("." ++ ·)).getD "") := by
  have hdot : NoSeparator "." := by decide +kernel
  unfold fileExtension
  split
  case h_7 =>
    cases hextension : contentType.extension with
    | none => decide +kernel
    | some extension => exact hdot.append (h extension hextension)
  all_goals decide +kernel

/-- A header is safe and names a file: it is printable, reads as an attachment with a quoted name and
a full name, and the full name decodes to the name of the file. -/
structure NamesFile (header filename : String) : Prop where
  printable : ∀ c ∈ header.toList, isPrintable c = true
  names : ∃ ascii encoded,
    header = "attachment; filename=\"" ++ String.ofList ascii ++ "\"; filename*=UTF-8''" ++
      String.ofList encoded ∧
    parseDisposition header = some ("attachment".toList, [("filename".toList, ascii),
      ("filename*".toList, "UTF-8''".toList ++ encoded)]) ∧
    '"' ∉ ascii ∧ '\\' ∉ ascii ∧ percentDecode encoded = some (utf8Bytes filename)

/-- The parts of a header in their order. -/
theorem forall_mem_header {p : Char → Prop} {lead between : String} {ascii encoded : List Char}
    (hlead : ∀ c ∈ lead.toList, p c) (hascii : ∀ c ∈ ascii, p c)
    (hbetween : ∀ c ∈ between.toList, p c) (hencoded : ∀ c ∈ encoded, p c) :
    ∀ c ∈ (lead ++ String.ofList ascii ++ between ++ String.ofList encoded).toList, p c := by
  rw [String.toList_append, String.toList_append, String.toList_append, String.toList_ofList,
    String.toList_ofList, List.forall_mem_append, List.forall_mem_append, List.forall_mem_append]
  exact ⟨⟨⟨hlead, hascii⟩, hbetween⟩, hencoded⟩

theorem namesFile (filename : String) :
    NamesFile (contentDispositionAttachment filename) filename where
  printable := forall_mem_header (List.all_eq_true.mp (by decide +kernel))
    (fun c hc => (printable_of_isQuotable (isQuotable_asciiName filename c hc)).1)
    (List.all_eq_true.mp (by decide +kernel)) fun c hc => (mem_encodedName filename c hc).2
  names := ⟨asciiName filename, encodedName filename, rfl,
    parseDisposition_eq (isQuotable_asciiName filename) fun c hc => (mem_encodedName filename c hc).1,
    fun hmem => (printable_of_isQuotable (isQuotable_asciiName filename _ hmem)).2.1 rfl,
    fun hmem => (printable_of_isQuotable (isQuotable_asciiName filename _ hmem)).2.2 rfl,
    percentDecode_percentEncode plainAscii_isUnreserved _⟩

/-- The header of a download names its file, whatever the name of the item is; the name of the file
has no path separator, and starts with the name of the item, unless that is blank. -/
theorem download_named (name : Option String) (fallbackId : String)
    (conversion : Option MediaConversion) (contentType : ContentType)
    (h : ∀ extension, contentType.extension = some extension → NoSeparator extension) :
    NamesFile (contentDispositionAttachment
        (downloadFilename name fallbackId conversion contentType))
      (downloadFilename name fallbackId conversion contentType) ∧
    NoSeparator (downloadFilename name fallbackId conversion contentType) ∧
    ∀ stored, name = some stored → trim stored ≠ "" →
      (replaceSeparators (trim stored)).toList <+:
        (downloadFilename name fallbackId conversion contentType).toList := by
  refine ⟨namesFile _, ?_, ?_⟩
  · rw [downloadFilename_eq]
    exact (noSeparator_replaceSeparators _).append
      ((noSeparator_conversionSuffix conversion).append (noSeparator_fileExtension h))
  · rintro stored rfl hne
    rw [downloadFilename_eq, Option.map_some, Option.filter_some, if_pos (decide_eq_true hne),
      Option.getD_some, String.toList_append]
    exact List.prefix_append _ _

theorem download_named_quoted :
    NamesFile "attachment; filename=\"a__b.jpg\"; filename*=UTF-8''a_%22b.jpg" "a_\"b.jpg" := by
  have hextension : ∀ extension, (some "jpg" : Option String) = some extension →
      NoSeparator extension := by
    rintro extension ⟨⟩
    decide +kernel
  have h := (download_named (some " a/\"b ") "1" none ⟨"image/jpeg", some "jpg"⟩ hextension).1
  have hname : downloadFilename (some " a/\"b ") "1" none ⟨"image/jpeg", some "jpg"⟩ =
      "a_\"b.jpg" := by decide +kernel
  have hheader : contentDispositionAttachment "a_\"b.jpg" =
      "attachment; filename=\"a__b.jpg\"; filename*=UTF-8''a_%22b.jpg" := by decide +kernel
  rw [hname, hheader] at h
  exact h

end Rellm.Media
