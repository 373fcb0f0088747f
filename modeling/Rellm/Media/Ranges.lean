import Mathlib.Algebra.GroupWithZero.Nat
import Rellm.Foundation.Checks
import Rellm.Foundation.Words
import Rellm.Protos.Common

/-!
# Ranges of media files

A request for a media file may ask for a range of its bytes. What is served of an open range is
bounded, and the client asks again from where the answer ended.
-/

namespace Rellm.Media

open Foundation

/-- Why no range is served: there is nothing to serve, or its positions overflow. -/
inductive RangeFault where
  | unsatisfiable
  | overflow
  deriving DecidableEq, Repr

/-- A difference of `u64` values. -/
def checkedSub (a b : Nat) : Except RangeFault Nat :=
  if b ≤ a then .ok (a - b) else .error .overflow

/-- A sum of `u64` values. -/
def checkedAdd (a b : Nat) : Except RangeFault Nat :=
  if a + b < 2 ^ 64 then .ok (a + b) else .error .overflow

/-- A decimal number of the width of a `u64`, which may have a plus sign before it. -/
def parseU64 (text : List Char) : Option Nat :=
  let digits := if text.head? = some '+' then text.tail else text
  if digits ≠ [] ∧ digits.all Char.isDigit = true ∧ Nat.ofDigitChars 10 digits 0 < 2 ^ 64 then
    some (Nat.ofDigitChars 10 digits 0)
  else none

def stripPrefix (start text : List Char) : Option (List Char) :=
  if start <+: text then some (text.drop start.length) else none

def splitOnce (separator : Char) (text : List Char) : Option (List Char × List Char) :=
  if separator ∈ text then
    some (text.takeWhile (· ≠ separator), (text.dropWhile (· ≠ separator)).tail)
  else none

/-- The positions from `start` to `last` that a file has. -/
def withinFile (total start last : Nat) : Except RangeFault (Option (Nat × Nat)) := do
  require (total ≠ 0 ∧ start ≤ last ∧ start < total) .unsatisfiable
  let final ← checkedSub total 1
  return some (start, min last final)

/-- The positions that the two sides of a dash ask for. -/
def askedPositions (total : Nat) (start last : List Char) :
    Except RangeFault (Option (Nat × Nat)) :=
  if start = [] ∧ last = [] then .ok none
  -- Only a last side: that many bytes at the end.
  else if start = [] then do
    let length ← okOr (parseU64 last) .unsatisfiable
    require (length ≠ 0 ∧ total ≠ 0) .unsatisfiable
    let final ← checkedSub total 1
    withinFile total (total - length) final
  else if last = [] then do
    let start ← okOr (parseU64 start) .unsatisfiable
    withinFile total start (total - 1)
  else do
    let start ← okOr (parseU64 start) .unsatisfiable
    let last ← okOr (parseU64 last) .unsatisfiable
    withinFile total start last

/-- The first and the last position that a request asks for; none is no range, or one that is not
supported. -/
def parseRange (header : Option String) (total : Nat) : Except RangeFault (Option (Nat × Nat)) :=
  match header.bind fun header =>
      stripPrefix "bytes=".toList (trimmed isWhitespace header.toList) with
  | none => .ok none
  | some spec =>
    if ',' ∈ spec then .ok none
    else match splitOnce '-' spec with
      | none => .ok none
      | some (start, last) =>
        askedPositions total (trimmed isWhitespace start) (trimmed isWhitespace last)

/-- The most bytes that one answer carries. -/
def maxRangeResponseBytes : Nat := 4 * 1024 * 1024

theorem maxRangeResponseBytes_bounds :
    0 < maxRangeResponseBytes ∧ maxRangeResponseBytes < 2 ^ 63 := by decide

/-- A file of the media cache, whose length is an `off_t`. -/
structure StoredFile where
  bytes : List UInt8
  length_lt : bytes.length < 2 ^ 63

/-- Some bytes of a file: where they start and end, how long the file is, and the bytes. -/
structure PartialContent where
  start : Nat
  last : Nat
  total : Nat
  body : List UInt8
  deriving DecidableEq, Repr

/-- The header that goes with some bytes of a file. -/
def PartialContent.contentRange (content : PartialContent) : String :=
  "bytes " ++ toString content.start ++ "-" ++ toString content.last ++ "/" ++
    toString content.total

inductive RangedAnswer where
  | whole (body : List UInt8)
  | partialContent (content : PartialContent)
  | rangeNotSatisfiable (contentRange : String)
  | internalServerError
  | panicked
  deriving DecidableEq, Repr

/-- As many bytes as a buffer has, from a position on; none if the file ends before. -/
def StoredFile.readExact (file : StoredFile) (start length : Nat) : Option (List UInt8) :=
  if start + length ≤ file.bytes.length then some ((file.bytes.drop start).take length) else none

/-- The bytes from a start to an end, which are read into a buffer of their length. -/
def servePositions (file : StoredFile) (start last : Nat) : RangedAnswer :=
  match file.readExact start (last - start + 1) with
  | none => .internalServerError
  | some body => .partialContent ⟨start, last, file.bytes.length, body⟩

/-- The bytes from a start to an end, but not more than a limit. -/
def serveRange (file : StoredFile) (limit start last : Nat) : RangedAnswer :=
  match checkedAdd start limit with
  | .error _ => .panicked
  | .ok bound => servePositions file start (min last (bound - 1))

/-- The answer to a request for a file. -/
def respondTo (file : StoredFile) (header : Option String) : RangedAnswer :=
  match parseRange header file.bytes.length with
  | .ok none => .whole file.bytes
  | .error .unsatisfiable => .rangeNotSatisfiable ("bytes */" ++ toString file.bytes.length)
  | .error .overflow => .panicked
  | .ok (some (start, last)) => serveRange file maxRangeResponseBytes start last

/-- The header that asks for everything from a position on. -/
def openRange (position : Nat) : String := "bytes=" ++ toString position ++ "-"

/-- What a client has in the end that asks for everything from a position on, and again from behind
the answer until the file ends; none if it asks more often than `requests`, or gets no range. -/
def follow (file : StoredFile) : Nat → Nat → Option (List UInt8)
  | 0, _ => none
  | requests + 1, position =>
    if file.bytes.length ≤ position then some []
    else match respondTo file (some (openRange position)) with
      | .partialContent content =>
        (follow file requests (content.last + 1)).map (content.body ++ ·)
      | _ => none

/-! ### What is asked for -/

/-- A decimal number as it is written. -/
structure Numeral where
  digits : List Char
  ne_nil : digits ≠ []
  isDigit : ∀ c ∈ digits, c.isDigit = true

namespace Numeral

variable (numeral : Numeral)

def value : Nat := Nat.ofDigitChars 10 numeral.digits 0

theorem not_isWhitespace {c : Char} (h : c.isDigit = true) : isWhitespace c = false := by
  have hbounds : 48 ≤ c.toNat ∧ c.toNat ≤ 57 := by
    simp only [Char.isDigit, Bool.and_eq_true, decide_eq_true_eq, ge_iff_le,
      UInt32.le_iff_toNat_le] at h
    exact h
  simp only [isWhitespace, Bool.or_eq_false_iff, Bool.and_eq_false_iff, decide_eq_false_iff_not]
  omega

theorem ne_of_isDigit {c d : Char} (h : c.isDigit = true) (hd : d.isDigit = false) : c ≠ d := by
  rintro rfl
  rw [h] at hd
  cases hd

theorem parseU64_digits :
    parseU64 numeral.digits = if numeral.value < 2 ^ 64 then some numeral.value else none := by
  have hsign : numeral.digits.head? ≠ some '+' := by
    intro hhead
    exact ne_of_isDigit (numeral.isDigit _ (List.mem_of_head? hhead)) rfl rfl
  have hdigits : numeral.digits.all Char.isDigit = true := List.all_eq_true.mpr numeral.isDigit
  unfold parseU64 value
  rw [if_neg hsign]
  refine if_congr ?_ rfl rfl
  exact ⟨fun h => h.2.2, fun h => ⟨numeral.ne_nil, hdigits, h⟩⟩

end Numeral

/-- A single range: from a first position, up to a last one if there is one, or some bytes at the
end. -/
inductive RangeSpec where
  | int (first : Numeral) (last : Option Numeral)
  | suffix (length : Numeral)

namespace RangeSpec

def text : RangeSpec → List Char
  | int first last => first.digits ++ '-' :: (last.map (·.digits)).getD []
  | suffix length => '-' :: length.digits

/-- A range is satisfiable, as HTTP counts it, if it starts within the file and does not end before
it starts, or asks for any bytes at the end. -/
def Satisfiable (total : Nat) : RangeSpec → Prop
  | int first last => first.value < total ∧ ∀ last' ∈ last, first.value ≤ last'.value
  | suffix length => length.value ≠ 0

/-- The last position and the number of bytes at the end are values of a `u64`, and the file has an
end to count from. -/
def Fits (total : Nat) : RangeSpec → Prop
  | int _ last => ∀ last' ∈ last, last'.value < 2 ^ 64
  | suffix length => length.value < 2 ^ 64 ∧ total ≠ 0

end RangeSpec

/-- A header asks for a single range of bytes. The unit is written in any case. -/
def AsksFor (header : String) (unit : List Char) (spec : RangeSpec) : Prop :=
  unit.map Char.toLower = "bytes".toList ∧ header.toList = unit ++ '=' :: spec.text

/-! ### What is served -/

theorem checkedSub_of_le {a b : Nat} (h : b ≤ a) : checkedSub a b = .ok (a - b) := if_pos h

theorem withinFile_eq {total start last : Nat} :
    withinFile total start last =
      if total ≠ 0 ∧ start ≤ last ∧ start < total then .ok (some (start, min last (total - 1)))
      else .error .unsatisfiable := by
  unfold withinFile
  split
  · rename_i h
    rw [checks_of_ok (require_eq_ok (u := ()) |>.mpr h),
      checks_of_ok (checkedSub_of_le (Nat.one_le_iff_ne_zero.mpr h.1))]
    rfl
  · rename_i h
    rw [checks_of_error (require_eq_error.mpr ⟨h, rfl⟩)]

/-- Either there is nothing to serve, or the positions are in order and the file has them. -/
structure InFile (total : Nat) (range : Except RangeFault (Option (Nat × Nat))) : Prop where
  no_overflow : range ≠ .error .overflow
  bounds : ∀ start last, range = .ok (some (start, last)) → start ≤ last ∧ last < total

theorem inFile_none (total : Nat) : InFile total (.ok none) := ⟨nofun, nofun⟩

theorem inFile_unsatisfiable (total : Nat) : InFile total (.error .unsatisfiable) :=
  ⟨nofun, nofun⟩

theorem inFile_withinFile (total start last : Nat) : InFile total (withinFile total start last) := by
  rw [withinFile_eq]
  split
  · rename_i h
    refine ⟨nofun, fun start' last' heq => ?_⟩
    cases heq
    omega
  · exact inFile_unsatisfiable total

/-- A number that cannot be read is nothing to serve. -/
theorem InFile.read {total : Nat} {text : List Char}
    {range : Nat → Except RangeFault (Option (Nat × Nat))} (h : ∀ number, InFile total (range number)) :
    InFile total (okOr (parseU64 text) .unsatisfiable >>= range) := by
  cases parseU64 text with
  | none => exact inFile_unsatisfiable total
  | some number => exact h number

theorem inFile_askedPositions (total : Nat) (start last : List Char) :
    InFile total (askedPositions total start last) := by
  unfold askedPositions
  split
  · exact inFile_none total
  split
  · refine .read fun length => ?_
    by_cases h : length ≠ 0 ∧ total ≠ 0
    · rw [checks_of_ok (require_eq_ok (u := ()) |>.mpr h),
        checks_of_ok (checkedSub_of_le (Nat.one_le_iff_ne_zero.mpr h.2))]
      exact inFile_withinFile _ _ _
    · rw [checks_of_error (require_eq_error.mpr ⟨h, rfl⟩)]
      exact inFile_unsatisfiable total
  split
  · exact .read fun _ => inFile_withinFile _ _ _
  · exact .read fun _ => .read fun _ => inFile_withinFile _ _ _

/-- A range that is parsed lies within the file, and nothing overflows. -/
theorem inFile_parseRange (header : Option String) (total : Nat) :
    InFile total (parseRange header total) := by
  unfold parseRange
  split
  · exact inFile_none total
  split
  · exact inFile_none total
  split
  · exact inFile_none total
  · exact inFile_askedPositions _ _ _

/-- The last position that is served of a range: its end, unless that is past a limit. -/
def servedLast (limit start last : Nat) : Nat := min last (start + limit - 1)

theorem servedLast_bounds {limit start last : Nat} (hpos : 0 < limit) (h : start ≤ last) :
    start ≤ servedLast limit start last ∧ servedLast limit start last ≤ last := by
  unfold servedLast
  omega

/-- The bytes that are served of a range. -/
def StoredFile.served (file : StoredFile) (limit start last : Nat) : PartialContent where
  start := start
  last := servedLast limit start last
  total := file.bytes.length
  body := (file.bytes.drop start).take (servedLast limit start last - start + 1)

theorem serveRange_eq {file : StoredFile} {limit start last : Nat} (hpos : 0 < limit)
    (hlimit : limit < 2 ^ 63) (hle : start ≤ last) (hlt : last < file.bytes.length) :
    serveRange file limit start last = .partialContent (file.served limit start last) := by
  have hlength := file.length_lt
  have hbounds := servedLast_bounds hpos hle
  have hadd : checkedAdd start limit = .ok (start + limit) := by
    have hfits : start + limit < 2 ^ 64 := by omega
    rw [checkedAdd, if_pos hfits]
  have hend : start + (servedLast limit start last - start + 1) ≤ file.bytes.length := by omega
  calc serveRange file limit start last =
        servePositions file start (servedLast limit start last) := by
          rw [serveRange, hadd, servedLast]
    _ = .partialContent (file.served limit start last) := by
          rw [servePositions, StoredFile.readExact, if_pos hend, StoredFile.served]

theorem respondTo_of_range {file : StoredFile} {header : Option String} {start last : Nat}
    (h : parseRange header file.bytes.length = .ok (some (start, last))) :
    respondTo file header =
      .partialContent (file.served maxRangeResponseBytes start last) := by
  obtain ⟨hle, hlt⟩ := (inFile_parseRange header file.bytes.length).bounds start last h
  obtain ⟨hpos, hlimit⟩ := maxRangeResponseBytes_bounds
  rw [respondTo, h]
  exact serveRange_eq hpos hlimit hle hlt

/-! ### Single ranges -/

section

variable {total : Nat}

/-- Between the sides of a dash with digits, nothing changes. -/
theorem splitOnce_digits {first : List Char} (h : ∀ c ∈ first, c.isDigit = true)
    (last : List Char) : splitOnce '-' (first ++ '-' :: last) = some (first, last) := by
  have hne : ∀ c ∈ first, c ≠ '-' := fun c hc => Numeral.ne_of_isDigit (h c hc) rfl
  rw [splitOnce, if_pos (by simp),
    List.takeWhile_append_of_pos (fun c hc => decide_eq_true (hne c hc)),
    List.dropWhile_append_of_pos (fun c hc => decide_eq_true (hne c hc))]
  simp

/-- What the sides of the dash of a range are. -/
def RangeSpec.sides : RangeSpec → List Char × List Char
  | .int first last => (first.digits, (last.map (·.digits)).getD [])
  | .suffix length => ([], length.digits)

theorem RangeSpec.isDigit_sides (spec : RangeSpec) :
    (∀ c ∈ spec.sides.1, c.isDigit = true) ∧ ∀ c ∈ spec.sides.2, c.isDigit = true := by
  cases spec with
  | int first last =>
    refine ⟨first.isDigit, ?_⟩
    cases last with
    | none => exact nofun
    | some last => exact last.isDigit
  | suffix length => exact ⟨nofun, length.isDigit⟩

theorem RangeSpec.text_eq (spec : RangeSpec) : spec.text = spec.sides.1 ++ '-' :: spec.sides.2 := by
  cases spec <;> rfl

theorem cleanEnds_of_isDigit {digits : List Char} (h : ∀ c ∈ digits, c.isDigit = true) :
    CleanEnds isWhitespace digits :=
  cleanEnds_of_forall fun c hc => Numeral.not_isWhitespace (h c hc)

theorem isDigit_of_mem_text {spec : RangeSpec} {c : Char} (h : c ∈ spec.text) :
    c = '-' ∨ c.isDigit = true := by
  obtain ⟨hfirst, hlast⟩ := spec.isDigit_sides
  rw [RangeSpec.text_eq, List.mem_append, List.mem_cons] at h
  rcases h with h | rfl | h
  · exact Or.inr (hfirst c h)
  · exact Or.inl rfl
  · exact Or.inr (hlast c h)

/-- A character that is a letter of a unit in some case is a letter. -/
theorem letter_of_toLower {c d : Char} (h : c.toLower = d) (hd : 97 ≤ d.toNat ∧ d.toNat ≤ 122) :
    65 ≤ c.toNat ∧ c.toNat ≤ 122 := by
  unfold Char.toLower at h
  split at h
  · rename_i hupper
    have hlow : 65 ≤ c.toNat := UInt32.le_iff_toNat_le.mp hupper.1
    have hhigh : c.toNat ≤ 90 := UInt32.le_iff_toNat_le.mp hupper.2
    omega
  · rw [h]
    omega

/-- The letters and signs of a header that asks for a range of bytes are no whitespace. -/
theorem AsksFor.cleanEnds {header : String} {unit : List Char} {spec : RangeSpec}
    (h : AsksFor header unit spec) : CleanEnds isWhitespace header.toList := by
  obtain ⟨hunit, hheader⟩ := h
  refine cleanEnds_of_forall fun c hc => ?_
  rw [hheader, List.mem_append, List.mem_cons] at hc
  rcases hc with hc | rfl | hc
  · have hlower : c.toLower ∈ "bytes".toList := hunit ▸ List.mem_map_of_mem hc
    have hletters : "bytes".toList.all (fun d => decide (97 ≤ d.toNat ∧ d.toNat ≤ 122)) = true := by
      decide +kernel
    have hd := of_decide_eq_true (List.all_eq_true.mp hletters _ hlower)
    have hbounds := letter_of_toLower rfl hd
    simp only [isWhitespace, Bool.or_eq_false_iff, Bool.and_eq_false_iff, decide_eq_false_iff_not]
    omega
  · rfl
  · rcases isDigit_of_mem_text hc with rfl | hdigit
    · rfl
    · exact Numeral.not_isWhitespace hdigit

/-- What is read of a header that asks for a range of bytes are the sides of its dash. -/
theorem parseRange_of_asksFor {header : String} {spec : RangeSpec}
    (h : AsksFor header "bytes".toList spec) :
    parseRange (some header) total = askedPositions total spec.sides.1 spec.sides.2 := by
  have hheader : header.toList = "bytes=".toList ++ spec.text := h.2.trans (by simp)
  have hstrip : stripPrefix "bytes=".toList (trimmed isWhitespace header.toList) =
      some spec.text := by
    rw [trimmed_eq_self h.cleanEnds, hheader, stripPrefix, if_pos (List.prefix_append _ _),
      List.drop_left]
  have hcomma : ',' ∉ spec.text := by
    intro hmem
    rcases isDigit_of_mem_text hmem with heq | hdigit
    · exact absurd heq (by decide)
    · exact absurd hdigit (by decide)
  obtain ⟨hfirst, hlast⟩ := spec.isDigit_sides
  have hsplit : splitOnce '-' spec.text = some spec.sides := by
    rw [RangeSpec.text_eq]
    exact splitOnce_digits hfirst _
  unfold parseRange
  simp only [Option.bind_some, hstrip, if_neg hcomma, hsplit,
    trimmed_eq_self (cleanEnds_of_isDigit hfirst), trimmed_eq_self (cleanEnds_of_isDigit hlast)]

/-- In any other case the unit is not known, and the range is not looked at. -/
theorem parseRange_of_unit {header : String} {unit : List Char} {spec : RangeSpec}
    (h : AsksFor header unit spec) (hunit : unit ≠ "bytes".toList) :
    parseRange (some header) total = .ok none := by
  have hlength : unit.length = "bytes".toList.length := by rw [← h.1, List.length_map]
  have hstrip : stripPrefix "bytes=".toList (trimmed isWhitespace header.toList) = none := by
    rw [trimmed_eq_self h.cleanEnds, h.2, stripPrefix, if_neg]
    rintro ⟨rest, hrest⟩
    have hsame : "bytes".toList ++ '=' :: rest = unit ++ '=' :: spec.text :=
      (List.append_assoc _ ['='] rest).symm.trans hrest
    exact hunit (List.append_inj hsame hlength.symm).1.symm
  unfold parseRange
  rw [Option.bind_some, hstrip]

/-- The number of a numeral, which goes on to the rest unless it is too large. -/
theorem okOr_parseU64 (numeral : Numeral)
    (range : Nat → Except RangeFault (Option (Nat × Nat))) :
    (okOr (parseU64 numeral.digits) .unsatisfiable >>= range) =
      if numeral.value < 2 ^ 64 then range numeral.value else .error .unsatisfiable := by
  rw [numeral.parseU64_digits]
  split <;> rfl

theorem withinFile_eq_error {total start last : Nat} :
    withinFile total start last = .error .unsatisfiable ↔
      ¬ (total ≠ 0 ∧ start ≤ last ∧ start < total) := by
  rw [withinFile_eq]
  split
  · rename_i h
    exact iff_of_false nofun (not_not.mpr h)
  · rename_i h
    exact iff_of_true rfl h

/-- A single range is refused exactly if it cannot be satisfied, or does not fit. -/
theorem askedPositions_eq_error (htotal : total < 2 ^ 64) (spec : RangeSpec) :
    askedPositions total spec.sides.1 spec.sides.2 = .error .unsatisfiable ↔
      ¬ (spec.Satisfiable total ∧ spec.Fits total) := by
  cases spec with
  | int first last =>
    have hfirst := first.ne_nil
    cases last with
    | none =>
      simp only [RangeSpec.sides, askedPositions, hfirst, Option.map_none, Option.getD_none,
        false_and, if_false, if_true, okOr_parseU64, RangeSpec.Satisfiable, RangeSpec.Fits]
      split
      · rw [withinFile_eq_error]
        simp
        omega
      · simp
        omega
    | some last =>
      have hlast := last.ne_nil
      simp only [RangeSpec.sides, askedPositions, hfirst, hlast, Option.map_some, Option.getD_some,
        false_and, if_false, okOr_parseU64, RangeSpec.Satisfiable, RangeSpec.Fits]
      split
      · split
        · rw [withinFile_eq_error]
          simp
          omega
        · simp
          omega
      · simp
        omega
  | suffix length =>
    have hlength := length.ne_nil
    simp only [RangeSpec.sides, askedPositions, hlength, true_and, if_false, if_true, okOr_parseU64,
      RangeSpec.Satisfiable, RangeSpec.Fits]
    split
    · rename_i hfits
      by_cases h : length.value ≠ 0 ∧ total ≠ 0
      · rw [checks_of_ok (require_eq_ok (u := ()) |>.mpr h),
          checks_of_ok (checkedSub_of_le (Nat.one_le_iff_ne_zero.mpr h.2)), withinFile_eq_error]
        omega
      · rw [checks_of_error (require_eq_error.mpr ⟨h, rfl⟩)]
        exact iff_of_true rfl fun hboth => h ⟨hboth.1, hboth.2.2⟩
    · rename_i hfits
      exact iff_of_true rfl fun hboth => hfits hboth.2.1

/-- A header that asks for a single range of bytes is refused exactly if the range cannot be
satisfied, or does not fit; in another case of the unit it is not refused. -/
theorem parseRange_eq_error (htotal : total < 2 ^ 64) {header : String} {unit : List Char}
    {spec : RangeSpec} (h : AsksFor header unit spec) :
    parseRange (some header) total = .error .unsatisfiable ↔
      unit = "bytes".toList ∧ ¬ (spec.Satisfiable total ∧ spec.Fits total) := by
  by_cases hunit : unit = "bytes".toList
  · subst hunit
    rw [parseRange_of_asksFor h, askedPositions_eq_error htotal, and_iff_right rfl]
  · rw [parseRange_of_unit h hunit]
    exact iff_of_false nofun fun hboth => hunit hboth.1

end

/-! ### Following open ranges -/

/-- The number of a position. -/
def Numeral.of (position : Nat) : Numeral where
  digits := Nat.toDigits 10 position
  ne_nil := Nat.toDigits_ne_nil
  isDigit := fun _ hc => Nat.isDigit_of_mem_toDigits (by decide) (by decide) hc

theorem Numeral.value_of (position : Nat) : (Numeral.of position).value = position :=
  Nat.ofDigitChars_ten_toDigits

theorem asksFor_openRange (position : Nat) :
    AsksFor (openRange position) "bytes".toList (.int (.of position) none) := by
  refine ⟨by decide +kernel, ?_⟩
  rw [openRange, Nat.toString_eq_repr, String.toList_append, String.toList_append,
    Nat.toList_repr]
  rfl

/-- What is asked for of a file from a position on is served. -/
theorem respondTo_openRange {file : StoredFile} {position : Nat}
    (h : position < file.bytes.length) :
    respondTo file (some (openRange position)) =
      .partialContent (file.served maxRangeResponseBytes position (file.bytes.length - 1)) := by
  have hlength := file.length_lt
  apply respondTo_of_range
  rw [parseRange_of_asksFor (asksFor_openRange position)]
  have hne := (Numeral.of position).ne_nil
  simp only [RangeSpec.sides, askedPositions, hne, Option.map_none, Option.getD_none, false_and,
    if_false, if_true, okOr_parseU64, Numeral.value_of]
  rw [if_pos (by omega), withinFile_eq, if_pos (by omega), Nat.min_self]

/-- With enough requests, a client has all that comes after a position. -/
theorem follow_eq {file : StoredFile} {requests position : Nat}
    (h : file.bytes.length - position < requests) :
    follow file requests position = some (file.bytes.drop position) := by
  induction requests generalizing position with
  | zero => exact absurd h (Nat.not_lt_zero _)
  | succ requests ih =>
    rw [follow]
    split
    · rename_i hend
      rw [List.drop_eq_nil_of_le hend]
    · rename_i hmore
      have hlt : position < file.bytes.length := Nat.lt_of_not_le hmore
      obtain ⟨hpos, _⟩ := maxRangeResponseBytes_bounds
      have hbounds := servedLast_bounds hpos (Nat.le_sub_one_of_lt hlt)
      rw [respondTo_openRange hlt]
      dsimp only [StoredFile.served]
      rw [ih (by omega), Option.map_some]
      have hnext : servedLast maxRangeResponseBytes position (file.bytes.length - 1) + 1 =
          position + (servedLast maxRangeResponseBytes position (file.bytes.length - 1) -
            position + 1) := by omega
      rw [hnext, ← List.drop_drop, List.take_append_drop]

/-- A header serves a file of some length well: its range is within the file and its bytes are
answered as far as one answer carries, it is not refused if it asks for a single satisfiable range,
and who follows open ranges has the whole file. -/
structure ServesRanges (header : Option String) (total : Nat) : Prop where
  no_overflow : parseRange header total ≠ .error .overflow
  bytes : ∀ start last, parseRange header total = .ok (some (start, last)) →
    start ≤ last ∧ last < total ∧ ∀ file : StoredFile, file.bytes.length = total →
      ∃ content final, respondTo file header = .partialContent content ∧
        final = min last (start + maxRangeResponseBytes - 1) ∧
        content.body = (file.bytes.drop start).take (final - start + 1) ∧
        content.contentRange =
          "bytes " ++ toString start ++ "-" ++ toString final ++ "/" ++ toString total
  not_refused : ∀ text unit spec, header = some text → AsksFor text unit spec →
    spec.Satisfiable total → parseRange header total ≠ .error .unsatisfiable
  followed : ∀ file : StoredFile, file.bytes.length = total →
    ∃ requests, follow file requests 0 = some file.bytes

/-- A request is served well unless it asks, of the bytes of a file, for a satisfiable range with a
number that is no `u64`, or for the end of an empty file. -/
theorem servesRanges_iff (header : Option String) (total : UInt64) :
    ServesRanges header total.toNat ↔
      ∀ text spec, header = some text → AsksFor text "bytes".toList spec →
        spec.Satisfiable total.toNat → spec.Fits total.toNat := by
  have htotal : total.toNat < 2 ^ 64 := total.toNat_lt
  constructor
  · intro h text spec rfl hasks hsat
    by_contra hfits
    exact h.not_refused text _ spec rfl hasks hsat
      ((parseRange_eq_error htotal hasks).mpr ⟨rfl, fun hboth => hfits hboth.2⟩)
  · intro h
    obtain ⟨hoverflow, hbounds⟩ := inFile_parseRange header total.toNat
    refine ⟨hoverflow, fun start last hparsed => ?_, ?_, fun file _ => ?_⟩
    · obtain ⟨hle, hlt⟩ := hbounds start last hparsed
      refine ⟨hle, hlt, fun file hlength => ?_⟩
      rw [← hlength] at hparsed
      exact ⟨_, servedLast maxRangeResponseBytes start last, respondTo_of_range hparsed,
        by rw [servedLast], rfl, by rw [← hlength]; rfl⟩
    · rintro text unit spec rfl hasks hsat hrefused
      obtain ⟨rfl, hnot⟩ := (parseRange_eq_error htotal hasks).mp hrefused
      exact hnot ⟨hsat, h text spec rfl hasks hsat⟩
    · exact ⟨file.bytes.length + 1, follow_eq (Nat.lt_succ_self _)⟩

/-- A range of a file that ends past all `u64` is refused, although the file has bytes of it. -/
theorem refused_range_satisfiable :
    ¬ ∀ (header : Option String) (total : UInt64), ServesRanges header total.toNat := by
  intro h
  have hasks : AsksFor "bytes=0-18446744073709551616" "bytes".toList
      (.int (.of 0) (some (.of (2 ^ 64)))) := by
    refine ⟨by decide +kernel, by decide +kernel⟩
  have hsat : RangeSpec.Satisfiable 1 (.int (.of 0) (some (.of (2 ^ 64)))) := by
    refine ⟨?_, fun last hlast => ?_⟩
    · rw [Numeral.value_of]
      decide
    · rw [Numeral.value_of]
      exact Nat.zero_le _
  have hnot : ¬ RangeSpec.Fits 1 (.int (.of 0) (some (.of (2 ^ 64)))) := by
    intro hfits
    have hlt := hfits (.of (2 ^ 64)) rfl
    rw [Numeral.value_of] at hlt
    exact Nat.lt_irrefl _ hlt
  exact (h (some "bytes=0-18446744073709551616") 1).not_refused _ _ _ rfl hasks hsat
    ((parseRange_eq_error (by decide) hasks).mpr ⟨rfl, fun hboth => hnot hboth.2⟩)

end Rellm.Media
