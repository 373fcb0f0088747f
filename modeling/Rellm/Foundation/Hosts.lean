import Mathlib.Algebra.GroupWithZero.Nat
import Rellm.Foundation.Ascii
import Rellm.Foundation.Percent

/-!
# Hosts of addresses

How a browser reads the host of an address. A host that ends in a number is an address of four bytes,
or none at all; its parts may be written in several bases, and the last one may stand for several
bytes.
-/

namespace Rellm.Foundation

/-- A character of a domain name in ASCII. -/
def isNameCharacter (c : Char) : Bool := c.isAlphanum || c = '-' || c = '.'

/-- What a browser does with percent signs, with names beyond ASCII and with what is in brackets. A
name in ASCII is put into lower case, unless one of its labels stands for a name beyond ASCII and is
refused. -/
structure Browser where
  percentDecode : List Char → List Char
  toAscii : List Char → Option (List Char)
  isIpv6 : List Char → Bool
  percentDecode_name : ∀ name, (∀ c ∈ name, isNameCharacter c = true) → percentDecode name = name
  toAscii_eq : ∀ name ascii, (∀ c ∈ name, isNameCharacter c = true) →
    toAscii name = some ascii → ascii = name.map Char.toLower
  toAscii_plain : ∀ name, name ≠ [] → (∀ c ∈ name, isNameCharacter c = true) →
    (∀ label ∈ name.splitOn '.', ¬ ['x', 'n', '-', '-'] <+: label.map Char.toLower) →
    toAscii name = some (name.map Char.toLower)

/-- The number with some digits in a base up to sixteen. -/
def valueIn (base : Nat) (digits : List Char) : Option Nat :=
  digits.foldlM (fun value c => (percentValue c).bind fun digit =>
    if digit < base then some (base * value + digit) else none) 0

/-- A zero and an X come first. -/
def isHexadecimal (text : List Char) : Bool :=
  text.head? = some '0' && (text.tail.head? = some 'x' || text.tail.head? = some 'X')

/-- A part of an address: hexadecimal after a zero and an X, octal after a zero, or decimal. -/
def ipv4Number (text : List Char) : Option Nat :=
  if text = [] then none
  else if isHexadecimal text then valueIn 16 (text.drop 2)
  else if text.head? = some '0' ∧ text.tail ≠ [] then valueIn 8 text.tail
  else valueIn 10 text

/-- The parts of a host, without an empty one after a last dot. -/
def hostParts (host : List Char) : List (List Char) :=
  let parts := host.splitOn '.'
  if parts.getLast? = some [] ∧ 1 < parts.length then parts.dropLast else parts

def endsInNumber (host : List Char) : Bool :=
  match (hostParts host).getLast? with
  | none => false
  | some last => (!last.isEmpty && last.all Char.isDigit) || (ipv4Number last).isSome

/-- The address with up to four parts, each but the last a byte. -/
def parseIpv4 (host : List Char) : Option Nat :=
  if 4 < (hostParts host).length then none
  else ((hostParts host).mapM ipv4Number).bind fun numbers =>
    if numbers.dropLast.any (255 < ·) ∨ 256 ^ (5 - numbers.length) ≤ numbers.getLastD 0 then none
    else some (numbers.getLastD 0 +
      (numbers.dropLast.zipIdx.map fun part => part.1 * 256 ^ (3 - part.2)).sum)

/-- A character that no domain name has. -/
def isForbidden (c : Char) : Bool :=
  c.toNat ≤ 32 || c.toNat = 127 ||
    c ∈ ['#', '/', ':', '<', '>', '?', '@', '[', '\\', ']', '^', '|', '%']

inductive Host where
  | domain (name : List Char)
  | ipv4 (address : Nat)
  | ipv6
  deriving DecidableEq, Repr

/-- The host that a browser reads. -/
def Browser.parseHost (browser : Browser) : List Char → Option Host
  | '[' :: rest =>
    if rest.getLast? = some ']' ∧ browser.isIpv6 rest.dropLast then some .ipv6 else none
  | input =>
    (browser.toAscii (browser.percentDecode input)).bind fun ascii =>
      if ascii.isEmpty || ascii.any isForbidden then none
      else if endsInNumber ascii then (parseIpv4 ascii).map .ipv4
      else some (.domain ascii)

/-- The browser reads a host as an address rather than a name. -/
def Browser.ReadsAddress (browser : Browser) (host : List Char) : Prop :=
  (∃ address, browser.parseHost host = some (.ipv4 address)) ∨ browser.parseHost host = some .ipv6

section

variable {c : Char} {base value : Nat} {text host : List Char}

theorem percentValue_toLower (c : Char) : percentValue c.toLower = percentValue c := by
  by_cases h : c.toNat < 128
  · exact forall_ascii (fun c => percentValue c.toLower = percentValue c) (by decide +kernel) h
  · rw [toLower_of_ge (by omega)]

/-- Lower case changes no number. -/
theorem valueIn_map_toLower (base : Nat) (digits : List Char) :
    valueIn base (digits.map Char.toLower) = valueIn base digits := by
  rw [valueIn, valueIn, List.foldlM_map]
  simp only [percentValue_toLower]

/-- A character in a number of some base is a digit of that base. -/
theorem percentValue_of_valueIn {digits : List Char} (h : (valueIn base digits).isSome = true) :
    ∀ c ∈ digits, ∃ digit < base, percentValue c = some digit := by
  have hall : ∀ (digits : List Char) (value : Nat),
      (digits.foldlM (fun value c => (percentValue c).bind fun digit =>
        if digit < base then some (base * value + digit) else none) value).isSome = true →
      ∀ c ∈ digits, ∃ digit < base, percentValue c = some digit := by
    intro digits
    induction digits with
    | nil => exact fun _ _ => nofun
    | cons d digits ih =>
      intro value h c hc
      rw [List.foldlM_cons] at h
      cases hd : percentValue d with
      | none => simp [hd] at h
      | some digit =>
        rw [hd, Option.bind_some] at h
        split at h
        · rename_i hlt
          rcases List.mem_cons.mp hc with rfl | hc
          · exact ⟨digit, hlt, hd⟩
          · exact ih _ h c hc
        · simp at h
  exact hall digits 0 h

theorem isDigit_of_percentValue {digit : Nat} (h : percentValue c = some digit) (hlt : digit < 10) :
    c.isDigit = true := by
  unfold percentValue at h
  split at h
  · assumption
  · split at h
    · obtain rfl := Option.some.inj h
      omega
    · split at h
      · obtain rfl := Option.some.inj h
        omega
      · cases h

theorem isAlphanum_of_percentValue {digit : Nat} (h : percentValue c = some digit) :
    c.isAlphanum = true := by
  by_cases hc : c.toNat < 128
  · refine forall_ascii (fun c => (percentValue c).isSome = true → c.isAlphanum = true)
      (by decide +kernel) hc ?_
    rw [h]
    rfl
  · have hdigit : c.isDigit = false := by
      rw [Bool.eq_false_iff]
      exact fun hdigit => hc (lt_of_isAlphanum (by rw [Char.isAlphanum, hdigit, Bool.or_true]))
    rw [percentValue, hdigit, if_neg Bool.false_ne_true, if_neg (by omega), if_neg (by omega)] at h
    cases h

theorem isHexadecimal_iff : isHexadecimal text = true ↔
    ∃ d rest, text = '0' :: d :: rest ∧ (d = 'x' ∨ d = 'X') := by
  rcases text with _ | ⟨c, _ | ⟨d, rest⟩⟩
  · simp [isHexadecimal]
  · simp [isHexadecimal]
  · simp [isHexadecimal]

theorem isHexadecimal_map_toLower (text : List Char) :
    isHexadecimal (text.map Char.toLower) = isHexadecimal text := by
  have hzero (c : Char) : c.toLower = '0' ↔ c = '0' := toLower_eq_iff (by decide)
  have hX (c : Char) : (decide (c.toLower = 'x') || decide (c.toLower = 'X')) =
      (decide (c = 'x') || decide (c = 'X')) := by
    by_cases h : c.toNat < 128
    · exact forall_ascii (fun c => (decide (c.toLower = 'x') || decide (c.toLower = 'X')) =
        (decide (c = 'x') || decide (c = 'X'))) (by decide +kernel) h
    · rw [toLower_of_ge (by omega)]
  rcases text with _ | ⟨c, _ | ⟨d, rest⟩⟩
  · rfl
  · simp [isHexadecimal]
  · simp [isHexadecimal, hzero, hX d]

/-- Lower case changes no part of an address. -/
theorem ipv4Number_map_toLower (text : List Char) :
    ipv4Number (text.map Char.toLower) = ipv4Number text := by
  have hzero : (text.map Char.toLower).head? = some '0' ↔ text.head? = some '0' := by
    rcases text with _ | ⟨c, rest⟩
    · rfl
    · simp [@toLower_eq_iff c '0' (by decide)]
  rw [ipv4Number, ipv4Number, isHexadecimal_map_toLower, ← List.map_drop, ← List.map_tail,
    valueIn_map_toLower, valueIn_map_toLower, valueIn_map_toLower]
  simp only [hzero, List.map_eq_nil_iff, ne_eq]

/-- A part of an address consists of letters and digits, the first of which is a digit; it consists
of digits alone unless it is hexadecimal. -/
structure Numeric (text : List Char) : Prop where
  ne_nil : text ≠ []
  isAlphanum : ∀ c ∈ text, c.isAlphanum = true
  head : ∀ c, text.head? = some c → c.isDigit = true
  isDigit : isHexadecimal text = false → ∀ c ∈ text, c.isDigit = true

theorem numeric_of_ipv4Number (h : (ipv4Number text).isSome = true) : Numeric text := by
  have hdecimal {base : Nat} (hbase : base ≤ 10) {digits : List Char}
      (hvalue : (valueIn base digits).isSome = true) : ∀ c ∈ digits, c.isDigit = true := by
    intro c hc
    obtain ⟨digit, hlt, hdigit⟩ := percentValue_of_valueIn hvalue c hc
    exact isDigit_of_percentValue hdigit (by omega)
  have hof (hne : text ≠ []) (hdigits : ∀ c ∈ text, c.isDigit = true) : Numeric text := by
    refine ⟨hne, fun c hc => ?_, fun c hc => hdigits c (List.mem_of_head? hc), fun _ => hdigits⟩
    rw [Char.isAlphanum, hdigits c hc, Bool.or_true]
  unfold ipv4Number at h
  split at h
  · cases h
  · rename_i hne
    split at h
    · rename_i hhex
      obtain ⟨d, rest, rfl, hd⟩ := isHexadecimal_iff.mp hhex
      refine ⟨hne, ?_, ?_, fun hnot => absurd hhex (by simp [hnot])⟩
      · have hletter : d.isAlphanum = true := by
          rcases hd with rfl | rfl <;> decide
        refine List.forall_mem_cons.mpr ⟨by decide, List.forall_mem_cons.mpr ⟨hletter, ?_⟩⟩
        intro c hc
        obtain ⟨_, _, hdigit⟩ := percentValue_of_valueIn h c hc
        exact isAlphanum_of_percentValue hdigit
      · intro c hc
        obtain rfl := Option.some.inj hc
        decide
    · split at h
      · rename_i hoctal
        obtain ⟨rest, rfl⟩ := List.head?_eq_some_iff.mp hoctal.1
        exact hof hne (List.forall_mem_cons.mpr ⟨by decide, hdecimal (by decide) h⟩)
      · exact hof hne (hdecimal (Nat.le_refl _) h)

theorem splitOn_map {f : Char → Char} {separator : Char}
    (hf : ∀ c, f c = separator ↔ c = separator) (text : List Char) :
    (text.map f).splitOn separator = (text.splitOn separator).map (List.map f) := by
  induction text with
  | nil => rfl
  | cons c text ih =>
    have hsame : (f c == separator) = (c == separator) := by
      rw [Bool.eq_iff_iff, beq_iff_eq, beq_iff_eq, hf]
    rw [List.map_cons, List.splitOn_cons_eq_if_modifyHead, List.splitOn_cons_eq_if_modifyHead, ih,
      hsame]
    split
    · rfl
    · cases h : text.splitOn separator with
      | nil => exact absurd h (List.splitOn_ne_nil _ _)
      | cons label labels => rfl

theorem splitOn_map_toLower (host : List Char) :
    (host.map Char.toLower).splitOn '.' = (host.splitOn '.').map (List.map Char.toLower) :=
  splitOn_map (fun _ => toLower_eq_iff (by decide)) host

theorem hostParts_map_toLower (host : List Char) :
    hostParts (host.map Char.toLower) = (hostParts host).map (List.map Char.toLower) := by
  have hlast (parts : List (List Char)) :
      (parts.map (List.map Char.toLower)).getLast? = some [] ↔ parts.getLast? = some [] := by
    rw [List.getLast?_map]
    cases parts.getLast? <;> simp
  unfold hostParts
  dsimp only
  rw [splitOn_map_toLower]
  simp only [hlast, List.length_map]
  split
  · exact (List.map_dropLast).symm
  · rfl

theorem parseIpv4_map_toLower (host : List Char) :
    parseIpv4 (host.map Char.toLower) = parseIpv4 host := by
  have hnumbers : ((hostParts host).map (List.map Char.toLower)).mapM ipv4Number =
      (hostParts host).mapM ipv4Number := by
    rw [List.mapM_map]
    simp only [Function.comp_def, ipv4Number_map_toLower]
  rw [parseIpv4, parseIpv4, hostParts_map_toLower, List.length_map, hnumbers]

theorem endsInNumber_map_toLower (host : List Char) :
    endsInNumber (host.map Char.toLower) = endsInNumber host := by
  rw [endsInNumber, endsInNumber, hostParts_map_toLower, List.getLast?_map]
  cases (hostParts host).getLast? with
  | none => rfl
  | some last =>
    simp [ipv4Number_map_toLower, isDigit_toLower, Function.comp_def]

/-- Every part of an address is a number. -/
theorem numeric_of_parseIpv4 (h : (parseIpv4 host).isSome = true) :
    (hostParts host).length ≤ 4 ∧
      ∀ part ∈ hostParts host, (ipv4Number part).isSome = true ∧ Numeric part := by
  have hmapM : ∀ parts : List (List Char), (parts.mapM ipv4Number).isSome = true →
      ∀ part ∈ parts, (ipv4Number part).isSome = true := by
    intro parts
    induction parts with
    | nil => exact fun _ => nofun
    | cons part parts ih =>
      intro hsome
      rw [List.mapM_cons] at hsome
      cases hpart : ipv4Number part with
      | none => simp [hpart] at hsome
      | some number =>
        cases hparts : parts.mapM ipv4Number with
        | none => simp [hpart, hparts] at hsome
        | some numbers =>
          exact List.forall_mem_cons.mpr ⟨by rw [hpart]; rfl, ih (by rw [hparts]; rfl)⟩
  unfold parseIpv4 at h
  split at h
  · cases h
  · rename_i hlength
    refine ⟨Nat.le_of_not_lt hlength, fun part hpart => ?_⟩
    have hnumber := hmapM _ (Option.isSome_of_isSome_bind h) part hpart
    exact ⟨hnumber, numeric_of_ipv4Number hnumber⟩

theorem hostParts_ne_nil (host : List Char) : hostParts host ≠ [] := by
  unfold hostParts
  dsimp only
  split
  · rename_i h
    rw [← List.length_pos_iff, List.length_dropLast]
    omega
  · exact List.splitOn_ne_nil _ _

/-- The labels of a host are its parts and possibly an empty one. -/
theorem mem_hostParts {label : List Char} (h : label ∈ host.splitOn '.') :
    label ∈ hostParts host ∨ label = [] := by
  unfold hostParts
  dsimp only
  split
  · rename_i hlast
    rw [← List.dropLast_append_getLast? _ hlast.1, List.mem_append, List.mem_singleton] at h
    exact h
  · exact .inl h

/-- What all labels consist of, and the dots between them, is what the host consists of. -/
theorem forall_mem_of_labels {p : Char → Prop} (hdot : p '.')
    (h : ∀ label ∈ host.splitOn '.', ∀ c ∈ label, p c) : ∀ c ∈ host, p c := by
  induction host with
  | nil => exact nofun
  | cons d host ih =>
    rw [List.splitOn_cons_eq_if_modifyHead] at h
    split at h
    · rename_i hd
      obtain rfl := eq_of_beq hd
      exact List.forall_mem_cons.mpr ⟨hdot, ih (List.forall_mem_cons.mp h).2⟩
    · cases hsplit : host.splitOn '.' with
      | nil => exact absurd hsplit (List.splitOn_ne_nil _ _)
      | cons label labels =>
        rw [hsplit, List.modifyHead_cons] at h
        obtain ⟨hfirst, hrest⟩ := List.forall_mem_cons.mp h
        obtain ⟨hd, hlabel⟩ := List.forall_mem_cons.mp hfirst
        refine List.forall_mem_cons.mpr ⟨hd, ih ?_⟩
        rw [hsplit]
        exact List.forall_mem_cons.mpr ⟨hlabel, hrest⟩

theorem parseHost_of_name {browser : Browser} (h : ∀ c ∈ host, isNameCharacter c = true) :
    browser.parseHost host = (browser.toAscii host).bind fun ascii =>
      if ascii.isEmpty || ascii.any isForbidden then none
      else if endsInNumber ascii then (parseIpv4 ascii).map .ipv4
      else some (.domain ascii) := by
  unfold Browser.parseHost
  split
  · exact absurd (h '[' List.mem_cons_self) (by decide)
  · rw [browser.percentDecode_name host h]

/-- A name that is read as an address is one of four bytes. -/
theorem parseIpv4_of_readsAddress {browser : Browser} (hname : ∀ c ∈ host, isNameCharacter c = true)
    (h : browser.ReadsAddress host) : (parseIpv4 host).isSome = true := by
  rw [Browser.ReadsAddress, parseHost_of_name hname] at h
  cases hascii : browser.toAscii host with
  | none => simp [hascii] at h
  | some ascii =>
    obtain rfl := browser.toAscii_eq host ascii hname hascii
    rw [hascii, Option.bind_some, parseIpv4_map_toLower] at h
    split_ifs at h
    · simp at h
    · cases hparse : parseIpv4 host with
      | none => simp [hparse] at h
      | some address => rfl
    · simp at h

/-- An address of four bytes is read as one. -/
theorem readsAddress_of_parseIpv4 (browser : Browser) (h : (parseIpv4 host).isSome = true) :
    browser.ReadsAddress host := by
  obtain ⟨_, hnumeric⟩ := numeric_of_parseIpv4 h
  have hlabels : ∀ label ∈ host.splitOn '.', label = [] ∨ Numeric label := by
    intro label hlabel
    rcases mem_hostParts hlabel with hpart | hempty
    · exact .inr (hnumeric label hpart).2
    · exact .inl hempty
  have halphanum : ∀ c ∈ host, c.isAlphanum = true ∨ c = '.' := by
    refine forall_mem_of_labels (.inr rfl) fun label hlabel c hc => ?_
    rcases hlabels label hlabel with rfl | hlabel
    · cases hc
    · exact .inl (hlabel.isAlphanum c hc)
  have hname : ∀ c ∈ host, isNameCharacter c = true := by
    intro c hc
    rcases halphanum c hc with halnum | rfl
    · simp [isNameCharacter, halnum]
    · rfl
  have hne : host ≠ [] := by
    rintro rfl
    exact (hnumeric [] List.mem_cons_self).2.ne_nil rfl
  have hascii : browser.toAscii host = some (host.map Char.toLower) := by
    refine browser.toAscii_plain host hne hname fun label hlabel hprefix => ?_
    rcases hlabels label hlabel with rfl | hlabel
    · simp at hprefix
    · obtain ⟨c, rest, rfl⟩ := List.exists_cons_of_ne_nil hlabel.ne_nil
      have hdigit := hlabel.head c rfl
      rw [← isDigit_toLower, ← (List.cons_prefix_cons.mp hprefix).1] at hdigit
      exact absurd hdigit (by decide)
  have hallowed : (host.map Char.toLower).any isForbidden = false := by
    rw [List.any_eq_false]
    intro c hc
    obtain ⟨d, hd, rfl⟩ := List.mem_map.mp hc
    have hlt : d.toNat < 128 := by
      rcases halphanum d hd with halnum | rfl
      · exact lt_of_isAlphanum halnum
      · decide
    rw [Bool.not_eq_true]
    exact forall_ascii (fun d => isNameCharacter d = true → isForbidden d.toLower = false)
      (by decide +kernel) hlt (hname d hd)
  have hends : endsInNumber host = true := by
    rw [endsInNumber, List.getLast?_eq_some_getLast (hostParts_ne_nil host)]
    dsimp only
    rw [(hnumeric _ (List.getLast_mem _)).1, Bool.or_true]
  obtain ⟨address, haddress⟩ := Option.isSome_iff_exists.mp h
  left
  refine ⟨address, ?_⟩
  rw [parseHost_of_name hname, hascii, Option.bind_some, hallowed, endsInNumber_map_toLower, hends,
    parseIpv4_map_toLower, haddress]
  simp [hne]

end

end Rellm.Foundation
