import Rellm.Client.Links
import Rellm.Client.Recurrence
import Rellm.Foundation.Percent
import Rellm.Foundation.Words

/-!
# Reading addresses

An address names its protocol, then the host with an optional port, then a path, which ends at a query
or a fragment. The browser supplies how texts are trimmed and decoded; about lower case only what
happens to characters in ASCII is known.
-/

namespace Rellm.Client

open Foundation

namespace Url

def chompBeforePath (protocol : Protocol) (path str : Text) : Option Url :=
  if str.isEmpty || decide ('@' ∈ str) then none
  else
    match str.splitOn ':' with
    | [host] => some ⟨protocol, host, none, path⟩
    | [host, port] => (LocalTime.toInt port).map fun port => ⟨protocol, host, some port, path⟩
    | _ => none

def chompBeforeQuery (protocol : Protocol) (str : Text) : Option Url :=
  if str.isEmpty then none
  else if '/' ∈ str then
    chompBeforePath protocol (str.dropWhile (· ≠ '/')) (str.takeWhile (· ≠ '/'))
  else chompBeforePath protocol ['/'] str

def chompBeforeFragment (protocol : Protocol) (str : Text) : Option Url :=
  if str.isEmpty then none else chompBeforeQuery protocol (str.takeWhile (· ≠ '?'))

def chompAfterProtocol (protocol : Protocol) (str : Text) : Option Url :=
  if str.isEmpty then none else chompBeforeFragment protocol (str.takeWhile (· ≠ '#'))

def fromString (str : Text) : Option Url :=
  if "http://".toList.isPrefixOf str then chompAfterProtocol .http (str.drop 7)
  else if "https://".toList.isPrefixOf str then chompAfterProtocol .https (str.drop 8)
  else none

end Url

/-- Whitespace and line terminators, which are trimmed. -/
def isSpace (c : Char) : Bool :=
  decide (c.toNat ∈ [9, 10, 11, 12, 13, 32, 160, 5760, 8232, 8233, 8239, 8287, 12288, 65279]) ||
    (8192 ≤ c.toNat && c.toNat ≤ 8202)

/-- How texts are put into lower case. Only ASCII is known, also as the start of a longer text. -/
structure Casing where
  toLower : Text → Text
  toLower_ascii : ∀ text, (∀ c ∈ text, c.val < 128) → toLower text = text.map Char.toLower
  toLower_append : ∀ before after, (∀ c ∈ before, c.val < 128) →
    before.map Char.toLower <+: toLower (before ++ after)

/-- The libraries of the browser. -/
def browserLibrary (casing : Casing) : Library where
  trim := trimmed isSpace
  toLower := casing.toLower
  percentDecode := decodeComponent
  fromString := Url.fromString
  toLower_ascii := casing.toLower_ascii

/-- What may follow a path: a query or a fragment. -/
def IsExtra (extra : Text) : Prop := ∀ c ∈ extra.head?, c = '?' ∨ c = '#'

/-- A character that neither ends a path nor is trimmed. -/
def isLinkCharacter (c : Char) : Bool := c ≠ '?' && c ≠ '#' && !isSpace c

section

variable {body path authority extra : Text} {c : Char}

theorem isLinkCharacter_iff :
    isLinkCharacter c = true ↔ c ≠ '?' ∧ c ≠ '#' ∧ isSpace c = false := by
  simp [isLinkCharacter, and_assoc]

theorem IsExtra.of_prefix {shorter : Text} (h : IsExtra extra) (hshorter : shorter <+: extra) :
    IsExtra shorter := by
  intro c hc
  obtain ⟨rest, rfl⟩ := List.head?_eq_some_iff.mp hc
  obtain ⟨after, rfl⟩ := hshorter
  exact h c rfl

/-- What precedes a query or a fragment is not trimmed. -/
theorem trimmed_append (hne : body ≠ []) (hbody : ∀ c ∈ body, isLinkCharacter c = true)
    (h : IsExtra extra) :
    ∃ shorter, IsExtra shorter ∧ trimmed isSpace (body ++ extra) = body ++ shorter := by
  refine ⟨extra.rdropWhile isSpace, h.of_prefix (List.rdropWhile_prefix _ _), ?_⟩
  have hspace : ∀ c ∈ body, isSpace c = false := fun c hc => (isLinkCharacter_iff.mp (hbody c hc)).2.2
  have hdrop : (body ++ extra).dropWhile isSpace = body ++ extra := by
    obtain ⟨c, rest, rfl⟩ := List.exists_cons_of_ne_nil hne
    rw [List.cons_append, List.dropWhile_cons_of_neg (Bool.eq_false_iff.mp (hspace c List.mem_cons_self))]
  rw [trimmed, hdrop, List.rdropWhile, List.rdropWhile, List.reverse_append, List.dropWhile_append]
  split
  · rename_i hnil
    rw [List.isEmpty_iff] at hnil
    have hreverse : body.reverse.dropWhile isSpace = body.reverse := by
      have hself : body.rdropWhile isSpace = body := by
        rw [List.rdropWhile_eq_self_iff]
        exact fun hne => Bool.eq_false_iff.mp (hspace _ (List.getLast_mem hne))
      rw [List.rdropWhile, List.reverse_eq_iff] at hself
      exact hself
    rw [hnil, hreverse, List.reverse_reverse, List.reverse_nil, List.append_nil]
  · rw [List.reverse_append, List.reverse_reverse]

theorem takeWhile_link {last : Char} (hlast : last = '?' ∨ last = '#')
    (hbody : ∀ c ∈ body, isLinkCharacter c = true) (extra : Text) :
    (body ++ extra).takeWhile (· ≠ last) = body ++ extra.takeWhile (· ≠ last) := by
  apply List.takeWhile_append_of_pos
  intro c hc
  obtain ⟨hquery, hfragment, _⟩ := isLinkCharacter_iff.mp (hbody c hc)
  rcases hlast with rfl | rfl
  · exact decide_eq_true hquery
  · exact decide_eq_true hfragment

/-- A path ends at a query or a fragment. -/
theorem pathOf_append (hbody : ∀ c ∈ body, isLinkCharacter c = true) (h : IsExtra extra) :
    pathOf (body ++ extra) = body := by
  have hkept : ∀ c ∈ body, (decide (c ≠ '?') && decide (c ≠ '#')) = true := by
    intro c hc
    obtain ⟨hquery, hfragment, _⟩ := isLinkCharacter_iff.mp (hbody c hc)
    simp [hquery, hfragment]
  rw [pathOf, List.takeWhile_append_of_pos hkept]
  rcases extra with _ | ⟨c, rest⟩
  · simp
  · rcases h c rfl with rfl | rfl <;> simp

theorem chompBeforeQuery_append {protocol : Protocol} (hslash : '/' ∉ authority) :
    Url.chompBeforeQuery protocol (authority ++ '/' :: path) =
      Url.chompBeforePath protocol ('/' :: path) authority := by
  have hkept : ∀ c ∈ authority, decide (c ≠ '/') = true := by
    intro c hc
    rw [decide_eq_true_eq]
    rintro rfl
    exact hslash hc
  have hempty : (authority ++ '/' :: path).isEmpty = false := by simp
  rw [Url.chompBeforeQuery, hempty, if_neg Bool.false_ne_true, if_pos (by simp),
    List.dropWhile_append_of_pos hkept, List.takeWhile_append_of_pos hkept,
    List.dropWhile_cons_of_neg (by simp), List.takeWhile_cons_of_neg (by simp), List.append_nil]

/-- An address is read as its host and its path. -/
theorem chompAfterProtocol_append {protocol : Protocol} (hslash : '/' ∉ authority)
    (hauthority : ∀ c ∈ authority, isLinkCharacter c = true)
    (hpath : ∀ c ∈ '/' :: path, isLinkCharacter c = true) (h : IsExtra extra) :
    Url.chompAfterProtocol protocol (authority ++ '/' :: path ++ extra) =
      Url.chompBeforePath protocol ('/' :: path) authority := by
  have hbody : ∀ c ∈ authority ++ '/' :: path, isLinkCharacter c = true :=
    List.forall_mem_append.mpr ⟨hauthority, hpath⟩
  have hend : (extra.takeWhile (· ≠ '#')).takeWhile (· ≠ '?') = [] := by
    rcases extra with _ | ⟨c, rest⟩
    · rfl
    · rcases h c rfl with rfl | rfl <;> simp
  have hempty (rest : Text) : (authority ++ '/' :: path ++ rest).isEmpty = false := by simp
  rw [Url.chompAfterProtocol, hempty, if_neg Bool.false_ne_true, takeWhile_link (.inr rfl) hbody,
    Url.chompBeforeFragment, hempty, if_neg Bool.false_ne_true, takeWhile_link (.inl rfl) hbody,
    hend, List.append_nil, chompBeforeQuery_append hslash]

end

/-- A domain name in lower case, possibly with a port. -/
structure Domain where
  name : Text
  port : Option Nat
  dot : '.' ∈ name
  noColon : ':' ∉ name
  lowercase : ∀ c ∈ name, isHostCharacter c = true ∧ c.toLower = c

namespace Domain

def portText : Option Nat → Text
  | some port => ':' :: Nat.toDigits 10 port
  | none => []

variable (domain : Domain)

def host : Text := domain.name ++ portText domain.port

theorem isHostCharacter_of_isDigit {c : Char} (h : c.isDigit = true) :
    isHostCharacter c = true ∧ c.toLower = c := by
  have halphanum : c.isAlphanum = true := by rw [Char.isAlphanum, h, Bool.or_true]
  refine ⟨by simp [isHostCharacter, halphanum], ?_⟩
  exact forall_ascii (fun c => c.isDigit = true → c.toLower = c) (by decide +kernel)
    (lt_of_isAlphanum halphanum) h

theorem isHostCharacter_of_mem {c : Char} (h : c ∈ domain.host) :
    isHostCharacter c = true ∧ c.toLower = c := by
  obtain h | h := List.mem_append.mp h
  · exact domain.lowercase c h
  · cases hport : domain.port with
    | none =>
      rw [hport] at h
      cases h
    | some port =>
      rw [hport] at h
      obtain rfl | h := List.mem_cons.mp h
      · exact ⟨by decide, by decide⟩
      · exact isHostCharacter_of_isDigit (Nat.isDigit_of_mem_toDigits (by decide) (by decide) h)

theorem notMem_host {c : Char} (h : isHostCharacter c = false) : c ∉ domain.host := by
  intro hmem
  rw [(domain.isHostCharacter_of_mem hmem).1] at h
  cases h

/-- What stays as it is in lower case, character by character, does so as a whole. -/
theorem toLower_eq_self (casing : Casing) {text : Text}
    (h : ∀ c ∈ text, isHostCharacter c = true ∧ c.toLower = c) : casing.toLower text = text := by
  rw [casing.toLower_ascii text fun c hc => ascii_of_isHostCharacter (h c hc).1]
  exact (List.map_congr_left fun c hc => (h c hc).2).trans (List.map_id _)

theorem host_ne_nil : domain.host ≠ [] := by
  intro hnil
  have hdot : '.' ∈ domain.host := List.mem_append_left _ domain.dot
  rw [hnil] at hdot
  cases hdot

/-- What has no dot does not come before a colon where a host starts. -/
theorem append_colon_ne {start : Text} (h : '.' ∉ start) (rest after : Text) :
    start ++ ':' :: rest ≠ domain.host ++ after := by
  intro heq
  rw [host, List.append_assoc] at heq
  obtain ⟨between, hname, hrest⟩ | ⟨between, rfl, _⟩ := List.append_eq_append_iff.mp heq
  · rcases between with _ | ⟨c, between⟩
    · rw [List.append_nil] at hname
      exact h (hname ▸ domain.dot)
    · obtain ⟨rfl, _⟩ := List.cons.inj hrest
      refine domain.noColon ?_
      rw [hname]
      exact List.mem_append_right _ List.mem_cons_self
  · exact h (List.mem_append_left _ domain.dot)

theorem splitOn_portText (port : Nat) :
    (domain.name ++ portText (some port)).splitOn ':' = [domain.name, Nat.toDigits 10 port] := by
  have hdigits : ':' ∉ Nat.toDigits 10 port := by
    intro hmem
    exact absurd (Nat.isDigit_of_mem_toDigits (by decide) (by decide) hmem) (by decide)
  rw [portText, List.splitOn_append_cons_self_of_not_mem domain.noColon,
    List.splitOn_eq_singleton hdigits]

theorem toInt_toDigits (n : Nat) : LocalTime.toInt (Nat.toDigits 10 n) = some (n : Int) := by
  have hpad : LocalTime.pad 0 n = Nat.toDigits 10 n := by
    simp [LocalTime.pad, LocalTime.fromInt, List.leftpad]
  rw [← hpad]
  exact LocalTime.toInt_pad 0 (Int.natCast_nonneg n)

theorem toList_toString (n : Nat) : (toString (n : Int)).toList = Nat.toDigits 10 n := by
  change (Nat.repr n).toList = _
  exact Nat.toList_repr

/-- The host and the port of an address are read as they are written. -/
theorem chompBeforePath_host (protocol : Protocol) (path : Text) :
    Url.chompBeforePath protocol path domain.host =
      some ⟨protocol, domain.name, domain.port.map Int.ofNat, path⟩ := by
  have hempty : domain.host.isEmpty = false := List.isEmpty_eq_false_iff.mpr domain.host_ne_nil
  have hat : decide ('@' ∈ domain.host) = false :=
    decide_eq_false (domain.notMem_host (by decide))
  rw [Url.chompBeforePath, hempty, hat, Bool.or_false, if_neg Bool.false_ne_true, host]
  cases domain.port with
  | none =>
    rw [portText, List.append_nil, List.splitOn_eq_singleton domain.noColon]
    rfl
  | some port =>
    rw [splitOn_portText]
    dsimp only
    rw [toInt_toDigits]
    rfl

end Domain

end Rellm.Client
