import Mathlib.Data.Bool.AllAny
import Rellm.Client.Addresses
import Rellm.Foundation.Hosts
import Rellm.Posts.Write

/-!
# Spellings of links

A link to a post may be written relative to the server that shows it or with an origin of its own, with
the directory of a frontend, in a short form, and with a query or a fragment. What names the post are its
id and its host. A link without a protocol is stored with one.
-/

namespace Rellm.Client

open Foundation

namespace RellmLinks

def isLocalHost (host : Text) : Bool :=
  let hostname := (host.splitOn ':').headD host
  hostname = "localhost".toList || hostname = "127.0.0.1".toList ||
    ".local".toList.isSuffixOf hostname

/-- The link to a post that everyone reads in the same way. -/
def canonicalLink (isEvent : Bool) (target : Target) : Text :=
  (if isLocalHost target.host then "http://".toList else "https://".toList) ++ target.host ++
    (if isEvent then "/event/".toList else "/post/".toList) ++ target.id

/-- How a link names its protocol. -/
inductive Scheme where
  | https
  | http
  | omitted
  deriving DecidableEq, Repr

namespace Scheme

def text : Scheme → Text
  | .https => "https://".toList
  | .http => "http://".toList
  | .omitted => []

/-- The protocol that a link is read with. -/
def protocol : Scheme → Protocol
  | .http => .http
  | _ => .https

def defaultPort (scheme : Scheme) : Nat := if scheme.protocol = .http then 80 else 443

/-- The text of the protocol that a link is read with. -/
def full (scheme : Scheme) : Text :=
  if scheme.protocol = .http then "http://".toList else "https://".toList

theorem text_eq (scheme : Scheme) :
    scheme = .omitted ∨ scheme ≠ .omitted ∧ scheme.text = scheme.full ∧
      (scheme.full = "http://".toList ∨ scheme.full = "https://".toList) := by
  cases scheme with
  | https => exact .inr ⟨nofun, rfl, .inr rfl⟩
  | http => exact .inr ⟨nofun, rfl, .inl rfl⟩
  | omitted => exact .inl rfl

end Scheme

/-- A character that starts a short link is written as it is, unless it would end the path, a segment
or the text of a byte, or as its byte. -/
inductive Leads (c : Char) : Text → Prop
  | plain (h : c ∉ ['/', '?', '%']) : Leads c [c]
  | escaped (high low : Char) (h l : Nat) (hhigh : percentValue high = some h)
    (hlow : percentValue low = some l) (hc : 16 * h + l = c.toNat) : Leads c ['%', high, low]

/-- What stands before the id of a post. -/
inductive Form where
  | post
  | event
  | short (c : Char) (lead : Text)
  deriving DecidableEq, Repr

/-- The segments of a path that names a post in some form. -/
def Form.segments (idAndHost : Text) : Form → List Text
  | .post => ["post".toList, idAndHost]
  | .event => ["event".toList, idAndHost]
  | .short _ lead => [lead ++ idAndHost]

/-- A way to write a link to a post. -/
structure Spelling where
  origin : Option (Scheme × Domain) := none
  frontend : Option Text := none
  form : Form
  host : Option Text := none
  slash : Bool := false
  extra : Text := []

namespace Spelling

variable (spelling : Spelling)

def start : Text :=
  match spelling.origin with
  | some (scheme, domain) => scheme.text ++ domain.host
  | none => []

def idAndHost (id : Text) : Text :=
  match spelling.host with
  | some host => id ++ '@' :: host
  | none => id

def segments (id : Text) : List Text :=
  spelling.frontend.toList ++ spelling.form.segments (spelling.idAndHost id)

def path (id : Text) : Text :=
  (spelling.segments id).flatMap (fun segment => '/' :: segment) ++
    if spelling.slash then ['/'] else []

def text (id : Text) : Text := spelling.start ++ spelling.path id ++ spelling.extra

/-- A link names a post by its id and its host; the host may be that of the origin, without the default
port of its protocol, or that of the server which shows a relative link. -/
structure Names (postServerHost : Text) (domain : Domain) : Prop where
  frontend : ∀ frontend ∈ spelling.frontend, frontend ∈ frontends
  lead : ∀ c lead, spelling.form = .short c lead → isReservedLeadCharacter c = true ∧ Leads c lead
  host : ∀ host ∈ spelling.host, host = domain.host
  implied : spelling.host = none →
    (spelling.origin = none ∧ postServerHost = domain.host) ∨
      ∃ scheme, spelling.origin = some (scheme, domain) ∧
        domain.port ≠ some scheme.defaultPort
  extra : IsExtra spelling.extra

/-- The link as the server stores it, which names HTTP for links that do not start like an address; a
relative one is stored as if its host were empty. -/
def stored : Spelling :=
  match spelling.origin with
  | some (.omitted, domain) =>
    if "http".toList.isPrefixOf domain.name then spelling
    else { spelling with origin := some (.http, domain) }
  | _ => spelling

end Spelling

/-- A character within a segment of a path. -/
def isSegmentCharacter (c : Char) : Bool := isLinkCharacter c && c ≠ '/'

theorem isSegmentCharacter_iff {c : Char} :
    isSegmentCharacter c = true ↔ isLinkCharacter c = true ∧ c ≠ '/' := by
  simp [isSegmentCharacter]

theorem isSegmentCharacter_of_isHostCharacter {c : Char} (h : isHostCharacter c = true) :
    isSegmentCharacter c = true :=
  forall_ascii (fun c => isHostCharacter c = true → isSegmentCharacter c = true)
    (by decide) (ascii_of_isHostCharacter h) h

theorem isSegmentCharacter_of_isAlphanum {c : Char} (h : c.isAlphanum = true) :
    isSegmentCharacter c = true :=
  isSegmentCharacter_of_isHostCharacter (by simp [isHostCharacter, h])

theorem Leads.forall_mem {c : Char} {lead : Text} (hc : isReservedLeadCharacter c = true)
    (h : Leads c lead) : lead ≠ [] ∧ ∀ d ∈ lead, isSegmentCharacter d = true := by
  cases h with
  | plain h =>
    refine ⟨List.cons_ne_nil _ _, ?_⟩
    rw [List.forall_mem_singleton]
    have hall : ∀ c ∈ "-._~:/?[]@!$&'()*+,;%=".toList, c ∉ ['/', '?', '%'] →
        isSegmentCharacter c = true :=
      List.all_iff_forall_prop.mp (by decide)
    exact hall c (of_decide_eq_true hc) h
  | escaped high low h l hhigh hlow _ =>
    refine ⟨List.cons_ne_nil _ _, ?_⟩
    simp only [List.forall_mem_cons]
    exact ⟨by decide, isSegmentCharacter_of_isAlphanum (isAlphanum_of_percentValue hhigh),
      isSegmentCharacter_of_isAlphanum (isAlphanum_of_percentValue hlow), nofun⟩

section

variable {library : Library} {postServerHost rawLink rest : Text} {c : Char}

theorem parse_of_slash (htrim : library.trim rawLink = '/' :: c :: rest) (hc : c ≠ '/') :
    parse library postServerHost rawLink =
      parsePath library postServerHost (pathOf ('/' :: c :: rest)) := by
  simp [parse, htrim, Ne.symm hc]

theorem parse_of_noHost (htrim : library.trim rawLink = "http://".toList ++ '/' :: rest) :
    parse library postServerHost rawLink =
      parsePath library postServerHost (pathOf ('/' :: rest)) := by
  simp [parse, htrim]

theorem parse_of_protocol {start : Text}
    (hstart : start = "http://".toList ∨ start = "https://".toList)
    (htrim : library.trim rawLink = start ++ c :: rest) (hc : c ≠ '/') :
    parse library postServerHost rawLink = parseAbsolute library (start ++ c :: rest) := by
  rcases hstart with rfl | rfl <;> simp [parse, htrim, Ne.symm hc]

/-- A link without a protocol that starts with the name of a host is read as one of HTTPS. -/
theorem parse_of_name (hslash : ∀ rest, library.trim rawLink ≠ '/' :: rest)
    (hcolon : ∀ start rest, '.' ∉ start → library.trim rawLink ≠ start ++ ':' :: rest)
    (hdot : '.' ∈ pathOf (library.trim rawLink)) :
    parse library postServerHost rawLink =
      parseAbsolute library ("https://".toList ++ library.trim rawLink) := by
  have hempty : (library.trim rawLink).isEmpty = false := by
    rw [List.isEmpty_eq_false_iff]
    intro hnil
    rw [hnil] at hdot
    cases hdot
  have hslash' {rest : Text} : List.isPrefixOf ('/' :: rest) (library.trim rawLink) = false := by
    rw [Bool.eq_false_iff, ne_eq, List.isPrefixOf_iff_prefix]
    rintro ⟨more, hmore⟩
    exact hslash _ hmore.symm
  have hcolon' {start rest : Text} (h : '.' ∉ start) :
      List.isPrefixOf (start ++ ':' :: rest) (library.trim rawLink) = false := by
    rw [Bool.eq_false_iff, ne_eq, List.isPrefixOf_iff_prefix]
    rintro ⟨more, hmore⟩
    refine hcolon start (rest ++ more) h ?_
    rw [← hmore, List.append_assoc, List.cons_append]
  have hhttp : '.' ∉ "http".toList ∧ '.' ∉ "https".toList := by decide
  have hstarts : "//".toList = '/' :: ['/'] ∧ "/".toList = '/' :: [] ∧
      "http:///".toList = "http".toList ++ ':' :: "///".toList ∧
      "https:///".toList = "https".toList ++ ':' :: "///".toList ∧
      "http://".toList = "http".toList ++ ':' :: "//".toList ∧
      "https://".toList = "https".toList ++ ':' :: "//".toList := by
    decide
  obtain ⟨htwo, hone, hnoHost, hnoHosts, hprotocol, hprotocols⟩ := hstarts
  simp only [parse, htwo, hone, hnoHost, hnoHosts, hprotocol, hprotocols, hempty, hslash',
    hcolon' hhttp.1, hcolon' hhttp.2, Bool.or_false, Bool.false_eq_true, if_false]
  exact if_pos hdot

theorem fromString_full (scheme : Scheme) (str : Text) :
    Url.fromString (scheme.full ++ str) = Url.chompAfterProtocol scheme.protocol str := by
  cases scheme <;> simp [Scheme.full, Scheme.protocol, Url.fromString]

/-- An address is read as its host, without the default port, and its path. -/
theorem parseAbsolute_full (casing : Casing) (scheme : Scheme) (origin : Domain) {path extra : Text}
    (hpath : ∀ c ∈ '/' :: path, isLinkCharacter c = true) (h : IsExtra extra) :
    parseAbsolute (browserLibrary casing) (scheme.full ++ (origin.host ++ '/' :: path ++ extra)) =
      parsePath (browserLibrary casing)
        (origin.name ++ if origin.port = some scheme.defaultPort then [] else
          Domain.portText origin.port) ('/' :: path) := by
  have hfrom : (browserLibrary casing).fromString
      (scheme.full ++ (origin.host ++ '/' :: path ++ extra)) =
        some ⟨scheme.protocol, origin.name, origin.port.map Int.ofNat, '/' :: path⟩ := by
    change Url.fromString _ = _
    rw [fromString_full, chompAfterProtocol_append (origin.notMem_host (by decide))
      (fun c hc => (isSegmentCharacter_iff.mp (isSegmentCharacter_of_isHostCharacter
        (origin.isHostCharacter_of_mem hc).1)).1) hpath h, origin.chompBeforePath_host]
  have hempty : origin.name.isEmpty = false :=
    List.isEmpty_eq_false_iff.mpr (List.ne_nil_of_mem origin.dot)
  have hlower : (browserLibrary casing).toLower origin.name = origin.name :=
    Domain.toLower_eq_self casing origin.lowercase
  rw [parseAbsolute, hfrom, Option.bind_some, hempty, hlower, if_neg Bool.false_ne_true]
  refine congrArg (fun port => parsePath _ (origin.name ++ port) _) ?_
  dsimp only
  cases hport : origin.port with
  | none => cases scheme <;> rfl
  | some port =>
    have hprinted : Domain.portText (some port) = ':' :: (toString (Int.ofNat port)).toList :=
      congrArg (':' :: ·) (Domain.toList_toString port).symm
    rw [Option.map_some, hprinted]
    split
    · rename_i hdefault hprotocol
      obtain rfl : port = 443 := Int.ofNat.inj (Option.some.inj hdefault)
      rw [if_pos (by simp [Scheme.defaultPort, hprotocol])]
    · rename_i hdefault hprotocol
      obtain rfl : port = 80 := Int.ofNat.inj (Option.some.inj hdefault)
      rw [if_pos (by simp [Scheme.defaultPort, hprotocol])]
    · rename_i hsome hhttps hhttp
      obtain rfl := Option.some.inj hsome
      rw [if_neg]
      intro hdefault
      cases hprotocol : scheme.protocol with
      | http =>
        rw [Scheme.defaultPort, if_pos hprotocol] at hdefault
        obtain rfl := Option.some.inj hdefault
        exact hhttp hprotocol rfl
      | https =>
        rw [Scheme.defaultPort, if_neg (by simp [hprotocol])] at hdefault
        obtain rfl := Option.some.inj hdefault
        exact hhttps hprotocol rfl
    · rename_i hnone
      cases hnone

end

section

variable {segments : List Text} {id postServerHost : Text} {spelling : Spelling} {domain : Domain}

/-- The names of a path that is put together from segments. -/
theorem names_flatMap (h : ∀ segment ∈ segments, '/' ∉ segment) (slash : Bool) :
    names (segments.flatMap (fun segment => '/' :: segment) ++ if slash then ['/'] else []) =
      [] :: segments ++ if slash then [[]] else [] := by
  induction segments with
  | nil => cases slash <;> rfl
  | cons segment segments ih =>
    obtain ⟨hsegment, hsegments⟩ := List.forall_mem_cons.mp h
    rw [List.flatMap_cons, List.append_assoc, List.cons_append, names_cons, if_pos rfl,
      names_append_left hsegment, ih hsegments]
    simp

theorem filter_names (h : ∀ segment ∈ segments, segment ≠ [] ∧ '/' ∉ segment) (slash : Bool) :
    (names (segments.flatMap (fun segment => '/' :: segment) ++ if slash then ['/'] else [])).filter
      (fun segment => !segment.isEmpty) = segments := by
  have hkept : segments.filter (fun segment => !segment.isEmpty) = segments := by
    rw [List.filter_eq_self]
    intro segment hsegment
    simp [(h segment hsegment).1]
  rw [names_flatMap (fun segment hsegment => (h segment hsegment).2), List.cons_append,
    List.filter_cons_of_neg (by simp), List.filter_append, hkept]
  cases slash <;> simp

theorem isRellmId_iff : isRellmId id = true ↔ id ≠ [] ∧ ∀ c ∈ id, c.isAlphanum = true := by
  simp [isRellmId, List.isEmpty_eq_false_iff]

namespace Spelling

theorem Names.forall_mem_idAndHost (h : spelling.Names postServerHost domain)
    (hid : isRellmId id = true) :
    spelling.idAndHost id ≠ [] ∧
      ∀ c ∈ spelling.idAndHost id, isHostCharacter c = true ∨ c = '@' := by
  obtain ⟨hne, halphanum⟩ := isRellmId_iff.mp hid
  have hcharacter : ∀ c ∈ id, isHostCharacter c = true ∨ c = '@' :=
    fun c hc => .inl (by simp [isHostCharacter, halphanum c hc])
  cases hhost : spelling.host with
  | none =>
    rw [idAndHost, hhost]
    exact ⟨hne, hcharacter⟩
  | some host =>
    rw [idAndHost, hhost, h.host host hhost]
    refine ⟨List.append_ne_nil_of_left_ne_nil hne _, List.forall_mem_append.mpr ⟨hcharacter, ?_⟩⟩
    exact List.forall_mem_cons.mpr
      ⟨.inr rfl, fun c hc => .inl (domain.isHostCharacter_of_mem hc).1⟩

/-- An id and a host are part of one segment. -/
theorem Names.isSegmentCharacter_of_mem (h : spelling.Names postServerHost domain)
    (hid : isRellmId id = true) {c : Char} (hc : c ∈ spelling.idAndHost id) :
    isSegmentCharacter c = true := by
  obtain hhost | rfl := (h.forall_mem_idAndHost hid).2 c hc
  · exact isSegmentCharacter_of_isHostCharacter hhost
  · decide

theorem Names.noPercent (h : spelling.Names postServerHost domain) (hid : isRellmId id = true) :
    '%' ∉ spelling.idAndHost id := by
  intro hmem
  obtain hhost | heq := (h.forall_mem_idAndHost hid).2 '%' hmem
  · exact absurd hhost (by decide)
  · exact absurd heq (by decide)

theorem Names.forall_mem_segments (h : spelling.Names postServerHost domain)
    (hid : isRellmId id = true) :
    ∀ segment ∈ spelling.segments id, segment ≠ [] ∧ ∀ c ∈ segment, isSegmentCharacter c = true := by
  have hfixed : ∀ segment ∈ "post".toList :: "event".toList :: frontends,
      segment ≠ [] ∧ ∀ c ∈ segment, isSegmentCharacter c = true := by
    have hall : ∀ segment ∈ "post".toList :: "event".toList :: frontends,
        segment ≠ [] ∧ segment.all isSegmentCharacter = true := by
      decide
    exact fun segment hsegment => (hall segment hsegment).imp_right List.all_eq_true.mp
  have hidAndHost : spelling.idAndHost id ≠ [] ∧
      ∀ c ∈ spelling.idAndHost id, isSegmentCharacter c = true :=
    ⟨(h.forall_mem_idAndHost hid).1, fun c hc => h.isSegmentCharacter_of_mem hid hc⟩
  rw [segments]
  refine List.forall_mem_append.mpr ⟨fun segment hsegment => ?_, ?_⟩
  · have hmem := h.frontend segment (Option.mem_toList.mp hsegment)
    exact hfixed segment (List.mem_cons_of_mem _ (List.mem_cons_of_mem _ hmem))
  · cases hform : spelling.form with
    | post =>
      refine List.forall_mem_cons.mpr ⟨hfixed _ List.mem_cons_self, ?_⟩
      rwa [List.forall_mem_singleton]
    | event =>
      refine List.forall_mem_cons.mpr
        ⟨hfixed _ (List.mem_cons_of_mem _ List.mem_cons_self), ?_⟩
      rwa [List.forall_mem_singleton]
    | short c lead =>
      obtain ⟨hc, hlead⟩ := h.lead c lead hform
      obtain ⟨hne, hall⟩ := hlead.forall_mem hc
      rw [Form.segments, List.forall_mem_singleton]
      exact ⟨List.append_ne_nil_of_left_ne_nil hne _,
        List.forall_mem_append.mpr ⟨hall, hidAndHost.2⟩⟩

end Spelling

/-- What is decoded of a segment without percent signs is the segment. -/
theorem decoded_of_noPercent (casing : Casing) {segment : Text} (h : '%' ∉ segment) :
    ((browserLibrary casing).percentDecode segment).getD segment = segment := by
  have hdecode : (browserLibrary casing).percentDecode segment = some segment :=
    decodeComponent_of_noPercent h
  rw [hdecode]
  rfl

/-- What starts a short link is decoded to the character that it stands for. -/
theorem decoded_lead (casing : Casing) {c : Char} {lead rest : Text}
    (hc : isReservedLeadCharacter c = true) (h : Leads c lead) (hrest : '%' ∉ rest) :
    ((browserLibrary casing).percentDecode (lead ++ rest)).getD (lead ++ rest) = c :: rest := by
  cases h with
  | plain h =>
    refine decoded_of_noPercent casing ?_
    rw [List.singleton_append, List.mem_cons, not_or]
    refine ⟨?_, hrest⟩
    rintro rfl
    exact h (by decide)
  | escaped high low h l hhigh hlow hvalue =>
    have hlt : c.toNat < 128 := by
      have hall : ∀ c ∈ "-._~:/?[]@!$&'()*+,;%=".toList, c.toNat < 128 :=
        List.all_iff_forall_prop.mp (by decide)
      exact hall c (of_decide_eq_true hc)
    have hdecode : (browserLibrary casing).percentDecode ('%' :: high :: low :: rest) =
        some (c :: rest) := by
      change decodeComponent ('%' :: high :: low :: rest) = _
      rw [decodeComponent_escape hhigh hlow (by omega), decodeComponent_of_noPercent hrest, hvalue,
        Char.ofNat_toNat]
      rfl
    rw [List.cons_append, List.cons_append, List.singleton_append, hdecode]
    rfl

theorem withoutFrontend_of_notMem {first : Text} (h : first ∉ frontends) {rest : List Text} :
    withoutFrontend (first :: rest) = first :: rest := if_neg h

/-- The segments of a path that names a post, without those of a frontend. -/
def Form.decoded (idAndHost : Text) : Form → List Text
  | .post => ["post".toList, idAndHost]
  | .event => ["event".toList, idAndHost]
  | .short c _ => [c :: idAndHost]

namespace Spelling

theorem Names.pathSegments_path (casing : Casing) (h : spelling.Names postServerHost domain)
    (hid : isRellmId id = true) :
    pathSegments (browserLibrary casing) (spelling.path id) =
      spelling.form.decoded (spelling.idAndHost id) := by
  have hfixed : ∀ segment ∈ "post".toList :: "event".toList :: frontends, '%' ∉ segment := by
    decide
  have hform : (spelling.form.segments (spelling.idAndHost id)).map (fun segment =>
      ((browserLibrary casing).percentDecode segment).getD segment) =
        spelling.form.decoded (spelling.idAndHost id) := by
    have hidAndHost := decoded_of_noPercent casing (h.noPercent hid)
    cases hform : spelling.form with
    | post =>
      have hpost := decoded_of_noPercent casing (hfixed _ List.mem_cons_self)
      simp only [Form.segments, Form.decoded, List.map_cons, List.map_nil, hpost, hidAndHost]
    | event =>
      have hevent := decoded_of_noPercent casing
        (hfixed _ (List.mem_cons_of_mem _ List.mem_cons_self))
      simp only [Form.segments, Form.decoded, List.map_cons, List.map_nil, hevent, hidAndHost]
    | short c lead =>
      obtain ⟨hc, hlead⟩ := h.lead c lead hform
      simp only [Form.segments, Form.decoded, List.map_cons, List.map_nil,
        decoded_lead casing hc hlead (h.noPercent hid)]
  have hsegments := fun segment hsegment => h.forall_mem_segments hid segment hsegment
  have hnames : (names (spelling.path id)).filter (fun segment => !segment.isEmpty) =
      spelling.segments id := by
    refine filter_names (fun segment hsegment => ⟨(hsegments segment hsegment).1, fun hslash => ?_⟩) _
    exact (isSegmentCharacter_iff.mp ((hsegments segment hsegment).2 '/' hslash)).2 rfl
  rw [names] at hnames
  rw [pathSegments, hnames, segments, List.map_append, hform]
  cases hfrontend : spelling.frontend with
  | some frontend =>
    have hmem := h.frontend frontend hfrontend
    have hdecoded := decoded_of_noPercent casing
      (hfixed _ (List.mem_cons_of_mem _ (List.mem_cons_of_mem _ hmem)))
    rw [Option.toList_some, List.map_singleton, hdecoded, List.singleton_append, withoutFrontend,
      if_pos hmem]
  | none =>
    have hnone : ∀ segment ∈ frontends, segment ≠ "post".toList ∧ segment ≠ "event".toList ∧
        segment.head?.all (fun c => !isReservedLeadCharacter c) = true := by
      decide
    rw [Option.toList_none, List.map_nil, List.nil_append]
    cases hform : spelling.form with
    | post => exact withoutFrontend_of_notMem fun hmem => (hnone _ hmem).1 rfl
    | event => exact withoutFrontend_of_notMem fun hmem => (hnone _ hmem).2.1 rfl
    | short c lead =>
      refine withoutFrontend_of_notMem fun hmem => ?_
      have hreserved := (hnone _ hmem).2.2
      rw [List.head?_cons, Option.all_some, (h.lead c lead hform).1] at hreserved
      cases hreserved

/-- The path of a link leads to the id and the host in it. -/
theorem Names.parsePath_path (casing : Casing) (h : spelling.Names postServerHost domain)
    (hid : isRellmId id = true) (defaultHost : Text) :
    parsePath (browserLibrary casing) defaultHost (spelling.path id) =
      targetFrom (browserLibrary casing) defaultHost (spelling.idAndHost id) := by
  rw [parsePath, h.pathSegments_path casing hid]
  cases hform : spelling.form with
  | post => exact if_pos (.inl rfl)
  | event => exact if_pos (.inr rfl)
  | short c lead => exact if_pos (h.lead c lead hform).1

/-- A domain stands for itself. -/
theorem resolveHost_host (casing : Casing) (domain : Domain) :
    resolveHost (browserLibrary casing) domain.host = some domain.host := by
  have hlower : (browserLibrary casing).toLower domain.host = domain.host :=
    Domain.toLower_eq_self casing fun c hc => domain.isHostCharacter_of_mem hc
  have hnetwork {start : Text} (h : '.' ∉ start) :
      List.isPrefixOf (start ++ [':']) domain.host = false := by
    rw [Bool.eq_false_iff, ne_eq, List.isPrefixOf_iff_prefix]
    rintro ⟨rest, hrest⟩
    refine domain.append_colon_ne h rest [] ?_
    rw [List.append_cons, hrest, List.append_nil]
  have hnames : "mastodon:".toList = "mastodon".toList ++ [':'] ∧
      "bluesky:".toList = "bluesky".toList ++ [':'] ∧
      '.' ∉ "mastodon".toList ∧ '.' ∉ "bluesky".toList := by
    decide
  obtain ⟨hmastodon, hbluesky, hmastodonDot, hblueskyDot⟩ := hnames
  have hne : decide (domain.host = "bluesky".toList) = false := by
    rw [decide_eq_false_iff_not]
    intro heq
    have hdot : '.' ∈ domain.host := List.mem_append_left _ domain.dot
    rw [heq] at hdot
    exact hblueskyDot hdot
  have hempty : domain.host.isEmpty = false := List.isEmpty_eq_false_iff.mpr domain.host_ne_nil
  have hall : domain.host.all isHostCharacter = true :=
    List.all_eq_true.mpr fun c hc => (domain.isHostCharacter_of_mem hc).1
  simp only [resolveHost, hlower, hmastodon, hbluesky, hnetwork hmastodonDot,
    hnetwork hblueskyDot, hne, hempty, hall, Bool.or_false, Bool.false_eq_true, if_false, if_true]

/-- An id and a host name the post, whatever the default is. -/
theorem Names.targetFrom_idAndHost (casing : Casing) (h : spelling.Names postServerHost domain)
    (hid : isRellmId id = true) {defaultHost : Text}
    (hdefault : spelling.host = none → defaultHost = domain.host) :
    targetFrom (browserLibrary casing) defaultHost (spelling.idAndHost id) =
      some ⟨domain.host, id⟩ := by
  have hat : '@' ∉ id := fun hmem => absurd ((isRellmId_iff.mp hid).2 '@' hmem) (by decide)
  cases hhost : spelling.host with
  | none =>
    rw [idAndHost, hhost]
    dsimp only
    rw [targetFrom, List.splitOn_eq_singleton hat, hdefault hhost]
    dsimp only
    rw [if_pos hid, resolveHost_host, Option.map_some]
  | some host =>
    rw [idAndHost, hhost, h.host host hhost]
    dsimp only
    rw [targetFrom, List.splitOn_append_cons_self_of_not_mem hat,
      List.splitOn_eq_singleton (domain.notMem_host (by decide))]
    dsimp only
    rw [if_pos hid, resolveHost_host, Option.map_some]

theorem segments_ne_nil (spelling : Spelling) (id : Text) : spelling.segments id ≠ [] := by
  rw [segments]
  apply List.append_ne_nil_of_right_ne_nil
  cases spelling.form <;> exact List.cons_ne_nil _ _

theorem path_ne_nil (spelling : Spelling) (id : Text) : spelling.path id ≠ [] := by
  obtain ⟨segment, others, hlist⟩ := List.exists_cons_of_ne_nil (spelling.segments_ne_nil id)
  rw [path, hlist, List.flatMap_cons]
  exact List.append_ne_nil_of_left_ne_nil
    (List.append_ne_nil_of_left_ne_nil (List.cons_ne_nil _ _) _) _

/-- The path of a link starts with one slash. -/
theorem Names.path_eq (h : spelling.Names postServerHost domain) (hid : isRellmId id = true) :
    (∃ c rest, spelling.path id = '/' :: c :: rest ∧ c ≠ '/') ∧
      ∀ c ∈ spelling.path id, isLinkCharacter c = true := by
  have hsegments := fun segment hsegment => h.forall_mem_segments hid segment hsegment
  refine ⟨?_, ?_⟩
  · cases hlist : spelling.segments id with
    | nil => exact absurd hlist (spelling.segments_ne_nil id)
    | cons segment others =>
      rw [hlist] at hsegments
      obtain ⟨hne, hall⟩ := hsegments segment List.mem_cons_self
      obtain ⟨c, rest, rfl⟩ := List.exists_cons_of_ne_nil hne
      refine ⟨c, rest ++ others.flatMap (fun segment => '/' :: segment) ++
        if spelling.slash then ['/'] else [], ?_,
        (isSegmentCharacter_iff.mp (hall c List.mem_cons_self)).2⟩
      rw [path, hlist, List.flatMap_cons]
      rfl
  · rw [path]
    refine List.forall_mem_append.mpr ⟨fun c hc => ?_, ?_⟩
    · obtain ⟨segment, hsegment, hc⟩ := List.mem_flatMap.mp hc
      obtain rfl | hc := List.mem_cons.mp hc
      · decide
      · exact (isSegmentCharacter_iff.mp ((hsegments segment hsegment).2 c hc)).1
    · cases spelling.slash
      · exact nofun
      · rw [if_pos rfl, List.forall_mem_singleton]
        decide

/-- A relative link is read as its path, also when it is stored as one without a host. -/
theorem Names.parse_relative (casing : Casing) (h : spelling.Names postServerHost domain)
    (hid : isRellmId id = true) (horigin : spelling.origin = none) {start : Text}
    (hstart : start = [] ∨ start = "http://".toList) :
    parse (browserLibrary casing) postServerHost (start ++ spelling.text id) =
      some ⟨domain.host, id⟩ := by
  obtain ⟨⟨c, rest, hpath, hc⟩, hlink⟩ := h.path_eq hid
  have hstartLink : ∀ c ∈ start, isLinkCharacter c = true := by
    rcases hstart with rfl | rfl
    · exact nofun
    · exact List.all_eq_true.mp (by decide)
  have htext : start ++ spelling.text id = (start ++ spelling.path id) ++ spelling.extra := by
    rw [text, Spelling.start, horigin, List.nil_append, List.append_assoc]
  obtain ⟨extra, hextra, htrim⟩ := trimmed_append
    (by rw [hpath]; exact List.append_ne_nil_of_right_ne_nil _ (List.cons_ne_nil _ _))
    (List.forall_mem_append.mpr ⟨hstartLink, hlink⟩) h.extra
  have htrimmed : (browserLibrary casing).trim (start ++ spelling.text id) =
      start ++ (spelling.path id ++ extra) := by
    rw [htext, ← List.append_assoc, ← htrim]
    rfl
  have hparsed : parsePath (browserLibrary casing) postServerHost
      (pathOf (spelling.path id ++ extra)) = some ⟨domain.host, id⟩ := by
    rw [pathOf_append hlink hextra, h.parsePath_path casing hid]
    refine h.targetFrom_idAndHost casing hid fun hnone => ?_
    obtain ⟨_, hhost⟩ | ⟨scheme, hscheme, _⟩ := h.implied hnone
    · exact hhost
    · rw [horigin] at hscheme
      cases hscheme
  rw [← hparsed]
  rw [hpath] at htrimmed ⊢
  rcases hstart with rfl | rfl
  · exact parse_of_slash htrimmed hc
  · exact parse_of_noHost htrimmed

/-- A link with an origin is read from its path there. -/
theorem Names.parse_absolute (casing : Casing) (h : spelling.Names postServerHost domain)
    (hid : isRellmId id = true) {scheme : Scheme} {origin : Domain}
    (horigin : spelling.origin = some (scheme, origin)) :
    parse (browserLibrary casing) postServerHost (spelling.text id) = some ⟨domain.host, id⟩ := by
  obtain ⟨⟨c, rest, hpath, hc⟩, hlink⟩ := h.path_eq hid
  have hhost : ∀ c ∈ origin.host, isSegmentCharacter c = true := fun c hc =>
    isSegmentCharacter_of_isHostCharacter (origin.isHostCharacter_of_mem hc).1
  have hstart : ∀ c ∈ scheme.text ++ origin.host ++ spelling.path id, isLinkCharacter c = true := by
    have hscheme : ∀ c ∈ scheme.text, isLinkCharacter c = true := by
      cases scheme with
      | https => exact List.all_eq_true.mp (by decide)
      | http => exact List.all_eq_true.mp (by decide)
      | omitted => exact nofun
    refine List.forall_mem_append.mpr ⟨List.forall_mem_append.mpr ⟨hscheme, fun c hc => ?_⟩, hlink⟩
    exact (isSegmentCharacter_iff.mp (hhost c hc)).1
  have htext : spelling.text id =
      (scheme.text ++ origin.host ++ spelling.path id) ++ spelling.extra := by
    rw [text, Spelling.start, horigin]
  obtain ⟨extra, hextra, htrim⟩ := trimmed_append
    (by rw [hpath]; exact List.append_ne_nil_of_right_ne_nil _ (List.cons_ne_nil _ _))
    hstart h.extra
  have htrimmed : (browserLibrary casing).trim (spelling.text id) =
      scheme.text ++ (origin.host ++ spelling.path id ++ extra) := by
    rw [htext, ← List.append_assoc, ← List.append_assoc, ← htrim]
    rfl
  have hparsed : parseAbsolute (browserLibrary casing)
      (scheme.full ++ (origin.host ++ spelling.path id ++ extra)) = some ⟨domain.host, id⟩ := by
    have hlink' := hlink
    rw [hpath] at hlink' ⊢
    rw [parseAbsolute_full casing scheme origin hlink' hextra, ← hpath,
      h.parsePath_path casing hid]
    refine h.targetFrom_idAndHost casing hid fun hnone => ?_
    obtain ⟨hrelative, _⟩ | ⟨scheme', hscheme, hport⟩ := h.implied hnone
    · rw [horigin] at hrelative
      cases hrelative
    · rw [horigin] at hscheme
      obtain ⟨rfl, rfl⟩ := Prod.mk.inj (Option.some.inj hscheme)
      rw [if_neg hport]
      rfl
  obtain ⟨d, name, hname⟩ := List.exists_cons_of_ne_nil origin.host_ne_nil
  have hd : d ≠ '/' := by
    refine (isSegmentCharacter_iff.mp (hhost d ?_)).2
    rw [hname]
    exact List.mem_cons_self
  rw [← hparsed]
  obtain rfl | ⟨_, hfull, hprotocol⟩ := scheme.text_eq
  · have hfull : Scheme.omitted.full = "https://".toList := if_neg (by decide)
    have hnone : Scheme.omitted.text = [] := rfl
    rw [hnone, List.nil_append] at htrimmed hstart
    rw [hfull, ← htrimmed]
    refine parse_of_name (fun rest hrest => ?_) (fun start rest hdot hrest => ?_) ?_
    · rw [htrimmed, hname] at hrest
      exact hd (List.cons.inj hrest).1
    · rw [htrimmed, List.append_assoc] at hrest
      exact origin.append_colon_ne hdot rest _ hrest.symm
    · rw [htrimmed, pathOf_append hstart hextra]
      exact List.mem_append_left _ (List.mem_append_left _ origin.dot)
  · rw [hfull, hname] at htrimmed
    rw [hname]
    exact parse_of_protocol hprotocol htrimmed hd

/-- A link is read as the post that it names. -/
theorem Names.parse_text (casing : Casing) (h : spelling.Names postServerHost domain)
    (hid : isRellmId id = true) :
    parse (browserLibrary casing) postServerHost (spelling.text id) = some ⟨domain.host, id⟩ := by
  cases horigin : spelling.origin with
  | none => exact h.parse_relative casing hid horigin (.inl rfl)
  | some origin => exact h.parse_absolute casing hid horigin

/-- What the server stores for a link. -/
theorem toLink_ofList {text : Text} (hne : text ≠ []) :
    Posts.toLink (some (String.ofList text)) =
      some (String.ofList (if "http".toList.isPrefixOf text then text
        else "http://".toList ++ text)) := by
  have hempty : String.ofList text ≠ "" := by
    intro hnil
    rw [← String.toList_inj, String.toList_ofList] at hnil
    exact hne hnil
  have hstarts : (String.ofList text).startsWith "http" = "http".toList.isPrefixOf text := by
    rw [Bool.eq_iff_iff, String.startsWith_string_iff, List.isPrefixOf_iff_prefix,
      @String.toList_ofList text]
  rw [Posts.toLink, if_neg hempty, hstarts]
  split
  · rfl
  · rw [String.ofList_append, String.ofList_toList]

/-- A text that has no dot starts a link with the name of a host only if it starts that name. -/
theorem isPrefixOf_host {start : Text} (h : '.' ∉ start) (domain : Domain) (after : Text) :
    start.isPrefixOf (domain.host ++ after) = start.isPrefixOf domain.name := by
  have hwhole : domain.name <+: domain.host ++ after := by
    rw [Domain.host, List.append_assoc]
    exact List.prefix_append _ _
  rw [Bool.eq_iff_iff, List.isPrefixOf_iff_prefix, List.isPrefixOf_iff_prefix]
  constructor
  · intro hstart
    obtain hname | hname := List.prefix_or_prefix_of_prefix hstart hwhole
    · exact hname
    · exact absurd (hname.subset domain.dot) h
  · exact fun hstart => hstart.trans hwhole

/-- A link with an origin is stored as its spelling with a protocol. -/
theorem text_stored {origin : Scheme × Domain} (horigin : spelling.origin = some origin) (id : Text) :
    (if "http".toList.isPrefixOf (spelling.text id) then spelling.text id
      else "http://".toList ++ spelling.text id) = spelling.stored.text id := by
  obtain ⟨scheme, domain⟩ := origin
  have htext : spelling.text id =
      scheme.text ++ (domain.host ++ (spelling.path id ++ spelling.extra)) := by
    rw [text, Spelling.start, horigin]
    simp only [List.append_assoc]
  have hhttp : "http".toList <+: "http://".toList ∧ "http".toList <+: "https://".toList ∧
      '.' ∉ "http".toList := by
    decide
  obtain rfl | ⟨hnamed, hfull, hprotocol⟩ := scheme.text_eq
  · have hnone : Scheme.omitted.text = [] := rfl
    rw [hnone, List.nil_append] at htext
    rw [htext, isPrefixOf_host hhttp.2.2, ← htext, stored, horigin]
    dsimp only
    split
    · rfl
    · have hhttp : Scheme.http.text = "http://".toList := rfl
      rw [htext, text, Spelling.start]
      dsimp only
      rw [hhttp, List.append_assoc, List.append_assoc, path]
      rfl
  · have hstarts : "http".toList.isPrefixOf (spelling.text id) = true := by
      rw [List.isPrefixOf_iff_prefix, htext, hfull]
      obtain hprotocol | hprotocol := hprotocol
      · rw [hprotocol]
        exact hhttp.1.trans (List.prefix_append _ _)
      · rw [hprotocol]
        exact hhttp.2.1.trans (List.prefix_append _ _)
    have hsame : spelling.stored = spelling := by
      rw [stored, horigin]
      cases scheme with
      | https | http => rfl
      | omitted => exact absurd rfl hnamed
    rw [if_pos hstarts, hsame]

/-- A link is read as the post that it names after the server stored it. -/
theorem Names.parse_stored (casing : Casing) (h : spelling.stored.Names postServerHost domain)
    (hid : isRellmId id = true) {link : String}
    (hlink : Posts.toLink (some (String.ofList (spelling.text id))) = some link) :
    parse (browserLibrary casing) postServerHost link.toList = some ⟨domain.host, id⟩ := by
  have hne : spelling.text id ≠ [] := by
    rw [text]
    exact List.append_ne_nil_of_left_ne_nil
      (List.append_ne_nil_of_right_ne_nil _ (spelling.path_ne_nil id)) _
  have hof : link.toList = if "http".toList.isPrefixOf (spelling.text id) then spelling.text id
      else "http://".toList ++ spelling.text id := by
    rw [toLink_ofList hne] at hlink
    rw [← Option.some.inj hlink, String.toList_ofList]
  cases horigin : spelling.origin with
  | none =>
    have hsame : spelling.stored = spelling := by rw [stored, horigin]
    rw [hsame] at h
    obtain ⟨⟨c, rest, hpath, _⟩, _⟩ := h.path_eq hid
    have hstarts : "http".toList.isPrefixOf (spelling.text id) = false := by
      rw [text, Spelling.start, horigin, hpath]
      rfl
    rw [hof, hstarts, if_neg Bool.false_ne_true]
    exact h.parse_relative casing hid horigin (.inr rfl)
  | some origin =>
    rw [hof, text_stored horigin]
    exact h.parse_text casing hid

end Spelling

end

end RellmLinks

end Rellm.Client
