import Mathlib.Data.List.Infix
import Rellm.Foundation.Ascii
import Rellm.Foundation.Paths

/-!
# Links to posts

A link in a post may name a post on a server of this kind, or one on Bluesky or Mastodon. It is
recognized by its text alone. What it names has a key, and different targets have different keys:
the key of a post of a server of this kind holds a bar after its host, that of a Bluesky post holds
none, and no such host starts like the key of a Mastodon post.
-/

namespace Rellm.Client

abbrev Text := List Char

inductive Protocol where
  | http
  | https
  deriving DecidableEq, Repr

structure Url where
  protocol : Protocol
  host : Text
  port : Option Int
  path : Text

/-- What the libraries do with texts. Lower case is that of ASCII at least for ASCII characters. -/
structure Library where
  trim : Text → Text
  toLower : Text → Text
  percentDecode : Text → Option Text
  fromString : Text → Option Url
  toLower_ascii : ∀ text, (∀ c ∈ text, c.val < 128) → toLower text = text.map Char.toLower

/-- A text without its first code unit; what is left of a character of two units is no character. -/
def dropFirstUnit : Text → Text
  | [] => []
  | c :: rest => if c.val < 0x10000 then rest else '\uFFFD' :: rest

/-- A link up to its query or fragment. -/
def pathOf (link : Text) : Text := link.takeWhile fun c => c ≠ '?' && c ≠ '#'

/-- The directories of the frontends. -/
def frontends : List Text := ["elm".toList, "tamagui".toList, "flutter".toList]

/-- Texts are compared as lists of characters. -/
scoped instance lawfulBEqText : LawfulBEq (List Char) := inferInstance

/-- Segments without that of a frontend in front. -/
def withoutFrontend : List Text → List Text
  | first :: rest => if first ∈ frontends then rest else first :: rest
  | [] => []

/-- A character of a host name or a port. -/
def isHostCharacter (c : Char) : Bool := c.isAlphanum || c = '.' || c = '-' || c = ':'

namespace RellmLinks

/-- A post on a server. -/
structure Target where
  host : Text
  id : Text
  deriving DecidableEq, Repr

def key (target : Target) : Text := target.host ++ '|' :: target.id

def isRellmId (id : Text) : Bool := !id.isEmpty && id.all Char.isAlphanum

def isReservedLeadCharacter (c : Char) : Bool := decide (c ∈ "-._~:/?[]@!$&'()*+,;%=".toList)

variable (library : Library)

/-- A host in lower case; the hosts that stand for other networks are refused. -/
def resolveHost (host : Text) : Option Text :=
  let lowered := library.toLower host
  if lowered.isEmpty || "mastodon:".toList.isPrefixOf lowered ||
      "bluesky:".toList.isPrefixOf lowered || lowered = "bluesky".toList then none
  else if lowered.all isHostCharacter then some lowered
  else none

/-- An id, which may be followed by a host. -/
def targetFrom (defaultHost idAndHost : Text) : Option Target :=
  match idAndHost.splitOn '@' with
  | [id] =>
    if isRellmId id then (resolveHost library defaultHost).map fun host => ⟨host, id⟩ else none
  | [id, host] =>
    if isRellmId id then (resolveHost library host).map fun resolved => ⟨resolved, id⟩ else none
  | _ => none

def pathSegments (path : Text) : List Text :=
  withoutFrontend (((path.splitOn '/').filter fun segment => !segment.isEmpty).map fun segment =>
    (library.percentDecode segment).getD segment)

def parsePath (defaultHost path : Text) : Option Target :=
  match pathSegments library path with
  | [shortSegment] =>
    match shortSegment with
    | lead :: rest =>
      if isReservedLeadCharacter lead then targetFrom library defaultHost rest else none
    | [] => none
  | [kind, idAndHost] =>
    if kind = "post".toList ∨ kind = "event".toList then targetFrom library defaultHost idAndHost
    else none
  | _ => none

def parseAbsolute (link : Text) : Option Target :=
  (library.fromString link).bind fun url =>
    if url.host.isEmpty then none
    else
      let port := match url.port, url.protocol with
        | some 443, .https => []
        | some 80, .http => []
        | some port, _ => ':' :: (toString port).toList
        | none, _ => []
      parsePath library (library.toLower url.host ++ port) url.path

/-- The post that a link names which is found on a post of a server. -/
def parse (postServerHost rawLink : Text) : Option Target :=
  let link := library.trim rawLink
  if link.isEmpty then none
  else if "//".toList.isPrefixOf link then none
  else if "/".toList.isPrefixOf link then parsePath library postServerHost (pathOf link)
  else if "http:///".toList.isPrefixOf link then
    parsePath library postServerHost (pathOf (link.drop 7))
  else if "https:///".toList.isPrefixOf link then
    parsePath library postServerHost (pathOf (link.drop 8))
  else if "http://".toList.isPrefixOf link || "https://".toList.isPrefixOf link then
    parseAbsolute library link
  else if '.' ∈ pathOf link then parseAbsolute library ("https://".toList ++ link)
  else none

/-- The endings of names of local networks. -/
def localSuffixes : List Text :=
  [".local", ".localhost", ".internal", ".lan", ".home", ".corp", ".intranet", ".arpa"].map
    String.toList

/-- A host that may be probed because a link names it: a public domain name without a port. -/
def isProbeableHost (host : Text) : Bool :=
  let labels := host.splitOn '.'
  '.' ∈ host && !(':' ∈ host) &&
    !labels.all (fun label => !label.isEmpty && label.all Char.isDigit) &&
    !localSuffixes.any (·.isSuffixOf host) &&
    labels.all fun label => !label.isEmpty && label.all fun c => c.isAlphanum || c = '-'

end RellmLinks

namespace FederatedLinks

/-- A post on another network; on Bluesky, its author may be named by a handle. -/
inductive Target where
  | blueskyUri (uri : Text)
  | blueskyHandle (handle rkey : Text)
  | mastodonStatus (instanceHost statusId : Text)
  deriving DecidableEq, Repr

def key : Target → Text
  | .blueskyUri uri => "bluesky:".toList ++ uri
  | .blueskyHandle handle rkey => "bluesky-handle:".toList ++ handle ++ '/' :: rkey
  | .mastodonStatus instanceHost statusId =>
    "mastodon:".toList ++ instanceHost ++ '|' :: statusId

def isRecordKey (rkey : Text) : Bool :=
  !rkey.isEmpty && rkey.all fun c =>
    c.isAlphanum || c = '.' || c = '-' || c = '_' || c = '~' || c = ':'

def isHostname (host : Text) : Bool := !host.isEmpty && host.all isHostCharacter

/-- A character of the identifier of an account. -/
def isDidCharacter (c : Char) : Bool :=
  c.isAlphanum || c = ':' || c = '.' || c = '-' || c = '_'

def segmentsOf (path : Text) : List Text :=
  withoutFrontend ((path.splitOn '/').filter fun segment => !segment.isEmpty)

/-- A status of Mastodon, whose id is numeric. -/
def mastodon (host statusId : Text) : Option Target :=
  if !host.isEmpty && isHostname host && !statusId.isEmpty && statusId.all Char.isDigit then
    some (.mastodonStatus host statusId)
  else none

/-- An id of a route of the form `{did}~{rkey}` as the address of a post. -/
def fromRouteId (id : Text) : Text :=
  if '~' ∈ id then
    let did := id.takeWhile (· ≠ '~')
    if "did:".toList.isPrefixOf did then
      "at://".toList ++ did ++ "/app.bsky.feed.post/".toList ++ id.drop (did.length + 1)
    else id
  else id

inductive FederatedPostId where
  | mastodonPostId (instanceHost statusId : Text)
  | blueskyPostId (uri : Text)
  deriving DecidableEq, Repr

def parseFederatedPostId (id host : Text) : Option FederatedPostId :=
  if "mastodon:".toList.isPrefixOf host then some (.mastodonPostId (host.drop 9) id)
  else if "bluesky:".toList.isPrefixOf host then some (.blueskyPostId id)
  else none

variable (library : Library)

/-- A post of Bluesky by its author, which is an identifier or a handle. -/
def bluesky (actor rkey : Text) : Option Target :=
  if !isRecordKey rkey then none
  else if "did:".toList.isPrefixOf actor && actor.all isDidCharacter then
    some (.blueskyUri ("at://".toList ++ actor ++ "/app.bsky.feed.post/".toList ++ rkey))
  else if '.' ∈ actor && isHostname actor then some (.blueskyHandle (library.toLower actor) rkey)
  else none

def parseAtUri (rest : Text) : Option Target :=
  match segmentsOf rest with
  | [actor, collection, rkey] =>
    if collection = "app.bsky.feed.post".toList then bluesky library actor rkey else none
  | _ => none

/-- The id and the host of a route. -/
def parsePostRouteId (mainFrontendHost rawPostId : Text) : Text × Text :=
  match rawPostId.splitOn '@' with
  | [id, host] =>
    let decoded := (library.percentDecode id).getD id
    if host = "bluesky".toList ∨ "bluesky:".toList.isPrefixOf host then
      (fromRouteId decoded, "bluesky:".toList ++ host.drop 8)
    else (decoded, host)
  | _ => (rawPostId, mainFrontendHost)

/-- What follows `/post/` in a route of a post on another network. -/
def parseRouteId (idAndHost : Text) : Option Target :=
  if "@bluesky:".toList <:+: idAndHost ∨ "@bluesky".toList.isSuffixOf idAndHost ∨
      "@mastodon:".toList <:+: idAndHost then
    let route := parsePostRouteId library [] idAndHost
    match parseFederatedPostId route.1 route.2 with
    | some (.blueskyPostId uri) =>
      if "at://".toList.isPrefixOf uri then parseAtUri library (uri.drop 5) else none
    | some (.mastodonPostId instanceHost statusId) =>
      if isHostname instanceHost then mastodon (library.toLower instanceHost) statusId else none
    | none => none
  else none

def parseUrl (host path : Text) : Option Target :=
  match segmentsOf path with
  | [shortSegment] => parseRouteId library (dropFirstUnit shortSegment)
  | [first, second] =>
    if first = "post".toList then parseRouteId library second
    else if "@".toList.isPrefixOf first && 1 < first.length then mastodon host second
    else none
  | [first, second, third, fourth] =>
    if first = "profile".toList ∧ third = "post".toList then
      if host = "bsky.app".toList then bluesky library second fourth else none
    else if first = "users".toList ∧ third = "statuses".toList then mastodon host fourth
    else none
  | _ => none

def parseAbsolute (link : Text) : Option Target :=
  (library.fromString link).bind fun url =>
    if url.host.isEmpty then none
    else
      let port := match url.port with
        | some port => if port = 80 ∨ port = 443 then [] else ':' :: (toString port).toList
        | none => []
      parseUrl library (library.toLower url.host ++ port) url.path

/-- The post on another network that a link names. -/
def parse (rawLink : Text) : Option Target :=
  let link := library.trim rawLink
  if "at://".toList.isPrefixOf link then parseAtUri library (pathOf (link.drop 5))
  else if "//".toList.isPrefixOf link then none
  else if "/".toList.isPrefixOf link then parseUrl library [] (pathOf link)
  else if "http:///".toList.isPrefixOf link then parseUrl library [] (pathOf (link.drop 7))
  else if "https:///".toList.isPrefixOf link then parseUrl library [] (pathOf (link.drop 8))
  else if "http://".toList.isPrefixOf link || "https://".toList.isPrefixOf link then
    parseAbsolute library link
  else if '.' ∈ (link.splitOn '/').headD link then
    parseAbsolute library ("https://".toList ++ link)
  else none

end FederatedLinks

/-- What the link of a quoting post points at. -/
inductive Linked where
  | rellmLink (target : RellmLinks.Target)
  | federatedLink (target : FederatedLinks.Target)
  deriving DecidableEq, Repr

def parseLink (library : Library) (postServerHost link : Text) : Option Linked :=
  match RellmLinks.parse library postServerHost link with
  | some target => some (.rellmLink target)
  | none => (FederatedLinks.parse library link).map .federatedLink

def linkKey : Linked → Text
  | .rellmLink target => RellmLinks.key target
  | .federatedLink target => FederatedLinks.key target

/-- A text that is split at the first of some character is split in one way. -/
theorem split_unique {c : Char} {before before' after after' : Text} (h : c ∉ before)
    (h' : c ∉ before') (heq : before ++ c :: after = before' ++ c :: after') :
    before = before' ∧ after = after' := by
  induction before generalizing before' with
  | nil =>
    cases before' with
    | nil => exact ⟨rfl, (List.cons.inj heq).2⟩
    | cons d before' => exact absurd (List.mem_cons.mpr (Or.inl (List.cons.inj heq).1)) h'
  | cons d before ih =>
    cases before' with
    | nil => exact absurd (List.mem_cons.mpr (Or.inl (List.cons.inj heq).1.symm)) h
    | cons e before' =>
      obtain ⟨rfl, hrest⟩ := List.cons.inj heq
      obtain ⟨rfl, rfl⟩ := ih (List.not_mem_of_not_mem_cons h) (List.not_mem_of_not_mem_cons h') hrest
      exact ⟨rfl, rfl⟩

theorem ascii_of_isHostCharacter {c : Char} (h : isHostCharacter c = true) : c.toNat < 128 := by
  simp only [isHostCharacter, Bool.or_eq_true, decide_eq_true_eq] at h
  obtain ((h | rfl) | rfl) | rfl := h
  · exact Foundation.lt_of_isAlphanum h
  all_goals decide

/-- A character of a host name is neither a bar nor a slash, also in lower case. -/
theorem toLower_hostCharacter {c : Char} (h : isHostCharacter c = true) :
    c.toLower ≠ '|' ∧ c.toLower ≠ '/' := by
  refine Foundation.forall_ascii
    (fun c => isHostCharacter c = true → c.toLower ≠ '|' ∧ c.toLower ≠ '/')
    (by decide +kernel) (ascii_of_isHostCharacter h) h

/-- What is tested of each character of a text keeps out those that fail the test. -/
theorem notMem_of_all {p : Char → Bool} {text : Text} {c : Char} (h : text.all p = true)
    (hc : p c = false) : c ∉ text := by
  intro hmem
  rw [List.all_eq_true] at h
  exact Bool.false_ne_true (hc.symm.trans (h c hmem))

namespace RellmLinks

/-- A target whose host has no bar and does not stand for another network. -/
structure Target.Clean (target : Target) : Prop where
  noBar : '|' ∉ target.host
  notMastodon : ¬ "mastodon:".toList <+: target.host

theorem key_injective {target target' : Target} (h : target.Clean) (h' : target'.Clean)
    (hkey : key target = key target') : target = target' := by
  obtain ⟨host, id⟩ := target
  obtain ⟨host', id'⟩ := target'
  obtain ⟨rfl, rfl⟩ := split_unique h.noBar h'.noBar hkey
  rfl

variable {library : Library}

/-- A host that is not refused consists of characters of host names. -/
theorem resolveHost_eq_some {host resolved : Text}
    (h : resolveHost library host = some resolved) :
    resolved.all isHostCharacter = true ∧ ¬ "mastodon:".toList <+: resolved := by
  simp only [resolveHost] at h
  split at h
  · cases h
  · rename_i hrefused
    split at h
    · rename_i hall
      cases h
      simp only [Bool.or_eq_true, not_or] at hrefused
      refine ⟨hall, fun hstarts => hrefused.1.1.2 ?_⟩
      rwa [List.isPrefixOf_iff_prefix]
    · cases h

theorem clean_of_resolveHost {host resolved id : Text}
    (h : resolveHost library host = some resolved) : (Target.mk resolved id).Clean := by
  obtain ⟨hall, hmastodon⟩ := resolveHost_eq_some h
  exact ⟨notMem_of_all hall (by decide), hmastodon⟩

variable {target : Target}

theorem clean_of_targetFrom {defaultHost idAndHost : Text}
    (h : targetFrom library defaultHost idAndHost = some target) : target.Clean := by
  have hresolved {host id : Text}
      (h : ((resolveHost library host).map fun resolved => Target.mk resolved id) = some target) :
      target.Clean := by
    obtain ⟨resolved, hhost, rfl⟩ := Option.map_eq_some_iff.mp h
    exact clean_of_resolveHost hhost
  unfold targetFrom at h
  split at h
  · split at h
    · exact hresolved h
    · cases h
  · split at h
    · exact hresolved h
    · cases h
  · cases h

theorem clean_of_parsePath {defaultHost path : Text}
    (h : parsePath library defaultHost path = some target) : target.Clean := by
  unfold parsePath at h
  split at h
  · split at h
    · split at h
      · exact clean_of_targetFrom h
      · cases h
    · cases h
  · split at h
    · exact clean_of_targetFrom h
    · cases h
  · cases h

theorem clean_of_parseAbsolute {link : Text} (h : parseAbsolute library link = some target) :
    target.Clean := by
  obtain ⟨url, _, h⟩ := Option.bind_eq_some_iff.mp h
  split at h
  · cases h
  · exact clean_of_parsePath h

/-- However a link is written, the host of the post it names is clean. -/
theorem clean_of_parse {postServerHost rawLink : Text}
    (h : parse library postServerHost rawLink = some target) : target.Clean := by
  unfold parse at h
  dsimp only at h
  split at h
  · cases h
  · split at h
    · cases h
    · split at h
      · exact clean_of_parsePath h
      · split at h
        · exact clean_of_parsePath h
        · split at h
          · exact clean_of_parsePath h
          · split at h
            · exact clean_of_parseAbsolute h
            · split at h
              · exact clean_of_parseAbsolute h
              · cases h

end RellmLinks

namespace FederatedLinks

/-- The parts of a target are free of what separates them in its key. -/
def Target.Clean : Target → Prop
  | .blueskyUri uri => '|' ∉ uri
  | .blueskyHandle handle rkey => ('/' ∉ handle ∧ '|' ∉ handle) ∧ '|' ∉ rkey
  | .mastodonStatus instanceHost _ => '|' ∉ instanceHost

/-- What the key of a target starts with. -/
def lead : Target → Text
  | .blueskyUri _ => "bluesky:".toList
  | .blueskyHandle _ _ => "bluesky-".toList
  | .mastodonStatus _ _ => "mastodon".toList

/-- What follows the name of the network in the key of a target. -/
def tail : Target → Text
  | .blueskyUri uri => uri
  | .blueskyHandle handle rkey => handle ++ '/' :: rkey
  | .mastodonStatus instanceHost statusId => instanceHost ++ '|' :: statusId

/-- What stands between the start of the key of a target and its parts. -/
def middle : Target → Text
  | .blueskyUri _ => []
  | .blueskyHandle _ _ => "handle:".toList
  | .mastodonStatus _ _ => [':']

theorem key_eq (target : Target) : key target = lead target ++ (middle target ++ tail target) := by
  have hsplit {start start' whole rest rest' : Text} (h : whole = start ++ start') :
      whole ++ rest ++ rest' = start ++ (start' ++ (rest ++ rest')) := by
    rw [h, List.append_assoc, List.append_assoc]
  cases target with
  | blueskyUri uri => rfl
  | blueskyHandle handle rkey =>
    have hlead : "bluesky-handle:".toList = "bluesky-".toList ++ "handle:".toList := by
      decide +kernel
    exact hsplit hlead
  | mastodonStatus instanceHost statusId =>
    have hlead : "mastodon:".toList = "mastodon".toList ++ [':'] := by decide +kernel
    exact hsplit hlead

theorem length_lead (target : Target) : (lead target).length = 8 := by
  have hleads : "bluesky:".toList.length = 8 ∧ "bluesky-".toList.length = 8 ∧
      "mastodon".toList.length = 8 := by
    decide +kernel
  cases target with
  | blueskyUri uri => exact hleads.1
  | blueskyHandle handle rkey => exact hleads.2.1
  | mastodonStatus instanceHost statusId => exact hleads.2.2

theorem key_injective {target target' : Target} (h : target.Clean) (h' : target'.Clean)
    (hkey : key target = key target') : target = target' := by
  rw [key_eq, key_eq] at hkey
  obtain ⟨hlead, hrest⟩ := List.append_inj hkey
    ((length_lead target).trans (length_lead target').symm)
  have hleads : "bluesky:".toList ≠ "bluesky-".toList ∧ "bluesky:".toList ≠ "mastodon".toList ∧
      "bluesky-".toList ≠ "mastodon".toList := by
    decide +kernel
  cases target with
  | blueskyUri uri =>
    cases target' with
    | blueskyUri uri' =>
      have huri : uri = uri' := hrest
      rw [huri]
    | blueskyHandle handle rkey => exact absurd hlead hleads.1
    | mastodonStatus instanceHost statusId => exact absurd hlead hleads.2.1
  | blueskyHandle handle rkey =>
    cases target' with
    | blueskyUri uri => exact absurd hlead.symm hleads.1
    | blueskyHandle handle' rkey' =>
      have hparts : "handle:".toList ++ (handle ++ '/' :: rkey) =
          "handle:".toList ++ (handle' ++ '/' :: rkey') := hrest
      obtain ⟨rfl, rfl⟩ := split_unique h.1.1 h'.1.1 (List.append_cancel_left hparts)
      rfl
    | mastodonStatus instanceHost statusId => exact absurd hlead hleads.2.2
  | mastodonStatus instanceHost statusId =>
    cases target' with
    | blueskyUri uri => exact absurd hlead.symm hleads.2.1
    | blueskyHandle handle rkey => exact absurd hlead.symm hleads.2.2
    | mastodonStatus instanceHost' statusId' =>
      have hparts : instanceHost ++ '|' :: statusId = instanceHost' ++ '|' :: statusId' :=
        List.append_cancel_left hrest
      obtain ⟨rfl, rfl⟩ := split_unique h h' hparts
      rfl

variable {library : Library} {target : Target}

theorem clean_of_mastodon {host statusId : Text} (h : mastodon host statusId = some target) :
    target.Clean := by
  unfold mastodon at h
  split at h
  · rename_i hchecked
    cases h
    simp only [isHostname, Bool.and_eq_true] at hchecked
    exact notMem_of_all hchecked.1.1.2.2 (by decide)
  · cases h

theorem clean_of_bluesky {actor rkey : Text} (h : bluesky library actor rkey = some target) :
    target.Clean := by
  unfold bluesky at h
  split at h
  · cases h
  · rename_i hrkey
    have hkey : '|' ∉ rkey := by
      simp only [isRecordKey, Bool.not_eq_true', Bool.not_eq_false, Bool.and_eq_true] at hrkey
      exact notMem_of_all hrkey.2 (by decide)
    split at h
    · rename_i hdid
      cases h
      rw [Bool.and_eq_true] at hdid
      have hactor : '|' ∉ actor := notMem_of_all hdid.2 (by decide)
      simp [Target.Clean, hactor, hkey]
    · split at h
      · rename_i hhandle
        cases h
        simp only [isHostname, Bool.and_eq_true] at hhandle
        have hascii : ∀ c ∈ actor, c.val < 128 := fun c hc =>
          ascii_of_isHostCharacter (List.all_eq_true.mp hhandle.2.2 c hc)
        have hlower {c : Char} (hne : ∀ d, isHostCharacter d = true → d.toLower ≠ c) :
            c ∉ library.toLower actor := by
          rw [library.toLower_ascii actor hascii, List.mem_map]
          rintro ⟨d, hd, hsame⟩
          exact hne d (List.all_eq_true.mp hhandle.2.2 d hd) hsame
        exact ⟨⟨hlower fun d hd => (toLower_hostCharacter hd).2,
          hlower fun d hd => (toLower_hostCharacter hd).1⟩, hkey⟩
      · cases h

theorem clean_of_parseAtUri {rest : Text} (h : parseAtUri library rest = some target) :
    target.Clean := by
  unfold parseAtUri at h
  split at h
  · split at h
    · exact clean_of_bluesky h
    · cases h
  · cases h

theorem clean_of_parseRouteId {idAndHost : Text} (h : parseRouteId library idAndHost = some target) :
    target.Clean := by
  unfold parseRouteId at h
  split at h
  · dsimp only at h
    split at h
    · split at h
      · exact clean_of_parseAtUri h
      · cases h
    · split at h
      · exact clean_of_mastodon h
      · cases h
    · cases h
  · cases h

theorem clean_of_parseUrl {host path : Text} (h : parseUrl library host path = some target) :
    target.Clean := by
  unfold parseUrl at h
  split at h
  · exact clean_of_parseRouteId h
  · split at h
    · exact clean_of_parseRouteId h
    · split at h
      · exact clean_of_mastodon h
      · cases h
  · split at h
    · split at h
      · exact clean_of_bluesky h
      · cases h
    · split at h
      · exact clean_of_mastodon h
      · cases h
  · cases h

theorem clean_of_parseAbsolute {link : Text} (h : parseAbsolute library link = some target) :
    target.Clean := by
  obtain ⟨url, _, h⟩ := Option.bind_eq_some_iff.mp h
  split at h
  · cases h
  · exact clean_of_parseUrl h

/-- However a link is written, the parts of what it names are clean. -/
theorem clean_of_parse {rawLink : Text} (h : parse library rawLink = some target) :
    target.Clean := by
  unfold parse at h
  dsimp only at h
  split at h
  · exact clean_of_parseAtUri h
  · split at h
    · cases h
    · split at h
      · exact clean_of_parseUrl h
      · split at h
        · exact clean_of_parseUrl h
        · split at h
          · exact clean_of_parseUrl h
          · split at h
            · exact clean_of_parseAbsolute h
            · split at h
              · exact clean_of_parseAbsolute h
              · cases h

end FederatedLinks

def Linked.Clean : Linked → Prop
  | .rellmLink target => target.Clean
  | .federatedLink target => target.Clean

theorem clean_of_parseLink {library : Library} {postServerHost link : Text} {linked : Linked}
    (h : parseLink library postServerHost link = some linked) : linked.Clean := by
  unfold parseLink at h
  split at h
  · rename_i target htarget
    cases h
    exact RellmLinks.clean_of_parse htarget
  · obtain ⟨target, htarget, rfl⟩ := Option.map_eq_some_iff.mp h
    exact FederatedLinks.clean_of_parse htarget

/-- A post of a server and one on another network have different keys: only the key of a status of
Mastodon has a bar, and it does not start like that of a post of a server. -/
theorem rellmKey_ne {target : RellmLinks.Target} {federated : FederatedLinks.Target}
    (h : target.Clean) (h' : federated.Clean) :
    RellmLinks.key target ≠ FederatedLinks.key federated := by
  intro hkey
  have hbar : '|' ∈ FederatedLinks.key federated := by
    rw [← hkey]
    exact List.mem_append_right _ List.mem_cons_self
  have hleads : '|' ∉ "bluesky:".toList ∧ '|' ∉ "bluesky-handle:".toList ∧
      '|' ∉ "mastodon:".toList := by
    decide +kernel
  cases federated with
  | blueskyUri uri =>
    obtain hbar | hbar := List.mem_append.mp hbar
    · exact hleads.1 hbar
    · exact h' hbar
  | blueskyHandle handle rkey =>
    obtain hbar | hbar := List.mem_append.mp hbar
    · obtain hbar | hbar := List.mem_append.mp hbar
      · exact hleads.2.1 hbar
      · exact h'.1.2 hbar
    · obtain hbar | hbar := List.mem_cons.mp hbar
      · cases hbar
      · exact h'.2 hbar
  | mastodonStatus instanceHost statusId =>
    have hnone : '|' ∉ "mastodon:".toList ++ instanceHost := by
      intro hmem
      obtain hmem | hmem := List.mem_append.mp hmem
      · exact hleads.2.2 hmem
      · exact h' hmem
    obtain ⟨hhost, _⟩ := split_unique h.noBar hnone hkey
    exact h.notMastodon ⟨instanceHost, hhost.symm⟩

/-- Different targets have different keys. -/
theorem linkKey_injective {linked linked' : Linked} (h : linked.Clean) (h' : linked'.Clean)
    (hkey : linkKey linked = linkKey linked') : linked = linked' := by
  cases linked with
  | rellmLink target =>
    cases linked' with
    | rellmLink target' =>
      obtain rfl := RellmLinks.key_injective h h' hkey
      rfl
    | federatedLink target' => exact absurd hkey (rellmKey_ne h h')
  | federatedLink target =>
    cases linked' with
    | rellmLink target' => exact absurd hkey.symm (rellmKey_ne h' h)
    | federatedLink target' =>
      obtain rfl := FederatedLinks.key_injective h h' hkey
      rfl

end Rellm.Client
