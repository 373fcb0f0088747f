import Rellm.Client.QuoteLinks
import Rellm.Client.Spellings

/-!
# Links to other networks

A link is read as one to a post on a server by its path, and so is a link to a post on another network.
The id of the latter ends with the name of the network where the former has a host, which no host of a
server starts with; so no link is read both ways.
-/

namespace Rellm.Client

open Foundation

/-- What stands for another network in the place of a host. -/
def IsNetwork (host : Text) : Prop :=
  "mastodon:".toList <+: host ∨ "bluesky:".toList <+: host ∨ host = "bluesky".toList

/-- A segment as the path of a post on a server is read. -/
def decodedSegment (segment : Text) : Text := (decodeComponent segment).getD segment

section

variable {casing : Casing} {host text segment : Text}

theorem split_of_splitOn {before after : Text} (h : text.splitOn '@' = [before, after]) :
    text = before ++ '@' :: after ∧ '@' ∉ before ∧ '@' ∉ after := by
  by_cases hat : '@' ∈ text
  · obtain ⟨first, last, rfl, hfirst⟩ := List.eq_append_cons_of_mem hat
    rw [List.splitOn_append_cons_self_of_not_mem hfirst] at h
    obtain ⟨rfl, hlast⟩ := List.cons.inj h
    by_cases hat' : '@' ∈ last
    · obtain ⟨first', last', rfl, hfirst'⟩ := List.eq_append_cons_of_mem hat'
      rw [List.splitOn_append_cons_self_of_not_mem hfirst'] at hlast
      exact absurd (List.cons.inj hlast).2 (List.splitOn_ne_nil _ _)
    · rw [List.splitOn_eq_singleton hat'] at hlast
      obtain ⟨rfl, _⟩ := List.cons.inj hlast
      exact ⟨rfl, hfirst, hat'⟩
  · rw [List.splitOn_eq_singleton hat] at h
    cases h

theorem IsNetwork.resolveHost_eq_none (h : IsNetwork host) :
    RellmLinks.resolveHost (browserLibrary casing) host = none := by
  have hascii : (∀ c ∈ "mastodon:".toList, c.val < 128) ∧ (∀ c ∈ "bluesky:".toList, c.val < 128) ∧
      (∀ c ∈ "bluesky".toList, c.val < 128) := by
    refine ⟨?_, ?_, ?_⟩ <;> exact List.all_iff_forall_prop.mp (by decide)
  have hlower : "mastodon:".toList.map Char.toLower = "mastodon:".toList ∧
      "bluesky:".toList.map Char.toLower = "bluesky:".toList ∧
      "bluesky".toList.map Char.toLower = "bluesky".toList := by
    decide
  have hrefused : IsNetwork (casing.toLower host) := by
    obtain ⟨after, rfl⟩ | ⟨after, rfl⟩ | rfl := h
    · exact .inl (hlower.1 ▸ casing.toLower_append _ after hascii.1)
    · exact .inr (.inl (hlower.2.1 ▸ casing.toLower_append _ after hascii.2.1))
    · exact .inr (.inr ((casing.toLower_ascii _ hascii.2.2).trans hlower.2.2))
  have hlowered : (browserLibrary casing).toLower host = casing.toLower host := rfl
  rw [RellmLinks.resolveHost, hlowered]
  refine if_pos ?_
  simp only [Bool.or_eq_true, decide_eq_true_eq, List.isPrefixOf_iff_prefix]
  obtain hmastodon | hbluesky | hbluesky := hrefused
  · exact .inl (.inl (.inr hmastodon))
  · exact .inl (.inr hbluesky)
  · exact .inr hbluesky

/-- An id that another network follows names no post on a server. -/
theorem targetFrom_network (h : IsNetwork host) (defaultHost before : Text) :
    RellmLinks.targetFrom (browserLibrary casing) defaultHost (before ++ '@' :: host) = none := by
  unfold RellmLinks.targetFrom
  split
  · rename_i id hsplit
    rw [List.splitOn_append_cons_self] at hsplit
    have hlength := congrArg List.length hsplit
    have hbefore := List.length_pos_iff.mpr (List.splitOn_ne_nil '@' before)
    have hhost := List.length_pos_iff.mpr (List.splitOn_ne_nil '@' host)
    rw [List.length_append, List.length_singleton] at hlength
    omega
  · rename_i id host' hsplit
    obtain ⟨heq, hid, hhost⟩ := split_of_splitOn hsplit
    have hsame : host' = host := by
      obtain ⟨between, rfl, hrest⟩ | ⟨between, _, hrest⟩ := List.append_eq_append_iff.mp heq
      · rcases between with _ | ⟨c, between⟩
        · exact (List.cons.inj hrest).2.symm
        · obtain ⟨rfl, _⟩ := List.cons.inj hrest
          exact absurd (List.mem_append_right _ List.mem_cons_self) hid
      · rcases between with _ | ⟨c, between⟩
        · exact (List.cons.inj hrest).2
        · obtain ⟨_, rfl⟩ := List.cons.inj hrest
          exact absurd (List.mem_append_right _ List.mem_cons_self) hhost
    rw [hsame, h.resolveHost_eq_none]
    split <;> rfl
  · rfl

/-- What is decoded of a host that stands for another network does so too. -/
theorem IsNetwork.decodeComponent (h : IsNetwork host) {decoded : Text}
    (hdecoded : Foundation.decodeComponent host = some decoded) : IsNetwork decoded := by
  have hplain : '%' ∉ "mastodon:".toList ∧ '%' ∉ "bluesky:".toList ∧ '%' ∉ "bluesky".toList := by
    decide
  obtain ⟨after, rfl⟩ | ⟨after, rfl⟩ | rfl := h
  · rw [decodeComponent_append hplain.1] at hdecoded
    obtain ⟨rest, _, rfl⟩ := Option.map_eq_some_iff.mp hdecoded
    exact .inl (List.prefix_append _ _)
  · rw [decodeComponent_append hplain.2.1] at hdecoded
    obtain ⟨rest, _, rfl⟩ := Option.map_eq_some_iff.mp hdecoded
    exact .inr (.inl (List.prefix_append _ _))
  · rw [decodeComponent_of_noPercent hplain.2.2] at hdecoded
    exact .inr (.inr (Option.some.inj hdecoded).symm)

theorem prefix_of_parseFederatedPostId {id : Text} {post : FederatedLinks.FederatedPostId}
    (h : FederatedLinks.parseFederatedPostId id host = some post) :
    "mastodon:".toList <+: host ∨ "bluesky:".toList <+: host := by
  unfold FederatedLinks.parseFederatedPostId at h
  split at h
  · rename_i hmastodon
    exact .inl (List.isPrefixOf_iff_prefix.mp hmastodon)
  · split at h
    · rename_i hbluesky
      exact .inr (List.isPrefixOf_iff_prefix.mp hbluesky)
    · cases h

/-- A route to a post on another network ends with that network. -/
theorem network_of_parsePostRouteId {library : Library}
    (h : "mastodon:".toList <+: (FederatedLinks.parsePostRouteId library [] text).2 ∨
      "bluesky:".toList <+: (FederatedLinks.parsePostRouteId library [] text).2) :
    ∃ id host, text = id ++ '@' :: host ∧ IsNetwork host := by
  unfold FederatedLinks.parsePostRouteId at h
  split at h
  · rename_i id host hsplit
    refine ⟨id, host, (split_of_splitOn hsplit).1, ?_⟩
    dsimp only at h
    split at h
    · rename_i hbluesky
      rw [List.isPrefixOf_iff_prefix] at hbluesky
      exact .inr hbluesky.symm
    · exact h.imp_right .inl
  · have hnil : ¬ "mastodon:".toList <+: [] ∧ ¬ "bluesky:".toList <+: [] := by decide
    exact absurd h (not_or.mpr hnil)

theorem network_of_parseRouteId {library : Library}
    (h : FederatedLinks.parseRouteId library text ≠ none) :
    ∃ id host, text = id ++ '@' :: host ∧ IsNetwork host := by
  unfold FederatedLinks.parseRouteId at h
  split at h
  · dsimp only at h
    split at h
    · rename_i hpost
      exact network_of_parsePostRouteId (prefix_of_parseFederatedPostId hpost)
    · rename_i hpost
      exact network_of_parsePostRouteId (prefix_of_parseFederatedPostId hpost)
    · exact absurd rfl h
  · exact absurd rfl h

theorem separates_at : Separates '@' := ⟨by decide, by decide⟩

/-- Where a segment ends with another network, it does so after decoding. -/
theorem decodedSegment_network (h : IsNetwork host) (before : Text) :
    ∃ before' host', decodedSegment (before ++ '@' :: host) = before' ++ '@' :: host' ∧
      IsNetwork host' ∧ (before ≠ [] → before' ≠ []) := by
  rw [decodedSegment, decodeComponent_append_cons separates_at]
  cases hbefore : decodeComponent before with
  | none => exact ⟨before, host, rfl, h, id⟩
  | some first =>
    cases hhost : decodeComponent host with
    | none => exact ⟨before, host, rfl, h, id⟩
    | some last =>
      exact ⟨first, last, rfl, h.decodeComponent hhost,
        fun hne => decodeFrom_ne_nil hbefore (.inl hne)⟩

/-- Where a path names a post on another network after its kind, it names none on a server. -/
theorem targetFrom_of_parseRouteId {library : Library}
    (h : FederatedLinks.parseRouteId library segment ≠ none) (defaultHost : Text) :
    RellmLinks.targetFrom (browserLibrary casing) defaultHost (decodedSegment segment) = none := by
  obtain ⟨id, host, rfl, hnetwork⟩ := network_of_parseRouteId h
  obtain ⟨before, host', hdecoded, hnetwork', _⟩ := decodedSegment_network hnetwork id
  rw [hdecoded]
  exact targetFrom_network hnetwork' defaultHost before

/-- Where a short link names a post on another network, it names none on a server. -/
theorem targetFrom_tail_of_parseRouteId {library : Library}
    (h : FederatedLinks.parseRouteId library (dropFirstUnit segment) ≠ none) (defaultHost : Text)
    {lead : Char} {rest : Text} (hdecoded : decodedSegment segment = lead :: rest) :
    RellmLinks.targetFrom (browserLibrary casing) defaultHost rest = none := by
  obtain ⟨id, host, hdrop, hnetwork⟩ := network_of_parseRouteId h
  have hsegment : ∃ before, segment = before ++ '@' :: host ∧ before ≠ [] := by
    rcases segment with _ | ⟨c, text⟩
    · cases id <;> cases hdrop
    · rw [dropFirstUnit] at hdrop
      split at hdrop
      · exact ⟨c :: id, by rw [hdrop, List.cons_append], List.cons_ne_nil _ _⟩
      · rcases id with _ | ⟨d, id⟩
        · exact absurd (List.cons.inj hdrop).1 (by decide)
        · exact ⟨c :: id, congrArg (c :: ·) (List.cons.inj hdrop).2, List.cons_ne_nil _ _⟩
  obtain ⟨before, rfl, hne⟩ := hsegment
  obtain ⟨before', host', hdecoded', hnetwork', hne'⟩ := decodedSegment_network hnetwork before
  obtain ⟨c, before', rfl⟩ := List.exists_cons_of_ne_nil (hne' hne)
  rw [hdecoded] at hdecoded'
  obtain ⟨_, rfl⟩ := List.cons.inj hdecoded'
  exact targetFrom_network hnetwork' defaultHost before'

/-- The segments of a path as a post on a server reads them, and as one on another network does: those
of a frontend are left out by both, unless they are encoded. -/
theorem pathSegments_eq (casing : Casing) (path : Text) :
    (RellmLinks.pathSegments (browserLibrary casing) path =
        (FederatedLinks.segmentsOf path).map decodedSegment) ∨
      ∃ first rest, FederatedLinks.segmentsOf path = first :: rest ∧
        decodedSegment first ∈ frontends ∧
        RellmLinks.pathSegments (browserLibrary casing) path = rest.map decodedSegment := by
  have hplain : ∀ frontend ∈ frontends, '%' ∉ frontend := by decide
  have hdecoded : RellmLinks.pathSegments (browserLibrary casing) path = withoutFrontend
      (((path.splitOn '/').filter fun segment => !segment.isEmpty).map decodedSegment) := rfl
  rw [hdecoded, FederatedLinks.segmentsOf]
  cases hraw : (path.splitOn '/').filter fun segment => !segment.isEmpty with
  | nil => exact .inl rfl
  | cons first rest =>
    by_cases hfirst : first ∈ frontends
    · have hsame : decodedSegment first = first := by
        rw [decodedSegment, decodeComponent_of_noPercent (hplain first hfirst)]
        rfl
      left
      rw [List.map_cons, hsame, withoutFrontend, withoutFrontend, if_pos hfirst, if_pos hfirst]
    · rw [List.map_cons, RellmLinks.withoutFrontend_of_notMem hfirst]
      by_cases hdecodedFirst : decodedSegment first ∈ frontends
      · exact .inr ⟨first, rest, rfl, hdecodedFirst, if_pos hdecodedFirst⟩
      · exact .inl (RellmLinks.withoutFrontend_of_notMem hdecodedFirst)

theorem decodedSegment_cons {c : Char} (h : c ≠ '%') (rest : Text) :
    ∃ decoded, decodedSegment (c :: rest) = c :: decoded := by
  rw [decodedSegment, decodeComponent, decodeFrom_cons h]
  cases decodeFrom none rest with
  | none => exact ⟨rest, rfl⟩
  | some decoded => exact ⟨decoded, rfl⟩

theorem decodedSegment_of_noPercent (h : '%' ∉ segment) : decodedSegment segment = segment := by
  rw [decodedSegment, decodeComponent_of_noPercent h]
  rfl

/-- The first of two segments is a kind of post, or the name of a user, which is decoded to one. -/
theorem first_of_two {library : Library} {first second : Text}
    (h : (if first = "post".toList then FederatedLinks.parseRouteId library second
      else if "@".toList.isPrefixOf first && 1 < first.length then FederatedLinks.mastodon host second
      else none) ≠ none) :
    (first = "post".toList ∧ FederatedLinks.parseRouteId library second ≠ none) ∨
      ∃ decoded, decodedSegment first = '@' :: decoded := by
  split at h
  · rename_i hpost
    exact .inl ⟨hpost, h⟩
  · split at h
    · rename_i huser
      obtain ⟨hstarts, _⟩ := Bool.and_eq_true_iff.mp huser
      obtain ⟨rest, rfl⟩ := List.isPrefixOf_iff_prefix.mp hstarts
      exact .inr (decodedSegment_cons (by decide) rest)
    · exact absurd rfl h

/-- A path that names a post on another network names none on a server. -/
theorem parsePath_of_parseUrl {library : Library} {path : Text}
    (h : FederatedLinks.parseUrl library host path ≠ none) (defaultHost : Text) :
    RellmLinks.parsePath (browserLibrary casing) defaultHost path = none := by
  unfold FederatedLinks.parseUrl at h
  unfold RellmLinks.parsePath
  obtain hsegments | ⟨first, rest, hraw, hfrontend, hsegments⟩ := pathSegments_eq casing path
  · rw [hsegments]
    split at h
    · rename_i short hraw
      rw [hraw, List.map_singleton]
      dsimp only
      split
      · rename_i lead rest hdecoded
        split
        · exact targetFrom_tail_of_parseRouteId h defaultHost hdecoded
        · rfl
      · rfl
    · rename_i first second hraw
      rw [hraw, List.map_cons, List.map_singleton]
      obtain ⟨rfl, hroute⟩ | ⟨decoded, hdecoded⟩ := first_of_two h
      · rw [decodedSegment_of_noPercent (by decide)]
        exact (if_pos (.inl rfl)).trans (targetFrom_of_parseRouteId hroute defaultHost)
      · have hkinds : "post".toList.head? ≠ some '@' ∧ "event".toList.head? ≠ some '@' := by
          decide
        rw [hdecoded]
        refine if_neg ?_
        rintro (hkind | hkind)
        · exact hkinds.1 (by rw [← hkind]; rfl)
        · exact hkinds.2 (by rw [← hkind]; rfl)
    · rename_i hraw
      rw [hraw]
      rfl
    · exact absurd rfl h
  · have hfrontends : ∀ frontend ∈ frontends, frontend ≠ "post".toList ∧ frontend.head? ≠ some '@' := by
      decide
    rw [hsegments]
    rw [hraw] at h
    split at h
    · rename_i hone
      obtain ⟨_, rfl⟩ := List.cons.inj hone
      rfl
    · rename_i first second htwo
      obtain ⟨rfl, rfl⟩ := List.cons.inj htwo
      obtain ⟨rfl, _⟩ | ⟨decoded, hdecoded⟩ := first_of_two h
      · rw [decodedSegment_of_noPercent (by decide)] at hfrontend
        exact absurd rfl (hfrontends _ hfrontend).1
      · rw [hdecoded] at hfrontend
        exact absurd rfl (hfrontends _ hfrontend).2
    · rename_i hfour
      obtain ⟨_, rfl⟩ := List.cons.inj hfour
      rfl
    · exact absurd rfl h

/-- The two readings of a path exclude each other. -/
theorem parsePath_or_parseUrl (casing : Casing) (defaultHost host path : Text) :
    RellmLinks.parsePath (browserLibrary casing) defaultHost path = none ∨
      FederatedLinks.parseUrl (browserLibrary casing) host path = none := by
  by_cases h : FederatedLinks.parseUrl (browserLibrary casing) host path = none
  · exact .inr h
  · exact .inl (parsePath_of_parseUrl h defaultHost)

theorem parseAbsolute_or (casing : Casing) (link : Text) :
    RellmLinks.parseAbsolute (browserLibrary casing) link = none ∨
      FederatedLinks.parseAbsolute (browserLibrary casing) link = none := by
  unfold RellmLinks.parseAbsolute FederatedLinks.parseAbsolute
  cases (browserLibrary casing).fromString link with
  | none => exact .inl rfl
  | some url =>
    rw [Option.bind_some, Option.bind_some]
    split
    · exact .inl rfl
    · exact parsePath_or_parseUrl casing _ _ _

/-- The address of a post on Bluesky is not one on a server: what would be its host has an empty
port. -/
theorem parseAbsolute_at (casing : Casing) (rest : Text) :
    RellmLinks.parseAbsolute (browserLibrary casing)
      ("https://".toList ++ ("at://".toList ++ rest)) = none := by
  have hfrom : Url.fromString ("https://".toList ++ ("at://".toList ++ rest)) = none := by
    have hsplit : ['a', 't', ':'].splitOn ':' = [['a', 't'], []] := by decide
    simp [Url.fromString, Url.chompAfterProtocol, Url.chompBeforeFragment, Url.chompBeforeQuery,
      Url.chompBeforePath, hsplit, LocalTime.toInt, LocalTime.fromDigits]
  have hfrom' : (browserLibrary casing).fromString
      ("https://".toList ++ ("at://".toList ++ rest)) = none := hfrom
  rw [RellmLinks.parseAbsolute, hfrom', Option.bind_none]

theorem parse_of_at {library : Library} {postServerHost rawLink rest : Text}
    (htrim : library.trim rawLink = "at://".toList ++ rest) :
    RellmLinks.parse library postServerHost rawLink =
      if '.' ∈ pathOf (library.trim rawLink) then
        RellmLinks.parseAbsolute library ("https://".toList ++ library.trim rawLink)
      else none := by
  simp [RellmLinks.parse, htrim]

/-- No link names both a post on a server and one on another network. -/
theorem parse_or_parse (casing : Casing) (postServerHost rawLink : Text) :
    RellmLinks.parse (browserLibrary casing) postServerHost rawLink = none ∨
      FederatedLinks.parse (browserLibrary casing) rawLink = none := by
  by_cases hat : "at://".toList.isPrefixOf ((browserLibrary casing).trim rawLink) = true
  · obtain ⟨rest, hrest⟩ := List.isPrefixOf_iff_prefix.mp hat
    left
    rw [parse_of_at hrest.symm, ← hrest, parseAbsolute_at, ite_self]
  · unfold RellmLinks.parse FederatedLinks.parse
    dsimp only
    rw [if_neg hat]
    generalize (browserLibrary casing).trim rawLink = link
    by_cases hempty : link.isEmpty = true
    · exact .inl (if_pos hempty)
    · rw [if_neg hempty]
      split
      · exact .inl rfl
      · split
        · exact parsePath_or_parseUrl casing _ _ _
        · split
          · exact parsePath_or_parseUrl casing _ _ _
          · split
            · exact parsePath_or_parseUrl casing _ _ _
            · split
              · exact parseAbsolute_or casing link
              · split
                · split
                  · exact parseAbsolute_or casing _
                  · exact .inr rfl
                · exact .inl rfl

end

namespace RellmLinks

/-- A post on a server that has a domain. -/
structure Quotable where
  domain : Domain
  id : Text
  isRellmId : isRellmId id = true

def Quotable.target (quotable : Quotable) : Target := ⟨quotable.domain.host, quotable.id⟩

/-- The spelling that everyone reads in the same way. -/
def canonical (isEvent : Bool) (domain : Domain) : Spelling where
  origin := some (if isLocalHost domain.host then .http else .https, domain)
  form := if isEvent then .event else .post

theorem canonicalLink_eq (isEvent : Bool) (quotable : Quotable) :
    canonicalLink isEvent quotable.target =
      (canonical isEvent quotable.domain).text quotable.id := by
  have hkinds : "/event/".toList = '/' :: "event".toList ++ ['/'] ∧
      "/post/".toList = '/' :: "post".toList ++ ['/'] := by
    decide
  have hscheme : Scheme.text (if isLocalHost quotable.domain.host then .http else .https) =
      if isLocalHost quotable.domain.host then "http://".toList else "https://".toList := by
    split <;> rfl
  have hkind : (canonical isEvent quotable.domain).path quotable.id =
      (if isEvent then "/event/".toList else "/post/".toList) ++ quotable.id := by
    rw [hkinds.1, hkinds.2]
    cases isEvent <;>
      simp [canonical, Spelling.path, Spelling.segments, Form.segments, Spelling.idAndHost]
  rw [Spelling.text, hkind, Spelling.start, canonical]
  dsimp only
  rw [hscheme, canonicalLink, Quotable.target, List.append_nil, List.append_assoc]

theorem canonical_names {isEvent : Bool} {domain : Domain}
    (h : domain.port ≠ some (if isLocalHost domain.host then 80 else 443)) (postServerHost : Text) :
    (canonical isEvent domain).Names postServerHost domain where
  frontend := nofun
  lead c lead hform := by cases isEvent <;> cases hform
  host := nofun
  implied _ := by
    refine .inr ⟨_, rfl, ?_⟩
    cases hlocal : isLocalHost domain.host <;> rw [hlocal] at h <;> exact h
  extra := nofun

/-- The link that everyone reads in the same way is stored as it is. -/
theorem canonical_stored (isEvent : Bool) (domain : Domain) :
    (canonical isEvent domain).stored = canonical isEvent domain := by
  unfold Spelling.stored canonical
  cases isLocalHost domain.host <;> rfl

/-- Different posts have different links, if a slash ends their hosts. -/
theorem canonicalLink_injective {isEvent : Bool} {target target' : Target}
    (h : '/' ∉ target.host) (h' : '/' ∉ target'.host)
    (hlink : canonicalLink isEvent target = canonicalLink isEvent target') : target = target' := by
  have hprotocols (rest rest' : Text) : "http://".toList ++ rest ≠ "https://".toList ++ rest' := by
    simp
  rw [canonicalLink, canonicalLink, List.append_assoc, List.append_assoc, List.append_assoc,
    List.append_assoc] at hlink
  have hscheme : isLocalHost target.host = isLocalHost target'.host := by
    cases hlocal : isLocalHost target.host <;> cases hlocal' : isLocalHost target'.host
    · rfl
    · rw [hlocal, hlocal'] at hlink
      exact absurd hlink.symm (hprotocols _ _)
    · rw [hlocal, hlocal'] at hlink
      exact absurd hlink (hprotocols _ _)
    · rfl
  have hkind : ∃ rest, (if isEvent then "/event/".toList else "/post/".toList) = '/' :: rest := by
    cases isEvent
    · exact ⟨"post/".toList, by decide⟩
    · exact ⟨"event/".toList, by decide⟩
  obtain ⟨kind, hkind⟩ := hkind
  rw [hscheme, hkind] at hlink
  obtain ⟨hhost, hid⟩ := split_unique h h' (List.append_cancel_left hlink)
  obtain ⟨host, id⟩ := target
  obtain ⟨host', id'⟩ := target'
  obtain rfl : host = host' := hhost
  obtain rfl : id = id' := List.append_cancel_left hid
  rfl

/-- A browser that knows lower case for ASCII only. -/
def plainCasing : Casing where
  toLower text := text.map Char.toLower
  toLower_ascii := QuoteLinks.plainLibrary.toLower_ascii
  toLower_append before after _ := by
    rw [List.map_append]
    exact List.prefix_append _ _

/-- A post on a server with a port. -/
def quotedPost : Quotable where
  domain := ⟨"rellm.org".toList, some 8080, by decide, by decide,
    List.all_iff_forall_prop.mp (by decide)⟩
  id := "abc".toList
  isRellmId := by decide

/-- A short link without a protocol, with all that may be added. -/
def shortSpelling : Spelling where
  origin := some (.omitted, quotedPost.domain)
  frontend := some "elm".toList
  form := .short '~' ['~']
  slash := true
  extra := "?a=b#c".toList

example : shortSpelling.text quotedPost.id = "rellm.org:8080/elm/~abc/?a=b#c".toList := by
  decide

theorem shortSpelling_names {spelling : Spelling} {scheme : Scheme} (hscheme : 8080 ≠ scheme.defaultPort)
    (h : spelling = { shortSpelling with origin := some (scheme, quotedPost.domain) }) :
    spelling.Names "jonline.io".toList quotedPost.domain := by
  subst h
  refine ⟨?_, ?_, nofun, fun _ => .inr ⟨scheme, rfl, fun hport => hscheme (Option.some.inj hport)⟩, ?_⟩
  · rintro _ ⟨⟩
    decide
  · rintro _ _ ⟨⟩
    exact ⟨by decide, .plain (by decide)⟩
  · rintro _ ⟨⟩
    exact .inl rfl

end RellmLinks

end Rellm.Client
