import Rellm.Client.QuoteLinks
import Rellm.Foundation.Hosts

/-!
# Hosts that links lead to

The browser of a viewer asks only hosts that the user knows or that may be probed. What may be probed
is decided by the text of a host; an address that is written in hexadecimal passes for a name, as does
a name of a local network in capitals.
-/

namespace Rellm.Client

open Foundation

namespace RellmLinks

def withoutLastDot (host : Text) : Text :=
  if host.getLast? = some '.' then host.dropLast else host

/-- A host of the viewer's own network, or one named in a way that no public server is. -/
inductive Private (browser : Browser) (host : Text) : Prop
  | address (h : browser.ReadsAddress host)
  | localhost (h : withoutLastDot (host.map Char.toLower) = "localhost".toList)
  | singleLabel (h : '.' ∉ withoutLastDot host)
  | port (name port : Text) (h : host = name ++ ':' :: port)
  | localNetwork (suffix : Text) (h : suffix ∈ localSuffixes)
    (h' : suffix <:+ withoutLastDot (host.map Char.toLower))

/-- An address of several parts, at least one of them in hexadecimal. -/
structure HexadecimalAddress (host : Text) : Prop where
  address : (parseIpv4 host).isSome = true
  dot : '.' ∈ host
  labels : [] ∉ host.splitOn '.'
  hexadecimal : ∃ label ∈ host.splitOn '.', isHexadecimal label = true

/-- The labels of a public domain name. -/
def HasLabels (host : Text) : Prop :=
  ∀ label ∈ host.splitOn '.', label ≠ [] ∧ ∀ c ∈ label, c.isAlphanum = true ∨ c = '-'

/-- A name under an ending of local networks that is not in lower case. -/
structure CapitalizedLocal (host : Text) : Prop where
  labels : HasLabels host
  isLocal : ∃ suffix ∈ localSuffixes, suffix <:+ host.map Char.toLower
  capitalized : ∀ suffix ∈ localSuffixes, ¬ suffix <:+ host

section

variable {host : Text}

theorem isProbeableHost_iff : isProbeableHost host = true ↔
    '.' ∈ host ∧ ':' ∉ host ∧
      (∃ label ∈ host.splitOn '.', ¬ (label ≠ [] ∧ ∀ c ∈ label, c.isDigit = true)) ∧
      (∀ suffix ∈ localSuffixes, ¬ suffix <:+ host) ∧ HasLabels host := by
  unfold isProbeableHost HasLabels
  dsimp only
  simp only [Bool.and_eq_true, decide_eq_true_eq, Bool.not_eq_true', List.all_eq_true,
    List.any_eq_false, List.isSuffixOf_iff_suffix, Bool.or_eq_true, decide_eq_false_iff_not,
    List.all_eq_false, List.isEmpty_eq_false_iff, and_assoc, ne_eq]

/-- A label is left out at a last dot. -/
theorem nil_mem_labels (h : host.getLast? = some '.') : [] ∈ host.splitOn '.' := by
  obtain ⟨before, rfl⟩ := List.getLast?_eq_some_iff.mp h
  rw [List.splitOn_append_cons_self, List.mem_append]
  exact .inr List.mem_cons_self

theorem HasLabels.withoutLastDot (h : HasLabels host) : withoutLastDot host = host := by
  rw [RellmLinks.withoutLastDot, if_neg]
  exact fun hlast => (h [] (nil_mem_labels hlast)).1 rfl

theorem HasLabels.map_toLower (h : HasLabels host) : HasLabels (host.map Char.toLower) := by
  intro label hlabel
  rw [splitOn_map_toLower] at hlabel
  obtain ⟨before, hbefore, rfl⟩ := List.mem_map.mp hlabel
  obtain ⟨hne, hall⟩ := h before hbefore
  refine ⟨mt List.map_eq_nil_iff.mp hne, List.forall_mem_map.mpr fun c hc => ?_⟩
  rw [isAlphanum_toLower, toLower_eq_iff (by decide)]
  exact hall c hc

/-- A public domain name consists of letters, digits, hyphens and dots. -/
theorem HasLabels.isNameCharacter (h : HasLabels host) :
    ∀ c ∈ host, isNameCharacter c = true := by
  refine forall_mem_of_labels rfl fun label hlabel c hc => ?_
  rcases (h label hlabel).2 c hc with halnum | rfl
  · simp [Foundation.isNameCharacter, halnum]
  · rfl

theorem HasLabels.noColon (h : HasLabels host) : ':' ∉ host :=
  fun hmem => absurd (h.isNameCharacter ':' hmem) (by decide)

/-- The ending of a local network is a label that starts with a letter. -/
theorem label_of_suffix {suffix : Text} (hsuffix : suffix ∈ localSuffixes)
    (h : suffix <:+ host) :
    '.' ∈ host ∧ suffix.tail ∈ host.splitOn '.' ∧
      ∃ c ∈ suffix.tail, suffix.tail.head? = some c ∧ c.isDigit = false := by
  have hall : ∀ suffix ∈ localSuffixes, suffix.head? = some '.' ∧ '.' ∉ suffix.tail ∧
      suffix.tail.head?.any (fun c => !c.isDigit) = true := by
    decide +kernel
  obtain ⟨hdot, hnone, hany⟩ := hall suffix hsuffix
  have hletter : ∃ c ∈ suffix.tail, suffix.tail.head? = some c ∧ c.isDigit = false := by
    obtain ⟨c, hhead, hdigit⟩ := (Option.any_eq_true _ _).mp hany
    exact ⟨c, List.mem_of_head? hhead, hhead, by simpa using hdigit⟩
  obtain ⟨word, rfl⟩ := List.head?_eq_some_iff.mp hdot
  obtain ⟨before, rfl⟩ := h
  refine ⟨List.mem_append_right _ List.mem_cons_self, ?_, hletter⟩
  rw [List.tail_cons] at hnone ⊢
  rw [List.splitOn_append_cons_self, List.mem_append, List.splitOn_eq_singleton hnone]
  exact .inr List.mem_cons_self

/-- An address passes for a public domain name if a part of it is hexadecimal. -/
theorem probeable_address_iff (browser : Browser) :
    isProbeableHost host = true ∧ browser.ReadsAddress host ↔ HexadecimalAddress host := by
  rw [isProbeableHost_iff]
  constructor
  · rintro ⟨⟨hdot, _, ⟨label, hlabel, hdigits⟩, _, hlabels⟩, haddress⟩
    have hparse := parseIpv4_of_readsAddress hlabels.isNameCharacter haddress
    refine ⟨hparse, hdot, fun hempty => (hlabels [] hempty).1 rfl, label, hlabel, ?_⟩
    obtain hpart | rfl := mem_hostParts hlabel
    · have hnumeric := ((numeric_of_parseIpv4 hparse).2 label hpart).2
      rw [← Bool.not_eq_false]
      exact fun hnot => hdigits ⟨hnumeric.ne_nil, hnumeric.isDigit hnot⟩
    · exact absurd rfl (hlabels [] hlabel).1
  · rintro ⟨hparse, hdot, hempty, hex, hhex, hexadecimal⟩
    have hnumeric : ∀ label ∈ host.splitOn '.', Numeric label := by
      intro label hlabel
      obtain hpart | rfl := mem_hostParts hlabel
      · exact ((numeric_of_parseIpv4 hparse).2 label hpart).2
      · exact absurd hlabel hempty
    have hlabels : HasLabels host := fun label hlabel =>
      ⟨(hnumeric label hlabel).ne_nil, fun c hc => .inl ((hnumeric label hlabel).isAlphanum c hc)⟩
    refine ⟨⟨hdot, hlabels.noColon, ⟨hex, hhex, ?_⟩, ?_, hlabels⟩,
      readsAddress_of_parseIpv4 browser hparse⟩
    · rintro ⟨_, hdigits⟩
      obtain ⟨d, rest, rfl, hd⟩ := isHexadecimal_iff.mp hexadecimal
      have hdigit := hdigits d (List.mem_cons_of_mem _ List.mem_cons_self)
      rcases hd with rfl | rfl <;> exact absurd hdigit (by decide)
    · intro suffix hsuffix hends
      obtain ⟨_, hlabel, c, _, hhead, hletter⟩ := label_of_suffix hsuffix hends
      exact Bool.false_ne_true (hletter.symm.trans ((hnumeric _ hlabel).head c hhead))

/-- A name of a local network passes for a public domain name if its ending has capitals. -/
theorem probeable_local_iff :
    (isProbeableHost host = true ∧ ∃ suffix ∈ localSuffixes, suffix <:+ host.map Char.toLower) ↔
      CapitalizedLocal host := by
  rw [isProbeableHost_iff]
  constructor
  · rintro ⟨⟨_, _, _, hnone, hlabels⟩, hlocal⟩
    exact ⟨hlabels, hlocal, hnone⟩
  · rintro ⟨hlabels, ⟨suffix, hsuffix, hends⟩, hnone⟩
    obtain ⟨hdot, hlabel, c, hc, _, hletter⟩ := label_of_suffix hsuffix hends
    obtain ⟨d, hd, hlower⟩ := List.mem_map.mp hdot
    obtain rfl := (toLower_eq_iff (by decide)).mp hlower
    rw [splitOn_map_toLower] at hlabel
    obtain ⟨label, hlabel, hsame⟩ := List.mem_map.mp hlabel
    rw [← hsame] at hc
    obtain ⟨e, he, rfl⟩ := List.mem_map.mp hc
    rw [isDigit_toLower] at hletter
    refine ⟨⟨hd, hlabels.noColon, ⟨label, hlabel, ?_⟩, hnone, hlabels⟩, suffix, hsuffix, hends⟩
    exact fun hdigits => Bool.false_ne_true (hletter.symm.trans (hdigits.2 e he))

/-- The private hosts that may be probed. -/
theorem probeable_private_iff (browser : Browser) :
    isProbeableHost host = true ∧ Private browser host ↔
      HexadecimalAddress host ∨ CapitalizedLocal host := by
  constructor
  · rintro ⟨hprobeable, hprivate⟩
    obtain ⟨hdot, hcolon, _, _, hlabels⟩ := isProbeableHost_iff.mp hprobeable
    cases hprivate with
    | address h => exact .inl ((probeable_address_iff browser).mp ⟨hprobeable, h⟩)
    | localhost h =>
      rw [hlabels.map_toLower.withoutLastDot] at h
      have hmem := List.mem_map_of_mem (f := Char.toLower) hdot
      rw [h] at hmem
      exact absurd hmem (by decide +kernel)
    | singleLabel h =>
      rw [hlabels.withoutLastDot] at h
      exact absurd hdot h
    | port name port h =>
      rw [h] at hcolon
      exact absurd (List.mem_append_right _ List.mem_cons_self) hcolon
    | localNetwork suffix hsuffix h =>
      rw [hlabels.map_toLower.withoutLastDot] at h
      exact .inr (probeable_local_iff.mp ⟨hprobeable, suffix, hsuffix, h⟩)
  · rintro (h | h)
    · obtain ⟨hprobeable, haddress⟩ := (probeable_address_iff browser).mpr h
      exact ⟨hprobeable, .address haddress⟩
    · obtain ⟨hprobeable, suffix, hsuffix, hends⟩ := probeable_local_iff.mpr h
      refine ⟨hprobeable, .localNetwork suffix hsuffix ?_⟩
      rw [h.labels.map_toLower.withoutLastDot]
      exact hends

end

end RellmLinks

namespace QuoteLinks

/-- What the browser of a viewer asks. -/
inductive Contact where
  | host (host : Text)
  | blueskyAppView
  deriving DecidableEq, Repr

/-- A call to the cache of quoted posts that may lead to contacts. -/
inductive Call where
  | request (world : World) (pairs : List (Text × Text))
  | settle (world : World)

def Call.world : Call → World
  | .request world _ => world
  | .settle world => world

def federatedContact : FederatedLinks.Target → Contact
  | .mastodonStatus instanceHost _ => .host instanceHost
  | _ => .blueskyAppView

/-- A server that the user added and enabled, one with a connected preview, the AppView of Bluesky or
a host that may be probed. -/
inductive Allowed (world : World) : Contact → Prop
  | added (server : RellmServer) (mem : server ∈ world.servers) (enabled : server.enabled = true) :
    Allowed world (.host server.frontendHost)
  | previewed (host : Text)
    (connected : (world.previews.value host).any RellmServer.connected = true) :
    Allowed world (.host host)
  | probed (host : Text) (probeable : RellmLinks.isProbeableHost host = true) :
    Allowed world (.host host)
  | blueskyAppView : Allowed world .blueskyAppView

variable (library : Library)

def perform (entries : Entries) : Call → Entries
  | .request world pairs => (request library world pairs entries).entries
  | .settle world => (settle world entries).entries

/-- What is asked for the posts to fetch, the previews and the posts on other networks. -/
def contacts (entries : Entries) : Call → List Contact
  | .request world pairs =>
    let result := request library world pairs entries
    result.fetch.map (fun target => .host target.host) ++ result.previewHosts.map .host ++
      result.fetchFederated.map federatedContact
  | .settle world => (settle world entries).fetch.map fun target => .host target.host

section

variable {world : World} {target : RellmLinks.Target}

/-- What is fetched is on a server that the user added, or on one with a connected preview. -/
theorem allowed_of_fetch (h : plan world target = .fetch) : Allowed world (.host target.host) := by
  unfold plan at h
  split at h
  · rename_i known hknown
    have hmem := List.mem_filter.mp (List.mem_of_head? hknown)
    rw [← of_decide_eq_true hmem.2]
    split at h
    · rename_i hready
      exact .added known hmem.1 (Bool.and_eq_true_iff.mp hready).1
    · cases h
  · split at h
    · cases h
    · split at h
      · rename_i hconnected
        exact .previewed target.host hconnected
      · split at h <;> cases h

/-- A host is waited for that is not a server of the user only if it may be probed. -/
theorem probeable_of_wait (h : plan world target = .wait)
    (hnone : (rellmServerForHost world.servers target.host).isNone = true) :
    RellmLinks.isProbeableHost target.host = true := by
  rw [Option.isNone_iff_eq_none] at hnone
  rw [plan, hnone] at h
  dsimp only at h
  split at h
  · cases h
  · split at h
    · cases h
    · split at h
      · assumption
      · cases h

theorem allowed_of_federatedPlan {target : FederatedLinks.Target}
    (h : federatedPlan target = .fetch) : Allowed world (federatedContact target) := by
  cases target with
  | blueskyUri uri => exact .blueskyAppView
  | blueskyHandle handle rkey => exact .blueskyAppView
  | mastodonStatus instanceHost statusId =>
    rw [federatedPlan] at h
    split at h
    · rename_i hprobeable
      exact .probed instanceHost hprobeable
    · cases h

theorem previewHosts_foldl_requestStep (targets : List RellmLinks.Target) {acc : Requested}
    (hacc : ∀ host ∈ acc.previewHosts, RellmLinks.isProbeableHost host = true) :
    ∀ host ∈ (targets.foldl (requestStep world) acc).previewHosts,
      RellmLinks.isProbeableHost host = true := by
  refine run_invariant_of_all
    (I := fun acc : Requested =>
      ∀ host ∈ acc.previewHosts, RellmLinks.isProbeableHost host = true)
    (fun acc target hacc => ?_) hacc targets
  unfold requestStep
  split
  · exact hacc
  · rename_i hwait
    dsimp only
    split
    · rename_i hnew
      refine List.forall_mem_append.mpr ⟨hacc, ?_⟩
      rw [List.forall_mem_singleton]
      exact probeable_of_wait hwait (Bool.and_eq_true_iff.mp hnew).1
    · exact hacc
  · exact hacc

theorem previewHosts_foldl_federatedStep (targets : List FederatedLinks.Target) (acc : Requested) :
    (targets.foldl federatedStep acc).previewHosts = acc.previewHosts := by
  refine run_invariant_of_all (I := fun result : Requested => result.previewHosts = acc.previewHosts)
    (fun result target hresult => ?_) rfl targets
  unfold federatedStep
  split <;> exact hresult

/-- What a new plan fetches is planned to be fetched. -/
theorem plan_of_mem_settle {entries : Entries} (h : target ∈ (settle world entries).fetch) :
    plan world target = .fetch := by
  have hnone : ∀ target ∈ (Replanned.mk entries []).fetch, plan world target = .fetch :=
    fun _ htarget => absurd htarget List.not_mem_nil
  refine run_invariant_of_all
    (I := fun acc : Replanned => ∀ target ∈ acc.fetch, plan world target = .fetch)
    (fun acc row hacc => ?_) hnone entries.rows target h
  unfold settleStep
  split
  · split
    · rename_i hplan
      refine List.forall_mem_append.mpr ⟨hacc, ?_⟩
      rwa [List.forall_mem_singleton]
    · exact hacc
    · exact hacc
  · exact hacc

/-- Whatever is linked to, only what is allowed is asked. -/
theorem allowed_of_contacts {entries : Entries} {call : Call} {contact : Contact}
    (h : contact ∈ contacts library entries call) : Allowed call.world contact := by
  cases call with
  | request world pairs =>
    rw [contacts, List.mem_append, List.mem_append, request] at h
    obtain (h | h) | h := h
    · obtain ⟨target, htarget, rfl⟩ := List.mem_map.mp h
      rw [(foldl_federatedStep _ _).2.1, (foldl_requestStep _ _).2.1] at htarget
      exact allowed_of_fetch (of_decide_eq_true (List.mem_filter.mp htarget).2)
    · obtain ⟨host, hhost, rfl⟩ := List.mem_map.mp h
      rw [previewHosts_foldl_federatedStep] at hhost
      exact .probed host (previewHosts_foldl_requestStep _
        (fun _ hnone => absurd hnone List.not_mem_nil) host hhost)
    · obtain ⟨target, htarget, rfl⟩ := List.mem_map.mp h
      rw [(foldl_federatedStep _ _).2.2, (foldl_requestStep _ _).2.2] at htarget
      exact allowed_of_federatedPlan (of_decide_eq_true (List.mem_filter.mp htarget).2)
  | settle world =>
    obtain ⟨target, htarget, rfl⟩ := List.mem_map.mp h
    exact allowed_of_fetch (plan_of_mem_settle htarget)

end

/-- In every run only servers that the user enabled, those with a connected preview, the AppView of
Bluesky and hosts that may be probed are asked; of the hosts that may be probed, the private ones are
the addresses with a hexadecimal part and the names of local networks in capitals. -/
theorem contacts_private_iff (library : Library) (entries : Entries) (calls : List Call)
    (browser : Browser) (host : Text) :
    Along (perform library)
        (fun entries call => ∀ contact ∈ contacts library entries call, Allowed call.world contact)
        entries calls ∧
      ((RellmLinks.isProbeableHost host = true → ¬ RellmLinks.Private browser host) ↔
        ¬ RellmLinks.HexadecimalAddress host ∧ ¬ RellmLinks.CapitalizedLocal host) := by
  refine ⟨?_, ?_⟩
  · exact Along.of_invariant (I := fun _ => True)
      (fun entries call _ _ => ⟨fun contact hcontact => allowed_of_contacts library hcontact, trivial⟩)
      trivial (along_true entries calls)
  · rw [← not_or, ← RellmLinks.probeable_private_iff browser, not_and]

/-- A browser that knows nothing beyond ASCII. -/
def plainBrowser : Browser where
  percentDecode := id
  toAscii name := some (name.map Char.toLower)
  isIpv6 _ := false
  percentDecode_name _ _ := rfl
  toAscii_eq _ _ _ h := (Option.some.inj h).symm
  toAscii_plain _ _ _ _ := rfl

/-- A link to the viewer's own machine, whose address has a hexadecimal part. -/
def loopbackLink : Text := "/post/abc@0x7f.1".toList

/-- The browser is sent to the viewer's own machine, for its address passes for a name. -/
theorem loopback_probed :
    "0x7f.1".toList ∈
        (request plainLibrary homeWorld [("rellm.org".toList, loopbackLink)] .empty).previewHosts ∧
      ¬ ∀ (browser : Browser) (host : Text),
        RellmLinks.isProbeableHost host = true → ¬ RellmLinks.Private browser host := by
  refine ⟨by decide +kernel, fun h => ?_⟩
  refine h plainBrowser "0x7f.1".toList (by decide +kernel) (.address (readsAddress_of_parseIpv4 _ ?_))
  decide +kernel

end QuoteLinks

end Rellm.Client
