import Mathlib.Data.List.Infix
import Rellm.Previews.Addresses

/-!
# Fetching pages and images

Pages and images are fetched with redirects followed by hand. Before each request the scheme and the
host are checked, and a name is resolved to the addresses that are not forbidden; the connection goes to
one of these. What names resolve to, and what is answered, may differ from one request to the next.
-/

namespace Rellm.Previews

/-- The host of a URL, as the URL parser tells addresses from names. -/
inductive Host where
  | ip (ip : IpAddr)
  | domain (name : String)
  deriving DecidableEq, Repr

structure Url where
  scheme : String
  host : Option Host
  text : String
  deriving DecidableEq, Repr

structure Request where
  url : Url
  referer : String
  accept : String
  /-- The addresses that the connection may go to. -/
  addresses : List IpAddr
  deriving DecidableEq, Repr

structure Response where
  status : Nat
  location : Option String
  contentLength : Option Nat
  contentType : Option String
  chunks : List (List UInt8)
  /-- The connection breaks before the body ends. -/
  broken : Bool

inductive FetchError where
  | invalidUrl (url : String)
  | refusedScheme (url : Url)
  | noHost (url : Url)
  | nonPublicAddress (ip : IpAddr)
  | unresolved (name : String)
  | noPublicAddresses (name : String)
  | transport
  | redirectWithoutLocation (url : Url)
  | tooManyRedirects (url : String)
  | status (status : Nat)
  | tooLarge (url : String)
  | unsupportedImage (url : String)
  deriving DecidableEq, Repr

/-- The URL library, what is found in a page, and the rest of the web: what a name resolves to and what
is answered after some requests. -/
structure Web where
  parse : String → Option Url
  join : Url → String → Option Url
  imageUrls : List UInt8 → Url → List String
  lookup : Nat → String → Option (List IpAddr)
  respond : Nat → Request → Option Response

/-- The outcome of a step that makes requests, and all requests so far. -/
abbrev Fetching (α : Type) := Except FetchError α × List Request

structure Fetched where
  bytes : List UInt8
  contentType : Option String
  finalUrl : Url

def maxImageRedirects : Nat := 5
def maxMainImageBytes : Nat := 15 * 1024 * 1024
def minMetadataImageBytes : Nat := 1024
def maxHtmlBytes : Nat := 1024 * 1024

/-- A URL is fetched only over HTTP, and not from a forbidden address that it names. -/
def ensurePublicHttpUrl (url : Url) : Except FetchError Host :=
  if url.scheme ≠ "http" ∧ url.scheme ≠ "https" then .error (.refusedScheme url)
  else
    match url.host with
    | none => .error (.noHost url)
    | some (.ip ip) => if isForbiddenIp ip then .error (.nonPublicAddress ip) else .ok (.ip ip)
    | some (.domain name) => .ok (.domain name)

/-- The addresses to connect to: the one that is named, or those that a name resolves to without the
forbidden ones. -/
def resolve (web : Web) (requests : Nat) : Host → Except FetchError (List IpAddr)
  | .ip ip => .ok [ip]
  | .domain name =>
    match web.lookup requests name with
    | none => .error (.unresolved name)
    | some addresses =>
      let addresses := addresses.filter fun ip => !isForbiddenIp ip
      if addresses.isEmpty then .error (.noPublicAddresses name) else .ok addresses

def isRedirection (status : Nat) : Bool := 300 ≤ status && status < 400

/-- One request to a URL. A name that cannot be resolved counts as a request without addresses. -/
def send (web : Web) (referer accept : String) (current : Url) (requests : List Request) :
    Fetching Response :=
  match ensurePublicHttpUrl current with
  | .error e => (.error e, requests)
  | .ok host =>
    match resolve web requests.length host with
    | .error e => (.error e, requests ++ [⟨current, referer, accept, []⟩])
    | .ok addresses =>
      match web.respond requests.length ⟨current, referer, accept, addresses⟩ with
      | none => (.error .transport, requests ++ [⟨current, referer, accept, addresses⟩])
      | some response => (.ok response, requests ++ [⟨current, referer, accept, addresses⟩])

/-- The response after some more redirects at most, and the URL it came from. -/
def follow (web : Web) (url referer accept : String) :
    Nat → Url → List Request → Fetching (Response × Url)
  | hopsLeft, current, requests =>
    match send web referer accept current requests with
    | (.error e, requests) => (.error e, requests)
    | (.ok response, requests) =>
      if isRedirection response.status then
        match response.location with
        | none => (.error (.redirectWithoutLocation current), requests)
        | some location =>
          match hopsLeft with
          | 0 => (.error (.tooManyRedirects url), requests)
          | hopsLeft + 1 =>
            match web.join current location with
            | none => (.error (.invalidUrl location), requests)
            | some next => follow web url referer accept hopsLeft next requests
      else if 400 ≤ response.status ∧ response.status < 600 then
        (.error (.status response.status), requests)
      else (.ok (response, current), requests)

/-- Reads a body up to a length; a longer one is cut off there or refused. -/
def readBody (url : String) (maxBytes : Nat) (truncate broken : Bool) :
    List (List UInt8) → List UInt8 → Except FetchError (List UInt8)
  | [], bytes => if broken then .error .transport else .ok bytes
  | chunk :: chunks, bytes =>
    if maxBytes < (bytes ++ chunk).length then
      if truncate then .ok ((bytes ++ chunk).take maxBytes) else .error (.tooLarge url)
    else readBody url maxBytes truncate broken chunks (bytes ++ chunk)

def fetchPublic (web : Web) (url referer accept : String) (maxBytes : Nat) (truncate : Bool)
    (requests : List Request) : Fetching Fetched :=
  match web.parse url with
  | none => (.error (.invalidUrl url), requests)
  | some first =>
    match follow web url referer accept maxImageRedirects first requests with
    | (.error e, requests) => (.error e, requests)
    | (.ok (response, current), requests) =>
      if !truncate && response.contentLength.any (maxBytes < ·) then (.error (.tooLarge url), requests)
      else
        match readBody url maxBytes truncate response.broken response.chunks [] with
        | .error e => (.error e, requests)
        | .ok bytes => (.ok ⟨bytes, response.contentType, current⟩, requests)

/-! ## Images -/

/-- The content type and the file extension of an image, by its first bytes. -/
def sniffImageType (bytes : List UInt8) : Option (String × String) :=
  if [0x89, 80, 78, 71] <+: bytes then some ("image/png", "png")
  else if [0xff, 0xd8, 0xff] <+: bytes then some ("image/jpeg", "jpg")
  else if [71, 73, 70, 56] <+: bytes then some ("image/gif", "gif")
  else if 12 < bytes.length ∧ bytes.take 4 = [82, 73, 70, 70] ∧
      (bytes.drop 8).take 4 = [87, 69, 66, 80] then
    some ("image/webp", "webp")
  else none

structure Image where
  bytes : List UInt8
  contentType : String
  extension : String
  deriving DecidableEq, Repr

def downloadMainImage (web : Web) (imageUrl referer : String) (requests : List Request) :
    Fetching Image :=
  match fetchPublic web imageUrl referer "image/*,*/*;q=0.8" maxMainImageBytes false requests with
  | (.error e, requests) => (.error e, requests)
  | (.ok fetched, requests) =>
    match sniffImageType fetched.bytes with
    | none => (.error (.unsupportedImage imageUrl), requests)
    | some (contentType, extension) => (.ok ⟨fetched.bytes, contentType, extension⟩, requests)

/-- The first image that can be downloaded and is not tiny. -/
def firstUsable (web : Web) (pageUrl : String) : List String → List Request → Fetching (Option Image)
  | [], requests => (.ok none, requests)
  | imageUrl :: imageUrls, requests =>
    match downloadMainImage web imageUrl pageUrl requests with
    | (.ok image, requests) =>
      if minMetadataImageBytes < image.bytes.length then (.ok (some image), requests)
      else firstUsable web pageUrl imageUrls requests
    | (.error _, requests) => firstUsable web pageUrl imageUrls requests

/-- The image that a page names in its metadata, of the first three. -/
def findMetadataImage (web : Web) (pageUrl : String) (requests : List Request) :
    Fetching (Option Image) :=
  match fetchPublic web pageUrl pageUrl "text/html,application/xhtml+xml" maxHtmlBytes true requests with
  | (.error e, requests) => (.error e, requests)
  | (.ok page, requests) =>
    if page.contentType.any fun contentType =>
        !decide ("html".toList <:+: contentType.toList.map Char.toLower) then
      (.ok none, requests)
    else firstUsable web pageUrl ((web.imageUrls page.bytes page.finalUrl).take 3) requests

/-! ## Public addresses only -/

/-- A request over HTTP that cannot reach a forbidden network. -/
structure Request.Public (request : Request) : Prop where
  scheme : request.url.scheme = "http" ∨ request.url.scheme = "https"
  address : ∀ ip ∈ request.addresses, ∀ network ∈ forbiddenV4Networks ++ forbiddenV6Networks,
    ¬ network.Contains ip

/-- The requests after a step are those before it and at most some more, which are public. -/
def Adds (atMost : Nat) (before after : List Request) : Prop :=
  ∃ added, after = before ++ added ∧ added.length ≤ atMost ∧ ∀ request ∈ added, request.Public

theorem Adds.refl (atMost : Nat) (requests : List Request) : Adds atMost requests requests :=
  ⟨[], (List.append_nil requests).symm, Nat.zero_le _, by simp⟩

theorem Adds.trans {atMost atMost' : Nat} {before between after : List Request}
    (h : Adds atMost before between) (h' : Adds atMost' between after) :
    Adds (atMost + atMost') before after := by
  obtain ⟨added, rfl, hlength, hpublic⟩ := h
  obtain ⟨added', rfl, hlength', hpublic'⟩ := h'
  refine ⟨added ++ added', List.append_assoc .., ?_, ?_⟩
  · rw [List.length_append]
    exact Nat.add_le_add hlength hlength'
  · exact fun request hmem => (List.mem_append.mp hmem).elim (hpublic request) (hpublic' request)

theorem Adds.mono {atMost atMost' : Nat} {before after : List Request} (h : Adds atMost before after)
    (hle : atMost ≤ atMost') : Adds atMost' before after := by
  obtain ⟨added, hafter, hlength, hpublic⟩ := h
  exact ⟨added, hafter, hlength.trans hle, hpublic⟩

theorem adds_singleton {request : Request} (h : request.Public) (requests : List Request) :
    Adds 1 requests (requests ++ [request]) :=
  ⟨[request], rfl, Nat.le_refl 1, fun _ hmem => List.mem_singleton.mp hmem ▸ h⟩

theorem ensurePublicHttpUrl_eq_ok {url : Url} {host : Host} (h : ensurePublicHttpUrl url = .ok host) :
    (url.scheme = "http" ∨ url.scheme = "https") ∧ ∀ ip, host = .ip ip → isForbiddenIp ip = false := by
  rw [ensurePublicHttpUrl] at h
  split at h
  · cases h
  · rename_i hscheme
    refine ⟨by tauto, ?_⟩
    split at h
    · cases h
    · split at h
      · cases h
      · rename_i ip _ hpublic
        cases h
        rintro _ ⟨⟩
        exact Bool.eq_false_iff.mpr hpublic
    · cases h
      rintro _ ⟨⟩

/-- Whatever a name resolves to, no forbidden address is left. -/
theorem resolve_eq_ok {web : Web} {requests : Nat} {host : Host} {addresses : List IpAddr}
    (h : resolve web requests host = .ok addresses)
    (hhost : ∀ ip, host = .ip ip → isForbiddenIp ip = false) :
    ∀ ip ∈ addresses, isForbiddenIp ip = false := by
  cases host with
  | ip ip =>
    cases h
    intro ip' hmem
    rw [List.mem_singleton.mp hmem]
    exact hhost ip rfl
  | domain name =>
    rw [resolve] at h
    split at h
    · cases h
    · dsimp only at h
      split at h
      · cases h
      · cases h
        intro ip hmem
        simpa using (List.mem_filter.mp hmem).2

theorem public_of_isForbiddenIp {request : Request}
    (hscheme : request.url.scheme = "http" ∨ request.url.scheme = "https")
    (h : ∀ ip ∈ request.addresses, isForbiddenIp ip = false) : request.Public where
  scheme := hscheme
  address ip hip network hnetwork hcontains := by
    have hforbidden := isForbiddenIp_iff.mpr ⟨network, hnetwork, hcontains⟩
    rw [h ip hip] at hforbidden
    cases hforbidden

section

variable {web : Web}

theorem adds_send (web : Web) (referer accept : String) (current : Url) (requests : List Request) :
    Adds 1 requests (send web referer accept current requests).2 := by
  rw [send]
  split
  · exact .refl _ _
  · rename_i host hensured
    obtain ⟨hscheme, hhost⟩ := ensurePublicHttpUrl_eq_ok hensured
    split
    · exact adds_singleton (public_of_isForbiddenIp hscheme (by simp)) requests
    · rename_i addresses hresolved
      have hpublic : Request.Public ⟨current, referer, accept, addresses⟩ :=
        public_of_isForbiddenIp hscheme (resolve_eq_ok hresolved hhost)
      split <;> exact adds_singleton hpublic requests

/-- Every redirect leads to a public address, or is not followed. -/
theorem adds_follow (web : Web) (url referer accept : String) (hopsLeft : Nat) (current : Url)
    (requests : List Request) :
    Adds (hopsLeft + 1) requests (follow web url referer accept hopsLeft current requests).2 := by
  induction hopsLeft generalizing current requests with
  | zero =>
    have hsend := adds_send (web) referer accept current requests
    rw [follow]
    split
    · rename_i heq
      rwa [heq] at hsend
    · rename_i response requests' heq
      rw [heq] at hsend
      split
      · split <;> exact hsend
      · split <;> exact hsend
  | succ hopsLeft ih =>
    have hsend := adds_send (web) referer accept current requests
    have hstop := hsend.mono (show 1 ≤ hopsLeft + 1 + 1 by omega)
    rw [follow]
    split
    · rename_i heq
      rwa [heq] at hstop
    · rename_i response requests' heq
      rw [heq] at hsend hstop
      split
      · split
        · exact hstop
        · dsimp only
          split
          · exact hstop
          · rename_i next _
            have hnext := hsend.trans (ih next requests')
            rwa [Nat.add_comm 1] at hnext
      · split <;> exact hstop

theorem length_readBody {url : String} {maxBytes : Nat} {truncate broken : Bool}
    {chunks : List (List UInt8)} {bytes body : List UInt8} (hbytes : bytes.length ≤ maxBytes)
    (h : readBody url maxBytes truncate broken chunks bytes = .ok body) : body.length ≤ maxBytes := by
  induction chunks generalizing bytes with
  | nil =>
    rw [readBody] at h
    split at h
    · cases h
    · cases h
      exact hbytes
  | cons chunk chunks ih =>
    rw [readBody] at h
    split at h
    · split at h
      · cases h
        rw [List.length_take]
        exact Nat.min_le_left _ _
      · cases h
    · rename_i hshort
      exact ih (Nat.le_of_not_lt hshort) h

/-- A fetch makes at most six requests, all of them public, and reads no more than it may. -/
theorem fetchPublic_spec (web : Web) (url referer accept : String) (maxBytes : Nat) (truncate : Bool)
    (requests : List Request) :
    Adds 6 requests (fetchPublic web url referer accept maxBytes truncate requests).2 ∧
      ∀ fetched, (fetchPublic web url referer accept maxBytes truncate requests).1 = .ok fetched →
        fetched.bytes.length ≤ maxBytes := by
  rw [fetchPublic]
  split
  · exact ⟨.refl _ _, by simp⟩
  · rename_i first hparse
    have hfollow := adds_follow (web) url referer accept maxImageRedirects first requests
    split
    · rename_i heq
      rw [heq] at hfollow
      exact ⟨hfollow, by simp⟩
    · rename_i response current requests' heq
      rw [heq] at hfollow
      split
      · exact ⟨hfollow, by simp⟩
      · split
        · exact ⟨hfollow, by simp⟩
        · rename_i bytes hbody
          refine ⟨hfollow, ?_⟩
          rintro _ ⟨⟩
          have hnil : ([] : List UInt8).length ≤ maxBytes := Nat.zero_le maxBytes
          exact length_readBody hnil hbody

/-- An image of a supported format within the size limit. -/
structure Image.Supported (image : Image) : Prop where
  sniffed : sniffImageType image.bytes = some (image.contentType, image.extension)
  size : image.bytes.length ≤ maxMainImageBytes

theorem downloadMainImage_spec (web : Web) (imageUrl referer : String) (requests : List Request) :
    Adds 6 requests (downloadMainImage web imageUrl referer requests).2 ∧
      ∀ image, (downloadMainImage web imageUrl referer requests).1 = .ok image → image.Supported := by
  obtain ⟨hadds, hsize⟩ := fetchPublic_spec web imageUrl referer "image/*,*/*;q=0.8"
    maxMainImageBytes false requests
  rw [downloadMainImage]
  split
  · rename_i heq
    rw [heq] at hadds
    exact ⟨hadds, by simp⟩
  · rename_i fetched requests' heq
    rw [heq] at hadds hsize
    split
    · exact ⟨hadds, by simp⟩
    · rename_i contentType extension hsniff
      refine ⟨hadds, ?_⟩
      rintro _ ⟨⟩
      exact ⟨hsniff, hsize fetched rfl⟩

theorem firstUsable_spec (web : Web) (pageUrl : String) (imageUrls : List String)
    (requests : List Request) :
    Adds (6 * imageUrls.length) requests (firstUsable web pageUrl imageUrls requests).2 ∧
      ∀ image, (firstUsable web pageUrl imageUrls requests).1 = .ok (some image) →
        image.Supported ∧ minMetadataImageBytes < image.bytes.length := by
  induction imageUrls generalizing requests with
  | nil => exact ⟨.refl _ _, by simp [firstUsable]⟩
  | cons imageUrl imageUrls ih =>
    obtain ⟨hadds, himage⟩ := downloadMainImage_spec web imageUrl pageUrl requests
    rw [firstUsable]
    split
    · rename_i image requests' heq
      rw [heq] at hadds himage
      split
      · rename_i hlarge
        refine ⟨hadds.mono (by rw [List.length_cons]; omega), ?_⟩
        rintro _ ⟨⟩
        exact ⟨himage image rfl, hlarge⟩
      · exact ⟨(hadds.trans (ih requests').1).mono (by rw [List.length_cons]; omega), (ih requests').2⟩
    · rename_i requests' heq
      rw [heq] at hadds
      exact ⟨(hadds.trans (ih requests').1).mono (by rw [List.length_cons]; omega), (ih requests').2⟩

/-- Whatever a page names as its image, and wherever names and redirects lead, at most 24 requests are
made for it and none can reach a forbidden network; an image that is found is a supported one of a
reasonable size. -/
theorem findMetadataImage_spec (web : Web) (pageUrl : String) (requests : List Request) :
    Adds 24 requests (findMetadataImage web pageUrl requests).2 ∧
      ∀ image, (findMetadataImage web pageUrl requests).1 = .ok (some image) →
        image.Supported ∧ minMetadataImageBytes < image.bytes.length := by
  have hadds := (fetchPublic_spec web pageUrl pageUrl "text/html,application/xhtml+xml" maxHtmlBytes
    true requests).1
  rw [findMetadataImage]
  split
  · rename_i heq
    rw [heq] at hadds
    exact ⟨hadds.mono (by omega), by simp⟩
  · rename_i page requests' heq
    rw [heq] at hadds
    split
    · exact ⟨hadds.mono (by omega), by simp⟩
    · have hfirst := firstUsable_spec web pageUrl ((web.imageUrls page.bytes page.finalUrl).take 3)
        requests'
      have hthree : ((web.imageUrls page.bytes page.finalUrl).take 3).length ≤ 3 := List.length_take_le ..
      exact ⟨(hadds.trans hfirst.1).mono (by omega), hfirst.2⟩

end

end Rellm.Previews
