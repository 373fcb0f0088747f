import Mathlib.Data.List.DropRight
import Rellm.Destinations.Crosspost

/-!
# What a push may show

A message for another platform is to be made only of posts that its caller could read here. A push
that a check ends is to hand nothing over, and what the caller cannot see is to change nothing that
is handed over.
-/

namespace Rellm.Destinations

open Foundation Content Calendar Posts Events

/-- A request to push a post or an occasion. -/
inductive PushRequest where
  | post (request : SyncPostRequest)
  | occasion (request : SyncOccasionRequest)
  deriving DecidableEq, Repr

/-- A post that a message is made of, with the location that belongs to it. -/
structure Source where
  post : Post
  location : Option Content.Location
  deriving DecidableEq, Repr

/-- Nothing of the source can be in a message. -/
def Source.bare (source : Source) : Bool :=
  source.post.title.isNone && source.post.content.isNone && source.post.link.isNone &&
    source.post.media.isEmpty && source.location.isNone

/-- What an edit of a post changes that a message may show. -/
structure PostContent where
  title : Option String
  content : Option String
  link : Option String
  media : List Nat
  deriving DecidableEq, Repr

def PostContent.write (content : PostContent) (post : Post) : Post :=
  { post with
    title := content.title
    content := content.content
    link := content.link
    media := content.media }

theorem PostContent.write_id (content : PostContent) (post : Post) :
    (content.write post).id = post.id := rfl

/-- The content of one post is changed. -/
def PushState.withContent (s : PushState) (id : Nat) (content : PostContent) : PushState :=
  { s with content := { s.content with
    posts := s.content.posts.modify id content.write content.write_id } }

/-- Whether the server knows its host, so that media can be attached. -/
def PushState.attachesMedia (s : PushState) : Bool :=
  (given (s.externalCdnConfig.map (·.backendHost))).isSome

section

variable {Zone : Type} (rendering : Rendering Zone) (search : TextSearch) (now : Instant)
  (s : PushState) (user : Content.User)

/-- A post is among what `GetPosts` or `GetEvents` returns to a user. -/
def ReturnedTo (db : ContentDb) (post : Post) : Prop :=
  (∃ request replies reply, getPosts db (some user) search now request = .ok replies ∧
    reply ∈ replies ∧ reply.Shows post) ∨
  ∃ request replies reply, getEvents db (some user) search request = .ok replies ∧
    reply ∈ replies ∧ (reply.post = post ∨ ∃ occasion ∈ reply.occasions, occasion.post = post)

namespace PushRequest

def prepare : PushRequest → Except Status Prepared
  | .post request => preparePost rendering s user request
  | .occasion request => prepareOccasion rendering s user request

/-- Reading the content back. -/
def reload (postId : Nat) : PushRequest → Except Status Unit
  | .post _ => (reloadPost search now s user postId).map fun _ => ()
  | .occasion _ => (reloadOccasion search s user postId).map fun _ => ()

/-- The posts that a message is made of. -/
def sources : PushRequest → List Source
  | .post request =>
    match loadPost s request with
    | .ok found => [⟨found, none⟩]
    | .error _ => []
  | .occasion request =>
    match loadOccasion s request with
    | .ok loaded => [⟨loaded.eventPost, none⟩, ⟨loaded.occasionPost, loaded.occasion.location⟩]
    | .error _ => []

/-- The id of what is pushed. -/
def postId : PushRequest → Option Nat
  | .post request => request.postId
  | .occasion request => request.occasionId

def loadDestination : PushRequest → Except Status (SyncDestination × Configuration)
  | .post request => Destinations.loadDestination s user (·.posts) request.syncDestinationId
  | .occasion request => Destinations.loadDestination s user (·.events) request.syncDestinationId

/-- The platform that a call can reach, whatever the content says: the caller may use the
destination, it is configured, and Instagram can be given media. -/
def reaches (request : PushRequest) : Option Configuration :=
  match request.loadDestination s user with
  | .ok (destination, configuration) =>
    if checkStored s.apps destination.configuration configuration = .ok () ∧
        (configuration.takesText = true ∨ s.attachesMedia = true) then some configuration
    else none
  | .error _ => none

end PushRequest

/-- `SyncPost` or `SyncOccasion`. -/
def push (answer : PlatformAnswer) : PushRequest → Push Unit
  | .post request => (syncPost rendering search now s user answer request).discard
  | .occasion request => (syncOccasion rendering search s user answer request).discard

/-- A push hands over nothing that its caller may not read. -/
structure LeaksNothing (request : PushRequest) : Prop where
  returned : ∀ answer message,
    (push rendering search now s user answer request).handed = some message →
    ∀ source ∈ request.sources s, source.bare = false →
      ReturnedTo search now user s.content source.post
  checked : ∀ answer reply,
    (push rendering search now s user answer request).result = .error (.check reply) →
      (push rendering search now s user answer request).handed = none
  unseen : ∀ post ∈ s.content.posts.rows, ¬ ReturnedTo search now user s.content post →
    ∀ content answer,
      (push rendering search now (s.withContent post.id content) user answer request).handed =
        (push rendering search now s user answer request).handed

/-- Where a call can reach a platform, its caller can read the posts, and where there is something
to hand over, the content can be read back. -/
def Readable (request : PushRequest) : Prop :=
  ∀ configuration ∈ request.reaches s user,
    (∀ source ∈ request.sources s, ReturnedTo search now user s.content source.post) ∧
    (request.sources s ≠ [] →
      (configuration.takesText = true ∨ ∃ source ∈ request.sources s, source.post.media ≠ []) →
        ∀ postId ∈ request.postId, request.reload search now s user postId = .ok ())

end

/-! ### What is handed over -/

section

variable {Zone ρ : Type} {rendering : Rendering Zone} {search : TextSearch} {now : Instant}
  {s : PushState} {user : Content.User} {apps : PlatformApps} {answer : PlatformAnswer}
  {prepared : Except Status Prepared} {reload : Nat → Except Status ρ} {message : SyncMessage}

theorem handed_handOver {destination : SyncDestination} {configuration : Configuration} :
    (handOver apps answer destination configuration message).handed =
      if checkConnector apps destination configuration message = .ok () ∧ answer.refusal = none then
        some message
      else none := by
  unfold handOver
  split
  · rename_i reply hcheck
    rw [hcheck, if_neg (fun h => nomatch h.1)]
  · rename_i hrefusal
    rw [hrefusal, if_neg (fun h => nomatch h.2)]
  · rename_i hcheck hrefusal
    rw [if_pos ⟨hcheck, hrefusal⟩]

/-- What is handed over was prepared and passes the checks of its connector. -/
theorem handed_pushed :
    (pushed apps answer prepared reload).handed = some message ↔
      ∃ ready, prepared = .ok ready ∧ ready.message = message ∧
        checkConnector apps ready.destination ready.configuration message = .ok () ∧
        answer.refusal = none := by
  unfold pushed
  cases prepared with
  | error reply => simp
  | ok ready =>
    dsimp only
    rw [handed_handOver]
    constructor
    · intro h
      split at h
      · rename_i hready
        cases h
        exact ⟨ready, rfl, rfl, hready⟩
      · cases h
    · rintro ⟨_, ⟨⟩, rfl, hready⟩
      rw [if_pos hready]

/-- What was handed over is refused by a check only where the content is read back. -/
theorem reload_of_checked {reply : Status} {ready : Prepared} (hready : prepared = .ok ready)
    (hhanded : (pushed apps answer prepared reload).handed = some message)
    (h : (pushed apps answer prepared reload).result = .error (.check reply)) :
    reload ready.postId = .error reply := by
  obtain ⟨_, hready', rfl, hcheck, hrefusal⟩ := handed_pushed.mp hhanded
  rw [hready] at hready'
  cases hready'
  rw [hready] at h
  simp only [pushed, handOver, hcheck, hrefusal, checks_eq_error] at h
  rcases h with h | ⟨_, _, h⟩
  · cases hposted : answer.posted ready.message <;> rw [hposted] at h <;> cases h
  · cases hreload : reload ready.postId with
    | ok _ =>
      rw [hreload] at h
      cases h
    | error _ =>
      rw [hreload] at h
      cases h
      rfl

/-- A platform that takes everything. -/
def accepting : PlatformAnswer := ⟨none, fun _ => .ok ("", "")⟩

/-- If the platform takes everything, a push succeeds if the content can be read back. -/
theorem reload_of_accepting {ready : Prepared} (hready : prepared = .ok ready)
    (hcheck : checkConnector apps ready.destination ready.configuration ready.message = .ok ())
    {reply : Status} (h : reload ready.postId = .error reply) :
    (pushed apps accepting prepared reload).result = .error (.check reply) := by
  rw [hready]
  simp only [pushed, handOver, hcheck, accepting, h]
  rfl

theorem discard_pushed :
    (pushed apps answer prepared reload).discard =
      pushed apps answer prepared fun postId => (reload postId).map fun _ => () := by
  unfold pushed Push.discard
  cases prepared with
  | error reply => rfl
  | ok ready =>
    dsimp only
    congr 1
    cases (handOver apps answer ready.destination ready.configuration ready.message).result with
    | error reply => rfl
    | ok posted =>
      cases reload ready.postId <;> simp [bind, Except.bind, Except.map, Except.mapError]

theorem push_eq (request : PushRequest) :
    push rendering search now s user answer request =
      pushed s.apps answer (request.prepare rendering s user) fun postId =>
        request.reload search now s user postId := by
  cases request <;> exact discard_pushed

end

/-! ### What a message is made of -/

/-- A text with a character that is no whitespace is not blank. -/
theorem given_eq_some {text : String} {c : Char} (hmem : c ∈ text.toList)
    (hc : isWhitespace c = false) : given (some text) = some text := by
  have hne : trim text ≠ "" := by
    intro h
    have hnil : (text.toList.dropWhile isWhitespace).rdropWhile isWhitespace = [] := by
      unfold trim at h
      rw [← String.toList_inj, String.toList_ofList] at h
      exact h
    rw [List.rdropWhile_eq_nil_iff] at hnil
    have hall : isWhitespace c = true := by
      rw [← List.takeWhile_append_dropWhile (p := isWhitespace) (l := text.toList),
        List.mem_append] at hmem
      rcases hmem with hmem | hmem
      · exact List.mem_takeWhile_imp hmem
      · exact hnil c hmem
    rw [hc] at hall
    cases hall
  rw [given, Option.filter_some, if_pos (decide_eq_true hne)]

/-- The first line is the start of the text. -/
theorem joinLines_cons (lines : List String) :
    ∃ tail, ∀ first, joinLines (first :: lines) = first ++ tail := by
  cases lines with
  | nil => exact ⟨"", fun first => by simp [joinLines]⟩
  | cons next lines =>
    exact ⟨"\n\n" ++ joinLines (next :: lines), fun first => by
      simp [joinLines, String.append_assoc]⟩

theorem trimmed_some {text : String} (htrim : trim text = text) (hne : text ≠ "") :
    ((some text).map trim).filter (· ≠ "") = some text := by
  rw [Option.map_some, htrim, Option.filter_some, if_pos (decide_eq_true hne)]

/-- A text that is not blank stands before the other one. -/
theorem combine_some_left (secondary : Option String) (separator : String) :
    ∃ tail, ∀ text, trim text = text → text ≠ "" →
      combine (some text) secondary separator = some (text ++ tail) := by
  unfold combine
  cases (secondary.map trim).filter (· ≠ "") with
  | none =>
    refine ⟨"", fun text htrim hne => ?_⟩
    rw [trimmed_some htrim hne, String.append_empty]
  | some other =>
    refine ⟨separator ++ other, fun text htrim hne => ?_⟩
    rw [trimmed_some htrim hne, ← String.append_assoc]

/-- A text that is not blank stands after the other one. -/
theorem combine_some_right (primary : Option String) (separator : String) :
    ∃ lead, ∀ text, trim text = text → text ≠ "" →
      combine primary (some text) separator = some (lead ++ text) := by
  unfold combine
  cases (primary.map trim).filter (· ≠ "") with
  | none =>
    refine ⟨"", fun text htrim hne => ?_⟩
    rw [trimmed_some htrim hne, String.empty_append]
  | some other =>
    refine ⟨other ++ separator, fun text htrim hne => ?_⟩
    rw [trimmed_some htrim hne]

/-- A title that may have been edited. -/
def titled (edited : Bool) (text : String) (title : Option String) : Option String :=
  if edited then some text else title

/-- Two titles of an event or of an occasion give different titles of the message. -/
theorem combineTitle_titled {event occasion : Bool} (h : event = true ∨ occasion = true)
    (eventTitle occasionTitle : Option String) :
    ∃ first second,
      given (combineTitle (titled event "a" eventTitle) (titled occasion "a" occasionTitle)) =
        some first ∧
      given (combineTitle (titled event "b" eventTitle) (titled occasion "b" occasionTitle)) =
        some second ∧ first ≠ second := by
  have ha : trim "a" = "a" := by decide +kernel
  have hb : trim "b" = "b" := by decide +kernel
  cases event with
  | true =>
    cases occasion with
    | true =>
      refine ⟨"a: a", "b: b", ?_, ?_, by decide⟩
      · show given (combineTitle (some "a") (some "a")) = _
        decide +kernel
      · show given (combineTitle (some "b") (some "b")) = _
        decide +kernel
    | false =>
      obtain ⟨tail, htail⟩ := combine_some_left occasionTitle ": "
      refine ⟨"a" ++ tail, "b" ++ tail, ?_, ?_, ?_⟩
      · exact (congrArg given (htail "a" ha (by decide))).trans
          (given_eq_some (c := 'a') (by simp) (by decide))
      · exact (congrArg given (htail "b" hb (by decide))).trans
          (given_eq_some (c := 'b') (by simp) (by decide))
      · rw [Ne, String.append_left_inj]
        decide
  | false =>
    obtain rfl : occasion = true := h.resolve_left (by decide)
    obtain ⟨lead, hlead⟩ := combine_some_right eventTitle ": "
    refine ⟨lead ++ "a", lead ++ "b", ?_, ?_, ?_⟩
    · exact (congrArg given (hlead "a" ha (by decide))).trans
        (given_eq_some (c := 'a') (by simp) (by decide))
    · exact (congrArg given (hlead "b" hb (by decide))).trans
        (given_eq_some (c := 'b') (by simp) (by decide))
    · rw [Ne, String.append_right_inj]
      decide

section

variable {Zone : Type} {rendering : Rendering Zone} {search : TextSearch} {now : Instant}
  {s : PushState} {user : Content.User}

/-- The edits that tell whether a post is in a message. -/
def probe (title : String) : PostContent := ⟨some title, none, none, [0]⟩

/-- A source after an edit of a post. -/
def Source.edited (id : Nat) (content : PostContent) (source : Source) : Source :=
  if source.post.id = id then { source with post := content.write source.post } else source

theorem postMessage_probe (post : Post) :
    ∃ tail, ∀ title, given (some title) = some title →
      (postMessage rendering s.externalCdnConfig s.contentTypes
        ((probe title).write post)).text = title ++ tail := by
  obtain ⟨tail, htail⟩ := joinLines_cons
    ((((given (frontendUrl rendering s.externalCdnConfig "/post/" post.id)).or (given none)).map
      fun link => "View post: " ++ link).toList)
  refine ⟨tail, fun title htitle => ?_⟩
  rw [← htail title]
  simp only [postMessage, buildPostMessage, probe, PostContent.write, htitle]
  rfl

/-- A post after the edit, if it is the one that is edited. -/
def probed (edited : Bool) (title : String) (post : Post) : Post :=
  if edited then (probe title).write post else post

theorem probed_title (edited : Bool) (title : String) (post : Post) :
    (probed edited title post).title = titled edited title post.title := by
  cases edited <;> rfl

theorem probed_content (edited : Bool) (title : String) (post : Post) :
    (probed edited title post).content = if edited then none else post.content := by
  cases edited <;> rfl

theorem probed_link (edited : Bool) (title : String) (post : Post) :
    (probed edited title post).link = if edited then none else post.link := by
  cases edited <;> rfl

theorem occasionMessage_probe {event occasion : Bool} (h : event = true ∨ occasion = true)
    (row : Occasion) (occasionPost eventPost : Post) :
    (occasionMessage rendering s.externalCdnConfig s.contentTypes row
        (probed occasion "a" occasionPost) (probed event "a" eventPost)).text ≠
      (occasionMessage rendering s.externalCdnConfig s.contentTypes row
        (probed occasion "b" occasionPost) (probed event "b" eventPost)).text := by
  obtain ⟨first, second, ha, hb, hne⟩ :=
    combineTitle_titled h eventPost.title occasionPost.title
  -- The lines after the title are those of either edit.
  obtain ⟨lines, hlines⟩ : ∃ lines, ∀ title,
      (occasionMessage rendering s.externalCdnConfig s.contentTypes row
        (probed occasion title occasionPost) (probed event title eventPost)).text =
      joinLines ((given (combineTitle (titled event title eventPost.title)
        (titled occasion title occasionPost.title))).toList ++ lines) := by
    exact ⟨_, fun title => by
      simp only [occasionMessage, buildOccasionMessage, probed_title, probed_content, probed_link,
        List.append_assoc]
      rfl⟩
  obtain ⟨tail, htail⟩ := joinLines_cons lines
  rw [hlines, hlines, ha, hb, Option.toList_some, Option.toList_some, List.singleton_append,
    List.singleton_append, htail, htail, Ne, String.append_left_inj]
  exact hne

/-! ### Loading after an edit -/

variable {id : Nat} {content : PostContent}

/-- A post after the edit of the post with an id. -/
def PostContent.writeAt (content : PostContent) (id : Nat) (post : Post) : Post :=
  if post.id = id then content.write post else post

theorem get_withContent (postId : Nat) :
    (s.withContent id content).content.posts.get postId =
      (s.content.posts.get postId).map (content.writeAt id) := by
  refine (Serial.get_modify ..).trans ?_
  cases hget : s.content.posts.get postId with
  | none => simp
  | some post =>
    simp only [Option.map_some, PostContent.writeAt, Table.key_of_get hget]
    split <;> rfl

theorem okOr_map {ε α β : Type} (value : Option α) (e : ε) (f : α → β) :
    okOr (value.map f) e = f <$> okOr value e := by
  cases value <;> rfl

theorem loadPost_withContent (request : SyncPostRequest) :
    loadPost (s.withContent id content) request =
      content.writeAt id <$> loadPost s request := by
  unfold loadPost
  simp only [get_withContent, okOr_map, map_bind]

theorem loadOccasion_withContent (request : SyncOccasionRequest) :
    loadOccasion (s.withContent id content) request =
      (fun loaded : LoadedOccasion => { loaded with
        occasionPost := content.writeAt id loaded.occasionPost
        eventPost := content.writeAt id loaded.eventPost }) <$> loadOccasion s request := by
  unfold loadOccasion
  have hoccasions (occasionId : Nat) : (s.withContent id content).content.occasions.get occasionId =
      s.content.occasions.get occasionId := rfl
  have hevents (eventId : Nat) : (s.withContent id content).content.events.get eventId =
      s.content.events.get eventId := rfl
  simp only [get_withContent, okOr_map, hoccasions, hevents, map_bind, bind_map_left, map_pure]

/-! ### What a call can reach -/

variable {request : PushRequest} {configuration : Configuration} {ready : Prepared}

theorem PushRequest.reaches_eq_some :
    request.reaches s user = some configuration ↔
      ∃ destination, request.loadDestination s user = .ok (destination, configuration) ∧
        checkStored s.apps destination.configuration configuration = .ok () ∧
        (configuration.takesText = true ∨ s.attachesMedia = true) := by
  unfold PushRequest.reaches
  cases request.loadDestination s user with
  | error _ => simp
  | ok loaded =>
    obtain ⟨destination, other⟩ := loaded
    simp only [Except.ok.injEq, Prod.mk.injEq]
    split
    · rename_i h
      constructor
      · rintro ⟨⟩
        exact ⟨destination, ⟨rfl, rfl⟩, h⟩
      · rintro ⟨_, ⟨rfl, rfl⟩, _⟩
        rfl
    · rename_i h
      constructor
      · rintro ⟨⟩
      · rintro ⟨_, ⟨rfl, rfl⟩, hready⟩
        exact absurd hready h

theorem PushRequest.reaches_withContent :
    request.reaches (s.withContent id content) user = request.reaches s user := by
  cases request <;> rfl

theorem attachments_ne_nil {contentTypes : Nat → Option String} {mediaIds : List Nat} :
    attachments rendering s.externalCdnConfig contentTypes mediaIds ≠ [] ↔
      s.attachesMedia = true ∧ mediaIds ≠ [] := by
  unfold attachments PushState.attachesMedia
  cases given (s.externalCdnConfig.map (·.backendHost)) <;> simp

theorem combineMedia_ne_nil {eventMedia occasionMedia : List Nat} :
    combineMedia eventMedia occasionMedia ≠ [] ↔ eventMedia ≠ [] ∨ occasionMedia ≠ [] := by
  unfold combineMedia
  induction occasionMedia generalizing eventMedia with
  | nil => simp
  | cons id occasionMedia ih =>
    rw [List.foldl_cons, ih]
    split
    · rename_i hmem
      simp [List.ne_nil_of_mem hmem]
    · simp

/-- What was prepared goes where the call can reach, and has media where its posts have. -/
theorem PushRequest.prepare_eq_ok (h : request.prepare rendering s user = .ok ready) :
    request.loadDestination s user = .ok (ready.destination, ready.configuration) ∧
      request.sources s ≠ [] ∧ request.postId = some ready.postId ∧
      (ready.message.media ≠ [] ↔
        s.attachesMedia = true ∧ ∃ source ∈ request.sources s, source.post.media ≠ []) := by
  cases request with
  | post request =>
    obtain ⟨found, hfound, ⟨destination, configuration⟩, hdestination, h⟩ := by
      simpa only [PushRequest.prepare, preparePost, checks_eq_ok] using h
    cases h
    have hsources : (PushRequest.post request).sources s = [⟨found, none⟩] := by
      simp only [PushRequest.sources, hfound]
    refine ⟨hdestination, by rw [hsources]; exact List.cons_ne_nil _ _, ?_, ?_⟩
    · simp only [loadPost, checks_eq_ok, okOr_eq_ok] at hfound
      obtain ⟨postId, hpostId, _, _, hget⟩ := hfound
      exact hpostId.trans (congrArg some (Table.key_of_get hget).symm)
    · rw [hsources]
      simpa [postMessage, buildPostMessage] using attachments_ne_nil
  | occasion request =>
    obtain ⟨loaded, hloaded, ⟨destination, configuration⟩, hdestination, h⟩ := by
      simpa only [PushRequest.prepare, prepareOccasion, checks_eq_ok] using h
    cases h
    have hsources : (PushRequest.occasion request).sources s =
        [⟨loaded.eventPost, none⟩, ⟨loaded.occasionPost, loaded.occasion.location⟩] := by
      simp only [PushRequest.sources, hloaded]
    refine ⟨hdestination, by rw [hsources]; exact List.cons_ne_nil _ _, ?_, ?_⟩
    · simp only [loadOccasion, checks_eq_ok, okOr_eq_ok] at hloaded
      obtain ⟨occasionId, hoccasionId, _, _, occasion, hget, _, _, _, _, _, _, hloaded⟩ := hloaded
      cases hloaded
      exact hoccasionId.trans (congrArg some (Table.key_of_get hget).symm)
    · rw [hsources]
      have hmedia : attachments rendering s.externalCdnConfig s.contentTypes
          (combineMedia loaded.eventPost.media loaded.occasionPost.media) ≠ [] ↔
          s.attachesMedia = true ∧
            combineMedia loaded.eventPost.media loaded.occasionPost.media ≠ [] :=
        attachments_ne_nil
      rw [combineMedia_ne_nil] at hmedia
      simpa [occasionMessage, buildOccasionMessage] using hmedia

theorem PushRequest.exists_prepare (hsources : request.sources s ≠ [])
    {destination : SyncDestination}
    (hdestination : request.loadDestination s user = .ok (destination, configuration)) :
    ∃ ready, request.prepare rendering s user = .ok ready := by
  cases request with
  | post request =>
    cases hfound : loadPost s request with
    | error _ => simp [PushRequest.sources, hfound] at hsources
    | ok found =>
      refine ⟨⟨found.id, destination, configuration,
        postMessage rendering s.externalCdnConfig s.contentTypes found⟩, ?_⟩
      simp only [PushRequest.prepare, preparePost, checks_eq_ok]
      exact ⟨found, hfound, _, hdestination, rfl⟩
  | occasion request =>
    cases hloaded : loadOccasion s request with
    | error _ => simp [PushRequest.sources, hloaded] at hsources
    | ok loaded =>
      refine ⟨⟨loaded.occasion.postId, destination, configuration, occasionMessage rendering
        s.externalCdnConfig s.contentTypes loaded.occasion loaded.occasionPost
        loaded.eventPost⟩, ?_⟩
      simp only [PushRequest.prepare, prepareOccasion, checks_eq_ok]
      exact ⟨loaded, hloaded, _, hdestination, rfl⟩

theorem checkConnector_eq_ok {apps : PlatformApps} {destination : SyncDestination}
    {message : SyncMessage} :
    checkConnector apps destination configuration message = .ok () ↔
      (configuration.takesText = true ∨ message.media ≠ []) ∧
        checkStored apps destination.configuration configuration = .ok () := by
  simp [checkConnector]

/-- What is handed over goes to a platform that the call can reach. -/
theorem reaches_of_handed {answer : PlatformAnswer} {message : SyncMessage}
    (h : (push rendering search now s user answer request).handed = some message) :
    ∃ ready, request.prepare rendering s user = .ok ready ∧ ready.message = message ∧
      request.reaches s user = some ready.configuration ∧
      (ready.configuration.takesText = true ∨
        ∃ source ∈ request.sources s, source.post.media ≠ []) := by
  rw [push_eq, handed_pushed] at h
  obtain ⟨ready, hready, rfl, hcheck, -⟩ := h
  obtain ⟨hdestination, -, -, hmedia⟩ := PushRequest.prepare_eq_ok hready
  obtain ⟨htext, hstored⟩ := checkConnector_eq_ok.mp hcheck
  refine ⟨ready, hready, rfl, ?_, htext.imp_right fun h => (hmedia.mp h).2⟩
  exact PushRequest.reaches_eq_some.mpr
    ⟨_, hdestination, hstored, htext.imp_right fun h => (hmedia.mp h).1⟩

/-- A platform that takes everything is handed what was prepared. -/
theorem handed_of_reaches (hreaches : request.reaches s user = some configuration)
    (hready : request.prepare rendering s user = .ok ready)
    (hmedia : configuration.takesText = true ∨
      ∃ source ∈ request.sources s, source.post.media ≠ []) :
    checkConnector s.apps ready.destination ready.configuration ready.message = .ok () ∧
      (push rendering search now s user accepting request).handed = some ready.message := by
  obtain ⟨destination, hdestination, hstored, hattaches⟩ := PushRequest.reaches_eq_some.mp hreaches
  obtain ⟨hdestination', -, -, hmessage⟩ := PushRequest.prepare_eq_ok hready
  rw [hdestination] at hdestination'
  cases hdestination'
  have hcheck : checkConnector s.apps ready.destination ready.configuration ready.message =
      .ok () := by
    refine checkConnector_eq_ok.mpr ⟨?_, hstored⟩
    rcases hattaches with htext | hattaches
    · exact .inl htext
    · exact hmedia.imp_right fun h => hmessage.mpr ⟨hattaches, h⟩
  refine ⟨hcheck, ?_⟩
  rw [push_eq, handed_pushed]
  exact ⟨ready, hready, rfl, hcheck, rfl⟩

/-! ### Edits of what is pushed -/

theorem PushRequest.sources_withContent :
    request.sources (s.withContent id content) = (request.sources s).map fun source =>
      { source with post := content.writeAt id source.post } := by
  cases request with
  | post request =>
    simp only [PushRequest.sources, loadPost_withContent]
    cases loadPost s request <;> rfl
  | occasion request =>
    simp only [PushRequest.sources, loadOccasion_withContent]
    cases loadOccasion s request <;> rfl

/-- What is pushed was stored. -/
theorem PushRequest.stored_of_mem_sources {source : Source} (h : source ∈ request.sources s) :
    s.content.posts.get source.post.id = some source.post := by
  have hget {postId : Nat} {post : Post} (h : s.content.posts.get postId = some post) :
      s.content.posts.get post.id = some post :=
    (congrArg s.content.posts.get (Table.key_of_get h)).trans h
  cases request with
  | post request =>
    cases hfound : loadPost s request with
    | error _ => simp [PushRequest.sources, hfound] at h
    | ok found =>
      simp only [PushRequest.sources, hfound, List.mem_singleton] at h
      simp only [loadPost, checks_eq_ok, okOr_eq_ok] at hfound
      obtain ⟨_, _, _, _, hfound⟩ := hfound
      rw [h]
      exact hget hfound
  | occasion request =>
    cases hloaded : loadOccasion s request with
    | error _ => simp [PushRequest.sources, hloaded] at h
    | ok loaded =>
      simp only [PushRequest.sources, hloaded, List.mem_cons, List.not_mem_nil, or_false] at h
      simp only [loadOccasion, checks_eq_ok, okOr_eq_ok] at hloaded
      obtain ⟨_, _, _, _, _, _, _, hoccasionPost, _, _, _, heventPost, hloaded⟩ := hloaded
      cases hloaded
      rcases h with rfl | rfl
      · exact hget heventPost
      · exact hget hoccasionPost

/-- An edit of a post that is not pushed changes nothing that is prepared. -/
theorem PushRequest.prepare_withContent
    (h : ∀ source ∈ request.sources s, source.post.id ≠ id) :
    request.prepare rendering (s.withContent id content) user =
      request.prepare rendering s user := by
  cases request with
  | post request =>
    have hload : loadPost (s.withContent id content) request = loadPost s request := by
      rw [loadPost_withContent]
      cases hfound : loadPost s request with
      | error _ => rfl
      | ok found =>
        have hne := h ⟨found, none⟩ (by simp [PushRequest.sources, hfound])
        exact congrArg Except.ok (if_neg hne)
    simp only [PushRequest.prepare, preparePost, hload]
    rfl
  | occasion request =>
    have hload : loadOccasion (s.withContent id content) request = loadOccasion s request := by
      rw [loadOccasion_withContent]
      cases hloaded : loadOccasion s request with
      | error _ => rfl
      | ok loaded =>
        have hevent := h ⟨loaded.eventPost, none⟩ (by simp [PushRequest.sources, hloaded])
        have hoccasion := h ⟨loaded.occasionPost, loaded.occasion.location⟩
          (by simp [PushRequest.sources, hloaded])
        simp only [Functor.map, Except.map, PostContent.writeAt, if_neg hevent, if_neg hoccasion]
    simp only [PushRequest.prepare, prepareOccasion, hload]
    rfl

theorem writeAt_probe (id : Nat) (title : String) (post : Post) :
    (probe title).writeAt id post = probed (decide (post.id = id)) title post := by
  unfold PostContent.writeAt probed
  simp only [decide_eq_true_eq]

/-- Two edits of a post that is pushed give different messages. -/
theorem message_probe_ne {source : Source} (hsource : source ∈ request.sources s)
    {first second : Prepared}
    (hfirst : request.prepare rendering (s.withContent source.post.id (probe "a")) user = .ok first)
    (hsecond : request.prepare rendering (s.withContent source.post.id (probe "b")) user =
      .ok second) : first.message ≠ second.message := by
  intro heq
  have htext := congrArg SyncMessage.text heq
  cases request with
  | post request =>
    simp only [PushRequest.prepare, preparePost, loadPost_withContent] at hfirst hsecond
    cases hfound : loadPost s request with
    | error _ => simp [PushRequest.sources, hfound] at hsource
    | ok found =>
      simp only [PushRequest.sources, hfound, List.mem_singleton] at hsource
      subst hsource
      rw [hfound] at hfirst hsecond
      simp only [checks_eq_ok] at hfirst hsecond
      obtain ⟨_, ⟨⟩, _, _, hfirst⟩ := hfirst
      obtain ⟨_, ⟨⟩, _, _, hsecond⟩ := hsecond
      cases hfirst
      cases hsecond
      obtain ⟨tail, htail⟩ : ∃ tail, ∀ title, given (some title) = some title →
          (postMessage rendering s.externalCdnConfig s.contentTypes
            ((probe title).write found)).text = title ++ tail := postMessage_probe found
      have ha := htail "a" (given_eq_some (c := 'a') (by simp) (by decide))
      have hb := htail "b" (given_eq_some (c := 'b') (by simp) (by decide))
      simp only [PostContent.writeAt, if_true] at htext
      have hne : "a" ++ tail ≠ "b" ++ tail := by
        rw [Ne, String.append_left_inj]
        decide
      exact hne (ha.symm.trans (htext.trans hb))
  | occasion request =>
    simp only [PushRequest.prepare, prepareOccasion, loadOccasion_withContent] at hfirst hsecond
    cases hloaded : loadOccasion s request with
    | error _ => simp [PushRequest.sources, hloaded] at hsource
    | ok loaded =>
      simp only [PushRequest.sources, hloaded, List.mem_cons, List.not_mem_nil, or_false] at hsource
      rw [hloaded] at hfirst hsecond
      simp only [checks_eq_ok] at hfirst hsecond
      obtain ⟨_, ⟨⟩, _, _, hfirst⟩ := hfirst
      obtain ⟨_, ⟨⟩, _, _, hsecond⟩ := hsecond
      cases hfirst
      cases hsecond
      simp only [writeAt_probe] at htext
      refine occasionMessage_probe ?_ loaded.occasion loaded.occasionPost loaded.eventPost htext
      rcases hsource with rfl | rfl
      · exact .inl (decide_eq_true rfl)
      · exact .inr (decide_eq_true rfl)

/-- A push that leaks nothing is of posts that its caller can read. -/
theorem LeaksNothing.readable (h : LeaksNothing rendering search now s user request) :
    Readable search now s user request := by
  intro configuration hreaches
  obtain ⟨destination, hdestination, -⟩ := PushRequest.reaches_eq_some.mp hreaches
  constructor
  · intro source hsource
    by_contra hunseen
    have hstored := PushRequest.stored_of_mem_sources hsource
    have hmem := (Table.get_eq_some_iff.mp hstored).1
    -- Either edit leaves what is handed over, so both messages are the same.
    have hprobe (title : String) : ∃ ready,
        request.prepare rendering (s.withContent source.post.id (probe title)) user = .ok ready ∧
        (push rendering search now s user accepting request).handed = some ready.message := by
      have hedited : { source with post := (probe title).write source.post } ∈
          request.sources (s.withContent source.post.id (probe title)) := by
        rw [PushRequest.sources_withContent]
        refine List.mem_map.mpr ⟨source, hsource, ?_⟩
        rw [PostContent.writeAt, if_pos rfl]
      have hdestination' : request.loadDestination (s.withContent source.post.id (probe title)) user =
          .ok (destination, configuration) := by
        cases request <;> exact hdestination
      obtain ⟨ready, hready⟩ : ∃ ready, request.prepare rendering
          (s.withContent source.post.id (probe title)) user = .ok ready :=
        PushRequest.exists_prepare (List.ne_nil_of_mem hedited) hdestination'
      refine ⟨ready, hready, ?_⟩
      rw [← h.unseen source.post hmem hunseen (probe title) accepting]
      exact (handed_of_reaches (PushRequest.reaches_withContent.trans hreaches) hready
        (.inr ⟨_, hedited, List.cons_ne_nil _ _⟩)).2
    obtain ⟨first, hfirst, hhandedFirst⟩ := hprobe "a"
    obtain ⟨second, hsecond, hhandedSecond⟩ := hprobe "b"
    rw [hhandedFirst, Option.some.injEq] at hhandedSecond
    exact message_probe_ne hsource hfirst hsecond hhandedSecond
  · intro hsources hmedia postId hpostId
    obtain ⟨ready, hready⟩ : ∃ ready, request.prepare rendering s user = .ok ready :=
      PushRequest.exists_prepare hsources hdestination
    obtain ⟨hcheck, hhanded⟩ :
        checkConnector s.apps ready.destination ready.configuration ready.message = .ok () ∧
          (push rendering search now s user accepting request).handed = some ready.message :=
      handed_of_reaches hreaches hready hmedia
    obtain ⟨-, -, hid, -⟩ := PushRequest.prepare_eq_ok hready
    rw [hid] at hpostId
    cases hpostId
    cases hreload : request.reload search now s user ready.postId with
    | ok _ => rfl
    | error reply =>
      have hresult : (push rendering search now s user accepting request).result =
          .error (.check reply) := by
        rw [push_eq]
        exact reload_of_accepting hready hcheck hreload
      rw [h.checked accepting reply hresult] at hhanded
      cases hhanded

/-- A push of posts that its caller can read leaks nothing. -/
theorem Readable.leaksNothing (h : Readable search now s user request) :
    LeaksNothing rendering search now s user request where
  returned answer message hhanded source hsource _ := by
    obtain ⟨ready, -, -, hreaches, -⟩ := reaches_of_handed hhanded
    exact (h _ hreaches).1 source hsource
  checked answer reply hresult := by
    rw [Option.eq_none_iff_forall_ne_some]
    intro message hhanded
    obtain ⟨ready, hready, -, hreaches, hmedia⟩ := reaches_of_handed hhanded
    obtain ⟨-, hsources, hid, -⟩ := PushRequest.prepare_eq_ok hready
    have hreload := (h _ hreaches).2 hsources hmedia ready.postId hid
    rw [push_eq] at hhanded hresult
    rw [reload_of_checked hready hhanded hresult] at hreload
    cases hreload
  unseen post hpost hunseen content answer := by
    cases hreaches : request.reaches s user with
    | none =>
      have hnone (s' : PushState) (hs' : request.reaches s' user = none) :
          (push rendering search now s' user answer request).handed = none := by
        rw [Option.eq_none_iff_forall_ne_some]
        intro message hhanded
        obtain ⟨ready, -, -, hready, -⟩ := reaches_of_handed hhanded
        rw [hs'] at hready
        cases hready
      rw [hnone s hreaches, hnone _ (PushRequest.reaches_withContent.trans hreaches)]
    | some configuration =>
      have hother (source : Source) (hsource : source ∈ request.sources s) :
          source.post.id ≠ post.id := by
        intro hid
        have hstored := PushRequest.stored_of_mem_sources hsource
        rw [hid, Table.mem_rows_iff.mp hpost, Option.some.injEq] at hstored
        exact hunseen (hstored ▸ (h _ hreaches).1 source hsource)
      rw [push_eq, push_eq, PushRequest.prepare_withContent hother]
      cases request.prepare rendering s user with
      | error reply => rfl
      | ok ready => rfl

end

/-- A push leaks nothing exactly if, where its caller can reach a platform, the caller can read the
posts, and where there is something to hand over, the content can be read back. -/
theorem leaksNothing_iff {Zone : Type} (rendering : Rendering Zone) (search : TextSearch)
    (now : Instant) (s : PushState) (user : Content.User) (request : PushRequest) :
    LeaksNothing rendering search now s user request ↔ Readable search now s user request :=
  ⟨LeaksNothing.readable, Readable.leaksNothing⟩

/-- A user who may push posts to their own page on Facebook. -/
def pageOwner : Content.User where
  id := 2
  permissions := .array [some "SYNC_POSTS_TO_FACEBOOK"]
  defaultFollowModeration := .unmoderated

/-- A private post of somebody else, and the page of that user. -/
def privatePost : PushState where
  content := { ContentDb.empty with
    posts := Serial.empty.insert (fun id => {
      id := id
      userId := some 1
      title := some "Diary"
      context := .post
      visibility := .private
      moderation := .unmoderated
      createdAt := 0
      lastActivityAt := 0 }) fun _ => rfl }
  destinations := Serial.empty.insert (fun id => {
    id := id
    userId := 2
    configuration := facebookPageJson "page" "Page" "token"
    createdAt := ⟨0, 0⟩
    updatedAt := none }) fun _ => rfl
  externalCdnConfig := none
  apps := {}
  contentTypes _ := none

/-- Ids and times that are not written out. -/
def plain : Rendering Unit where
  idText _ := ""
  parseTimezone _ := none
  resolveTimezone _ := none
  timeRange _ _ _ := ""

/-- A search that finds nothing. -/
def noSearch : TextSearch where
  isAlphanumeric _ := false
  matchesPost _ _ := false
  postRank _ _ := 0
  matchesOccasion _ _ := false
  occasionRank _ _ := 0
  popularity _ _ := 0

theorem privatePost_leaks :
    ¬ LeaksNothing plain noSearch 0 privatePost pageOwner (.post ⟨some 1, some 1⟩) := by
  intro h
  have hnone := h.checked accepting ⟨.notFound, "post_not_found"⟩ (by decide +kernel)
  revert hnone
  decide +kernel

end Rellm.Destinations
