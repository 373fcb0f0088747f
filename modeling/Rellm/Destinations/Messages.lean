import Mathlib.Data.List.Infix
import Rellm.Destinations.Configuration

/-!
# Messages for other platforms

A post, or an occasion with its event, is folded into one text with a link and the media of its
posts. The texts of both posts of an occasion are put together, the event's first.

Two platforms bound the length of a text. The text of a message ends with its link, and what is too
long for a platform is cut off at its end. Other than the link in the text, these platforms get none.
-/

namespace Rellm.Destinations

/-! ## Messages -/

section

open Foundation Content Calendar

structure MediaAttachment where
  url : String
  contentType : String
  deriving DecidableEq, Repr

/-- What is pushed to a platform. -/
structure SyncMessage where
  text : String
  link : Option String
  media : List MediaAttachment
  deriving DecidableEq, Repr

/-- Lines with an empty line between them. -/
def joinLines : List String → String
  | [] => ""
  | [line] => line
  | line :: lines => line ++ "\n\n" ++ joinLines lines

structure PostMessageInput where
  title : Option String
  content : Option String
  link : Option String
  postUrl : Option String
  media : List MediaAttachment
  deriving DecidableEq, Repr

def buildPostMessage (input : PostMessageInput) : SyncMessage :=
  let link := (given input.postUrl).or (given input.link)
  { text := joinLines ((given input.title).toList ++ (given input.content).toList ++
      (link.map fun link => "View post: " ++ link).toList)
    link := link
    media := input.media }

structure OccasionMessageInput where
  title : Option String
  content : Option String
  link : Option String
  timeRange : String
  location : Option String
  eventUrl : Option String
  media : List MediaAttachment
  deriving DecidableEq, Repr

def buildOccasionMessage (input : OccasionMessageInput) : SyncMessage :=
  let link := (given input.eventUrl).or (given input.link)
  { text := joinLines ((given input.title).toList ++ [input.timeRange] ++
      ((given input.location).map fun location => "📍 " ++ location).toList ++
      (given input.content).toList ++ link.toList)
    link := link
    media := input.media }

/-- The text of the event before that of the occasion. -/
def combine (primary secondary : Option String) (separator : String) : Option String :=
  match (primary.map trim).filter (· ≠ ""), (secondary.map trim).filter (· ≠ "") with
  | some first, some second => some (first ++ separator ++ second)
  | some first, none => some first
  | none, some second => some second
  | none, none => none

def combineTitle (eventTitle occasionTitle : Option String) : Option String :=
  combine eventTitle occasionTitle ": "

def combineContent (eventContent occasionContent : Option String) : Option String :=
  combine eventContent occasionContent "\n\n---\n\n"

/-- The media of the event, and then those of the occasion that are not among them. -/
def combineMedia (eventMedia occasionMedia : List Nat) : List Nat :=
  occasionMedia.foldl (fun ids id => if id ∈ ids then ids else ids ++ [id]) eventMedia

/-- Where the server is reached from outside. -/
structure ExternalCdnConfig where
  frontendHost : String
  backendHost : String
  deriving DecidableEq, Repr

/-- How ids and times are written, and which timezones there are. -/
structure Rendering (Zone : Type) where
  idText : Nat → String
  parseTimezone : String → Option Zone
  resolveTimezone : String → Option Zone
  timeRange : Option Zone → Instant → Instant → String

section

variable {Zone : Type} (rendering : Rendering Zone) (externalCdnConfig : Option ExternalCdnConfig)

/-- A page of the frontend, if the server knows its host. -/
def frontendUrl (page : String) (id : Nat) : Option String :=
  (given (externalCdnConfig.map (·.frontendHost))).map fun host =>
    "https://" ++ host ++ page ++ rendering.idText id

/-- The media that are attached, by the types their originals have; none without a host. -/
def attachments (contentTypes : Nat → Option String) (mediaIds : List Nat) :
    List MediaAttachment :=
  match given (externalCdnConfig.map (·.backendHost)) with
  | some host => mediaIds.map fun id =>
    { url := "https://" ++ host ++ "/media/" ++ rendering.idText id
      contentType := (contentTypes id).getD "" }
  | none => []

/-- The message for a post. -/
def postMessage (contentTypes : Nat → Option String) (post : Post) : SyncMessage :=
  buildPostMessage {
    title := post.title
    content := post.content
    link := post.link
    postUrl := frontendUrl rendering externalCdnConfig "/post/" post.id
    media := attachments rendering externalCdnConfig contentTypes post.media }

/-- The message for an occasion of an event. -/
def occasionMessage (contentTypes : Nat → Option String) (occasion : Occasion)
    (occasionPost eventPost : Post) : SyncMessage :=
  let location := given (occasion.location.map (·.uniformlyFormattedAddress))
  let timezone := (occasion.timezone.bind rendering.parseTimezone).or
    (location.bind rendering.resolveTimezone)
  buildOccasionMessage {
    title := combineTitle eventPost.title occasionPost.title
    content := combineContent eventPost.content occasionPost.content
    link := occasionPost.link
    timeRange := rendering.timeRange timezone occasion.startsAt occasion.endsAt
    location := location
    eventUrl := frontendUrl rendering externalCdnConfig "/event/" occasion.postId
    media := attachments rendering externalCdnConfig contentTypes
      (combineMedia eventPost.media occasionPost.media) }

end

end

/-! ## Truncation -/

section

open Foundation

def truncateTo (text : String) (maxChars : Nat) : String :=
  if text.length ≤ maxChars then text
  else String.ofList (text.toList.take (maxChars - 4)) ++ "…"

def truncateForBluesky (text : String) : String := truncateTo text 300

def truncateForXTwitter (text : String) : String := truncateTo text 280

/-- The platforms that get the link of a message in its text only, and bound that text. -/
inductive BoundedPlatform where
  | bluesky
  | xTwitter
  deriving DecidableEq, Repr

def BoundedPlatform.limit : BoundedPlatform → Nat
  | .bluesky => 300
  | .xTwitter => 280

/-- The text that a platform is sent for a message. -/
def BoundedPlatform.sentText : BoundedPlatform → SyncMessage → String
  | .bluesky, message => truncateForBluesky message.text
  | .xTwitter, message => truncateForXTwitter message.text

/-- What is pushed to a platform. -/
inductive SyncedContent where
  | post (input : PostMessageInput)
  | occasion (input : OccasionMessageInput)
  deriving DecidableEq, Repr

namespace SyncedContent

def message : SyncedContent → SyncMessage
  | post input => buildPostMessage input
  | occasion input => buildOccasionMessage input

/-- The page of the content, or else the link that its author gave. -/
def link : SyncedContent → Option String
  | post input => (given input.postUrl).or (given input.link)
  | occasion input => (given input.eventUrl).or (given input.link)

/-- The lines before the link. -/
def lines : SyncedContent → List String
  | post input => (given input.title).toList ++ (given input.content).toList
  | occasion input => (given input.title).toList ++ [input.timeRange] ++
      ((given input.location).map fun location => "📍 " ++ location).toList ++
      (given input.content).toList

/-- What stands before the link on its line. -/
def label : SyncedContent → String
  | post _ => "View post: "
  | occasion _ => ""

/-- All that stands before the link. -/
def lead (content : SyncedContent) : List Char :=
  content.lines.flatMap (fun line => line.toList ++ ['\n', '\n']) ++ content.label.toList

/-- A link is mentioned before its own line, and so early that what is left of a text of some length
still has the mention. The characters that are left are followed by an ellipsis. -/
def MentionsEarly (content : SyncedContent) (limit : Nat) (link : String) : Prop :=
  ∃ before after, before.length < content.lead.length ∧
    before ++ link.toList ++ after = (content.lead ++ link.toList).take (limit - 4) ++ ['…']

/-- Several lines and a last one. -/
theorem toList_joinLines (lines : List String) (last : String) :
    (joinLines (lines ++ [last])).toList =
      lines.flatMap (fun line => line.toList ++ ['\n', '\n']) ++ last.toList := by
  induction lines with
  | nil => rfl
  | cons line lines ih =>
    obtain ⟨next, rest, hrest⟩ : ∃ next rest, lines ++ [last] = next :: rest := by
      cases lines with
      | nil => exact ⟨last, [], rfl⟩
      | cons next lines => exact ⟨next, lines ++ [last], rfl⟩
    have hjoin : joinLines (line :: (lines ++ [last])) =
        line ++ "\n\n" ++ joinLines (lines ++ [last]) := by rw [hrest, joinLines]; simp
    rw [List.cons_append, hjoin, String.toList_append, String.toList_append, ih]
    simp

/-- The last line of a message with a link is the link with its label. -/
theorem text_eq {content : SyncedContent} {link : String} (h : content.link = some link) :
    content.message.text = joinLines (content.lines ++ [content.label ++ link]) := by
  cases content with
  | post input =>
    have h : (given input.postUrl).or (given input.link) = some link := h
    rw [message, buildPostMessage, h]
    rfl
  | occasion input =>
    have h : (given input.eventUrl).or (given input.link) = some link := h
    rw [message, buildOccasionMessage, h, label, String.empty_append]
    rfl

theorem toList_text {content : SyncedContent} {link : String} (h : content.link = some link) :
    content.message.text.toList = content.lead ++ link.toList := by
  rw [text_eq h, toList_joinLines, lead, String.toList_append, List.append_assoc]

theorem link_message (content : SyncedContent) : content.message.link = content.link := by
  cases content <;> rfl

end SyncedContent

theorem length_truncateTo {text : String} {maxChars : Nat} (h : 4 ≤ maxChars) :
    (truncateTo text maxChars).length ≤ maxChars := by
  unfold truncateTo
  split
  · assumption
  · rw [String.length_append, String.length_ofList, List.length_take]
    have hellipsis : "…".length = 1 := by decide +kernel
    omega

/-- What is left of a text that is too long still has its end exactly if it was there before. -/
theorem infix_truncateTo_iff {text : String} {lead link : List Char} {maxChars : Nat}
    (htext : text.toList = lead ++ link) (hmax : 4 ≤ maxChars) :
    link <:+: (truncateTo text maxChars).toList ↔
      lead.length + link.length ≤ maxChars ∨
        ∃ before after, before.length < lead.length ∧
          before ++ link ++ after = (lead ++ link).take (maxChars - 4) ++ ['…'] := by
  have hlength : text.length = lead.length + link.length := by
    rw [← String.length_toList, htext, List.length_append]
  unfold truncateTo
  split
  · rename_i hfits
    refine iff_of_true ⟨lead, [], ?_⟩ (Or.inl (hlength ▸ hfits))
    rw [List.append_nil, htext]
  · rename_i hlong
    have hcut : (String.ofList (text.toList.take (maxChars - 4)) ++ "…").toList =
        (lead ++ link).take (maxChars - 4) ++ ['…'] := by
      rw [String.toList_append, String.toList_ofList, htext]
      rfl
    rw [hcut]
    constructor
    · rintro ⟨before, after, heq⟩
      refine Or.inr ⟨before, after, ?_, heq⟩
      have hsizes := congrArg List.length heq
      simp only [List.length_append, List.length_take, List.length_singleton] at hsizes
      omega
    · rintro (hfits | ⟨before, after, _, heq⟩)
      · exact absurd (hlength ▸ hfits) hlong
      · exact ⟨before, after, heq⟩

/-- The text that a platform is sent is not too long, and has the link of its message, exactly if all
of the text fits, or the link is mentioned early enough. -/
theorem keepsLink_iff (content : SyncedContent) (platform : BoundedPlatform) :
    ((platform.sentText content.message).length ≤ platform.limit ∧
        ∀ link, content.message.link = some link →
          link.toList <:+: (platform.sentText content.message).toList) ↔
      ∀ link, content.link = some link →
        content.lead.length + link.length ≤ platform.limit ∨
          content.MentionsEarly platform.limit link := by
  have hsent : platform.sentText content.message = truncateTo content.message.text platform.limit := by
    cases platform <;> rfl
  have hlimit : 4 ≤ platform.limit := by cases platform <;> decide
  rw [hsent, content.link_message, and_iff_right (length_truncateTo hlimit)]
  refine forall₂_congr fun link hlink => ?_
  rw [infix_truncateTo_iff (SyncedContent.toList_text hlink) hlimit, String.length_toList]
  rfl

/-- A long post with a page of its own. -/
def longPost : SyncedContent := .post {
  title := none
  content := some (String.ofList (List.replicate 300 'a'))
  link := none
  postUrl := some "https://rellm.org/post/1"
  media := [] }

/-- The long post has its content and the label of its link before the link. -/
theorem longPost_lead :
    longPost.lead = List.replicate 300 'a' ++ "\n\nView post: ".toList := by
  have hspace : ¬ isWhitespace 'a' := by decide
  have htrim : trim (String.ofList (List.replicate 300 'a')) =
      String.ofList (List.replicate 300 'a') := by
    rw [trim, String.toList_ofList, List.replicate_succ, List.dropWhile_cons_of_neg hspace,
      ← List.replicate_succ, List.reverse_replicate, List.replicate_succ,
      List.dropWhile_cons_of_neg hspace, ← List.replicate_succ, List.reverse_replicate]
  have hne : String.ofList (List.replicate 300 'a') ≠ "" := by
    intro h
    have hlist := congrArg String.toList h
    rw [String.toList_ofList, List.replicate_succ] at hlist
    cases hlist
  have hlines : longPost.lines = [String.ofList (List.replicate 300 'a')] := by
    have hgiven : given (some (String.ofList (List.replicate 300 'a'))) =
        some (String.ofList (List.replicate 300 'a')) :=
      Option.filter_some_pos (decide_eq_true (htrim.symm ▸ hne))
    rw [longPost, SyncedContent.lines, hgiven]
    rfl
  rw [SyncedContent.lead, hlines, List.flatMap_singleton, String.toList_ofList, List.append_assoc]
  rfl

theorem long_post_loses_link :
    ¬ ∀ (content : SyncedContent) (platform : BoundedPlatform),
      (platform.sentText content.message).length ≤ platform.limit ∧
        ∀ link, content.message.link = some link →
          link.toList <:+: (platform.sentText content.message).toList := by
  intro h
  have hlink : longPost.link = some "https://rellm.org/post/1" := by decide +kernel
  have hkept := (h longPost .bluesky).2 _ (longPost.link_message.trans hlink)
  have hsent : BoundedPlatform.bluesky.sentText longPost.message =
      truncateTo longPost.message.text 300 := rfl
  rw [hsent, infix_truncateTo_iff (SyncedContent.toList_text hlink) (by decide),
    longPost_lead] at hkept
  rcases hkept with hfits | ⟨before, after, _, heq⟩
  · have hlong : 0 < "https://rellm.org/post/1".toList.length := by decide
    rw [List.length_append, List.length_replicate] at hfits
    omega
  · -- what is left of the post is some of its content and the ellipsis
    have hleft : (List.replicate 300 'a' ++ "\n\nView post: ".toList ++
        "https://rellm.org/post/1".toList).take (300 - 4) = List.replicate 296 'a' := by
      rw [List.append_assoc, List.take_append_of_le_length (by rw [List.length_replicate]; decide),
        List.take_replicate]
      rfl
    have hmem : 'h' ∈ List.replicate 296 'a' ++ ['…'] := by
      rw [← hleft, ← heq]
      exact List.mem_append_left _ (List.mem_append_right _ (by decide))
    rcases List.mem_append.mp hmem with hcontent | hellipsis
    · exact absurd (List.eq_of_mem_replicate hcontent) (by decide)
    · exact absurd (List.mem_singleton.mp hellipsis) (by decide)

end

end Rellm.Destinations
