import Rellm.Foundation.Run
import Rellm.Foundation.Table
import Rellm.Posts.Write
import Rellm.Previews.Fetch

/-!
# Generating previews of links

A job gives posts with links a generated image: the one that the page names in its metadata, the main
image that a browser finds, or a screenshot. The browser is started when a post needs it, under a lock
of the cluster. The job works through a batch that it loaded at the beginning, while users write posts
and administrators delete the previews again.
-/

namespace Rellm.Previews

open Foundation

structure Post where
  id : Nat
  userId : Option Nat
  link : Option String
  media : List (Option Nat)
  mediaGenerated : Bool
  deriving DecidableEq, Repr

structure Media where
  id : Nat
  userId : Option Nat
  name : String
  generated : Bool
  objectStoragePath : String
  contentType : String
  sizeBytes : Nat
  deriving DecidableEq, Repr

structure Db where
  posts : Table Post.id
  nextPostId : Nat
  media : Table Media.id
  nextMediaId : Nat
  /-- The names of users. -/
  users : HashMap Nat String
  /-- How often the preview of a post failed. -/
  attempts : HashMap Nat Nat

/-- What a page in the browser has: whether it can be opened, the main image that is found in it, and
what a screenshot shows. -/
structure Tab where
  opens : Bool
  mainImage : Option String
  screenshot : Option (List UInt8)

/-- What surrounds the generation of one preview. -/
structure World where
  web : Web
  /-- What the conductor answers in the end. -/
  lockGranted : Bool
  browserStarts : Bool
  /-- The page that a URL opens, when the main image is looked for or only a screenshot taken. -/
  tab : Bool → String → Tab
  /-- The random part of an object's path, if it can be stored. -/
  stored : Option String
  protoId : Nat → String

/-! ## The browser -/

inductive BrowserEvent where
  | lockAcquired
  | lockRefused
  | started
  | startFailed
  | captured (url : String) (screenshotOnly : Bool)
  | closed
  | lockReleased
  deriving DecidableEq, Repr

structure LazyBrowser where
  /-- The server is part of a cluster. -/
  clusterResources : Bool
  lockHeld : Bool
  browser : Bool
  deriving DecidableEq, Repr

/-- The browser of a run of the job, what happened to it, and the requests that were made without it. -/
structure Session where
  browser : LazyBrowser
  events : List BrowserEvent
  requests : List Request

def Session.new (clusterResources : Bool) : Session := ⟨⟨clusterResources, false, false⟩, [], []⟩

def Session.note (session : Session) (event : BrowserEvent) : Session :=
  { session with events := session.events ++ [event] }

inductive PreviewError where
  | noUser (id : Nat)
  | noLink (id : Nat)
  | unknownUser (id : Nat)
  | browserUnavailable
  | captureFailed (url : String)
  | noScreenshot (url : String)
  | notStored
  deriving DecidableEq, Repr

/-- Takes the lock, if there is one to take. -/
def LazyBrowser.lock (world : World) (session : Session) : Bool × Session :=
  if session.browser.clusterResources && !session.browser.lockHeld then
    if world.lockGranted then
      (true, { session with browser := { session.browser with lockHeld := true } }.note .lockAcquired)
    else (false, session.note .lockRefused)
  else (true, session)

/-- The browser, started on first use. -/
def LazyBrowser.get (world : World) (session : Session) : Except PreviewError Unit × Session :=
  if session.browser.browser then (.ok (), session)
  else
    match LazyBrowser.lock world session with
    | (false, session) => (.error .browserUnavailable, session)
    | (true, session) =>
      if world.browserStarts then
        (.ok (), { session with browser := { session.browser with browser := true } }.note .started)
      else (.error .browserUnavailable, session.note .startFailed)

/-- Closes the browser, if it was started, and then frees the lock, if it was taken. -/
def LazyBrowser.release (session : Session) : Session :=
  let closed :=
    if session.browser.browser then
      { session with browser := { session.browser with browser := false } }.note .closed
    else session
  if closed.browser.lockHeld then
    { closed with browser := { closed.browser with lockHeld := false } }.note .lockReleased
  else closed

structure PageCapture where
  screenshot : Option (List UInt8)
  mainImageUrl : Option String

/-- A screenshot is taken only where no main image is found or wanted. -/
def capturePage (tab : Tab) (screenshotOnly : Bool) : Option PageCapture :=
  if !tab.opens then none
  else
    match if screenshotOnly then none else tab.mainImage.filter (·.startsWith "http") with
    | some url => some ⟨none, some url⟩
    | none => tab.screenshot.map fun screenshot => ⟨some screenshot, none⟩

/-- A page in the open browser. -/
def capture (world : World) (url : String) (screenshotOnly : Bool) (session : Session) :
    Except PreviewError PageCapture × Session :=
  match capturePage (world.tab screenshotOnly url) screenshotOnly with
  | none => (.error (.captureFailed url), session.note (.captured url screenshotOnly))
  | some page => (.ok page, session.note (.captured url screenshotOnly))

/-! ## One preview -/

structure Preview where
  label : String
  extension : String
  contentType : String
  bytes : List UInt8
  deriving DecidableEq, Repr

def Preview.ofImage (image : Image) : Preview :=
  ⟨"main_image", image.extension, image.contentType, image.bytes⟩

def Preview.ofScreenshot (screenshot : List UInt8) : Preview :=
  ⟨"generated_preview", "png", "image/png", screenshot⟩

/-- The image of the metadata, where that is preferred and there is one. -/
def metadataPreview (world : World) (preferMetadata : Bool) (url : String) (session : Session) :
    Option Preview × Session :=
  if preferMetadata then
    match findMetadataImage world.web url session.requests with
    | (.ok (some image), requests) => (some (.ofImage image), { session with requests })
    | (_, requests) => (none, { session with requests })
  else (none, session)

/-- A screenshot: the one that was taken, or one that is taken now. -/
def screenshotPreview (world : World) (url : String) (page : PageCapture) (session : Session) :
    Except PreviewError Preview × Session :=
  match page.screenshot with
  | some screenshot => (.ok (.ofScreenshot screenshot), session)
  | none =>
    match capture world url true session with
    | (.error e, session) => (.error e, session)
    | (.ok page, session) =>
      match page.screenshot with
      | some screenshot => (.ok (.ofScreenshot screenshot), session)
      | none => (.error (.noScreenshot url), session)

/-- The main image that the browser finds, or a screenshot. -/
def browserPreview (world : World) (url : String) (session : Session) :
    Except PreviewError Preview × Session :=
  match LazyBrowser.get world session with
  | (.error e, session) => (.error e, session)
  | (.ok _, session) =>
    match capture world url false session with
    | (.error e, session) => (.error e, session)
    | (.ok page, session) =>
      match page.mainImageUrl with
      | none => screenshotPreview world url page session
      | some imageUrl =>
        match downloadMainImage world.web imageUrl url session.requests with
        | (.ok image, requests) => (.ok (.ofImage image), { session with requests })
        | (.error _, requests) => screenshotPreview world url page { session with requests }

def choosePreview (world : World) (preferMetadata : Bool) (url : String) (session : Session) :
    Except PreviewError Preview × Session :=
  match metadataPreview world preferMetadata url session with
  | (some preview, session) => (.ok preview, session)
  | (none, session) => browserPreview world url session

/-- The stored media of a preview. -/
def generatedMedia (world : World) (post : Post) (userId : Nat) (username uuid : String)
    (preview : Preview) (id : Nat) : Media :=
  let filename :=
    "post_" ++ world.protoId post.id ++ "_" ++ preview.label ++ "." ++ preview.extension
  { id, userId := some userId, name := filename, generated := true
    objectStoragePath :=
      "user/" ++ world.protoId userId ++ "-" ++ username ++ "/" ++ uuid ++ "-" ++ filename
    contentType := preview.contentType, sizeBytes := preview.bytes.length }

theorem id_attach (media : List (Option Nat)) (post : Post) :
    ({ post with media, mediaGenerated := true } : Post).id = post.id := rfl

def clearFailedAttempts (id : Nat) (db : Db) : Db :=
  { db with attempts := db.attempts.delete fun entry => entry.1 = id }

/-- Appends media to what a post had when it was loaded, and marks it. -/
def attach (post : Post) (media : Media) (db : Db) : Db :=
  clearFailedAttempts post.id
    { db with
      media := db.media.put media
      nextMediaId := db.nextMediaId + 1
      posts := db.posts.update (fun row => row.id = post.id)
        (fun row => { row with media := post.media ++ [some media.id], mediaGenerated := true })
        (id_attach _) }

def generatePreviewsForPost (world : World) (post : Post) (preferMetadata : Bool) (db : Db)
    (session : Session) : Except PreviewError Unit × Db × Session :=
  match post.userId with
  | none => (.error (.noUser post.id), db, session)
  | some userId =>
    match Posts.toLink post.link with
    | none => (.error (.noLink post.id), db, session)
    | some url =>
      match db.users.value userId with
      | none => (.error (.unknownUser userId), db, session)
      | some username =>
        match choosePreview world preferMetadata url session with
        | (.error e, session) => (.error e, db, session)
        | (.ok preview, session) =>
          match world.stored with
          | none => (.error .notStored, db, session)
          | some uuid =>
            let media := generatedMedia world post userId username uuid preview db.nextMediaId
            (.ok (), attach post media db, session)

/-! ## The job -/

def maxPreviewAttempts : Nat := 5
def newestFirstBacklogThreshold : Nat := 20
def batchLimit : Nat := 100

def attemptsOf (db : Db) (id : Nat) : Nat := (db.attempts.value id).getD 0

/-- Notes one more failure; a post that is gone has no failures. -/
def recordFailedAttempt (id : Nat) (db : Db) : Db :=
  if (db.posts.get id).isSome then
    { db with attempts := db.attempts.put (id, attemptsOf db id + 1) }
  else db

/-- A post with a link that has no preview and was not given up. -/
def needsPreview (db : Db) (post : Post) : Bool :=
  post.link.isSome && !post.mediaGenerated && attemptsOf db post.id < maxPreviewAttempts

/-- The posts to work on: the newest first where there are many, the oldest first otherwise. -/
def postsNeedingPreviews (limit : Nat) (db : Db) : List Post :=
  let eligible := db.posts.rows.filter (needsPreview db)
  let ordered :=
    if newestFirstBacklogThreshold < eligible.length then
      eligible.mergeSort fun a b => b.id ≤ a.id
    else eligible.mergeSort fun a b => a.id ≤ b.id
  ordered.take limit

/-- A run of the job: what is left of its batch, and its settings. -/
structure JobRun where
  batch : List Post
  preferMetadata : Bool
  session : Session

/-- The database, the job, and what is remembered of both: the sessions of the runs that came to their
end, the posts that were given a preview since all previews were deleted, and what owners put into the
media of their posts. -/
structure System where
  db : Db
  job : Option JobRun
  finished : List Session
  given : List Nat
  chosen : Nat → List (Option Nat)

inductive Action where
  | begin (clusterResources generationEnabled preferMetadata : Bool)
  | next (world : World)
  | finish
  /-- The job ends before its time. -/
  | crash
  | create (userId : Option Nat) (link : Option String) (media : List (Option Nat))
  | edit (id : Nat) (link : Option String) (media : List (Option Nat))
  | deletePost (id : Nat)
  | deleteLinkPreviewImages
  | deleteUnownedMedia

theorem id_edit (link : Option String) (media : List (Option Nat)) (post : Post) :
    ({ post with link, media } : Post).id = post.id := rfl

theorem id_generated (post : Post) : ({ post with mediaGenerated := false } : Post).id = post.id := rfl

theorem id_orphan (media : Media) : ({ media with userId := none } : Media).id = media.id := rfl

/-- Takes the generated media from their owners, and every post needs a preview again. -/
def deleteLinkPreviewImages (db : Db) : Db :=
  { db with
    media := db.media.update Media.generated (fun media => { media with userId := none }) id_orphan
    posts := db.posts.update (fun _ => true) (fun post => { post with mediaGenerated := false })
      id_generated
    attempts := .empty }

/-- The media without those that nobody owns. -/
def withoutUnowned (db : Db) (media : List (Option Nat)) : List (Option Nat) :=
  media.filter fun entry => !(entry.any fun id => (db.media.get id).any (·.userId.isNone))

theorem id_withoutUnowned (db : Db) (post : Post) :
    ({ post with media := withoutUnowned db post.media } : Post).id = post.id := rfl

def deleteUnownedMedia (db : Db) : Db :=
  { db with
    posts := db.posts.update (fun _ => true)
      (fun post => { post with media := withoutUnowned db post.media }) (id_withoutUnowned db)
    media := db.media.delete fun media => media.userId.isNone }

namespace System

def begin (s : System) (clusterResources generationEnabled preferMetadata : Bool) : System :=
  if s.job.isSome || !generationEnabled then s
  else
    { s with
      job := some ⟨postsNeedingPreviews batchLimit s.db, preferMetadata, .new clusterResources⟩ }

/-- The next post of a batch. A browser that cannot be had ends the run, and is not the post's
fault. -/
def next (s : System) (world : World) : System :=
  match s.job with
  | none => s
  | some run =>
    match run.batch with
    | [] => s
    | post :: batch =>
      match generatePreviewsForPost world post run.preferMetadata s.db run.session with
      | (.ok _, db, session) =>
        { s with db, job := some { run with batch, session }, given := s.given ++ [post.id] }
      | (.error .browserUnavailable, db, session) =>
        { s with db, job := some { run with batch := [], session } }
      | (.error _, db, session) =>
        { s with db := recordFailedAttempt post.id db, job := some { run with batch, session } }

def finish (s : System) : System :=
  match s.job with
  | some ⟨[], _, session⟩ =>
    { s with job := none, finished := s.finished ++ [LazyBrowser.release session] }
  | _ => s

def step (s : System) : Action → System
  | .begin clusterResources generationEnabled preferMetadata =>
    s.begin clusterResources generationEnabled preferMetadata
  | .next world => s.next world
  | .finish => s.finish
  | .crash => { s with job := none }
  | .create userId link media =>
    { s with
      db := { s.db with
        posts := s.db.posts.put ⟨s.db.nextPostId, userId, link, media, false⟩
        nextPostId := s.db.nextPostId + 1 }
      chosen := fun id => if id = s.db.nextPostId then media else s.chosen id }
  | .edit id link media =>
    { s with
      db := { s.db with
        posts := s.db.posts.update (fun post => post.id = id) (fun post => { post with link, media })
          (id_edit link media) }
      chosen := fun id' => if id' = id then media else s.chosen id' }
  | .deletePost id =>
    { s with
      db := clearFailedAttempts id { s.db with posts := s.db.posts.delete fun post => post.id = id } }
  | .deleteLinkPreviewImages => { s with db := deleteLinkPreviewImages s.db, given := [] }
  | .deleteUnownedMedia =>
    { s with
      db := deleteUnownedMedia s.db
      chosen := fun id => withoutUnowned s.db (s.chosen id) }

end System

end Rellm.Previews
