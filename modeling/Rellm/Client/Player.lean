import Mathlib.Data.List.Nodup
import Mathlib.Data.Rat.Defs
import Rellm.Foundation.Run

/-!
# The player's queue

Tracks play on two audio elements that take turns, videos in a player of their own; both are entries
of one queue. The media viewer takes the player over and remembers beside the queue which video it
found.
-/

namespace Rellm.Client.AudioPlayerPanel

/-- The name of a server, empty for what is on none; it has no slash. -/
structure Host where
  name : String
  no_slash : '/' ∉ name.toList
  deriving DecidableEq

def Host.none : Host := ⟨"", by decide +kernel⟩

inductive MediaConversion where
  | small
  | medium
  | large
  | other (number : Int)
  deriving DecidableEq, Repr

structure MediaReference where
  id : String
  name : Option String := .none
  sizes : List MediaConversion := []
  deriving DecidableEq, Repr

inductive Quality where
  | high
  | medium
  | low
  | originalQuality
  deriving DecidableEq, Repr

inductive Slot where
  | slotA
  | slotB
  deriving DecidableEq, Repr

/-- What a slot has loaded. -/
structure Source where
  mediaId : String
  host : Host
  quality : Quality
  requireFull : Bool
  deriving DecidableEq

structure VideoItem where
  src : String
  poster : Option String := .none
  aspectRatio : ℚ := 1
  returnUrl : String := ""
  mediaId : Option String := .none
  host : String := ""
  downloads : List String := []
  deriving DecidableEq

structure QueueItem where
  media : MediaReference
  host : Host
  video : Option VideoItem
  deriving DecidableEq

inductive Placement where
  | playNext
  | playLast
  deriving DecidableEq, Repr

/-- The video that was current when the media viewer took over, and where it had got to. -/
structure VideoPrior where
  item : QueueItem
  positionMs : ℚ
  deriving DecidableEq

structure Model where
  queue : List QueueItem
  currentId : Option String
  targetHost : Host
  expanded : Bool
  playing : Bool
  positionMs : ℚ
  durationMs : ℚ
  quality : Quality
  activeSlot : Slot
  slotA : Option Source
  slotB : Option Source
  autoStart : Bool
  selectionGeneration : Nat
  videoStartAt : ℚ
  videoResume : Bool
  videoGeneration : Nat
  videoPrior : Option VideoPrior
  pendingSeekMs : Option ℚ
  pendingUpgrade : Option Source
  activeLoaded : Bool
  deriving DecidableEq

def init : Model where
  queue := []
  currentId := none
  targetHost := .none
  expanded := false
  playing := false
  positionMs := 0
  durationMs := 0
  quality := .high
  activeSlot := .slotA
  slotA := none
  slotB := none
  autoStart := false
  selectionGeneration := 0
  videoStartAt := 0
  videoResume := true
  videoGeneration := 0
  videoPrior := none
  pendingSeekMs := none
  pendingUpgrade := none
  activeLoaded := false

def isCurrent (model : Model) (item : QueueItem) : Bool :=
  some item.media.id = model.currentId && item.host = model.targetHost

def itemKey (item : QueueItem) : String := item.host.name ++ "/" ++ item.media.id

def currentItem (model : Model) : Option QueueItem := (model.queue.filter (isCurrent model)).head?

def currentVideo (model : Model) : Option VideoItem := (currentItem model).bind (·.video)

def isCurrentVideoSrc (src : String) (model : Model) : Bool :=
  match currentVideo model with
  | some current => current.src = src
  | none => false

/-- The place of the first entry of a kind. -/
def indexWhere (p : QueueItem → Bool) (items : List QueueItem) : Option Nat :=
  ((items.zipIdx.filter fun entry => p entry.1).head?).map Prod.snd

def adjacent (offset : Int) (model : Model) : Option QueueItem :=
  match indexWhere (isCurrent model) model.queue with
  | some i =>
    if (i : Int) + offset < 0 then none
    else (model.queue.drop (i + offset).toNat).head?
  | none => none

/-- An entry starts; what follows it in its list and then the queue come after, each entry once. -/
def playNowQueue (item : QueueItem) (following existing : List QueueItem) : List QueueItem :=
  (item :: (following ++ existing)).foldl
    (fun kept queued =>
      if kept.any fun other => itemKey other = itemKey queued then kept else kept ++ [queued])
    []

/-- Puts an entry in the queue, out of wherever it was. -/
def enqueue (placement : Placement) (item : QueueItem) (model : Model) : Model :=
  let others := model.queue.filter fun queued => itemKey queued ≠ itemKey item
  match placement with
  | .playLast => { model with queue := others ++ [item] }
  | .playNext =>
    let after := ((indexWhere (isCurrent model) others).map (· + 1)).getD others.length
    { model with queue := others.take after ++ item :: others.drop after }

def resolve (media : MediaReference) (quality : Quality) : Quality :=
  let stored (conversion : MediaConversion) : Quality :=
    if conversion ∈ media.sizes then quality else .originalQuality
  match quality with
  | .high => stored .large
  | .medium => stored .medium
  | .low => stored .small
  | .originalQuality => .originalQuality

def startQuality (media : MediaReference) (desired : Quality) : Quality :=
  match resolve media desired with
  | .high =>
    match resolve media .medium with
    | .originalQuality => .high
    | stored => stored
  | other => other

def slotSource : Slot → Model → Option Source
  | .slotA, model => model.slotA
  | .slotB, model => model.slotB

def setSlot (slot : Slot) (source : Option Source) (model : Model) : Model :=
  match slot with
  | .slotA => { model with slotA := source }
  | .slotB => { model with slotB := source }

def otherSlot : Slot → Slot
  | .slotA => .slotB
  | .slotB => .slotA

/-- Starts the download that was held back once the active copy has downloaded and plays. -/
def releaseUpgradeIfPlaying (model : Model) : Model :=
  match model.pendingUpgrade with
  | some upgrade =>
    if model.activeLoaded && model.playing then
      setSlot (otherSlot model.activeSlot) (some upgrade) { model with pendingUpgrade := none }
    else model
  | none => model

/-- Starts a track on the active slot. -/
def beginTrack (item : QueueItem) (model : Model) : Model :=
  let media := item.media
  let wanted := resolve media model.quality
  let start := startQuality media model.quality
  let startSource : Source := ⟨media.id, item.host, start, false⟩
  let sameAsLoaded := decide (slotSource model.activeSlot model = some startSource)
  let upgrade : Option Source :=
    if wanted ≠ start then some ⟨media.id, item.host, wanted, true⟩ else none
  setSlot (otherSlot model.activeSlot) (if sameAsLoaded then upgrade else none)
    (setSlot model.activeSlot (some startSource)
      { model with
        currentId := some media.id
        targetHost := item.host
        positionMs := 0
        durationMs := 0
        playing := true
        autoStart := !sameAsLoaded
        pendingSeekMs := none
        selectionGeneration := model.selectionGeneration + 1
        pendingUpgrade := if sameAsLoaded then none else upgrade
        activeLoaded := sameAsLoaded })

/-- Makes a video current; the audio slots are let go. -/
def beginVideo (item : QueueItem) (startAtSeconds : ℚ) (resume : Bool) (model : Model) : Model :=
  { model with
    currentId := some item.media.id
    targetHost := item.host
    positionMs := startAtSeconds * 1000
    durationMs := 0
    playing := resume
    autoStart := false
    pendingSeekMs := none
    pendingUpgrade := none
    activeLoaded := false
    slotA := none
    slotB := none
    selectionGeneration := model.selectionGeneration + 1
    videoStartAt := startAtSeconds
    videoResume := resume
    videoGeneration := model.videoGeneration + 1 }

def beginItem (item : QueueItem) (model : Model) : Model :=
  match item.video with
  | some _ => beginVideo item 0 true model
  | none => beginTrack item model

/-- Tracks of a list, each once. -/
structure Tracks where
  tracks : List MediaReference
  ids_nodup : (tracks.map MediaReference.id).Nodup

def trackItem (host : Host) (media : MediaReference) : QueueItem := ⟨media, host, none⟩

/-- The entry of a video: its source stands in for the identifier. -/
def videoItem (video : VideoItem) (title : Option String) : QueueItem where
  media := { id := video.src, name := some (title.getD "Video") }
  host := .none
  video := some video

/-- What follows the entry with an identifier in a list. -/
def followingItems (items : List QueueItem) (id : String) : List QueueItem :=
  (items.foldl (fun (seen, rest) other =>
    if seen then (true, rest ++ [other]) else (decide (other.media.id = id), rest))
    (false, [])).2

def openTracks (queue : Tracks) (id : String) (host : Host) (model : Model) : Model :=
  let items := queue.tracks.map (trackItem host)
  match (items.filter fun item => item.media.id = id).head? with
  | some item =>
    beginItem item
      { model with queue := playNowQueue item (followingItems items id) model.queue }
  | none => model

def openAt (queue : Tracks) (id : String) (host : Host) (positionMs : ℚ) (playing : Bool)
    (model : Model) : Model :=
  let opened := openTracks queue id host model
  let withSeek :=
    if positionMs ≤ 0 then opened
    else if opened.autoStart then { opened with pendingSeekMs := some positionMs }
    else opened
  if playing then withSeek else { withSeek with playing := false, autoStart := false }

def openVideo (video : VideoItem) (title : Option String) (startAtSeconds : ℚ) (resume : Bool)
    (model : Model) : Model :=
  let item := videoItem video title
  if isCurrentVideoSrc video.src model then
    { model with
      queue := playNowQueue item [] model.queue
      positionMs := startAtSeconds * 1000
      playing := resume }
  else
    beginVideo item startAtSeconds resume
      { model with queue := playNowQueue item [] model.queue }

/-- The video that a stay in the viewer brings back. -/
def viewerPrior (video : VideoItem) (model : Model) : Option VideoPrior :=
  (currentItem model).bind fun item =>
    match item.video with
    | some current => if current.src = video.src then none else some ⟨item, model.positionMs⟩
    | none => none

def openViewerVideo (video : VideoItem) (title : Option String) (startAtSeconds : ℚ)
    (resume startsStay : Bool) (model : Model) : Model :=
  let prior := if startsStay then viewerPrior video model else model.videoPrior
  if isCurrentVideoSrc video.src model then
    { model with
      queue := playNowQueue (videoItem video title) [] model.queue
      videoPrior := prior }
  else openVideo video title startAtSeconds resume { model with videoPrior := prior }

def leaveViewerVideo (model : Model) : Model :=
  match model.videoPrior with
  | some prior =>
    beginVideo prior.item (prior.positionMs / 1000) false { model with videoPrior := none }
  | none =>
    { model with
      currentId := none
      playing := false
      positionMs := 0
      durationMs := 0
      expanded := false
      selectionGeneration := model.selectionGeneration + 1 }

def load (queue : Tracks) (id : String) (host : Host) (model : Model) : Model :=
  let items := queue.tracks.map (trackItem host)
  match (items.filter fun item => item.media.id = id).head? with
  | some item =>
    if model.currentId = some id ∧ model.targetHost = host then { model with expanded := true }
    else
      { beginTrack item { model with queue := items } with
        playing := false
        autoStart := false
        expanded := true }
  | none => model

def loadVideo (video : VideoItem) (title : Option String) (model : Model) : Model :=
  if model.currentId = some video.src then { model with expanded := true }
  else
    beginVideo (videoItem video title) 0 false
      { model with
        queue := playNowQueue (videoItem video title) [] model.queue
        expanded := true }

def enqueueTrack (placement : Placement) (media : MediaReference) (host : Host) (model : Model) :
    Model :=
  let item := trackItem host media
  if model.currentId = none then
    beginItem item { model with queue := playNowQueue item [] model.queue }
  else if isCurrent model item then model
  else enqueue placement item model

def playQueued (key : String) (model : Model) : Model :=
  match (model.queue.filter fun item => itemKey item = key).head? with
  | some item => if isCurrent model item then model else beginItem item model
  | none => model

/-- Which of its neighbours an entry changes places with. -/
inductive MoveOffset where
  | up
  | down
  deriving DecidableEq, Repr

def MoveOffset.toInt : MoveOffset → Int
  | .up => -1
  | .down => 1

def moveListItemBy (offset : Int) (id : String) (items : List QueueItem) : List QueueItem :=
  match indexWhere (fun item => itemKey item = id) items with
  | none => items
  | some i =>
    let j : Int := i + offset
    if j < 0 ∨ items.length ≤ j then items
    else
      match items[i]?, items[j.toNat]? with
      | some ai, some aj =>
        items.mapIdx fun idx item => if idx = i then aj else if idx = j.toNat then ai else item
      | _, _ => items

/-- The order of the keys once one was dragged past some of the others. -/
def targetOrder (key : String) (passes : String → Bool) (keys : List String) : List String :=
  if key ∉ keys then keys
  else
    let others := keys.filter fun other => other ≠ key
    let passed := (others.filter passes).length
    others.take passed ++ key :: others.drop passed

/-- The place of a key in an order, the last if it is there more than once. -/
def rankOf (order : List String) (key : String) : Nat :=
  (((order.zipIdx.filter fun entry => entry.1 = key).getLast?).map Prod.snd).getD order.length

def reorderByKeys (order : List String) (items : List QueueItem) : List QueueItem :=
  items.mergeSort fun item item' => rankOf order (itemKey item) ≤ rankOf order (itemKey item')

/-- An entry that is dragged is put where the pointer is; nothing happens if that is its place. -/
def dragged (key : String) (passes : String → Bool) (model : Model) : Model :=
  let keys := model.queue.map itemKey
  let newKeys := targetOrder key passes keys
  if newKeys = keys then model
  else { model with queue := reorderByKeys newKeys model.queue }

def nextItem (model : Model) : Model :=
  match adjacent 1 model with
  | some next => beginItem next model
  | none => model

def prevItem (model : Model) : Model :=
  if 3000 < model.positionMs then model
  else
    match adjacent (-1) model with
    | some previous => beginItem previous model
    | none => model

/-- What played has ended: the next entry begins. -/
def endedItem (model : Model) : Model :=
  match adjacent 1 model with
  | some next => beginItem next model
  | none => { model with playing := false }

def close (model : Model) : Model :=
  { model with
    queue := []
    currentId := none
    expanded := false
    playing := false
    positionMs := 0
    durationMs := 0
    slotA := none
    slotB := none
    autoStart := false
    pendingSeekMs := none
    pendingUpgrade := none
    activeLoaded := false
    selectionGeneration := model.selectionGeneration + 1 }

def candidateReady (slot : Slot) (model : Model) : Model :=
  if slot ≠ model.activeSlot ∧ slotSource slot model ≠ none then
    setSlot (otherSlot slot) none { model with activeSlot := slot, activeLoaded := false }
  else model

def qualityChanged (quality : Quality) (model : Model) : Model :=
  match (currentItem model).map (·.media), slotSource model.activeSlot model with
  | some media, some playingSource =>
    let wanted := resolve media quality
    let candidate : Option Source :=
      if wanted = playingSource.quality then none
      else some ⟨media.id, model.targetHost, wanted, false⟩
    setSlot (otherSlot model.activeSlot) candidate
      { model with quality := quality, pendingUpgrade := none }
  | _, _ => { model with quality := quality }

def mediaUpdated (updated : MediaReference) (model : Model) : Model :=
  { model with
    queue := model.queue.map fun item =>
      if item.media.id = updated.id then { item with media := updated } else item }

/-- The messages that bear on the queue or on what plays. A drag says which entries the pointer has
passed when it is measured. -/
inductive Msg where
  | openTracks (queue : Tracks) (id : String) (host : Host)
  | openAt (queue : Tracks) (id : String) (host : Host) (positionMs : ℚ) (playing : Bool)
  | openVideo (video : VideoItem) (title : Option String) (startAtSeconds : ℚ) (resume : Bool)
  | openViewerVideo (video : VideoItem) (title : Option String) (startAtSeconds : ℚ)
      (resume startsStay : Bool)
  | leaveViewerVideo
  | videoState (playing : Bool) (positionMs durationMs : ℚ)
  | videoEnded
  | load (queue : Tracks) (id : String) (host : Host)
  | loadVideo (video : VideoItem) (title : Option String)
  | enqueue (placement : Placement) (media : MediaReference) (host : Host)
  | playQueued (key : String)
  | gotPreMovePositions (key : String) (offset : MoveOffset)
  | drag (key : String) (passes : String → Bool)
  | next
  | prev
  | close
  | timeUpdated (slot : Slot) (positionMs durationMs : ℚ)
  | playStateChanged (slot : Slot) (playing : Bool)
  | ended (slot : Slot)
  | canPlay (slot : Slot)
  | activeFullyLoaded (slot : Slot)
  | candidateReady (slot : Slot)
  | qualityChanged (quality : Quality)
  | mediaUpdated (updated : MediaReference)

def update (model : Model) : Msg → Model
  | .openTracks queue id host => openTracks queue id host model
  | .openAt queue id host positionMs playing => openAt queue id host positionMs playing model
  | .openVideo video title startAtSeconds resume =>
    openVideo video title startAtSeconds resume model
  | .openViewerVideo video title startAtSeconds resume startsStay =>
    openViewerVideo video title startAtSeconds resume startsStay model
  | .leaveViewerVideo => leaveViewerVideo model
  | .videoState playing positionMs durationMs =>
    if (currentVideo model).isSome then
      { model with playing := playing, positionMs := positionMs, durationMs := durationMs }
    else model
  | .videoEnded => if (currentVideo model).isSome then endedItem model else model
  | .load queue id host => load queue id host model
  | .loadVideo video title => loadVideo video title model
  | .enqueue placement media host => enqueueTrack placement media host model
  | .playQueued key => playQueued key model
  | .gotPreMovePositions key offset =>
    { model with queue := moveListItemBy offset.toInt key model.queue }
  | .drag key passes => dragged key passes model
  | .next => nextItem model
  | .prev => prevItem model
  | .close => close model
  | .timeUpdated slot positionMs durationMs =>
    if slot = model.activeSlot then
      { model with positionMs := positionMs, durationMs := durationMs }
    else model
  | .playStateChanged slot playing =>
    if slot = model.activeSlot then releaseUpgradeIfPlaying { model with playing := playing }
    else model
  | .ended slot => if slot = model.activeSlot then endedItem model else model
  | .canPlay slot =>
    if slot = model.activeSlot ∧ (model.autoStart = true ∨ model.pendingSeekMs ≠ none) then
      { model with autoStart := false, pendingSeekMs := none }
    else model
  | .activeFullyLoaded slot =>
    if slot = model.activeSlot then releaseUpgradeIfPlaying { model with activeLoaded := true }
    else model
  | .candidateReady slot => candidateReady slot model
  | .qualityChanged quality => qualityChanged quality model
  | .mediaUpdated updated => mediaUpdated updated model

end Rellm.Client.AudioPlayerPanel
