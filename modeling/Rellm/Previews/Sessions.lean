import Rellm.Previews.Generation

/-!
# The browser and the requests of a run

The browser is open only under the lock, at most once in a run, and neither is left behind by a run that
comes to its end. No request that is made without the browser can reach a forbidden network.
-/

namespace Rellm.Previews

open Foundation

namespace LazyBrowser

/-- The lock is taken before a browser is started, pages are captured while it is open, and the lock is
freed after it was closed. -/
def after (browser : LazyBrowser) : BrowserEvent → Option LazyBrowser
  | .lockAcquired =>
    if browser.clusterResources && !browser.lockHeld && !browser.browser then
      some { browser with lockHeld := true }
    else none
  | .lockRefused =>
    if browser.clusterResources && !browser.lockHeld && !browser.browser then some browser else none
  | .started =>
    if !browser.browser && (browser.lockHeld || !browser.clusterResources) then
      some { browser with browser := true }
    else none
  | .startFailed =>
    if !browser.browser && (browser.lockHeld || !browser.clusterResources) then some browser else none
  | .captured _ _ => if browser.browser then some browser else none
  | .closed => if browser.browser then some { browser with browser := false } else none
  | .lockReleased =>
    if browser.lockHeld && !browser.browser then some { browser with lockHeld := false } else none

/-- The browser after some events, if each of them is in order. -/
def afterAll (browser : LazyBrowser) : List BrowserEvent → Option LazyBrowser
  | [] => some browser
  | event :: events => (browser.after event).bind fun browser => browser.afterAll events

theorem afterAll_append (browser : LazyBrowser) (events : List BrowserEvent) (event : BrowserEvent) :
    browser.afterAll (events ++ [event]) = (browser.afterAll events).bind fun browser =>
      browser.after event := by
  induction events generalizing browser with
  | nil =>
    rw [List.nil_append, afterAll, afterAll, Option.bind_some]
    cases browser.after event <;> rfl
  | cons first events ih =>
    rw [List.cons_append, afterAll, afterAll, Option.bind_assoc]
    congr 1
    funext browser
    exact ih browser

end LazyBrowser

/-- The events of a session are in order and led to its browser, which was started and locked at most
once; its requests are public. -/
structure Session.Orderly (clusterResources : Bool) (session : Session) : Prop where
  events : (⟨clusterResources, false, false⟩ : LazyBrowser).afterAll session.events =
    some session.browser
  cluster : session.browser.clusterResources = clusterResources
  started : session.events.count .started = session.browser.browser.toNat
  locked : session.events.count .lockAcquired = session.browser.lockHeld.toNat
  lockHeld : session.browser.browser = true → clusterResources = true → session.browser.lockHeld = true
  requests : ∀ request ∈ session.requests, request.Public

/-- A session that came to its end: its events are in order, the browser is closed and the lock free. -/
structure Session.Ended (session : Session) : Prop where
  events : ∃ clusterResources, (⟨clusterResources, false, false⟩ : LazyBrowser).afterAll session.events =
    some ⟨clusterResources, false, false⟩
  started : session.events.count .started ≤ 1
  locked : session.events.count .lockAcquired ≤ 1
  requests : ∀ request ∈ session.requests, request.Public

section

variable {clusterResources : Bool} {session : Session} (world : World)

theorem orderly_new (clusterResources : Bool) : (Session.new clusterResources).Orderly clusterResources where
  events := rfl
  cluster := rfl
  started := rfl
  locked := rfl
  lockHeld h := by cases h
  requests := by simp [Session.new]

/-- An event that changes nothing but is in order. -/
theorem Session.Orderly.note (h : session.Orderly clusterResources) {event : BrowserEvent}
    (hevent : session.browser.after event = some session.browser)
    (hstarted : event ≠ .started) (hlocked : event ≠ .lockAcquired) :
    (session.note event).Orderly clusterResources where
  events := by
    rw [Session.note, LazyBrowser.afterAll_append, h.events, Option.bind_some, hevent]
  cluster := h.cluster
  started := by
    rw [Session.note, List.count_append, List.count_singleton, h.started, beq_false_of_ne hstarted]
    rfl
  locked := by
    rw [Session.note, List.count_append, List.count_singleton, h.locked, beq_false_of_ne hlocked]
    rfl
  lockHeld := h.lockHeld
  requests := h.requests

/-- More public requests. -/
theorem Session.Orderly.withRequests (h : session.Orderly clusterResources) {atMost : Nat}
    {requests : List Request} (hadds : Adds atMost session.requests requests) :
    ({ session with requests } : Session).Orderly clusterResources where
  events := h.events
  cluster := h.cluster
  started := h.started
  locked := h.locked
  lockHeld := h.lockHeld
  requests := by
    obtain ⟨added, rfl, -, hpublic⟩ := hadds
    exact fun request hmem => (List.mem_append.mp hmem).elim (h.requests request) (hpublic request)

/-- With the lock, or without a cluster, a browser may be started. -/
theorem orderly_lock (h : session.Orderly clusterResources) (hclosed : session.browser.browser = false) :
    (LazyBrowser.lock world session).2.Orderly clusterResources ∧
      (LazyBrowser.lock world session).2.browser.browser = false ∧
      ((LazyBrowser.lock world session).1 = true →
        (LazyBrowser.lock world session).2.browser.lockHeld = true ∨ clusterResources = false) := by
  rw [LazyBrowser.lock]
  split
  · rename_i hwanted
    rw [Bool.and_eq_true, Bool.not_eq_true'] at hwanted
    have hallowed : (session.browser.clusterResources && !session.browser.lockHeld &&
        !session.browser.browser) = true := by rw [hwanted.1, hwanted.2, hclosed]; rfl
    split
    · refine ⟨⟨?_, h.cluster, ?_, ?_, fun _ _ => rfl, h.requests⟩, hclosed, fun _ => .inl rfl⟩
      · rw [Session.note, LazyBrowser.afterAll_append, h.events, Option.bind_some, LazyBrowser.after,
          if_pos hallowed]
      · rw [Session.note, List.count_append]
        exact h.started
      · rw [Session.note, List.count_append, h.locked, hwanted.2]
        rfl
    · refine ⟨h.note ?_ nofun nofun, hclosed, nofun⟩
      rw [LazyBrowser.after, if_pos hallowed]
  · rename_i hnone
    refine ⟨h, hclosed, fun _ => ?_⟩
    rw [h.cluster] at hnone
    cases hheld : session.browser.lockHeld with
    | true => exact .inl rfl
    | false =>
      rw [hheld, Bool.not_false, Bool.and_true] at hnone
      exact .inr (Bool.eq_false_iff.mpr hnone)

/-- The browser is open when it was got. -/
theorem orderly_get (h : session.Orderly clusterResources) :
    (LazyBrowser.get world session).2.Orderly clusterResources ∧
      ((LazyBrowser.get world session).1 = .ok () →
        (LazyBrowser.get world session).2.browser.browser = true) := by
  rw [LazyBrowser.get]
  split
  · rename_i hopen
    exact ⟨h, fun _ => hopen⟩
  · rename_i hclosed
    have hlock := orderly_lock world h (Bool.eq_false_iff.mpr hclosed)
    split
    · rename_i session' heq
      rw [heq] at hlock
      exact ⟨hlock.1, nofun⟩
    · rename_i session' heq
      rw [heq] at hlock
      obtain ⟨hlocked, hclosed', hheld⟩ := hlock
      have hheld := hheld rfl
      have hallowed : (!session'.browser.browser &&
          (session'.browser.lockHeld || !session'.browser.clusterResources)) = true := by
        rw [hclosed', hlocked.cluster]
        rcases hheld with hheld | hheld
        · rw [hheld]
          rfl
        · rw [hheld]
          simp
      split
      · refine ⟨⟨?_, hlocked.cluster, ?_, ?_, ?_, hlocked.requests⟩, fun _ => rfl⟩
        · rw [Session.note, LazyBrowser.afterAll_append, hlocked.events, Option.bind_some,
            LazyBrowser.after, if_pos hallowed]
        · rw [Session.note, List.count_append, hlocked.started, hclosed']
          rfl
        · rw [Session.note, List.count_append]
          exact hlocked.locked
        · intro _ hcluster
          exact hheld.resolve_right (by rw [hcluster]; exact Bool.noConfusion)
      · refine ⟨hlocked.note ?_ nofun nofun, nofun⟩
        rw [LazyBrowser.after, if_pos hallowed]

theorem orderly_capture (h : session.Orderly clusterResources) (hopen : session.browser.browser = true)
    (url : String) (screenshotOnly : Bool) :
    (capture world url screenshotOnly session).2.Orderly clusterResources ∧
      (capture world url screenshotOnly session).2.browser.browser = true := by
  have hnote : (session.note (.captured url screenshotOnly)).Orderly clusterResources := by
    refine h.note ?_ nofun nofun
    rw [LazyBrowser.after, if_pos hopen]
  rw [capture]
  split <;> exact ⟨hnote, hopen⟩

theorem orderly_screenshotPreview (h : session.Orderly clusterResources)
    (hopen : session.browser.browser = true) (url : String) (page : PageCapture) :
    (screenshotPreview world url page session).2.Orderly clusterResources := by
  have hcapture := orderly_capture world h hopen url true
  rw [screenshotPreview]
  split
  · exact h
  · split
    · rename_i heq
      rw [heq] at hcapture
      exact hcapture.1
    · rename_i heq
      rw [heq] at hcapture
      split <;> exact hcapture.1

theorem orderly_browserPreview (h : session.Orderly clusterResources) (url : String) :
    (browserPreview world url session).2.Orderly clusterResources := by
  have hget := orderly_get world h
  rw [browserPreview]
  split
  · rename_i heq
    rw [heq] at hget
    exact hget.1
  · rename_i session' heq
    rw [heq] at hget
    have hcapture := orderly_capture world hget.1 (hget.2 rfl) url false
    split
    · rename_i heq'
      rw [heq'] at hcapture
      exact hcapture.1
    · rename_i page session'' heq'
      rw [heq'] at hcapture
      split
      · exact orderly_screenshotPreview world hcapture.1 hcapture.2 url page
      · rename_i imageUrl _
        have hadds := (downloadMainImage_spec world.web imageUrl url session''.requests).1
        split
        · rename_i heq''
          rw [heq''] at hadds
          exact hcapture.1.withRequests hadds
        · rename_i heq''
          rw [heq''] at hadds
          exact orderly_screenshotPreview world (hcapture.1.withRequests hadds) hcapture.2 url page

theorem orderly_metadataPreview (h : session.Orderly clusterResources) (preferMetadata : Bool)
    (url : String) : (metadataPreview world preferMetadata url session).2.Orderly clusterResources := by
  have hadds := (findMetadataImage_spec world.web url session.requests).1
  rw [metadataPreview]
  split
  · split
    · rename_i heq
      rw [heq] at hadds
      exact h.withRequests hadds
    · rename_i heq
      rw [heq] at hadds
      exact h.withRequests hadds
  · exact h

theorem orderly_choosePreview (h : session.Orderly clusterResources) (preferMetadata : Bool)
    (url : String) : (choosePreview world preferMetadata url session).2.Orderly clusterResources := by
  have hmetadata := orderly_metadataPreview world h preferMetadata url
  rw [choosePreview]
  split
  · rename_i heq
    rw [heq] at hmetadata
    exact hmetadata
  · rename_i heq
    rw [heq] at hmetadata
    exact orderly_browserPreview world hmetadata url

theorem orderly_generate (h : session.Orderly clusterResources) (post : Post) (preferMetadata : Bool)
    (db : Db) :
    (generatePreviewsForPost world post preferMetadata db session).2.2.Orderly clusterResources := by
  rw [generatePreviewsForPost]
  split
  · exact h
  · split
    · exact h
    · rename_i url _
      have hchoose := orderly_choosePreview world h preferMetadata url
      split
      · exact h
      · split
        · rename_i heq
          rwa [heq] at hchoose
        · rename_i heq
          rw [heq] at hchoose
          split <;> exact hchoose

/-- A session is left with the browser closed and the lock free. -/
theorem ended_release (h : session.Orderly clusterResources) : (LazyBrowser.release session).Ended := by
  obtain ⟨⟨cluster, lockHeld, browser⟩, events, requests⟩ := session
  obtain ⟨hevents, rfl, hstarted, hlocked, -, hrequests⟩ := h
  dsimp only at hevents hstarted hlocked hrequests
  have hclosed : (⟨cluster, false, false⟩ : LazyBrowser).afterAll
      (if browser then events ++ [.closed] else events) = some ⟨cluster, lockHeld, false⟩ := by
    cases browser with
    | false => exact hevents
    | true =>
      rw [if_pos rfl, LazyBrowser.afterAll_append, hevents, Option.bind_some]
      rfl
  have hreleased : (⟨cluster, false, false⟩ : LazyBrowser).afterAll
      (LazyBrowser.release ⟨⟨cluster, lockHeld, browser⟩, events, requests⟩).events =
        some ⟨cluster, false, false⟩ := by
    cases lockHeld with
    | false => cases browser <;> exact hclosed
    | true =>
      have hfree := LazyBrowser.afterAll_append ⟨cluster, false, false⟩
        (if browser then events ++ [.closed] else events) .lockReleased
      rw [hclosed, Option.bind_some] at hfree
      cases browser <;> exact hfree
  -- Neither a start nor a lock is among the last events.
  have hcount (event : BrowserEvent) (hne : event ≠ .closed) (hne' : event ≠ .lockReleased) :
      (LazyBrowser.release ⟨⟨cluster, lockHeld, browser⟩, events, requests⟩).events.count event =
        events.count event := by
    cases lockHeld <;> cases browser <;>
      simp [LazyBrowser.release, Session.note, hne.symm, hne'.symm]
  have hsame : (LazyBrowser.release ⟨⟨cluster, lockHeld, browser⟩, events, requests⟩).requests =
      requests := by
    cases lockHeld <;> cases browser <;> rfl
  refine ⟨⟨cluster, hreleased⟩, ?_, ?_, ?_⟩
  · rw [hcount .started nofun nofun, hstarted]
    exact browser.toNat_le
  · rw [hcount .lockAcquired nofun nofun, hlocked]
    exact lockHeld.toNat_le
  · rw [hsame]
    exact hrequests

/-! ## Runs of the job -/

/-- The runs of the job that came to their end left nothing behind, and the present one is orderly. -/
structure System.Tidy (s : System) : Prop where
  job : ∀ run, s.job = some run → ∃ clusterResources, run.session.Orderly clusterResources
  finished : ∀ session ∈ s.finished, session.Ended

theorem System.Tidy.withJob {s s' : System} (h : s.Tidy) (hjob : s'.job = s.job)
    (hfinished : s'.finished = s.finished) : s'.Tidy :=
  ⟨hjob ▸ h.job, hfinished ▸ h.finished⟩

theorem tidy_next {s : System} (h : s.Tidy) (world : World) : (s.next world).Tidy := by
  rw [System.next]
  split
  · exact h
  · rename_i run hjob
    split
    · exact h
    · rename_i post batch _
      obtain ⟨clusterResources, horderly⟩ := h.job run hjob
      have hgenerate := orderly_generate world horderly post run.preferMetadata s.db
      split
      all_goals
        rename_i heq
        rw [heq] at hgenerate
        refine ⟨?_, h.finished⟩
        rintro _ ⟨⟩
        exact ⟨clusterResources, hgenerate⟩

theorem tidy_step {s : System} (h : s.Tidy) (action : Action) : (s.step action).Tidy := by
  cases action with
  | begin clusterResources generationEnabled preferMetadata =>
    rw [System.step, System.begin]
    split
    · exact h
    · refine ⟨?_, h.finished⟩
      rintro _ ⟨⟩
      exact ⟨clusterResources, orderly_new clusterResources⟩
  | next world => exact tidy_next h world
  | finish =>
    rw [System.step, System.finish]
    split
    · rename_i preferMetadata session hjob
      obtain ⟨clusterResources, horderly⟩ := h.job _ hjob
      refine ⟨nofun, List.forall_mem_append.mpr ⟨h.finished, ?_⟩⟩
      rw [List.forall_mem_singleton]
      exact ended_release horderly
    · exact h
  | crash => exact ⟨nofun, h.finished⟩
  | create userId link media => exact h.withJob rfl rfl
  | edit id link media => exact h.withJob rfl rfl
  | deletePost id => exact h.withJob rfl rfl
  | deleteLinkPreviewImages => exact h.withJob rfl rfl
  | deleteUnownedMedia => exact h.withJob rfl rfl

/-- The system before any run of the job. -/
def System.init (db : Db) : System :=
  ⟨db, none, [], [], fun id => ((db.posts.get id).map Post.media).getD []⟩

end

end Rellm.Previews
