import Rellm.Client.Links
import Rellm.Foundation.Run
import Rellm.Foundation.Table

/-!
# The cache of quoted posts

What the links of the shown posts point at is fetched once and kept under its key. An entry waits
until the server of its post can be asked, is loading while a fetch for it runs, and then holds the
post, the event it belongs to, or nothing. The results of fetches are written over whatever the
entry holds then: a post that is provided by hand while its fetch runs may be lost to it.
-/

namespace Rellm.Client

open Foundation

inductive PostContext where
  | post
  | reply
  | event
  | occasion
  | federatedPost
  | federatedReply
  | unrecognized (number : Int)
  deriving DecidableEq, Repr

structure Post where
  id : Text
  context : PostContext
  deriving DecidableEq, Repr

structure Occasion where
  post : Option Post
  deriving DecidableEq, Repr

structure Event where
  occasions : List Occasion
  deriving DecidableEq, Repr

structure RellmServer where
  frontendHost : Text
  enabled : Bool
  connected : Bool
  deriving DecidableEq, Repr

/-- Where a target stands. -/
inductive Entry where
  | awaiting (target : RellmLinks.Target)
  | loading
  | loaded (post : Post)
  | loadedEvent (event : Event) (occasion : Occasion)
  | unavailable
  deriving DecidableEq, Repr

def Entry.isLoading : Entry → Bool
  | .loading => true
  | _ => false

/-- An entry is shown as a post or an event. -/
def Entry.isShown : Entry → Bool
  | .loaded _ => true
  | .loadedEvent _ _ => true
  | _ => false

abbrev Entries := HashMap Text Entry

inductive Plan where
  | fetch
  | wait
  | giveUp
  deriving DecidableEq, Repr

/-- The servers the user added, those there is a preview of, and the hosts that are no servers. -/
structure World where
  servers : List RellmServer
  previews : HashMap Text RellmServer
  nonRellmHosts : List Text

inductive AccountsPanelMsg where
  | ensureServerPreviews (hosts : List Text)
  | gotRefreshedAccount (account : Text)
  deriving DecidableEq, Repr

/-- A message to the cache; a result that is missing is that of a fetch that failed. -/
inductive Msg where
  | requestLinks (pairs : List (Text × Text))
  | provide (host : Text) (post : Post)
  | gotPost (target : RellmLinks.Target)
      (result : Option (Option AccountsPanelMsg × List Post))
  | gotEvent (target : RellmLinks.Target) (post : Post)
      (result : Option (Option AccountsPanelMsg × List Event))
  | gotFederated (entryKey : Text) (result : Option Post)

/-- A fetch that was started, with what its result is handed on with. -/
inductive Fetch where
  | post (target : RellmLinks.Target)
  | event (target : RellmLinks.Target) (post : Post)
  | federated (entryKey : Text)
  deriving DecidableEq, Repr

/-- The key of the entry that a fetch is for. -/
def Fetch.key : Fetch → Text
  | .post target => RellmLinks.key target
  | .event target _ => RellmLinks.key target
  | .federated entryKey => entryKey

namespace QuoteLinks

def rellmServerForHost (servers : List RellmServer) (frontendHost : Text) : Option RellmServer :=
  (servers.filter fun server => server.frontendHost = frontendHost).head?

def plan (world : World) (target : RellmLinks.Target) : Plan :=
  match rellmServerForHost world.servers target.host with
  | some known => if known.enabled && known.connected then .fetch else .wait
  | none =>
    if target.host ∈ world.nonRellmHosts then .giveUp
    else if (world.previews.value target.host).any (·.connected) then .fetch
    else if RellmLinks.isProbeableHost target.host then .wait
    else .giveUp

def federatedPlan : FederatedLinks.Target → Plan
  | .mastodonStatus instanceHost _ =>
    if RellmLinks.isProbeableHost instanceHost then .fetch else .giveUp
  | _ => .fetch

def entryForLinked (entries : Entries) (linked : Linked) : Option Entry :=
  entries.value (linkKey linked)

/-- The first of the targets with each key. -/
def dedupe {α : Type} (key : α → Text) (targets : List α) : List α :=
  targets.foldl (fun acc target =>
    if acc.any fun seen => key seen = key target then acc else acc ++ [target]) []

/-- What a request writes and starts. -/
structure Requested where
  entries : Entries
  fetch : List RellmLinks.Target := []
  previewHosts : List Text := []
  fetchFederated : List FederatedLinks.Target := []

def requestStep (world : World) (acc : Requested) (target : RellmLinks.Target) : Requested :=
  match plan world target with
  | .fetch =>
    { acc with
      entries := acc.entries.put (RellmLinks.key target, .loading)
      fetch := acc.fetch ++ [target] }
  | .wait =>
    { acc with
      entries := acc.entries.put (RellmLinks.key target, .awaiting target)
      previewHosts :=
        if (rellmServerForHost world.servers target.host).isNone &&
            !decide (target.host ∈ acc.previewHosts) then acc.previewHosts ++ [target.host]
        else acc.previewHosts }
  | .giveUp => { acc with entries := acc.entries.put (RellmLinks.key target, .unavailable) }

def federatedStep (acc : Requested) (target : FederatedLinks.Target) : Requested :=
  match federatedPlan target with
  | .fetch =>
    { acc with
      entries := acc.entries.put (FederatedLinks.key target, .loading)
      fetchFederated := acc.fetchFederated ++ [target] }
  | _ => { acc with entries := acc.entries.put (FederatedLinks.key target, .unavailable) }

def rellmTarget : Linked → Option RellmLinks.Target
  | .rellmLink target => some target
  | .federatedLink _ => none

def federatedTarget : Linked → Option FederatedLinks.Target
  | .federatedLink target => some target
  | .rellmLink _ => none

/-- The posts on servers that links point at, once each, if there is no entry for them. -/
def newTargets (entries : Entries) (linked : List Linked) : List RellmLinks.Target :=
  (dedupe RellmLinks.key (linked.filterMap rellmTarget)).filter fun target =>
    (entries.value (RellmLinks.key target)).isNone

/-- The posts on other networks that links point at, once each, if there is no entry for them. -/
def newFederated (entries : Entries) (linked : List Linked) : List FederatedLinks.Target :=
  (dedupe FederatedLinks.key (linked.filterMap federatedTarget)).filter fun target =>
    (entries.value (FederatedLinks.key target)).isNone

/-- The links that parse. -/
def parsed (library : Library) (pairs : List (Text × Text)) : List Linked :=
  pairs.filterMap fun pair => parseLink library pair.1 pair.2

/-- Writes an entry for each new target of the links. -/
def request (library : Library) (world : World) (pairs : List (Text × Text)) (entries : Entries) :
    Requested :=
  let linked := parsed library pairs
  let result := (newTargets entries linked).foldl (requestStep world) { entries := entries }
  (newFederated entries linked).foldl federatedStep result

structure Replanned where
  entries : Entries
  fetch : List RellmLinks.Target := []

def settleStep (world : World) (acc : Replanned) (row : Text × Entry) : Replanned :=
  match row.2 with
  | .awaiting target =>
    match plan world target with
    | .fetch =>
      { entries := acc.entries.put (row.1, .loading), fetch := acc.fetch ++ [target] }
    | .wait => acc
    | .giveUp => { acc with entries := acc.entries.put (row.1, .unavailable) }
  | _ => acc

/-- Plans each waiting entry again; in which order does not matter. -/
def settle (world : World) (entries : Entries) : Replanned :=
  entries.rows.foldl (settleStep world) { entries := entries }

def receive (entryKey : Text) (maybePost : Option Post) (entries : Entries) : Entries :=
  entries.put (entryKey, match maybePost with
    | some post => .loaded post
    | none => .unavailable)

def wantsEvent (post : Post) : Bool := post.context = .event || post.context = .occasion

def findOccasion (occasionPostId : Text) (event : Event) : Option Occasion :=
  (event.occasions.filter fun occasion => occasion.post.map Post.id = some occasionPostId).head?

/-- The occasion of an event to show for a post. -/
def eventOf (post : Post) (event : Event) : Option (Event × Occasion) :=
  (if post.context = .occasion then findOccasion post.id event else event.occasions.head?).map
    fun occasion => (event, occasion)

def receiveEvent (entryKey : Text) (post : Post) (maybeEvent : Option Event) (entries : Entries) :
    Entries :=
  entries.put (entryKey, match maybeEvent.bind (eventOf post) with
    | some (event, occasion) => .loadedEvent event occasion
    | none => .loaded post)

/-- What a message leaves behind: the entries, the fetches it starts and what it sends on. -/
structure Updated where
  entries : Entries
  started : List Fetch := []
  sent : List AccountsPanelMsg := []

def update (library : Library) (world : World) (msg : Msg) (entries : Entries) : Updated :=
  match msg with
  | .requestLinks pairs =>
    let result := request library world pairs entries
    { entries := result.entries
      started := result.fetch.map .post ++
        result.fetchFederated.map fun target => .federated (FederatedLinks.key target)
      sent := if result.previewHosts.isEmpty then [] else
        [.ensureServerPreviews result.previewHosts] }
  | .provide host post =>
    let target : RellmLinks.Target := ⟨host, post.id⟩
    if wantsEvent post then
      { entries := entries.put (RellmLinks.key target, .loading), started := [.event target post] }
    else { entries := receive (RellmLinks.key target) (some post) entries }
  | .gotPost target result =>
    match result with
    | some (sent, posts) =>
      match posts.head? with
      | some post =>
        if wantsEvent post then
          { entries := entries, started := [.event target post], sent := sent.toList }
        else
          { entries := receive (RellmLinks.key target) (some post) entries, sent := sent.toList }
      | none => { entries := receive (RellmLinks.key target) none entries, sent := sent.toList }
    | none => { entries := receive (RellmLinks.key target) none entries }
  | .gotFederated entryKey result => { entries := receive entryKey result entries }
  | .gotEvent target post result =>
    match result with
    | some (sent, events) =>
      { entries := receiveEvent (RellmLinks.key target) post events.head? entries
        sent := sent.toList }
    | none => { entries := receiveEvent (RellmLinks.key target) post none entries }

def advance (world : World) (entries : Entries) : Updated :=
  let result := settle world entries
  { entries := result.entries, started := result.fetch.map .post }

/-- The entries, the fetches whose results are to come, and all targets that were named. -/
structure Session where
  entries : Entries
  outstanding : List Fetch
  named : List Linked

def init : Session := ⟨.empty, [], []⟩

/-- The result of a fetch. -/
inductive Outcome where
  | post (result : Option (Option AccountsPanelMsg × List Post))
  | event (result : Option (Option AccountsPanelMsg × List Event))
  | federated (result : Option Post)

/-- The message that hands on the result of a fetch. -/
def handOn : Fetch → Outcome → Option Msg
  | .post target, .post result => some (.gotPost target result)
  | .event target post, .event result => some (.gotEvent target post result)
  | .federated entryKey, .federated result => some (.gotFederated entryKey result)
  | _, _ => none

/-- What happens to the cache. The button that quotes a post provides it without starting the fetch
that this asks for. -/
inductive Action where
  | requestLinks (world : World) (pairs : List (Text × Text))
  | provide (world : World) (host : Text) (post : Post)
  | openQuoting (world : World) (host : Text) (post : Post)
  | advance (world : World)
  | arrive (world : World) (index : Nat) (outcome : Outcome)

variable (library : Library)

def step (s : Session) : Action → Session
  | .requestLinks world pairs =>
    let updated := update library world (.requestLinks pairs) s.entries
    ⟨updated.entries, s.outstanding ++ updated.started, s.named ++ parsed library pairs⟩
  | .provide world host post =>
    let updated := update library world (.provide host post) s.entries
    ⟨updated.entries, s.outstanding ++ updated.started, s.named ++ [.rellmLink ⟨host, post.id⟩]⟩
  | .openQuoting world host post =>
    let updated := update library world (.provide host post) s.entries
    ⟨updated.entries, s.outstanding, s.named ++ [.rellmLink ⟨host, post.id⟩]⟩
  | .advance world =>
    let updated := advance world s.entries
    ⟨updated.entries, s.outstanding ++ updated.started, s.named⟩
  | .arrive world index outcome =>
    match s.outstanding[index]?.bind fun fetch => handOn fetch outcome with
    | some msg =>
      let updated := update library world msg s.entries
      ⟨updated.entries, s.outstanding.eraseIdx index ++ updated.started, s.named⟩
    | none => s

/-- The fetches that a request or a new plan starts. -/
def started (s : Session) : Action → List Fetch
  | .requestLinks world pairs => (update library world (.requestLinks pairs) s.entries).started
  | .advance world => (advance world s.entries).started
  | _ => []

/-- Whether the entry under a key is loading. -/
def loadingAt (entries : Entries) (k : Text) : Bool := (entries.value k).any Entry.isLoading

/-- Whether the entry under a key is shown. -/
def shownAt (entries : Entries) (k : Text) : Bool := (entries.value k).any Entry.isShown

/-- What was named has one entry each, of which no two share a key, and an entry is loading exactly
while a fetch for it runs. -/
structure Lawful (s : Session) : Prop where
  entry : ∀ linked ∈ s.named, ∃! row, row ∈ s.entries.rows ∧ row.1 = linkKey linked
  loading : ∀ k, loadingAt s.entries k = true ↔ ∃ fetch ∈ s.outstanding, fetch.key = k
  distinct : ∀ linked ∈ s.named, ∀ linked' ∈ s.named, linkKey linked = linkKey linked' →
    linked = linked'

/-- What starts fetches starts one for each target, and none for what is loading or shown. -/
structure StartsOnce (s : Session) (a : Action) : Prop where
  once : ((started library s a).map Fetch.key).Nodup
  needed : ∀ fetch ∈ started library s a,
    loadingAt s.entries fetch.key = false ∧ shownAt s.entries fetch.key = false

/-- Whether an action provides the post of an event under a key. -/
def providesEvent (k : Text) : Action → Prop
  | .provide _ host post => wantsEvent post = true ∧ RellmLinks.key ⟨host, post.id⟩ = k
  | .openQuoting _ host post => wantsEvent post = true ∧ RellmLinks.key ⟨host, post.id⟩ = k
  | _ => False

/-- What is shown stays shown, unless the post of an event is provided in its place. -/
def KeepsShown (s : Session) (a : Action) : Prop :=
  ∀ k, shownAt s.entries k = true → ¬ providesEvent k a → shownAt (step library s a).entries k = true

/-- A post is provided under the name of a server while no fetch for it runs. The button provides
the post of an event only while a fetch for it runs, which then goes on. -/
def Undisturbed (s : Session) : Action → Prop
  | .provide _ host post =>
    (RellmLinks.Target.mk host post.id).Clean ∧
      loadingAt s.entries (RellmLinks.key ⟨host, post.id⟩) = false
  | .openQuoting _ host post =>
    (RellmLinks.Target.mk host post.id).Clean ∧
      loadingAt s.entries (RellmLinks.key ⟨host, post.id⟩) = wantsEvent post
  | _ => True

/-- Entries are written one after the other. -/
def assign (rows : List (Text × Entry)) (entries : Entries) : Entries := rows.foldl Table.put entries

section

variable {entries : Entries} {rows : List (Text × Entry)} {k : Text} {entry : Entry}

theorem value_assign_of_notMem (h : k ∉ rows.map Prod.fst) :
    (assign rows entries).value k = entries.value k := by
  induction rows generalizing entries with
  | nil => rfl
  | cons row rows ih =>
    rw [List.map_cons, List.mem_cons, not_or] at h
    rw [assign, List.foldl_cons, ← assign, ih h.2, HashMap.value_put, if_neg h.1]

theorem value_assign_of_mem (hnodup : (rows.map Prod.fst).Nodup) (h : (k, entry) ∈ rows) :
    (assign rows entries).value k = some entry := by
  induction rows generalizing entries with
  | nil => cases h
  | cons row rows ih =>
    rw [List.map_cons, List.nodup_cons] at hnodup
    rw [assign, List.foldl_cons, ← assign]
    obtain rfl | h := List.mem_cons.mp h
    · rw [value_assign_of_notMem hnodup.1, HashMap.value_put, if_pos rfl]
    · exact ih hnodup.2 h

/-- The keys of the entries that are written as loading. -/
def loadingKeys (rows : List (Text × Entry)) : List Text :=
  (rows.filter fun row => row.2.isLoading).map Prod.fst

theorem loadingKeys_sublist : (loadingKeys rows).Sublist (rows.map Prod.fst) :=
  (List.filter_sublist).map _

/-- Where distinct entries are written over such that are not loading, the keys written as loading
are the ones that become so. -/
theorem loadingAt_assign (hnodup : (rows.map Prod.fst).Nodup)
    (hnew : ∀ row ∈ rows, loadingAt entries row.1 = false) (k : Text) :
    (loadingAt (assign rows entries) k).toNat =
      (loadingAt entries k).toNat + (loadingKeys rows).count k := by
  by_cases hmem : k ∈ rows.map Prod.fst
  · obtain ⟨row, hrow, rfl⟩ := List.mem_map.mp hmem
    have hcount : (loadingKeys rows).count row.1 = row.2.isLoading.toNat := by
      cases hloading : row.2.isLoading with
      | false =>
        apply List.count_eq_zero_of_not_mem
        intro hkey
        obtain ⟨row', hrow', hsame⟩ := List.mem_map.mp hkey
        obtain ⟨hrow', hloading'⟩ := List.mem_filter.mp hrow'
        rw [List.inj_on_of_nodup_map hnodup hrow' hrow hsame, hloading] at hloading'
        cases hloading'
      | true =>
        apply List.count_eq_one_of_mem (loadingKeys_sublist.nodup hnodup)
        exact List.mem_map.mpr ⟨_, List.mem_filter.mpr ⟨hrow, hloading⟩, rfl⟩
    rw [hcount, hnew _ hrow, loadingAt, value_assign_of_mem hnodup hrow]
    simp
  · have hcount : (loadingKeys rows).count k = 0 :=
      List.count_eq_zero_of_not_mem fun hkey => hmem (loadingKeys_sublist.subset hkey)
    rw [hcount, loadingAt, loadingAt, value_assign_of_notMem hmem, Nat.add_zero]

/-- Entries that are not shown are written over without loss. -/
theorem shownAt_assign (hnew : ∀ row ∈ rows, shownAt entries row.1 = false)
    (h : shownAt entries k = true) : shownAt (assign rows entries) k = true := by
  have hmem : k ∉ rows.map Prod.fst := by
    intro hmem
    obtain ⟨row, hrow, rfl⟩ := List.mem_map.mp hmem
    exact Bool.false_ne_true ((hnew row hrow).symm.trans h)
  rw [shownAt, value_assign_of_notMem hmem]
  exact h

/-- Writing entries takes none away. -/
theorem isSome_assign (h : (entries.value k).isSome) : ((assign rows entries).value k).isSome := by
  induction rows generalizing entries with
  | nil => exact h
  | cons row rows ih =>
    rw [assign, List.foldl_cons, ← assign]
    apply ih
    rw [HashMap.value_put]
    split
    · rfl
    · exact h

theorem isSome_assign_of_mem (h : k ∈ rows.map Prod.fst) :
    ((assign rows entries).value k).isSome := by
  induction rows generalizing entries with
  | nil => cases h
  | cons row rows ih =>
    rw [assign, List.foldl_cons, ← assign]
    obtain rfl | h := List.mem_cons.mp h
    · apply isSome_assign
      rw [HashMap.value_put, if_pos rfl]
      rfl
    · exact ih h

end

section

variable {α : Type} {key : α → Text} {targets : List α} {target : α}

/-- What is kept of targets is distinct and comes from them, and each has its key in it. -/
theorem dedupe_spec (key : α → Text) (targets : List α) :
    ((dedupe key targets).map key).Nodup ∧ (∀ target ∈ dedupe key targets, target ∈ targets) ∧
      ∀ target ∈ targets, key target ∈ (dedupe key targets).map key := by
  induction targets using List.reverseRecOn with
  | nil => exact ⟨List.nodup_nil, fun _ h => h, fun _ h => absurd h List.not_mem_nil⟩
  | append_singleton targets target ih =>
    obtain ⟨hnodup, hmem, hkeys⟩ := ih
    have hstep : dedupe key (targets ++ [target]) =
        if (dedupe key targets).any fun seen => key seen = key target then dedupe key targets
        else dedupe key targets ++ [target] := by
      rw [dedupe, List.foldl_append]
      rfl
    rw [hstep]
    split
    · rename_i hseen
      obtain ⟨seen, hseen, hsame⟩ := List.any_eq_true.mp hseen
      refine ⟨hnodup, fun other h => List.mem_append_left _ (hmem other h), fun other h => ?_⟩
      obtain h | h := List.mem_append.mp h
      · exact hkeys other h
      · rw [List.mem_singleton.mp h, ← of_decide_eq_true hsame]
        exact List.mem_map_of_mem hseen
    · rename_i hnew
      refine ⟨?_, fun other h => ?_, fun other h => ?_⟩
      · rw [List.map_append, List.map_singleton, List.nodup_append]
        refine ⟨hnodup, List.nodup_singleton _, fun k hk k' hk' => ?_⟩
        obtain ⟨seen, hseen, rfl⟩ := List.mem_map.mp hk
        rintro hsame
        rw [List.mem_singleton] at hk'
        exact hnew (List.any_eq_true.mpr ⟨seen, hseen, decide_eq_true (hsame.trans hk')⟩)
      · obtain h | h := List.mem_append.mp h
        · exact List.mem_append_left _ (hmem other h)
        · exact List.mem_append_right _ h
      · rw [List.map_append, List.mem_append]
        obtain h | h := List.mem_append.mp h
        · exact Or.inl (hkeys other h)
        · exact Or.inr (List.mem_map_of_mem h)

end

section

variable {world : World} {entries : Entries}

/-- The entry that is written for a target by a plan. -/
def planned (target : RellmLinks.Target) : Plan → Entry
  | .fetch => .loading
  | .wait => .awaiting target
  | .giveUp => .unavailable

/-- The row that a request writes for a post on a server. -/
def targetRow (world : World) (target : RellmLinks.Target) : Text × Entry :=
  (RellmLinks.key target, planned target (plan world target))

/-- The row that a request writes for a post on another network. -/
def federatedRow (target : FederatedLinks.Target) : Text × Entry :=
  (FederatedLinks.key target, if federatedPlan target = .fetch then .loading else .unavailable)

theorem foldl_requestStep (targets : List RellmLinks.Target) (acc : Requested) :
    (targets.foldl (requestStep world) acc).entries =
        assign (targets.map (targetRow world)) acc.entries ∧
      (targets.foldl (requestStep world) acc).fetch =
        acc.fetch ++ targets.filter (fun target => plan world target = .fetch) ∧
      (targets.foldl (requestStep world) acc).fetchFederated = acc.fetchFederated := by
  induction targets generalizing acc with
  | nil => simp [assign]
  | cons target targets ih =>
    obtain ⟨hentries, hfetch, hfederated⟩ := ih (requestStep world acc target)
    rw [List.foldl_cons, hentries, hfetch, hfederated, List.map_cons, assign, assign,
      List.foldl_cons]
    cases hplan : plan world target <;> simp [requestStep, targetRow, planned, hplan]

theorem foldl_federatedStep (targets : List FederatedLinks.Target) (acc : Requested) :
    (targets.foldl federatedStep acc).entries = assign (targets.map federatedRow) acc.entries ∧
      (targets.foldl federatedStep acc).fetch = acc.fetch ∧
      (targets.foldl federatedStep acc).fetchFederated =
        acc.fetchFederated ++ targets.filter fun target => federatedPlan target = .fetch := by
  induction targets generalizing acc with
  | nil => simp [assign]
  | cons target targets ih =>
    obtain ⟨hentries, hfetch, hfederated⟩ := ih (federatedStep acc target)
    rw [List.foldl_cons, hentries, hfetch, hfederated, List.map_cons, assign, assign,
      List.foldl_cons]
    cases hplan : federatedPlan target <;> simp [federatedStep, federatedRow, hplan]

/-- The rows that a request writes. -/
def requestRows (world : World) (entries : Entries) (linked : List Linked) :
    List (Text × Entry) :=
  (newTargets entries linked).map (targetRow world) ++ (newFederated entries linked).map federatedRow

variable {library : Library} {pairs : List (Text × Text)}

theorem entries_request : (request library world pairs entries).entries =
    assign (requestRows world entries (parsed library pairs)) entries := by
  rw [request, (foldl_federatedStep _ _).1, (foldl_requestStep _ _).1, requestRows, assign, assign,
    assign, List.foldl_append]

variable (library) in
/-- What a request starts are the fetches for the entries it writes as loading. -/
theorem keys_started_request :
    (update library world (.requestLinks pairs) entries).started.map Fetch.key =
      loadingKeys (requestRows world entries (parsed library pairs)) := by
  have hfetch : (request library world pairs entries).fetch =
      (newTargets entries (parsed library pairs)).filter
        fun target => plan world target = .fetch := by
    rw [request, (foldl_federatedStep _ _).2.1, (foldl_requestStep _ _).2.1]
    rfl
  have hfederated : (request library world pairs entries).fetchFederated =
      (newFederated entries (parsed library pairs)).filter
        fun target => federatedPlan target = .fetch := by
    rw [request, (foldl_federatedStep _ _).2.2, (foldl_requestStep _ _).2.2]
    rfl
  have htarget (target : RellmLinks.Target) :
      (targetRow world target).2.isLoading = decide (plan world target = .fetch) := by
    cases hplan : plan world target <;> simp [targetRow, planned, hplan, Entry.isLoading]
  have hfederatedTarget (target : FederatedLinks.Target) :
      (federatedRow target).2.isLoading = decide (federatedPlan target = .fetch) := by
    cases hplan : federatedPlan target <;> simp [federatedRow, hplan, Entry.isLoading]
  rw [update]
  dsimp only
  rw [hfetch, hfederated, loadingKeys, requestRows, List.filter_append, List.filter_map,
    List.filter_map, List.map_append, List.map_append, List.map_map, List.map_map, List.map_map,
    List.map_map]
  congr 2
  · exact List.filter_congr fun target _ => (htarget target).symm
  · exact List.filter_congr fun target _ => (hfederatedTarget target).symm

/-- A new plan's row for a waiting entry, if it stops waiting. -/
def settledRow (world : World) (row : Text × Entry) : Option (Text × Entry) :=
  match row.2 with
  | .awaiting target =>
    match plan world target with
    | .fetch => some (row.1, .loading)
    | .wait => none
    | .giveUp => some (row.1, .unavailable)
  | _ => none

/-- The rows that a new plan writes. -/
def settledRows (world : World) (entries : Entries) : List (Text × Entry) :=
  entries.rows.filterMap (settledRow world)

/-- Only a waiting entry is written over by a new plan, which waits no more. -/
theorem settledRow_eq_some {row row' : Text × Entry} (h : settledRow world row = some row') :
    (∃ target, row.2 = .awaiting target) ∧ row'.1 = row.1 ∧
      ∀ target, row'.2 ≠ .awaiting target := by
  unfold settledRow at h
  split at h
  · rename_i target hrow
    split at h
    · cases h
      exact ⟨⟨target, hrow⟩, rfl, fun _ => nofun⟩
    · cases h
    · cases h
      exact ⟨⟨target, hrow⟩, rfl, fun _ => nofun⟩
  · cases h

variable (world) in
/-- A new plan writes its rows and fetches for the ones it writes as loading. -/
theorem foldl_settleStep (rows : List (Text × Entry)) (acc : Replanned)
    (hrows : ∀ row ∈ rows, ∀ target, row.2 = .awaiting target → RellmLinks.key target = row.1) :
    (rows.foldl (settleStep world) acc).entries =
        assign (rows.filterMap (settledRow world)) acc.entries ∧
      (rows.foldl (settleStep world) acc).fetch.map RellmLinks.key =
        acc.fetch.map RellmLinks.key ++ loadingKeys (rows.filterMap (settledRow world)) := by
  induction rows generalizing acc with
  | nil => simp [assign, loadingKeys]
  | cons row rows ih =>
    obtain ⟨hentries, hfetch⟩ := ih (settleStep world acc row)
      fun other hother => hrows other (List.mem_cons_of_mem _ hother)
    rw [List.foldl_cons, hentries, hfetch]
    obtain ⟨k, entry⟩ := row
    cases entry with
    | awaiting target =>
      have hkey : RellmLinks.key target = k := hrows _ List.mem_cons_self target rfl
      cases hplan : plan world target <;>
        simp [settleStep, settledRow, hplan, hkey, assign, loadingKeys, Entry.isLoading]
    | loading | loaded post | loadedEvent event occasion | unavailable =>
      exact ⟨rfl, rfl⟩

theorem notMem_of_isNone {k : Text} (h : (entries.value k).isNone = true) :
    loadingAt entries k = false ∧ shownAt entries k = false := by
  rw [Option.isNone_iff_eq_none] at h
  rw [loadingAt, shownAt, h]
  exact ⟨rfl, rfl⟩

theorem mem_newTargets {linked : List Linked} {target : RellmLinks.Target}
    (h : target ∈ newTargets entries linked) :
    Linked.rellmLink target ∈ linked ∧ (entries.value (RellmLinks.key target)).isNone = true := by
  obtain ⟨hmem, hnone⟩ := List.mem_filter.mp h
  obtain ⟨one, hone, htarget⟩ := List.mem_filterMap.mp ((dedupe_spec _ _).2.1 target hmem)
  cases one with
  | rellmLink other =>
    cases htarget
    exact ⟨hone, hnone⟩
  | federatedLink other => cases htarget

theorem mem_newFederated {linked : List Linked} {target : FederatedLinks.Target}
    (h : target ∈ newFederated entries linked) :
    Linked.federatedLink target ∈ linked ∧
      (entries.value (FederatedLinks.key target)).isNone = true := by
  obtain ⟨hmem, hnone⟩ := List.mem_filter.mp h
  obtain ⟨one, hone, htarget⟩ := List.mem_filterMap.mp ((dedupe_spec _ _).2.1 target hmem)
  cases one with
  | rellmLink other => cases htarget
  | federatedLink other =>
    cases htarget
    exact ⟨hone, hnone⟩

/-- A request writes over no entry. -/
theorem isNone_of_requestRows {linked : List Linked} {row : Text × Entry}
    (h : row ∈ requestRows world entries linked) : (entries.value row.1).isNone = true := by
  obtain h | h := List.mem_append.mp h
  · obtain ⟨target, htarget, rfl⟩ := List.mem_map.mp h
    exact (mem_newTargets htarget).2
  · obtain ⟨target, htarget, rfl⟩ := List.mem_map.mp h
    exact (mem_newFederated htarget).2

/-- An entry that a request lets wait does so for the target of its key. -/
theorem key_of_requestRows {linked : List Linked} {row : Text × Entry}
    (h : row ∈ requestRows world entries linked) {target : RellmLinks.Target}
    (hrow : row.2 = .awaiting target) : RellmLinks.key target = row.1 := by
  obtain h | h := List.mem_append.mp h
  · obtain ⟨other, _, rfl⟩ := List.mem_map.mp h
    unfold targetRow planned at hrow ⊢
    dsimp only at hrow
    split at hrow
    · cases hrow
    · cases hrow
      rfl
    · cases hrow
  · obtain ⟨other, _, rfl⟩ := List.mem_map.mp h
    unfold federatedRow at hrow
    dsimp only at hrow
    split at hrow <;> cases hrow

/-- A request writes each entry once. -/
theorem nodup_requestRows {linked : List Linked} (hclean : ∀ one ∈ linked, one.Clean) :
    ((requestRows world entries linked).map Prod.fst).Nodup := by
  rw [requestRows, List.map_append, List.map_map, List.map_map, List.nodup_append]
  refine ⟨?_, ?_, fun k hk k' hk' => ?_⟩
  · exact ((List.filter_sublist).map _).nodup (dedupe_spec RellmLinks.key _).1
  · exact ((List.filter_sublist).map _).nodup (dedupe_spec FederatedLinks.key _).1
  · obtain ⟨target, htarget, rfl⟩ := List.mem_map.mp hk
    obtain ⟨federated, hfederated, rfl⟩ := List.mem_map.mp hk'
    exact rellmKey_ne (hclean _ (mem_newTargets htarget).1)
      (hclean _ (mem_newFederated hfederated).1)

/-- After a request, all its links have entries. -/
theorem isSome_request {linked : List Linked} {one : Linked} (h : one ∈ linked) :
    ((assign (requestRows world entries linked) entries).value (linkKey one)).isSome := by
  cases hvalue : entries.value (linkKey one) with
  | some entry =>
    apply isSome_assign
    rw [hvalue]
    rfl
  | none =>
    apply isSome_assign_of_mem
    rw [requestRows, List.map_append, List.map_map, List.map_map, List.mem_append]
    cases one with
    | rellmLink target =>
      have htarget : target ∈ linked.filterMap rellmTarget := List.mem_filterMap.mpr ⟨_, h, rfl⟩
      obtain ⟨seen, hseen, hsame⟩ :=
        List.mem_map.mp ((dedupe_spec RellmLinks.key _).2.2 target htarget)
      refine Or.inl (List.mem_map.mpr ⟨seen, List.mem_filter.mpr ⟨hseen, ?_⟩, hsame⟩)
      rw [hsame]
      exact Option.isNone_iff_eq_none.mpr hvalue
    | federatedLink target =>
      have htarget : target ∈ linked.filterMap federatedTarget :=
        List.mem_filterMap.mpr ⟨_, h, rfl⟩
      obtain ⟨seen, hseen, hsame⟩ :=
        List.mem_map.mp ((dedupe_spec FederatedLinks.key _).2.2 target htarget)
      refine Or.inr (List.mem_map.mpr ⟨seen, List.mem_filter.mpr ⟨hseen, ?_⟩, hsame⟩)
      rw [hsame]
      exact Option.isNone_iff_eq_none.mpr hvalue

end

/-- What carries the laws from step to step: a waiting entry waits for the target of its key, what
was named has an entry and is cleanly named, and one fetch runs for each loading entry. -/
structure Tracked (s : Session) : Prop where
  awaiting : ∀ k target, s.entries.value k = some (.awaiting target) → RellmLinks.key target = k
  entry : ∀ linked ∈ s.named, (s.entries.value (linkKey linked)).isSome
  clean : ∀ linked ∈ s.named, linked.Clean
  count : ∀ k, (s.outstanding.map Fetch.key).count k = (loadingAt s.entries k).toNat

theorem tracked_init : Tracked init where
  awaiting _ _ h := by cases h
  entry _ h := by cases h
  clean _ h := by cases h
  count _ := rfl

section

variable {s : Session}

theorem Tracked.lawful (h : Tracked s) : Lawful s where
  entry linked hlinked := by
    obtain ⟨entry, hentry⟩ := Option.isSome_iff_exists.mp (h.entry linked hlinked)
    refine ⟨(linkKey linked, entry), ⟨HashMap.value_eq_some_iff.mp hentry, rfl⟩, ?_⟩
    rintro row ⟨hrow, hkey⟩
    exact s.entries.eq_of_key_eq hrow (HashMap.value_eq_some_iff.mp hentry) hkey
  loading k := by
    have hcount := h.count k
    constructor
    · intro hloading
      rw [hloading] at hcount
      have hmem : k ∈ s.outstanding.map Fetch.key := List.count_pos_iff.mp (by
        rw [hcount]
        exact Nat.one_pos)
      exact List.mem_map.mp hmem
    · intro hfetch
      have hpos := List.count_pos_iff.mpr (List.mem_map.mpr hfetch)
      cases hloading : loadingAt s.entries k with
      | true => rfl
      | false =>
        rw [hcount, hloading] at hpos
        exact absurd hpos (lt_irrefl 0)
  distinct linked hlinked linked' hlinked' :=
    linkKey_injective (h.clean linked hlinked) (h.clean linked' hlinked')

/-- Distinct entries are written over such that are not loading, with a fetch for each that is
written as loading. -/
theorem Tracked.assign (h : Tracked s) {rows : List (Text × Entry)} {fetches : List Fetch}
    {linked : List Linked} (hnodup : (rows.map Prod.fst).Nodup)
    (hnew : ∀ row ∈ rows, loadingAt s.entries row.1 = false)
    (hawaiting : ∀ row ∈ rows, ∀ target, row.2 = .awaiting target →
      RellmLinks.key target = row.1)
    (hfetches : fetches.map Fetch.key = loadingKeys rows) (hclean : ∀ one ∈ linked, one.Clean)
    (hentry : ∀ one ∈ linked, ((assign rows s.entries).value (linkKey one)).isSome) :
    Tracked ⟨QuoteLinks.assign rows s.entries, s.outstanding ++ fetches, s.named ++ linked⟩ where
  awaiting k target hvalue := by
    by_cases hmem : k ∈ rows.map Prod.fst
    · obtain ⟨row, hrow, rfl⟩ := List.mem_map.mp hmem
      dsimp only at hvalue
      rw [value_assign_of_mem hnodup hrow] at hvalue
      exact hawaiting row hrow target (Option.some.inj hvalue)
    · dsimp only at hvalue
      rw [value_assign_of_notMem hmem] at hvalue
      exact h.awaiting k target hvalue
  entry one hone := by
    obtain hone | hone := List.mem_append.mp hone
    · exact isSome_assign (h.entry one hone)
    · exact hentry one hone
  clean one hone := (List.mem_append.mp hone).elim (h.clean one) (hclean one)
  count k := by
    rw [List.map_append, List.count_append, hfetches, h.count k, loadingAt_assign hnodup hnew]

/-- What is written in the place of an entry by hand. -/
theorem Tracked.provide (h : Tracked s) {target : RellmLinks.Target} (entry : Entry)
    (fetches : List Fetch) (hclean : target.Clean)
    (hidle : loadingAt s.entries (RellmLinks.key target) = false)
    (hentry : ∀ other, entry ≠ .awaiting other)
    (hfetches : fetches.map Fetch.key = loadingKeys [(RellmLinks.key target, entry)]) :
    Tracked ⟨s.entries.put (RellmLinks.key target, entry), s.outstanding ++ fetches,
      s.named ++ [.rellmLink target]⟩ := by
  have hput : s.entries.put (RellmLinks.key target, entry) =
      QuoteLinks.assign [(RellmLinks.key target, entry)] s.entries := rfl
  rw [hput]
  refine h.assign (List.nodup_singleton _) ?_ ?_ hfetches ?_ ?_
  · intro row hrow
    rw [List.mem_singleton.mp hrow]
    exact hidle
  · intro row hrow other hrow'
    rw [List.mem_singleton.mp hrow] at hrow'
    exact absurd hrow' (hentry other)
  · intro one hone
    rw [List.mem_singleton.mp hone]
    exact hclean
  · intro one hone
    rw [List.mem_singleton.mp hone]
    exact isSome_assign_of_mem (List.mem_singleton_self _)

/-- A loading entry that is written as loading again stays as it is. -/
theorem Tracked.again (h : Tracked s) {target : RellmLinks.Target} (hclean : target.Clean)
    (hloading : loadingAt s.entries (RellmLinks.key target) = true) :
    Tracked ⟨s.entries.put (RellmLinks.key target, .loading), s.outstanding,
      s.named ++ [.rellmLink target]⟩ := by
  have hvalue : s.entries.value (RellmLinks.key target) = some .loading := by
    obtain ⟨entry, hentry, hisLoading⟩ := (Option.any_eq_true _ _).mp hloading
    cases entry with
    | loading => exact hentry
    | awaiting _ | loaded _ | loadedEvent _ _ | unavailable => cases hisLoading
  have hsame (k : Text) :
      HashMap.value (s.entries.put (RellmLinks.key target, .loading)) k = s.entries.value k := by
    rw [HashMap.value_put]
    split
    · rename_i hk
      rw [hk, hvalue]
    · rfl
  refine ⟨fun k other hk => h.awaiting k other ?_, fun one hone => ?_, fun one hone => ?_,
    fun k => ?_⟩
  · rwa [← hsame k]
  · dsimp only
    rw [hsame]
    obtain hone | hone := List.mem_append.mp hone
    · exact h.entry one hone
    · rw [List.mem_singleton.mp hone]
      exact Option.isSome_iff_exists.mpr ⟨_, hvalue⟩
  · obtain hone | hone := List.mem_append.mp hone
    · exact h.clean one hone
    · rw [List.mem_singleton.mp hone]
      exact hclean
  · dsimp only
    rw [loadingAt, hsame]
    exact h.count k

variable {index : Nat} {fetch : Fetch}

/-- A fetch that runs is the only one for its entry, which is loading. -/
theorem Tracked.loading_of_fetch (h : Tracked s) (hfetch : s.outstanding[index]? = some fetch) :
    loadingAt s.entries fetch.key = true ∧ ∀ k,
      ((s.outstanding.eraseIdx index).map Fetch.key).count k + (decide (fetch.key = k)).toNat =
        (loadingAt s.entries k).toNat := by
  obtain ⟨hindex, hget⟩ := List.getElem?_eq_some_iff.mp hfetch
  refine ⟨(h.lawful.loading _).mpr ⟨fetch, List.mem_of_getElem? hfetch, rfl⟩, fun k => ?_⟩
  have hperm : (fetch :: s.outstanding.eraseIdx index).Perm s.outstanding := by
    rw [← hget]
    exact ((List.erase_getElem hindex).symm.cons _).trans
      (List.perm_cons_erase (List.getElem_mem hindex)).symm
  rw [← h.count k, ← (hperm.map Fetch.key).count_eq, List.map_cons, List.count_cons]
  by_cases hk : fetch.key = k <;> simp [hk]

/-- The result of a fetch that is neither loading nor waiting takes the place of its entry. -/
theorem Tracked.receive (h : Tracked s) (hfetch : s.outstanding[index]? = some fetch)
    {entry : Entry} (hloading : entry.isLoading = false)
    (hawaiting : ∀ target, entry ≠ .awaiting target) :
    Tracked ⟨s.entries.put (fetch.key, entry), s.outstanding.eraseIdx index ++ [], s.named⟩ := by
  obtain ⟨hbefore, hcount⟩ := h.loading_of_fetch hfetch
  refine ⟨fun k target hvalue => ?_, fun one hone => ?_, h.clean, fun k => ?_⟩
  · dsimp only at hvalue
    rw [HashMap.value_put] at hvalue
    split at hvalue
    · exact absurd (Option.some.inj hvalue) (hawaiting target)
    · exact h.awaiting k target hvalue
  · dsimp only
    rw [HashMap.value_put]
    split
    · rfl
    · exact h.entry one hone
  · dsimp only
    have hk := hcount k
    rw [List.append_nil, loadingAt, HashMap.value_put]
    by_cases hsame : fetch.key = k
    · rw [← hsame, hbefore, decide_eq_true rfl] at hk
      rw [if_pos hsame.symm, Option.any_some, hloading, ← hsame]
      simpa using hk
    · rw [decide_eq_false hsame] at hk
      rw [if_neg (Ne.symm hsame), ← loadingAt]
      exact hk

/-- A fetch that is followed by another for the same entry leaves it loading. -/
theorem Tracked.follow (h : Tracked s) (hfetch : s.outstanding[index]? = some fetch)
    {next : Fetch} (hnext : next.key = fetch.key) :
    Tracked ⟨s.entries, s.outstanding.eraseIdx index ++ [next], s.named⟩ := by
  obtain ⟨_, hcount⟩ := h.loading_of_fetch hfetch
  refine ⟨h.awaiting, h.entry, h.clean, fun k => ?_⟩
  rw [List.map_append, List.count_append, List.map_singleton, hnext, ← hcount k]
  by_cases hk : fetch.key = k <;> simp [hk]

end

section

variable {library : Library} {s : Session}

/-- What the result of a fetch does: it starts another fetch for the same entry, or the entry is
neither loading nor waiting any more. -/
inductive Arrives (fetch : Fetch) (entries : Entries) (updated : Updated) : Prop
  | follow (next : Fetch) (key_eq : next.key = fetch.key) (entries_eq : updated.entries = entries)
      (started_eq : updated.started = [next])
  | receive (entry : Entry) (loading : entry.isLoading = false)
      (awaiting : ∀ target, entry ≠ .awaiting target)
      (entries_eq : updated.entries = entries.put (fetch.key, entry))
      (started_eq : updated.started = [])

theorem arrives_receive {fetch : Fetch} {entries : Entries} {updated : Updated}
    (maybePost : Option Post) (hentries : updated.entries = receive fetch.key maybePost entries)
    (hstarted : updated.started = []) : Arrives fetch entries updated := by
  cases maybePost with
  | some post => exact .receive (.loaded post) rfl (fun _ => nofun) hentries hstarted
  | none => exact .receive .unavailable rfl (fun _ => nofun) hentries hstarted

theorem arrives_receiveEvent {fetch : Fetch} {entries : Entries} {updated : Updated} (post : Post)
    (maybeEvent : Option Event)
    (hentries : updated.entries = receiveEvent fetch.key post maybeEvent entries)
    (hstarted : updated.started = []) : Arrives fetch entries updated := by
  rw [receiveEvent] at hentries
  cases hevent : maybeEvent.bind (eventOf post) with
  | some found =>
    rw [hevent] at hentries
    exact .receive (.loadedEvent found.1 found.2) rfl (fun _ => nofun) hentries hstarted
  | none =>
    rw [hevent] at hentries
    exact .receive (.loaded post) rfl (fun _ => nofun) hentries hstarted

theorem arrives_of_handOn (library : Library) {fetch : Fetch} {outcome : Outcome} {msg : Msg}
    (world : World)
    (h : handOn fetch outcome = some msg) (entries : Entries) :
    Arrives fetch entries (update library world msg entries) := by
  cases fetch with
  | post target =>
    cases outcome with
    | post result =>
      cases h
      cases result with
      | none => exact arrives_receive none rfl rfl
      | some result =>
        obtain ⟨sent, posts⟩ := result
        cases posts with
        | nil => exact arrives_receive none rfl rfl
        | cons post posts =>
          cases hwants : wantsEvent post with
          | true =>
            refine .follow (.event target post) rfl ?_ ?_ <;> simp [update, hwants]
          | false => apply arrives_receive (some post) <;> simp [update, hwants, Fetch.key]
    | event _ | federated _ => cases h
  | event target post =>
    cases outcome with
    | event result =>
      cases h
      cases result with
      | none => exact arrives_receiveEvent post none rfl rfl
      | some result => exact arrives_receiveEvent post result.2.head? rfl rfl
    | post _ | federated _ => cases h
  | federated entryKey =>
    cases outcome with
    | federated result =>
      cases h
      exact arrives_receive result rfl rfl
    | post _ | event _ => cases h

/-- The rows that a new plan writes are distinct and were waiting. -/
theorem nodup_settledRows (world : World) (entries : Entries) :
    ((settledRows world entries).map Prod.fst).Nodup := by
  have hsublist : ((settledRows world entries).map Prod.fst).Sublist (entries.rows.map Prod.fst) := by
    rw [settledRows]
    induction entries.rows with
    | nil => exact .slnil
    | cons row rows ih =>
      cases hrow : settledRow world row with
      | none =>
        rw [List.filterMap_cons_none hrow]
        exact ih.cons _
      | some row' =>
        rw [List.filterMap_cons_some hrow, List.map_cons, List.map_cons, (settledRow_eq_some hrow).2.1]
        exact ih.cons_cons _
  exact hsublist.nodup entries.nodup

theorem waiting_of_settledRows {world : World} {entries : Entries} {row : Text × Entry}
    (h : row ∈ settledRows world entries) :
    loadingAt entries row.1 = false ∧ shownAt entries row.1 = false ∧
      ∀ target, row.2 ≠ .awaiting target := by
  obtain ⟨⟨k, entry⟩, hbefore, hrow⟩ := List.mem_filterMap.mp h
  obtain ⟨⟨target, hwaiting⟩, hkey, hdone⟩ := settledRow_eq_some hrow
  have hvalue := HashMap.value_eq_some_iff.mpr hbefore
  dsimp only at hwaiting hkey
  rw [hkey, loadingAt, shownAt, hvalue, hwaiting]
  exact ⟨rfl, rfl, hdone⟩

theorem parsed_clean {pairs : List (Text × Text)} {linked : Linked}
    (h : linked ∈ parsed library pairs) : linked.Clean := by
  obtain ⟨pair, _, hparse⟩ := List.mem_filterMap.mp h
  exact clean_of_parseLink hparse

theorem Tracked.settle (h : Tracked s) (world : World) :
    (advance world s.entries).entries = QuoteLinks.assign (settledRows world s.entries) s.entries ∧
      (advance world s.entries).started.map Fetch.key =
        loadingKeys (settledRows world s.entries) := by
  obtain ⟨hentries, hfetch⟩ := foldl_settleStep world s.entries.rows
    { entries := s.entries } fun row hrow target htarget => h.awaiting row.1 target (by
      rw [← htarget]
      exact HashMap.value_eq_some_iff.mpr hrow)
  refine ⟨hentries, ?_⟩
  rw [advance, List.map_map]
  exact hfetch

/-- A step that is not disturbed carries the laws on. -/
theorem Tracked.step (h : Tracked s) {a : Action} (hundisturbed : Undisturbed s a) :
    Tracked (step library s a) := by
  cases a with
  | requestLinks world pairs =>
    rw [QuoteLinks.step, update]
    dsimp only
    rw [entries_request]
    refine h.assign (nodup_requestRows fun _ => parsed_clean) (fun row hrow => ?_)
      (fun row hrow _ => key_of_requestRows hrow) (keys_started_request library) (fun _ => parsed_clean)
      fun _ => isSome_request
    exact (notMem_of_isNone (isNone_of_requestRows hrow)).1
  | provide world host post =>
    obtain ⟨hclean, hidle⟩ := hundisturbed
    rw [QuoteLinks.step, update]
    cases hwants : wantsEvent post with
    | true => exact h.provide .loading [.event ⟨host, post.id⟩ post] hclean hidle (fun _ => nofun) rfl
    | false => exact h.provide (.loaded post) [] hclean hidle (fun _ => nofun) rfl
  | openQuoting world host post =>
    obtain ⟨hclean, hloading⟩ := hundisturbed
    rw [QuoteLinks.step, update]
    cases hwants : wantsEvent post with
    | true =>
      rw [hwants] at hloading
      exact h.again hclean hloading
    | false =>
      rw [hwants] at hloading
      have hprovided := h.provide (.loaded post) [] hclean hloading (fun _ => nofun) rfl
      rw [List.append_nil] at hprovided
      exact hprovided
  | advance world =>
    obtain ⟨hentries, hstarted⟩ := h.settle world
    rw [QuoteLinks.step, hentries, ← List.append_nil s.named]
    refine h.assign (nodup_settledRows _ _) (fun row hrow => (waiting_of_settledRows hrow).1)
      (fun row hrow target htarget => absurd htarget ((waiting_of_settledRows hrow).2.2 target))
      hstarted nofun nofun
  | arrive world index outcome =>
    rw [QuoteLinks.step]
    cases hmsg : s.outstanding[index]?.bind fun fetch => handOn fetch outcome with
    | none => exact h
    | some msg =>
      obtain ⟨fetch, hfetch, hhandOn⟩ := Option.bind_eq_some_iff.mp hmsg
      cases arrives_of_handOn library world hhandOn s.entries with
      | follow next hkey hentries hstarted =>
        dsimp only
        rw [hentries, hstarted]
        exact h.follow hfetch hkey
      | receive entry hloading hawaiting hentries hstarted =>
        dsimp only
        rw [hentries, hstarted]
        exact h.receive hfetch hloading hawaiting

theorem Tracked.startsOnce (h : Tracked s) (a : Action) : StartsOnce library s a := by
  have hassigned {rows : List (Text × Entry)} {fetches : List Fetch}
      (hkeys : fetches.map Fetch.key = loadingKeys rows) (hnodup : (rows.map Prod.fst).Nodup)
      (hnew : ∀ row ∈ rows,
        loadingAt s.entries row.1 = false ∧ shownAt s.entries row.1 = false) :
      (fetches.map Fetch.key).Nodup ∧ ∀ fetch ∈ fetches,
        loadingAt s.entries fetch.key = false ∧ shownAt s.entries fetch.key = false := by
    rw [hkeys]
    refine ⟨loadingKeys_sublist.nodup hnodup, fun fetch hfetch => ?_⟩
    have hmem : fetch.key ∈ loadingKeys rows := by
      rw [← hkeys]
      exact List.mem_map_of_mem hfetch
    obtain ⟨row, hrow, hkey⟩ := List.mem_map.mp (loadingKeys_sublist.subset hmem)
    rw [← hkey]
    exact hnew row hrow
  cases a with
  | requestLinks world pairs =>
    obtain ⟨honce, hneeded⟩ := hassigned (keys_started_request library)
      (nodup_requestRows fun _ => parsed_clean)
      fun row hrow => notMem_of_isNone (isNone_of_requestRows hrow)
    exact ⟨honce, hneeded⟩
  | advance world =>
    obtain ⟨honce, hneeded⟩ := hassigned (h.settle world).2 (nodup_settledRows _ _)
      fun row hrow => ⟨(waiting_of_settledRows hrow).1, (waiting_of_settledRows hrow).2.1⟩
    exact ⟨honce, hneeded⟩
  | provide | openQuoting | arrive => exact ⟨List.nodup_nil, nofun⟩

/-- What is shown under a key that is not written stays shown. -/
theorem shownAt_put_of_ne {entries : Entries} {k k' : Text} {entry : Entry} (hk : k ≠ k')
    (h : shownAt entries k = true) : shownAt (entries.put (k', entry)) k = true := by
  rw [shownAt, HashMap.value_put, if_neg hk]
  exact h

/-- A post that is provided is shown in the place of its entry. -/
theorem shownAt_provide {world : World} {host : Text} {post : Post} {entries : Entries} {k : Text}
    (h : shownAt entries k = true)
    (hevent : ¬ (wantsEvent post = true ∧ RellmLinks.key ⟨host, post.id⟩ = k)) :
    shownAt (update library world (.provide host post) entries).entries k = true := by
  by_cases hk : k = RellmLinks.key ⟨host, post.id⟩
  · have hwants : wantsEvent post = false := by
      rw [← Bool.not_eq_true]
      exact fun hwants => hevent ⟨hwants, hk.symm⟩
    rw [update, hwants, shownAt, if_neg Bool.false_ne_true, receive, HashMap.value_put, if_pos hk]
    rfl
  · cases hwants : wantsEvent post with
    | true =>
      rw [update, hwants]
      exact shownAt_put_of_ne hk h
    | false =>
      rw [update, hwants]
      exact shownAt_put_of_ne hk h

theorem Tracked.keepsShown (h : Tracked s) (a : Action) : KeepsShown library s a := by
  intro k hshown hprovides
  cases a with
  | requestLinks world pairs =>
    rw [QuoteLinks.step, update]
    dsimp only
    rw [entries_request]
    exact shownAt_assign (fun row hrow => (notMem_of_isNone (isNone_of_requestRows hrow)).2) hshown
  | provide world host post => exact shownAt_provide hshown hprovides
  | openQuoting world host post => exact shownAt_provide hshown hprovides
  | advance world =>
    rw [QuoteLinks.step]
    dsimp only
    rw [(h.settle world).1]
    exact shownAt_assign (fun row hrow => (waiting_of_settledRows hrow).2.1) hshown
  | arrive world index outcome =>
    rw [QuoteLinks.step]
    cases hmsg : s.outstanding[index]?.bind fun fetch => handOn fetch outcome with
    | none => exact hshown
    | some msg =>
      obtain ⟨fetch, hfetch, hhandOn⟩ := Option.bind_eq_some_iff.mp hmsg
      dsimp only
      cases arrives_of_handOn library world hhandOn s.entries with
      | follow next hkey hentries hstarted =>
        rw [hentries]
        exact hshown
      | receive entry hloading hawaiting hentries hstarted =>
        rw [hentries]
        -- an entry for which a fetch runs is loading, so it is not the one that is shown
        refine shownAt_put_of_ne ?_ hshown
        rintro rfl
        obtain ⟨found, hfound, hisLoading⟩ :=
          (Option.any_eq_true _ _).mp (h.loading_of_fetch hfetch).1
        rw [shownAt, hfound, Option.any_some] at hshown
        cases found <;> simp [Entry.isLoading, Entry.isShown] at hisLoading hshown

end

/-- In a run in which no post is provided while its fetch runs, what was named has one entry each,
an entry is loading exactly while a fetch for it runs, nothing is fetched twice, and what is shown
stays shown. -/
theorem quotes_lawful (library : Library) (actions : List Action)
    (h : Along (step library) Undisturbed init actions) :
    Throughout (step library) Lawful init actions ∧
      Along (step library) (StartsOnce library) init actions ∧
      Along (step library) (KeepsShown library) init actions := by
  refine ⟨?_, ?_, ?_⟩
  · exact Throughout.of_along (fun s a hs ha => Tracked.step hs ha) (fun s hs => hs.lawful)
      tracked_init h
  · exact Along.of_invariant (fun s a hs ha => ⟨hs.startsOnce a, hs.step ha⟩) tracked_init h
  · exact Along.of_invariant (fun s a hs ha => ⟨hs.keepsShown a, hs.step ha⟩) tracked_init h

/-- What the libraries do with texts that need no care. -/
def plainLibrary : Library where
  trim := id
  toLower text := text.map Char.toLower
  percentDecode := some
  fromString _ := none
  toLower_ascii _ _ := rfl

/-- A world with one server, which is enabled and connected. -/
def homeWorld : World where
  servers := [⟨"rellm.org".toList, true, true⟩]
  previews := .empty
  nonRellmHosts := []

/-- A post that is quoted. -/
def quotedPost : Post := ⟨"abc".toList, .post⟩

/-- A quoted post is fetched, and provided once more after it was. -/
def quoteTwice : List Action :=
  [.requestLinks homeWorld [("rellm.org".toList, "/post/abc".toList)],
    .arrive homeWorld 0 (.post (some (none, [quotedPost]))),
    .openQuoting homeWorld "rellm.org".toList quotedPost, .advance homeWorld]

theorem quotes_lawful_quoteTwice :
    Throughout (step plainLibrary) Lawful init quoteTwice ∧
      Along (step plainLibrary) (StartsOnce plainLibrary) init quoteTwice ∧
      Along (step plainLibrary) (KeepsShown plainLibrary) init quoteTwice :=
  quotes_lawful plainLibrary quoteTwice
    ⟨trivial, trivial, ⟨⟨by decide +kernel, by decide +kernel⟩, by decide +kernel⟩, trivial, trivial⟩

/-- A post that is provided while its fetch runs is lost when the fetch fails. -/
theorem provided_post_lost :
    ¬ ∀ (library : Library) (actions : List Action),
      Throughout (step library) Lawful init actions ∧
        Along (step library) (StartsOnce library) init actions ∧
        Along (step library) (KeepsShown library) init actions := by
  intro h
  obtain ⟨_, _, _, _, hkept, _⟩ := h plainLibrary
    [.requestLinks homeWorld [("rellm.org".toList, "/post/abc".toList)],
      .openQuoting homeWorld "rellm.org".toList quotedPost, .arrive homeWorld 0 (.post none)]
  have hshown := hkept "rellm.org|abc".toList (by decide +kernel) id
  revert hshown
  decide +kernel

end QuoteLinks

end Rellm.Client
