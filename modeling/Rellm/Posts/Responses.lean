import Rellm.Foundation.Run
import Rellm.Posts.Write

/-!
# The counters of replies and responses

Posts form a forest: each replies to one post or to none. A post counts the posts that
reply to it, and as responses all posts below it. Creating a reply adds it to the
counters of the posts above it, and each call to delete it takes it off again, also the
second one.
-/

namespace Rellm.Posts

open Foundation Content Calendar

/-- What a post replies to. -/
def link (post : Post) : Nat × Option Nat := (post.id, post.parentPostId)

/-- The replies and the responses that a post counts. -/
def counters (post : Post) : Int × Int := (post.replyCount, post.responseCount)

section

variable (posts : Serial Post.id)

/-- From every post the way up ends. -/
def IsForest : Prop :=
  ∀ post ∈ posts.rows, ∃ chain, Chain (parentOf posts) post.parentPostId chain

variable (deleted : List Nat) (id : Nat)

/-- The direct replies to a post that are not deleted. -/
def liveReplies : Nat :=
  posts.rows.countP fun reply => reply.parentPostId = some id && decide (reply.id ∉ deleted)

open Classical in
/-- The posts below a post, at every depth, that are not deleted. -/
noncomputable def liveResponses : Nat :=
  posts.rows.countP fun response =>
    decide (Below (parentOf posts) response.id id) && decide (response.id ∉ deleted)

end

/-- Every post counts the replies and the responses that are not deleted. -/
structure CountersRight (posts : Serial Post.id) (deleted : List Nat) : Prop where
  replies : ∀ post ∈ posts.rows, post.replyCount = liveReplies posts deleted post.id
  responses : ∀ post ∈ posts.rows, post.responseCount = liveResponses posts deleted post.id
  nonneg : ∀ post ∈ posts.rows, 0 ≤ post.replyCount ∧ 0 ≤ post.responseCount

/-- The counters are those of the posts that a lookup finds. -/
theorem countersRight_iff {posts : Serial Post.id} {deleted : List Nat} :
    CountersRight posts deleted ↔ ∀ id found, (posts.get id).map counters = some found →
      found = ((liveReplies posts deleted id : Int), (liveResponses posts deleted id : Int)) := by
  constructor
  · intro h id found hfound
    obtain ⟨post, hget, rfl⟩ := Option.map_eq_some_iff.mp hfound
    obtain ⟨hmem, rfl⟩ := Table.get_eq_some_iff.mp hget
    rw [counters, h.replies post hmem, h.responses post hmem]
  · intro h
    have hpost (post : Post) (hmem : post ∈ posts.rows) :
        post.replyCount = liveReplies posts deleted post.id ∧
          post.responseCount = liveResponses posts deleted post.id := by
      have hget := Table.mem_rows_iff.mp hmem
      have hfound := h post.id (counters post) (by rw [hget, Option.map_some])
      rw [counters, Prod.mk.injEq] at hfound
      exact hfound
    refine ⟨fun post hmem => (hpost post hmem).1, fun post hmem => (hpost post hmem).2, ?_⟩
    intro post hmem
    obtain ⟨hreplies, hresponses⟩ := hpost post hmem
    rw [hreplies, hresponses]
    exact ⟨Int.natCast_nonneg _, Int.natCast_nonneg _⟩

/-- Posts that reply to the same posts. -/
def SameLinks (posts posts' : Serial Post.id) : Prop :=
  posts'.rows.map link = posts.rows.map link

theorem sameLinks_update {posts : Serial Post.id} {p : Post → Bool} {f : Post → Post}
    {hf : ∀ post, (f post).id = post.id} (hlink : ∀ post, link (f post) = link post) :
    SameLinks posts (posts.update p f hf) :=
  posts.toTable.map_rows_update hf hlink

namespace SameLinks

variable {posts posts' posts'' : Serial Post.id} (h : SameLinks posts posts')

include h

theorem trans (h' : SameLinks posts' posts'') : SameLinks posts posts'' := Eq.trans h' h

theorem update {p : Post → Bool} {f : Post → Post} {hf : ∀ post, (f post).id = post.id}
    (hlink : ∀ post, link (f post) = link post) : SameLinks posts (posts'.update p f hf) :=
  h.trans (sameLinks_update hlink)

theorem parentOf_eq : parentOf posts' = parentOf posts := by
  funext id
  have hlinks := Table.map_get_of_map_rows (k := Prod.fst) (fun _ => rfl) h id
  have hparents := congrArg (Option.map Prod.snd) hlinks
  rw [Option.map_map, Option.map_map] at hparents
  exact hparents

/-- A condition on links counts the same. -/
theorem countP_eq (p : Nat × Option Nat → Bool) :
    posts'.rows.countP (fun post => p (link post)) =
      posts.rows.countP (fun post => p (link post)) := by
  have hmap (rows : List Post) :
      rows.countP (fun post => p (link post)) = (rows.map link).countP p := by
    rw [List.countP_map]
    rfl
  rw [hmap, hmap, h]

theorem isForest (hforest : IsForest posts) : IsForest posts' := by
  intro post hmem
  have hlink : link post ∈ posts.rows.map link := by
    rw [← h]
    exact List.mem_map_of_mem hmem
  obtain ⟨before, hbefore, heq⟩ := List.mem_map.mp hlink
  obtain ⟨chain, hchain⟩ := hforest before hbefore
  refine ⟨chain, ?_⟩
  rw [h.parentOf_eq]
  have hparent := congrArg Prod.snd heq
  dsimp only [link] at hparent
  rwa [← hparent]

theorem liveReplies_eq (deleted : List Nat) (id : Nat) :
    liveReplies posts' deleted id = liveReplies posts deleted id :=
  h.countP_eq fun l => l.2 = some id && decide (l.1 ∉ deleted)

open Classical in
theorem liveResponses_eq (deleted : List Nat) (id : Nat) :
    liveResponses posts' deleted id = liveResponses posts deleted id := by
  unfold liveResponses
  rw [h.parentOf_eq]
  exact h.countP_eq fun l => decide (Below (parentOf posts) l.1 id) && decide (l.1 ∉ deleted)

/-- A post is still there, and replies to the same post. -/
theorem exists_get {id : Nat} {post : Post} (hget : posts.get id = some post) :
    ∃ post', posts'.get id = some post' ∧ link post' = link post := by
  have hlinks : (posts'.get id).map link = (posts.get id).map link :=
    Table.map_get_of_map_rows (k := Prod.fst) (fun _ => rfl) h id
  rw [hget, Option.map_some] at hlinks
  exact Option.map_eq_some_iff.mp hlinks

end SameLinks

section

variable {posts : Serial Post.id}

/-- The loop up from a post of a forest ends. -/
theorem IsForest.ancestorPostIds_eq (hforest : IsForest posts) {id : Nat} {post : Post}
    (hget : posts.get id = some post) :
    ∃ ancestors, ancestorPostIds posts post.parentPostId = some ancestors ∧
      Chain (parentOf posts) (some id) (id :: ancestors) := by
  obtain ⟨hmem, rfl⟩ := Table.get_eq_some_iff.mp hget
  obtain ⟨ancestors, hchain⟩ := hforest post hmem
  have hup : parentOf posts post.id = some post.parentPostId := by
    rw [parentOf, hget, Option.map_some]
  refine ⟨ancestors, climb_eq_some_iff.mpr ⟨hchain, ?_⟩, .step hup hchain⟩
  -- the ancestors are different posts of the table
  have hsubset : ancestors ⊆ posts.rows.map (·.id) := by
    intro id hid
    obtain ⟨parent, hparent⟩ := Option.isSome_iff_exists.mp (hchain.known hid)
    obtain ⟨row, hrow, _⟩ := Option.map_eq_some_iff.mp hparent
    obtain ⟨hmem, rfl⟩ := Table.get_eq_some_iff.mp hrow
    exact List.mem_map_of_mem hmem
  calc
    ancestors.length ≤ (posts.rows.map (·.id)).length :=
      (List.subperm_of_subset hchain.nodup hsubset).length_le
    _ = posts.rows.length := List.length_map _

/-- The loop up ends with what is above the post. -/
theorem chain_of_ancestorPostIds {parentPostId : Option Nat} {ancestors : List Nat}
    (h : ancestorPostIds posts parentPostId = some ancestors) :
    Chain (parentOf posts) parentPostId ancestors :=
  (climb_eq_some_iff.mp h).1

/-- A post is below its ancestors. -/
theorem below_iff_of_chain {id : Nat} (above : Nat) {post : Post} {ancestors : List Nat}
    (hget : posts.get id = some post)
    (hchain : Chain (parentOf posts) post.parentPostId ancestors) :
    Below (parentOf posts) id above ↔ above ∈ ancestors := by
  refine Chain.below_iff ?_ hchain
  rw [parentOf, hget, Option.map_some]

/-- Nothing replies to a post that is not there. -/
theorem IsForest.liveReplies_eq_zero (hforest : IsForest posts) {id : Nat}
    (hid : posts.get id = none) (deleted : List Nat) : liveReplies posts deleted id = 0 := by
  rw [liveReplies, List.countP_eq_zero]
  intro reply hmem hlive
  rw [Bool.and_eq_true, decide_eq_true_eq] at hlive
  obtain ⟨chain, hchain⟩ := hforest reply hmem
  rw [hlive.1] at hchain
  cases hchain with
  | step hup _ =>
    rw [parentOf, hid] at hup
    cases hup

open Classical in
/-- Nothing is below a post that is not there. -/
theorem IsForest.liveResponses_eq_zero (hforest : IsForest posts) {id : Nat}
    (hid : posts.get id = none) (deleted : List Nat) : liveResponses posts deleted id = 0 := by
  rw [liveResponses, List.countP_eq_zero]
  intro response hmem hlive
  rw [Bool.and_eq_true, decide_eq_true_eq] at hlive
  obtain ⟨chain, hchain⟩ := hforest response hmem
  have habove := (below_iff_of_chain id (Table.mem_rows_iff.mp hmem) hchain).mp hlive.1
  have hknown := hchain.known habove
  rw [parentOf, hid] at hknown
  cases hknown

end

section

variable {posts : Serial Post.id} {make : Nat → Post} {hmake : ∀ id, (make id).id = id}

theorem parentOf_insert (id : Nat) :
    parentOf (posts.insert make hmake) id =
      if id = posts.next then some (make posts.next).parentPostId else parentOf posts id := by
  unfold parentOf
  rw [Serial.get_insert]
  split <;> rfl

/-- A way up goes on as before after a post is added. -/
theorem chain_insert {start : Option Nat} {chain : List Nat}
    (h : Chain (parentOf posts) start chain) :
    Chain (parentOf (posts.insert make hmake)) start chain := by
  apply h.congr
  intro id hid
  have hknown := h.known hid
  rw [parentOf_insert, if_neg]
  rintro rfl
  rw [parentOf, posts.get_next] at hknown
  cases hknown

variable {deleted ancestors : List Nat} (hforest : IsForest posts)
variable (hancestors : Chain (parentOf posts) (make posts.next).parentPostId ancestors)

include hforest hancestors

theorem isForest_insert : IsForest (posts.insert make hmake) := by
  intro post hmem
  rw [Serial.rows_insert, List.mem_append, List.mem_singleton] at hmem
  rcases hmem with hold | rfl
  · obtain ⟨chain, hchain⟩ := hforest post hold
    exact ⟨chain, chain_insert hchain⟩
  · exact ⟨ancestors, chain_insert hancestors⟩

omit hforest hancestors in
/-- A reply is counted by the post it replies to. -/
theorem liveReplies_insert (hnew : posts.next ∉ deleted) (id : Nat) :
    liveReplies (posts.insert make hmake) deleted id =
      liveReplies posts deleted id +
        (decide ((make posts.next).parentPostId = some id)).toNat := by
  unfold liveReplies
  rw [Serial.countP_insert, hmake, decide_eq_true hnew, Bool.and_true]

open Classical in
/-- A reply is counted by all posts above it. -/
theorem liveResponses_insert (hnew : posts.next ∉ deleted) (id : Nat) :
    liveResponses (posts.insert make hmake) deleted id =
      liveResponses posts deleted id + (decide (id ∈ ancestors)).toNat := by
  unfold liveResponses
  rw [Serial.countP_insert, hmake, decide_eq_true hnew, Bool.and_true]
  congr 1
  · apply List.countP_congr
    intro post hmem
    have hget := Table.mem_rows_iff.mp hmem
    obtain ⟨chain, hchain⟩ := hforest post hmem
    have hafter := below_iff_of_chain id (posts.get_insert_of_get make hmake hget)
      (chain_insert hchain)
    rw [Bool.and_eq_true, Bool.and_eq_true, decide_eq_true_eq, decide_eq_true_eq, hafter,
      decide_eq_true_eq, below_iff_of_chain id hget hchain]
  · have hget : (posts.insert make hmake).get posts.next = some (make posts.next) := by
      rw [Serial.get_insert, if_pos rfl]
    rw [decide_eq_decide.mpr (below_iff_of_chain id hget (chain_insert hancestors))]

end

/-- Counters of posts that reply to the same posts, and count the same, stay right. -/
theorem CountersRight.of_sameLinks {posts posts' : Serial Post.id} {deleted : List Nat}
    (h : CountersRight posts deleted) (hlinks : SameLinks posts posts')
    (hcounters : ∀ id, (posts'.get id).map counters = (posts.get id).map counters) :
    CountersRight posts' deleted := by
  rw [countersRight_iff] at h ⊢
  intro id found hfound
  rw [hcounters] at hfound
  rw [hlinks.liveReplies_eq, hlinks.liveResponses_eq]
  exact h id found hfound

/-- The counters of a post after a reply below it is added or taken off, so many times. -/
def shifted (times : Int) (start : Option Nat) (ancestors : List Nat) (id : Nat)
    (found : Int × Int) : Int × Int :=
  (found.1 + times * (decide (start = some id)).toNat,
    found.2 + times * (decide (id ∈ ancestors)).toNat)

/-- A post not above the reply keeps its counters. -/
theorem shifted_eq_self {times : Int} {start : Option Nat} {ancestors : List Nat} {id : Nat}
    (hstart : start ≠ some id) (hid : id ∉ ancestors) (found : Int × Int) :
    shifted times start ancestors id found = found := by
  simp [shifted, hstart, hid]

/-- The counters after a bump of the posts with some ids. -/
theorem counters_update (posts : Serial Post.id) (p : Nat → Bool) (bump : Int × Int → Int × Int)
    {f : Post → Post} (hf : ∀ post, (f post).id = post.id)
    (hbump : ∀ post, counters (f post) = bump (counters post)) (id : Nat) :
    ((posts.update (fun post => p post.id) f hf).get id).map counters =
      ((posts.get id).map counters).map fun found => if p id then bump found else found := by
  rw [Serial.update, Table.get_update]
  cases hget : posts.get id with
  | none => rfl
  | some post =>
    rw [Option.map_some, Option.map_some, Option.map_some, Option.map_some,
      Table.key_of_get hget]
    split
    · rw [hbump]
    · rfl

/-- The counters after the replies of one post and the responses of some are bumped. -/
theorem counters_shift {posts : Serial Post.id} {parentPostId : Nat} {ancestors : List Nat}
    (times : Int) {f g : Post → Post} {hf : ∀ post, (f post).id = post.id}
    {hg : ∀ post, (g post).id = post.id}
    (hreplies : ∀ post, counters (f post) = ((counters post).1 + times, (counters post).2))
    (hresponses : ∀ post, counters (g post) = ((counters post).1, (counters post).2 + times))
    (id : Nat) :
    (((posts.modify parentPostId f hf).update (fun post => post.id ∈ ancestors) g hg).get id).map
        counters =
      ((posts.get id).map counters).map (shifted times (some parentPostId) ancestors id) := by
  have hmodified := counters_update posts (fun id => decide (id = parentPostId))
    (fun found => (found.1 + times, found.2)) hf hreplies id
  have hupdated := counters_update (posts.modify parentPostId f hf)
    (fun id => decide (id ∈ ancestors)) (fun found => (found.1, found.2 + times)) hg hresponses id
  refine hupdated.trans ?_
  rw [Serial.modify, hmodified, Option.map_map]
  congr 1
  funext found
  simp only [Function.comp_apply, shifted, Option.some.injEq, eq_comm (a := parentPostId)]
  cases decide (id = parentPostId) <;> cases decide (id ∈ ancestors) <;> simp

section

variable {posts : Serial Post.id} {parentPostId : Nat} {ancestors : List Nat} {now : Instant}

theorem sameLinks_countReply : SameLinks posts (countReply parentPostId ancestors now posts) := by
  refine SameLinks.update (sameLinks_update ?_) ?_
  · intro post
    rfl
  · intro post
    rfl

theorem sameLinks_uncountReply : SameLinks posts (uncountReply parentPostId ancestors posts) := by
  refine SameLinks.update (sameLinks_update ?_) ?_
  · intro post
    rfl
  · intro post
    rfl

theorem counters_countReply (id : Nat) :
    ((countReply parentPostId ancestors now posts).get id).map counters =
      ((posts.get id).map counters).map (shifted 1 (some parentPostId) ancestors id) :=
  counters_shift 1 (fun _ => rfl) (fun _ => rfl) id

theorem counters_uncountReply (id : Nat) :
    ((uncountReply parentPostId ancestors posts).get id).map counters =
      ((posts.get id).map counters).map (shifted (-1) (some parentPostId) ancestors id) :=
  counters_shift (-1) (fun _ => rfl) (fun _ => rfl) id

end

section

variable {posts : Serial Post.id} {create : CreatePost} {now : Instant}

theorem CreatePost.sameLinks_posts :
    SameLinks (create.inserted now posts) (create.posts now posts) := by
  unfold CreatePost.posts
  cases create.new.parentPostId with
  | none => exact Eq.refl _
  | some parentPostId => exact sameLinks_countReply

/-- The posts that were there are still there. -/
theorem CreatePost.isSome_get_posts {id : Nat} (h : (posts.get id).isSome) :
    ((create.posts now posts).get id).isSome := by
  obtain ⟨post, hget⟩ := Option.isSome_iff_exists.mp h
  have hinserted : (create.inserted now posts).get id = some post :=
    posts.get_insert_of_get _ (create.new.row_id _ now) hget
  obtain ⟨post', hget', _⟩ := create.sameLinks_posts.exists_get hinserted
  exact Option.isSome_iff_exists.mpr ⟨post', hget'⟩

variable (hancestors : Chain (parentOf posts) create.new.parentPostId create.ancestors)

include hancestors

theorem CreatePost.counters_posts (id : Nat) :
    ((create.posts now posts).get id).map counters =
      (((create.inserted now posts).get id).map counters).map
        (shifted 1 create.new.parentPostId create.ancestors id) := by
  unfold CreatePost.posts
  cases hparent : create.new.parentPostId with
  | none =>
    rw [hparent] at hancestors
    rw [hancestors.eq_nil]
    change ((create.inserted now posts).get id).map counters = _
    cases (create.inserted now posts).get id with
    | none => rfl
    | some post => simp [shifted]
  | some parentPostId => exact counters_countReply id

theorem CreatePost.isForest_posts (hforest : IsForest posts) :
    IsForest (create.posts now posts) := by
  refine create.sameLinks_posts.isForest ?_
  unfold CreatePost.inserted
  exact isForest_insert hforest hancestors

/-- A post that is added is counted by the posts above it, and counts none yet. -/
theorem CountersRight.created {deleted : List Nat} (h : CountersRight posts deleted)
    (hforest : IsForest posts) (hnew : posts.next ∉ deleted) :
    CountersRight (create.posts now posts) deleted := by
  rw [countersRight_iff] at h ⊢
  intro id found hfound
  rw [CreatePost.counters_posts hancestors] at hfound
  obtain ⟨before, hbefore, rfl⟩ := Option.map_eq_some_iff.mp hfound
  rw [CreatePost.sameLinks_posts.liveReplies_eq, CreatePost.sameLinks_posts.liveResponses_eq,
    CreatePost.inserted, liveReplies_insert hnew, liveResponses_insert hforest hancestors hnew]
  have hlive : before = ((liveReplies posts deleted id : Int),
      (liveResponses posts deleted id : Int)) := by
    rw [CreatePost.inserted, Serial.get_insert] at hbefore
    split at hbefore
    · rename_i hid
      subst hid
      cases hbefore
      rw [hforest.liveReplies_eq_zero posts.get_next,
        hforest.liveResponses_eq_zero posts.get_next]
      rfl
    · exact h id before hbefore
  rw [hlive, shifted, Int.natCast_add, Int.natCast_add, Int.one_mul, Int.one_mul]
  rfl

end

/-- Taking a post off those that are not deleted takes it off the posts above it. -/
theorem live_cons {posts : Serial Post.id} (deleted : List Nat) {existing : Post}
    {ancestors : List Nat} (hget : posts.get existing.id = some existing)
    (hchain : Chain (parentOf posts) existing.parentPostId ancestors) (id : Nat) :
    liveReplies posts deleted id =
        liveReplies posts (existing.id :: deleted) id +
          (decide (existing.parentPostId = some id) && decide (existing.id ∉ deleted)).toNat ∧
      liveResponses posts deleted id =
        liveResponses posts (existing.id :: deleted) id +
          (decide (id ∈ ancestors) && decide (existing.id ∉ deleted)).toNat := by
  have hother (post : Post) (hne : post.id ≠ existing.id) :
      decide (post.id ∉ deleted) = decide (post.id ∉ existing.id :: deleted) := by
    simp [hne]
  have hself : decide (existing.id ∉ existing.id :: deleted) = false := by simp
  constructor
  · have hsplit := posts.countP_split
      (fun reply => reply.parentPostId = some id && decide (reply.id ∉ existing.id :: deleted))
      (fun reply => reply.parentPostId = some id && decide (reply.id ∉ deleted)) hget
      fun other hne => by rw [hother other hne]
    rw [hself, Bool.and_false] at hsplit
    exact hsplit
  · classical
    have hsplit := posts.countP_split
      (fun response => decide (Below (parentOf posts) response.id id) &&
        decide (response.id ∉ existing.id :: deleted))
      (fun response => decide (Below (parentOf posts) response.id id) &&
        decide (response.id ∉ deleted)) hget
      fun other hne => by rw [hother other hne]
    rw [hself, Bool.and_false, decide_eq_decide.mpr (below_iff_of_chain id hget hchain)] at hsplit
    unfold liveResponses
    exact hsplit

/-- Where a post is taken off the counters above it, they stay right exactly if it was not deleted
before, or there is nothing above it. -/
theorem CountersRight.removed_iff {posts posts' : Serial Post.id} {deleted : List Nat}
    (h : CountersRight posts deleted) {existing : Post} {ancestors : List Nat}
    (hget : posts.get existing.id = some existing)
    (hchain : Chain (parentOf posts) existing.parentPostId ancestors)
    (hlinks : SameLinks posts posts')
    (hcounters : ∀ id, (posts'.get id).map counters =
      ((posts.get id).map counters).map (shifted (-1) existing.parentPostId ancestors id)) :
    CountersRight posts' (existing.id :: deleted) ↔
      (existing.id ∈ deleted → existing.parentPostId = none) := by
  rw [countersRight_iff] at h ⊢
  constructor
  · intro hright hdeleted
    cases hparent : existing.parentPostId with
    | none => rfl
    | some parentPostId =>
      have hknown : (posts.get parentPostId).isSome := by
        rw [hparent] at hchain
        have hup := hchain.known hchain.start_mem
        rwa [parentOf, Option.isSome_map] at hup
      obtain ⟨parent, hparentPost⟩ := Option.isSome_iff_exists.mp hknown
      have hbefore := h parentPostId (counters parent) (by rw [hparentPost, Option.map_some])
      have hafter := hright parentPostId _ (by rw [hcounters, hparentPost]; rfl)
      have hlive := (live_cons deleted hget hchain parentPostId).1
      rw [hlinks.liveReplies_eq] at hafter
      have hreplies := congrArg Prod.fst hafter
      rw [hbefore] at hreplies
      simp [shifted, hparent, hdeleted] at hreplies hlive
      omega
  · intro hroot id found hfound
    rw [hcounters] at hfound
    obtain ⟨before, hbefore, rfl⟩ := Option.map_eq_some_iff.mp hfound
    obtain ⟨hreplies, hresponses⟩ := live_cons deleted hget hchain id
    rw [h id before hbefore, hlinks.liveReplies_eq, hlinks.liveResponses_eq, hreplies,
      hresponses]
    by_cases hdeleted : existing.id ∈ deleted
    · rw [hroot hdeleted] at hchain ⊢
      rw [hchain.eq_nil]
      simp [shifted]
    · simp [shifted, hdeleted]

/-- A whole post that is written keeps the links, if it keeps its own. -/
theorem sameLinks_savePost {db : ContentDb} {before after : Post}
    (hget : db.posts.get after.id = some before) (hlink : link after = link before) :
    SameLinks db.posts (savePost after db).posts := by
  obtain ⟨front, back, hrows, hmodified, _⟩ :=
    db.posts.rows_modify_split (overPost after) (overPost_id after) hget
  have hparent := congrArg Prod.snd hlink
  have hover : link (overPost after before) = link before := by
    unfold link at hparent ⊢
    rw [overPost_id]
    exact Prod.ext rfl hparent
  unfold SameLinks savePost
  rw [hmodified, hrows, List.map_append, List.map_append, List.map_cons, List.map_cons, hover]

/-- The counters of the post that is written are the ones it is written with. -/
theorem counters_savePost {db : ContentDb} {after : Post} (id : Nat) :
    ((savePost after db).posts.get id).map counters =
      ((db.posts.get id).map counters).map fun found =>
        if id = after.id then counters after else found := by
  unfold savePost
  rw [Serial.get_modify]
  cases db.posts.get id with
  | none => split <;> rfl
  | some post => split <;> rfl

/-- What deleting writes over a post keeps its links and its counters. -/
theorem deletedPost_kept (user : Content.User) (now : Instant) (existing : Post) :
    (deletedPost user now existing).id = existing.id ∧
      link (deletedPost user now existing) = link existing ∧
      counters (deletedPost user now existing) = counters existing := by
  unfold deletedPost
  split
  · exact ⟨rfl, rfl, rfl⟩
  · exact ⟨rfl, rfl, rfl⟩

/-- The posts after one is deleted. -/
theorem DeletePost.posts_write (user : Content.User) (now : Instant) {db : ContentDb}
    {delete : DeletePost} (hget : db.posts.get delete.existing.id = some delete.existing)
    (hchain : Chain (parentOf db.posts) delete.existing.parentPostId delete.ancestors) :
    SameLinks db.posts (delete.write user now db).posts ∧
      ∀ id, ((delete.write user now db).posts.get id).map counters =
        ((db.posts.get id).map counters).map
          (shifted (-1) delete.existing.parentPostId delete.ancestors id) := by
  obtain ⟨hid, hlink, hcounters⟩ := deletedPost_kept user now delete.existing
  have hlinks : SameLinks db.posts (delete.uncounted db).posts := by
    unfold DeletePost.uncounted
    cases delete.existing.parentPostId with
    | none => exact Eq.refl _
    | some parentPostId => exact sameLinks_uncountReply
  obtain ⟨before, hbefore, hsame⟩ := hlinks.exists_get hget
  refine ⟨hlinks.trans (sameLinks_savePost (hid.symm ▸ hbefore) (hlink.trans hsame.symm)), ?_⟩
  intro id
  have huncounted : ((delete.uncounted db).posts.get id).map counters =
      ((db.posts.get id).map counters).map
        (shifted (-1) delete.existing.parentPostId delete.ancestors id) := by
    unfold DeletePost.uncounted
    cases hparent : delete.existing.parentPostId with
    | none =>
      rw [hparent] at hchain
      rw [hchain.eq_nil]
      cases db.posts.get id with
      | none => rfl
      | some post => simp [shifted]
    | some parentPostId => exact counters_uncountReply id
  rw [DeletePost.write_eq, counters_savePost, huncounted, hid, hcounters]
  by_cases hself : id = delete.existing.id
  · -- the loop up never comes back to the post, so its own counters are not written
    have hup : parentOf db.posts delete.existing.id = some delete.existing.parentPostId := by
      rw [parentOf, hget, Option.map_some]
    have hfresh : delete.existing.id ∉ delete.ancestors :=
      (List.nodup_cons.mp (Chain.step hup hchain).nodup).1
    have hstart : delete.existing.parentPostId ≠ some delete.existing.id := by
      intro hparent
      rw [hparent] at hchain
      exact hfresh hchain.start_mem
    rw [hself, hget, Option.map_some, Option.map_some, Option.map_some, if_pos rfl,
      shifted_eq_self hstart hfresh]
  · rw [Option.map_map]
    congr 1
    funext found
    rw [Function.comp_apply, if_neg hself]

/-- The content, and the ids of the posts that were deleted. -/
structure Forum where
  content : ContentDb
  deleted : List Nat

/-- A call that writes posts. -/
inductive ForumCall where
  | create (config : ServerConfiguration) (user : Content.User) (request : PostRequest)
      (now : Instant)
  | delete (user : Content.User) (request : PostRequest) (now : Instant)
  | update (user : Content.User) (request : PostRequest) (now : Instant)

/-- One call after another; a post counts as deleted as soon as one call to delete it went
ahead. -/
def forumStep (forum : Forum) : ForumCall → Forum
  | .create config user request now =>
    { forum with content := finalState (createPost config user request now forum.content) }
  | .delete user request now =>
    { content := finalState (deletePost user request now forum.content)
      deleted := match checkDeletePost user request forum.content with
        | .ok delete => delete.existing.id :: forum.deleted
        | .error _ => forum.deleted }
  | .update user request now =>
    { forum with content := finalState (updatePost user request now forum.content) }

/-- The posts form a forest, and those that were deleted are still there. -/
structure Forum.WellFormed (forum : Forum) : Prop where
  forest : IsForest forum.content.posts
  known : ∀ id ∈ forum.deleted, (forum.content.posts.get id).isSome

/-- Every post counts the replies and the responses that are not deleted. -/
def Forum.CountersRight (forum : Forum) : Prop :=
  Posts.CountersRight forum.content.posts forum.deleted

/-- The call goes ahead to delete a reply that was deleted before. -/
def DeletesAgain (forum : Forum) : ForumCall → Prop
  | .delete user request _ => ∃ existing ∈ forum.content.posts.rows,
      request.id = some existing.id ∧ mayDelete user existing = true ∧
        existing.id ∈ forum.deleted ∧ existing.parentPostId ≠ none
  | _ => False

/-- A call that goes through without an effect on the posts keeps the counters. -/
theorem Forum.WellFormed.of_sameLinks {forum : Forum} (h : forum.WellFormed) {content : ContentDb}
    (hlinks : SameLinks forum.content.posts content.posts) :
    (⟨content, forum.deleted⟩ : Forum).WellFormed where
  forest := hlinks.isForest h.forest
  known := by
    intro id hid
    obtain ⟨post, hget⟩ := Option.isSome_iff_exists.mp (h.known id hid)
    obtain ⟨post', hget', _⟩ := hlinks.exists_get hget
    exact Option.isSome_iff_exists.mpr ⟨post', hget'⟩

/-- The loop of a call to create a post comes to the end of the way up. -/
theorem chain_of_checkCreatePost {config : ServerConfiguration} {user : Content.User}
    {request : PostRequest} {db : ContentDb} {create : CreatePost}
    (h : checkCreatePost config user request db = .ok create) :
    Chain (parentOf db.posts) create.new.parentPostId create.ancestors := by
  unfold checkCreatePost at h
  simp only [checks_eq_ok] at h
  obtain ⟨_, _, _, _, _, _, _, _, _, _, replied, hreplied, _, _, hok⟩ := h
  rw [pure_eq_ok] at hok
  subst hok
  dsimp only
  unfold repliedTo at hreplied
  cases hreply : request.replyToPostId with
  | none =>
    simp only [hreply, pure_eq_ok] at hreplied
    subst hreplied
    exact .root
  | some parentPostId =>
    simp only [hreply, checks_eq_ok, okOr_eq_ok, pure_eq_ok] at hreplied
    obtain ⟨_, _, ancestors, hancestors, rfl⟩ := hreplied
    exact chain_of_ancestorPostIds hancestors

/-- A call to create a post keeps the forest, and all counters right. -/
theorem forumStep_create {forum : Forum} (h : forum.WellFormed) (config : ServerConfiguration)
    (user : Content.User) (request : PostRequest) (now : Instant) :
    (forumStep forum (.create config user request now)).WellFormed ∧
      (forum.CountersRight →
        (forumStep forum (.create config user request now)).CountersRight) := by
  dsimp only [forumStep]
  rcases finalState_createPost config user request now forum.content with
    ⟨create, hok, hfinal⟩ | ⟨_, _, hfinal⟩
  · rw [hfinal]
    have hnew : forum.content.posts.next ∉ forum.deleted := by
      intro hmem
      have hknown := h.known _ hmem
      rw [Serial.get_next] at hknown
      cases hknown
    have hchain := chain_of_checkCreatePost hok
    refine ⟨⟨CreatePost.isForest_posts hchain h.forest, ?_⟩, ?_⟩
    · intro id hid
      exact CreatePost.isSome_get_posts (h.known id hid)
    · intro hright
      exact CountersRight.created hchain hright h.forest hnew
  · rw [hfinal]
    exact ⟨h, fun hright => hright⟩

/-- A call to delete a post keeps the forest, and the counters right unless it deletes a reply
again. -/
theorem forumStep_delete {forum : Forum} (h : forum.WellFormed) (user : Content.User)
    (request : PostRequest) (now : Instant) :
    (forumStep forum (.delete user request now)).WellFormed ∧
      (forum.CountersRight → ((forumStep forum (.delete user request now)).CountersRight ↔
        ¬ DeletesAgain forum (.delete user request now))) := by
  dsimp only [forumStep]
  rcases finalState_deletePost user request now forum.content with
    ⟨delete, hok, hfinal⟩ | ⟨_, herror, hfinal⟩
  · rw [hfinal, hok]
    obtain ⟨hid, hget, hancestors, hmay⟩ := checkDeletePost_eq_ok.mp hok
    have hchain := chain_of_ancestorPostIds hancestors
    obtain ⟨hlinks, hcounters⟩ := DeletePost.posts_write user now hget hchain
    have hposts : (commitDeletePost user delete now forum.content).posts =
        (delete.write user now forum.content).posts := by
      unfold commitDeletePost
      cases delete.existing.userId <;> rfl
    have hagain : DeletesAgain forum (.delete user request now) ↔
        delete.existing.id ∈ forum.deleted ∧ delete.existing.parentPostId ≠ none := by
      constructor
      · rintro ⟨existing, hmem, hid', _, hdeleted, hparent⟩
        rw [hid', Option.some.injEq] at hid
        rw [Table.mem_rows_iff, hid, hget, Option.some.injEq] at hmem
        rw [hmem]
        exact ⟨hdeleted, hparent⟩
      · rintro ⟨hdeleted, hparent⟩
        exact ⟨delete.existing, (Table.get_eq_some_iff.mp hget).1, hid, hmay, hdeleted, hparent⟩
    constructor
    · have hstill := h.of_sameLinks (hposts ▸ hlinks)
      refine ⟨hstill.forest, ?_⟩
      intro id hmem
      rcases List.mem_cons.mp hmem with rfl | hmem
      · obtain ⟨post, hpost, _⟩ := hlinks.exists_get hget
        rw [hposts, hpost]
        rfl
      · exact hstill.known id hmem
    · intro hright
      unfold Forum.CountersRight
      rw [hposts, CountersRight.removed_iff hright hget hchain hlinks hcounters, hagain, not_and,
        not_not]
  · rw [hfinal, herror]
    refine ⟨h, fun hright => iff_of_true hright ?_⟩
    rintro ⟨existing, hmem, hid, hmay, _⟩
    have hget := Table.mem_rows_iff.mp hmem
    obtain ⟨ancestors, hancestors, _⟩ := h.forest.ancestorPostIds_eq hget
    have hok : checkDeletePost user request forum.content = .ok ⟨existing, ancestors⟩ :=
      checkDeletePost_eq_ok.mpr ⟨hid, hget, hancestors, hmay⟩
    rw [herror] at hok
    cases hok

theorem forumStep_update {forum : Forum} (h : forum.WellFormed) (user : Content.User)
    (request : PostRequest) (now : Instant) :
    (forumStep forum (.update user request now)).WellFormed ∧
      (forum.CountersRight → (forumStep forum (.update user request now)).CountersRight) := by
  dsimp only [forumStep]
  rcases finalState_updatePost user request now forum.content with
    ⟨after, hok, hfinal⟩ | ⟨_, _, hfinal⟩
  · rw [hfinal]
    obtain ⟨existing, hget, hplace⟩ := preparedUpdate_samePlace hok
    have hlink : link after = link existing := by
      unfold link
      rw [hplace.id, hplace.parentPostId]
    have hcounters : counters after = counters existing := by
      unfold counters
      rw [hplace.replyCount, hplace.responseCount]
    have hlinks := sameLinks_savePost hget hlink
    refine ⟨h.of_sameLinks hlinks, fun hright => hright.of_sameLinks hlinks ?_⟩
    intro id
    rw [counters_savePost]
    by_cases hself : id = after.id
    · rw [hself, hget, Option.map_some, Option.map_some, if_pos rfl, hcounters]
    · have hother : (fun found => if id = after.id then counters after else found) =
          fun found => found := by
        funext found
        rw [if_neg hself]
      rw [hother, Option.map_id']
  · rw [hfinal]
    exact ⟨h, fun hright => hright⟩

theorem Forum.WellFormed.step {forum : Forum} (h : forum.WellFormed) (call : ForumCall) :
    (forumStep forum call).WellFormed := by
  cases call with
  | create config user request now => exact (forumStep_create h config user request now).1
  | delete user request now => exact (forumStep_delete h user request now).1
  | update user request now => exact (forumStep_update h user request now).1

/-- One call keeps the counters right exactly if it does not delete a reply again. -/
theorem countersRight_step_iff {forum : Forum} (h : forum.WellFormed)
    (hright : forum.CountersRight) (call : ForumCall) :
    (forumStep forum call).CountersRight ↔ ¬ DeletesAgain forum call := by
  cases call with
  | create config user request now =>
    exact iff_of_true ((forumStep_create h config user request now).2 hright) not_false
  | delete user request now => exact (forumStep_delete h user request now).2 hright
  | update user request now =>
    exact iff_of_true ((forumStep_update h user request now).2 hright) not_false

/-- An administrator. -/
def keeper : Content.User where
  id := 1
  permissions := .encode Permission.asStrName [.admin]
  defaultFollowModeration := .unmoderated

/-- No posts yet. -/
def emptyForum : Forum where
  content := { ContentDb.empty with users := ⟨⟨[keeper], by decide⟩, 2, by decide⟩ }
  deleted := []

/-- A post, a reply to it, and the reply deleted. -/
def deletedOnce : List ForumCall := [
  .create {} keeper {} 0,
  .create {} keeper { replyToPostId := some (some 1) } 1,
  .delete keeper { id := some 2 } 2]

theorem emptyForum_wellFormed : emptyForum.WellFormed where
  forest := by
    intro post hmem
    cases hmem
  known := by
    intro id hmem
    cases hmem

theorem emptyForum_countersRight : emptyForum.CountersRight where
  replies := by
    intro post hmem
    cases hmem
  responses := by
    intro post hmem
    cases hmem
  nonneg := by
    intro post hmem
    cases hmem

/-- Throughout a run the counters of all posts are right exactly if no call deletes a reply that was
deleted before. -/
theorem countersRight_throughout_iff {forum : Forum} (h : forum.WellFormed)
    (hright : forum.CountersRight) (calls : List ForumCall) :
    Throughout forumStep Forum.CountersRight forum calls ↔
      Along forumStep (fun forum call => ¬ DeletesAgain forum call) forum calls :=
  throughout_iff_along (I := Forum.WellFormed) (L := Forum.CountersRight)
    (fun _ call hforum => hforum.step call)
    (fun _ call hforum hright => countersRight_step_iff hforum hright call) h hright calls

/-- The counters are right after a reply is deleted once. -/
theorem countersRight_deletedOnce :
    Throughout forumStep Forum.CountersRight emptyForum deletedOnce := by
  refine (countersRight_throughout_iff emptyForum_wellFormed emptyForum_countersRight
    deletedOnce).mpr ⟨not_false, not_false, ?_, trivial⟩
  rintro ⟨existing, _, _, _, hdeleted, _⟩
  exact List.not_mem_nil hdeleted

/-- An administrator who deletes the reply again leaves negative counters. -/
theorem deleted_twice :
    ¬ Throughout forumStep Forum.CountersRight emptyForum
      (deletedOnce ++ [.delete keeper { id := some 2 } 3]) := by
  intro h
  have hfinal := (throughout_iff.mp h) _ (List.prefix_refl _)
  have hcounters := countersRight_iff.mp hfinal 1 (-1, -1) (by decide +kernel)
  have hreplies := congrArg Prod.fst hcounters
  dsimp only at hreplies
  omega

end Rellm.Posts
