import Mathlib.Data.List.Basic

/-!
# Programs of statements

A program executes statements one after another without a transaction. A failing
statement ends it, and what the earlier statements wrote stays. Such a program is
a computation in `EStateM`; its effect is described by a relation between the
state before it and the state it leaves, whether it succeeds or fails.
-/

namespace Rellm.Foundation

variable {ε σ α β : Type}

/-- The state a program leaves. -/
def finalState : EStateM.Result ε σ α → σ
  | .ok _ s => s
  | .error _ s => s

@[simp] theorem finalState_ok (a : α) (s : σ) :
    finalState (.ok a s : EStateM.Result ε σ α) = s := rfl

@[simp] theorem finalState_error (e : ε) (s : σ) :
    finalState (.error e s : EStateM.Result ε σ α) = s := rfl

/-- Whether a program succeeded. -/
def succeeded : EStateM.Result ε σ α → Bool
  | .ok _ _ => true
  | .error _ _ => false

@[simp] theorem succeeded_ok (a : α) (s : σ) :
    succeeded (.ok a s : EStateM.Result ε σ α) = true := rfl

@[simp] theorem succeeded_error (e : ε) (s : σ) :
    succeeded (.error e s : EStateM.Result ε σ α) = false := rfl

/-- A program continues in the state its first part succeeded in. -/
theorem bind_of_ok {x : EStateM ε σ α} {f : α → EStateM ε σ β} {s s' : σ} {a : α}
    (h : x s = .ok a s') : (x >>= f) s = f a s' := by
  simp only [bind, EStateM.bind, h]

/-- A program ends in the state its first part failed in. -/
theorem bind_of_error {x : EStateM ε σ α} {f : α → EStateM ε σ β} {s s' : σ} {e : ε}
    (h : x s = .error e s') : (x >>= f) s = .error e s' := by
  simp only [bind, EStateM.bind, h]

/-- A program succeeds if its parts do, one after the other. -/
theorem bind_eq_ok {x : EStateM ε σ α} {f : α → EStateM ε σ β} {s s'' : σ} {b : β} :
    (x >>= f) s = .ok b s'' ↔ ∃ a s', x s = .ok a s' ∧ f a s' = .ok b s'' := by
  cases h : x s with
  | ok a s' =>
    rw [bind_of_ok h]
    simp
  | error e s' =>
    rw [bind_of_error h]
    simp

theorem succeeded_bind_of_ok {x : EStateM ε σ α} {f : α → EStateM ε σ β} {s s' : σ} {a : α}
    (h : x s = .ok a s') : succeeded ((x >>= f) s) = succeeded (f a s') := by
  rw [bind_of_ok h]

/-- A program does not succeed if its first part does not. -/
theorem succeeded_bind_of_failed {x : EStateM ε σ α} {f : α → EStateM ε σ β} {s : σ}
    (h : succeeded (x s) = false) : succeeded ((x >>= f) s) = false := by
  cases hx : x s with
  | ok a s' =>
    rw [hx] at h
    cases h
  | error e s' => rw [bind_of_error hx, succeeded_error]

/-- Converting its result does not change whether a program succeeds. -/
theorem succeeded_bind_pure {x : EStateM ε σ α} {f : α → β} {s : σ} :
    succeeded ((x >>= fun a => pure (f a)) s) = succeeded (x s) := by
  cases hx : x s with
  | ok a s' =>
    rw [bind_of_ok hx]
    rfl
  | error e s' => rw [bind_of_error hx, succeeded_error, succeeded_error]

/-- A program that succeeds and writes nothing leaves the state it started in. -/
theorem ok_of_succeeded {x : EStateM ε σ Unit} {s : σ} (h : succeeded (x s) = true)
    (hsame : finalState (x s) = s) : x s = .ok () s := by
  cases hx : x s with
  | ok a s' =>
    rw [hx] at hsame
    rw [← hsame, finalState_ok]
  | error e s' =>
    rw [hx] at h
    cases h

/-- A loop whose iterations all succeed takes the states they leave one after the other. -/
theorem forM_of_succeeded {f : α → EStateM ε σ PUnit} (hf : ∀ a s, succeeded (f a s) = true)
    (items : List α) (s : σ) :
    items.forM f s = .ok ⟨⟩ (items.foldl (fun s a => finalState (f a s)) s) := by
  induction items generalizing s with
  | nil => rfl
  | cons a items ih =>
    have ha := hf a s
    cases hs : f a s with
    | ok _ s' =>
      rw [List.forM, bind_of_ok hs, ih, List.foldl_cons, hs, finalState_ok]
    | error e s' =>
      rw [hs] at ha
      cases ha

/-- A failure of the program is only logged. -/
def logged (x : EStateM ε σ Unit) : EStateM ε σ Unit := fun s => .ok () (finalState (x s))

@[simp] theorem logged_apply (x : EStateM ε σ Unit) (s : σ) :
    logged x s = .ok () (finalState (x s)) := rfl

/-- A failure of the program is handled in the state it left. -/
def recover (x : EStateM ε σ α) (handle : ε → EStateM ε σ α) : EStateM ε σ α := fun s =>
  match x s with
  | .ok a s' => .ok a s'
  | .error e s' => handle e s'

theorem recover_of_ok {x : EStateM ε σ α} {handle : ε → EStateM ε σ α} {s s' : σ} {a : α}
    (h : x s = .ok a s') : recover x handle s = .ok a s' := by
  rw [recover, h]

theorem recover_of_error {x : EStateM ε σ α} {handle : ε → EStateM ε σ α} {s s' : σ} {e : ε}
    (h : x s = .error e s') : recover x handle s = handle e s' := by
  rw [recover, h]

/-- A program whose first part succeeded is handled where its second part fails. -/
theorem recover_bind_of_ok {x : EStateM ε σ α} {f : α → EStateM ε σ β}
    {handle : ε → EStateM ε σ β} {s s' : σ} {a : α} (h : x s = .ok a s') :
    recover (x >>= f) handle s = recover (f a) handle s' := by
  rw [recover, recover, bind_of_ok h]

theorem recover_bind_of_error {x : EStateM ε σ α} {f : α → EStateM ε σ β}
    {handle : ε → EStateM ε σ β} {s s' : σ} {e : ε} (h : x s = .error e s') :
    recover (x >>= f) handle s = handle e s' :=
  recover_of_error (bind_of_error h)

/-- Converting its result does not change the state a program leaves. -/
theorem finalState_bind_pure {x : EStateM ε σ α} {f : α → β} {s : σ} :
    finalState ((x >>= fun a => pure (f a)) s) = finalState (x s) := by
  cases hx : x s with
  | ok a s' =>
    rw [bind_of_ok hx]
    rfl
  | error e s' => rw [bind_of_error hx, finalState_error, finalState_error]

/-- A statement that reads the state and may fail. -/
def attempt (x : σ → Except ε α) : EStateM ε σ α := fun s =>
  match x s with
  | .ok a => .ok a s
  | .error e => .error e s

theorem attempt_of_ok {x : σ → Except ε α} {s : σ} {a : α} (h : x s = .ok a) :
    attempt x s = .ok a s := by
  rw [attempt, h]

theorem attempt_of_error {x : σ → Except ε α} {s : σ} {e : ε} (h : x s = .error e) :
    attempt x s = .error e s := by
  rw [attempt, h]

theorem attempt_eq_ok {x : σ → Except ε α} {s s' : σ} {a : α} :
    attempt x s = .ok a s' ↔ x s = .ok a ∧ s = s' := by
  cases h : x s with
  | ok b =>
    rw [attempt_of_ok h]
    constructor
    · rintro ⟨⟩
      exact ⟨rfl, rfl⟩
    · rintro ⟨⟨⟩, rfl⟩
      rfl
  | error e =>
    rw [attempt_of_error h]
    constructor
    · rintro ⟨⟩
    · rintro ⟨⟨⟩, _⟩

/-- A statement that reads the state leaves it. -/
@[simp] theorem finalState_attempt (x : σ → Except ε α) (s : σ) :
    finalState (attempt x s) = s := by
  cases h : x s with
  | ok a => rw [attempt_of_ok h, finalState_ok]
  | error e => rw [attempt_of_error h, finalState_error]

/-- A program that starts with a check leaves the state where the check fails. -/
theorem finalState_attempt_bind {x : σ → Except ε α} {f : α → EStateM ε σ β} {s : σ} :
    (∃ a, x s = .ok a ∧ finalState ((attempt x >>= f) s) = finalState (f a s)) ∨
      (∃ e, x s = .error e ∧ finalState ((attempt x >>= f) s) = s) := by
  cases h : x s with
  | ok a =>
    left
    exact ⟨a, rfl, by rw [bind_of_ok (attempt_of_ok h)]⟩
  | error e =>
    right
    exact ⟨e, rfl, by rw [bind_of_error (attempt_of_error h), finalState_error]⟩

/-- A program goes on in the state that a writing statement leaves. -/
theorem modify_bind {write : σ → σ} {f : PUnit → EStateM ε σ β} {s : σ} :
    ((modify write >>= f) : EStateM ε σ β) s = f ⟨⟩ (write s) := rfl

/-- A program goes on with the state it reads. -/
theorem get_bind {f : σ → EStateM ε σ β} {s : σ} :
    ((get >>= f) : EStateM ε σ β) s = f s s := rfl

/-- A program that checks, writes and reads. -/
def checked (x : σ → Except ε α) (write : α → σ → σ) (y : α → σ → Except ε β) : EStateM ε σ β := do
  let a ← attempt x
  modify (write a)
  attempt (y a)

/-- It leaves what it writes, or where the check fails the state it started in. -/
theorem finalState_checked {x : σ → Except ε α} {f : α → σ → σ} {y : α → σ → Except ε β}
    {s : σ} :
    (∃ a, x s = .ok a ∧ finalState (checked x f y s) = f a s) ∨
      (∃ e, x s = .error e ∧ finalState (checked x f y s) = s) := by
  unfold checked
  rcases finalState_attempt_bind (x := x) (s := s) with ⟨a, ha, hfinal⟩ | ⟨e, he, hfinal⟩
  · left
    refine ⟨a, ha, ?_⟩
    rw [hfinal, modify_bind, finalState_attempt]
  · right
    exact ⟨e, he, hfinal⟩

theorem checked_of_ok {x : σ → Except ε α} {f : α → σ → σ} {y : α → σ → Except ε β} {s : σ}
    {a : α} {b : β} (ha : x s = .ok a) (hb : y a (f a s) = .ok b) :
    checked x f y s = .ok b (f a s) := by
  unfold checked
  rw [bind_of_ok (attempt_of_ok ha), modify_bind, attempt_of_ok hb]

/-- What its write keeps, the program keeps. -/
theorem checked_invariant {I : σ → Prop} {x : σ → Except ε α} {write : α → σ → σ}
    {y : α → σ → Except ε β} {s : σ} (hs : I s) (hwrite : ∀ a, x s = .ok a → I (write a s)) :
    I (finalState (checked x write y s)) := by
  have hfinal := finalState_checked (x := x) (f := write) (y := y) (s := s)
  rcases hfinal with ⟨a, ha, hfinal⟩ | ⟨_, _, hfinal⟩
  · rw [hfinal]
    exact hwrite a ha
  · rw [hfinal]
    exact hs

/-- A program in a transaction: where it fails, nothing of what it wrote stays. -/
def transaction (x : EStateM ε σ α) : EStateM ε σ α := fun s =>
  match x s with
  | .ok a s' => .ok a s'
  | .error e _ => .error e s

theorem transaction_of_ok {x : EStateM ε σ α} {s s' : σ} {a : α} (h : x s = .ok a s') :
    transaction x s = .ok a s' := by
  rw [transaction, h]

theorem transaction_of_error {x : EStateM ε σ α} {s s' : σ} {e : ε} (h : x s = .error e s') :
    transaction x s = .error e s := by
  rw [transaction, h]

/-- What a program that succeeds keeps, it keeps in a transaction. -/
theorem transaction_invariant {I : σ → Prop} {x : EStateM ε σ α} {s : σ} (hs : I s)
    (hx : ∀ a s', x s = .ok a s' → I s') : I (finalState (transaction x s)) := by
  cases h : x s with
  | ok a s' =>
    rw [transaction_of_ok h]
    exact hx a s' h
  | error e s' =>
    rw [transaction_of_error h]
    exact hs

/-- What a check does not change, and the rest of a program keeps, the program keeps. -/
theorem attempt_bind_invariant {I : σ → Prop} {x : σ → Except ε α} {f : α → EStateM ε σ β} {s : σ}
    (hs : I s) (hf : ∀ a, x s = .ok a → I (finalState (f a s))) :
    I (finalState ((attempt x >>= f) s)) := by
  rcases finalState_attempt_bind (x := x) (f := f) (s := s) with ⟨a, ha, hfinal⟩ | ⟨_, _, hfinal⟩
  · rw [hfinal]
    exact hf a ha
  · rw [hfinal]
    exact hs

/-- What both parts of a program keep from a state on, the program keeps. -/
theorem relates_bind {R : σ → σ → Prop} (htrans : ∀ s s' s'', R s s' → R s' s'' → R s s'')
    {x : EStateM ε σ α} {f : α → EStateM ε σ β} {s : σ} (hx : R s (finalState (x s)))
    (hf : ∀ a s', x s = .ok a s' → R s' (finalState (f a s'))) :
    R s (finalState ((x >>= f) s)) := by
  cases hs : x s with
  | ok a s' =>
    rw [hs] at hx
    rw [bind_of_ok hs]
    exact htrans s s' _ hx (hf a s' hs)
  | error e s' =>
    rw [hs] at hx
    rw [bind_of_error hs]
    exact hx

/-- However the program ends, it relates the state before it to the state it leaves. -/
def Within (R : σ → σ → Prop) (x : EStateM ε σ α) : Prop := ∀ s, R s (finalState (x s))

/-- The program writes nothing. -/
abbrev ReadOnly (x : EStateM ε σ α) : Prop := Within (fun s s' => s' = s) x

namespace Within

variable {R : σ → σ → Prop}

theorem of_ok {x : EStateM ε σ α} {s s' : σ} {a : α} (hx : Within R x) (h : x s = .ok a s') :
    R s s' := by
  have hs := hx s
  rwa [h] at hs

theorem pure (hrefl : ∀ s, R s s) (a : α) : Within R (pure a : EStateM ε σ α) := fun s => hrefl s

theorem throw (hrefl : ∀ s, R s s) (e : ε) : Within R (throw e : EStateM ε σ α) := fun s => hrefl s

/-- What both parts of a program keep, the program keeps. -/
theorem bind (htrans : ∀ s s' s'', R s s' → R s' s'' → R s s'') {x : EStateM ε σ α}
    {f : α → EStateM ε σ β} (hx : Within R x) (hf : ∀ a, Within R (f a)) :
    Within R (x >>= f) := by
  intro s
  exact relates_bind htrans (hx s) fun a s' _ => hf a s'

theorem recover (htrans : ∀ s s' s'', R s s' → R s' s'' → R s s'') {x : EStateM ε σ α}
    {handle : ε → EStateM ε σ α} (hx : Within R x) (hhandle : ∀ e, Within R (handle e)) :
    Within R (recover x handle) := by
  intro s
  have hfirst := hx s
  cases hs : x s with
  | ok a s' =>
    rw [hs] at hfirst
    rw [recover_of_ok hs]
    exact hfirst
  | error e s' =>
    rw [hs] at hfirst
    rw [recover_of_error hs]
    exact htrans s s' _ hfirst (hhandle e s')

/-- What each iteration keeps, the loop keeps. -/
theorem forM (hrefl : ∀ s, R s s) (htrans : ∀ s s' s'', R s s' → R s' s'' → R s s'')
    {f : α → EStateM ε σ PUnit} {items : List α} (hf : ∀ a ∈ items, Within R (f a)) :
    Within R (items.forM f) := by
  induction items with
  | nil => exact Within.pure hrefl _
  | cons a items ih =>
    rw [List.forM]
    exact (hf a List.mem_cons_self).bind htrans
      fun _ => ih fun b hb => hf b (List.mem_cons_of_mem _ hb)

theorem logged {x : EStateM ε σ Unit} (hx : Within R x) : Within R (logged x) := hx

/-- A weaker relation is kept too. -/
theorem mono {R' : σ → σ → Prop} (h : ∀ s s', R s s' → R' s s') {x : EStateM ε σ α}
    (hx : Within R x) : Within R' x := fun s => h s _ (hx s)

end Within

/-- A program that fails relates the state before it to the state it leaves. -/
def OnFailure (R : σ → σ → Prop) (x : EStateM ε σ α) : Prop :=
  ∀ s e s', x s = .error e s' → R s s'

theorem Within.onFailure {R : σ → σ → Prop} {x : EStateM ε σ α} (hx : Within R x) :
    OnFailure R x := by
  intro s e s' h
  have hs := hx s
  rwa [h] at hs

/-- What the first part of a program keeps, and the second where it fails, the program keeps where
it fails. -/
theorem OnFailure.bind {R : σ → σ → Prop} (htrans : ∀ s s' s'', R s s' → R s' s'' → R s s'')
    {x : EStateM ε σ α} {f : α → EStateM ε σ β} (hx : Within R x) (hf : ∀ a, OnFailure R (f a)) :
    OnFailure R (x >>= f) := by
  intro s e s'' h
  cases hs : x s with
  | ok a s' =>
    have hfirst := hx s
    rw [hs] at hfirst
    rw [bind_of_ok hs] at h
    exact htrans s s' s'' hfirst (hf a s' e s'' h)
  | error e' s' =>
    rw [bind_of_error hs] at h
    cases h
    exact hx.onFailure s e s'' hs

/-- The program does not fail with an error in a state. -/
def Avoids (e : ε) (x : EStateM ε σ α) (s : σ) : Prop := ∀ s', x s ≠ .error e s'

instance [DecidableEq ε] (e : ε) (x : EStateM ε σ α) (s : σ) : Decidable (Avoids e x s) :=
  match h : x s with
  | .ok _ _ => .isTrue fun s' hfail => by
    rw [h] at hfail
    cases hfail
  | .error e' s'' => decidable_of_iff (e' ≠ e)
    ⟨fun hne s' hfail => by
      rw [h] at hfail
      cases hfail
      exact hne rfl, fun havoids heq => havoids s'' (heq ▸ h)⟩

namespace Avoids

variable {e : ε} {s : σ}

theorem pure (a : α) : Avoids e (pure a : EStateM ε σ α) s := fun _ h => nomatch h

theorem throw {e' : ε} (h : e' ≠ e) : Avoids e (throw e' : EStateM ε σ α) s := by
  rintro s' ⟨⟩
  exact h rfl

theorem attempt {x : σ → Except ε α} (h : x s ≠ .error e) : Avoids e (attempt x) s := by
  intro s' hfail
  cases hx : x s with
  | ok a =>
    rw [attempt_of_ok hx] at hfail
    cases hfail
  | error e' =>
    rw [attempt_of_error hx] at hfail
    cases hfail
    exact h hx

/-- A program whose parts avoid an error avoids it. -/
theorem bind {x : EStateM ε σ α} {f : α → EStateM ε σ β} (hx : Avoids e x s)
    (hf : ∀ a s', x s = .ok a s' → Avoids e (f a) s') : Avoids e (x >>= f) s := by
  intro s' hfail
  cases hs : x s with
  | ok a s'' =>
    rw [Foundation.bind_of_ok hs] at hfail
    exact hf a s'' hs s' hfail
  | error e' s'' =>
    rw [Foundation.bind_of_error hs] at hfail
    cases hfail
    exact hx s' hs

/-- A program whose first part succeeds avoids an error that its second part avoids. -/
theorem bind_of_ok {x : EStateM ε σ α} {f : α → EStateM ε σ β} {a : α} {s' : σ}
    (h : x s = .ok a s') (hf : Avoids e (f a) s') : Avoids e (x >>= f) s := by
  intro s'' hfail
  rw [Foundation.bind_of_ok h] at hfail
  exact hf s'' hfail

theorem bind_of_error {x : EStateM ε σ α} {f : α → EStateM ε σ β} {e' : ε} {s' : σ}
    (h : x s = .error e' s') (hne : e' ≠ e) : Avoids e (x >>= f) s := by
  intro s'' hfail
  rw [Foundation.bind_of_error h] at hfail
  cases hfail
  exact hne rfl

/-- A loop avoids an error, and keeps what each iteration keeps that succeeds. -/
theorem forM {I : σ → Prop} {f : α → EStateM ε σ PUnit} {items : List α} (hs : I s)
    (hf : ∀ a ∈ items, ∀ s, I s → Avoids e (f a) s ∧ ∀ u s', f a s = .ok u s' → I s') :
    Avoids e (items.forM f) s ∧ ∀ u s', items.forM f s = .ok u s' → I s' := by
  induction items generalizing s with
  | nil =>
    refine ⟨.pure _, fun u s' h => ?_⟩
    cases h
    exact hs
  | cons a items ih =>
    obtain ⟨hsafe, hkeeps⟩ := hf a List.mem_cons_self s hs
    have hrest (s : σ) (hs : I s) :=
      ih hs fun b hb => hf b (List.mem_cons_of_mem _ hb)
    rw [List.forM]
    constructor
    · exact hsafe.bind fun u s' hfirst => (hrest s' (hkeeps u s' hfirst)).1
    · intro u s'' h
      obtain ⟨u', s', hfirst, hlater⟩ := bind_eq_ok.mp h
      exact (hrest s' (hkeeps u' s' hfirst)).2 u s'' hlater

theorem transaction {x : EStateM ε σ α} (hx : Avoids e x s) : Avoids e (transaction x) s := by
  intro s' hfail
  cases hs : x s with
  | ok a s'' =>
    rw [transaction_of_ok hs] at hfail
    cases hfail
  | error e' s'' =>
    rw [transaction_of_error hs] at hfail
    cases hfail
    exact hx s'' hs

end Avoids

/-- A loop that sets a value in some of its iterations leaves the value set last. -/
theorem foldl_lastWrite {β : Type*} {f : σ → α → σ} {value : σ → β} {I : σ → Prop}
    (write : α → Option β) {items : List α} (hI : ∀ s, ∀ a ∈ items, I s → I (f s a))
    (hvalue : ∀ s, ∀ a ∈ items, I s → value (f s a) = (write a).getD (value s)) {s : σ}
    (hs : I s) :
    value (items.foldl f s) = ((items.filterMap write).getLast?).getD (value s) := by
  induction items generalizing s with
  | nil => rfl
  | cons a items ih =>
    have hrest := ih (fun s b hb => hI s b (List.mem_cons_of_mem _ hb))
      (fun s b hb => hvalue s b (List.mem_cons_of_mem _ hb)) (hI s a List.mem_cons_self hs)
    rw [List.foldl_cons, hrest, hvalue s a List.mem_cons_self hs, List.filterMap_cons]
    cases write a with
    | none => rfl
    | some b =>
      rw [List.getLast?_cons, Option.getD_some, Option.getD_some]

namespace ReadOnly

theorem pure (a : α) : ReadOnly (pure a : EStateM ε σ α) := fun _ => rfl

/-- Programs that write nothing, one after the other, write nothing. -/
theorem bind {x : EStateM ε σ α} {f : α → EStateM ε σ β} (hx : ReadOnly x)
    (hf : ∀ a, ReadOnly (f a)) : ReadOnly (x >>= f) :=
  Within.bind (fun _ _ _ h h' => h'.trans h) hx hf

end ReadOnly

end Rellm.Foundation
