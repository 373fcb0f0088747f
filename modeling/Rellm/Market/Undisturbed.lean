import Rellm.Market.ChargedOnce

/-!
# Undisturbed renewal runs

A renewal run that nothing comes in between, one call of Stripe or one statement at a time, makes of
the tables what the loop over the due subscriptions makes of them, and comes to its end.
-/

namespace Rellm.Market

open Foundation Calendar

theorem Stage.left_pos (stage : Stage) : 0 < stage.left := by
  cases stage <;> simp [Stage.left]

namespace Renewals

/-- Stripe gives the charge that comes next an id that is not taken. -/
def Accepted (s : Renewals) : RenewalEvent → Prop
  | .proceed _ stripe =>
    ∀ run ∈ s.run, run.stage = .charge → s.accepts (stripe.charge run.subscription) = true
  | _ => True

instance (s : Renewals) (event : RenewalEvent) : Decidable (s.Accepted event) :=
  match event with
  | .proceed _ stripe => inferInstanceAs (Decidable (∀ run ∈ s.run, run.stage = .charge →
      s.accepts (stripe.charge run.subscription) = true))
  | .start _ _ => inferInstanceAs (Decidable True)
  | .cancel _ _ _ => inferInstanceAs (Decidable True)

/-- What the loop leaves of the tables, from the stage that comes next. -/
def outcome (chrono : Chrono) (env : Env) (stripe : StripeApi) (s : Renewals) : MarketDb :=
  match s.run with
  | none => s.db
  | some run =>
    run.rest.foldl
      (fun db subscription =>
        finalState ((if run.usable then Stage.charge else .finish).remaining chrono env stripe
          run.purchaseType subscription db))
      (finalState (run.stage.remaining chrono env stripe run.purchaseType run.subscription s.db))

/-- An upper bound of the stages left in a run. -/
def left (s : Renewals) : Nat :=
  match s.run with
  | none => 0
  | some run => run.stage.left + 6 * run.rest.length

section

variable {chrono : Chrono} {env : Env} {stripe : StripeApi} {purchaseType : PurchaseType}
variable {s : Renewals}

/-- A stage leaves what the loop makes of the tables, and fewer stages. -/
theorem proceed_outcome {run : RenewalRun} (hrun : s.run = some run) :
    (s.proceed chrono env stripe run).outcome chrono env stripe = s.outcome chrono env stripe ∧
      (s.proceed chrono env stripe run).left < s.left := by
  rw [outcome, outcome, left, left, hrun, proceed]
  dsimp only
  rw [Stage.remaining_eq]
  cases hnext : nextStage (run.stage.perform chrono env stripe run.purchaseType run.subscription
      s.db) with
  | some next => exact ⟨rfl, Nat.add_lt_add_right (Stage.left_lt hnext) _⟩
  | none =>
    have hpos := run.stage.left_pos
    rw [done]
    dsimp only
    cases hrest : run.rest with
    | nil => exact ⟨rfl, by simpa [RenewalRun.begin] using hpos⟩
    | cons subscription rest =>
      refine ⟨rfl, ?_⟩
      have hle := Stage.left_le (if run.usable then Stage.charge else .finish)
      simp only [RenewalRun.begin, List.length_cons]
      omega

/-- A run that begins leaves what the loop makes of the tables. -/
theorem outcome_begin (usable : Bool) (subscriptions : List MarketSubscription) :
    { s with run := RenewalRun.begin purchaseType usable subscriptions }.outcome chrono env stripe =
      subscriptions.foldl
        (fun db subscription =>
          finalState ((if usable then Stage.charge else .finish).remaining chrono env stripe
            purchaseType subscription db)) s.db := by
  cases subscriptions with
  | nil => rfl
  | cons subscription rest => rfl

theorem left_begin (usable : Bool) (subscriptions : List MarketSubscription) :
    { s with run := RenewalRun.begin purchaseType usable subscriptions }.left ≤
      6 * subscriptions.length := by
  cases subscriptions with
  | nil => exact Nat.zero_le _
  | cons subscription rest =>
    have hle := Stage.left_le (if usable then Stage.charge else .finish)
    simp only [RenewalRun.begin, left, List.length_cons]
    omega

/-- A run of stages comes to its end, with what the loop makes of the tables. -/
theorem proceeds_outcome {count : Nat}
    (haccepts : Along (Renewals.step chrono) Accepted s (List.replicate count (.proceed env stripe)))
    (hleft : s.left ≤ count) :
    (Foundation.run (Renewals.step chrono) s (List.replicate count (.proceed env stripe))).run = none ∧
      (Foundation.run (Renewals.step chrono) s (List.replicate count (.proceed env stripe))).db =
        s.outcome chrono env stripe := by
  induction count generalizing s with
  | zero =>
    cases hrun : s.run with
    | none => exact ⟨hrun, by rw [outcome, hrun]; rfl⟩
    | some run =>
      rw [left, hrun] at hleft
      have hpos := run.stage.left_pos
      dsimp only at hleft
      omega
  | succ count ih =>
    rw [List.replicate_succ, along_cons] at haccepts
    rw [List.replicate_succ, run_cons]
    cases hrun : s.run with
    | none =>
      have hsame : s.step chrono (.proceed env stripe) = s := by
        rw [step, hrun]
      rw [hsame] at haccepts ⊢
      refine ih haccepts.2 ?_
      rw [left, hrun]
      exact Nat.zero_le _
    | some run =>
      rw [step_proceed hrun (haccepts.1 run hrun)] at haccepts ⊢
      obtain ⟨houtcome, hless⟩ := @proceed_outcome chrono env stripe s run hrun
      rw [← houtcome]
      exact ih haccepts.2 (by omega)

end

end Renewals

/-- The loop over the due subscriptions goes on whatever becomes of one of them. -/
theorem finalState_renewSubscriptionsOfType {chrono : Chrono} {env : Env} {stripe : StripeApi}
    {purchaseType : PurchaseType} {db : MarketDb} {subscriptions : List MarketSubscription}
    (hdue : getDueMarketSubscriptions env purchaseType db = .ok subscriptions db) :
    finalState (renewSubscriptionsOfType chrono env stripe purchaseType db) =
      subscriptions.foldl
        (fun db subscription =>
          finalState ((if (usableServerStripeConfig env).isSome then Stage.charge else .finish).remaining
            chrono env stripe purchaseType subscription db)) db := by
  rw [renewSubscriptionsOfType, bind_of_ok hdue]
  cases usableServerStripeConfig env with
  | none =>
    dsimp only
    rw [forM_of_succeeded fun _ _ => by rw [endSubscription, logged_apply, succeeded_ok]]
    rfl
  | some config =>
    dsimp only
    rw [forM_of_succeeded fun subscription db => by
      rw [renewOrEnd, recover]
      split
      · rfl
      · rw [endSubscription, logged_apply, succeeded_ok]]
    rfl

/-- A renewal run that nothing comes in between makes of the tables what the loop makes of them,
whichever statements fail, and comes to its end within six stages for each due subscription. -/
theorem renewals_undisturbed {chrono : Chrono} {env : Env} {stripe : StripeApi}
    {purchaseType : PurchaseType} {s : Renewals} (hidle : s.run = none) {count : Nat}
    (haccepts : Along (Renewals.step chrono) Renewals.Accepted s
      (.start env purchaseType :: List.replicate count (.proceed env stripe)))
    (hcount : 6 * (s.db.dueSubscriptions purchaseType env.now).length ≤ count) :
    (run (Renewals.step chrono) s
        (.start env purchaseType :: List.replicate count (.proceed env stripe))).run = none ∧
      (run (Renewals.step chrono) s
          (.start env purchaseType :: List.replicate count (.proceed env stripe))).db =
        finalState (renewSubscriptionsOfType chrono env stripe purchaseType s.db) := by
  rw [along_cons] at haccepts
  rw [run_cons]
  have hdue : getDueMarketSubscriptions env purchaseType s.db =
      if env.faults .selectDue then .error ⟨.internal, "failed_to_load_subscriptions"⟩ s.db
      else .ok (s.db.dueSubscriptions purchaseType env.now) s.db := by
    rw [getDueMarketSubscriptions, execute]
  split at hdue
  · -- Nothing is loaded, and the run does not begin.
    have hstart : s.step chrono (.start env purchaseType) = s := by
      rw [Renewals.step, hidle, hdue]
    rw [hstart] at haccepts ⊢
    rw [renewSubscriptionsOfType, bind_of_error hdue, finalState_error]
    obtain ⟨hended, hdb⟩ := Renewals.proceeds_outcome haccepts.2 (by
      rw [Renewals.left, hidle]
      exact Nat.zero_le _)
    rw [Renewals.outcome, hidle] at hdb
    exact ⟨hended, hdb⟩
  · have hstart : s.step chrono (.start env purchaseType) = { s with
        run := RenewalRun.begin purchaseType (usableServerStripeConfig env).isSome
          (s.db.dueSubscriptions purchaseType env.now) } := by
      rw [Renewals.step, hidle, hdue]
    rw [hstart] at haccepts ⊢
    obtain ⟨hended, hdb⟩ := Renewals.proceeds_outcome haccepts.2
      ((Renewals.left_begin _ _).trans hcount)
    rw [Renewals.outcome_begin] at hdb
    exact ⟨hended, hdb.trans (finalState_renewSubscriptionsOfType hdue).symm⟩

/-- Stripe is configured, and the subscription of the market is due. -/
def dueEnv : Env :=
  { now := days 31, stripeConfig := some { stripeEnabled := true, stripeSecretKey := "sk" } }

def chargingStripe : StripeApi := { charge := fun _ => .succeeded "pi_2" }

theorem renewals_undisturbed_due :
    (run (Renewals.step januaryChrono) { db := subscribedMarket }
        (.start dueEnv .mediaStorage :: List.replicate 6 (.proceed dueEnv chargingStripe))).run = none ∧
      (run (Renewals.step januaryChrono) { db := subscribedMarket }
          (.start dueEnv .mediaStorage :: List.replicate 6 (.proceed dueEnv chargingStripe))).db =
        finalState (renewSubscriptionsOfType januaryChrono dueEnv chargingStripe .mediaStorage
          subscribedMarket) :=
  renewals_undisturbed rfl (by decide +kernel) (by decide +kernel)

end Rellm.Market
