import Mathlib.Data.UInt
import Rellm.Foundation.Overflow
import Rellm.Foundation.Run
import Rellm.Foundation.Serial
import Rellm.Market.Tables

/-!
# Grants of AI tokens

The owner of an AI provider grants tokens to others. A generation checks the grant before it
calls the provider, and charges what the call cost afterwards, in one statement; many may
pass the check before any of them charges. The log tells what was granted and charged.
-/

namespace Rellm.Ai

open Foundation Market

/-- A stored grant. -/
structure GrantRow extends AiProviderGrant where
  id : Nat
  deriving DecidableEq, Repr

/-- What happened to a grant. -/
inductive GrantEvent where
  | granted (grantId : Nat) (tokens : UInt64)
  | charged (grantId : Nat) (tokens : Int64)
  deriving DecidableEq, Repr

/-- The grants, the generations that passed their check of a grant and have not charged it yet,
and the log, the latest event first. -/
structure Grants where
  rows : Serial GrantRow.id
  pending : List Nat
  log : List GrantEvent

/-- A request to grant tokens, or to grant them again. -/
structure GrantRequest where
  aiProviderId : Nat
  granteeId : Nat
  modelNames : List String
  tokens : UInt64
  deriving DecidableEq, Repr

/-- The grant that is written; the tokens are cast to a signed integer. -/
def GrantRequest.newGrant (request : GrantRequest) : AiProviderGrant where
  aiProviderId := request.aiProviderId
  granteeId := request.granteeId
  modelNames := request.modelNames
  tokensRemaining := request.tokens.toInt64
  overage := 0

/-- What a grant that is there takes over of a new one. -/
def GrantRow.regranted (new : AiProviderGrant) (row : GrantRow) : GrantRow :=
  { row with
    modelNames := new.modelNames
    tokensRemaining := new.tokensRemaining
    overage := new.overage }

theorem GrantRow.id_regranted (new : AiProviderGrant) (row : GrantRow) :
    (row.regranted new).id = row.id := rfl

/-- The grant of a provider to a user. -/
def Grants.find (grants : Grants) (key : Nat × Nat) : Option GrantRow :=
  grants.rows.rows.find? fun row => row.key = key

/-- A grant is written over the one of the provider and the user, or added. -/
def Grants.upsert (grants : Grants) (request : GrantRequest) : Grants :=
  let new := request.newGrant
  match grants.find new.key with
  | some row =>
    { grants with
      rows := grants.rows.modify row.id (GrantRow.regranted new) (GrantRow.id_regranted new)
      log := .granted row.id request.tokens :: grants.log }
  | none =>
    { grants with
      rows := grants.rows.insert (fun id => ⟨new, id⟩) fun _ => rfl
      log := .granted grants.rows.next request.tokens :: grants.log }

theorem Grants.upsert_of_some {grants : Grants} {request : GrantRequest} {row : GrantRow}
    (h : grants.find request.newGrant.key = some row) :
    grants.upsert request =
      { grants with
        rows := grants.rows.modify row.id (GrantRow.regranted request.newGrant)
          (GrantRow.id_regranted request.newGrant)
        log := .granted row.id request.tokens :: grants.log } := by
  simp only [Grants.upsert, h]

theorem Grants.upsert_of_none {grants : Grants} {request : GrantRequest}
    (h : grants.find request.newGrant.key = none) :
    grants.upsert request =
      { grants with
        rows := grants.rows.insert (fun id => ⟨request.newGrant, id⟩) fun _ => rfl
        log := .granted grants.rows.next request.tokens :: grants.log } := by
  simp only [Grants.upsert, h]

/-- A generation that passes the checks of the grant goes ahead. -/
def Grants.start (grants : Grants) (key : Nat × Nat) (modelName : String)
    (estimatedInputTokens : Int) : Grants :=
  match grants.find key with
  | none => grants
  | some row =>
    if (row.modelNames = [] ∨ modelName ∈ row.modelNames) ∧ 0 < row.tokensRemaining.toInt ∧
        estimatedInputTokens ≤ row.tokensRemaining.toInt then
      { grants with pending := grants.pending ++ [row.id] }
    else grants

/-- The greater of two values of a column. -/
def greatest (value value' : Int64) : Int64 :=
  if value.toInt ≤ value'.toInt then value' else value

/-- The grant after tokens are charged, if it has any left. -/
def GrantRow.spend (cost : Int64) (row : GrantRow) : Option GrantRow :=
  if 0 < row.tokensRemaining.toInt then do
    let left ← checked64 (row.tokensRemaining.toInt - cost.toInt)
    let short ← checked64 (cost.toInt - row.tokensRemaining.toInt)
    return { row with tokensRemaining := greatest left 0, overage := greatest short 0 }
  else none

/-- What a call cost, at least one token. -/
def chargedTokens (tokensUsed : Option Int64) : Int64 := greatest (tokensUsed.getD 1) 1

/-- The statement that charges a grant. -/
def Grants.charge (grants : Grants) (grantId : Nat) (cost : Int64) : Grants :=
  match (grants.rows.get grantId).bind (GrantRow.spend cost) with
  | none => grants
  | some charged =>
    { grants with
      rows := grants.rows.modify grantId (fun row => { charged with id := row.id }) fun _ => rfl
      log := .charged grantId cost :: grants.log }

/-- A generation that is under way charges its grant. -/
def Grants.finish (grants : Grants) (index : Nat) (tokensUsed : Option Int64) : Grants :=
  match grants.pending[index]? with
  | none => grants
  | some grantId =>
    { grants with pending := grants.pending.eraseIdx index }.charge grantId
      (chargedTokens tokensUsed)

inductive GrantAction where
  | grant (request : GrantRequest)
  | start (key : Nat × Nat) (modelName : String) (estimatedInputTokens : Int)
  | finish (index : Nat) (tokensUsed : Option Int64)
  deriving DecidableEq, Repr

/-- Grants and generations in any order. -/
def grantStep (grants : Grants) : GrantAction → Grants
  | .grant request => grants.upsert request
  | .start key modelName estimatedInputTokens => grants.start key modelName estimatedInputTokens
  | .finish index tokensUsed => grants.finish index tokensUsed

/-- The tokens that were last granted. -/
def lastGranted (grantId : Nat) : List GrantEvent → Int
  | [] => 0
  | .granted other tokens :: log => if other = grantId then tokens.toNat else lastGranted grantId log
  | .charged _ _ :: log => lastGranted grantId log

/-- The tokens that were charged since tokens were last granted. -/
def chargedSince (grantId : Nat) : List GrantEvent → Int
  | [] => 0
  | .granted other _ :: log => if other = grantId then 0 else chargedSince grantId log
  | .charged other tokens :: log =>
    (if other = grantId then tokens.toInt else 0) + chargedSince grantId log

/-- A grant accounts for the tokens of the log. -/
structure GrantRow.Accounted (log : List GrantEvent) (row : GrantRow) : Prop where
  remaining_nonneg : 0 ≤ row.tokensRemaining.toInt
  overage_nonneg : 0 ≤ row.overage.toInt
  spent : 0 < row.overage.toInt → row.tokensRemaining.toInt = 0
  balance : lastGranted row.id log + row.overage.toInt =
    row.tokensRemaining.toInt + chargedSince row.id log

/-- Every grant accounts for the tokens of the log. -/
def Grants.Accounted (grants : Grants) : Prop :=
  ∀ row ∈ grants.rows.rows, row.Accounted grants.log

/-- A grant is of tokens that a signed integer holds. -/
def GrantsFewTokens (_grants : Grants) : GrantAction → Prop
  | .grant request => request.tokens.toNat < 2 ^ 63
  | _ => True

/-- A signed integer holds fewer tokens than half of what an unsigned one does. -/
theorem toInt_toInt64 (tokens : UInt64) :
    tokens.toInt64.toInt =
      if tokens.toNat < 2 ^ 63 then (tokens.toNat : Int) else tokens.toNat - 2 ^ 64 := by
  have htoInt : tokens.toInt64.toInt = tokens.toBitVec.toInt := rfl
  have htoNat : tokens.toBitVec.toNat = tokens.toNat := rfl
  have hlt := tokens.toNat_lt
  rw [htoInt, BitVec.toInt_eq_toNat_cond, htoNat]
  split <;> split <;> omega

theorem toInt_greatest (value value' : Int64) :
    (greatest value value').toInt = max value.toInt value'.toInt := by
  unfold greatest
  split
  · rename_i h
    rw [max_eq_right h]
  · rename_i h
    rw [max_eq_left (by omega)]

theorem chargedTokens_pos (tokensUsed : Option Int64) : 0 < (chargedTokens tokensUsed).toInt := by
  have hone : (1 : Int64).toInt = 1 := rfl
  rw [chargedTokens, toInt_greatest, hone]
  omega

/-- A charge takes what it costs off the tokens, and the rest of it is overage. -/
theorem GrantRow.spend_eq_some {cost : Int64} (hcost : 0 < cost.toInt) {row charged : GrantRow}
    (h : row.spend cost = some charged) :
    0 < row.tokensRemaining.toInt ∧
      charged.tokensRemaining.toInt = max (row.tokensRemaining.toInt - cost.toInt) 0 ∧
      charged.overage.toInt = max (cost.toInt - row.tokensRemaining.toInt) 0 := by
  have hzero : (0 : Int64).toInt = 0 := rfl
  have htokens := row.tokensRemaining.toInt_lt
  have hlt := cost.toInt_lt
  unfold GrantRow.spend at h
  split at h
  · rename_i hleft
    obtain ⟨left, hchecked, hleftInt⟩ :=
      checked64_of_bounds (row.tokensRemaining.toInt - cost.toInt) (by omega) (by omega)
    obtain ⟨short, hchecked', hshortInt⟩ :=
      checked64_of_bounds (cost.toInt - row.tokensRemaining.toInt) (by omega) (by omega)
    rw [hchecked, hchecked'] at h
    cases h
    refine ⟨hleft, ?_, ?_⟩
    · rw [toInt_greatest, hleftInt, hzero]
    · rw [toInt_greatest, hshortInt, hzero]
  · cases h

section

variable {log : List GrantEvent} {row : GrantRow}

/-- An event of another grant does not count. -/
theorem GrantRow.Accounted.granted_other (h : row.Accounted log) {grantId : Nat}
    (hother : row.id ≠ grantId) (tokens : UInt64) : row.Accounted (.granted grantId tokens :: log) := by
  refine ⟨h.remaining_nonneg, h.overage_nonneg, h.spent, ?_⟩
  rw [lastGranted, chargedSince, if_neg hother.symm, if_neg hother.symm]
  exact h.balance

theorem GrantRow.Accounted.charged_other (h : row.Accounted log) {grantId : Nat}
    (hother : row.id ≠ grantId) (cost : Int64) : row.Accounted (.charged grantId cost :: log) := by
  refine ⟨h.remaining_nonneg, h.overage_nonneg, h.spent, ?_⟩
  rw [lastGranted, chargedSince, if_neg hother.symm, Int.zero_add]
  exact h.balance

/-- What is charged is taken off the tokens or added to the overage. -/
theorem GrantRow.Accounted.charge (h : row.Accounted log) {cost : Int64} (hcost : 0 < cost.toInt)
    {charged : GrantRow} (hspend : row.spend cost = some charged) :
    GrantRow.Accounted (.charged row.id cost :: log) { charged with id := row.id } := by
  obtain ⟨hleft, hremaining, hoverage⟩ := GrantRow.spend_eq_some hcost hspend
  have hbalance := h.balance
  -- a grant with tokens left has no overage
  have hnone : row.overage.toInt = 0 := by
    have hspent := h.spent
    have hnonneg := h.overage_nonneg
    omega
  constructor
  · dsimp only
    omega
  · dsimp only
    omega
  · dsimp only
    omega
  · dsimp only
    rw [lastGranted, chargedSince, if_pos rfl]
    omega

/-- A fresh grant is accounted for exactly if a signed integer holds its tokens. -/
theorem accounted_granted_iff {request : GrantRequest} (row : GrantRow)
    (hremaining : row.tokensRemaining = request.tokens.toInt64) (hoverage : row.overage = 0) :
    row.Accounted (.granted row.id request.tokens :: log) ↔ request.tokens.toNat < 2 ^ 63 := by
  have hzero : (0 : Int64).toInt = 0 := rfl
  have hlt := request.tokens.toNat_lt
  have htokens := toInt_toInt64 request.tokens
  constructor
  · intro h
    have hnonneg := h.remaining_nonneg
    rw [hremaining, htokens] at hnonneg
    split at hnonneg
    · assumption
    · omega
  · intro hfew
    rw [if_pos hfew] at htokens
    constructor
    · rw [hremaining, htokens]
      omega
    · rw [hoverage, hzero]
    · rw [hoverage, hzero]
      omega
    · rw [lastGranted, chargedSince, if_pos rfl, if_pos rfl, hremaining, htokens, hoverage, hzero]

end

section

variable {grants : Grants} (h : grants.Accounted)

include h

theorem Grants.Accounted.charge {cost : Int64} (hcost : 0 < cost.toInt) (grantId : Nat) :
    (grants.charge grantId cost).Accounted := by
  unfold Grants.charge
  cases hcharged : (grants.rows.get grantId).bind (GrantRow.spend cost) with
  | none => exact h
  | some charged =>
    obtain ⟨row, hget, hspend⟩ := Option.bind_eq_some_iff.mp hcharged
    obtain ⟨hmem, rfl⟩ := Table.get_eq_some_iff.mp hget
    intro other hother
    rcases Serial.mem_modify _ _ _ hother with ⟨hother, hne⟩ | ⟨before, hbefore, rfl⟩
    · exact (h other hother).charged_other hne cost
    · rw [hget, Option.some.injEq] at hbefore
      subst hbefore
      exact (h row hmem).charge hcost hspend

/-- Tokens that are granted are accounted for exactly if a signed integer holds them. -/
theorem Grants.Accounted.upsert_iff (request : GrantRequest) :
    (grants.upsert request).Accounted ↔ request.tokens.toNat < 2 ^ 63 := by
  cases hfind : grants.find request.newGrant.key with
  | some row =>
    have hmem : row ∈ grants.rows.rows := List.mem_of_find?_eq_some hfind
    rw [Grants.upsert_of_some hfind]
    constructor
    · intro hafter
      have hget : (grants.rows.modify row.id (GrantRow.regranted request.newGrant)
          (GrantRow.id_regranted request.newGrant)).get row.id = some (row.regranted request.newGrant) := by
        rw [Serial.get_modify, if_pos rfl, Table.mem_rows_iff.mp hmem, Option.map_some]
      exact (accounted_granted_iff (row.regranted request.newGrant) rfl rfl).mp
        (hafter _ (Table.get_eq_some_iff.mp hget).1)
    · intro hfew other hother
      rcases Serial.mem_modify _ _ _ hother with ⟨hother, hne⟩ | ⟨before, hbefore, rfl⟩
      · exact (h other hother).granted_other hne _
      · have hid : before.id = row.id := Table.key_of_get hbefore
        dsimp only
        rw [← hid]
        exact (accounted_granted_iff (before.regranted request.newGrant) rfl rfl).mpr hfew
  | none =>
    rw [Grants.upsert_of_none hfind]
    have hnew : GrantRow.Accounted (.granted grants.rows.next request.tokens :: grants.log)
        ⟨request.newGrant, grants.rows.next⟩ ↔ request.tokens.toNat < 2 ^ 63 :=
      accounted_granted_iff ⟨request.newGrant, grants.rows.next⟩ rfl rfl
    constructor
    · intro hafter
      exact hnew.mp (hafter _ (by simp))
    · intro hfew other hother
      rw [Serial.rows_insert, List.mem_append, List.mem_singleton] at hother
      rcases hother with hother | rfl
      · exact (h other hother).granted_other (grants.rows.below other hother).ne _
      · exact hnew.mpr hfew

end

/-- Every step keeps the accounts exactly if it does not grant more tokens than a signed integer
holds. -/
theorem accounted_step_iff {grants : Grants} (h : grants.Accounted) (action : GrantAction) :
    (grantStep grants action).Accounted ↔ GrantsFewTokens grants action := by
  cases action with
  | grant request => exact h.upsert_iff request
  | start key modelName estimatedInputTokens =>
    refine iff_of_true ?_ trivial
    dsimp only [grantStep]
    unfold Grants.start
    split
    · exact h
    · split
      · exact h
      · exact h
  | finish index tokensUsed =>
    refine iff_of_true ?_ trivial
    dsimp only [grantStep]
    unfold Grants.finish
    split
    · exact h
    · have hpending : Grants.Accounted { grants with pending := grants.pending.eraseIdx index } := h
      exact hpending.charge (chargedTokens_pos tokensUsed) _

/-- No grants yet. -/
def noGrants : Grants := ⟨⟨Table.empty, 1, by decide⟩, [], []⟩

/-- Throughout a run the grants account for all tokens exactly if every grant is of tokens that a
signed integer holds. -/
theorem accounted_throughout_iff {grants : Grants} (h : grants.Accounted)
    (actions : List GrantAction) :
    Throughout grantStep Grants.Accounted grants actions ↔
      Along grantStep GrantsFewTokens grants actions :=
  throughout_iff_along (I := fun _ => True) (L := Grants.Accounted) (fun _ _ _ => trivial)
    (fun _ action _ hgrants => accounted_step_iff hgrants action) trivial h actions

/-- A call that costs more than what is left leaves overage, which a new grant clears. -/
theorem accounted_overdrawn :
    Throughout grantStep Grants.Accounted noGrants [
      .grant ⟨1, 2, [], 30⟩, .start (1, 2) "image" 5, .start (1, 2) "image" 5,
      .finish 0 (some 45), .finish 0 none, .grant ⟨1, 2, [], 100⟩] := by
  have hfirst : (30 : UInt64).toNat < 2 ^ 63 := by decide
  have hagain : (100 : UInt64).toNat < 2 ^ 63 := by decide
  refine (accounted_throughout_iff ?_ _).mpr
    ⟨hfirst, trivial, trivial, trivial, trivial, hagain, trivial⟩
  intro row hmem
  cases hmem

/-- More tokens than a signed integer holds leave a grant below zero. -/
theorem granted_below_zero :
    ¬ Throughout grantStep Grants.Accounted noGrants [.grant ⟨1, 2, [], 2 ^ 63⟩] := by
  intro h
  have hgrants := h.2.head ⟨⟨1, 2, [], Int64.minValue, 0⟩, 1⟩ (by decide +kernel)
  have hnonneg := hgrants.remaining_nonneg
  revert hnonneg
  decide

end Rellm.Ai
